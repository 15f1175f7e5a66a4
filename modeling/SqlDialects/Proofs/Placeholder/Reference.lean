import SqlDialects.Compiled
import SqlDialects.Proofs.Placeholder.Script

/-!
A renderer that writes each statement as one list of characters and values, from left to right.
A value is put down where its placeholder stands, so the order of the bindings is that of the text
by construction.
-/

namespace SqlDialects

/-- The ways to write a nested statement, given the scopes around it. -/
structure Spelling where
  aliasName : Option String
  select : Scopes → Except Fault Script
  conditions : Scopes → Except Fault Script
  joined : Scopes → Except Fault Script

namespace Spell

open Script

variable (c : Compiler)

def parameter (scopes : Scopes) : Value → Except Fault Script
  | .raw sql => return text sql
  | v => do
    let bound ← Compiler.resolve scopes v
    return [.value bound]

def parameters (scopes : Scopes) (values : List Value) : Except Fault Script := do
  let parts ← values.mapM (parameter scopes)
  return join ", " parts

def rawText (sql : String) (bindings : List Value) : Script :=
  raw (c.engine.wrapIdentifiers sql).toList bindings

def negate (isNot : Bool) (s : Script) : Script :=
  if isNot then text "NOT (" ++ s ++ text ")" else s

def datePart (scopes : Scopes) (part column operator : String) (value : Value) (isNot : Bool) :
    Except Fault Script := do
  let right ← parameter scopes value
  let name := c.engine.wrap column
  let call (left : String) : Script := negate isNot (text (left ++ " " ++ operator ++ " ") ++ right)
  return match c.engine with
    | .postgres =>
      if part = "time" then call (name ++ "::time")
      else if part = "date" then call (name ++ "::date")
      else call ("DATE_PART('" ++ Text.upper part ++ "', " ++ name ++ ")")
    | .sqlServer =>
      let part := Text.upper part
      if part = "TIME" ∨ part = "DATE" then call ("CAST(" ++ name ++ " AS " ++ part ++ ")")
      else call ("DATEPART(" ++ part ++ ", " ++ name ++ ")")
    | .sqlite =>
      match timeFormat? part with
      | some format =>
        negate isNot (text ("strftime('" ++ format ++ "', " ++ name ++ ") " ++ operator ++
          " cast(") ++ right ++ text " as text)")
      | none => text (name ++ " " ++ operator ++ " ") ++ right
    | _ => call (Text.upper part ++ "(" ++ name ++ ")")

def likeOperand (scopes : Scopes) (value : Value) (pattern : String) : Except Fault Script :=
  match value with
  | .raw _ => return text pattern
  | _ => parameter scopes (.string pattern)

def like (scopes : Scopes) (column operator : String) (value : Value) (caseSensitive : Bool)
    (escape : Option Char) (isNot : Bool) : Except Fault Script := do
  let pattern ← Compiler.likeText scopes value
  let (operator, pattern) := likePattern operator pattern
  let op ← c.checkOperator operator
  let name := c.engine.wrap column
  let name := if caseSensitive then name else "LOWER(" ++ name ++ ")"
  let right ← likeOperand scopes value (if caseSensitive then pattern else Text.lower pattern)
  let suffix := match escape with
    | some e => " ESCAPE '" ++ e.toString ++ "'"
    | none => ""
  return negate isNot (text (name ++ " " ++ op ++ " ") ++ right ++ text suffix)

def condition (scopes : Scopes) (x : Condition Spelling) : Except Fault Script :=
  let isNot := x.isNot
  let wrap := c.engine.wrap
  match x.predicate with
  | .compare column operator value => do
    let op ← c.checkOperator operator
    let right ← parameter scopes value
    return negate isNot (text (wrap column ++ " " ++ op ++ " ") ++ right)
  | .like column operator value caseSensitive escape =>
    like c scopes column operator value caseSensitive escape isNot
  | .datePart part column operator value => do
    let op ← c.checkOperator operator
    datePart c scopes part column op value isNot
  | .columns first operator second => do
    let op ← c.checkOperator operator
    return negate isNot (text (wrap first ++ " " ++ op ++ " " ++ wrap second))
  | .isNull column => return text (wrap column ++ if isNot then " IS NOT NULL" else " IS NULL")
  | .truth column value =>
    return text (wrap column ++ (if isNot then " != " else " = ") ++
      if value then c.engine.trueText else c.engine.falseText)
  | .oneOf _ [] =>
    return text
      (if isNot then "1 = 1 /* NOT IN [empty list] */" else "1 = 0 /* IN [empty list] */")
  | .oneOf column values => do
    let items ← parameters scopes values
    return text (wrap column ++ if isNot then " NOT IN (" else " IN (") ++ items ++ text ")"
  | .oneOfQuery column query => do
    let sub ← query.select scopes
    return text (wrap column ++ if isNot then " NOT IN (" else " IN (") ++ sub ++ text ")"
  | .between column lower higher => do
    let low ← parameter scopes lower
    let high ← parameter scopes higher
    return text (wrap column ++ if isNot then " NOT BETWEEN " else " BETWEEN ") ++ low ++
      text " AND " ++ high
  | .rowsExist query => do
    let sub ← query.select scopes
    return text (if isNot then "NOT EXISTS (" else "EXISTS (") ++ sub ++ text ")"
  | .againstQuery column operator query => do
    let op ← c.checkOperator operator
    let sub ← query.select scopes
    return negate isNot (text (wrap column ++ " " ++ op ++ " (") ++ sub ++ text ")")
  | .queryAgainst query operator value => do
    let op ← c.checkOperator operator
    let sub ← query.select scopes
    let right ← parameter scopes value
    return negate isNot (text "(" ++ sub ++ text (") " ++ op ++ " ") ++ right)
  | .nested query => do
    let group ← query.conditions scopes
    return if group.isEmpty then []
      else text (if isNot then "NOT (" else "(") ++ group ++ text ")"
  | .raw sql bindings => return negate isNot (rawText c sql bindings)

def connect (p : Bool × Script) : Script := text (if p.1 then " OR " else " AND ") ++ p.2

def chain (parts : List (Bool × Script)) : Script :=
  match parts.filter (!·.2.isEmpty) with
  | [] => []
  | (_, first) :: rest => first ++ rest.flatMap connect

def conditions (scopes : Scopes) (xs : List (Condition Spelling)) : Except Fault Script := do
  let parts ← xs.mapM (condition c scopes)
  return chain ((xs.map (·.isOr)).zip parts)

def listed (lead separator : String) (parts : List Script) : Script :=
  if parts.isEmpty then [] else text lead ++ join separator parts

def derived (scopes : Scopes) (q : Spelling) (suffix : String) : Except Fault Script := do
  let sub ← q.select scopes
  return text "(" ++ sub ++ text (")" ++ suffix)

def column (scopes : Scopes) : Column Spelling → Except Fault Script
  | .named name => return text (c.engine.wrap name)
  | .raw sql bindings => return rawText c sql bindings
  | .query q aliasName =>
    derived scopes q <| match aliasName.or q.aliasName with
      | some name =>
        if (Text.trim name).isEmpty then ""
        else " " ++ c.dialect.columnAs ++ c.engine.wrapValue name
      | none => ""

def basicColumns (scopes : Scopes) (q : Statement Spelling) : Except Fault Script := do
  match ← q.getOne .aggregate ClauseKind.aggregate? (some c.engine) with
  | some a => return text (c.aggregateCall q.distinct a)
  | none =>
    let columns ← q.getAll .select ClauseKind.column? (some c.engine)
    let parts ← columns.mapM (column c scopes)
    return text (if q.distinct then "SELECT DISTINCT " else "SELECT ") ++
      if parts.isEmpty then text "*" else join ", " parts

def insertTop (limit : UInt64) (s : Script) : Script :=
  let top (keywords : String) (rest : Script) : Script :=
    text (keywords ++ " TOP (") ++ [.value (.uint limit)] ++ text ")" ++ rest
  match s.dropPrefix? "SELECT DISTINCT" with
  | some rest => top "SELECT DISTINCT" rest
  | none => top "SELECT" ((s.dropPrefix? "SELECT").getD s)

def columns (scopes : Scopes) (q : Statement Spelling) : Except Fault Script := do
  let basic ← basicColumns c scopes q
  if c.engine = .sqlServer ∧ c.legacyPaging then
    let w ← q.window (some c.engine)
    return if w.limit ≠ 0 ∧ w.offset = 0 then insertTop w.limit basic else basic
  else return basic

def tableExpression (scopes : Scopes) (s : Source Spelling) : Except Fault Script :=
  match s with
  | .table name => return text (c.engine.wrap name)
  | .raw sql bindings _ => return rawText c sql bindings
  | .query q _ =>
    derived scopes q <| match s.aliasBy Spelling.aliasName with
      | some name =>
        if name.isEmpty then "" else " " ++ c.dialect.tableAs ++ c.engine.wrapValue name
      | none => ""

def table (scopes : Scopes) (q : Statement Spelling) : Except Fault Script := do
  let s ← c.sourceFor .select q
  let expression ← tableExpression c scopes s
  return text "FROM " ++ expression

def filterText (scopes : Scopes) (q : Statement Spelling) : Except Fault Script := do
  let xs ← q.getAll .filter ClauseKind.condition? (some c.engine)
  conditions c scopes xs

def joinedTable (scopes : Scopes) (q : Statement Spelling) : Except Fault Script := do
  let s ← c.sourceFor .join q
  let xs ← q.getAll .filter ClauseKind.condition? (some c.engine)
  let expression ← tableExpression c scopes s
  let constraints ← conditions c scopes xs
  return if constraints.isEmpty then expression else expression ++ text " ON " ++ constraints

def joinClause (scopes : Scopes) (j : Join Spelling) : Except Fault Script := do
  let target ← j.target.joined scopes
  return text (j.kind.keyword ++ " ") ++ target

def joins (scopes : Scopes) (q : Statement Spelling) : Except Fault Script := do
  let js ← q.getAll .join ClauseKind.join? (some c.engine)
  let parts ← js.mapM (joinClause scopes)
  return listed "\n" "\n" parts

def wheres (scopes : Scopes) (q : Statement Spelling) : Except Fault Script :=
  if q.has .source (some c.engine) && q.has .filter (some c.engine) then do
    let filters ← filterText c scopes q
    return if filters.trim.isEmpty then [] else text "WHERE " ++ filters.trim
  else return []

def groups (scopes : Scopes) (q : Statement Spelling) : Except Fault Script := do
  let columns ← q.getAll .group ClauseKind.column? (some c.engine)
  let parts ← columns.mapM (column c scopes)
  return listed "GROUP BY " ", " parts

def having (scopes : Scopes) (q : Statement Spelling) : Except Fault Script := do
  let xs ← q.getAll .having ClauseKind.condition? (some c.engine)
  let filters ← conditions c scopes xs
  return if filters.isEmpty then [] else text "HAVING " ++ filters

def orderTerm : Order → Except Fault Script
  | .column name ascending => return text (c.engine.wrap name ++ if ascending then "" else " DESC")
  | .raw sql bindings => return rawText c sql bindings
  | .random seed => return text (c.engine.randomOrder seed)

def orders (q : Statement Spelling) : Except Fault Script := do
  let os ← q.getAll .order ClauseKind.order? (some c.engine)
  let parts ← os.mapM (orderTerm c)
  return listed "ORDER BY " ", " parts

def limitOffset (all : Option String) (w : Window) : Script :=
  let limit : Script :=
    if w.limit ≠ 0 then text "LIMIT " ++ [.value (.uint w.limit)]
    else if w.offset ≠ 0 then (all.map fun n => text ("LIMIT " ++ n)).getD []
    else []
  let offset : Script := if w.offset ≠ 0 then text "OFFSET " ++ [.value (.uint w.offset)] else []
  join " " ([limit, offset].filter (!·.isEmpty))

def fetch (ordered : Bool) (w : Window) : Script :=
  if w.limit = 0 ∧ w.offset = 0 then []
  else text (if ordered then "OFFSET " else "ORDER BY (SELECT 0) OFFSET ") ++
    [.value (.uint w.offset)] ++ text " ROWS" ++
    if w.limit = 0 then [] else text " FETCH NEXT " ++ [.value (.uint w.limit)] ++ text " ROWS ONLY"

def page (q : Statement Spelling) : Except Fault Script :=
  match c.engine with
  | .mySql => return limitOffset (some "18446744073709551615") (← q.window (some c.engine))
  | .sqlite => return limitOffset (some "-1") (← q.window (some c.engine))
  | .sqlServer =>
    if c.legacyPaging then return []
    else return fetch (q.has .order (some c.engine)) (← q.window (some c.engine))
  | _ => return limitOffset none (← q.window (some c.engine))

def combination (scopes : Scopes) : Combine Spelling → Except Fault Script
  | .query operation all q => do
    let sub ← q.select scopes
    return text (operation.keyword ++ if all then " ALL " else " ") ++ sub
  | .raw sql bindings => return rawText c sql bindings

def combinations (scopes : Scopes) (q : Statement Spelling) : Except Fault Script := do
  let cs ← q.getAll .combine ClauseKind.combine? (some c.engine)
  let parts ← cs.mapM (combination c scopes)
  return listed "" " " parts

def selectText (scopes : Scopes) (q : Statement Spelling) : Except Fault Script := do
  let columns ← columns c scopes q
  let table ← table c scopes q
  let joins ← joins c scopes q
  let wheres ← wheres c scopes q
  let groups ← groups c scopes q
  let having ← having c scopes q
  let orders ← orders c q
  let page ← page c q
  let combinations ← combinations c scopes q
  let parts := [columns, table, joins, wheres, groups, having, orders, page, combinations]
  return join " " (parts.filter (!·.isEmpty))

def basicSelect (q : Statement Spelling) (outer : Scopes) : Except Fault Script :=
  selectText c (q.vars :: outer) q

def numberedSelect (q : Statement Spelling) (outer : Scopes) : Except Fault Script := do
  let w ← q.window (some c.engine)
  let q := if q.has .select (some c.engine) then q else q.select ["*"]
  let order ← orders c q
  let order := if order.isEmpty then text anyOrder else order
  let inner ← basicSelect c (Compiler.numberRows q order.fragment) outer
  let first : Script := [.value (.uint (saturate (w.offset.toNat + 1)))]
  let last : Script := [.value (.uint (saturate (w.limit.toNat + w.offset.toNat)))]
  return text "SELECT * FROM (" ++ inner ++ text ") AS [results_wrapper] WHERE [row_num] " ++
    if w.limit = 0 then text ">= " ++ first
    else text "BETWEEN " ++ first ++ text " AND " ++ last

def select (q : Statement Spelling) (outer : Scopes) : Except Fault Script :=
  if c.engine = .sqlServer ∧ c.legacyPaging then do
    let offset ← q.offsetFor (some c.engine)
    if offset = 0 then basicSelect c q outer else numberedSelect c q outer
  else basicSelect c q outer

def spelling : Subquery → Spelling :=
  Subquery.fold fun q =>
    ⟨q.aliasName, select c q, fun scopes => filterText c scopes q,
      fun scopes => joinedTable c scopes q⟩

def prepare (q : Query) : Statement Spelling := q.map (spelling c)

theorem spelling_of (q : Query) :
    spelling c (.of q) =
      ⟨q.aliasName, select c (prepare c q), fun scopes => filterText c scopes (prepare c q),
        fun scopes => joinedTable c scopes (prepare c q)⟩ := by
  rw [spelling, Subquery.fold_of]
  rfl

def target (operation : Operation) (q : Statement Spelling) : Except Fault Script := do
  match ← c.sourceFor operation q with
  | .table name => return text (c.engine.wrap name)
  | .raw sql bindings _ => return rawText c sql bindings
  | .query _ _ => throw (.derivedTarget operation)

def whereSuffix (scopes : Scopes) (q : Statement Spelling) : Except Fault Script := do
  let filters ← wheres c scopes q
  return if filters.isEmpty then [] else text " " ++ filters

def row (scopes : Scopes) (columns : List String) (values : List Value) : Except Fault Script := do
  Compiler.checkRow .insert columns values
  let items ← parameters scopes values
  return text "(" ++ items ++ text ")"

def firstRows (scopes : Scopes) (table : Script) : Insert Spelling → Except Fault Script
  | .values columns values _ => do
    let items ← row scopes columns values
    return text "INSERT INTO " ++ table ++ text (" (" ++ c.columnList columns ++ ") VALUES ") ++
      items
  | .query columns q => do
    let sub ← q.select scopes
    return text "INSERT INTO " ++ table ++
      text (if columns.isEmpty then " " else " (" ++ c.columnList columns ++ ") ") ++ sub

def nextRow (scopes : Scopes) : Insert Spelling → Except Fault Script
  | .values columns values _ => row scopes columns values
  | .query _ _ => throw (.misplacedClause .insert .insertQuery)

def insert (scopes : Scopes) (q : Statement Spelling) : Except Fault Script := do
  let table ← target c .insert q
  match ← q.getAll .insert ClauseKind.insert? (some c.engine) with
  | [] => throw (.emptyValues .insert)
  | first :: rest =>
    let head ← firstRows c scopes table first
    let rows ← rest.mapM (nextRow scopes)
    let lastId :=
      if Compiler.wantsId first && !c.dialect.lastId.isEmpty then ";" ++ c.dialect.lastId else ""
    return join ", " (head :: rows) ++ text lastId

def assignment (scopes : Scopes) (p : String × Value) : Except Fault Script := do
  let right ← parameter scopes p.2
  return text (c.engine.wrap p.1 ++ " = ") ++ right

def update (scopes : Scopes) (component : Component) (q : Statement Spelling) :
    Except Fault Script := do
  let table ← target c .update q
  let (columns, values) ← c.assignments component q
  let sets ← (columns.zip values).mapM (assignment c scopes)
  let suffix ← whereSuffix c scopes q
  return text "UPDATE " ++ table ++ text " SET " ++ join ", " sets ++ suffix

def delete (scopes : Scopes) (q : Statement Spelling) : Except Fault Script := do
  let table ← target c .delete q
  let suffix ← whereSuffix c scopes q
  return text "DELETE FROM " ++ table ++ suffix

def cteDefinition (root : Query) (s : Source Subquery) : Except Fault Script :=
  match s.alias? with
  | none => throw .unnamedCte
  | some name =>
    if name.isEmpty then throw .unnamedCte
    else
      let lead : Script := text (c.engine.wrapValue name ++ " AS (")
      match s with
      | .raw sql bindings _ => return lead ++ rawText c sql bindings ++ text ")"
      | .query body _ => do
        let sub ← (spelling c body).select [root.vars]
        return lead ++ sub ++ text ")"
      | .table _ => throw (.misplacedClause .cte (.family .source))

def prologue (q : Query) : Except Fault Script := do
  let sources ← q.ctes c.engine
  if sources.isEmpty then return []
  else
    let definitions ← sources.mapM (cteDefinition c q)
    return text "WITH " ++ join ",\n" (definitions.map Script.trim) ++ text "\n"

def body (q : Query) : Except Fault Script :=
  let scopes : Scopes := [q.vars]
  match q.method with
  | .select => select c (prepare c q) []
  | .aggregate => do
    let q ← q.aggregated c.engine
    select c (prepare c q) []
  | .insert => insert c scopes (prepare c q)
  | .update => update c scopes .update (prepare c q)
  | .assign => update c scopes .assign (prepare c q)
  | .delete => delete c scopes (prepare c q)

def statement (q : Query) : Except Fault Script := do
  let body ← body c q
  if q.has .cte (some c.engine) then
    let prologue ← prologue c q
    return prologue ++ body
  else return body

end Spell

end SqlDialects
