import SqlDialects.Render.Condition
import SqlDialects.Render.Page
import SqlDialects.Statement.Build
import SqlDialects.Statement.Subquery

/-!
Selects. The parts of a select stand in a fixed order, and absent ones are left out. Each part is
rendered from the clauses of one statement, whose nested statements are already `Rendering`s;
`Compiler.rendering` ties the two together.
-/

namespace SqlDialects

def Engine.randomOrder (e : Engine) (seed : String) : String :=
  match e with
  | .mySql => "RAND(" ++ seed ++ ")"
  | .sqlServer => "NEWID()"
  | _ => "RANDOM()"

def anyOrder : String := "ORDER BY (SELECT 0)"

def dropPrefix? (start text : String) : Option String :=
  if start.toList.isPrefixOf text.toList then
    some (String.ofList (text.toList.drop start.toList.length))
  else none

def insertTop (sql : String) : String :=
  match dropPrefix? "SELECT DISTINCT" sql with
  | some rest => "SELECT DISTINCT TOP (?)" ++ rest
  | none => "SELECT TOP (?)" ++ (dropPrefix? "SELECT" sql).getD sql

namespace Compiler

variable (c : Compiler)

def column (scopes : Scopes) : Column Rendering → Emit String
  | .named name => pure (c.engine.wrap name)
  | .raw sql bindings => c.rawText sql bindings
  | .query q aliasName => do
    let sub ← Emit.embed (q.select scopes)
    let suffix := match aliasName.or q.aliasName with
      | some name =>
        if (Text.trim name).isEmpty then ""
        else " " ++ c.dialect.columnAs ++ c.engine.wrapValue name
      | none => ""
    return "(" ++ sub ++ ")" ++ suffix

/-- The call of an aggregate. Several columns cannot be called on and are counted by a constant. -/
def aggregateCall (distinct : Bool) (a : Aggregate) : String :=
  match a.columns with
  | [name] =>
    "SELECT " ++ Text.upper a.function ++ "(" ++ (if distinct then "DISTINCT " else "") ++
      c.engine.wrap name ++ ") " ++ c.dialect.columnAs ++ c.engine.wrapValue a.function
  | _ => "SELECT 1"

def basicColumns (scopes : Scopes) (q : Statement Rendering) : Emit String := do
  match ← Emit.lift (q.getOne .aggregate ClauseKind.aggregate? (some c.engine)) with
  | some a => return c.aggregateCall q.distinct a
  | none =>
    let columns ← Emit.lift (q.getAll .select ClauseKind.column? (some c.engine))
    let texts ← columns.mapM (c.column scopes)
    return "SELECT " ++ (if q.distinct then "DISTINCT " else "") ++
      (if texts.isEmpty then "*" else ", ".intercalate texts)

/-- The columns, with the limit among them where an old engine has it there. Its binding comes
before all others. -/
def columns (scopes : Scopes) (q : Statement Rendering) : Emit String :=
  let basic := c.basicColumns scopes q
  if c.engine = .sqlServer ∧ c.legacyPaging then
    match basic.outcome, q.window (some c.engine) with
    | .ok sql, .ok w =>
      if w.limit ≠ 0 ∧ w.offset = 0 then ⟨.uint w.limit :: basic.bound, .ok (insertTop sql)⟩
      else basic
    | .ok _, .error e => ⟨basic.bound, .error e⟩
    | .error _, _ => basic
  else basic

def tableExpression (scopes : Scopes) (s : Source Rendering) : Emit String :=
  match s with
  | .table name => pure (c.engine.wrap name)
  | .raw sql bindings _ => c.rawText sql bindings
  | .query q _ => do
    let sub ← Emit.embed (q.select scopes)
    let suffix := match s.aliasBy Rendering.aliasName with
      | some name =>
        if name.isEmpty then "" else " " ++ c.dialect.tableAs ++ c.engine.wrapValue name
      | none => ""
    return "(" ++ sub ++ ")" ++ suffix

def sourceFor {σ : Type} (operation : Operation) (q : Statement σ) : Except Fault (Source σ) := do
  match ← q.getOne .source ClauseKind.source? (some c.engine) with
  | some s => return s
  | none => throw (.missingTable operation)

def table (scopes : Scopes) (q : Statement Rendering) : Emit String := do
  let s ← Emit.lift (c.sourceFor .select q)
  let text ← c.tableExpression scopes s
  return "FROM " ++ text

def filterText (scopes : Scopes) (q : Statement Rendering) : Emit String := do
  let xs ← Emit.lift (q.getAll .filter ClauseKind.condition? (some c.engine))
  c.conditions scopes xs

def joinedTable (scopes : Scopes) (q : Statement Rendering) : Emit String := do
  let s ← Emit.lift (c.sourceFor .join q)
  let xs ← Emit.lift (q.getAll .filter ClauseKind.condition? (some c.engine))
  let text ← c.tableExpression scopes s
  let constraints ← c.conditions scopes xs
  return if constraints.isEmpty then text else text ++ " ON " ++ constraints

def join (scopes : Scopes) (j : Join Rendering) : Emit String := do
  let text ← j.target.joined scopes
  return j.kind.keyword ++ " " ++ text

def joins (scopes : Scopes) (q : Statement Rendering) : Emit (Option String) := do
  let js ← Emit.lift (q.getAll .join ClauseKind.join? (some c.engine))
  if js.isEmpty then return none
  else
    let texts ← js.mapM (join scopes)
    return some ("\n" ++ "\n".intercalate texts)

def wheres (scopes : Scopes) (q : Statement Rendering) : Emit (Option String) :=
  if q.has .source (some c.engine) && q.has .filter (some c.engine) then do
    let sql ← c.filterText scopes q
    let sql := Text.trim sql
    return if sql.isEmpty then none else some ("WHERE " ++ sql)
  else pure none

def groups (scopes : Scopes) (q : Statement Rendering) : Emit (Option String) := do
  let columns ← Emit.lift (q.getAll .group ClauseKind.column? (some c.engine))
  if columns.isEmpty then return none
  else
    let texts ← columns.mapM (c.column scopes)
    return some ("GROUP BY " ++ ", ".intercalate texts)

def having (scopes : Scopes) (q : Statement Rendering) : Emit (Option String) := do
  let xs ← Emit.lift (q.getAll .having ClauseKind.condition? (some c.engine))
  if xs.isEmpty then return none
  else
    let sql ← c.conditions scopes xs
    return if sql.isEmpty then none else some ("HAVING " ++ sql)

def orderTerm : Order → Emit String
  | .column name ascending => pure (c.engine.wrap name ++ if ascending then "" else " DESC")
  | .raw sql bindings => c.rawText sql bindings
  | .random seed => pure (c.engine.randomOrder seed)

def orders (q : Statement Rendering) : Emit (Option String) := do
  let os ← Emit.lift (q.getAll .order ClauseKind.order? (some c.engine))
  if os.isEmpty then return none
  else
    let texts ← os.mapM c.orderTerm
    return some ("ORDER BY " ++ ", ".intercalate texts)

def combination (scopes : Scopes) : Combine Rendering → Emit String
  | .query operation all q => do
    let sub ← Emit.embed (q.select scopes)
    return operation.keyword ++ " " ++ (if all then "ALL " else "") ++ sub
  | .raw sql bindings => c.rawText sql bindings

def combinations (scopes : Scopes) (q : Statement Rendering) : Emit (Option String) := do
  let cs ← Emit.lift (q.getAll .combine ClauseKind.combine? (some c.engine))
  if cs.isEmpty then return none
  else
    let texts ← cs.mapM (c.combination scopes)
    return some (" ".intercalate texts)

def joinParts (parts : List (Option String)) : String :=
  " ".intercalate (parts.filterMap fun part => part.filter (!·.isEmpty))

def selectText (scopes : Scopes) (q : Statement Rendering) : Emit String := do
  let columns ← c.columns scopes q
  let table ← c.table scopes q
  let joins ← c.joins scopes q
  let wheres ← c.wheres scopes q
  let groups ← c.groups scopes q
  let having ← c.having scopes q
  let orders ← c.orders q
  let page ← c.page q
  let combinations ← c.combinations scopes q
  return joinParts
    [some columns, some table, joins, wheres, groups, having, orders, page, combinations]

def basicSelect (q : Statement Rendering) (outer : Scopes) : Except Fault Fragment :=
  (c.selectText (q.vars :: outer) q).toFragment

/-- The statement with its rows numbered in its order, which it then no longer has itself. -/
def numberRows {σ : Type} (q : Statement σ) (order : Fragment) : Statement σ :=
  (q.addColumn (.raw ("ROW_NUMBER() OVER (" ++ order.sql ++ ") AS [row_num]") order.bindings)).clear
    .order none

/-- A page of an old engine: numbers the rows and selects a range of the numbers. -/
def numberedSelect (q : Statement Rendering) (outer : Scopes) : Except Fault Fragment := do
  let w ← q.window (some c.engine)
  let q := if q.has .select (some c.engine) then q else q.select ["*"]
  let order := c.orders q
  let text ← order.outcome
  let inner ← c.basicSelect (numberRows q ⟨text.getD anyOrder, order.bound⟩) outer
  let first := saturate (w.offset.toNat + 1)
  let last := saturate (w.limit.toNat + w.offset.toNat)
  let sql := "SELECT * FROM (" ++ inner.sql ++ ") AS [results_wrapper] WHERE [row_num] "
  if w.limit = 0 then return ⟨sql ++ ">= ?", inner.bindings ++ [.uint first]⟩
  else return ⟨sql ++ "BETWEEN ? AND ?", inner.bindings ++ [.uint first, .uint last]⟩

def select (q : Statement Rendering) (outer : Scopes) : Except Fault Fragment :=
  if c.engine = .sqlServer ∧ c.legacyPaging then do
    let offset ← q.offsetFor (some c.engine)
    if offset = 0 then c.basicSelect q outer else c.numberedSelect q outer
  else c.basicSelect q outer

def rendering : Subquery → Rendering :=
  Subquery.fold fun q =>
    ⟨q.aliasName, c.select q, fun scopes => c.filterText scopes q,
      fun scopes => c.joinedTable scopes q⟩

def prepare (q : Query) : Statement Rendering := q.map c.rendering

theorem rendering_of (q : Query) :
    c.rendering (.of q) =
      ⟨q.aliasName, c.select (c.prepare q), fun scopes => c.filterText scopes (c.prepare q),
        fun scopes => c.joinedTable scopes (c.prepare q)⟩ := by
  rw [rendering, Subquery.fold_of]
  rfl

end Compiler

end SqlDialects
