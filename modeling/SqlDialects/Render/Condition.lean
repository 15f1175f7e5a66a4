import SqlDialects.Render.Binding
import SqlDialects.Statement.Basic

/-!
Conditions as SQL. Statements nested in them come as what they render to in each place where a
statement can stand.
-/

namespace SqlDialects

/-- The ways to render a nested statement, given the scopes around it. -/
structure Rendering where
  aliasName : Option String
  /-- As a select of its own. -/
  select : Scopes → Except Fault Fragment
  /-- Its conditions alone. -/
  conditions : Scopes → Emit String
  /-- Its table, with its conditions as the constraints of a join. -/
  joined : Scopes → Emit String

def negate (isNot : Bool) (sql : String) : String := if isNot then "NOT (" ++ sql ++ ")" else sql

def timeFormat? : String → Option String
  | "date" => some "%Y-%m-%d"
  | "time" => some "%H:%M:%S"
  | "year" => some "%Y"
  | "month" => some "%m"
  | "day" => some "%d"
  | "hour" => some "%H"
  | "minute" => some "%M"
  | _ => none

namespace Engine

def trueText : Engine → String
  | sqlServer => "cast(1 as bit)"
  | sqlite => "1"
  | _ => "true"

def falseText : Engine → String
  | sqlServer => "cast(0 as bit)"
  | sqlite => "0"
  | _ => "false"

end Engine

/-- The operator of a text comparison, and the text with its wildcards. -/
def likePattern (operator text : String) : String × String :=
  match operator with
  | "starts" => ("like", text ++ "%")
  | "ends" => ("like", "%" ++ text)
  | "contains" => ("like", "%" ++ text ++ "%")
  | operator => (operator, text)

namespace Compiler

variable (c : Compiler)

def basicDatePart (scopes : Scopes) (part column operator : String) (value : Value)
    (isNot : Bool) : Emit String := do
  let marker ← c.parameter scopes value
  return negate isNot
    (Text.upper part ++ "(" ++ c.engine.wrap column ++ ") " ++ operator ++ " " ++ marker)

/-- Compares a part of a date or time in the engine's own way. An engine that formats the part
as text leaves one that it has no format for, and its sign, out. -/
def datePart (scopes : Scopes) (part column operator : String) (value : Value)
    (isNot : Bool) : Emit String :=
  let name := c.engine.wrap column
  match c.engine with
  | .postgres => do
    let marker ← c.parameter scopes value
    let left :=
      if part = "time" then name ++ "::time"
      else if part = "date" then name ++ "::date"
      else "DATE_PART('" ++ Text.upper part ++ "', " ++ name ++ ")"
    return negate isNot (left ++ " " ++ operator ++ " " ++ marker)
  | .sqlServer => do
    let marker ← c.parameter scopes value
    let part := Text.upper part
    let left :=
      if part = "TIME" ∨ part = "DATE" then "CAST(" ++ name ++ " AS " ++ part ++ ")"
      else "DATEPART(" ++ part ++ ", " ++ name ++ ")"
    return negate isNot (left ++ " " ++ operator ++ " " ++ marker)
  | .sqlite => do
    let marker ← c.parameter scopes value
    match timeFormat? part with
    | some format =>
      return negate isNot ("strftime('" ++ format ++ "', " ++ name ++ ") " ++ operator ++
        " cast(" ++ marker ++ " as text)")
    | none => return name ++ " " ++ operator ++ " " ++ marker
  | _ => c.basicDatePart scopes part column operator value isNot

def likeText (scopes : Scopes) (value : Value) : Except Fault String := do
  let resolved ← resolve scopes value
  match resolved.text? with
  | some text => return text
  | none => throw (.likeOperand resolved)

def likeOperand (scopes : Scopes) (value : Value) (pattern : String) : Emit String :=
  match value with
  | .raw _ => pure pattern
  | _ => c.parameter scopes (.string pattern)

/-- Compares with a pattern. Without regard to case, both sides are in lower case. -/
def like (scopes : Scopes) (column operator : String) (value : Value) (caseSensitive : Bool)
    (escape : Option Char) (isNot : Bool) : Emit String := do
  let text ← Emit.lift (likeText scopes value)
  let (operator, pattern) := likePattern operator text
  let op ← Emit.lift (c.checkOperator operator)
  let name := c.engine.wrap column
  let name := if caseSensitive then name else "LOWER(" ++ name ++ ")"
  let right ← c.likeOperand scopes value (if caseSensitive then pattern else Text.lower pattern)
  let sql := name ++ " " ++ op ++ " " ++ right
  return negate isNot (match escape with
    | some e => sql ++ " ESCAPE '" ++ e.toString ++ "'"
    | none => sql)

def condition (scopes : Scopes) (x : Condition Rendering) : Emit String :=
  let isNot := x.isNot
  let wrap := c.engine.wrap
  match x.predicate with
  | .compare column operator value => do
    let op ← Emit.lift (c.checkOperator operator)
    let marker ← c.parameter scopes value
    return negate isNot (wrap column ++ " " ++ op ++ " " ++ marker)
  | .like column operator value caseSensitive escape =>
    c.like scopes column operator value caseSensitive escape isNot
  | .datePart part column operator value => do
    let op ← Emit.lift (c.checkOperator operator)
    c.datePart scopes part column op value isNot
  | .columns first operator second => do
    let op ← Emit.lift (c.checkOperator operator)
    return negate isNot (wrap first ++ " " ++ op ++ " " ++ wrap second)
  | .isNull column =>
    return wrap column ++ " " ++ (if isNot then "IS NOT NULL" else "IS NULL")
  | .truth column value =>
    return wrap column ++ " " ++ (if isNot then "!=" else "=") ++ " " ++
      (if value then c.engine.trueText else c.engine.falseText)
  | .oneOf column values =>
    if values.isEmpty then
      return if isNot then "1 = 1 /* NOT IN [empty list] */" else "1 = 0 /* IN [empty list] */"
    else do
      let markers ← c.parameters scopes values
      return wrap column ++ " " ++ (if isNot then "NOT IN" else "IN") ++ " (" ++ markers ++ ")"
  | .oneOfQuery column query => do
    let sub ← Emit.embed (query.select scopes)
    return wrap column ++ " " ++ (if isNot then "NOT IN" else "IN") ++ " (" ++ sub ++ ")"
  | .between column lower higher => do
    let low ← c.parameter scopes lower
    let high ← c.parameter scopes higher
    return wrap column ++ " " ++ (if isNot then "NOT BETWEEN" else "BETWEEN") ++ " " ++ low ++
      " AND " ++ high
  | .rowsExist query => do
    let sub ← Emit.embed (query.select scopes)
    return (if isNot then "NOT EXISTS" else "EXISTS") ++ " (" ++ sub ++ ")"
  | .againstQuery column operator query => do
    let op ← Emit.lift (c.checkOperator operator)
    let sub ← Emit.embed (query.select scopes)
    return negate isNot (wrap column ++ " " ++ op ++ " (" ++ sub ++ ")")
  | .queryAgainst query operator value => do
    let op ← Emit.lift (c.checkOperator operator)
    let sub ← Emit.embed (query.select scopes)
    let marker ← c.parameter scopes value
    return negate isNot ("(" ++ sub ++ ") " ++ op ++ " " ++ marker)
  | .nested query => do
    let sql ← query.conditions scopes
    return if sql.isEmpty then "" else (if isNot then "NOT (" else "(") ++ sql ++ ")"
  | .raw sql bindings => do
    let text ← c.rawText sql bindings
    return negate isNot text

/-- The rendered conditions with AND or OR between them. One that renders to nothing is left out
with its connector. -/
def chain : List (Condition Rendering × String) → String
  | [] => ""
  | (_, "") :: rest => chain rest
  | (_, sql) :: rest => sql ++ following rest
where
  following : List (Condition Rendering × String) → String
    | [] => ""
    | (_, "") :: rest => following rest
    | (x, sql) :: rest => (if x.isOr then " OR " else " AND ") ++ sql ++ following rest

theorem following_cons_of_ne {sql : String} (h : sql ≠ "") (x : Condition Rendering)
    (rest : List (Condition Rendering × String)) : chain.following ((x, sql) :: rest) =
      (if x.isOr then " OR " else " AND ") ++ sql ++ chain.following rest := by
  rw [chain.following]
  exact h

theorem chain_cons_of_ne {sql : String} (h : sql ≠ "") (x : Condition Rendering)
    (rest : List (Condition Rendering × String)) :
    chain ((x, sql) :: rest) = sql ++ chain.following rest := by
  rw [chain]
  exact h

def conditions (scopes : Scopes) (xs : List (Condition Rendering)) : Emit String := do
  let parts ← xs.mapM (c.condition scopes)
  return chain (xs.zip parts)

end Compiler

end SqlDialects
