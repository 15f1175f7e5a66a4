import SqlDialects.Render.Select

/-! Statements that change rows: insert, update and delete. -/

namespace SqlDialects

namespace Compiler

variable (c : Compiler)

/-- The table that rows are written to, which cannot be a query. -/
def target (operation : Operation) (q : Statement Rendering) : Emit String := do
  match ← Emit.lift (c.sourceFor operation q) with
  | .table name => return c.engine.wrap name
  | .raw sql bindings _ => c.rawText sql bindings
  | .query _ _ => Emit.fail (.derivedTarget operation)

def whereSuffix (scopes : Scopes) (q : Statement Rendering) : Emit String := do
  match ← c.wheres scopes q with
  | some sql => return " " ++ sql
  | none => return ""

def checkRow (component : Component) (columns : List String) (values : List Value) :
    Except Fault Unit :=
  if columns.isEmpty || values.isEmpty then throw (.emptyValues component)
  else if columns.length ≠ values.length then
    throw (.arityMismatch component columns.length values.length)
  else pure ()

def columnList (columns : List String) : String := ", ".intercalate (columns.map c.engine.wrap)

def row (scopes : Scopes) (columns : List String) (values : List Value) : Emit String := do
  Emit.lift (checkRow .insert columns values)
  let markers ← c.parameters scopes values
  return "(" ++ markers ++ ")"

def firstRows (scopes : Scopes) (table : String) : Insert Rendering → Emit String
  | .values columns values _ => do
    let text ← c.row scopes columns values
    return "INSERT INTO " ++ table ++ " (" ++ c.columnList columns ++ ") VALUES " ++ text
  | .query columns q => do
    let sub ← Emit.embed (q.select scopes)
    return "INSERT INTO " ++ table ++
      (if columns.isEmpty then "" else " (" ++ c.columnList columns ++ ")") ++ " " ++ sub

/-- Each further insert clause is one more row of values. -/
def nextRow (scopes : Scopes) : Insert Rendering → Emit String
  | .values columns values _ => c.row scopes columns values
  | .query _ _ => Emit.fail (.misplacedClause .insert .insertQuery)

def wantsId {σ : Type} : Insert σ → Bool
  | .values _ _ returnId => returnId
  | .query _ _ => false

/-- The rows in one statement; one that reports the id of the new row follows if wanted. -/
def insertText (scopes : Scopes) (q : Statement Rendering) : Emit String := do
  let table ← c.target .insert q
  match ← Emit.lift (q.getAll .insert ClauseKind.insert? (some c.engine)) with
  | [] => Emit.fail (.emptyValues .insert)
  | first :: rest =>
    let head ← c.firstRows scopes table first
    let rows ← rest.mapM (c.nextRow scopes)
    let sql := ", ".intercalate (head :: rows)
    return if wantsId first && !c.dialect.lastId.isEmpty then sql ++ ";" ++ c.dialect.lastId
      else sql

def assignment (scopes : Scopes) (column : String) (value : Value) : Emit String := do
  let marker ← c.parameter scopes value
  return c.engine.wrap column ++ " = " ++ marker

def assignments {σ : Type} (component : Component) (q : Statement σ) :
    Except Fault (List String × List Value) := do
  match ← q.getOne component ClauseKind.insert? (some c.engine) with
  | none => throw (.emptyValues component)
  | some (.query _ _) => throw (.misplacedClause component .insertQuery)
  | some (.values columns values _) =>
    checkRow component columns values
    return (columns, values)

def updateText (scopes : Scopes) (component : Component) (q : Statement Rendering) :
    Emit String := do
  let table ← c.target .update q
  let (columns, values) ← Emit.lift (c.assignments component q)
  let sets ← (columns.zip values).mapM fun (column, value) => c.assignment scopes column value
  let suffix ← c.whereSuffix scopes q
  return "UPDATE " ++ table ++ " SET " ++ ", ".intercalate sets ++ suffix

def deleteText (scopes : Scopes) (q : Statement Rendering) : Emit String := do
  let table ← c.target .delete q
  let suffix ← c.whereSuffix scopes q
  return "DELETE FROM " ++ table ++ suffix

end Compiler

end SqlDialects
