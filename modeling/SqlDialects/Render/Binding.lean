import SqlDialects.Compiler
import SqlDialects.Render.Emit

/-!
Binding values. A variable means what the innermost statement that defines it says.
-/

namespace SqlDialects

/-- The variables of a statement and of those around it, innermost first. -/
abbrev Scopes := List Variables

def Scopes.find? (scopes : Scopes) (name : String) : Option Value :=
  scopes.findSome? (Variables.find? · name)

namespace Compiler

variable (c : Compiler)

def resolve (scopes : Scopes) : Value → Except Fault Value
  | .var name =>
    match scopes.find? name with
    | some v => .ok v
    | none => .error (.undefinedVariable name)
  | v => .ok v

def marker : String := c.dialect.placeholder.toString

@[simp] theorem marker_eq (c : Compiler) : c.marker = "?" := by
  unfold marker dialect
  cases c.engine <;> rfl

def parameter (scopes : Scopes) : Value → Emit String
  | .raw sql => pure sql
  | v => do
    let bound ← Emit.lift (resolve scopes v)
    Emit.push [bound]
    return c.marker

def parameters (scopes : Scopes) (values : List Value) : Emit String := do
  let markers ← values.mapM (c.parameter scopes)
  return ", ".intercalate markers

def rawText (sql : String) (bindings : List Value) : Emit String := do
  Emit.push bindings
  return c.engine.wrapIdentifiers sql

end Compiler

end SqlDialects
