import SqlDialects.Compiler
import SqlDialects.Toml.Parse

/-! Configurations kept in files. -/

namespace SqlDialects

inductive ConfigFault where
  | notFound (path : String)
  /-- There is something, but it cannot be read as a text. -/
  | unreadable
  | malformed
  deriving DecidableEq

def ConfigFault.message? : ConfigFault → Option String
  | notFound path => some ("Configuration error: " ++ path ++ " not found")
  | _ => none

inductive PathContent where
  | nothing
  | directory
  | file (text : String)

namespace Toml

def asBool? : Toml → Option Bool
  | bool b => some b
  | _ => none

def asText? : Toml → Option String
  | string s => some s
  | _ => none

def asTexts? : Toml → Option (List String)
  | array items => items.mapM asText?
  | _ => none

def read? {α : Type} (key : String) (read : Toml → Option α) (members : Members) :
    Option (Option α) :=
  match member? key members with
  | none => some none
  | some v => (read v).map some

end Toml

namespace Config

def ofMembers? (members : Toml.Members) : Option Config := do
  let legacy ← Toml.read? "legacy_pagination" Toml.asBool? members
  let operators ← Toml.read? "operators" Toml.asTexts? members
  let marker ← Toml.read? "parameter_prefix" Toml.asText? members
  return ⟨legacy.getD true, operators.getD [], marker⟩

def ofToml (text : String) : Except ConfigFault Config :=
  match (Toml.parse? text).bind ofMembers? with
  | some c => .ok c
  | none => .error .malformed

def load (look : String → PathContent) (path : String) : Except ConfigFault Config :=
  match look path with
  | .nothing => .error (.notFound path)
  | .directory => .error .unreadable
  | .file text => ofToml text

end Config

end SqlDialects
