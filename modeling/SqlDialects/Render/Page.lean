import SqlDialects.Render.Binding
import SqlDialects.Statement.Store

/-! Limits and offsets in the words of each engine. A limit or an offset of zero is none. -/

namespace SqlDialects

/-- The rows of a page: at most `limit` of them, after the first `offset`. -/
structure Window where
  limit : UInt64
  offset : UInt64
  deriving DecidableEq

def Statement.window {σ : Type} (q : Statement σ) (engine : Option Engine) :
    Except Fault Window := do
  let limit ← q.limitFor engine
  let offset ← q.offsetFor engine
  return ⟨limit, offset⟩

namespace Window

def basic (w : Window) : Emit (Option String) :=
  if w.limit = 0 then
    if w.offset = 0 then pure none
    else do
      Emit.push [.uint w.offset]
      return some "OFFSET ?"
  else if w.offset = 0 then do
    Emit.push [.uint w.limit]
    return some "LIMIT ?"
  else do
    Emit.push [.uint w.limit, .uint w.offset]
    return some "LIMIT ? OFFSET ?"

/-- For engines that take no offset without a limit: `all` stands for the limit. -/
def withLimit (all : String) (w : Window) : Emit (Option String) :=
  if w.limit = 0 ∧ w.offset ≠ 0 then do
    Emit.push [.uint w.offset]
    return some ("LIMIT " ++ all ++ " OFFSET ?")
  else w.basic

def fetch (ordered : Bool) (w : Window) : Emit (Option String) :=
  let order := if ordered then "" else "ORDER BY (SELECT 0) "
  if w.limit = 0 ∧ w.offset = 0 then pure none
  else if w.limit = 0 then do
    Emit.push [.uint w.offset]
    return some (order ++ "OFFSET ? ROWS")
  else do
    Emit.push [.uint w.offset, .uint w.limit]
    return some (order ++ "OFFSET ? ROWS FETCH NEXT ? ROWS ONLY")

end Window

namespace Compiler

variable {σ : Type} (c : Compiler)

def basicPage (q : Statement σ) : Emit (Option String) := do
  let w ← Emit.lift (q.window (some c.engine))
  w.basic

def page (q : Statement σ) : Emit (Option String) :=
  let w := Emit.lift (q.window (some c.engine))
  match c.engine with
  | .mySql => w >>= Window.withLimit "18446744073709551615"
  | .sqlite => w >>= Window.withLimit "-1"
  | .sqlServer =>
    if c.legacyPaging then pure none else w >>= Window.fetch (q.has .order (some c.engine))
  | _ => c.basicPage q

end Compiler

end SqlDialects
