import SqlDialects.Render.Aggregate
import SqlDialects.Render.Cte
import SqlDialects.Render.Write

/-!
Compiling whole statements. Placeholders for arrays become one placeholder for each item, and
then every placeholder gets a name under which its value is found.
-/

namespace SqlDialects

def expandMarker (placeholder : String) : Option Value → String
  | some (.array items) => ",".intercalate (List.replicate items.length placeholder)
  | _ => placeholder

/-- The SQL with the placeholders of arrays expanded, if it has as many as there are values. -/
def expandMarkers (placeholder : String) (bindings : List Value) (sql : String) :
    Except Fault String :=
  let markers := (Text.indexesOf placeholder sql).length
  if markers ≠ bindings.length then throw (.markerMismatch markers bindings.length)
  else return Text.replaceEach placeholder (fun i => expandMarker placeholder bindings[i]?) sql

structure Compiled where
  /-- The statement; a batch of several has none. -/
  query : Option Query
  /-- SQL with placeholders. -/
  rawSql : String
  /-- SQL with named parameters. -/
  sql : String
  bindings : List Value
  /-- The values of the parameters, with arrays taken apart. -/
  named : List (String × Value)

namespace Compiled

def flatBindings (r : Compiled) : List Value := Value.flatten r.bindings

def literalSql (r : Compiled) : String :=
  let flat := r.flatBindings
  Text.replaceEach "?"
    (fun i => match flat[i]? with
      | some v => v.literal
      | none => "?")
    r.rawSql

end Compiled

namespace Compiler

variable (c : Compiler)

def body (q : Query) : Except Fault Fragment :=
  let scopes : Scopes := [q.vars]
  match q.method with
  | .select => c.select (c.prepare q) []
  | .aggregate => do
    let q ← q.aggregated c.engine
    c.select (c.prepare q) []
  | .insert => (c.insertText scopes (c.prepare q)).toFragment
  | .update => (c.updateText scopes .update (c.prepare q)).toFragment
  | .assign => (c.updateText scopes .assign (c.prepare q)).toFragment
  | .delete => (c.deleteText scopes (c.prepare q)).toFragment

/-- The whole SQL with one placeholder for each value bound, arrays among them. -/
def assemble (q : Query) : Except Fault Fragment := do
  let f ← c.body q
  if q.has .cte (some c.engine) then c.prependCtes q f else pure f

def compileRaw (q : Query) : Except Fault Fragment := do
  let f ← c.assemble q
  let sql ← expandMarkers c.marker f.bindings f.sql
  return ⟨sql, f.bindings⟩

def markerName (i : Nat) : String := c.markerPrefix ++ Number.natText i

def nameMarkers (query : Option Query) (f : Fragment) : Compiled where
  query := query
  rawSql := f.sql
  sql := Text.replaceEach c.marker c.markerName f.sql
  bindings := f.bindings
  named := (Value.flatten f.bindings).zipIdx.map fun (v, i) => (c.markerName i, v)

def compile (q : Query) : Except Fault Compiled := do
  let f ← c.compileRaw q
  return c.nameMarkers (some q) f

def compileMany (qs : List Query) : Except Fault Compiled := do
  let fs ← qs.mapM c.compileRaw
  return c.nameMarkers none
    ⟨";\n".intercalate (fs.map (·.sql)), fs.flatMap (·.bindings)⟩

end Compiler

end SqlDialects
