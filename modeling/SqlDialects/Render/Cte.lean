import SqlDialects.Render.Select

/-!
Common table expressions in the order of their definitions: those declared inside the body of one
come right before it, and the first one of a name is the only one.
-/

namespace SqlDialects

def isCte (engine : Engine) (c : Clause Subquery) : Bool := c.visible .cte (some engine)

mutual
def Subquery.findCtes (engine : Engine) (seen : List String) :
    Subquery → Except Fault (List (Source Subquery) × List String)
  | .of ⟨_, _, _, clauses, _, _, _, _⟩ => do
    let _ ← (clauses.filter (isCte engine)).mapM (·.view .cte ClauseKind.source?)
    walkCtes engine seen clauses
termination_by structural s => s

def walkCtes (engine : Engine) (seen : List String) :
    List (Clause Subquery) → Except Fault (List (Source Subquery) × List String)
  | [] => .ok ([], seen)
  | ⟨component, scope, .source (.query body aliasName)⟩ :: rest =>
    let s : Source Subquery := .query body aliasName
    let name := s.alias?.getD ""
    if !isCte engine ⟨component, scope, .source s⟩ || seen.contains name then
      walkCtes engine seen rest
    else do
      let (inner, seen) ← body.findCtes engine (name :: seen)
      let (later, seen) ← walkCtes engine seen rest
      return (inner ++ s :: later, seen)
  | ⟨component, scope, .source s⟩ :: rest =>
    let name := s.alias?.getD ""
    if !isCte engine ⟨component, scope, .source s⟩ || seen.contains name then
      walkCtes engine seen rest
    else do
      let (later, seen) ← walkCtes engine (name :: seen) rest
      return (s :: later, seen)
  | _ :: rest => walkCtes engine seen rest
termination_by structural cs => cs
end

def Query.ctes (engine : Engine) (q : Query) : Except Fault (List (Source Subquery)) :=
  (Subquery.findCtes engine [] (.of q)).map (·.1)

/-- A search for the expressions of a statement, which keeps what it has found. -/
structure CteSearch where
  query : Query
  engine : Engine
  found : Option (List (Source Subquery)) := none

namespace CteSearch

def run (search : CteSearch) : Except Fault (List (Source Subquery) × CteSearch) :=
  match search.found with
  | some sources => .ok (sources, search)
  | none => do
    let sources ← search.query.ctes search.engine
    return (sources, { search with found := some sources })

theorem run_of_found {search : CteSearch} {sources : List (Source Subquery)}
    (h : search.found = some sources) : search.run = .ok (sources, search) := by
  rw [run, h]

theorem run_eq_ok {q : Query} {e : Engine} {sources : List (Source Subquery)} {next : CteSearch}
    (h : run { query := q, engine := e } = .ok (sources, next)) :
    q.ctes e = .ok sources ∧ next.found = some sources := by
  unfold run at h
  dsimp only at h
  cases hs : q.ctes e with
  | error _ =>
    rw [hs] at h
    cases h
  | ok _ =>
    rw [hs] at h
    cases h
    exact ⟨rfl, rfl⟩

end CteSearch

namespace Compiler

variable (c : Compiler)

def cteDefinition (root : Query) (s : Source Subquery) : Except Fault Fragment :=
  match s.alias? with
  | none => throw .unnamedCte
  | some name =>
    if name.isEmpty then throw .unnamedCte
    else match s with
      | .raw sql bindings _ =>
        return ⟨c.engine.wrapValue name ++ " AS (" ++ c.engine.wrapIdentifiers sql ++ ")", bindings⟩
      | .query body _ => do
        let sub ← (c.rendering body).select [root.vars]
        return ⟨c.engine.wrapValue name ++ " AS (" ++ sub.sql ++ ")", sub.bindings⟩
      | .table _ => throw (.misplacedClause .cte (.family .source))

def prependCtes (q : Query) (body : Fragment) : Except Fault Fragment := do
  let sources ← q.ctes c.engine
  if sources.isEmpty then return body
  else
    let definitions ← sources.mapM (c.cteDefinition q)
    return ⟨"WITH " ++ ",\n".intercalate (definitions.map fun d => Text.trim d.sql) ++ "\n" ++
        body.sql,
      definitions.flatMap (·.bindings) ++ body.bindings⟩

end Compiler

end SqlDialects
