import SqlDialects.Proofs.Statement.Ctes

/-!
The walk through the common table expressions of a statement. It meets each expression of a bucket
before those in its body, and goes into the body of one only if no other of its name was met before.
-/

namespace SqlDialects

/-- An expression that the walk meets, and those it stands inside of, innermost first. -/
structure Sighting where
  source : Source Subquery
  enclosing : List (Source Subquery)

def Sighting.isOf (name : String) (m : Sighting) : Bool := m.source.cteName == name

mutual
/-- The expressions met before, and those of a statement inside the enclosing ones. -/
def Subquery.sightings (e : Engine) (enclosing : List (Source Subquery)) (met : List Sighting) :
    Subquery → List Sighting
  | .of ⟨_, _, _, clauses, _, _, _, _⟩ => sightingsIn e enclosing met clauses
termination_by structural s => s

def sightingsIn (e : Engine) (enclosing : List (Source Subquery)) (met : List Sighting) :
    List (Clause Subquery) → List Sighting
  | [] => met
  | ⟨component, scope, .source (.query body aliasName)⟩ :: rest =>
    let s : Source Subquery := .query body aliasName
    if isCte e ⟨component, scope, .source s⟩ then
      let here := met ++ [⟨s, enclosing⟩]
      if met.any (·.isOf s.cteName) then sightingsIn e enclosing here rest
      else sightingsIn e enclosing (body.sightings e (s :: enclosing) here) rest
    else sightingsIn e enclosing met rest
  | ⟨component, scope, .source s⟩ :: rest =>
    if isCte e ⟨component, scope, .source s⟩ then
      sightingsIn e enclosing (met ++ [⟨s, enclosing⟩]) rest
    else sightingsIn e enclosing met rest
  | _ :: rest => sightingsIn e enclosing met rest
termination_by structural cs => cs
end

def Query.walk (e : Engine) (q : Query) : List Sighting := (Subquery.of q).sightings e [] []

def Query.declared (e : Engine) (q : Query) : List (Source Subquery) :=
  (q.bucket .cte (some e)).filterMap (·.kind.source?)

def Source.declared (e : Engine) : Source Subquery → List (Source Subquery)
  | query body _ => Query.declared e body.statement
  | _ => []

def Source.sightings (e : Engine) (enclosing : List (Source Subquery)) (met : List Sighting) :
    Source Subquery → List Sighting
  | query body aliasName => body.sightings e (.query body aliasName :: enclosing) met
  | _ => met

variable {e : Engine}

theorem Subquery.sightings_of (q : Query) (enclosing : List (Source Subquery))
    (met : List Sighting) :
    (Subquery.of q).sightings e enclosing met = sightingsIn e enclosing met q.clauses := by
  unfold Subquery.sightings
  rfl

theorem sightingsIn_source (component : Component) (scope : Option Engine) (s : Source Subquery)
    (enclosing : List (Source Subquery)) (met : List Sighting) (rest : List (Clause Subquery)) :
    sightingsIn e enclosing met (⟨component, scope, .source s⟩ :: rest) =
      if isCte e ⟨component, scope, .source s⟩ then
        sightingsIn e enclosing
          (if met.any (·.isOf s.cteName) then met ++ [⟨s, enclosing⟩]
            else s.sightings e enclosing (met ++ [⟨s, enclosing⟩])) rest
      else sightingsIn e enclosing met rest := by
  cases s with
  | query body aliasName =>
    rw [sightingsIn]
    dsimp only
    split
    · split <;> rfl
    · rfl
  | table name =>
    rw [sightingsIn]
    · simp only [Source.sightings, ite_self]
    · rintro _ _ ⟨⟩
  | raw sql bindings aliasName =>
    rw [sightingsIn]
    · simp only [Source.sightings, ite_self]
    · rintro _ _ ⟨⟩

theorem sightingsIn_other {component : Component} {scope : Option Engine}
    {kind : ClauseKind Subquery} (h : ∀ s, kind ≠ .source s) (enclosing : List (Source Subquery))
    (met : List Sighting) (rest : List (Clause Subquery)) :
    sightingsIn e enclosing met (⟨component, scope, kind⟩ :: rest) =
      sightingsIn e enclosing met rest := by
  cases kind with
  | source s => exact absurd rfl (h s)
  | _ => rfl

end SqlDialects
