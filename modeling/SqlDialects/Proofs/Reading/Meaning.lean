import SqlDialects.Proofs.Reading.Atoms
import SqlDialects.Proofs.Statement.Terms
import SqlDialects.Proofs.Text.Unbraced
import SqlDialects.Render.Select

/-!
What a list of conditions says, as a tree: a chain of its members by their connectors, in which a
group is what its own list says and a negation is one. What an engine does not see and groups that
say nothing are left out with their connectors.
-/

namespace SqlDialects

open Reading

section Formulas

variable {σ α : Type}

def Statement.conditionsFor (e : Engine) (q : Statement σ) : List (Condition σ) :=
  (q.bucket .filter (some e)).filterMap (·.kind.condition?)

def Predicate.formula? (leaf : Predicate σ → α) (group : σ → Option (Formula α)) :
    Predicate σ → Option (Formula α)
  | .nested q => group q
  | p => some (.leaf (leaf p))

def Condition.formula? (leaf : Predicate σ → α) (group : σ → Option (Formula α))
    (x : Condition σ) : Option (Formula α) :=
  if x.isNot then (x.predicate.formula? leaf group).map .not else x.predicate.formula? leaf group

def chainFormula? (leaf : Predicate σ → α) (group : σ → Option (Formula α))
    (xs : List (Condition σ)) : Option (Formula α) :=
  Formula.chain (xs.filterMap fun x => (x.formula? leaf group).map (x.isOr, ·))

end Formulas

/-- A statement with what it says as a group. -/
def Subquery.withFormula (e : Engine) :
    Subquery → Subquery × Option (Formula (Predicate Subquery)) :=
  Subquery.fold fun q => (.of (q.map (·.1)), chainFormula? (·.map (·.1)) (·.2) (q.conditionsFor e))

def Subquery.formula? (e : Engine) (n : Subquery) : Option (Formula (Predicate Subquery)) :=
  (n.withFormula e).2

def conditionFormula? (e : Engine) :
    List (Condition Subquery) → Option (Formula (Predicate Subquery)) :=
  chainFormula? id (Subquery.formula? e)

theorem Subquery.withFormula_fst (e : Engine) (n : Subquery) : (n.withFormula e).1 = n := by
  induction n using Subquery.induction with
  | step q ih =>
    have hq : (q.map (withFormula e)).map (·.1) = q := by
      rw [Statement.map_map]
      exact (Statement.map_congr ih).trans q.map_id
    rw [withFormula, fold_of]
    exact congrArg of hq

section Mapped

variable {σ τ α : Type} {f : σ → τ} {leaf : Predicate σ → α} {mapped : Predicate τ → α}
  {group : σ → Option (Formula α)} {grouped : τ → Option (Formula α)}

theorem Statement.conditionsFor_map (e : Engine) (q : Statement σ) :
    (q.map f).conditionsFor e = (q.conditionsFor e).map (·.map f) := by
  unfold conditionsFor
  rw [bucket_map, List.filterMap_map, List.map_filterMap]
  exact congrArg (List.filterMap · _) (funext fun c => c.kind.condition?_map f)

theorem Statement.conditionsFor_of_getAll {e : Engine} {q : Statement σ} {xs : List (Condition σ)}
    (h : q.getAll .filter ClauseKind.condition? (some e) = .ok xs) : q.conditionsFor e = xs := by
  have hread := getAll_eq_ok.mp h
  clear h
  unfold conditionsFor
  generalize q.bucket .filter (some e) = cs at hread ⊢
  induction hread with
  | nil => rfl
  | cons hx _ ih => simp [hx, ih]

theorem Condition.formula?_map (hl : ∀ p, mapped (p.map f) = leaf p)
    (hg : ∀ n, grouped (f n) = group n) (x : Condition σ) :
    (x.map f).formula? mapped grouped = x.formula? leaf group := by
  have hp : (x.predicate.map f).formula? mapped grouped = x.predicate.formula? leaf group := by
    cases x.predicate with
    | nested n => exact hg n
    | _ => exact congrArg (fun a => some (Formula.leaf a)) (hl _)
  unfold Condition.formula?
  rw [Condition.map, hp]

theorem chainFormula?_map (hl : ∀ p, mapped (p.map f) = leaf p) (hg : ∀ n, grouped (f n) = group n)
    (xs : List (Condition σ)) :
    chainFormula? mapped grouped (xs.map (·.map f)) = chainFormula? leaf group xs := by
  unfold chainFormula?
  rw [List.filterMap_map]
  refine congrArg (fun f => Formula.chain (List.filterMap f xs)) (funext fun x => ?_)
  rw [Function.comp_apply, Condition.formula?_map hl hg]
  rfl

end Mapped

theorem Subquery.formula?_of (e : Engine) (q : Query) :
    (Subquery.of q).formula? e = conditionFormula? e (q.conditionsFor e) := by
  have hself : Subquery.withFormula e (.of q) =
      (.of ((q.map (withFormula e)).map (·.1)),
        chainFormula? (·.map (·.1)) (·.2) ((q.map (withFormula e)).conditionsFor e)) := by
    rw [withFormula, fold_of]
  rw [formula?, hself, Statement.conditionsFor_map]
  refine chainFormula?_map (fun p => ?_) (fun n => rfl) _
  cases p <;> simp [Predicate.map, withFormula_fst]

/-- Terms without SQL text: operators are those that every compiler accepts, date parts are words
that are no keywords of conditions, with a format where the engine needs one, and escapes do not
close the quotes around them. -/
def plainTerms (e : Engine) : Terms where
  operator op := Text.lower op ∈ comparing
  datePart part := PlainWord (Text.upper part).toList ∧ (e = .sqlite → (timeFormat? part).isSome)
  escape := (· ≠ '\'')
  value v := ∀ sql, v ≠ .raw sql
  raw _ _ := False

/-- The terms of a select in a condition. What is written out as it is leaves no quote and no
parenthesis open and closes none but its own; where the order of rows becomes a column of their
numbers, it has nothing that a second pass over it changes. -/
def Compiler.selectTerms (c : Compiler) : Terms :=
  { plainTerms c.engine with
    orderName := fun n => c.engine = .sqlServer ∧ c.legacyPaging = true → Text.Unbraced n
    function := fun f => c.engine.Spans 0 0 (Text.upper f)
    seed := fun s => c.engine = .mySql → c.engine.Spans 1 1 s }

/-- A condition whose terms are plain, and those of its group, at any depth. -/
inductive Condition.Plain (c : Compiler) : Condition Subquery → Prop
  | atom {p : Predicate Subquery} {isOr isNot : Bool} (hp : ∀ q, p ≠ .nested q)
      (h : p.Obeys (plainTerms c.engine) (Subquery.Obeys c.selectTerms)) : Plain c ⟨p, isOr, isNot⟩
  | group {q : Query} {isOr isNot : Bool} (h : ∀ x ∈ q.conditionsFor c.engine, Plain c x) :
      Plain c ⟨.nested (.of q), isOr, isNot⟩

/-- The tokens of a predicate that is rendered without a negation. -/
def Compiler.atom (c : Compiler) (scopes : Scopes) (p : Predicate Subquery) : List Token :=
  ((c.condition scopes ⟨p.map c.rendering, false, false⟩).outcome.toOption.bind
    (tokens c.engine)).getD []

end SqlDialects
