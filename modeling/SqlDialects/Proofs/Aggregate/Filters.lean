import SqlDialects.Proofs.Reading.Meaning
import SqlDialects.Proofs.Statement.Building
import SqlDialects.Render.Aggregate

/-!
The rows that an aggregate over several columns counts. The tests for null go to the end of the
conditions that are already there, so they belong to the last of the runs that OR divides these
into, and the first test takes up what is pending.
-/

namespace SqlDialects

namespace Reading

variable {α : Type}

def Formula.eval (truth : α → Bool) : Formula α → Bool
  | leaf a => truth a
  | not t => !t.eval truth
  | and s t => s.eval truth && t.eval truth
  | or s t => s.eval truth || t.eval truth

/-- Conditions in runs: AND stands between those of one run, OR between the runs. -/
structure Runs (α : Type) where
  earlier : List (List (Formula α)) := []
  last : List (Formula α) := []

namespace Runs

def extend (r : Runs α) (x : Bool × Formula α) : Runs α :=
  if x.1 && !r.last.isEmpty then ⟨r.earlier ++ [r.last], [x.2]⟩ else ⟨r.earlier, r.last ++ [x.2]⟩

def ofLinks (links : List (Bool × Formula α)) : Runs α := links.foldl extend {}

def earlierHold (truth : α → Bool) (r : Runs α) : Bool :=
  r.earlier.any fun run => run.all (·.eval truth)

def lastHolds (truth : α → Bool) (r : Runs α) : Bool := r.last.all (·.eval truth)

def hold (truth : α → Bool) (r : Runs α) : Bool := r.earlierHold truth || r.lastHolds truth

variable (truth : α → Bool) (r : Runs α)

theorem extend_last_ne_nil (x : Bool × Formula α) : (r.extend x).last ≠ [] := by
  unfold extend
  split <;> simp

theorem extend_and (t : Formula α) : r.extend (false, t) = ⟨r.earlier, r.last ++ [t]⟩ := rfl

theorem extend_or (h : r.last ≠ []) (t : Formula α) :
    r.extend (true, t) = ⟨r.earlier ++ [r.last], [t]⟩ := by
  simp [extend, h]

theorem ofLinks_append (links more : List (Bool × Formula α)) :
    ofLinks (links ++ more) = more.foldl extend (ofLinks links) := List.foldl_append

theorem eval_follow (t : Formula α) (links : List (Bool × Formula α)) (hne : r.last ≠ [])
    (ht : t.eval truth = r.lastHolds truth) :
    (r.earlierHold truth || (t.follow links).eval truth) =
      (links.foldl extend r).hold truth := by
  -- AND lets the last run grow with the condition before it, OR puts that run among the earlier.
  induction links generalizing r t with
  | nil => rw [Formula.follow, ht]; rfl
  | cons x links ih =>
    obtain ⟨isOr, s⟩ := x
    rw [List.foldl_cons]
    have hne' := r.extend_last_ne_nil (isOr, s)
    cases isOr with
    | false =>
      have hs : (t.and s).eval truth = (r.extend (false, s)).lastHolds truth := by
        simp [Formula.eval, ht, extend_and, lastHolds]
      exact ih (r.extend (false, s)) (t.and s) hne' hs
    | true =>
      have hs : s.eval truth = (r.extend (true, s)).lastHolds truth := by
        simp [extend_or r hne, lastHolds]
      have hearlier : (r.extend (true, s)).earlierHold truth =
          (r.earlierHold truth || t.eval truth) := by
        simp [extend_or r hne, earlierHold, ht, lastHolds]
      rw [← ih (r.extend (true, s)) s hne' hs, hearlier, Bool.or_assoc]
      rfl

theorem eval_chain (links : List (Bool × Formula α)) :
    ((Formula.chain links).elim true fun t => t.eval truth) = (ofLinks links).hold truth := by
  cases links with
  | nil => rfl
  | cons x links =>
    obtain ⟨isOr, t⟩ := x
    have h := eval_follow truth ⟨[], [t]⟩ t links (by simp) (by simp [lastHolds])
    have hfirst : extend {} (isOr, t) = ⟨[], [t]⟩ := by simp [extend]
    rw [ofLinks, List.foldl_cons, hfirst, ← h]
    rfl

theorem foldl_extend_and (ts : List (Formula α)) :
    (ts.map (false, ·)).foldl extend r = ⟨r.earlier, r.last ++ ts⟩ := by
  induction ts generalizing r with
  | nil => simp
  | cons t ts ih =>
    rw [List.map_cons, List.foldl_cons, ih, extend_and]
    simp

theorem hold_foldl_extend (isOr : Bool) (t : Formula α) (ts : List (Formula α)) :
    (((isOr, t) :: ts.map (false, ·)).foldl extend r).hold truth =
      if isOr && !r.last.isEmpty then
        r.hold truth || (t.eval truth && ts.all (·.eval truth))
      else
        r.earlierHold truth || (r.lastHolds truth && (t.eval truth && ts.all (·.eval truth))) := by
  rw [List.foldl_cons, foldl_extend_and]
  unfold extend
  split <;> simp [hold, earlierHold, lastHolds]

end Runs

end Reading

open Reading

namespace Statement

variable {σ : Type}

theorem conditionsFor_addCondition (e : Engine) (q : Statement σ) (p : Predicate σ) :
    (q.addCondition .filter p).conditionsFor e =
      q.conditionsFor e ++ if q.addsFor e then [⟨p, q.pendingOr, q.pendingNot⟩] else [] := by
  have hbucket : (q.addCondition .filter p).bucket .filter (some e) =
      (q.add .filter (.condition ⟨p, q.pendingOr, q.pendingNot⟩)).bucket .filter (some e) := rfl
  rw [conditionsFor, hbucket, bucket_add_self, List.filterMap_append, conditionsFor]
  cases q.addsFor e <;> rfl

theorem conditionsFor_clear (e : Engine) (q : Statement σ) {component : Component}
    (h : component ≠ .filter) (cleared : Option Engine) :
    (q.clear component cleared).conditionsFor e = q.conditionsFor e := by
  rw [conditionsFor, bucket_clear_of_ne q h.symm, conditionsFor]

end Statement

namespace Query

/-- The tests for null of an aggregate. Each denies that its column is null, but what is pending
goes to the first of them. -/
def nullTests (q : Query) : List String → List (Condition Subquery)
  | [] => []
  | name :: rest =>
    ⟨.isNull name, q.pendingOr, !q.pendingNot⟩ :: rest.map fun name => ⟨.isNull name, false, true⟩

def links (e : Engine) (q : Query) : List (Bool × Formula (Predicate Subquery)) :=
  (q.conditionsFor e).filterMap fun x =>
    (x.formula? id (Subquery.formula? e)).map (x.isOr, ·)

def runs (e : Engine) (q : Query) : Runs (Predicate Subquery) := .ofLinks (q.links e)

def holds (e : Engine) (truth : Predicate Subquery → Bool) (q : Query) : Bool :=
  ((Subquery.of q).formula? e).elim true (·.eval truth)

def nullTestsHold (truth : Predicate Subquery → Bool) (q : Query) : List String → Bool
  | [] => true
  | name :: rest =>
    (truth (.isNull name) == q.pendingNot) && rest.all fun name => !truth (.isNull name)

theorem holds_eq_runs (e : Engine) (truth : Predicate Subquery → Bool) (q : Query) :
    q.holds e truth = (q.runs e).hold truth := by
  rw [holds, Subquery.formula?_of]
  exact Runs.eval_chain truth (q.links e)

theorem conditionsFor_nullTests (e : Engine) (columns : List String) (q : Query) :
    (columns.foldl (fun q name => q.notNext.addCondition .filter (.isNull name)) q).conditionsFor
        e = q.conditionsFor e ++ if q.addsFor e then q.nullTests columns else [] := by
  induction columns generalizing q with
  | nil => simp [nullTests]
  | cons name rest ih =>
    have hadds : (q.notNext.addCondition .filter (.isNull name)).addsFor e = q.addsFor e := rfl
    have hrest : nullTests (q.notNext.addCondition .filter (.isNull name)) rest =
        rest.map fun name => ⟨.isNull name, false, true⟩ := by
      cases rest <;> rfl
    have hfirst : (q.notNext.addCondition .filter (.isNull name)).conditionsFor e =
        q.conditionsFor e ++
          if q.addsFor e then [⟨.isNull name, q.pendingOr, !q.pendingNot⟩] else [] :=
      Statement.conditionsFor_addCondition e q.notNext _
    rw [List.foldl_cons, ih, hadds, hrest, hfirst, List.append_assoc]
    cases q.addsFor e <;> rfl

theorem links_nullTests (e : Engine) (q : Query) (name : String) (rest : List String) :
    ((q.nullTests (name :: rest)).filterMap fun x =>
        (x.formula? id (Subquery.formula? e)).map (x.isOr, ·)) =
      (q.pendingOr, if q.pendingNot then .leaf (.isNull name) else .not (.leaf (.isNull name))) ::
        (rest.map fun name => Formula.not (.leaf (.isNull name))).map (false, ·) := by
  have hrest : ((rest.map fun name => (⟨.isNull name, false, true⟩ : Condition Subquery)).filterMap
      fun x => (x.formula? id (Subquery.formula? e)).map (x.isOr, ·)) =
        (rest.map fun name => Formula.not (.leaf (.isNull name))).map (false, ·) := by
    rw [List.filterMap_map, List.map_map, ← List.filterMap_eq_map]
    rfl
  have hfirst : (⟨.isNull name, q.pendingOr, !q.pendingNot⟩ : Condition Subquery).formula? id
      (Subquery.formula? e) =
        some (if q.pendingNot then .leaf (.isNull name) else .not (.leaf (.isNull name))) := by
    cases h : q.pendingNot <;> simp [Condition.formula?, Predicate.formula?]
  rw [nullTests, List.filterMap_cons, hfirst, hrest]
  rfl

/-- Which rows are counted when not all columns may be null: the tests belong to the last run, or
make up one of their own if an OR is pending. -/
theorem counted_holds (e : Engine) (q : Query) (hd : q.distinct = false) {columns : List String}
    (hc : columns ≠ []) (truth : Predicate Subquery → Bool) :
    (q.counted e columns).holds e truth =
      if !q.addsFor e then q.holds e truth
      else if q.pendingOr && !(q.runs e).last.isEmpty then
        q.holds e truth || q.nullTestsHold truth columns
      else (q.runs e).earlierHold truth ||
        ((q.runs e).lastHolds truth && q.nullTestsHold truth columns) := by
  obtain ⟨name, rest, rfl⟩ := List.exists_cons_of_ne_nil hc
  let inner : Query := { q.clear .aggregate (some e) with method := .select }
  have hcounted : q.counted e (name :: rest) = (name :: rest).foldl
      (fun q name => q.notNext.addCondition .filter (.isNull name)) inner := by
    rw [counted, if_neg (by simpa [Statement.clear] using hd)]
  have hinner : inner.conditionsFor e = q.conditionsFor e :=
    q.conditionsFor_clear e (by decide) (some e)
  have hlinks : (q.counted e (name :: rest)).links e =
      q.links e ++ if q.addsFor e then
        (q.nullTests (name :: rest)).filterMap fun x =>
          (x.formula? id (Subquery.formula? e)).map (x.isOr, ·)
      else [] := by
    rw [links, hcounted, conditionsFor_nullTests, hinner, List.filterMap_append]
    show _ ++ List.filterMap _ (if q.addsFor e then q.nullTests (name :: rest) else []) = _
    cases q.addsFor e <;> rfl
  rw [holds_eq_runs, holds_eq_runs, runs, hlinks]
  cases q.addsFor e with
  | false => simp [runs]
  | true =>
    rw [if_pos rfl, Runs.ofLinks_append, links_nullTests, Runs.hold_foldl_extend]
    have htests : ((if q.pendingNot then Formula.leaf (.isNull name)
          else .not (.leaf (.isNull name))).eval truth &&
        (rest.map fun name => Formula.not (.leaf (.isNull name))).all (·.eval truth)) =
          q.nullTestsHold truth (name :: rest) := by
      cases hn : q.pendingNot <;>
        simp [nullTestsHold, Formula.eval, hn, List.all_map, Function.comp_def]
    rw [htests]
    rfl

theorem conditionsFor_unpaged (e : Engine) (q : Query) :
    q.unpaged.conditionsFor e = q.conditionsFor e := by
  rw [unpaged, Statement.conditionsFor_clear _ _ (by decide),
    Statement.conditionsFor_clear _ _ (by decide), Statement.conditionsFor_clear _ _ (by decide)]

theorem getOne_aggregate_unpaged (q : Query) (engine : Option Engine) :
    q.unpaged.getOne .aggregate ClauseKind.aggregate? engine =
      q.getOne .aggregate ClauseKind.aggregate? engine := by
  rw [unpaged, Statement.getOne, Statement.bucket_clear_of_ne _ (by decide),
    Statement.bucket_clear_of_ne _ (by decide), Statement.bucket_clear_of_ne _ (by decide),
    Statement.getOne]

/-- An aggregate over several columns is taken over an inner statement. Its conditions are those of
the whole one and the tests for null, which the last run of conditions alone is subject to. With
nothing pending, a row is judged right just when no other run lets in one with a null. -/
theorem aggregated_holds (e : Engine) (q : Query) (a : Aggregate)
    (ha : q.getOne .aggregate ClauseKind.aggregate? (some e) = .ok (some a))
    (hd : q.distinct = false) (hn : 2 ≤ a.columns.length) :
    ∃ inner : Query, q.aggregated e = .ok (aggregateOver a.function inner) ∧ ∀ truth,
      (inner.holds e truth =
        if !q.addsFor e then q.holds e truth
        else if q.pendingOr && !(q.runs e).last.isEmpty then
          q.holds e truth || q.nullTestsHold truth a.columns
        else (q.runs e).earlierHold truth ||
          ((q.runs e).lastHolds truth && q.nullTestsHold truth a.columns)) ∧
      (q.addsFor e = true → q.pendingOr = false → q.pendingNot = false →
        (inner.holds e truth =
            (q.holds e truth && a.columns.all fun name => !truth (.isNull name)) ↔
          ((q.runs e).earlierHold truth = true →
            ∀ name ∈ a.columns, truth (.isNull name) = false))) := by
  have hne : a.columns ≠ [] := by
    intro h
    simp [h] at hn
  have hruns : q.unpaged.runs e = q.runs e := by
    rw [runs, runs, links, links, conditionsFor_unpaged]
  have hholds (truth : Predicate Subquery → Bool) :=
    counted_holds e q.unpaged hd hne truth
  simp only [holds_eq_runs e _ q.unpaged, hruns, ← holds_eq_runs e _ q] at hholds
  refine ⟨q.unpaged.counted e a.columns, ?_, fun truth => ⟨hholds truth, fun hs ho hp => ?_⟩⟩
  · have hseveral : ¬(a.columns.length = 1 ∧ (!q.unpaged.distinct) = true) := by omega
    rw [aggregated, getOne_aggregate_unpaged, ha]
    exact if_neg hseveral
  · have hnull : q.unpaged.nullTestsHold truth a.columns =
        a.columns.all fun name => !truth (.isNull name) := by
      cases a.columns <;> simp [nullTestsHold, unpaged, Statement.clear, hp]
    have hs : q.unpaged.addsFor e = true := hs
    have ho : q.unpaged.pendingOr = false := ho
    have hall : (∀ name ∈ a.columns, truth (.isNull name) = false) ↔
        (a.columns.all fun name => !truth (.isNull name)) = true := by simp
    rw [hholds, hs, ho, hnull, holds_eq_runs, Runs.hold, hall]
    cases (q.runs e).earlierHold truth <;> simp

def deniedCounted : Query :=
  (Statement.setSource ({} : Query) (.table "t")).notNext.aggregate "count" ["a", "b"]

theorem aggregated_holds_deniedCounted :
    ∃ inner : Query, deniedCounted.aggregated .generic = .ok (aggregateOver "count" inner) ∧
      ∀ truth, inner.holds .generic truth = (truth (.isNull "a") && !truth (.isNull "b")) := by
  obtain ⟨inner, hinner, hholds⟩ := aggregated_holds .generic deniedCounted ⟨"count", ["a", "b"]⟩
    (by rfl) (by rfl) (by decide)
  refine ⟨inner, hinner, fun truth => (hholds truth).1.trans ?_⟩
  show (false || (true && ((truth (.isNull "a") == true) && (!truth (.isNull "b") && true)))) = _
  simp

def eitherCounted : Query :=
  (((Statement.setSource ({} : Query) (.table "t")).compare .filter "x" "=" (.int 1)).orNext.compare
    .filter "y" "=" (.int 2)).aggregate "count" ["a", "b"]

def emptyRow : Predicate Subquery → Bool
  | .compare "x" _ _ => true
  | .isNull _ => true
  | _ => false

/-- A row with nulls is counted if it meets a condition in front of an OR. -/
theorem eitherCounted_counts_null :
    ∃ inner : Query, eitherCounted.aggregated .generic = .ok (aggregateOver "count" inner) ∧
      inner.holds .generic emptyRow = true ∧
      (eitherCounted.holds .generic emptyRow &&
        ["a", "b"].all fun name => !emptyRow (.isNull name)) = false :=
  ⟨_, rfl, by decide +kernel, by decide +kernel⟩

end Query

end SqlDialects
