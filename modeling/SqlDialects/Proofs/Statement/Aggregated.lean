import SqlDialects.Proofs.Statement.Building
import SqlDialects.Render.Aggregate

/-! What the terms say of a statement they say of the select that computes its aggregate. -/

namespace SqlDialects

/-- The terms hold of the names that are made up for an aggregate if they hold of its own. -/
structure Terms.Aggregates (t : Terms) : Prop where
  braces : ∀ name, t.name name → ∀ column ∈ Text.expandBraces name, t.name column
  rows : ∀ function, t.function function → t.name (function ++ "Query")
  star : t.name "*"

variable {t : Terms} {q : Query}

theorem obeys_nullTests {columns : List String} (hn : ∀ name ∈ columns, t.name name)
    (hq : q.Obeys t) : Query.Obeys t (columns.foldl
      (fun q name => (Statement.notNext q).addCondition .filter (.isNull name)) q) := by
  induction columns generalizing q with
  | nil => exact hq
  | cons name columns ih =>
    refine ih (fun name hm => hn name (List.mem_cons_of_mem _ hm)) ?_
    have hp : (Predicate.isNull name).Obeys t (Subquery.Obeys t) := hn name List.mem_cons_self
    have hnot : Query.Obeys t q.notNext := hq
    exact Statement.Obeys.addCondition hnot hp

theorem obeys_unpaged (hq : q.Obeys t) : q.unpaged.Obeys t :=
  ((Statement.Obeys.clear hq _ _).clear _ _).clear _ _

theorem obeys_counted (ht : ∀ name, t.name name → ∀ column ∈ Text.expandBraces name, t.name column)
    (hq : q.Obeys t) {columns : List String} (hn : ∀ name ∈ columns, t.name name)
    (engine : Engine) : (q.counted engine columns).Obeys t := by
  have hinner : Query.Obeys t { q.clear .aggregate (some engine) with method := .select } :=
    Statement.Obeys.clear hq .aggregate (some engine)
  unfold Query.counted
  generalize { q.clear .aggregate (some engine) with method := .select } = inner at hinner ⊢
  dsimp only
  split
  · exact Statement.Obeys.select (Statement.Obeys.clear hinner _ _) ht hn
  · exact obeys_nullTests hn hinner

variable (ht : t.Aggregates) (hq : q.Obeys t)

include ht hq

theorem obeys_aggregateOver {function : String} (hf : t.function function) :
    (Query.aggregateOver function q).Obeys t := by
  have hs : (Source.query (Subquery.of (q.rename (function ++ "Query"))) none).Obeys
      t (Subquery.Obeys t) :=
    ⟨Subquery.obeys_of.mpr (Statement.Obeys.rename hq (ht.rows function hf)), by rintro _ ⟨⟩⟩
  have ha : (ClauseKind.aggregate ⟨function, ["*"]⟩).Obeys t (Subquery.Obeys t) := by
    refine ⟨hf, fun name hm => ?_⟩
    rw [List.mem_singleton.mp hm]
    exact ht.star
  have hempty : Query.Obeys t {} := ⟨by rintro _ ⟨⟩, by rintro _ ⟨⟩⟩
  have hadd : (Statement.add ({} : Query) .aggregate (.aggregate ⟨function, ["*"]⟩)).Obeys
      t (Subquery.Obeys t) := Statement.Obeys.add hempty ha
  have h := hadd.setSource hs
  exact ⟨h.1, h.2⟩

theorem obeys_aggregated {engine : Engine} {p : Query} (h : q.aggregated engine = .ok p) :
    p.Obeys t := by
  have hu := obeys_unpaged hq
  unfold Query.aggregated at h
  cases ho : q.unpaged.getOne .aggregate ClauseKind.aggregate? (some engine) with
  | error e =>
    simp only [ho] at h
    cases h
  | ok o =>
    cases o with
    | none =>
      simp only [ho] at h
      cases h
      exact hu
    | some a =>
      obtain ⟨hf, hcs⟩ := Statement.Obeys.getOne hu ClauseKind.obeys_aggregate ho
      simp only [ho] at h
      by_cases hs : a.columns.length = 1 ∧ !q.unpaged.distinct
      · simp only [bind, Except.bind, if_pos hs] at h
        cases h
        exact hu
      · simp only [bind, Except.bind, if_neg hs] at h
        cases h
        exact obeys_aggregateOver ht (obeys_counted ht.braces hu hcs engine) hf

end SqlDialects
