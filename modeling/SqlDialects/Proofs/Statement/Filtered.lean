import SqlDialects.Proofs.Select.Parts
import SqlDialects.Proofs.Statement.Building

/-!
Statements that only filter the rows of one source, and statements that have assignments besides.
-/

namespace SqlDialects

namespace Statement

variable {σ τ : Type}

/-- The statement has rows to start from, for every engine, and else only filters, each for all
engines or for one. -/
def OnlyFilters (q : Statement σ) (s : Source σ) : Prop :=
  ∃ before after, q.clauses = before ++ ⟨.source, none, .source s⟩ :: after ∧
    ∀ x ∈ before ++ after, x.component = .filter

variable {q : Statement σ} {s : Source σ}

theorem OnlyFilters.map (h : q.OnlyFilters s) (f : σ → τ) : (q.map f).OnlyFilters (s.map f) := by
  obtain ⟨before, after, hq, hfilter⟩ := h
  refine ⟨before.map (·.map f), after.map (·.map f), ?_, ?_⟩
  · rw [Statement.map, hq, List.map_append, List.map_cons]
    rfl
  · rw [← List.map_append]
    intro x hx
    obtain ⟨y, hy, rfl⟩ := List.mem_map.mp hx
    exact hfilter y hy

theorem OnlyFilters.bucket_source (h : q.OnlyFilters s) (e : Engine) :
    q.bucket .source (some e) = [⟨.source, none, .source s⟩] := by
  obtain ⟨before, after, hq, hfilter⟩ := h
  have hnone {xs : List (Clause σ)} (hxs : ∀ x ∈ xs, x.component = .filter) :
      xs.filter (Clause.visible .source (some e)) = [] := by
    refine List.filter_eq_nil_iff.mpr fun x hx => ?_
    simp [Clause.visible, hxs x hx]
  rw [bucket, hq, List.filter_append, hnone fun x hx => hfilter x (List.mem_append_left _ hx),
    List.nil_append, List.filter_cons_of_pos (by simp [Clause.visible]),
    hnone fun x hx => hfilter x (List.mem_append_right _ hx)]

theorem OnlyFilters.has_source (h : q.OnlyFilters s) (e : Engine) :
    q.has .source (some e) = true := by
  rw [has_eq_true_iff, h.bucket_source]
  exact List.cons_ne_nil _ _

theorem OnlyFilters.component_eq (h : q.OnlyFilters s) {x : Clause σ} (hx : x ∈ q.clauses) :
    x.component = .source ∨ x.component = .filter := by
  obtain ⟨before, after, hq, hfilter⟩ := h
  rw [hq, List.mem_append, List.mem_cons] at hx
  rcases hx with hx | rfl | hx
  · exact .inr (hfilter x (List.mem_append_left _ hx))
  · exact .inl rfl
  · exact .inr (hfilter x (List.mem_append_right _ hx))

theorem OnlyFilters.component_ne (h : q.OnlyFilters s) {component : Component}
    (hs : component ≠ .source) (hf : component ≠ .filter) :
    ∀ x ∈ q.clauses, x.component ≠ component := by
  rintro x hx rfl
  exact (h.component_eq hx).elim hs hf

theorem has_of_absent {component : Component} (h : ∀ x ∈ q.clauses, x.component ≠ component)
    (engine : Option Engine) : q.has component engine = false := by
  refine List.any_eq_false.mpr fun x hx => ?_
  simp [Clause.visible, h x hx]

theorem OnlyFilters.has_eq_false (h : q.OnlyFilters s) {component : Component}
    (hs : component ≠ .source) (hf : component ≠ .filter) (engine : Option Engine) :
    q.has component engine = false :=
  has_of_absent (h.component_ne hs hf) engine

theorem OnlyFilters.window_eq (h : q.OnlyFilters s) (engine : Option Engine) :
    q.window engine = .ok ⟨0, 0⟩ := by
  rw [window, limitFor, offsetFor, getOne_of_none (h.has_eq_false (by decide) (by decide) _),
    getOne_of_none (h.has_eq_false (by decide) (by decide) _)]
  rfl

/-- The statement is another one but for clauses in one more bucket, and for its method. -/
structure Extends (u q : Statement σ) (component : Component) : Prop where
  clauses : u.clauses.filter (·.component != component) = q.clauses
  vars : u.vars = q.vars

theorem Extends.bucket_eq {u : Statement σ} {component other : Component}
    (h : u.Extends q component) (hne : other ≠ component) (engine : Option Engine) :
    u.bucket other engine = q.bucket other engine := by
  rw [bucket, bucket, ← h.clauses, List.filter_filter]
  refine List.filter_congr fun x _ => ?_
  by_cases hx : x.component = other
  · simp [hx, hne]
  · simp [Clause.visible, hx]

theorem choose_singleton (engine : Option Engine) (x : Clause σ) : choose engine [x] = some x := by
  unfold choose
  rw [List.find?_singleton, List.find?_singleton]
  split <;> split <;> rfl

section Assign

variable {component : Component} (h : ∀ x ∈ q.clauses, x.component ≠ component)

include h

theorem clear_of_absent : q.clear component none = q := by
  have hclauses : q.clauses.filter (!·.visible component (none.or q.scope)) = q.clauses := by
    refine List.filter_eq_self.mpr fun x hx => ?_
    simp [Clause.visible, h x hx]
  rw [clear, hclauses]

theorem assignAll_of_absent (method : Method) (columns : List String) (values : List Value) :
    q.assignAll method component columns values =
      { q with method := method }.add component (.insert (.values columns values false)) := by
  have hcleared : ({ q with method := method } : Statement σ).clear component none =
      { q with method := method } :=
    clear_of_absent h
  rw [assignAll, hcleared]

theorem extends_assignAll (method : Method) (columns : List String) (values : List Value) :
    (q.assignAll method component columns values).Extends q component := by
  have hkept : q.clauses.filter (·.component != component) = q.clauses :=
    List.filter_eq_self.mpr fun x hx => by simp [h x hx]
  rw [assignAll_of_absent h]
  refine ⟨?_, rfl⟩
  rw [add, List.filter_append, hkept]
  simp

theorem getOne_assignAll {e : Engine} (hadds : q.addsFor e = true) (method : Method)
    (columns : List String) (values : List Value) :
    (q.assignAll method component columns values).getOne component ClauseKind.insert? (some e) =
      .ok (some (.values columns values false)) := by
  have hnone : ({ q with method := method } : Statement σ).bucket component (some e) = [] :=
    bucket_eq_nil (has_of_absent h (some e))
  have hself : ({ q with method := method } : Statement σ).addsFor e = true := hadds
  rw [getOne_eq_some, assignAll_of_absent h, bucket_add_self, hnone, hself, if_pos rfl,
    List.nil_append]
  exact ⟨_, choose_singleton _ _, rfl⟩

end Assign

end Statement

end SqlDialects
