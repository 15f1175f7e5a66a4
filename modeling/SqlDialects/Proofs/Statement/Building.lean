import SqlDialects.Proofs.Statement.Terms
import SqlDialects.Render.Select

/-!
Adding and removing clauses. It may be done before or after nested statements are replaced, and
what the terms say of a statement stays true if they say it of the clauses added.
-/

namespace SqlDialects

namespace Statement

variable {σ τ : Type} {t : Terms} {P : σ → Prop}

/-- Clauses that are added from now on are for the engine, or for all. -/
def addsFor (e : Engine) (q : Statement σ) : Bool := q.scope.isNone || q.scope == some e

theorem bucket_add_self (e : Engine) (q : Statement σ) (component : Component)
    (kind : ClauseKind σ) :
    (q.add component kind).bucket component (some e) =
      q.bucket component (some e) ++ if q.addsFor e then [⟨component, q.scope, kind⟩] else [] := by
  have hvisible : Clause.visible component (some e) ⟨component, q.scope, kind⟩ = q.addsFor e := by
    simp [Clause.visible, addsFor]
  rw [bucket_add, List.filter_cons, hvisible, List.filter_nil]

theorem getAll_add_self {α : Type} {e : Engine} {q : Statement σ} (h : q.addsFor e = true)
    (component : Component) {as? : ClauseKind σ → Option α} {kind : ClauseKind σ} {x : α}
    (hx : as? kind = some x) : (q.add component kind).getAll component as? (some e) =
      (q.getAll component as? (some e)).map (· ++ [x]) := by
  have hview : Clause.view component as? ⟨component, q.scope, kind⟩ = .ok x := by
    rw [Clause.view, hx]
  rw [getAll, bucket_add_self, if_pos h, List.mapM_append, List.mapM_cons, hview, ← getAll]
  cases q.getAll component as? (some e) <;> rfl

theorem vars_select (q : Statement σ) (names : List String) : (q.select names).vars = q.vars := by
  have hcolumns (columns : List String) (p : Statement σ) :
      (p.addColumns columns).vars = p.vars := by
    induction columns generalizing p with
    | nil => rfl
    | cons name columns ih => exact ih _
  exact hcolumns _ q

section Map

variable (f : σ → τ) (q : Statement σ)

theorem map_add (component : Component) (kind : ClauseKind σ) :
    (q.add component kind).map f = (q.map f).add component (kind.map f) := by
  simp [add, Statement.map, Clause.map]

theorem map_clear (component : Component) (engine : Option Engine) :
    (q.clear component engine).map f = (q.map f).clear component engine := by
  simp [clear, Statement.map, List.filter_map, Function.comp_def]

theorem map_addColumns (names : List String) :
    (q.addColumns names).map f = (q.map f).addColumns names := by
  induction names generalizing q with
  | nil => rfl
  | cons name names ih =>
    show ((q.addColumn (.named name)).addColumns names).map f = _
    rw [ih, addColumn, map_add]
    rfl

theorem map_select (names : List String) : (q.select names).map f = (q.map f).select names :=
  map_addColumns f q _

theorem map_numberRows (order : Fragment) :
    (Compiler.numberRows q order).map f = Compiler.numberRows (q.map f) order := by
  unfold Compiler.numberRows addColumn
  rw [map_clear, map_add]
  rfl

end Map

variable {q : Statement σ} (h : q.Obeys t P)

include h

theorem Obeys.add {component : Component} {kind : ClauseKind σ} (hk : kind.Obeys t P) :
    (q.add component kind).Obeys t P := by
  refine ⟨h.1, fun c hc => ?_⟩
  rcases List.mem_append.mp hc with hc | hc
  · exact h.2 c hc
  · rw [List.mem_singleton.mp hc]
    exact hk

theorem Obeys.clear (component : Component) (engine : Option Engine) :
    (q.clear component engine).Obeys t P :=
  ⟨h.1, fun c hc => h.2 c (List.mem_of_mem_filter hc)⟩

theorem Obeys.addColumns {names : List String} (hn : ∀ name ∈ names, t.name name) :
    (q.addColumns names).Obeys t P := by
  induction names generalizing q with
  | nil => exact h
  | cons name names ih =>
    have hadd : (q.addColumn (.named name)).Obeys t P := h.add (hn name List.mem_cons_self)
    exact ih hadd fun name hm => hn name (List.mem_cons_of_mem _ hm)

theorem Obeys.select (ht : ∀ name, t.name name → ∀ column ∈ Text.expandBraces name, t.name column)
    {names : List String} (hn : ∀ name ∈ names, t.name name) : (q.select names).Obeys t P := by
  refine h.addColumns fun column hc => ?_
  obtain ⟨name, hm, hc⟩ := List.mem_flatMap.mp hc
  exact ht name (hn name hm) column hc

theorem Obeys.addCondition {component : Component} {p : Predicate σ} (hp : p.Obeys t P) :
    (q.addCondition component p).Obeys t P := by
  have hk : (ClauseKind.condition ⟨p, q.pendingOr, q.pendingNot⟩).Obeys t P := hp
  exact h.add hk

theorem Obeys.rename {name : String} (hn : t.name name) : (q.rename name).Obeys t P := by
  refine ⟨?_, h.2⟩
  rintro _ ⟨⟩
  exact hn

theorem Obeys.setSource {s : Source σ} (hs : s.Obeys t P) : (q.setSource s).Obeys t P := by
  have hreplace (cs : List (Clause σ)) (hcs : ∀ c ∈ cs, c.kind.Obeys t P) :
      ∀ c ∈ replaceFirst .source q.scope (.source s) cs, c.kind.Obeys t P := by
    induction cs with
    | nil =>
      intro c hc
      rw [List.mem_singleton.mp hc]
      exact hs
    | cons d cs ih =>
      have ih := ih fun c hc => hcs c (List.mem_cons_of_mem _ hc)
      intro c hc
      rw [replaceFirst] at hc
      split at hc
      · rcases List.mem_cons.mp hc with rfl | hc
        · exact hs
        · exact hcs c (List.mem_cons_of_mem _ hc)
      · rcases List.mem_cons.mp hc with rfl | hc
        · exact hcs _ List.mem_cons_self
        · exact ih c hc
  exact ⟨h.1, hreplace q.clauses h.2⟩

end Statement

end SqlDialects
