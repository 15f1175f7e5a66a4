import SqlDialects.Proofs.Paging.Window
import SqlDialects.Proofs.Statement.Building

/-!
Limits and offsets among the clauses of a statement: the statement without them, and the window
that the engine finds when a page is set.
-/

namespace SqlDialects

namespace Statement

variable {σ τ : Type}

theorem mem_replaceFirst {component : Component} {scope : Option Engine} {kind : ClauseKind σ}
    {cs : List (Clause σ)} {c : Clause σ} (h : c ∈ replaceFirst component scope kind cs) :
    c ∈ cs ∨ c = ⟨component, scope, kind⟩ := by
  induction cs with
  | nil => exact .inr (List.mem_singleton.mp h)
  | cons d cs ih =>
    rw [replaceFirst] at h
    split at h
    · rcases List.mem_cons.mp h with rfl | h
      · exact .inr rfl
      · exact .inl (List.mem_cons_of_mem _ h)
    · rcases List.mem_cons.mp h with rfl | h
      · exact .inl List.mem_cons_self
      · exact (ih h).imp_left (List.mem_cons_of_mem _)

theorem find?_replaceFirst (component : Component) (scope : Option Engine) (kind : ClauseKind σ)
    (cs : List (Clause σ)) :
    (replaceFirst component scope kind cs).find?
        (fun c => c.component == component && c.engine == scope) =
      some ⟨component, scope, kind⟩ := by
  induction cs with
  | nil => simp [replaceFirst]
  | cons c cs ih =>
    rw [replaceFirst]
    split
    · simp
    · next h => rw [List.find?_cons_of_neg (by simpa using h), ih]

theorem filter_replaceFirst {component : Component} {scope : Option Engine} {kind : ClauseKind σ}
    {keep : Clause σ → Bool}
    (h : ∀ c, c.component = component → c.engine = scope → keep c = false)
    (cs : List (Clause σ)) :
    (replaceFirst component scope kind cs).filter keep = cs.filter keep := by
  induction cs with
  | nil => simp [replaceFirst, h]
  | cons c cs ih =>
    rw [replaceFirst]
    split
    · next hc =>
      rw [List.filter_cons_of_neg (by simp [h]),
        List.filter_cons_of_neg (by simp [h c hc.1 hc.2])]
    · rw [List.filter_cons, List.filter_cons, ih]

/-- The engine goes by what is set in a bucket from now on: it is set for the engine, or for all
and the engine has nothing of its own there. -/
def Governs (q : Statement σ) (component : Component) (e : Engine) : Prop :=
  q.scope = some e ∨
    q.scope = none ∧ ∀ c ∈ q.clauses, c.component = component → c.engine ≠ some e

theorem Governs.choose_eq {q : Statement σ} {component : Component} {e : Engine}
    (h : q.Governs component e) (kind : ClauseKind σ) :
    choose (some e) ((q.addOrReplace component kind).bucket component (some e)) =
      some ⟨component, q.scope, kind⟩ := by
  have hfind {scope : Option Engine} (hs : scope = some e ∨ scope = none) :
      ((q.addOrReplace component kind).bucket component (some e)).find? (·.engine == scope) =
        (replaceFirst component q.scope kind q.clauses).find?
          fun c => c.component == component && c.engine == scope := by
    rw [bucket, List.find?_filter]
    refine congrArg (List.find? · _) (funext fun c => ?_)
    rw [Bool.eq_iff_iff]
    rcases hs with rfl | rfl <;> simp only [Clause.visible, Bool.and_eq_true, Bool.or_eq_true,
      beq_iff_eq, Option.isNone_iff_eq_none, reduceCtorEq, or_false, decide_eq_true_eq] <;> tauto
  rcases h with hs | ⟨hs, hnone⟩
  · have hown := hfind (.inl rfl)
    rw [← hs, find?_replaceFirst, hs] at hown
    simp [choose, hown, hs]
  · have hown := hfind (.inl rfl)
    have hall := hfind (.inr rfl)
    rw [← hs, find?_replaceFirst, hs] at hall
    have hfirst : (replaceFirst component q.scope kind q.clauses).find?
        (fun c => c.component == component && c.engine == some e) = none := by
      rw [List.find?_eq_none]
      intro c hc
      rcases mem_replaceFirst hc with hc | rfl
      · simpa using hnone c hc
      · simp [hs]
    rw [hfirst] at hown
    have hisNone : (fun c : Clause σ => c.engine.isNone) = fun c => c.engine == none := by
      funext c
      cases c.engine <;> rfl
    simp [choose, hown, hisNone, hall, hs]

theorem Governs.offsetFor_eq {q : Statement σ} {e : Engine} (h : q.Governs .offset e)
    (n : UInt64) : (q.offset n).offsetFor (some e) = .ok n := by
  rw [offsetFor, getOne, offset, h.choose_eq]
  rfl

end Statement

end SqlDialects
