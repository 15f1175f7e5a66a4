import SqlDialects.Proofs.Paging.Selects

/-!
Statements in which an engine sees the same clauses, but for those that ask for a page. All that a
select is rendered from is then the same, and so is the select if the same page is asked for.
-/

namespace SqlDialects

namespace Statement

variable {σ τ : Type} {e : Engine}

/-- The engine sees the same clauses in every bucket but those of limits and offsets, and clauses
that are added from now on are for the same engine. -/
structure SameRows (e : Engine) (p q : Statement σ) : Prop where
  distinct : p.distinct = q.distinct
  vars : p.vars = q.vars
  scope : p.scope = q.scope
  bucket : ∀ component, component ≠ .limit → component ≠ .offset →
    p.bucket component (some e) = q.bucket component (some e)

structure SamePage (e : Engine) (p q : Statement σ) : Prop where
  limit : p.limitFor (some e) = q.limitFor (some e)
  offset : p.offsetFor (some e) = q.offsetFor (some e)

theorem bucket_clear (q : Statement σ) (component other : Component)
    (cleared engine : Option Engine) :
    (q.clear component cleared).bucket other engine =
      (q.bucket other engine).filter (!·.visible component (cleared.or q.scope)) := by
  simp only [clear, bucket, List.filter_filter, Bool.and_comm]

theorem bucket_clear_self {q : Statement σ} (h : q.addsFor e = true) (component : Component) :
    (q.clear component none).bucket component (some e) = [] := by
  rw [bucket_clear, List.filter_eq_nil_iff]
  intro x hx
  obtain ⟨-, hv⟩ := mem_bucket.mp hx
  simp only [Clause.visible, Bool.and_eq_true, beq_iff_eq, Bool.or_eq_true,
    Option.isNone_some, Bool.false_eq_true, or_false] at hv
  simp only [addsFor, Bool.or_eq_true, beq_iff_eq, Option.isNone_iff_eq_none] at h
  rcases h with h | h
  · simp [Clause.visible, h, hv.1]
  · rcases hv.2 with hx | hx <;> simp_all [Clause.visible]

theorem bucket_addColumns_of_ne (q : Statement σ) (names : List String) {component : Component}
    (h : component ≠ .select) (engine : Option Engine) :
    (q.addColumns names).bucket component engine = q.bucket component engine := by
  induction names generalizing q with
  | nil => rfl
  | cons name names ih => exact (ih _).trans (q.bucket_add_of_ne h _ engine)

theorem SamePage.window {p q : Statement σ} (h : p.SamePage e q) :
    p.window (some e) = q.window (some e) := by
  rw [Statement.window, h.limit, h.offset, Statement.window]

theorem SamePage.map {p q : Statement σ} (h : p.SamePage e q) (f : σ → τ) :
    (p.map f).SamePage e (q.map f) :=
  ⟨by rw [limitFor_map, limitFor_map, h.limit], by rw [offsetFor_map, offsetFor_map, h.offset]⟩

theorem SamePage.of_bucket {p q p' q' : Statement σ} (h : p.SamePage e q)
    (hp : ∀ component, component = .limit ∨ component = .offset →
      p'.bucket component (some e) = p.bucket component (some e))
    (hq : ∀ component, component = .limit ∨ component = .offset →
      q'.bucket component (some e) = q.bucket component (some e)) : p'.SamePage e q' where
  limit := by
    have hlimit := h.limit
    rw [limitFor, limitFor] at hlimit ⊢
    rw [getOne_congr (hp .limit (.inl rfl)), getOne_congr (hq .limit (.inl rfl)), hlimit]
  offset := by
    have hoffset := h.offset
    rw [offsetFor, offsetFor] at hoffset ⊢
    rw [getOne_congr (hp .offset (.inr rfl)), getOne_congr (hq .offset (.inr rfl)), hoffset]

namespace SameRows

variable {p q : Statement σ} (h : p.SameRows e q)

include h

theorem addsFor (e' : Engine) : p.addsFor e' = q.addsFor e' := by
  rw [Statement.addsFor, h.scope, Statement.addsFor]

theorem has {component : Component} (hl : component ≠ .limit) (ho : component ≠ .offset) :
    p.has component (some e) = q.has component (some e) :=
  has_congr (h.bucket component hl ho)

theorem map (f : σ → τ) : (p.map f).SameRows e (q.map f) where
  distinct := h.distinct
  vars := h.vars
  scope := h.scope
  bucket component hl ho := by rw [bucket_map, bucket_map, h.bucket component hl ho]

theorem add (component : Component) (kind : ClauseKind σ) :
    (p.add component kind).SameRows e (q.add component kind) where
  distinct := h.distinct
  vars := h.vars
  scope := h.scope
  bucket other hl ho := by rw [bucket_add, bucket_add, h.bucket other hl ho, h.scope]

theorem addColumns (names : List String) :
    (p.addColumns names).SameRows e (q.addColumns names) := by
  induction names generalizing p q with
  | nil => exact h
  | cons name names ih => exact ih (h.add .select (.column (.named name)))

theorem clear (component : Component) (cleared : Option Engine) :
    (p.clear component cleared).SameRows e (q.clear component cleared) where
  distinct := h.distinct
  vars := h.vars
  scope := h.scope
  bucket other hl ho := by rw [bucket_clear, bucket_clear, h.bucket other hl ho, h.scope]

theorem starred : (p.starred e).SameRows e (q.starred e) := by
  have hhas : p.has .select (some e) = q.has .select (some e) := h.has (by decide) (by decide)
  have hstar (r : Statement σ) : r.select ["*"] = r.add .select (.column (.named "*")) := by rfl
  unfold Statement.starred
  rw [hhas, hstar, hstar]
  split
  · exact h
  · exact h.add .select _

theorem numberRows (order : Fragment) :
    (Compiler.numberRows (p.starred e) order).SameRows e
      (Compiler.numberRows (q.starred e) order) :=
  (h.starred.add .select _).clear .order none

end SameRows

end Statement

namespace Statement.SameRows

open Compiler

variable {c : Compiler} {ss outer : Scopes} {p q : Statement Rendering}
  (h : p.SameRows c.engine q)

include h

theorem basicColumns : c.basicColumns ss p = c.basicColumns ss q :=
  basicColumns_congr h.distinct (h.bucket _ (by decide) (by decide))
    (h.bucket _ (by decide) (by decide))

theorem middle : c.middle ss p = c.middle ss q :=
  middle_congr fun _ hm => h.bucket _ (by rintro rfl; exact absurd hm (by decide))
    (by rintro rfl; exact absurd hm (by decide))

theorem orders : c.orders p = c.orders q := orders_congr (h.bucket _ (by decide) (by decide))

theorem combinations : c.combinations ss p = c.combinations ss q :=
  combinations_congr (h.bucket _ (by decide) (by decide))

section Window

variable (hw : p.window (some c.engine) = q.window (some c.engine))

include hw

theorem columns : c.columns ss p = c.columns ss q := by
  rw [Compiler.columns, h.basicColumns, hw, Compiler.columns]

theorem page : c.page p = c.page q := by
  have hordered : p.has .order (some c.engine) = q.has .order (some c.engine) :=
    h.has (by decide) (by decide)
  rw [Compiler.page, Compiler.basicPage, hw, hordered, Compiler.page, Compiler.basicPage]

theorem basicSelect : c.basicSelect p outer = c.basicSelect q outer := by
  rw [Compiler.basicSelect, selectText_eq, h.vars, h.columns hw, h.middle, h.orders, h.page hw,
    h.combinations, ← selectText_eq, Compiler.basicSelect]

theorem numberedSelect : c.numberedSelect p outer = c.numberedSelect q outer := by
  cases hwindow : q.window (some c.engine) with
  | error f =>
    have hfault {r : Statement Rendering} (hr : r.window (some c.engine) = .error f) :
        c.numberedSelect r outer = .error f := by
      rw [Compiler.numberedSelect, hr]
      rfl
    rw [hfault (hw.trans hwindow), hfault hwindow]
  | ok w =>
    have hrows (order : Fragment) : c.basicSelect (Compiler.numberRows (p.starred c.engine) order)
        outer = c.basicSelect (Compiler.numberRows (q.starred c.engine) order) outer :=
      (h.numberRows order).basicSelect (window_numberRows.trans (hw.trans window_numberRows.symm))
    rw [numberedSelect_eq (hw.trans hwindow), numberedSelect_eq hwindow, h.orders]
    simp only [hrows]

end Window

theorem select (hp : p.SamePage c.engine q) : c.select p outer = c.select q outer := by
  rw [Compiler.select, hp.offset, h.basicSelect hp.window, h.numberedSelect hp.window,
    Compiler.select]

end Statement.SameRows

end SqlDialects
