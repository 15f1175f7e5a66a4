import SqlDialects.Proofs.Twin.Selects
import SqlDialects.Render.Aggregate
import SqlDialects.Render.Write

/-! Writes and aggregates of statements that are alike. -/

namespace SqlDialects

theorem checkRow_length {component : Component} {columns : List String} {vs ws : List Value}
    (hl : vs.length = ws.length) :
    Compiler.checkRow component columns vs = Compiler.checkRow component columns ws := by
  have hempty : vs.isEmpty = ws.isEmpty := by
    rw [Bool.eq_iff_iff, List.isEmpty_iff_length_eq_zero, List.isEmpty_iff_length_eq_zero, hl]
  unfold Compiler.checkRow
  rw [hempty, hl]

theorem forall₂_zip {α β γ : Type} {R : β → γ → Prop} (xs : List α) {ys : List β} {zs : List γ}
    (h : List.Forall₂ R ys zs) :
    List.Forall₂ (fun a b => a.1 = b.1 ∧ R a.2 b.2) (xs.zip ys) (xs.zip zs) := by
  induction h generalizing xs with
  | nil =>
    rw [List.zip_nil_right, List.zip_nil_right]
    exact .nil
  | cons hr _ ih =>
    cases xs with
    | nil => exact .nil
    | cons x xs => exact .cons ⟨rfl, hr⟩ (ih xs)

namespace Tie.Holds

open Compiler

variable {t : Tie} {c d : Compiler} (h : t.Holds c d) {ss ss' : Scopes} (hs : t.scopes ss ss')
  {p q : Statement Rendering} (hp : p.Alike t d.engine (Rendering.Alike t) q)

include h

theorem fail {α β : Type} {P : α → β → Prop} (e : Fault) :
    t.Emits P (Emit.fail e) (Emit.fail e) := .error (h.fault e)

theorem columnList (columns : List String) : c.columnList columns = d.columnList columns := by
  unfold Compiler.columnList
  rw [h.engine]

include hs in
theorem row (columns : List String) {vs ws : List Value} (hv : List.Forall₂ t.value vs ws) :
    t.Emits Eq (c.row ss columns vs) (d.row ss' columns ws) := by
  unfold Compiler.row
  rw [checkRow_length hv.length_eq]
  refine (Yields.refl h.fault _).lift.bind fun _ _ _ => ?_
  refine (h.parameters hs hv).andThen fun markers => ?_
  exact .pure rfl

include hs in
theorem firstRows (table : String) {x y : Insert Rendering}
    (hx : x.Alike t (Rendering.Alike t) y) :
    t.Emits Eq (c.firstRows ss table x) (d.firstRows ss' table y) := by
  cases hx with
  | values columns hv returnId =>
    rw [Compiler.firstRows, Compiler.firstRows, h.columnList]
    refine (h.row hs columns hv).andThen fun text => ?_
    exact .pure rfl
  | query columns hq =>
    rw [Compiler.firstRows, Compiler.firstRows, h.columnList]
    refine (hq.select hs).embed.andThen fun sub => ?_
    exact .pure rfl

omit h in
theorem wantsId_eq {x y : Insert Rendering} (hx : x.Alike t (Rendering.Alike t) y) :
    wantsId x = wantsId y := by
  cases hx <;> rfl

include hs in
theorem nextRow {x y : Insert Rendering} (hx : x.Alike t (Rendering.Alike t) y) :
    t.Emits Eq (c.nextRow ss x) (d.nextRow ss' y) := by
  cases hx with
  | values columns hv returnId => exact h.row hs columns hv
  | query columns hq => exact h.fail _

include hs in
theorem assignment (column : String) {v w : Value} (hv : t.value v w) :
    t.Emits Eq (c.assignment ss column v) (d.assignment ss' column w) := by
  unfold Compiler.assignment
  rw [h.engine]
  refine (h.parameter hs hv).andThen fun marker => ?_
  exact .pure rfl

include hs in
theorem sets (columns : List String) {vs ws : List Value} (hv : List.Forall₂ t.value vs ws) :
    t.Emits Eq ((columns.zip vs).mapM fun (column, value) => c.assignment ss column value)
      ((columns.zip ws).mapM fun (column, value) => d.assignment ss' column value) := by
  refine Emits.texts (forall₂_zip columns hv) fun a b hab => ?_
  obtain ⟨column, v⟩ := a
  obtain ⟨_, w⟩ := b
  obtain ⟨rfl, hv⟩ := hab
  exact h.assignment hs column hv

include hp

theorem target (operation : Operation) :
    t.Emits Eq (c.target operation p) (d.target operation q) := by
  unfold Compiler.target
  refine (h.sourceFor hp operation).lift.bind fun s s' hx => ?_
  cases hx with
  | table name =>
    dsimp only
    rw [h.engine]
    exact .pure rfl
  | raw sql hb aliasName => exact h.rawText sql hb
  | query hq aliasName => exact h.fail _

omit h in
theorem assignments (hf : ∀ e, t.fault e e) (hengine : c.engine = d.engine)
    (component : Component) :
    t.Yields (fun a b => a.1 = b.1 ∧ List.Forall₂ t.value a.2 b.2) (c.assignments component p)
      (d.assignments component q) := by
  unfold Compiler.assignments
  rw [hengine]
  have hinsert := Statement.Alike.getOne hf hp ClauseKind.Alike.insert? component
  refine hinsert.bind fun x y hxy => ?_
  cases hxy with
  | none => exact .error (hf _)
  | some hxy =>
    cases hxy with
    | query columns hq => exact .error (hf _)
    | values columns hv returnId =>
      dsimp only
      rw [checkRow_length hv.length_eq]
      cases checkRow component columns _ with
      | error e => exact .error (hf e)
      | ok _ => exact .ok ⟨rfl, hv⟩

include hs

theorem whereSuffix : t.Emits Eq (c.whereSuffix ss p) (d.whereSuffix ss' q) := by
  refine (h.wheres hs hp).andThen fun sql => ?_
  cases sql with
  | none => exact .pure rfl
  | some text => exact .pure rfl

theorem insertText : t.Emits Eq (c.insertText ss p) (d.insertText ss' q) := by
  unfold Compiler.insertText
  rw [h.engine, h.dialect]
  have hinsert := Statement.Alike.getAll h.fault hp ClauseKind.Alike.insert? .insert
  refine (h.target hp .insert).andThen fun table => ?_
  refine hinsert.lift.bind fun xs ys hxy => ?_
  cases hxy with
  | nil => exact h.fail _
  | cons hx hxs =>
    refine (h.firstRows hs table hx).andThen fun head => ?_
    refine (Emits.texts hxs fun x y hx => h.nextRow hs hx).andThen fun rows => ?_
    dsimp only
    rw [wantsId_eq hx]
    exact .pure rfl

theorem updateText (component : Component) :
    t.Emits Eq (c.updateText ss component p) (d.updateText ss' component q) := by
  unfold Compiler.updateText
  refine (h.target hp .update).andThen fun table => ?_
  refine (assignments hp h.fault h.engine component).lift.bind fun a b hab => ?_
  obtain ⟨columns, vs⟩ := a
  obtain ⟨_, ws⟩ := b
  obtain ⟨rfl, hv⟩ := hab
  refine (h.sets hs columns hv).andThen fun sets => ?_
  refine (h.whereSuffix hs hp).andThen fun suffix => ?_
  exact .pure rfl

theorem deleteText : t.Emits Eq (c.deleteText ss p) (d.deleteText ss' q) := by
  unfold Compiler.deleteText
  refine (h.target hp .delete).andThen fun table => ?_
  refine (h.whereSuffix hs hp).andThen fun suffix => ?_
  exact .pure rfl

end Tie.Holds

namespace Statement.Alike

variable {t : Tie} {e : Engine}

section Steps

variable {σ τ : Type} {R : σ → τ → Prop} {p : Statement σ} {q : Statement τ}
  (h : p.Alike t e R q)

include h

theorem setMethod (method : Method) :
    ({ p with method := method } : Statement σ).Alike t e R { q with method := method } := by
  obtain ⟨_, aliasName, distinct, scope, pendingOr, pendingNot, hv, hc⟩ := h
  exact .mk method aliasName distinct scope pendingOr pendingNot hv hc

theorem rename (name : String) : (p.rename name).Alike t e R (q.rename name) := by
  obtain ⟨method, _, distinct, scope, pendingOr, pendingNot, hv, hc⟩ := h
  exact .mk method (some name) distinct scope pendingOr pendingNot hv hc

theorem notNext : p.notNext.Alike t e R q.notNext := by
  obtain ⟨method, aliasName, distinct, scope, pendingOr, pendingNot, hv, hc⟩ := h
  exact .mk method aliasName distinct scope pendingOr (!pendingNot) hv hc

theorem addCondition (component : Component) {x : Predicate σ} {y : Predicate τ}
    (hx : x.Alike t R y) :
    (p.addCondition component x).Alike t e R (q.addCondition component y) := by
  have hpending : p.pendingOr = q.pendingOr ∧ p.pendingNot = q.pendingNot := by
    cases h
    exact ⟨rfl, rfl⟩
  have hadd := h.add component (.condition (.mk hx q.pendingOr q.pendingNot))
  unfold Statement.addCondition
  rw [hpending.1, hpending.2]
  obtain ⟨method, aliasName, distinct, scope, _, _, hv, hc⟩ := h
  cases hadd with
  | mk _ _ _ _ _ _ hv hc => exact .mk method aliasName distinct scope false false hv hc

theorem notNull (columns : List String) :
    (columns.foldl (fun p name => p.notNext.addCondition .filter (.isNull name)) p).Alike t e R
      (columns.foldl (fun q name => q.notNext.addCondition .filter (.isNull name)) q) := by
  induction columns generalizing p q with
  | nil => exact h
  | cons name columns ih => exact ih (h.notNext.addCondition .filter (.isNull name))

end Steps

variable {p q : Query}

theorem unpaged (h : p.Alike t e (Subquery.Alike t e) q) :
    p.unpaged.Alike t e (Subquery.Alike t e) q.unpaged :=
  ((h.clear .limit none).clear .order none).clear .group none

theorem counted (h : p.Alike t e (Subquery.Alike t e) q) (columns : List String) :
    (p.counted e columns).Alike t e (Subquery.Alike t e) (q.counted e columns) := by
  have hinner := (h.clear .aggregate (some e)).setMethod .select
  revert hinner
  unfold Query.counted
  generalize ({ p.clear .aggregate (some e) with method := .select } : Query) = p'
  generalize ({ q.clear .aggregate (some e) with method := .select } : Query) = q'
  intro hinner
  dsimp only
  rw [hinner.distinct]
  split
  · exact (hinner.clear .select (some e)).select columns
  · exact hinner.notNull columns

theorem aggregateOver (hv : t.vars [] []) (h : p.Alike t e (Subquery.Alike t e) q)
    (function : String) :
    (Query.aggregateOver function p).Alike t e (Subquery.Alike t e)
      (Query.aggregateOver function q) := by
  have hsource : (ClauseKind.source (.query (.of (p.rename (function ++ "Query"))) none)).Alike t
      (Subquery.Alike t e) (.source (.query (.of (q.rename (function ++ "Query"))) none)) :=
    .source (.query (.of (h.rename _)) none)
  refine .mk .aggregate none false none false false hv fun component => ?_
  refine forall₂_filter ?_ fun c d hcd => hcd.visible component (some e)
  exact .cons (.mk .aggregate none (.aggregate _)) (.cons (.mk .source none hsource) .nil)

theorem aggregated (hf : ∀ e, t.fault e e) (hv : t.vars [] [])
    (h : p.Alike t e (Subquery.Alike t e) q) :
    t.Yields (Statement.Alike t e (Subquery.Alike t e)) (p.aggregated e) (q.aggregated e) := by
  have hunpaged := h.unpaged
  unfold Query.aggregated
  dsimp only
  refine (getOne hf hunpaged ClauseKind.Alike.aggregate? .aggregate).bind fun x y hxy => ?_
  cases hxy with
  | none => exact .ok hunpaged
  | @some a _ he =>
    subst he
    dsimp only
    rw [hunpaged.distinct]
    split
    · exact .ok hunpaged
    · exact .ok (aggregateOver hv (hunpaged.counted a.columns) a.function)

end Statement.Alike

end SqlDialects
