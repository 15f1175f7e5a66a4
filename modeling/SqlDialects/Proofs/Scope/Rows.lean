import SqlDialects.Proofs.Scope.Selects
import SqlDialects.Proofs.Twin.Rows

/-! Writes and the same writes rewritten, row by row. -/

namespace SqlDialects

theorem Compiler.fixed_checkRow {component : Component} {columns : List String}
    {values : List Value} {e : Fault} (h : checkRow component columns values = .error e) :
    e.Fixed := by
  unfold checkRow at h
  split at h
  · cases h
    rintro name ⟨⟩
  · split at h
    · cases h
      rintro name ⟨⟩
    · cases h

namespace Tie.Plain

open Compiler

variable {t : Tie} (ht : t.Plain) {c : Compiler} {ss ss' : Scopes} {σ : Type} {r : σ → Rendering}
  {f : Value → Value}

include ht

theorem fail {α β : Type} {P : α → β → Prop} {e : Fault} (he : e.Fixed) :
    t.Emits P (Emit.fail e) (Emit.fail e) := .error (ht.fault e he)

section Clauses

variable {g : Place → σ → Rendering}

theorem row (columns : List String) {vs : List Value} (h : ∀ v ∈ vs, c.Reads t ss ss' v (f v)) :
    t.Emits Eq (c.row ss columns vs) (c.row ss' columns (vs.map f)) := by
  unfold Compiler.row
  rw [checkRow_length (List.length_map f)]
  refine (ht.yields fun _ => fixed_checkRow).lift.andThen fun _ => ?_
  exact (parameters h).andThen fun markers => .pure rfl

theorem firstRows (table : String) {x : Insert σ}
    (hx : (ClauseKind.insert x).Carried c t ss ss' r f g) :
    t.Emits Eq (c.firstRows ss table (x.map r)) (c.firstRows ss' table (x.rewrite f g)) := by
  cases x with
  | values columns cells returnId =>
    exact (ht.row columns hx.values).andThen fun text => .pure rfl
  | query columns q =>
    exact (hx.parts (.select, q) (.head _)).2.embed.andThen fun sub => .pure rfl

theorem nextRow {x : Insert σ} (hx : (ClauseKind.insert x).Carried c t ss ss' r f g) :
    t.Emits Eq (c.nextRow ss (x.map r)) (c.nextRow ss' (x.rewrite f g)) := by
  cases x with
  | values columns cells returnId => exact ht.row columns hx.values
  | query columns q => exact ht.fail nofun

omit ht in
theorem wantsId_rewrite (x : Insert σ) : wantsId (x.rewrite f g) = wantsId (x.map r) := by
  cases x <;> rfl

end Clauses

omit ht in
theorem sets (columns : List String) {vs ws : List Value}
    (h : List.Forall₂ (c.Reads t ss ss') vs ws) :
    t.Emits Eq ((columns.zip vs).mapM fun (column, value) => c.assignment ss column value)
      ((columns.zip ws).mapM fun (column, value) => c.assignment ss' column value) := by
  refine Emits.texts (forall₂_zip columns h) ?_
  rintro ⟨column, v⟩ ⟨_, w⟩ ⟨rfl, hvw⟩
  exact hvw.parameter.andThen fun marker => .pure rfl

variable {g : Component → Place → σ → Rendering} {vars : Variables} {q : Statement σ}
  (hq : q.Carried c t ss ss' r f g)

include hq

theorem target (operation : Operation) :
    t.Emits Eq (c.target operation (q.map r)) (c.target operation (q.rewrite f g vars)) := by
  refine (ht.sourceFor hq operation).lift.bind ?_
  rintro _ _ ⟨s, -, rfl, rfl⟩
  cases s with
  | table name => exact .pure rfl
  | raw sql bindings aliasName => exact ht.rawText c sql bindings
  | query n aliasName => exact ht.fail nofun

theorem whereSuffix :
    t.Emits Eq (c.whereSuffix ss (q.map r)) (c.whereSuffix ss' (q.rewrite f g vars)) := by
  refine (ht.wheres hq).andThen fun sql => ?_
  cases sql with
  | none => exact .pure rfl
  | some text => exact .pure rfl

theorem insertText :
    t.Emits Eq (c.insertText ss (q.map r)) (c.insertText ss' (q.rewrite f g vars)) := by
  have hinsert := ht.getAll vars hq (by decide) (ClauseKind.insert?_map r)
    (ClauseKind.insert?_rewrite f (g .insert)) ClauseKind.insert?_eq_some (some c.engine)
  refine (ht.target hq .insert).andThen fun table => ?_
  refine hinsert.lift.bind fun xs ys hxs => ?_
  cases hxs with
  | nil => exact ht.fail nofun
  | cons hx hxs =>
    obtain ⟨x, hx, rfl, rfl⟩ := hx
    refine (ht.firstRows table hx).andThen fun head => ?_
    refine (texts hxs fun x hx => ht.nextRow hx).andThen fun rows => ?_
    dsimp only
    rw [wantsId_rewrite (r := r)]
    exact .pure rfl

theorem assignments {component : Component} (hc : component ≠ .cte) :
    t.Yields (fun a b => a.1 = b.1 ∧ List.Forall₂ (c.Reads t ss ss') a.2 b.2)
      (c.assignments component (q.map r)) (c.assignments component (q.rewrite f g vars)) := by
  have hinsert := ht.getOne vars hq hc (ClauseKind.insert?_map r)
    (ClauseKind.insert?_rewrite f (g component)) ClauseKind.insert?_eq_some (some c.engine)
  refine hinsert.bind fun x y hxy => ?_
  cases hxy with
  | none => exact .error (ht.fault _ nofun)
  | some hxy =>
    obtain ⟨x, hx, rfl, rfl⟩ := hxy
    cases x with
    | query columns n => exact .error (ht.fault _ nofun)
    | values columns cells returnId =>
      have hreads : List.Forall₂ (c.Reads t ss ss') cells (cells.map f) := by
        rw [List.forall₂_map_right_iff, List.forall₂_same]
        exact hx.values
      dsimp only [Insert.map, Insert.rewrite]
      rw [← checkRow_length hreads.length_eq]
      exact (ht.yields fun _ => fixed_checkRow).andThen fun _ => .ok ⟨rfl, hreads⟩

theorem updateText {component : Component} (hc : component ≠ .cte) :
    t.Emits Eq (c.updateText ss component (q.map r))
      (c.updateText ss' component (q.rewrite f g vars)) := by
  refine (ht.target hq .update).andThen fun table => ?_
  refine (ht.assignments hq hc).lift.bind ?_
  rintro ⟨columns, vs⟩ ⟨_, ws⟩ ⟨rfl, hvw⟩
  refine (sets columns hvw).andThen fun sets => ?_
  exact (ht.whereSuffix hq).andThen fun suffix => .pure rfl

theorem deleteText :
    t.Emits Eq (c.deleteText ss (q.map r)) (c.deleteText ss' (q.rewrite f g vars)) := by
  refine (ht.target hq .delete).andThen fun table => ?_
  exact (ht.whereSuffix hq).andThen fun suffix => .pure rfl

end Tie.Plain

end SqlDialects
