import SqlDialects.Proofs.Scope.Rewrite
import SqlDialects.Proofs.Twin.Conditions
import SqlDialects.Render.Select

/-!
Conditions and the same conditions rewritten, side by side, each in its own scopes. A nested
statement is followed only in the place where it stands, as the scopes around it may be different
for its other renderings.
-/

namespace SqlDialects

def Fault.Fixed (e : Fault) : Prop := ∀ name, e ≠ .undefinedVariable name

namespace Statement

variable {σ α : Type} {q : Statement σ} {component : Component} {engine : Option Engine} {e : Fault}

theorem fixed_view {as? : ClauseKind σ → Option α} {c : Clause σ}
    (h : c.view component as? = .error e) : e.Fixed := by
  unfold Clause.view at h
  split at h
  · cases h
  · cases h
    rintro name ⟨⟩

theorem fixed_getAll {as? : ClauseKind σ → Option α}
    (h : q.getAll component as? engine = .error e) : e.Fixed := by
  obtain ⟨c, -, hc⟩ := fault_of_mapM h
  exact fixed_view hc

theorem fixed_getOne {as? : ClauseKind σ → Option α}
    (h : q.getOne component as? engine = .error e) : e.Fixed := by
  unfold getOne at h
  split at h
  · next c _ =>
    cases hv : c.view component as? with
    | error e' =>
      rw [hv] at h
      cases h
      exact fixed_view hv
    | ok a =>
      rw [hv] at h
      cases h
  · cases h

theorem fixed_limitFor (h : q.limitFor engine = .error e) : e.Fixed := by
  unfold limitFor at h
  cases hl : q.getOne .limit ClauseKind.limit? engine with
  | error e' =>
    rw [hl] at h
    cases h
    exact fixed_getOne hl
  | ok l =>
    rw [hl] at h
    cases h

theorem fixed_offsetFor (h : q.offsetFor engine = .error e) : e.Fixed := by
  unfold offsetFor at h
  cases ho : q.getOne .offset ClauseKind.offset? engine with
  | error e' =>
    rw [ho] at h
    cases h
    exact fixed_getOne ho
  | ok o =>
    rw [ho] at h
    cases h

theorem fixed_window (h : q.window engine = .error e) : e.Fixed := by
  unfold window at h
  cases hl : q.limitFor engine with
  | error e' =>
    rw [hl] at h
    cases h
    exact fixed_limitFor hl
  | ok l =>
    cases ho : q.offsetFor engine with
    | error e' =>
      rw [hl, ho] at h
      cases h
      exact fixed_offsetFor ho
    | ok o =>
      rw [hl, ho] at h
      cases h

end Statement

theorem Compiler.fixed_checkOperator {c : Compiler} {operator : String} {e : Fault}
    (h : c.checkOperator operator = .error e) : e.Fixed := by
  unfold checkOperator at h
  dsimp only at h
  split at h
  · cases h
  · cases h
    rintro name ⟨⟩

structure Tie.Plain (t : Tie) : Prop where
  bound : ∀ v, t.bound v v
  fault : ∀ e, e.Fixed → t.fault e e

/-- A value in some scopes and another one in other scopes are bound alike wherever a condition or
a row can hold them. -/
structure Compiler.Reads (c : Compiler) (t : Tie) (ss ss' : Scopes) (v w : Value) : Prop where
  parameter : t.Emits Eq (c.parameter ss v) (c.parameter ss' w)
  like : ∀ column operator caseSensitive escape isNot,
    t.Emits Eq (c.like ss column operator v caseSensitive escape isNot)
      (c.like ss' column operator w caseSensitive escape isNot)

def Rendering.Follows (t : Tie) (ss ss' : Scopes) (r r' : Rendering) : Place → Prop
  | .select => r.aliasName = r'.aliasName ∧ t.Yields t.Fragments (r.select ss) (r'.select ss')
  | .group => t.Emits Eq (r.conditions ss) (r'.conditions ss')
  | .joined => t.Emits Eq (r.joined ss) (r'.joined ss')

/-- What stands in a clause is read alike when the clause is rewritten. -/
structure ClauseKind.Carried {σ : Type} (c : Compiler) (t : Tie) (ss ss' : Scopes)
    (r : σ → Rendering) (f : Value → Value) (g : Place → σ → Rendering) (k : ClauseKind σ) :
    Prop where
  values : ∀ v ∈ k.held, c.Reads t ss ss' v (f v)
  parts : ∀ n ∈ k.parts, (r n.2).Follows t ss ss' (g n.1 n.2) n.1

theorem ClauseKind.Carried.of_empty {σ : Type} {c : Compiler} {t : Tie} {ss ss' : Scopes}
    {r : σ → Rendering} {f : Value → Value} {g : Place → σ → Rendering} {k : ClauseKind σ}
    (hv : k.held = []) (hp : k.parts = []) : k.Carried c t ss ss' r f g where
  values v h := by
    rw [hv] at h
    cases h
  parts n h := by
    rw [hp] at h
    cases h

def Both {σ α β γ : Type} (P : ClauseKind σ → Prop) (wrap : α → ClauseKind σ) (l : α → β)
    (m : α → γ) (b : β) (b' : γ) : Prop :=
  ∃ x, P (wrap x) ∧ b = l x ∧ b' = m x

namespace Tie.Plain

open Compiler

variable {t : Tie} (ht : t.Plain) {α β γ : Type}

include ht

theorem yields {x : Except Fault α} (hx : ∀ e, x = .error e → e.Fixed) : t.Yields Eq x x := by
  cases x with
  | ok a => exact .ok rfl
  | error e => exact .error (ht.fault e (hx e rfl))

theorem operator (c : Compiler) (operator : String) :
    t.Yields Eq (c.checkOperator operator) (c.checkOperator operator) :=
  ht.yields fun _ => fixed_checkOperator

theorem rawText (c : Compiler) (sql : String) (bindings : List Value) :
    t.Emits Eq (c.rawText sql bindings) (c.rawText sql bindings) :=
  (Emits.push (List.forall₂_same.mpr fun v _ => ht.bound v)).bind fun _ _ _ => .pure rfl

variable {c : Compiler} {ss ss' : Scopes} {σ : Type} {r : σ → Rendering} {f : Value → Value}

omit ht in
theorem parameters {vs : List Value} (h : ∀ v ∈ vs, c.Reads t ss ss' v (f v)) :
    t.Emits Eq (c.parameters ss vs) (c.parameters ss' (vs.map f)) := by
  have hpairs : List.Forall₂ (c.Reads t ss ss') vs (vs.map f) := by
    rw [List.forall₂_map_right_iff, List.forall₂_same]
    exact h
  exact (Emits.texts hpairs fun v w hvw => hvw.parameter).andThen fun _ => .pure rfl

omit ht in
theorem datePart {v w : Value} (h : c.Reads t ss ss' v w) (part column operator : String)
    (isNot : Bool) :
    t.Emits Eq (c.datePart ss part column operator v isNot)
      (c.datePart ss' part column operator w isNot) := by
  unfold Compiler.datePart basicDatePart
  cases c.engine with
  | sqlite =>
    refine h.parameter.andThen fun marker => ?_
    split <;> exact .pure rfl
  | _ => exact h.parameter.andThen fun marker => .pure rfl

variable {g : Place → σ → Rendering}

theorem condition {x : Condition σ}
    (hx : (ClauseKind.condition x).Carried c t ss ss' r f g) :
    t.Emits Eq (c.condition ss (x.map r)) (c.condition ss' (x.rewrite f g)) := by
  obtain ⟨p, isOr, isNot⟩ := x
  obtain ⟨hv, hn⟩ := hx
  cases p with
  | compare column operator value =>
    refine (ht.operator c operator).lift.andThen fun op => ?_
    exact (hv value (.head _)).parameter.andThen fun marker => .pure rfl
  | like column operator value caseSensitive escape =>
    exact (hv value (.head _)).like column operator caseSensitive escape isNot
  | datePart part column operator value =>
    refine (ht.operator c operator).lift.andThen fun op => ?_
    exact datePart (hv value (.head _)) part column op isNot
  | columns first operator second =>
    exact (ht.operator c operator).lift.andThen fun op => .pure rfl
  | isNull column => exact .pure rfl
  | truth column value => exact .pure rfl
  | oneOf column values =>
    cases values with
    | nil => exact .pure rfl
    | cons v vs => exact (parameters hv).andThen fun markers => .pure rfl
  | oneOfQuery column q =>
    exact (hn (.select, q) (.head _)).2.embed.andThen fun sub => .pure rfl
  | between column lower higher =>
    refine (hv lower (.head _)).parameter.andThen fun low => ?_
    exact (hv higher (.tail _ (.head _))).parameter.andThen fun high => .pure rfl
  | rowsExist q =>
    exact (hn (.select, q) (.head _)).2.embed.andThen fun sub => .pure rfl
  | againstQuery column operator q =>
    refine (ht.operator c operator).lift.andThen fun op => ?_
    exact (hn (.select, q) (.head _)).2.embed.andThen fun sub => .pure rfl
  | queryAgainst q operator value =>
    refine (ht.operator c operator).lift.andThen fun op => ?_
    refine (hn (.select, q) (.head _)).2.embed.andThen fun sub => ?_
    exact (hv value (.head _)).parameter.andThen fun marker => .pure rfl
  | nested q =>
    have hgroup : t.Emits Eq ((r q).conditions ss) ((g .group q).conditions ss') :=
      hn (.group, q) (.head _)
    exact hgroup.andThen fun sql => .pure rfl
  | raw sql bindings => exact (ht.rawText c sql bindings).andThen fun text => .pure rfl

omit ht in
theorem texts {P : ClauseKind σ → Prop} {wrap : α → ClauseKind σ} {l : α → β} {m : α → γ}
    {h : β → Emit String} {h' : γ → Emit String} {xs : List β} {ys : List γ}
    (hxs : List.Forall₂ (Both P wrap l m) xs ys)
    (hx : ∀ x, P (wrap x) → t.Emits Eq (h (l x)) (h' (m x))) :
    t.Emits Eq (xs.mapM h) (ys.mapM h') := by
  refine Emits.texts hxs ?_
  rintro _ _ ⟨x, hp, rfl, rfl⟩
  exact hx x hp

theorem conditions {xs ys : List (Condition Rendering)}
    (hxs : List.Forall₂ (Both (ClauseKind.Carried c t ss ss' r f g) ClauseKind.condition
      (Condition.map r) (Condition.rewrite f g)) xs ys) :
    t.Emits Eq (c.conditions ss xs) (c.conditions ss' ys) := by
  refine (texts hxs fun x hx => ht.condition hx).andThen fun parts => ?_
  refine .pure (chain_congr (hxs.imp ?_) parts)
  rintro _ _ ⟨x, -, rfl, rfl⟩
  rfl

end Tie.Plain

end SqlDialects
