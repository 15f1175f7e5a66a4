import Mathlib.Data.List.Forall2
import SqlDialects.Render.Binding

/-!
Two renderings side by side. A tie says how the values and the faults of one correspond to those
of the other; the rules carry it through the steps of a renderer.
-/

namespace SqlDialects

variable {α β γ δ : Type}

/-- How two renderings correspond. -/
structure Tie where
  /-- Values that stand where SQL has one. -/
  value : Value → Value → Prop
  /-- Values that are bound. -/
  bound : Value → Value → Prop
  /-- What two statements define, and what is in scope at two places. -/
  vars : Variables → Variables → Prop
  scopes : Scopes → Scopes → Prop
  fault : Fault → Fault → Prop
  /-- Faults of the first rendering after which nothing is said of the second. -/
  spared : Fault → Prop

namespace Tie

variable (t : Tie)

/-- Both succeed with results that correspond, or fail. -/
inductive Yields (P : α → β → Prop) : Except Fault α → Except Fault β → Prop
  | ok {a : α} {b : β} (h : P a b) : Yields P (.ok a) (.ok b)
  | error {e e' : Fault} (h : t.fault e e') : Yields P (.error e) (.error e')
  | spared {e : Fault} (h : t.spared e) (y : Except Fault β) : Yields P (.error e) y

inductive Emits (P : α → β → Prop) : Emit α → Emit β → Prop
  | ok {bs cs : List Value} {a : α} {b : β} (hb : List.Forall₂ t.bound bs cs) (h : P a b) :
      Emits P ⟨bs, .ok a⟩ ⟨cs, .ok b⟩
  | error {bs cs : List Value} {e e' : Fault} (h : t.fault e e') :
      Emits P ⟨bs, .error e⟩ ⟨cs, .error e'⟩
  | spared {bs : List Value} {e : Fault} (h : t.spared e) (y : Emit β) :
      Emits P ⟨bs, .error e⟩ y

/-- The same SQL with bindings that correspond. -/
def Fragments (f g : Fragment) : Prop := f.sql = g.sql ∧ List.Forall₂ t.bound f.bindings g.bindings

variable {t} {P : α → β → Prop} {Q : γ → δ → Prop}

theorem Fragments.eq {f g : Fragment} (hb : t.bound = Eq) (h : t.Fragments f g) : f = g := by
  obtain ⟨text, bindings⟩ := f
  obtain ⟨text', bindings'⟩ := g
  obtain ⟨htext, hbound⟩ := h
  rw [hb, List.forall₂_eq_eq_eq] at hbound
  cases htext
  cases hbound
  rfl

theorem Yields.refl (hf : ∀ e, t.fault e e) (x : Except Fault α) : t.Yields Eq x x := by
  cases x with
  | ok a => exact .ok rfl
  | error e => exact .error (hf e)

theorem Yields.bind {x : Except Fault α} {y : Except Fault β} {f : α → Except Fault γ}
    {g : β → Except Fault δ} (h : t.Yields P x y)
    (hk : ∀ a b, P a b → t.Yields Q (f a) (g b)) : t.Yields Q (x >>= f) (y >>= g) := by
  cases h with
  | ok h => exact hk _ _ h
  | error h => exact .error h
  | spared h y => exact .spared h _

theorem Yields.andThen {x y : Except Fault α} {f : α → Except Fault γ} {g : α → Except Fault δ}
    (h : t.Yields Eq x y) (hk : ∀ a, t.Yields Q (f a) (g a)) :
    t.Yields Q (x >>= f) (y >>= g) := by
  refine h.bind fun a b hab => ?_
  rw [← hab]
  exact hk a

theorem Yields.imp {x : Except Fault α} {y : Except Fault β} {P' : α → β → Prop}
    (h : t.Yields P x y) (hP : ∀ a b, P a b → P' a b) : t.Yields P' x y := by
  cases h with
  | ok h => exact .ok (hP _ _ h)
  | error h => exact .error h
  | spared h y => exact .spared h y

theorem Yields.map {x : Except Fault α} {y : Except Fault β} {f : α → γ} {g : β → δ}
    (h : t.Yields P x y) (hk : ∀ a b, P a b → Q (f a) (g b)) :
    t.Yields Q (x.map f) (y.map g) := by
  cases h with
  | ok h => exact .ok (hk _ _ h)
  | error h => exact .error h
  | spared h y => exact .spared h _

theorem Yields.mapM {S : γ → δ → Prop} {xs : List α} {ys : List β} (h : List.Forall₂ P xs ys)
    {f : α → Except Fault γ} {g : β → Except Fault δ}
    (hk : ∀ a b, P a b → t.Yields S (f a) (g b)) :
    t.Yields (List.Forall₂ S) (xs.mapM f) (ys.mapM g) := by
  induction h with
  | nil => exact .ok .nil
  | cons hr _ ih =>
    rw [List.mapM_cons, List.mapM_cons]
    refine (hk _ _ hr).bind fun a b hab => ?_
    exact ih.bind fun as bs habs => .ok (.cons hab habs)

theorem Emits.refl (hf : ∀ e, t.fault e e) {x : Emit α} (hb : ∀ v ∈ x.bound, t.bound v v) :
    t.Emits Eq x x := by
  obtain ⟨bs, outcome⟩ := x
  cases outcome with
  | ok a => exact .ok (List.forall₂_same.mpr hb) rfl
  | error e => exact .error (hf e)

theorem Emits.pure {a : α} {b : β} (h : P a b) : t.Emits P (pure a) (pure b) := .ok .nil h

theorem Emits.bind {x : Emit α} {y : Emit β} {f : α → Emit γ} {g : β → Emit δ}
    (h : t.Emits P x y) (hk : ∀ a b, P a b → t.Emits Q (f a) (g b)) :
    t.Emits Q (x >>= f) (y >>= g) := by
  cases h with
  | error h => exact .error h
  | spared h y => exact .spared h _
  | @ok bs cs a b hb hab =>
    -- Bindings only matter when the rest succeeds too; a fault drops them on both sides.
    rw [Emit.bind_ok rfl, Emit.bind_ok rfl]
    have hfg := hk a b hab
    generalize f a = x at hfg ⊢
    generalize g b = y at hfg ⊢
    cases hfg with
    | ok hb' h => exact .ok (List.rel_append hb hb') h
    | error h => exact .error h
    | spared h y => exact .spared h _

theorem Emits.andThen {x y : Emit α} {f : α → Emit γ} {g : α → Emit δ} (h : t.Emits Eq x y)
    (hk : ∀ a, t.Emits Q (f a) (g a)) : t.Emits Q (x >>= f) (y >>= g) := by
  refine h.bind fun a b hab => ?_
  rw [← hab]
  exact hk a

theorem Emits.imp {x : Emit α} {y : Emit β} {P' : α → β → Prop} (h : t.Emits P x y)
    (hP : ∀ a b, P a b → P' a b) : t.Emits P' x y := by
  cases h with
  | ok hb h => exact .ok hb (hP _ _ h)
  | error h => exact .error h
  | spared h y => exact .spared h y

theorem Yields.lift {x : Except Fault α} {y : Except Fault β} (h : t.Yields P x y) :
    t.Emits P (Emit.lift x) (Emit.lift y) := by
  cases h with
  | ok h => exact .ok .nil h
  | error h => exact .error h
  | spared h y => exact .spared h _

theorem Emits.push {bs cs : List Value} (h : List.Forall₂ t.bound bs cs) :
    t.Emits (fun _ _ => True) (Emit.push bs) (Emit.push cs) := .ok h trivial

theorem Yields.embed {x y : Except Fault Fragment} (h : t.Yields t.Fragments x y) :
    t.Emits Eq (Emit.embed x) (Emit.embed y) := by
  cases h with
  | ok h => exact .ok h.2 h.1
  | error h => exact .error h
  | spared h y => exact .spared h _

theorem Emits.toFragment {x y : Emit String} (h : t.Emits Eq x y) :
    t.Yields t.Fragments x.toFragment y.toFragment := by
  cases h with
  | ok hb h => exact .ok ⟨h, hb⟩
  | error h => exact .error h
  | spared h y => exact .spared h _

theorem Emits.mapM {S : γ → δ → Prop} {xs : List α} {ys : List β} (h : List.Forall₂ P xs ys)
    {f : α → Emit γ} {g : β → Emit δ} (hk : ∀ a b, P a b → t.Emits S (f a) (g b)) :
    t.Emits (List.Forall₂ S) (xs.mapM f) (ys.mapM g) := by
  induction h with
  | nil => exact .pure .nil
  | cons hr _ ih =>
    rw [List.mapM_cons, List.mapM_cons]
    refine (hk _ _ hr).bind fun a b hab => ?_
    exact ih.bind fun as bs habs => .pure (.cons hab habs)

theorem Emits.texts {xs : List α} {ys : List β} (h : List.Forall₂ P xs ys)
    {f : α → Emit String} {g : β → Emit String} (hk : ∀ a b, P a b → t.Emits Eq (f a) (g b)) :
    t.Emits Eq (xs.mapM f) (ys.mapM g) :=
  (Emits.mapM h hk).imp fun _ _ h => List.forall₂_eq_eq_eq ▸ h

end Tie

end SqlDialects
