import SqlDialects.Fault

/-!
Rendering one part of a statement: values are bound in order on the way, and those bound before
a fault stay bound.
-/

namespace SqlDialects

structure Fragment where
  sql : String
  bindings : List Value

structure Emit (α : Type) where
  bound : List Value
  outcome : Except Fault α

namespace Emit

variable {α β : Type}

protected def pure (a : α) : Emit α := ⟨[], .ok a⟩

protected def bind (x : Emit α) (f : α → Emit β) : Emit β :=
  match x.outcome with
  | .ok a => ⟨x.bound ++ (f a).bound, (f a).outcome⟩
  | .error e => ⟨x.bound, .error e⟩

instance : Monad Emit where
  pure := Emit.pure
  bind := Emit.bind

def push (values : List Value) : Emit Unit := ⟨values, .ok ()⟩

def fail (e : Fault) : Emit α := ⟨[], .error e⟩

def lift (x : Except Fault α) : Emit α := ⟨[], x⟩

/-- The SQL of a fragment; its bindings come in as a whole or not at all. -/
def embed : Except Fault Fragment → Emit String
  | .ok f => ⟨f.bindings, .ok f.sql⟩
  | .error e => ⟨[], .error e⟩

def toFragment (x : Emit String) : Except Fault Fragment :=
  x.outcome.map (⟨·, x.bound⟩)

@[ext] theorem ext {x y : Emit α} (hb : x.bound = y.bound) (ho : x.outcome = y.outcome) :
    x = y := by
  cases x; cases y; simp_all

@[simp] theorem bound_pure (a : α) : (pure a : Emit α).bound = [] := rfl
@[simp] theorem outcome_pure (a : α) : (pure a : Emit α).outcome = .ok a := rfl

theorem bind_ok {x : Emit α} {a : α} (h : x.outcome = .ok a) (f : α → Emit β) :
    (x >>= f) = ⟨x.bound ++ (f a).bound, (f a).outcome⟩ := by
  show Emit.bind x f = _
  rw [Emit.bind, h]

theorem bind_error {x : Emit α} {e : Fault} (h : x.outcome = .error e) (f : α → Emit β) :
    (x >>= f) = ⟨x.bound, .error e⟩ := by
  show Emit.bind x f = _
  rw [Emit.bind, h]

protected theorem id_bind (x : Emit α) : Emit.bind x Emit.pure = x := by
  obtain ⟨b, o⟩ := x
  cases o <;> simp [Emit.bind, Emit.pure]

protected theorem pure_bind (a : α) (f : α → Emit β) : Emit.bind (Emit.pure a) f = f a := by
  simp [Emit.bind, Emit.pure]

protected theorem bind_assoc {γ : Type} (x : Emit α) (f : α → Emit β) (g : β → Emit γ) :
    Emit.bind (Emit.bind x f) g = Emit.bind x fun a => Emit.bind (f a) g := by
  obtain ⟨b, o⟩ := x
  cases o with
  | error e => simp [Emit.bind]
  | ok a =>
    simp only [Emit.bind]
    cases (f a).outcome <;> simp

instance : LawfulMonad Emit :=
  LawfulMonad.mk' Emit Emit.id_bind Emit.pure_bind Emit.bind_assoc

end Emit

end SqlDialects
