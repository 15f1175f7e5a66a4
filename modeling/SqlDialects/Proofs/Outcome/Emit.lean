import SqlDialects.Proofs.Outcome.Results
import SqlDialects.Render.Emit

/-!
Renderings made in steps: the outcome and the values bound of the steps together, from those of
each step.
-/

namespace SqlDialects.Emit

variable {α β : Type}

theorem eq_mk {x : Emit α} {a : α} (h : x.outcome = .ok a) : x = ⟨x.bound, .ok a⟩ :=
  Emit.ext rfl h

theorem eq_mk_of_toOption {x : Emit α} {bound : List Value} {a : α} (hb : x.bound = bound)
    (ho : x.outcome.toOption = some a) : x = ⟨bound, .ok a⟩ := by
  obtain ⟨_, outcome⟩ := x
  cases outcome with
  | error e => cases ho
  | ok a' => exact Emit.ext hb (congrArg Except.ok (Option.some.inj ho))

section Steps

theorem lift_ok_bind (a : α) (f : α → Emit β) : Emit.lift (.ok a) >>= f = f a :=
  Emit.pure_bind a f

theorem mk_ok_bind (bound : List Value) (a : α) (f : α → Emit β) :
    (⟨bound, .ok a⟩ : Emit α) >>= f = ⟨bound ++ (f a).bound, (f a).outcome⟩ :=
  Emit.bind_ok rfl f

theorem outcome_bind {x : Emit α} {a : α} (h : x.outcome = .ok a) (f : α → Emit β) :
    (x >>= f).outcome = (f a).outcome := by
  rw [bind_ok h]

theorem bind_eq_ok {x : Emit α} {f : α → Emit β} {b : β} (h : (x >>= f).outcome = .ok b) :
    ∃ a, x.outcome = .ok a ∧ (f a).outcome = .ok b := by
  cases hx : x.outcome with
  | error e =>
    rw [bind_error hx] at h
    cases h
  | ok a =>
    rw [bind_ok hx] at h
    exact ⟨a, rfl, h⟩

theorem bind_eq_mk {x : Emit α} {f : α → Emit β} {bound : List Value} {b : β}
    (h : x >>= f = ⟨bound, .ok b⟩) :
    ∃ bx a bf, x = ⟨bx, .ok a⟩ ∧ f a = ⟨bf, .ok b⟩ ∧ bound = bx ++ bf := by
  have hout : (x >>= f).outcome = .ok b := congrArg Emit.outcome h
  obtain ⟨a, hx, hf⟩ := bind_eq_ok hout
  rw [bind_ok hx] at h
  exact ⟨x.bound, a, (f a).bound, eq_mk hx, eq_mk hf, (congrArg Emit.bound h).symm⟩

theorem bound_bind (x : Emit α) {f : α → Emit β} (h : ∀ a, (f a).bound = []) :
    (x >>= f).bound = x.bound := by
  cases hx : x.outcome with
  | error e => rw [bind_error hx]
  | ok a => rw [bind_ok hx, h, List.append_nil]

theorem mem_bound_bind {x : Emit α} {f : α → Emit β} {v : Value} (h : v ∈ (x >>= f).bound) :
    v ∈ x.bound ∨ ∃ a, v ∈ (f a).bound := by
  cases hx : x.outcome with
  | error e =>
    rw [bind_error hx] at h
    exact .inl h
  | ok a =>
    rw [bind_ok hx] at h
    exact (List.mem_append.mp h).imp_right fun h => ⟨a, h⟩

end Steps

section Fragments

theorem embed_eq_ok {x : Except Fault Fragment} {sql : String} (h : (embed x).outcome = .ok sql) :
    ∃ f, x = .ok f ∧ f.sql = sql := by
  cases x with
  | error e => cases h
  | ok f => exact ⟨f, rfl, Except.ok.inj h⟩

theorem toFragment_eq_ok {x : Emit String} {f : Fragment} :
    x.toFragment = .ok f ↔ x = ⟨f.bindings, .ok f.sql⟩ := by
  obtain ⟨bound, outcome⟩ := x
  obtain ⟨sql, bindings⟩ := f
  cases outcome with
  | error e => simp [toFragment, Except.map]
  | ok a => simp [toFragment, Except.map, and_comm]

theorem toFragment_eq_error {x : Emit String} {e : Fault} :
    x.toFragment = .error e ↔ x.outcome = .error e := by
  obtain ⟨bound, outcome⟩ := x
  cases outcome <;> simp [toFragment, Except.map]

theorem outcome_of_toFragment {x : Emit String} {f : Fragment} (h : x.toFragment = .ok f) :
    x.outcome = .ok f.sql :=
  congrArg Emit.outcome (toFragment_eq_ok.mp h)

theorem toFragment_bind (x : Emit α) (f : α → String) (k : Fragment → Except Fault Fragment) :
    ((do let a ← x; return f a : Emit String).toFragment >>= k) =
      x.outcome >>= fun a => k ⟨f a, x.bound⟩ := by
  obtain ⟨bound, outcome⟩ := x
  cases outcome with
  | error e => rfl
  | ok a =>
    show k ⟨f a, bound ++ []⟩ = k ⟨f a, bound⟩
    rw [List.append_nil]

theorem toFragment_bind_pure (x : Emit String) (g : String → String) :
    (x >>= fun a => pure (g a)).toFragment = x.toFragment.map fun f => ⟨g f.sql, f.bindings⟩ := by
  obtain ⟨bound, outcome⟩ := x
  cases outcome with
  | error e => rfl
  | ok a =>
    simp only [mk_ok_bind, toFragment, Except.map, bound_pure, List.append_nil]
    rfl

end Fragments

section Lists

theorem mapM_eq_ok {f : α → Emit β} {xs : List α} {ys : List β}
    (h : (xs.mapM f).outcome = .ok ys) : List.Forall₂ (fun x y => (f x).outcome = .ok y) xs ys := by
  induction xs generalizing ys with
  | nil =>
    cases h
    exact .nil
  | cons x xs ih =>
    rw [List.mapM_cons] at h
    obtain ⟨y, hy, h⟩ := bind_eq_ok h
    obtain ⟨ys, hys, h⟩ := bind_eq_ok h
    cases h
    exact .cons hy (ih hys)

theorem mapM_eq_mk {f : α → Emit String} {xs : List α} {bound : List Value} {texts : List String}
    (h : xs.mapM f = ⟨bound, .ok texts⟩) :
    ∃ fs, List.Forall₂ (fun x a => (f x).toFragment = .ok a) xs fs ∧ texts = fs.map (·.sql) ∧
      bound = fs.flatMap (·.bindings) := by
  induction xs generalizing bound texts with
  | nil =>
    cases h
    exact ⟨[], .nil, rfl, rfl⟩
  | cons x xs ih =>
    rw [List.mapM_cons] at h
    obtain ⟨bx, text, _, hx, hrest, rfl⟩ := bind_eq_mk h
    obtain ⟨bxs, texts, _, hxs, hpure, rfl⟩ := bind_eq_mk hrest
    cases hpure
    obtain ⟨fs, hfs, rfl, rfl⟩ := ih hxs
    exact ⟨⟨text, bx⟩ :: fs, .cons (toFragment_eq_ok.mpr hx) hfs, rfl,
      congrArg (bx ++ ·) (List.append_nil _)⟩

end Lists

end SqlDialects.Emit
