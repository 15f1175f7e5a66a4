import SqlDialects.Proofs.Placeholder.Reference
import SqlDialects.Proofs.Statement.Lookup

/-!
Agreement of a renderer that binds values on its way with one that writes them down in place.
Both fail alike or give results that match; the rules follow the steps of a renderer.
-/

namespace SqlDialects

variable {α β γ δ : Type}

def Fault.Ordinary (e : Fault) : Prop := ∀ markers bindings, e ≠ .markerMismatch markers bindings

def Ordinary (x : Except Fault α) : Prop := ∀ e, x = .error e → e.Ordinary

theorem ordinary_ok (a : α) : Ordinary (.ok a : Except Fault α) := by
  intro e h
  cases h

theorem ordinary_error {e : Fault} (h : e.Ordinary) : Ordinary (.error e : Except Fault α) := by
  intro e' he
  cases he
  exact h

theorem Ordinary.bind {x : Except Fault α} {f : α → Except Fault β} (hx : Ordinary x)
    (hf : ∀ a, x = .ok a → Ordinary (f a)) : Ordinary (x >>= f) := by
  cases x with
  | error e => exact ordinary_error (hx e rfl)
  | ok a => exact hf a rfl

theorem Ordinary.map {x : Except Fault α} (hx : Ordinary x) (f : α → β) : Ordinary (x.map f) := by
  cases x with
  | error e => exact ordinary_error (hx e rfl)
  | ok a => exact ordinary_ok (f a)

theorem ordinary_mapM {f : α → Except Fault β} {xs : List α} (h : ∀ x ∈ xs, Ordinary (f x)) :
    Ordinary (xs.mapM f) := by
  induction xs with
  | nil => exact ordinary_ok []
  | cons x xs ih =>
    rw [List.mapM_cons]
    refine (h x List.mem_cons_self).bind fun y _ => ?_
    exact (ih fun x hx => h x (List.mem_cons_of_mem _ hx)).bind fun ys _ => ordinary_ok _

section Lookup

variable {σ : Type} (q : Statement σ) (component : Component) (as? : ClauseKind σ → Option α)
  (engine : Option Engine)

theorem Clause.ordinary_view (c : Clause σ) : Ordinary (c.view component as?) := by
  unfold Clause.view
  split
  · exact ordinary_ok _
  · exact ordinary_error (by rintro _ _ ⟨⟩)

theorem Statement.ordinary_getAll : Ordinary (q.getAll component as? engine) :=
  ordinary_mapM fun c _ => c.ordinary_view component as?

theorem Statement.ordinary_getOne : Ordinary (q.getOne component as? engine) := by
  unfold Statement.getOne
  split
  · exact (Clause.ordinary_view component as? _).map some
  · exact ordinary_ok none

theorem Statement.ordinary_offsetFor : Ordinary (q.offsetFor engine) :=
  (q.ordinary_getOne _ _ engine).map _

theorem Statement.ordinary_window : Ordinary (q.window engine) :=
  ((q.ordinary_getOne _ _ engine).map _).bind fun _ _ =>
    (q.ordinary_offsetFor engine).bind fun _ _ => ordinary_ok _

end Lookup

namespace Compiler

theorem ordinary_resolve (scopes : Scopes) (v : Value) : Ordinary (resolve scopes v) := by
  unfold resolve
  split
  · split
    · exact ordinary_ok _
    · exact ordinary_error (by rintro _ _ ⟨⟩)
  · exact ordinary_ok _

theorem ordinary_likeText (scopes : Scopes) (v : Value) : Ordinary (likeText scopes v) := by
  refine (ordinary_resolve scopes v).bind fun resolved _ => ?_
  split
  · exact ordinary_ok _
  · exact ordinary_error (by rintro _ _ ⟨⟩)

theorem ordinary_checkOperator (c : Compiler) (operator : String) :
    Ordinary (c.checkOperator operator) := by
  simp only [checkOperator]
  split
  · exact ordinary_ok _
  · exact ordinary_error (by rintro _ _ ⟨⟩)

theorem ordinary_checkRow (component : Component) (columns : List String) (values : List Value) :
    Ordinary (checkRow component columns values) := by
  unfold checkRow
  split
  · exact ordinary_error (by rintro _ _ ⟨⟩)
  · split
    · exact ordinary_error (by rintro _ _ ⟨⟩)
    · exact ordinary_ok ()

theorem ordinary_sourceFor {σ : Type} (c : Compiler) (operation : Operation) (q : Statement σ) :
    Ordinary (c.sourceFor operation q) := by
  refine (q.ordinary_getOne _ _ _).bind fun s _ => ?_
  cases s with
  | none => exact ordinary_error (by rintro _ _ ⟨⟩)
  | some s => exact ordinary_ok s

end Compiler

/-- Both end alike; `R` ties what was bound, what was rendered and what was written. -/
def Agrees (R : List Value → α → β → Prop) (x : Emit α) (y : Except Fault β) : Prop :=
  match x.outcome, y with
  | .ok a, .ok b => R x.bound a b
  | .error e, .error e' => e = e' ∧ e.Ordinary
  | _, _ => False

section Agrees

variable {R : List Value → α → β → Prop} {S : List Value → γ → δ → Prop}

theorem agrees_pure {a : α} {b : β} (h : R [] a b) : Agrees R (pure a) (pure b) := h

theorem agrees_error {e : Fault} (h : e.Ordinary) {bound : List Value} :
    Agrees R ⟨bound, .error e⟩ (.error e) :=
  ⟨rfl, h⟩

theorem Agrees.bind {x : Emit α} {y : Except Fault β} {f : α → Emit γ} {g : β → Except Fault δ}
    (h : Agrees R x y)
    (hk : ∀ bs a b, R bs a b → Agrees (fun cs => S (bs ++ cs)) (f a) (g b)) :
    Agrees S (x >>= f) (y >>= g) := by
  obtain ⟨bs, o⟩ := x
  cases o with
  | error e =>
    cases y with
    | error e' =>
      obtain ⟨rfl, he⟩ := h
      exact agrees_error he
    | ok b => exact h.elim
  | ok a =>
    cases y with
    | error e' => exact h.elim
    | ok b => exact hk bs a b h

theorem agrees_lift {x : Except Fault α} (hx : Ordinary x) {k : α → Emit γ}
    {k' : α → Except Fault δ} (hk : ∀ a, x = .ok a → Agrees S (k a) (k' a)) :
    Agrees S (Emit.lift x >>= k) (x >>= k') := by
  cases x with
  | error e => exact agrees_error (hx e rfl)
  | ok a => exact hk a rfl

theorem agrees_lift_map {ε : Type} {x : Except Fault ε} (hx : Ordinary x) {f : ε → α} {g : ε → β}
    {k : α → Emit γ} {k' : β → Except Fault δ}
    (hk : ∀ a, x = .ok a → Agrees S (k (f a)) (k' (g a))) :
    Agrees S (Emit.lift (x.map f) >>= k) (x.map g >>= k') := by
  cases x with
  | error e => exact agrees_error (hx e rfl)
  | ok a => exact hk a rfl

theorem Agrees.imp {x : Emit α} {y : Except Fault β} {R' : List Value → α → β → Prop}
    (h : Agrees R x y) (hR : ∀ bs a b, R bs a b → R' bs a b) : Agrees R' x y := by
  obtain ⟨bs, o⟩ := x
  cases o <;> cases y
  · exact h
  · exact h
  · exact h
  · exact hR _ _ _ h

end Agrees

/-- The text and the values of a script, in which every placeholder is a value's. -/
structure Script.Writes (bound : List Value) (t : String) (s : Script) : Prop where
  sql : s.sql = t
  values : s.values = bound
  aligned : s.Aligned

structure Script.WritesAll (bound : List Value) (ts : List String) (ss : List Script) : Prop where
  sql : ss.map sql = ts
  values : ss.flatMap values = bound
  aligned : ∀ s ∈ ss, s.Aligned

structure Transcribes (x : Except Fault Fragment) (y : Except Fault Script) : Prop where
  eq : x = y.map Script.fragment
  aligned : ∀ s, y = .ok s → s.Aligned
  ordinary : Ordinary y

open Script

theorem Agrees.mapM_length {xs : List α} {f : α → Emit String} {g : α → Except Fault Script}
    (h : ∀ x ∈ xs, Agrees Writes (f x) (g x)) :
    Agrees (fun bs ts ss => WritesAll bs ts ss ∧ ss.length = xs.length) (xs.mapM f)
      (xs.mapM g) := by
  induction xs with
  | nil => exact agrees_pure ⟨⟨rfl, rfl, by simp⟩, rfl⟩
  | cons x xs ih =>
    rw [List.mapM_cons, List.mapM_cons]
    refine (h x List.mem_cons_self).bind fun _ _ s hs => ?_
    refine (ih fun x hx => h x (List.mem_cons_of_mem _ hx)).bind fun _ _ ss hss => ?_
    obtain ⟨rfl, rfl, ha⟩ := hs
    obtain ⟨⟨rfl, rfl, has⟩, hl⟩ := hss
    refine agrees_pure ⟨⟨rfl, by simp, ?_⟩, by simp [hl]⟩
    simpa [ha] using has

theorem Agrees.mapM {xs : List α} {f : α → Emit String} {g : α → Except Fault Script}
    (h : ∀ x ∈ xs, Agrees Writes (f x) (g x)) : Agrees WritesAll (xs.mapM f) (xs.mapM g) :=
  (Agrees.mapM_length h).imp fun _ _ _ h => h.1

theorem transcribes_error {e : Fault} (h : e.Ordinary) : Transcribes (.error e) (.error e) :=
  ⟨rfl, by rintro s ⟨⟩, ordinary_error h⟩

theorem transcribes_ok {s : Script} {t : String} {bound : List Value} (h : Writes bound t s) :
    Transcribes (.ok ⟨t, bound⟩) (.ok s) := by
  obtain ⟨rfl, rfl, ha⟩ := h
  refine ⟨rfl, ?_, ordinary_ok s⟩
  rintro s ⟨⟩
  exact ha

theorem transcribes_bind {x : Except Fault α} (hx : Ordinary x) {k : α → Except Fault Fragment}
    {k' : α → Except Fault Script} (h : ∀ a, x = .ok a → Transcribes (k a) (k' a)) :
    Transcribes (x >>= k) (x >>= k') := by
  cases x with
  | error e => exact transcribes_error (hx e rfl)
  | ok a => exact h a rfl

theorem Transcribes.bind {x : Except Fault Fragment} {y : Except Fault Script}
    (h : Transcribes x y) {k : Fragment → Except Fault Fragment}
    {k' : Script → Except Fault Script}
    (hk : ∀ s : Script, s.Aligned → Transcribes (k s.fragment) (k' s)) :
    Transcribes (x >>= k) (y >>= k') := by
  obtain ⟨rfl, ha, ho⟩ := h
  cases y with
  | error e => exact transcribes_error (ho e rfl)
  | ok s => exact hk s (ha s rfl)

theorem Transcribes.embed {x : Except Fault Fragment} {y : Except Fault Script}
    (h : Transcribes x y) : Agrees Writes (Emit.embed x) y := by
  obtain ⟨rfl, ha, ho⟩ := h
  cases y with
  | error e => exact agrees_error (ho e rfl)
  | ok s => exact ⟨rfl, rfl, ha s rfl⟩

theorem Agrees.toFragment {x : Emit String} {y : Except Fault Script} (h : Agrees Writes x y) :
    Transcribes x.toFragment y := by
  obtain ⟨bs, o⟩ := x
  cases o with
  | error e =>
    cases y with
    | ok s => exact h.elim
    | error e' =>
      obtain ⟨rfl, he⟩ := h
      exact transcribes_error he
  | ok t =>
    cases y with
    | error e => exact h.elim
    | ok s => exact transcribes_ok h

end SqlDialects
