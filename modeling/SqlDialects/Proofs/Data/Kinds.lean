import SqlDialects.Proofs.Data.Similar

/-!
A compiler looks at the kind of a value, at the number of its items and at the names of variables,
but no further. A tie that keeps them is kept by the whole compilation.
-/

namespace SqlDialects

/-- The tie keeps the kinds of values and what is in scope. -/
structure Tie.KeepsKinds (t : Tie) : Prop where
  similar : ∀ {v w : Value}, t.value v w → v.Similar w
  bound : t.bound = t.value
  uint : ∀ n, t.value (.uint n) (.uint n)
  items : ∀ {vs ws : List Value}, t.value (.array vs) (.array ws) → List.Forall₂ t.value vs ws
  /-- Texts for a pattern still correspond after the same is done to both. -/
  pattern : ∀ {v w : Value} {a b : String}, t.value v w → v.text? = some a → w.text? = some b →
    ∀ f : String → String, t.value (.string (f a)) (.string (f b))
  scopes : t.scopes = List.Forall₂ t.vars
  noVars : t.vars [] []
  find? : ∀ {vs ws : Variables}, t.vars vs ws →
    ∀ name, Option.Rel t.value (vs.find? name) (ws.find? name)
  fault : ∀ e, t.fault e e
  likeOperand : ∀ {v w : Value}, t.value v w → t.fault (.likeOperand v) (.likeOperand w)
  spared : ∀ e, ¬t.spared e

structure Compiled.Alike (t : Tie) (r s : Compiled) : Prop where
  rawSql : r.rawSql = s.rawSql
  sql : r.sql = s.sql
  bindings : List.Forall₂ t.value r.bindings s.bindings
  named : List.Forall₂ (fun a b => a.1 = b.1 ∧ t.value a.2 b.2) r.named s.named

theorem likePattern_operator (operator a b : String) :
    (likePattern operator a).1 = (likePattern operator b).1 := by
  unfold likePattern
  split <;> rfl

theorem rel_getElem? {α β : Type} {R : α → β → Prop} {xs : List α} {ys : List β}
    (h : List.Forall₂ R xs ys) (i : Nat) : Option.Rel R xs[i]? ys[i]? := by
  induction h generalizing i with
  | nil => exact .none
  | cons hr _ ih =>
    cases i with
    | zero => exact .some hr
    | succ i => exact ih i

theorem expandMarkers_similar {bs cs : List Value} (h : List.Forall₂ Value.Similar bs cs)
    (placeholder sql : String) :
    expandMarkers placeholder bs sql = expandMarkers placeholder cs sql := by
  have hmark : (fun i : Nat => expandMarker placeholder bs[i]?) =
      fun i : Nat => expandMarker placeholder cs[i]? := by
    funext i
    exact Value.Similar.expandMarker (rel_getElem? h i) placeholder
  unfold expandMarkers
  rw [h.length_eq, hmark]

namespace Tie.KeepsKinds

open Compiler

variable {t : Tie} (h : t.KeepsKinds) (c : Compiler)

include h

theorem flatten {vs ws : List Value} (hv : List.Forall₂ t.value vs ws) :
    List.Forall₂ t.value (Value.flatten vs) (Value.flatten ws) := by
  unfold Value.flatten
  refine List.rel_flatMap hv fun v w hv => ?_
  have hsame := h.similar hv
  cases hsame with
  | array _ => exact h.items hv
  | _ => exact .cons hv .nil

section Values

variable {ss ss' : Scopes} (hs : t.scopes ss ss') {v w : Value} (hv : t.value v w)

include hs in
theorem lookup (name : String) : Option.Rel t.value (ss.find? name) (ss'.find? name) := by
  rw [h.scopes] at hs
  unfold Scopes.find?
  induction hs with
  | nil => exact .none
  | cons hv _ ih =>
    have hfound := h.find? hv name
    rw [List.findSome?_cons, List.findSome?_cons]
    generalize Variables.find? _ name = x at hfound ⊢
    generalize Variables.find? _ name = y at hfound ⊢
    cases hfound with
    | none => exact ih
    | some hv => exact .some hv

include hs hv

theorem resolve : t.Yields t.value (Compiler.resolve ss v) (Compiler.resolve ss' w) := by
  have hsame := h.similar hv
  cases hsame with
  | var name =>
    have hfound := h.lookup hs name
    unfold Compiler.resolve
    dsimp only
    generalize ss.find? name = x at hfound ⊢
    generalize ss'.find? name = y at hfound ⊢
    cases hfound with
    | none => exact .error (h.fault _)
    | some h => exact .ok h
  | _ => exact .ok hv

theorem parameter : t.Emits Eq (c.parameter ss v) (c.parameter ss' w) := by
  have hbind : t.Emits Eq
      (do
        let bound ← Emit.lift (Compiler.resolve ss v)
        Emit.push [bound]
        return c.marker)
      (do
        let bound ← Emit.lift (Compiler.resolve ss' w)
        Emit.push [bound]
        return c.marker) := by
    refine (h.resolve hs hv).lift.bind fun x y hxy => ?_
    exact (Tie.Emits.push (.cons (h.bound ▸ hxy) .nil)).bind fun _ _ _ => .pure rfl
  have hsame := h.similar hv
  cases hsame with
  | raw sql => exact .pure rfl
  | _ => exact hbind

theorem likeText : t.Yields
    (fun a b => (∀ sql, v = .raw sql → a = b) ∧
      ∀ f : String → String, t.value (.string (f a)) (.string (f b)))
    (Compiler.likeText ss v) (Compiler.likeText ss' w) := by
  have htext : t.Yields (fun a b => ∀ f : String → String, t.value (.string (f a)) (.string (f b)))
      (Compiler.likeText ss v) (Compiler.likeText ss' w) := by
    refine (h.resolve hs hv).bind fun x y hxy => ?_
    have htext := (h.similar hxy).text?
    have hpattern {a b : String} := h.pattern (a := a) (b := b) hxy
    generalize x.text? = a at htext hpattern ⊢
    generalize y.text? = b at htext hpattern ⊢
    cases htext with
    | none => exact .error (h.likeOperand hxy)
    | some _ => exact .ok (hpattern rfl rfl)
  have hsame := h.similar hv
  cases hsame with
  | raw sql => exact .ok ⟨fun _ _ => rfl, h.pattern hv rfl rfl⟩
  | _ => exact htext.imp fun _ _ hab => ⟨nofun, hab⟩

theorem operand {a b : String} (hab : ∀ sql, v = .raw sql → a = b)
    (hstring : t.value (.string a) (.string b)) :
    t.Emits Eq (c.likeOperand ss v a) (c.likeOperand ss' w b) := by
  have hbind := h.parameter c hs hstring
  have hsame := h.similar hv
  cases hsame with
  | raw sql => exact .pure (hab sql rfl)
  | _ => exact hbind

theorem like (column operator : String) (caseSensitive : Bool) (escape : Option Char)
    (isNot : Bool) :
    t.Emits Eq (c.like ss column operator v caseSensitive escape isNot)
      (c.like ss' column operator w caseSensitive escape isNot) := by
  unfold Compiler.like
  refine (h.likeText hs hv).lift.bind fun a b hab => ?_
  obtain ⟨hraw, htexts⟩ := hab
  have hoperator := likePattern_operator operator a b
  have hpattern := htexts fun text =>
    if caseSensitive then (likePattern operator text).2
    else Text.lower (likePattern operator text).2
  -- A pattern reaches the SQL only if it is made from SQL text, which is the same on both sides.
  have hwritten (sql : String) (hr : v = .raw sql) :
      (likePattern operator a).2 = (likePattern operator b).2 := by
    rw [hraw sql hr]
  revert hoperator hpattern hwritten
  generalize likePattern operator a = x
  generalize likePattern operator b = y
  obtain ⟨op, pattern⟩ := x
  obtain ⟨op', pattern'⟩ := y
  intro hoperator hpattern hwritten
  dsimp only at hoperator hpattern hwritten ⊢
  subst hoperator
  have hcheck : t.Yields Eq (c.checkOperator op) (c.checkOperator op) := .refl h.fault _
  refine hcheck.lift.andThen fun op => ?_
  have hright := h.operand c hs hv (fun sql hr => by rw [hwritten sql hr]) hpattern
  refine hright.andThen fun right => ?_
  exact .pure rfl

end Values

/-- A compiler treats values that correspond in the same way. -/
theorem holds : t.Holds c c where
  engine := rfl
  paging := rfl
  fault := h.fault
  uint n := h.bound ▸ h.uint n
  noVars := h.noVars
  noScopes := h.scopes ▸ .nil
  push hv hs := by
    rw [h.scopes] at hs ⊢
    exact .cons hv hs
  operator _ := .refl h.fault _
  parameter hs hv := h.parameter c hs hv
  like hs hv := h.like c hs hv

theorem nameMarkers {f g : Fragment} (hfg : t.Fragments f g) (query query' : Option Query) :
    (c.nameMarkers query f).Alike t (c.nameMarkers query' g) := by
  obtain ⟨htext, hbound⟩ := hfg
  rw [h.bound] at hbound
  have hnamed (vs ws : List Value) (hvw : List.Forall₂ t.value vs ws) (n : Nat) :
      List.Forall₂ (fun a b => a.1 = b.1 ∧ t.value a.2 b.2)
        ((vs.zipIdx n).map fun p => (c.markerName p.2, p.1))
        ((ws.zipIdx n).map fun p => (c.markerName p.2, p.1)) := by
    induction hvw generalizing n with
    | nil => exact .nil
    | cons hv _ ih => exact .cons ⟨rfl, hv⟩ (ih (n + 1))
  constructor
  · exact htext
  · exact congrArg (Text.replaceEach c.marker c.markerName) htext
  · exact hbound
  · exact hnamed _ _ (h.flatten hbound) 0

/-- Statements of which the values correspond compile to the same SQL under the same names, with
values that correspond, or fail alike. -/
theorem compile {p q : Query}
    (hpq : t.Yields t.Fragments (c.assemble p) (c.assemble q)) :
    (∃ r s, c.compile p = .ok r ∧ c.compile q = .ok s ∧ r.Alike t s) ∨
      ∃ e e', c.compile p = .error e ∧ c.compile q = .error e' ∧ t.fault e e' := by
  have hraw : t.Yields t.Fragments (c.compileRaw p) (c.compileRaw q) := by
    refine hpq.bind fun f g hfg => ?_
    obtain ⟨htext, hbound⟩ := hfg
    have hsimilar : List.Forall₂ Value.Similar f.bindings g.bindings :=
      hbound.imp fun v w hv => h.similar (h.bound ▸ hv)
    rw [htext, expandMarkers_similar hsimilar]
    refine (Tie.Yields.refl h.fault _).andThen fun sql => ?_
    exact .ok ⟨rfl, hbound⟩
  unfold Compiler.compile
  generalize c.compileRaw p = x at hraw ⊢
  generalize c.compileRaw q = y at hraw ⊢
  cases hraw with
  | ok hfg => exact .inl ⟨_, _, rfl, rfl, h.nameMarkers c hfg _ _⟩
  | error he => exact .inr ⟨_, _, rfl, rfl, he⟩
  | spared hf _ => exact absurd hf (h.spared _)

end Tie.KeepsKinds

end SqlDialects
