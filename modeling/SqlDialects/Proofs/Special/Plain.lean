import SqlDialects.Proofs.Outcome.Emit
import SqlDialects.Proofs.Scope.Standing
import SqlDialects.Proofs.Visibility.Foreign

/-!
SQL text and variables are no values for a database. They are not bound where they stand for a value
themselves, but what SQL text brings and what stands in an array is bound without being looked at.
-/

namespace SqlDialects

namespace Value

/-- A value, and all that is in an array at any depth. -/
inductive Holds : Value → Value → Prop
  | here (v : Value) : Holds v v
  | item {items : List Value} {v w : Value} (hv : v ∈ items) (h : Holds v w) :
      Holds (array items) w

def Plain (v : Value) : Prop := ∀ w, v.Holds w → w.isLiteral = true

theorem Plain.isLiteral {v : Value} (h : v.Plain) : v.isLiteral = true := h v (.here v)

theorem plain_of_isLiteral {v : Value} (h : v.isLiteral = true) (ha : v.isArray = false) :
    v.Plain := by
  intro w hw
  cases hw with
  | here => exact h
  | item _ _ => cases ha

theorem Holds.not_plain {v w : Value} (h : v.Holds w) (hw : w.isLiteral = false) : ¬v.Plain := by
  intro hplain
  rw [hplain w h] at hw
  cases hw

end Value

def Variables.Plain (vars : Variables) : Prop := ∀ name v, vars.find? name = some v → v.Plain

theorem Variables.Plain.of_all {vars : Variables}
    (h : vars.all (fun p => p.2.isLiteral && !p.2.isArray) = true) : vars.Plain := by
  intro name v hv
  obtain ⟨n, hm⟩ := Variables.exists_mem_of_find? hv
  obtain ⟨hl, ha⟩ := Bool.and_eq_true_iff.mp (List.all_eq_true.mp h (n, v) hm)
  exact Value.plain_of_isLiteral hl (Bool.not_eq_eq_eq_not.mp ha)

def Query.DefinesPlain (q : Query) : Prop :=
  q.vars.Plain ∧ ∀ component place n, Query.Nests q component place n → n.vars.Plain

theorem Query.definesPlain_of_alone {q : Query} (hv : q.vars.Plain) (hn : q.nested = []) :
    q.DefinesPlain :=
  ⟨hv, fun _ _ _ h => absurd h (Query.not_nests hn)⟩

/-- What is bound without being looked at: what SQL text brings, and arrays. -/
def ClauseKind.handed {σ : Type} (k : ClauseKind σ) : List Value :=
  k.brought ++ k.held.filter (·.isArray)

def Query.Hands (q : Query) (v : Value) : Prop := ∃ d, q.Contains d ∧ v ∈ d.kind.handed

/-- A rendering beside itself: only plain values are bound, and others that may be. -/
def purity (others : Value → Prop) : Tie where
  value v w := v = w ∧ (v.isLiteral = true → v.Plain ∨ others v)
  bound v w := v = w ∧ (v.Plain ∨ others v)
  vars vs ws := vs = ws ∧ vs.Plain
  scopes ss ss' := ss = ss' ∧ ∀ vars ∈ ss, vars.Plain
  fault := Eq
  spared _ := False

variable {e : Engine} {others : Value → Prop}

namespace Compiler

variable {c : Compiler} {ss : Scopes}

theorem plain_of_find? (hs : ∀ vars ∈ ss, vars.Plain) {name : String} {d : Value}
    (h : ss.find? name = some d) : d.Plain := by
  obtain ⟨vars, hvars, hd⟩ := List.exists_of_findSome?_eq_some h
  exact hs vars hvars name d hd

theorem bound_parameter (hs : ∀ vars ∈ ss, vars.Plain) {v : Value}
    (hv : v.isLiteral = true → v.Plain ∨ others v) :
    ∀ b ∈ (c.parameter ss v).bound, b.Plain ∨ others b := by
  intro b hb
  cases v with
  | raw sql => cases hb
  | var name =>
    rw [parameter_of_not_raw (by rintro _ ⟨⟩)] at hb
    cases hd : ss.find? name with
    | none =>
      rw [resolve_missing hd] at hb
      cases hb
    | some d =>
      rw [resolve_var hd] at hb
      obtain rfl : b = d := List.mem_singleton.mp hb
      exact .inl (plain_of_find? hs hd)
  | _ =>
    have hb := List.mem_singleton.mp hb
    rw [hb]
    exact hv rfl

theorem bound_like (v : Value) (column operator : String) (caseSensitive : Bool)
    (escape : Option Char) (isNot : Bool) :
    ∀ b ∈ (c.like ss column operator v caseSensitive escape isNot).bound, b.Plain := by
  have hoperand (pattern : String) : ∀ b ∈ (c.likeOperand ss v pattern).bound, b.Plain := by
    intro b hb
    by_cases hv : ∀ sql, v ≠ .raw sql
    · rw [likeOperand_of_not_raw hv] at hb
      rw [List.mem_singleton.mp hb]
      exact Value.plain_of_isLiteral rfl rfl
    · obtain ⟨sql, rfl⟩ := not_forall_not.mp hv
      cases hb
  intro b hb
  unfold like at hb
  rcases Emit.mem_bound_bind hb with hb | ⟨text, hb⟩
  · cases hb
  rcases Emit.mem_bound_bind hb with hb | ⟨op, hb⟩
  · cases hb
  rcases Emit.mem_bound_bind hb with hb | ⟨right, hb⟩
  · exact hoperand _ b hb
  · cases hb

theorem holds_purity (c : Compiler) : (purity others).Holds c c where
  engine := rfl
  paging := rfl
  fault _ := rfl
  uint _ := ⟨rfl, .inl (Value.plain_of_isLiteral rfl rfl)⟩
  noVars := ⟨rfl, nofun⟩
  noScopes := ⟨rfl, nofun⟩
  push := by
    rintro vs _ ss _ ⟨rfl, hvars⟩ ⟨rfl, hs⟩
    exact ⟨rfl, List.forall_mem_cons.mpr ⟨hvars, hs⟩⟩
  operator _ := .refl (fun _ => rfl) _
  parameter := by
    rintro ss _ v _ ⟨rfl, hs⟩ ⟨rfl, hv⟩
    exact .refl (fun _ => rfl) fun b hb => ⟨rfl, bound_parameter hs hv b hb⟩
  like := by
    rintro ss _ v _ ⟨rfl, -⟩ ⟨rfl, -⟩
    exact fun column operator caseSensitive escape isNot => .refl (fun _ => rfl) fun b hb =>
      ⟨rfl, .inl (bound_like v column operator caseSensitive escape isNot b hb)⟩

end Compiler

theorem Statement.alike_purity {q : Query} (hvars : q.vars.Plain)
    (ho : ∀ d ∈ q.clauses, ∀ v ∈ d.kind.handed, others v)
    (hn : ∀ m ∈ q.nested, Subquery.Alike (purity others) e m m) :
    q.Alike (purity others) e (Subquery.Alike (purity others) e) q := by
  refine .refl (fun d hd v hv => ⟨rfl, fun hl => ?_⟩) (fun d hd v hv => ⟨rfl, .inr ?_⟩)
    ⟨rfl, hvars⟩ hn
  · cases ha : v.isArray with
    | false => exact .inl (Value.plain_of_isLiteral hl ha)
    | true => exact .inr (ho d hd v (List.mem_append_right _ (List.mem_filter.mpr ⟨hv, ha⟩)))
  · exact ho d hd v (List.mem_append_left _ hv)

theorem Subquery.alike_purity (n : Subquery) : n.statement.DefinesPlain →
    (∀ v, n.statement.Hands v → others v) → Subquery.Alike (purity others) e n n := by
  induction n using Subquery.induction with
  | step q ih =>
    intro hq ho
    refine .of (Statement.alike_purity hq.1 (fun d hd v hv => ho v ⟨d, .here hd, hv⟩) ?_)
    intro m hm
    obtain ⟨d, hd, place, hpart⟩ := Statement.exists_part hm
    refine ih m hm (Query.forall_nests.mp hq.2 d hd _ hpart) fun v hv => ?_
    obtain ⟨d, hd, hv⟩ := hv
    obtain ⟨body⟩ := m
    exact ho v ⟨d, .inside hm hd, hv⟩

/-- If all that is defined is plain, every binding is plain or was handed over by a clause. -/
theorem Compiler.plain_or_handed {c : Compiler} {q : Query} {f : Fragment} (hq : q.DefinesPlain)
    (h : c.assemble q = .ok f) : ∀ b ∈ f.bindings, b.Plain ∨ q.Hands b := by
  have hself : Subquery.Alike (purity q.Hands) c.engine (.of q) (.of q) :=
    Subquery.alike_purity (.of q) hq fun _ => id
  cases hself with
  | of halike =>
    have hassemble := (holds_purity c).assemble halike
    rw [h] at hassemble
    cases hassemble with
    | ok hfg =>
      obtain ⟨-, hbound⟩ := hfg
      intro b hb
      obtain ⟨_, -, -, hplain⟩ := forall₂_mem_left hbound hb
      exact hplain

end SqlDialects
