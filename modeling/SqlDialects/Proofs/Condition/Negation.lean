import SqlDialects.Compiled
import SqlDialects.Proofs.Select.Parts

/-!
Negated conditions. A condition is negated as a whole in parentheses, or in front of parentheses
that it already has, or by its operator. A date part that an engine has no format for is not
negated at all: it is written the same with a sign and without.
-/

namespace SqlDialects

inductive Sign where
  | whole
  | group
  | operator (plain negated : String)

variable {σ : Type}

def Predicate.sign : Predicate σ → Sign
  | .nested _ => .group
  | .isNull _ => .operator "IS NULL" "IS NOT NULL"
  | .truth _ _ => .operator "=" "!="
  | .oneOf _ [] => .operator "1 = 0 /* IN [empty list] */" "1 = 1 /* NOT IN [empty list] */"
  | .oneOf _ (_ :: _) => .operator "IN" "NOT IN"
  | .oneOfQuery _ _ => .operator "IN" "NOT IN"
  | .between _ _ _ => .operator "BETWEEN" "NOT BETWEEN"
  | .rowsExist _ => .operator "EXISTS" "NOT EXISTS"
  | _ => .whole

namespace Engine

/-- What stands in front of the operator of a condition that is negated by it. -/
def subject (e : Engine) : Predicate σ → String
  | .isNull column => e.wrap column ++ " "
  | .truth column _ => e.wrap column ++ " "
  | .oneOf column (_ :: _) => e.wrap column ++ " "
  | .oneOfQuery column _ => e.wrap column ++ " "
  | .between column _ _ => e.wrap column ++ " "
  | _ => ""

/-- The negation of a condition that is written `s` is written `t`. -/
def Negates (e : Engine) (p : Predicate σ) (s t : String) : Prop :=
  match p.sign with
  | .whole => t = "NOT (" ++ s ++ ")"
  | .group => (∃ inner, s = "(" ++ inner ++ ")") ∧ t = "NOT " ++ s
  | .operator plain negated =>
    ∃ rest, s = e.subject p ++ plain ++ rest ∧ t = e.subject p ++ negated ++ rest

theorem Negates.unique {e : Engine} {p : Predicate σ} {s t u : String} (ht : e.Negates p s t)
    (hu : e.Negates p s u) : t = u := by
  unfold Negates at ht hu
  cases hp : p.sign with
  | whole =>
    rw [hp] at ht hu
    exact ht.trans hu.symm
  | group =>
    rw [hp] at ht hu
    exact ht.2.trans hu.2.symm
  | operator plain negated =>
    rw [hp] at ht hu
    obtain ⟨x, hx, rfl⟩ := ht
    obtain ⟨y, hy, rfl⟩ := hu
    rw [(String.append_right_inj _).mp (hx.symm.trans hy)]

/-- The engine compares the parts of dates as formatted text, and has no format for this one. -/
def LacksFormat (e : Engine) : Predicate σ → Prop
  | .datePart part _ _ _ => e = .sqlite ∧ timeFormat? part = none
  | _ => False

end Engine

namespace Compiler

variable (c : Compiler) {ss : Scopes} {p : Predicate Rendering} {isOr : Bool}

theorem bind_negate {α : Type} (x : Emit α) (text : α → String) :
    (x >>= fun a => pure (negate true (text a)) : Emit String) =
      (x >>= fun a => pure (negate false (text a))) >>= fun s => pure ("NOT (" ++ s ++ ")") := by
  rw [bind_assoc]
  exact bind_congr fun a => (pure_bind _ _).symm

theorem datePart_negated {part : String} (column operator : String) (value : Value)
    (h : ¬(c.engine = .sqlite ∧ timeFormat? part = none)) :
    c.datePart ss part column operator value true =
      c.datePart ss part column operator value false >>= fun s => pure ("NOT (" ++ s ++ ")") := by
  unfold datePart basicDatePart
  cases he : c.engine with
  | sqlite =>
    cases hf : timeFormat? part with
    | none => exact absurd ⟨he, hf⟩ h
    | some format => exact bind_negate _ _
  | _ => exact bind_negate _ _

theorem datePart_unsigned {part : String} (column operator : String) (value : Value)
    (h : c.engine = .sqlite ∧ timeFormat? part = none) :
    c.datePart ss part column operator value true =
      c.datePart ss part column operator value false := by
  unfold datePart
  rw [h.1, h.2]

theorem condition_whole (hp : p.sign = .whole) (h : ¬c.engine.LacksFormat p) :
    c.condition ss ⟨p, isOr, true⟩ =
      c.condition ss ⟨p, isOr, false⟩ >>= fun s => pure ("NOT (" ++ s ++ ")") := by
  unfold condition
  cases p with
  | compare column operator value =>
    dsimp only
    rw [bind_assoc]
    exact bind_congr fun op => bind_negate _ _
  | like column operator value caseSensitive escape =>
    dsimp only [like]
    simp only [bind_assoc]
    exact bind_congr fun text => bind_congr fun op => bind_congr fun right => (pure_bind _ _).symm
  | datePart part column operator value =>
    dsimp only
    rw [bind_assoc]
    exact bind_congr fun op => c.datePart_negated _ _ _ h
  | columns first operator second => exact bind_negate _ _
  | againstQuery column operator query =>
    dsimp only
    rw [bind_assoc]
    exact bind_congr fun op => bind_negate _ _
  | queryAgainst query operator value =>
    dsimp only
    rw [bind_assoc]
    refine bind_congr fun op => ?_
    rw [bind_assoc]
    exact bind_congr fun sub => bind_negate _ _
  | raw sql bindings => exact bind_negate _ _
  | oneOf column values => cases values <;> cases hp
  | _ => cases hp

theorem condition_operator {plain negated : String} (hp : p.sign = .operator plain negated) :
    ∃ rest : Emit String, ∀ isNot, c.condition ss ⟨p, isOr, isNot⟩ = rest >>= fun r =>
      pure (c.engine.subject p ++ (if isNot then negated else plain) ++ r) := by
  unfold condition
  cases p with
  | isNull column =>
    cases hp
    exact ⟨pure "", fun _ => by simp only [Engine.subject, pure_bind, String.append_empty]⟩
  | truth column value =>
    cases hp
    refine ⟨pure (" " ++ if value then c.engine.trueText else c.engine.falseText), fun _ => ?_⟩
    simp only [Engine.subject, pure_bind, String.append_assoc]
  | oneOf column values =>
    cases values with
    | nil =>
      cases hp
      refine ⟨pure "", fun _ => ?_⟩
      simp only [Engine.subject, pure_bind, String.append_empty, String.empty_append]
      rfl
    | cons v values =>
      cases hp
      refine ⟨c.parameters ss (v :: values) >>= fun m => pure (" (" ++ m ++ ")"), fun _ => ?_⟩
      simp only [Engine.subject, bind_assoc, pure_bind, String.append_assoc]
      rfl
  | oneOfQuery column query =>
    cases hp
    refine ⟨Emit.embed (query.select ss) >>= fun sub => pure (" (" ++ sub ++ ")"), fun _ => ?_⟩
    simp only [Engine.subject, bind_assoc, pure_bind, String.append_assoc]
  | between column lower higher =>
    cases hp
    refine ⟨c.parameter ss lower >>= fun low => c.parameter ss higher >>= fun high =>
      pure (" " ++ low ++ " AND " ++ high), fun _ => ?_⟩
    simp only [Engine.subject, bind_assoc, pure_bind, String.append_assoc]
  | rowsExist query =>
    cases hp
    refine ⟨Emit.embed (query.select ss) >>= fun sub => pure (" (" ++ sub ++ ")"), fun _ => ?_⟩
    simp only [Engine.subject, bind_assoc, pure_bind, String.append_assoc, String.empty_append]
  | _ => cases hp

theorem condition_group {bound : List Value} {s : String} (hp : p.sign = .group)
    (h : c.condition ss ⟨p, isOr, false⟩ = ⟨bound, .ok s⟩) (hs : s ≠ "") :
    (∃ inner, s = "(" ++ inner ++ ")") ∧
      c.condition ss ⟨p, isOr, true⟩ = ⟨bound, .ok ("NOT " ++ s)⟩ := by
  cases p with
  | nested query =>
    obtain ⟨bx, inner, bf, hx, hf, rfl⟩ := Emit.bind_eq_mk h
    cases hf
    by_cases hinner : inner.isEmpty
    · exact absurd (if_pos hinner) hs
    · have hnot : "NOT " ++ ("(" ++ inner ++ ")") = "NOT (" ++ inner ++ ")" := by
        rw [← String.append_assoc, ← String.append_assoc]
        rfl
      refine ⟨⟨inner, if_neg hinner⟩, ?_⟩
      unfold condition
      dsimp only
      rw [hx, Emit.mk_ok_bind, if_neg hinner, if_neg hinner]
      exact Emit.ext rfl (congrArg Except.ok hnot.symm)
  | oneOf column values => cases values <;> cases hp
  | _ => cases hp

/-- A condition that is rendered is rendered negated too, with the same bindings, and as its
negation, unless it compares a part of a date that the engine lacks a format for: that one is
written as if it had no sign. Nested statements may be rendered in any way. -/
theorem condition_negated {bound : List Value} {s : String}
    (h : c.condition ss ⟨p, isOr, false⟩ = ⟨bound, .ok s⟩) (hs : s ≠ "") :
    ∃ t, c.condition ss ⟨p, isOr, true⟩ = ⟨bound, .ok t⟩ ∧
      (¬c.engine.LacksFormat p → c.engine.Negates p s t) ∧ (c.engine.LacksFormat p → t = s) := by
  by_cases hf : c.engine.LacksFormat p
  · have hsame : c.condition ss ⟨p, isOr, true⟩ = c.condition ss ⟨p, isOr, false⟩ := by
      cases p with
      | datePart part column operator value =>
        exact bind_congr fun op => c.datePart_unsigned _ _ _ hf
      | _ => exact hf.elim
    exact ⟨s, hsame.trans h, fun hn => absurd hf hn, fun _ => rfl⟩
  · refine (?_ : ∃ t, c.condition ss ⟨p, isOr, true⟩ = ⟨bound, .ok t⟩ ∧
      c.engine.Negates p s t).imp fun t ht => ⟨ht.1, fun _ => ht.2, fun hx => absurd hx hf⟩
    unfold Engine.Negates
    cases hp : p.sign with
    | whole =>
      refine ⟨_, ?_, rfl⟩
      rw [c.condition_whole hp hf, h, Emit.mk_ok_bind]
      exact Emit.ext (List.append_nil _) rfl
    | group =>
      obtain ⟨hgroup, ht⟩ := c.condition_group hp h hs
      exact ⟨_, ht, hgroup, rfl⟩
    | operator plain negated =>
      obtain ⟨rest, hrest⟩ := c.condition_operator hp
      obtain ⟨br, r, bf, hr, hpure, rfl⟩ := Emit.bind_eq_mk ((hrest false).symm.trans h)
      cases hpure
      refine ⟨_, ?_, r, rfl, rfl⟩
      rw [hrest true, hr]
      rfl

def ordersOfYear : Query where
  clauses := [
    ⟨.filter, none, .condition ⟨.datePart "year" "placed" ">=" (.int 2024), false, false⟩⟩,
    ⟨.filter, none, .condition ⟨.oneOf "state" [], true, false⟩⟩]

theorem condition_negated_ordersOfYear :
    (∃ t, (ofEngine .postgres).condition []
        ⟨.nested ((ofEngine .postgres).rendering (.of ordersOfYear)), true, true⟩ =
          ⟨[.int 2024], .ok t⟩ ∧
      t = "NOT (DATE_PART('YEAR', \"placed\") >= ? OR 1 = 0 /* IN [empty list] */)") ∧
    ∃ t, (ofEngine .sqlite).condition []
        ⟨.nested ((ofEngine .sqlite).rendering (.of ordersOfYear)), true, true⟩ =
          ⟨[.int 2024], .ok t⟩ ∧
      t = "NOT (strftime('%Y', \"placed\") >= cast(? as text) OR 1 = 0 /* IN [empty list] */)" := by
  constructor
  · have h : (ofEngine .postgres).condition []
        ⟨.nested ((ofEngine .postgres).rendering (.of ordersOfYear)), true, false⟩ =
          ⟨[.int 2024],
            .ok "(DATE_PART('YEAR', \"placed\") >= ? OR 1 = 0 /* IN [empty list] */)"⟩ := rfl
    obtain ⟨t, ht, hn, -⟩ := condition_negated _ h (by decide)
    exact ⟨t, ht, (hn id).2⟩
  · have h : (ofEngine .sqlite).condition []
        ⟨.nested ((ofEngine .sqlite).rendering (.of ordersOfYear)), true, false⟩ =
          ⟨[.int 2024],
            .ok "(strftime('%Y', \"placed\") >= cast(? as text) OR 1 = 0 /* IN [empty list] */)"⟩ :=
      rfl
    obtain ⟨t, ht, hn, -⟩ := condition_negated _ h (by decide)
    exact ⟨t, ht, (hn id).2⟩

/-- An engine that has no format for weeks selects the week that is not wanted. -/
theorem unformatted_part_is_not_negated :
    ¬∀ (c : Compiler) (ss : Scopes) (p : Predicate Rendering) (isOr : Bool) (bound : List Value)
      (s : String), c.condition ss ⟨p, isOr, false⟩ = ⟨bound, .ok s⟩ → s ≠ "" →
      ∃ t, c.condition ss ⟨p, isOr, true⟩ = ⟨bound, .ok t⟩ ∧ c.engine.Negates p s t := by
  intro hall
  obtain ⟨t, ht, hn⟩ := hall (ofEngine .sqlite) [] (.datePart "week" "placed" "=" (.int 1)) false
    [.int 1] "\"placed\" = ?" rfl (by decide)
  have htext : Except.ok "\"placed\" = ?" = Except.ok t := congrArg Emit.outcome ht
  have hnot : t = "NOT (" ++ "\"placed\" = ?" ++ ")" := hn
  rw [← Except.ok.inj htext] at hnot
  exact absurd hnot (by decide)

end Compiler

end SqlDialects
