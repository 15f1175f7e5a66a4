import SqlDialects.Proofs.Twin.Alike
import SqlDialects.Render.Condition

/-! Conditions that are alike have the same SQL, if what two compilers make of one value has. -/

namespace SqlDialects

/-- Two compilers treat single values and operators as the tie says. -/
structure Tie.Holds (t : Tie) (c d : Compiler) : Prop where
  engine : c.engine = d.engine
  paging : c.legacyPaging = d.legacyPaging
  fault : ∀ e, t.fault e e
  uint : ∀ n, t.bound (.uint n) (.uint n)
  noVars : t.vars [] []
  noScopes : t.scopes [] []
  push : ∀ {vs ws : Variables} {ss ss' : Scopes},
    t.vars vs ws → t.scopes ss ss' → t.scopes (vs :: ss) (ws :: ss')
  operator : ∀ operator, t.Yields Eq (c.checkOperator operator) (d.checkOperator operator)
  parameter : ∀ {ss ss' : Scopes} {v w : Value}, t.scopes ss ss' → t.value v w →
    t.Emits Eq (c.parameter ss v) (d.parameter ss' w)
  like : ∀ {ss ss' : Scopes} {v w : Value}, t.scopes ss ss' → t.value v w →
    ∀ column operator caseSensitive escape isNot,
      t.Emits Eq (c.like ss column operator v caseSensitive escape isNot)
        (d.like ss' column operator w caseSensitive escape isNot)

/-- The renderings of a nested statement correspond in each place. -/
structure Rendering.Alike (t : Tie) (r r' : Rendering) : Prop where
  aliasName : r.aliasName = r'.aliasName
  select : ∀ {ss ss' : Scopes}, t.scopes ss ss' → t.Yields t.Fragments (r.select ss) (r'.select ss')
  conditions : ∀ {ss ss' : Scopes}, t.scopes ss ss' →
    t.Emits Eq (r.conditions ss) (r'.conditions ss')
  joined : ∀ {ss ss' : Scopes}, t.scopes ss ss' → t.Emits Eq (r.joined ss) (r'.joined ss')

namespace Compiler

theorem following_congr {xs ys : List (Condition Rendering)}
    (h : List.Forall₂ (fun x y => x.isOr = y.isOr) xs ys) (parts : List String) :
    chain.following (xs.zip parts) = chain.following (ys.zip parts) := by
  induction h generalizing parts with
  | nil => rfl
  | cons hx _ ih =>
    cases parts with
    | nil => rfl
    | cons part parts =>
      rw [List.zip_cons_cons, List.zip_cons_cons]
      -- A condition without text is left out on both sides, with its connector.
      by_cases hp : part = ""
      · subst hp
        exact ih parts
      · rw [following_cons_of_ne hp, following_cons_of_ne hp, ih parts, hx]

theorem chain_congr {xs ys : List (Condition Rendering)}
    (h : List.Forall₂ (fun x y => x.isOr = y.isOr) xs ys) (parts : List String) :
    chain (xs.zip parts) = chain (ys.zip parts) := by
  induction h generalizing parts with
  | nil => rfl
  | cons hx hxs ih =>
    cases parts with
    | nil => rfl
    | cons part parts =>
      rw [List.zip_cons_cons, List.zip_cons_cons]
      by_cases hp : part = ""
      · subst hp
        exact ih parts
      · rw [chain_cons_of_ne hp, chain_cons_of_ne hp, following_congr hxs parts]

end Compiler

namespace Tie.Holds

open Compiler

variable {t : Tie} {c d : Compiler} (h : t.Holds c d) {ss ss' : Scopes} (hs : t.scopes ss ss')

include h

theorem rawText (sql : String) {bs cs : List Value} (hb : List.Forall₂ t.bound bs cs) :
    t.Emits Eq (c.rawText sql bs) (d.rawText sql cs) := by
  unfold Compiler.rawText
  rw [h.engine]
  exact (Emits.push hb).bind fun _ _ _ => .pure rfl

include hs

theorem parameters {vs ws : List Value} (hv : List.Forall₂ t.value vs ws) :
    t.Emits Eq (c.parameters ss vs) (d.parameters ss' ws) := by
  refine (Emits.texts hv fun v w hvw => h.parameter hs hvw).andThen fun texts => ?_
  exact .pure rfl

theorem datePart {v w : Value} (hv : t.value v w) (part column operator : String)
    (isNot : Bool) :
    t.Emits Eq (c.datePart ss part column operator v isNot)
      (d.datePart ss' part column operator w isNot) := by
  unfold Compiler.datePart basicDatePart
  rw [h.engine]
  cases d.engine with
  | sqlite =>
    refine (h.parameter hs hv).andThen fun marker => ?_
    split <;> exact .pure rfl
  | _ =>
    refine (h.parameter hs hv).andThen fun marker => ?_
    exact .pure rfl

theorem condition {x y : Condition Rendering} (hx : x.Alike t (Rendering.Alike t) y) :
    t.Emits Eq (c.condition ss x) (d.condition ss' y) := by
  obtain ⟨hp, isOr, isNot⟩ := hx
  simp only [Compiler.condition, h.engine]
  cases hp with
  | compare column operator hv =>
    refine (h.operator operator).lift.andThen fun op => ?_
    refine (h.parameter hs hv).andThen fun marker => ?_
    exact .pure rfl
  | like column operator hv caseSensitive escape =>
    exact h.like hs hv column operator caseSensitive escape isNot
  | datePart part column operator hv =>
    refine (h.operator operator).lift.andThen fun op => ?_
    exact h.datePart hs hv part column op isNot
  | columns first operator second =>
    refine (h.operator operator).lift.andThen fun op => ?_
    exact .pure rfl
  | isNull column => exact .pure rfl
  | truth column value => exact .pure rfl
  | @oneOf column vs ws hv =>
    cases hv with
    | nil => exact .pure rfl
    | cons hv hvs =>
      refine (h.parameters hs (.cons hv hvs)).andThen fun markers => ?_
      exact .pure rfl
  | oneOfQuery column hq =>
    refine (hq.select hs).embed.andThen fun sub => ?_
    exact .pure rfl
  | between column hl hh =>
    refine (h.parameter hs hl).andThen fun low => ?_
    refine (h.parameter hs hh).andThen fun high => ?_
    exact .pure rfl
  | rowsExist hq =>
    refine (hq.select hs).embed.andThen fun sub => ?_
    exact .pure rfl
  | againstQuery column operator hq =>
    refine (h.operator operator).lift.andThen fun op => ?_
    refine (hq.select hs).embed.andThen fun sub => ?_
    exact .pure rfl
  | queryAgainst hq operator hv =>
    refine (h.operator operator).lift.andThen fun op => ?_
    refine (hq.select hs).embed.andThen fun sub => ?_
    refine (h.parameter hs hv).andThen fun marker => ?_
    exact .pure rfl
  | nested hq =>
    refine (hq.conditions hs).andThen fun sql => ?_
    exact .pure rfl
  | raw sql hb =>
    refine (h.rawText sql hb).andThen fun text => ?_
    exact .pure rfl

omit h hs in
theorem forall₂_isOr {xs ys : List (Condition Rendering)}
    (h : List.Forall₂ (Condition.Alike t (Rendering.Alike t)) xs ys) :
    List.Forall₂ (fun x y => x.isOr = y.isOr) xs ys := by
  refine h.imp ?_
  rintro _ _ ⟨_, isOr, isNot⟩
  rfl

theorem conditions {xs ys : List (Condition Rendering)}
    (hx : List.Forall₂ (Condition.Alike t (Rendering.Alike t)) xs ys) :
    t.Emits Eq (c.conditions ss xs) (d.conditions ss' ys) := by
  refine (Emits.texts hx fun x y hxy => h.condition hs hxy).andThen fun parts => ?_
  exact .pure (chain_congr (forall₂_isOr hx) parts)

end Tie.Holds

end SqlDialects
