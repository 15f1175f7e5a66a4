import SqlDialects.Proofs.Engines.Requote
import SqlDialects.Proofs.Operator.Vetted
import SqlDialects.Proofs.Twin.Conditions

/-!
Statements that leave nothing to what an engine does in its own way. Looking a clause up finds the
same for every engine, and a condition is rendered as for the generic one, in the engine's quotes.
-/

namespace SqlDialects

open Text

variable {σ : Type}

def Fragment.requote (e : Engine) (f : Fragment) : Fragment := ⟨e.requote f.sql, f.bindings⟩

namespace Emit

variable {α β γ δ : Type} {m : α → β} {n : γ → δ}

/-- The second rendering is the first one, with another form of what is rendered. -/
def Mirrors (m : α → β) (x : Emit α) (y : Emit β) : Prop := y = m <$> x

theorem mirrors_pure {a : α} {b : β} (h : b = m a) : (pure a : Emit α).Mirrors m (pure b) := by
  rw [Mirrors, map_pure, h]

theorem Mirrors.bind {x : Emit α} {y : Emit β} {k : α → Emit γ} {k' : β → Emit δ}
    (h : x.Mirrors m y) (hk : ∀ a, (k a).Mirrors n (k' (m a))) :
    (x >>= k).Mirrors n (y >>= k') := by
  rw [Mirrors, h, bind_map_left, map_bind]
  exact bind_congr hk

theorem mirrors_lift {x : Except Fault α} {k : α → Emit γ} {k' : α → Emit δ}
    (hk : ∀ a, x = .ok a → (k a).Mirrors n (k' a)) :
    (lift x >>= k).Mirrors n (lift x >>= k') := by
  cases x with
  | error e => rfl
  | ok a => exact hk a rfl

theorem mirrors_id (x : Emit α) : x.Mirrors id x := (id_map x).symm

theorem Mirrors.mapM {xs : List α} {k : α → Emit γ} {k' : α → Emit δ}
    (h : ∀ x ∈ xs, (k x).Mirrors n (k' x)) : (xs.mapM k).Mirrors (List.map n) (xs.mapM k') := by
  induction xs with
  | nil => exact mirrors_pure rfl
  | cons x xs ih =>
    rw [List.mapM_cons, List.mapM_cons]
    refine (h x List.mem_cons_self).bind fun y => ?_
    exact (ih fun x hx => h x (List.mem_cons_of_mem _ hx)).bind fun ys => mirrors_pure rfl

theorem mirrors_embed {e : Engine} {x y : Except Fault Fragment}
    (h : y = x.map (Fragment.requote e)) : (embed x).Mirrors e.requote (embed y) := by
  subst h
  cases x with
  | error e => rfl
  | ok f => exact Emit.ext (List.append_nil _).symm rfl

theorem Mirrors.toFragment {e : Engine} {x y : Emit String} (h : x.Mirrors e.requote y) :
    y.toFragment = x.toFragment.map (Fragment.requote e) := by
  obtain ⟨bound, outcome⟩ := x
  cases outcome with
  | error e =>
    rw [h]
    rfl
  | ok sql =>
    have hmap : e.requote <$> (⟨bound, .ok sql⟩ : Emit String) = ⟨bound, .ok (e.requote sql)⟩ :=
      Emit.ext (List.append_nil _) rfl
    rw [h, hmap]
    rfl

end Emit

section Unscoped

namespace Statement

def Unscoped (q : Statement σ) : Prop := ∀ d ∈ q.clauses, d.engine = none

variable {α : Type} {q : Statement σ} (h : q.Unscoped) (component : Component) (e : Engine)

include h

theorem Unscoped.bucket : q.bucket component (some e) = q.bucket component none := by
  refine List.filter_congr fun d hd => ?_
  simp [Clause.visible, h d hd]

theorem Unscoped.has : q.has component (some e) = q.has component none := by
  rw [Bool.eq_iff_iff, has_eq_true_iff, has_eq_true_iff, h.bucket]

theorem Unscoped.getAll (as? : ClauseKind σ → Option α) :
    q.getAll component as? (some e) = q.getAll component as? none := by
  rw [Statement.getAll, h.bucket, Statement.getAll]

theorem Unscoped.getOne (as? : ClauseKind σ → Option α) :
    q.getOne component as? (some e) = q.getOne component as? none := by
  have hchoose : choose (some e) (q.bucket component none) =
      choose none (q.bucket component none) := by
    have hnone : (q.bucket component none).find? (fun d => d.engine == some e) = none := by
      refine List.find?_eq_none.mpr fun d hd => ?_
      simp [h d (mem_bucket.mp hd).1]
    have hfalse : (q.bucket component none).find? (fun _ => false) = none :=
      List.find?_eq_none.mpr (by simp)
    simp only [choose, Option.isSome_some, Option.isSome_none, Bool.true_and, Bool.false_and, hnone,
      hfalse]
  rw [Statement.getOne, h.bucket, hchoose, Statement.getOne]

theorem Unscoped.window : q.window (some e) = q.window none := by
  rw [Statement.window, Statement.limitFor, Statement.offsetFor, h.getOne, h.getOne,
    Statement.window, Statement.limitFor, Statement.offsetFor]

end Statement

end Unscoped

def Engine.shares (e : Engine) : ClauseKind σ → Bool
  | .condition ⟨.datePart _ _ _ _, _, _⟩ => false
  | .condition ⟨.truth _ _, _, _⟩ => e != .sqlite
  | .order (.random _) => e != .mySql
  | .insert (.values _ _ returnId) => !returnId
  | _ => true

/-- Texts that come from outside have no marks that engines quote with in their own way. -/
def Terms.neutral (e : Engine) : Terms where
  name text := e.Neutral text.toList
  operator text := e.Neutral text.toList
  function text := e.Neutral text.toList
  escape mark := e.Neutral [mark]
  value v := ∀ sql, v = .raw sql → e.Neutral sql.toList
  raw sql _ := e.Neutral sql.toList

structure Rendering.Mirrors (e : Engine) (place : Place) (r r' : Rendering) : Prop where
  aliasName : r'.aliasName = r.aliasName
  neutral : ∀ name ∈ r.aliasName, e.Neutral name.toList
  select : place = .select → ∀ ss, r'.select ss = (r.select ss).map (Fragment.requote e)
  conditions : place = .group → ∀ ss, (r.conditions ss).Mirrors e.requote (r'.conditions ss)
  joined : place = .joined → ∀ ss, (r.joined ss).Mirrors e.requote (r'.joined ss)

theorem Rendering.Mirrors.names {e : Engine} {place : Place} {r r' : Rendering}
    (hr : r.Mirrors e place r') {aliasName : Option String}
    (ha : ∀ name ∈ aliasName, e.Neutral name.toList) :
    ∀ name ∈ aliasName.or r.aliasName, e.Neutral name.toList := by
  intro name hname
  rcases Option.or_eq_some_iff.mp hname with h | ⟨-, h⟩
  · exact ha name h
  · exact hr.neutral name h

/-- A clause that is rendered alike, if its nested statements are. -/
structure ClauseKind.Shared (e : Engine) (f g : σ → Rendering) (k : ClauseKind σ) : Prop where
  shares : e.shares k = true
  terms : k.Obeys (Terms.neutral e) fun _ => True
  parts : ∀ n ∈ k.parts, (f n.2).Mirrors e n.1 (g n.2)

def Compiler.on (c : Compiler) (e : Engine) : Compiler := { c with engine := e }

namespace Compiler

variable {c : Compiler} {e : Engine} (he : e ∈ Engine.kin) {f g : σ → Rendering} (ss : Scopes)

theorem columnAs_on (c : Compiler) (e : Engine) : (c.on e).dialect.columnAs = "AS " := by
  unfold dialect on
  cases e <;> rfl

theorem tableAs_on (c : Compiler) (e : Engine) : (c.on e).dialect.tableAs = "AS " := by
  unfold dialect on
  cases e <;> rfl

section Names

include he

theorem wrap_on {name : String} (h : e.Neutral name.toList) :
    (c.on e).engine.wrap name = e.requote ((c.on .generic).engine.wrap name) :=
  Engine.wrap_requote he h

theorem wrapValue_on {name : String} (h : e.Neutral name.toList) :
    (c.on e).engine.wrapValue name = e.requote ((c.on .generic).engine.wrapValue name) :=
  Engine.wrapValue_requote he h

end Names

theorem mirrors_parameter {v : Value} (hv : (Terms.neutral e).value v) :
    ((c.on .generic).parameter ss v).Mirrors e.requote ((c.on e).parameter ss v) := by
  have hmarker : (c.on e).marker = e.requote (c.on .generic).marker := by
    rw [marker_eq, marker_eq]
    exact (Engine.requote_unquoted (by decide)).symm
  cases v with
  | raw sql => exact Emit.mirrors_pure (Engine.requote_of_neutral (hv sql rfl)).symm
  | _ =>
    refine Emit.mirrors_lift fun bound _ => ?_
    exact (Emit.mirrors_id _).bind fun _ => Emit.mirrors_pure hmarker

theorem mirrors_parameters {vs : List Value} (hv : ∀ v ∈ vs, (Terms.neutral e).value v) :
    ((c.on .generic).parameters ss vs).Mirrors e.requote ((c.on e).parameters ss vs) := by
  refine (Emit.Mirrors.mapM fun v hm => mirrors_parameter ss (hv v hm)).bind fun markers => ?_
  exact Emit.mirrors_pure (Engine.requote_intercalate (by decide) markers).symm

theorem mirrors_checkOperator {operator : String} (ho : e.Neutral operator.toList) {α β : Type}
    {m : α → β} {k : String → Emit α} {k' : String → Emit β}
    (hk : ∀ op, e.requote op = op → (k op).Mirrors m (k' op)) :
    (Emit.lift ((c.on .generic).checkOperator operator) >>= k).Mirrors m
      (Emit.lift ((c.on e).checkOperator operator) >>= k') := by
  show Emit.Mirrors m _ (Emit.lift ((c.on .generic).checkOperator operator) >>= k')
  refine Emit.mirrors_lift fun op hop => hk op ?_
  rw [(checkOperator_eq_ok hop).1]
  rcases ho with ho | ⟨ho, -⟩
  · exact Engine.requote_of_opening ho _
  · exact Engine.requote_unquoted fun h => ho ((mem_lower (by decide) operator).mp h)

theorem mirrors_likeOperand {v : Value} {pattern : String}
    (h : ∀ sql, v = .raw sql → e.requote pattern = pattern) :
    ((c.on .generic).likeOperand ss v pattern).Mirrors e.requote
      ((c.on e).likeOperand ss v pattern) := by
  have hs : (Terms.neutral e).value (.string pattern) := by rintro _ ⟨⟩
  cases v with
  | raw sql => exact Emit.mirrors_pure (h sql rfl).symm
  | _ => exact mirrors_parameter ss hs

theorem requote_likePattern (operator : String) {sql text : String} (h : e.Neutral sql.toList)
    (ht : likeText ss (.raw sql) = .ok text) (caseSensitive : Bool) :
    e.requote (if caseSensitive then (likePattern operator text).2
        else lower (likePattern operator text).2) =
      if caseSensitive then (likePattern operator text).2
        else lower (likePattern operator text).2 := by
  cases ht
  rcases h with h | ⟨h, -⟩
  · exact Engine.requote_of_opening h _
  · have hpattern : '"' ∉ (likePattern operator sql).2.toList := by
      unfold likePattern
      split <;> simp [h]
    refine Engine.requote_unquoted ?_
    split
    · exact hpattern
    · rwa [mem_lower (by decide)]

include he

theorem mirrors_like {column operator : String} {v : Value} {escape : Option Char}
    (hn : e.Neutral column.toList) (ho : e.Neutral operator.toList) (hv : (Terms.neutral e).value v)
    (hm : ∀ mark ∈ escape, e.Neutral [mark]) (caseSensitive isNot : Bool) :
    ((c.on .generic).like ss column operator v caseSensitive escape isNot).Mirrors e.requote
      ((c.on e).like ss column operator v caseSensitive escape isNot) := by
  unfold like
  refine Emit.mirrors_lift fun text ht => ?_
  have hop : e.Neutral (likePattern operator text).1.toList := by
    rcases likePattern_cases operator text with h | ⟨-, h⟩
    · rwa [h]
    · rw [h]
      exact Engine.neutral_of_not_mem he (by decide)
  have hpattern (sql : String) (h : v = .raw sql) :=
    requote_likePattern ss operator (hv sql h) (h ▸ ht) caseSensitive
  revert hop hpattern
  generalize likePattern operator text = x
  obtain ⟨op, pattern⟩ := x
  intro hop hpattern
  refine mirrors_checkOperator hop fun op hop => ?_
  refine (mirrors_likeOperand ss hpattern).bind fun right => Emit.mirrors_pure ?_
  rw [wrap_on he hn]
  cases escape with
  | none =>
    cases caseSensitive <;>
      simp +decide [Engine.requote_append, Engine.requote_negate, Engine.requote_unquoted, hop]
  | some mark =>
    have hmark : e.requote mark.toString = mark.toString :=
      Engine.requote_of_neutral (by simpa using hm mark rfl)
    dsimp only
    generalize mark.toString = escape at hmark ⊢
    cases caseSensitive <;>
      simp +decide [Engine.requote_append, Engine.requote_negate, Engine.requote_unquoted, hop,
        hmark]

theorem mirrors_rawText {sql : String} (h : e.Neutral sql.toList) (bindings : List Value) :
    ((c.on .generic).rawText sql bindings).Mirrors e.requote ((c.on e).rawText sql bindings) := by
  refine (Emit.mirrors_id _).bind fun _ => ?_
  exact Emit.mirrors_pure (Engine.wrapIdentifiers_requote he h)

theorem mirrors_condition {x : Condition σ} (hx : (ClauseKind.condition x).Shared e f g) :
    ((c.on .generic).condition ss (x.map f)).Mirrors e.requote
      ((c.on e).condition ss (x.map g)) := by
  obtain ⟨hshares, hterms, hparts⟩ := hx
  obtain ⟨p, isOr, isNot⟩ := x
  simp only [condition, Condition.map]
  cases p with
  | compare column operator value =>
    obtain ⟨hn, ho, hv⟩ := hterms
    refine mirrors_checkOperator ho fun op hop => ?_
    refine (mirrors_parameter ss hv).bind fun marker => Emit.mirrors_pure ?_
    rw [wrap_on he hn]
    simp +decide [Engine.requote_append, Engine.requote_negate, Engine.requote_unquoted, hop]
  | like column operator value caseSensitive escape =>
    obtain ⟨hn, ho, hv, hm⟩ := hterms
    exact mirrors_like he ss hn ho hv hm caseSensitive isNot
  | datePart part column operator value => cases hshares
  | columns first operator second =>
    obtain ⟨hf, ho, hs⟩ := hterms
    refine mirrors_checkOperator ho fun op hop => Emit.mirrors_pure ?_
    rw [wrap_on he hf, wrap_on he hs]
    simp +decide [Engine.requote_append, Engine.requote_negate, Engine.requote_unquoted, hop]
  | isNull column =>
    refine Emit.mirrors_pure ?_
    rw [wrap_on he hterms]
    cases isNot <;> simp +decide [Engine.requote_append, Engine.requote_unquoted]
  | truth column value =>
    have htexts : ∀ e ∈ Engine.kin, e ≠ .sqlite →
        e.trueText = "true" ∧ e.falseText = "false" := by decide
    obtain ⟨htrue, hfalse⟩ := htexts e he (by simpa [Engine.shares] using hshares)
    have hvalue : (if value then (c.on e).engine.trueText else (c.on e).engine.falseText) =
        e.requote (if value then "true" else "false") := by
      cases value
      · exact hfalse.trans (Engine.requote_unquoted (by decide)).symm
      · exact htrue.trans (Engine.requote_unquoted (by decide)).symm
    refine Emit.mirrors_pure ?_
    rw [wrap_on he hterms, hvalue]
    cases isNot <;>
      simp +decide [Engine.requote_append, Engine.requote_unquoted, on, Engine.trueText,
        Engine.falseText]
  | oneOf column values =>
    dsimp only [Predicate.map]
    split
    · refine Emit.mirrors_pure ?_
      cases isNot <;> simp +decide [Engine.requote_unquoted]
    · refine (mirrors_parameters ss hterms.2).bind fun markers => Emit.mirrors_pure ?_
      rw [wrap_on he hterms.1]
      cases isNot <;> simp +decide [Engine.requote_append, Engine.requote_unquoted]
  | oneOfQuery column query =>
    refine (Emit.mirrors_embed ((hparts _ (.head _)).select rfl ss)).bind fun sub => ?_
    refine Emit.mirrors_pure ?_
    rw [wrap_on he hterms.1]
    cases isNot <;> simp +decide [Engine.requote_append, Engine.requote_unquoted]
  | between column lower higher =>
    obtain ⟨hn, hl, hh⟩ := hterms
    refine (mirrors_parameter ss hl).bind fun low => ?_
    refine (mirrors_parameter ss hh).bind fun high => Emit.mirrors_pure ?_
    rw [wrap_on he hn]
    cases isNot <;> simp +decide [Engine.requote_append, Engine.requote_unquoted]
  | rowsExist query =>
    refine (Emit.mirrors_embed ((hparts _ (.head _)).select rfl ss)).bind fun sub => ?_
    refine Emit.mirrors_pure ?_
    cases isNot <;> simp +decide [Engine.requote_append, Engine.requote_unquoted]
  | againstQuery column operator query =>
    obtain ⟨hn, ho, -⟩ := hterms
    refine mirrors_checkOperator ho fun op hop => ?_
    refine (Emit.mirrors_embed ((hparts _ (.head _)).select rfl ss)).bind fun sub => ?_
    refine Emit.mirrors_pure ?_
    rw [wrap_on he hn]
    simp +decide [Engine.requote_append, Engine.requote_negate, Engine.requote_unquoted, hop]
  | queryAgainst query operator value =>
    obtain ⟨-, ho, hv⟩ := hterms
    refine mirrors_checkOperator ho fun op hop => ?_
    refine (Emit.mirrors_embed ((hparts _ (.head _)).select rfl ss)).bind fun sub => ?_
    refine (mirrors_parameter ss hv).bind fun marker => Emit.mirrors_pure ?_
    simp +decide [Engine.requote_append, Engine.requote_negate, Engine.requote_unquoted, hop]
  | nested query =>
    refine ((hparts _ (.head _)).conditions rfl ss).bind fun sql => Emit.mirrors_pure ?_
    rw [Engine.isEmpty_requote]
    split
    · rfl
    · cases isNot <;> simp +decide [Engine.requote_append, Engine.requote_unquoted]
  | raw sql bindings =>
    refine (mirrors_rawText he hterms bindings).bind fun text => ?_
    exact Emit.mirrors_pure (Engine.requote_negate isNot text).symm

section Chain

omit he

theorem following_requote (xs : List (Condition Rendering)) (parts : List String) :
    chain.following (xs.zip (parts.map e.requote)) =
      e.requote (chain.following (xs.zip parts)) := by
  induction xs generalizing parts with
  | nil => rfl
  | cons x xs ih =>
    cases parts with
    | nil => rfl
    | cons part parts =>
      rw [List.map_cons, List.zip_cons_cons, List.zip_cons_cons]
      by_cases hp : part = ""
      · subst hp
        exact ih parts
      · have hr : e.requote part ≠ "" := fun h => hp (Engine.requote_eq_empty.mp h)
        rw [following_cons_of_ne hr, following_cons_of_ne hp, ih parts]
        cases x.isOr <;> simp +decide [Engine.requote_append, Engine.requote_unquoted]

theorem chain_requote (xs : List (Condition Rendering)) (parts : List String) :
    chain (xs.zip (parts.map e.requote)) = e.requote (chain (xs.zip parts)) := by
  induction xs generalizing parts with
  | nil => rfl
  | cons x xs ih =>
    cases parts with
    | nil => rfl
    | cons part parts =>
      rw [List.map_cons, List.zip_cons_cons, List.zip_cons_cons]
      by_cases hp : part = ""
      · subst hp
        exact ih parts
      · have hr : e.requote part ≠ "" := fun h => hp (Engine.requote_eq_empty.mp h)
        rw [chain_cons_of_ne hr, chain_cons_of_ne hp, following_requote xs parts,
          Engine.requote_append]

end Chain

theorem mirrors_conditions {xs : List (Condition σ)}
    (hx : ∀ x ∈ xs, (ClauseKind.condition x).Shared e f g) :
    ((c.on .generic).conditions ss (xs.map (·.map f))).Mirrors e.requote
      ((c.on e).conditions ss (xs.map (·.map g))) := by
  have hconnectors : List.Forall₂ (fun x y => x.isOr = y.isOr) (xs.map (·.map g))
      (xs.map (·.map f)) := by
    rw [List.forall₂_map_left_iff, List.forall₂_map_right_iff, List.forall₂_same]
    exact fun x _ => rfl
  unfold conditions
  rw [List.mapM_map, List.mapM_map]
  refine (Emit.Mirrors.mapM fun x hm => mirrors_condition he ss (hx x hm)).bind fun parts => ?_
  refine Emit.mirrors_pure ?_
  rw [chain_congr hconnectors, chain_requote]

end Compiler

end SqlDialects
