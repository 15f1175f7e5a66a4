import SqlDialects.Proofs.Placeholder.Parts
import SqlDialects.Proofs.Statement.Building

/-!
Selects bind their values in the order of their text, those whose page is a range of numbered rows
among them. By induction on the nesting this holds of every nested statement in every place.
-/

namespace SqlDialects

open Script Text

namespace Compiler

variable {σ : Type} {c : Compiler} {f : σ → Rendering} {g : σ → Spelling} {scopes : Scopes}
  {q : Statement σ}

section Statement

variable (hc : ∀ op ∈ c.operators, Unmarked op)
  (hq : q.Obeys Terms.unmarked fun n => Faithful (f n) (g n))

include hq

theorem agrees_sourceFor {γ δ : Type} {S : List Value → γ → δ → Prop} (operation : Operation)
    {k : Source Rendering → Emit γ} {k' : Source Spelling → Except Fault δ}
    (hk : ∀ s : Source σ, (s.Obeys Terms.unmarked fun n => Faithful (f n) (g n)) →
      Agrees S (k (s.map f)) (k' (s.map g))) :
    Agrees S (Emit.lift (c.sourceFor operation (q.map f)) >>= k)
      (c.sourceFor operation (q.map g) >>= k') := by
  have hm {τ : Type} (h : σ → τ) :
      c.sourceFor operation (q.map h) = (c.sourceFor operation q).map (Source.map h) := by
    unfold sourceFor
    rw [q.getOne_map _ _ (ClauseKind.source?_map h)]
    cases q.getOne .source ClauseKind.source? (some c.engine) with
    | error e => rfl
    | ok o => cases o <;> rfl
  rw [hm, hm]
  refine agrees_lift_map (c.ordinary_sourceFor operation q) fun s hs => hk s ?_
  unfold sourceFor at hs
  cases ho : q.getOne .source ClauseKind.source? (some c.engine) with
  | error e =>
    rw [ho] at hs
    cases hs
  | ok o =>
    cases o with
    | none =>
      rw [ho] at hs
      cases hs
    | some s' =>
      rw [ho] at hs
      cases hs
      exact hq.getOne ClauseKind.obeys_source ho

theorem agrees_table :
    Agrees Writes (c.table scopes (q.map f)) (Spell.table c scopes (q.map g)) := by
  refine agrees_sourceFor hq .select fun s hs => ?_
  refine (agrees_tableExpression s hs).bind fun _ _ t ht => ?_
  obtain ⟨rfl, rfl, ha⟩ := ht
  refine agrees_pure ⟨by simp, by simp, ?_⟩
  simp +decide [ha]

theorem agrees_joins :
    Agrees WritesPart (c.joins scopes (q.map f)) (Spell.joins c scopes (q.map g)) := by
  refine agrees_getAll hq (ClauseKind.join?_map f) (ClauseKind.join?_map g) ClauseKind.obeys_join
    fun js hj => ?_
  refine Agrees.imp (agrees_listed (by decide) (by decide) fun j hm => ?_) fun _ _ _ h => h.1
  exact agrees_join j (hj j hm)

theorem agrees_groups :
    Agrees WritesPart (c.groups scopes (q.map f)) (Spell.groups c scopes (q.map g)) := by
  refine agrees_getAll hq (ClauseKind.column?_map f) (ClauseKind.column?_map g)
    ClauseKind.obeys_column fun xs hx => ?_
  refine Agrees.imp (agrees_listed (by decide) (by decide) fun x hm => ?_) fun _ _ _ h => h.1
  exact agrees_column x (hx x hm)

theorem agrees_orders :
    Agrees WritesClause (c.orders (q.map f)) (Spell.orders c (q.map g)) := by
  refine agrees_getAll hq (ClauseKind.order?_map f) (ClauseKind.order?_map g)
    ClauseKind.obeys_order fun os ho => ?_
  refine Agrees.imp (agrees_listed (by decide) (by decide) fun o hm => ?_)
    fun _ _ _ h => ⟨h.1, h.2 (by decide)⟩
  exact agrees_orderTerm o (ho o hm)

theorem agrees_combinations :
    Agrees WritesPart (c.combinations scopes (q.map f))
      (Spell.combinations c scopes (q.map g)) := by
  refine agrees_getAll hq (ClauseKind.combine?_map f) (ClauseKind.combine?_map g)
    ClauseKind.obeys_combine fun xs hx => ?_
  have h := agrees_listed (show Unmarked "" by decide) (show Unmarked " " by decide)
    fun x hm => @agrees_combination σ c f g scopes x (hx x hm)
  simp only [String.empty_append] at h
  exact h.imp fun _ _ _ h => h.1

omit hq in
theorem agrees_page (q : Statement σ) :
    Agrees WritesPart (c.page (q.map f)) (Spell.page c (q.map g)) := by
  unfold page Spell.page basicPage
  rw [Statement.window_map, Statement.window_map]
  cases he : c.engine with
  | mySql =>
    exact agrees_lift (q.ordinary_window _) fun w _ => agrees_withLimit w (by decide)
  | sqlite =>
    exact agrees_lift (q.ordinary_window _) fun w _ => agrees_withLimit w (by decide)
  | sqlServer =>
    dsimp only
    split
    · exact agrees_pure writesPart_none
    · rw [Statement.has_map, Statement.has_map]
      exact agrees_lift (q.ordinary_window _) fun w _ => agrees_fetch w _
  | _ => exact agrees_lift (q.ordinary_window _) fun w _ => agrees_basic w

include hc

theorem agrees_filterText :
    Agrees Writes (c.filterText scopes (q.map f)) (Spell.filterText c scopes (q.map g)) := by
  refine agrees_getAll hq (ClauseKind.condition?_map f) (ClauseKind.condition?_map g)
    ClauseKind.obeys_condition fun xs hx => ?_
  exact agrees_conditions hc scopes xs hx

theorem agrees_wheres :
    Agrees WritesClause (c.wheres scopes (q.map f)) (Spell.wheres c scopes (q.map g)) := by
  unfold wheres Spell.wheres
  rw [Statement.has_map, Statement.has_map, Statement.has_map, Statement.has_map]
  split
  · refine (agrees_filterText hc hq).bind fun _ _ s hs => ?_
    obtain ⟨rfl, rfl, ha⟩ := hs
    have ht : Writes s.values (trim s.sql) s.trim := ⟨sql_trim s, values_trim s, ha.trim⟩
    exact agrees_pure (ht.led (by decide) (by decide))
  · exact agrees_pure writesClause_none

theorem agrees_having :
    Agrees WritesClause (c.having scopes (q.map f)) (Spell.having c scopes (q.map g)) := by
  refine agrees_getAll hq (ClauseKind.condition?_map f) (ClauseKind.condition?_map g)
    ClauseKind.obeys_condition fun xs hx => ?_
  cases xs with
  | nil => exact agrees_pure writesClause_none
  | cons x xs =>
    refine (agrees_conditions hc scopes (x :: xs) hx).bind fun _ _ s hs => ?_
    exact agrees_pure (hs.led (by decide) (by decide))

theorem agrees_joinedTable :
    Agrees Writes (c.joinedTable scopes (q.map f)) (Spell.joinedTable c scopes (q.map g)) := by
  refine agrees_sourceFor hq .join fun s hs => ?_
  refine agrees_getAll hq (ClauseKind.condition?_map f) (ClauseKind.condition?_map g)
    ClauseKind.obeys_condition fun xs hx => ?_
  refine (agrees_tableExpression s hs).bind fun _ _ t ht => ?_
  refine (agrees_conditions hc scopes xs hx).bind fun _ _ r hr => agrees_pure ?_
  rw [hr.isEmpty]
  obtain ⟨rfl, rfl, hat⟩ := ht
  obtain ⟨rfl, rfl, har⟩ := hr
  split
  · next he =>
    rw [List.isEmpty_iff] at he
    subst he
    exact ⟨rfl, by simp, hat⟩
  · refine ⟨by simp [String.append_assoc], by simp, ?_⟩
    simp +decide [hat, har]

theorem agrees_selectText :
    Agrees Writes (c.selectText scopes (q.map f)) (Spell.selectText c scopes (q.map g)) := by
  refine (agrees_columns hq).bind fun _ _ _ h₁ => ?_
  refine (agrees_table hq).bind fun _ _ _ h₂ => ?_
  refine (agrees_joins hq).bind fun _ _ _ h₃ => ?_
  refine (agrees_wheres hc hq).bind fun _ _ _ h₄ => ?_
  refine (agrees_groups hq).bind fun _ _ _ h₅ => ?_
  refine (agrees_having hc hq).bind fun _ _ _ h₆ => ?_
  refine (agrees_orders hq).bind fun _ _ _ h₇ => ?_
  refine (agrees_page q).bind fun _ _ _ h₈ => ?_
  refine (agrees_combinations hq).bind fun _ _ _ h₉ => agrees_pure ?_
  have h := writes_joinParts (.cons h₁.part <| .cons h₂.part <| .cons h₃.self <|
    .cons h₄.1.self <| .cons h₅.self <| .cons h₆.1.self <| .cons h₇.1.self <| .cons h₈.self <|
    .cons h₉.self .nil)
  simpa only [List.flatMap_cons, List.flatMap_nil, h₁.values, h₂.values, h₃.values, h₄.1.values,
    h₅.values, h₆.1.values, h₇.1.values, h₈.values, h₉.values] using h

omit hc in
theorem obeys_numberRows {order : Script} (ho : order.Aligned) :
    (numberRows q order.fragment).Obeys Terms.unmarked fun n => Faithful (f n) (g n) := by
  have hm : marks ("ROW_NUMBER() OVER (" ++ order.sql ++ ") AS [row_num]") =
      order.values.length := by
    have hl : marks "ROW_NUMBER() OVER (" = 0 := Unmarked.marks_eq (by decide)
    have hr : marks ") AS [row_num]" = 0 := Unmarked.marks_eq (by decide)
    rw [marks_append, marks_append, hl, hr, count_sql ho]
    omega
  have hadd : (q.addColumn (.raw ("ROW_NUMBER() OVER (" ++ order.sql ++ ") AS [row_num]")
      order.values)).Obeys Terms.unmarked fun n => Faithful (f n) (g n) :=
    Statement.Obeys.add hq hm
  exact hadd.clear .order none

omit hc in
theorem exists_selected (engine : Option Engine) :
    ∃ p : Statement σ, (p.Obeys Terms.unmarked fun n => Faithful (f n) (g n)) ∧
      (if q.has .select engine then q.map f else (q.map f).select ["*"]) = p.map f ∧
      (if q.has .select engine then q.map g else (q.map g).select ["*"]) = p.map g := by
  split
  · exact ⟨q, hq, rfl, rfl⟩
  · refine ⟨q.select ["*"], ?_, (Statement.map_select f q _).symm,
      (Statement.map_select g q _).symm⟩
    refine Statement.Obeys.select hq (fun name hn column hm => Unmarked.expandBraces hn hm) ?_
    intro name hm
    rw [List.mem_singleton.mp hm]
    show Unmarked "*"
    decide

theorem transcribes_basicSelect (outer : Scopes) :
    Transcribes (c.basicSelect (q.map f) outer) (Spell.basicSelect c (q.map g) outer) :=
  (agrees_selectText hc hq).toFragment

theorem transcribes_numberedSelect (outer : Scopes) :
    Transcribes (c.numberedSelect (q.map f) outer) (Spell.numberedSelect c (q.map g) outer) := by
  unfold numberedSelect Spell.numberedSelect
  rw [Statement.window_map, Statement.window_map, Statement.has_map, Statement.has_map]
  refine transcribes_bind (q.ordinary_window _) fun w _ => ?_
  obtain ⟨p, hp, hf, hg⟩ := exists_selected hq (some c.engine)
  dsimp only
  rw [hf, hg]
  have horders := agrees_orders (c := c) hp
  generalize c.orders (p.map f) = x at horders ⊢
  generalize Spell.orders c (p.map g) = y at horders ⊢
  obtain ⟨bound, o⟩ := x
  cases o with
  | error e =>
    cases y with
    | ok s => exact horders.elim
    | error e' =>
      obtain ⟨rfl, he⟩ := horders
      exact transcribes_error he
  | ok part =>
    cases y with
    | error e => exact horders.elim
    | ok s =>
      have ho : Writes bound (part.getD anyOrder) (if s.isEmpty then text anyOrder else s) := by
        rcases horders.absent_or_present with ⟨rfl, rfl, rfl⟩ | ⟨t, rfl, he, hw⟩
        · exact writes_text (by decide)
        · rw [he]
          exact hw
      obtain ⟨ht, hv, ha⟩ := ho
      have hfragment : (⟨part.getD anyOrder, bound⟩ : Fragment) =
          Script.fragment (if s.isEmpty then text anyOrder else s) := by
        rw [← ht, ← hv]
        rfl
      show Transcribes (c.basicSelect (numberRows _ ⟨part.getD anyOrder, bound⟩) outer >>= _)
        (Spell.basicSelect c _ outer >>= _)
      rw [hfragment, ← Statement.map_numberRows, ← Statement.map_numberRows]
      refine (transcribes_basicSelect hc (obeys_numberRows hp ha) outer).bind fun inner hi => ?_
      by_cases hl : w.limit = 0
      · rw [if_pos hl, if_pos hl]
        refine transcribes_ok ⟨?_, ?_, ?_⟩
        · simp [fragment, ← String.toList_inj]
        · simp [fragment]
        · simp +decide [hi]
      · rw [if_neg hl, if_neg hl]
        refine transcribes_ok ⟨?_, ?_, ?_⟩
        · simp [fragment, ← String.toList_inj]
        · simp [fragment]
        · simp +decide [hi]

theorem transcribes_select (outer : Scopes) :
    Transcribes (c.select (q.map f) outer) (Spell.select c (q.map g) outer) := by
  unfold select Spell.select
  rw [Statement.offsetFor_map, Statement.offsetFor_map]
  split
  · refine transcribes_bind (q.ordinary_offsetFor _) fun offset _ => ?_
    split
    · exact transcribes_basicSelect hc hq outer
    · exact transcribes_numberedSelect hc hq outer
  · exact transcribes_basicSelect hc hq outer

end Statement

theorem faithful_rendering (hc : ∀ op ∈ c.operators, Unmarked op) (s : Subquery)
    (hs : s.Obeys Terms.unmarked) : Faithful (c.rendering s) (Spell.spelling c s) := by
  refine Subquery.Obeys.induction (P := fun s => Faithful (c.rendering s) (Spell.spelling c s))
    (fun q hq hn => ?_) s hs
  rw [rendering_of, Spell.spelling_of]
  exact ⟨rfl, hq.1, transcribes_select hc hn, fun scopes => agrees_filterText hc hn,
    fun scopes => agrees_joinedTable hc hn⟩

theorem obeys_faithful (hc : ∀ op ∈ c.operators, Unmarked op) {q : Query}
    (hq : q.Obeys Terms.unmarked) :
    Statement.Obeys Terms.unmarked (fun n => Faithful (c.rendering n) (Spell.spelling c n)) q :=
  Statement.Obeys.imp hq fun n _ hn => faithful_rendering hc n hn

end Compiler

end SqlDialects
