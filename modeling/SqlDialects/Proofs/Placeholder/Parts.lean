import SqlDialects.Proofs.Placeholder.Conditions

/-! Each part of a select binds its values in the order of its text. -/

namespace SqlDialects

open Script Text

def WritesPart (bound : List Value) (part : Option String) (s : Script) : Prop :=
  Writes bound (part.getD "") s

theorem writesPart_none : WritesPart [] none [] := writes_nil

/-- A part that has a text if it is there. -/
def WritesClause (bound : List Value) (part : Option String) (s : Script) : Prop :=
  WritesPart bound part s ∧ part ≠ some ""

theorem writesClause_none : WritesClause [] none [] := ⟨writesPart_none, by rintro ⟨⟩⟩

theorem WritesClause.absent_or_present {bound : List Value} {part : Option String} {s : Script}
    (h : WritesClause bound part s) :
    (bound = [] ∧ part = none ∧ s = []) ∨
      ∃ t, part = some t ∧ s.isEmpty = false ∧ Writes bound t s := by
  obtain ⟨hw, hne⟩ := h
  cases part with
  | none =>
    obtain ⟨hb, -, hs⟩ := hw.nil_of_isEmpty rfl
    exact .inl ⟨hb, rfl, hs⟩
  | some t =>
    have ht : t ≠ "" := fun h => hne (congrArg some h)
    refine .inr ⟨t, rfl, ?_, hw⟩
    rw [← hw.isEmpty, Option.getD_some]
    simpa using ht

theorem append_ne_empty {lead : String} (h : lead ≠ "") (t : String) :
    some (lead ++ t) ≠ some "" := by
  intro he
  rw [Option.some.injEq, String.append_eq_empty_iff] at he
  exact h he.1

theorem Script.Writes.led {bound : List Value} {lead t : String} {s : Script}
    (h : Writes bound t s) (hl : Unmarked lead) (hne : lead ≠ "") :
    WritesClause (bound ++ []) (if t.isEmpty then none else some (lead ++ t))
      (if s.isEmpty then [] else text lead ++ s) := by
  rw [← h.isEmpty]
  by_cases he : t.isEmpty
  · obtain ⟨rfl, rfl, rfl⟩ := h.nil_of_isEmpty he
    exact writesClause_none
  · rw [if_neg he, if_neg he]
    obtain ⟨rfl, rfl, ha⟩ := h
    refine ⟨⟨by simp, by simp, ?_⟩, append_ne_empty hne _⟩
    simp [hl, ha]

theorem filterMap_parts {parts : List (Option String)} {ss : List Script}
    (h : List.Forall₂ (fun part s => WritesPart s.values part s) parts ss) :
    (parts.filterMap fun part => part.filter (!·.isEmpty)) =
      (ss.filter (!·.isEmpty)).map sql := by
  induction h with
  | nil => rfl
  | @cons part s parts ss hs _ ih =>
    have he := hs.isEmpty
    have hst := hs.sql
    rw [List.filter_cons, List.filterMap_cons, ih]
    cases part with
    | none =>
      have hn : s.isEmpty = true := he.symm
      simp [hn]
    | some t =>
      rw [Option.getD_some] at he hst
      cases ht : t.isEmpty <;> simp [Option.filter, ← he, ht, hst]

theorem flatMap_values_filter (ss : List Script) :
    (ss.filter (!·.isEmpty)).flatMap values = ss.flatMap values := by
  induction ss with
  | nil => rfl
  | cons s ss ih => cases s <;> simp [ih]

theorem writes_joinParts {parts : List (Option String)} {ss : List Script}
    (h : List.Forall₂ (fun part s => WritesPart s.values part s) parts ss) :
    Writes (ss.flatMap values) (Compiler.joinParts parts)
      (Script.join " " (ss.filter (!·.isEmpty))) := by
  refine ⟨?_, ?_, aligned_join (by decide) fun s hs => ?_⟩
  · rw [sql_join, Compiler.joinParts, filterMap_parts h]
  · rw [values_join, flatMap_values_filter]
  · obtain ⟨part, -, hp⟩ := forall₂_mem_right h (List.mem_of_mem_filter hs)
    exact hp.aligned

theorem Script.Writes.part {bound : List Value} {t : String} {s : Script} (h : Writes bound t s) :
    WritesPart s.values (some t) s :=
  ⟨h.sql, rfl, h.aligned⟩

theorem Script.Writes.self {bound : List Value} {t : String} {s : Script} (h : Writes bound t s) :
    Writes s.values t s :=
  ⟨h.sql, rfl, h.aligned⟩

section Lookup

variable {σ : Type} {f : σ → Rendering} {g : σ → Spelling} {t : Terms} {P : σ → Prop}
  {q : Statement σ} {component : Component} {engine : Option Engine}
  {α β γ δ ε : Type} {as? : ClauseKind σ → Option ε} {bs? : ClauseKind Rendering → Option α}
  {ds? : ClauseKind Spelling → Option β} {l : ε → α} {r : ε → β} {A : ε → Prop}
  {S : List Value → γ → δ → Prop}

theorem agrees_getAll (hq : q.Obeys t P) (hl : ∀ k, bs? (k.map f) = (as? k).map l)
    (hr : ∀ k, ds? (k.map g) = (as? k).map r) (hA : ∀ k a, as? k = some a → k.Obeys t P → A a)
    {k : List α → Emit γ} {k' : List β → Except Fault δ}
    (hk : ∀ xs : List ε, (∀ x ∈ xs, A x) → Agrees S (k (xs.map l)) (k' (xs.map r))) :
    Agrees S (Emit.lift ((q.map f).getAll component bs? engine) >>= k)
      ((q.map g).getAll component ds? engine >>= k') := by
  rw [q.getAll_map component engine hl, q.getAll_map component engine hr]
  refine agrees_lift_map (q.ordinary_getAll component as? engine) fun xs hxs => ?_
  exact hk xs (hq.getAll hA hxs)

theorem agrees_getOne (hq : q.Obeys t P) (hl : ∀ k, bs? (k.map f) = (as? k).map l)
    (hr : ∀ k, ds? (k.map g) = (as? k).map r) (hA : ∀ k a, as? k = some a → k.Obeys t P → A a)
    {k : Option α → Emit γ} {k' : Option β → Except Fault δ}
    (hk : ∀ o : Option ε, (∀ x ∈ o, A x) → Agrees S (k (o.map l)) (k' (o.map r))) :
    Agrees S (Emit.lift ((q.map f).getOne component bs? engine) >>= k)
      ((q.map g).getOne component ds? engine >>= k') := by
  rw [q.getOne_map component engine hl, q.getOne_map component engine hr]
  refine agrees_lift_map (q.ordinary_getOne component as? engine) fun o ho => ?_
  refine hk o ?_
  rintro x ⟨⟩
  exact hq.getOne hA ho

end Lookup

namespace Compiler

variable {σ : Type} {c : Compiler} {f : σ → Rendering} {g : σ → Spelling} {scopes : Scopes}

theorem agrees_derived {r : Rendering} {s : Spelling} (h : Faithful r s) {suffix : String}
    (hs : Unmarked suffix) :
    Agrees Writes (do
        let sub ← Emit.embed (r.select scopes)
        return "(" ++ sub ++ ")" ++ suffix)
      (Spell.derived scopes s suffix) := by
  refine (h.select scopes).embed.bind fun _ _ sub hsub => ?_
  obtain ⟨rfl, rfl, ha⟩ := hsub
  refine agrees_pure ⟨by simp [String.append_assoc], by simp, ?_⟩
  simp +decide [ha, hs]

theorem Faithful.unmarked_alias {r : Rendering} {s : Spelling} (h : Faithful r s)
    {aliasName : Option String} (ha : ∀ name ∈ aliasName, Unmarked name) {name : String}
    (hn : aliasName.or r.aliasName = some name) : Unmarked name := by
  rcases Option.or_eq_some_iff.mp hn with hn | ⟨-, hn⟩
  · exact ha name hn
  · exact h.unmarked name hn

theorem unmarked_suffix (c : Compiler) {word name : String} (hw : Unmarked word)
    (hn : Unmarked name) (absent : Bool) :
    Unmarked (if absent then "" else " " ++ word ++ c.engine.wrapValue name) := by
  cases absent <;> simp +decide [hw, c.engine.unmarked_wrapValue hn]

theorem agrees_column (x : Column σ)
    (hx : x.Obeys Terms.unmarked fun n => Faithful (f n) (g n)) :
    Agrees Writes (c.column scopes (x.map f)) (Spell.column c scopes (x.map g)) := by
  cases x with
  | named name => exact agrees_pure (writes_text (c.engine.unmarked_wrap hx))
  | raw sql bindings => exact agrees_rawText hx
  | query n aliasName =>
    obtain ⟨hn, ha⟩ := hx
    simp only [Column.map, column, Spell.column, ← hn.aliasName]
    refine agrees_derived hn ?_
    split
    · next name h =>
      exact c.unmarked_suffix c.engine.unmarked_columnAs (Faithful.unmarked_alias hn ha h) _
    · decide

theorem agrees_columns_list {xs : List (Column σ)}
    (hx : ∀ x ∈ xs, x.Obeys Terms.unmarked fun n => Faithful (f n) (g n)) :
    Agrees WritesAll ((xs.map (·.map f)).mapM (c.column scopes))
      ((xs.map (·.map g)).mapM (Spell.column c scopes)) := by
  rw [List.mapM_map, List.mapM_map]
  exact Agrees.mapM fun x hm => agrees_column x (hx x hm)

theorem unmarked_aggregateCall (c : Compiler) (distinct : Bool) {a : Aggregate}
    (ha : a.Obeys Terms.unmarked) : Unmarked (c.aggregateCall distinct a) := by
  obtain ⟨hf, hcs⟩ := ha
  unfold aggregateCall
  split
  · next name h =>
    have hn := c.engine.unmarked_wrap (hcs name (by simp [h]))
    have hw := c.engine.unmarked_wrapValue hf
    have hu := hf.upper
    have hAs : Unmarked c.dialect.columnAs := c.engine.unmarked_columnAs
    cases distinct <;> simp +decide [hn, hw, hu, hAs]
  · decide

theorem writes_insertTop {bound : List Value} {t : String} {s : Script} (h : Writes bound t s)
    (limit : UInt64) :
    Writes (.uint limit :: bound) (SqlDialects.insertTop t) (Spell.insertTop limit s) := by
  obtain ⟨rfl, rfl, ha⟩ := h
  unfold SqlDialects.insertTop Spell.insertTop
  rw [dropPrefix?_sql, dropPrefix?_sql]
  cases hd : s.dropPrefix? "SELECT DISTINCT" with
  | some rest =>
    refine ⟨?_, ?_, ?_⟩
    · simp [← String.toList_inj]
    · simp [values_dropPrefix? (by decide) hd]
    · simp +decide [ha.dropPrefix? hd]
  | none =>
    cases hs : s.dropPrefix? "SELECT" with
    | some rest =>
      refine ⟨?_, ?_, ?_⟩
      · simp [← String.toList_inj]
      · simp [values_dropPrefix? (by decide) hs]
      · simp +decide [ha.dropPrefix? hs]
    | none =>
      refine ⟨?_, ?_, ?_⟩
      · simp [← String.toList_inj]
      · simp
      · simp +decide [ha]

section Statement

variable {q : Statement σ} (hq : q.Obeys Terms.unmarked fun n => Faithful (f n) (g n))

include hq

theorem agrees_basicColumns :
    Agrees Writes (c.basicColumns scopes (q.map f)) (Spell.basicColumns c scopes (q.map g)) := by
  refine agrees_getOne hq (ClauseKind.aggregate?_map f) (ClauseKind.aggregate?_map g)
    ClauseKind.obeys_aggregate fun o ho => ?_
  cases o with
  | some a => exact agrees_pure (writes_text (c.unmarked_aggregateCall q.distinct (ho a rfl)))
  | none =>
    refine agrees_getAll hq (ClauseKind.column?_map f) (ClauseKind.column?_map g)
      ClauseKind.obeys_column fun xs hx => ?_
    refine (agrees_columns_list hx).bind fun _ _ ss hs => agrees_pure ?_
    obtain ⟨rfl, rfl, ha⟩ := hs
    have hj := aligned_join (show Unmarked ", " by decide) ha
    show Writes _ ("SELECT " ++ (if q.distinct then "DISTINCT " else "") ++ _)
      (text (if q.distinct then "SELECT DISTINCT " else "SELECT ") ++ _)
    cases ss with
    | nil =>
      refine ⟨?_, by simp, ?_⟩
      · cases q.distinct <;> simp
      · cases q.distinct <;> simp +decide
    | cons s ss =>
      refine ⟨?_, by simp [values_join], ?_⟩
      · cases q.distinct <;> simp [sql_join]
      · cases q.distinct <;> simp +decide [hj]

theorem agrees_columns :
    Agrees Writes (c.columns scopes (q.map f)) (Spell.columns c scopes (q.map g)) := by
  have hb : Agrees Writes (c.basicColumns scopes (q.map f))
      (Spell.basicColumns c scopes (q.map g)) := agrees_basicColumns hq
  have hw := q.ordinary_window (some c.engine)
  unfold columns Spell.columns
  rw [Statement.window_map, Statement.window_map]
  generalize c.basicColumns scopes (q.map f) = x at hb ⊢
  generalize Spell.basicColumns c scopes (q.map g) = y at hb ⊢
  obtain ⟨bound, o⟩ := x
  by_cases hl : c.engine = .sqlServer ∧ c.legacyPaging
  · rw [if_pos hl]
    cases o with
    | error e =>
      cases y with
      | error e' =>
        obtain ⟨rfl, he⟩ := hb
        exact agrees_error he
      | ok s => exact hb.elim
    | ok t =>
      cases y with
      | error e => exact hb.elim
      | ok s =>
        cases ho : q.window (some c.engine) with
        | error e =>
          rw [ho] at hw
          show Agrees Writes _ (if _ then _ else _)
          rw [if_pos hl]
          exact agrees_error (hw e rfl)
        | ok w =>
          show Agrees Writes (if _ then _ else _) (if _ then _ else _)
          rw [if_pos hl]
          show Agrees Writes (if _ then _ else _) (pure (if _ then _ else _))
          split
          · exact writes_insertTop hb w.limit
          · exact hb
  · simp only [if_neg hl, bind_pure]
    exact hb

end Statement

theorem agrees_tableExpression (s : Source σ)
    (hs : s.Obeys Terms.unmarked fun n => Faithful (f n) (g n)) :
    Agrees Writes (c.tableExpression scopes (s.map f))
      (Spell.tableExpression c scopes (s.map g)) := by
  cases s with
  | table name => exact agrees_pure (writes_text (c.engine.unmarked_wrap hs))
  | raw sql bindings aliasName => exact agrees_rawText hs.1
  | query n aliasName =>
    obtain ⟨hn, ha⟩ := hs
    simp only [Source.map, tableExpression, Spell.tableExpression, Source.aliasBy, ← hn.aliasName]
    refine agrees_derived hn ?_
    split
    · next name h =>
      exact c.unmarked_suffix c.engine.unmarked_tableAs (Faithful.unmarked_alias hn ha h) _
    · decide

theorem agrees_orderTerm (o : Order) (ho : o.Obeys Terms.unmarked) :
    Agrees Writes (c.orderTerm o) (Spell.orderTerm c o) := by
  cases o with
  | column name ascending =>
    refine agrees_pure (writes_text ((c.engine.unmarked_wrap ho.1).append ?_))
    cases ascending <;> simp +decide
  | raw sql bindings => exact agrees_rawText ho
  | random seed =>
    refine agrees_pure (writes_text ?_)
    have hs : Unmarked seed := ho
    unfold Engine.randomOrder
    split
    · simp +decide [hs]
    · decide
    · decide

theorem agrees_combination (x : Combine σ)
    (hx : x.Obeys Terms.unmarked fun n => Faithful (f n) (g n)) :
    Agrees Writes (c.combination scopes (x.map f)) (Spell.combination c scopes (x.map g)) := by
  cases x with
  | raw sql bindings => exact agrees_rawText hx
  | query operation all n =>
    refine (hx.select scopes).embed.bind fun _ _ s hs => ?_
    obtain ⟨rfl, rfl, ha⟩ := hs
    refine agrees_pure ⟨?_, by simp, ?_⟩
    · cases all <;> simp [← String.toList_inj]
    · cases all <;> cases operation <;> simp +decide [SetOperation.keyword, ha]

theorem agrees_join (j : Join σ) (hj : j.Obeys fun n => Faithful (f n) (g n)) :
    Agrees Writes (join scopes (j.map f)) (Spell.joinClause scopes (j.map g)) := by
  refine (hj.joined scopes).bind fun _ _ s hs => ?_
  obtain ⟨rfl, rfl, ha⟩ := hs
  have hk : Unmarked j.kind.keyword := by cases j.kind <;> decide
  refine agrees_pure ⟨by simp [Join.map], by simp, ?_⟩
  simp +decide [Join.map, hk, ha]

theorem agrees_listed {α β ε : Type} {lead separator : String} (hl : Unmarked lead)
    (hs : Unmarked separator) {xs : List ε} {l : ε → α} {r : ε → β} {render : α → Emit String}
    {write : β → Except Fault Script} (h : ∀ x ∈ xs, Agrees Writes (render (l x)) (write (r x))) :
    Agrees (fun bound part s => WritesPart bound part s ∧ (lead ≠ "" → part ≠ some ""))
      (if (xs.map l).isEmpty then pure none
        else do
          let texts ← (xs.map l).mapM render
          return some (lead ++ separator.intercalate texts))
      (do
        let parts ← (xs.map r).mapM write
        return Spell.listed lead separator parts) := by
  cases xs with
  | nil => exact agrees_pure ⟨writesPart_none, by rintro _ ⟨⟩⟩
  | cons x xs =>
    rw [List.mapM_map, List.mapM_map]
    refine (Agrees.mapM_length h).bind fun _ _ ss hw => ?_
    obtain ⟨⟨rfl, rfl, ha⟩, hn⟩ := hw
    obtain ⟨s, ss, rfl⟩ := List.exists_cons_of_length_eq_add_one hn
    have hj := aligned_join hs ha
    refine agrees_pure ⟨⟨?_, ?_, ?_⟩, ?_⟩
    · simp [Spell.listed, sql_join]
    · simp [Spell.listed, values_join]
    · simp [Spell.listed, hl, hj]
    · exact fun hlead => append_ne_empty hlead _

section Window

variable (w : Window)

theorem agrees_basic : Agrees WritesPart w.basic (.ok (Spell.limitOffset none w)) := by
  unfold Window.basic Spell.limitOffset
  by_cases hl : w.limit = 0
  · by_cases ho : w.offset = 0
    · rw [if_pos hl, if_pos ho]
      show WritesPart [] none _
      simpa [hl, ho] using writesPart_none
    · rw [if_pos hl, if_neg ho]
      show WritesPart [.uint w.offset] (some "OFFSET ?") _
      refine ⟨?_, ?_, ?_⟩ <;> simp +decide [hl, ho]
  · by_cases ho : w.offset = 0
    · rw [if_neg hl, if_pos ho]
      show WritesPart [.uint w.limit] (some "LIMIT ?") _
      refine ⟨?_, ?_, ?_⟩ <;> simp +decide [hl, ho]
    · rw [if_neg hl, if_neg ho]
      show WritesPart [.uint w.limit, .uint w.offset] (some "LIMIT ? OFFSET ?") _
      refine ⟨?_, ?_, ?_⟩ <;> simp +decide [hl, ho]

theorem agrees_withLimit {all : String} (h : Unmarked all) :
    Agrees WritesPart (w.withLimit all) (.ok (Spell.limitOffset (some all) w)) := by
  unfold Window.withLimit
  by_cases hw : w.limit = 0 ∧ w.offset ≠ 0
  · rw [if_pos hw]
    show WritesPart [.uint w.offset] (some ("LIMIT " ++ all ++ " OFFSET ?")) _
    have hn : (text ("LIMIT " ++ all)).isEmpty = false := by simp [text]
    unfold Spell.limitOffset
    refine ⟨?_, ?_, ?_⟩
    · simp [hw, hn]
    · simp [hw, hn]
    · simp +decide [hw, hn, h]
  · have hs : Spell.limitOffset (some all) w = Spell.limitOffset none w := by
      unfold Spell.limitOffset
      by_cases hl : w.limit = 0
      · have ho : w.offset = 0 := by simpa [hl] using hw
        simp [hl, ho]
      · simp [hl]
    rw [if_neg hw, hs]
    exact agrees_basic w

theorem agrees_fetch (ordered : Bool) :
    Agrees WritesPart (w.fetch ordered) (.ok (Spell.fetch ordered w)) := by
  unfold Window.fetch Spell.fetch
  by_cases hn : w.limit = 0 ∧ w.offset = 0
  · rw [if_pos hn, if_pos hn]
    exact writesPart_none
  · rw [if_neg hn, if_neg hn]
    by_cases hl : w.limit = 0
    · rw [if_pos hl, if_pos hl]
      show WritesPart [.uint w.offset] (some (_ ++ "OFFSET ? ROWS")) _
      refine ⟨?_, by simp, ?_⟩
      · cases ordered <;> simp
      · cases ordered <;> simp +decide
    · rw [if_neg hl, if_neg hl]
      show WritesPart [.uint w.offset, .uint w.limit]
        (some (_ ++ "OFFSET ? ROWS FETCH NEXT ? ROWS ONLY")) _
      refine ⟨?_, by simp, ?_⟩
      · cases ordered <;> simp
      · cases ordered <;> simp +decide

end Window

end Compiler

end SqlDialects
