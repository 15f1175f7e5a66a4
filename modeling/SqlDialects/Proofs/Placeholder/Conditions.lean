import SqlDialects.Proofs.Placeholder.Agreement
import SqlDialects.Proofs.Statement.Terms

/-!
Conditions bind their values in the order of their text, if those nested in them do and nothing
but values puts a placeholder into the text.
-/

namespace SqlDialects

open Script Text

/-- No text has a placeholder of its own, but SQL text has one for each binding it brings. -/
def Terms.unmarked : Terms where
  name := Unmarked
  datePart := Unmarked
  function := Unmarked
  seed := Unmarked
  escape := (· ≠ '?')
  value v := ∀ sql, v = .raw sql → Unmarked sql
  raw sql bindings := marks sql = bindings.length

/-- A nested statement is written as it is rendered, in each place. -/
structure Faithful (r : Rendering) (s : Spelling) : Prop where
  aliasName : r.aliasName = s.aliasName
  unmarked : ∀ name ∈ r.aliasName, Unmarked name
  select : ∀ scopes, Transcribes (r.select scopes) (s.select scopes)
  conditions : ∀ scopes, Agrees Writes (r.conditions scopes) (s.conditions scopes)
  joined : ∀ scopes, Agrees Writes (r.joined scopes) (s.joined scopes)

theorem writes_nil : Writes [] "" [] := ⟨rfl, rfl, aligned_nil⟩

theorem writes_text {t : String} (h : Unmarked t) : Writes [] t (text t) :=
  ⟨sql_text t, values_text t, aligned_text.mpr h⟩

theorem Script.Writes.isEmpty {bound : List Value} {t : String} {s : Script}
    (h : Writes bound t s) : t.isEmpty = s.isEmpty := by
  rw [← h.sql, Bool.eq_iff_iff, String.isEmpty_iff, List.isEmpty_iff, sql_eq_empty]

theorem Script.Writes.nil_of_isEmpty {bound : List Value} {t : String} {s : Script}
    (h : Writes bound t s) (he : t.isEmpty) : bound = [] ∧ t = "" ∧ s = [] := by
  have ht := String.isEmpty_iff.mp he
  have hs := sql_eq_empty.mp (h.sql.trans ht)
  refine ⟨?_, ht, hs⟩
  rw [← h.values, hs, values_nil]

@[simp] theorem unmarked_append {a b : String} : Unmarked (a ++ b) ↔ Unmarked a ∧ Unmarked b := by
  simp [Unmarked]

@[simp] theorem sql_negate (isNot : Bool) (s : Script) :
    (Spell.negate isNot s).sql = negate isNot s.sql := by
  cases isNot <;> simp [Spell.negate, negate, String.append_assoc]

@[simp] theorem values_negate (isNot : Bool) (s : Script) :
    (Spell.negate isNot s).values = s.values := by
  cases isNot <;> simp [Spell.negate]

@[simp] theorem aligned_negate (isNot : Bool) (s : Script) :
    (Spell.negate isNot s).Aligned ↔ s.Aligned := by
  cases isNot
  · rfl
  · have ho : Unmarked "NOT (" := by decide
    have hc : Unmarked ")" := by decide
    simp [Spell.negate, ho, hc]

theorem Script.Writes.negate {bound : List Value} {t : String} {s : Script} (h : Writes bound t s)
    (isNot : Bool) : Writes bound (negate isNot t) (Spell.negate isNot s) := by
  obtain ⟨rfl, rfl, ha⟩ := h
  exact ⟨sql_negate isNot s, values_negate isNot s, (aligned_negate isNot s).mpr ha⟩

namespace Compiler

variable {σ : Type} {c : Compiler} {f : σ → Rendering} {g : σ → Spelling}

theorem unmarked_safeOperators : ∀ op ∈ safeOperators, Unmarked op := by decide

theorem unmarked_of_checkOperator (hc : ∀ op ∈ c.operators, Unmarked op) {operator op : String}
    (h : c.checkOperator operator = .ok op) : Unmarked op := by
  simp only [checkOperator] at h
  split at h
  · next ha =>
    cases h
    rcases Bool.or_eq_true_iff.mp ha with hs | ho
    · exact unmarked_safeOperators _ (List.contains_iff_mem.mp hs)
    · exact hc _ (List.contains_iff_mem.mp ho)
  · cases h

theorem agrees_parameter (scopes : Scopes) {v : Value} (hv : Terms.unmarked.value v) :
    Agrees Writes (c.parameter scopes v) (Spell.parameter scopes v) := by
  have hbound (v : Value) :
      Agrees Writes (do
          let bound ← Emit.lift (resolve scopes v)
          Emit.push [bound]
          return c.marker)
        (do
          let bound ← resolve scopes v
          return [.value bound]) := by
    refine agrees_lift (ordinary_resolve scopes v) fun bound _ => ?_
    rw [marker_eq]
    exact ⟨rfl, rfl, aligned_value_cons.mpr aligned_nil⟩
  cases v with
  | raw sql => exact agrees_pure (writes_text (hv sql rfl))
  | _ => exact hbound _

theorem agrees_parameters (scopes : Scopes) {values : List Value}
    (hv : ∀ v ∈ values, Terms.unmarked.value v) :
    Agrees Writes (c.parameters scopes values) (Spell.parameters scopes values) := by
  refine (Agrees.mapM fun v hm => agrees_parameter scopes (hv v hm)).bind fun _ _ ss hs => ?_
  obtain ⟨rfl, rfl, ha⟩ := hs
  refine agrees_pure ⟨sql_join _ _, ?_, aligned_join (by decide) ha⟩
  rw [values_join, List.append_nil]

theorem writes_rawText {sql : String} {bindings : List Value}
    (h : Terms.unmarked.raw sql bindings) :
    Writes bindings (c.engine.wrapIdentifiers sql) (Spell.rawText c sql bindings) := by
  have hm : (c.engine.wrapIdentifiers sql).toList.count '?' = bindings.length :=
    (c.engine.marks_wrapIdentifiers sql).trans h
  obtain ⟨hv, ha⟩ := raw_of_count hm
  refine ⟨?_, hv, ha⟩
  rw [Spell.rawText, sql_raw, String.ofList_toList]

theorem agrees_rawText {sql : String} {bindings : List Value}
    (h : Terms.unmarked.raw sql bindings) :
    Agrees Writes (c.rawText sql bindings) (.ok (Spell.rawText c sql bindings)) := by
  obtain ⟨ht, hv, ha⟩ := writes_rawText (c := c) h
  exact ⟨ht, hv.trans (List.append_nil _).symm, ha⟩

theorem writes_comparison (isNot : Bool) {left operator t : String} {bound : List Value}
    {s : Script} (hl : Unmarked left) (ho : Unmarked operator) (hs : Writes bound t s) :
    Writes (bound ++ []) (negate isNot (left ++ " " ++ operator ++ " " ++ t))
      (Spell.negate isNot (text (left ++ " " ++ operator ++ " ") ++ s)) := by
  obtain ⟨rfl, rfl, ha⟩ := hs
  have hb : Unmarked " " := by decide
  refine Script.Writes.negate ⟨by simp [String.append_assoc], by simp, ?_⟩ isNot
  simp [hl, ho, hb, ha]

theorem writes_parenthesized {lead t : String} {bound : List Value} {s : Script}
    (hl : Unmarked lead) (hs : Writes bound t s) :
    Writes (bound ++ []) (lead ++ t ++ ")") (text lead ++ s ++ text ")") := by
  obtain ⟨rfl, rfl, ha⟩ := hs
  refine ⟨by simp [String.append_assoc], by simp, ?_⟩
  simp +decide [hl, ha]

theorem writes_member (isNot : Bool) {left t : String} {bound : List Value} {s : Script}
    (hl : Unmarked left) (hs : Writes bound t s) :
    Writes (bound ++ []) (left ++ " " ++ (if isNot then "NOT IN" else "IN") ++ " (" ++ t ++ ")")
      (text (left ++ if isNot then " NOT IN (" else " IN (") ++ s ++ text ")") := by
  have hlead : left ++ " " ++ (if isNot then "NOT IN" else "IN") ++ " (" =
      left ++ if isNot then " NOT IN (" else " IN (" := by
    cases isNot <;> simp [← String.toList_inj]
  rw [hlead]
  refine writes_parenthesized ?_ hs
  cases isNot <;> simp +decide [hl]

theorem agrees_datePart (scopes : Scopes) {part column operator : String} {v : Value}
    (hp : Unmarked part) (hn : Unmarked column) (ho : Unmarked operator)
    (hv : Terms.unmarked.value v) (isNot : Bool) :
    Agrees Writes (c.datePart scopes part column operator v isNot)
      (Spell.datePart c scopes part column operator v isNot) := by
  have hw := c.engine.unmarked_wrap hn
  have hu := hp.upper
  unfold datePart basicDatePart Spell.datePart
  generalize c.engine = e at hw ⊢
  cases e with
  | postgres =>
    refine (agrees_parameter scopes hv).bind fun _ _ s hs => ?_
    refine agrees_pure ?_
    dsimp only
    split_ifs
    · exact writes_comparison isNot (hw.append (by decide)) ho hs
    · exact writes_comparison isNot (hw.append (by decide)) ho hs
    · refine writes_comparison isNot ?_ ho hs
      simp +decide [hu, hw]
  | sqlServer =>
    refine (agrees_parameter scopes hv).bind fun _ _ s hs => ?_
    refine agrees_pure ?_
    dsimp only
    split_ifs
    · refine writes_comparison isNot ?_ ho hs
      simp +decide [hu, hw]
    · refine writes_comparison isNot ?_ ho hs
      simp +decide [hu, hw]
  | sqlite =>
    refine (agrees_parameter scopes hv).bind fun _ _ s hs => ?_
    cases hf : timeFormat? part with
    | some format =>
      have hm : Unmarked format := by
        unfold timeFormat? at hf
        split at hf <;> cases hf <;> decide
      obtain ⟨rfl, rfl, ha⟩ := hs
      refine agrees_pure ⟨by simp [String.append_assoc], by simp, ?_⟩
      simp +decide [hw, ho, ha, hm]
    | none => exact agrees_pure (writes_comparison false hw ho hs)
  | _ =>
    refine (agrees_parameter scopes hv).bind fun _ _ s hs => ?_
    obtain ⟨rfl, rfl, ha⟩ := hs
    refine agrees_pure (Script.Writes.negate ⟨by simp [← String.toList_inj], by simp, ?_⟩ isNot)
    simp +decide [hu, hw, ho, ha]

theorem unmarked_likePattern (operator : String) {t : String} (ht : Unmarked t) :
    Unmarked (likePattern operator t).2 := by
  have hw : Unmarked "%" := by decide
  unfold likePattern
  split <;> simp [ht, hw]

theorem unmarked_likeText {scopes : Scopes} {sql t : String} (h : Unmarked sql)
    (ht : likeText scopes (.raw sql) = .ok t) : Unmarked t := by
  cases ht
  exact h

theorem agrees_likeOperand (scopes : Scopes) {v : Value} {pattern : String}
    (h : ∀ sql, v = .raw sql → Unmarked pattern) :
    Agrees Writes (c.likeOperand scopes v pattern) (Spell.likeOperand scopes v pattern) := by
  have hs : Terms.unmarked.value (.string pattern) := by rintro _ ⟨⟩
  cases v with
  | raw sql => exact agrees_pure (writes_text (h sql rfl))
  | _ => exact agrees_parameter scopes hs

theorem agrees_like (hc : ∀ op ∈ c.operators, Unmarked op) (scopes : Scopes)
    {column operator : String} {v : Value} {escape : Option Char} (hn : Unmarked column)
    (hv : Terms.unmarked.value v) (he : ∀ e ∈ escape, e ≠ '?') (caseSensitive isNot : Bool) :
    Agrees Writes (c.like scopes column operator v caseSensitive escape isNot)
      (Spell.like c scopes column operator v caseSensitive escape isNot) := by
  have hw := c.engine.unmarked_wrap hn
  have hname : Unmarked (if caseSensitive then c.engine.wrap column
      else "LOWER(" ++ c.engine.wrap column ++ ")") := by
    split
    · exact hw
    · simp +decide [hw]
  refine agrees_lift (ordinary_likeText scopes v) fun t ht => ?_
  refine agrees_lift (c.ordinary_checkOperator _) fun op hop => ?_
  have ho := unmarked_of_checkOperator hc hop
  refine (agrees_likeOperand scopes ?_).bind fun _ _ s hs => ?_
  · rintro sql rfl
    have hp := unmarked_likePattern operator (unmarked_likeText (hv sql rfl) ht)
    split
    · exact hp
    · exact hp.lower
  · obtain ⟨rfl, rfl, ha⟩ := hs
    cases escape with
    | none =>
      refine agrees_pure ⟨by simp [String.append_assoc], by simp, ?_⟩
      simp +decide [hname, ho, ha]
    | some e =>
      have hq : Unmarked e.toString := by simpa [Unmarked] using (he e rfl).symm
      dsimp only
      generalize e.toString = mark at hq ⊢
      refine agrees_pure ⟨by simp [String.append_assoc], by simp, ?_⟩
      simp +decide [hname, ho, ha, hq]

theorem agrees_condition (hc : ∀ op ∈ c.operators, Unmarked op) (scopes : Scopes)
    (x : Condition σ) (hx : x.Obeys Terms.unmarked fun n => Faithful (f n) (g n)) :
    Agrees Writes (c.condition scopes (x.map f)) (Spell.condition c scopes (x.map g)) := by
  have wrap {name : String} (hn : Unmarked name) : Unmarked (c.engine.wrap name) :=
    c.engine.unmarked_wrap hn
  obtain ⟨p, isOr, isNot⟩ := x
  simp only [condition, Spell.condition, Condition.map]
  cases p with
  | compare column operator value =>
    obtain ⟨hn, -, hv⟩ := hx
    refine agrees_lift (c.ordinary_checkOperator operator) fun op hop => ?_
    refine (agrees_parameter scopes hv).bind fun _ _ s hs => agrees_pure ?_
    exact writes_comparison isNot (wrap hn) (unmarked_of_checkOperator hc hop) hs
  | like column operator value caseSensitive escape =>
    obtain ⟨hn, -, hv, he⟩ := hx
    exact agrees_like hc scopes hn hv he caseSensitive isNot
  | datePart part column operator value =>
    obtain ⟨hp, hn, -, hv⟩ := hx
    refine agrees_lift (c.ordinary_checkOperator operator) fun op hop => ?_
    exact agrees_datePart scopes hp hn (unmarked_of_checkOperator hc hop) hv isNot
  | columns first operator second =>
    obtain ⟨hf, -, hs⟩ := hx
    refine agrees_lift (c.ordinary_checkOperator operator) fun op hop => agrees_pure ?_
    have ho := unmarked_of_checkOperator hc hop
    refine (writes_text ?_).negate isNot
    simp +decide [wrap hf, wrap hs, ho]
  | isNull column =>
    refine agrees_pure ⟨?_, by simp, ?_⟩
    · cases isNot <;> simp [← String.toList_inj]
    · cases isNot <;> simp +decide [wrap hx]
  | truth column value =>
    refine agrees_pure ⟨?_, by simp, ?_⟩
    · cases isNot <;> simp [← String.toList_inj]
    · have hb : Unmarked c.engine.trueText ∧ Unmarked c.engine.falseText := by
        cases c.engine <;> decide
      cases isNot <;> cases value <;> simp +decide [wrap hx, hb]
  | oneOf column values =>
    obtain ⟨hn, hv⟩ := hx
    cases values with
    | nil =>
      refine agrees_pure (writes_text ?_)
      cases isNot <;> simp +decide
    | cons v vs =>
      refine (agrees_parameters scopes hv).bind fun _ _ s hs => ?_
      exact agrees_pure (writes_member isNot (wrap hn) hs)
  | oneOfQuery column n =>
    obtain ⟨hn, hq⟩ := hx
    refine (hq.select scopes).embed.bind fun _ _ s hs => ?_
    exact agrees_pure (writes_member isNot (wrap hn) hs)
  | between column lower higher =>
    obtain ⟨hn, hl, hh⟩ := hx
    refine (agrees_parameter scopes hl).bind fun _ _ low hlow => ?_
    refine (agrees_parameter scopes hh).bind fun _ _ high hhigh => ?_
    obtain ⟨rfl, rfl, hal⟩ := hlow
    obtain ⟨rfl, rfl, hah⟩ := hhigh
    refine agrees_pure ⟨?_, by simp, ?_⟩
    · cases isNot <;> simp [← String.toList_inj]
    · cases isNot <;> simp +decide [wrap hn, hal, hah]
  | rowsExist n =>
    refine (hx.select scopes).embed.bind fun _ _ s hs => ?_
    obtain ⟨rfl, rfl, ha⟩ := hs
    refine agrees_pure ⟨?_, by simp, ?_⟩
    · cases isNot <;> simp [← String.toList_inj]
    · cases isNot <;> simp +decide [ha]
  | againstQuery column operator n =>
    obtain ⟨hn, -, hq⟩ := hx
    refine agrees_lift (c.ordinary_checkOperator operator) fun op hop => ?_
    have ho := unmarked_of_checkOperator hc hop
    refine (hq.select scopes).embed.bind fun _ _ s hs => agrees_pure ?_
    refine (writes_parenthesized ?_ hs).negate isNot
    simp +decide [wrap hn, ho]
  | queryAgainst n operator value =>
    obtain ⟨hq, -, hv⟩ := hx
    refine agrees_lift (c.ordinary_checkOperator operator) fun op hop => ?_
    have ho := unmarked_of_checkOperator hc hop
    refine (hq.select scopes).embed.bind fun _ _ s hs => ?_
    refine (agrees_parameter scopes hv).bind fun _ _ r hr => ?_
    obtain ⟨rfl, rfl, ha⟩ := hs
    obtain ⟨rfl, rfl, har⟩ := hr
    refine agrees_pure ⟨by simp [String.append_assoc], by simp, ?_⟩
    simp +decide [ho, ha, har]
  | nested n =>
    refine (hx.conditions scopes).bind fun _ t s hs => ?_
    by_cases he : t.isEmpty
    · obtain ⟨rfl, rfl, rfl⟩ := hs.nil_of_isEmpty he
      exact agrees_pure writes_nil
    · have hse : s.isEmpty = false := by rw [← hs.isEmpty]; simpa using he
      rw [if_neg he, if_neg (by simp [hse])]
      refine agrees_pure (writes_parenthesized ?_ hs)
      cases isNot <;> simp +decide
  | raw sql bindings =>
    refine (agrees_rawText hx).bind (y := .ok _) (g := fun s => pure _) fun bound _ s hs => ?_
    rw [← List.append_nil bound] at hs
    exact agrees_pure (hs.negate isNot)

def Links (x : Condition Rendering × String) (p : Bool × Script) : Prop :=
  x.1.isOr = p.1 ∧ p.2.sql = x.2 ∧ p.2.Aligned

theorem writes_following {xs : List (Condition Rendering × String)} {ps : List (Bool × Script)}
    (h : List.Forall₂ Links xs ps) :
    Writes (ps.flatMap (·.2.values)) (chain.following xs)
      ((ps.filter (!·.2.isEmpty)).flatMap Spell.connect) := by
  induction h with
  | nil => exact writes_nil
  | @cons x p xs ps hx _ ih =>
    obtain ⟨x, t⟩ := x
    obtain ⟨isOr, s⟩ := p
    obtain ⟨ho, ht, ha⟩ := hx
    dsimp only at ho ht ha
    subst ho ht
    by_cases he : s = []
    · subst he
      exact ih
    · have hn : s.sql ≠ "" := fun h => he (sql_eq_empty.mp h)
      obtain ⟨hs, hv, har⟩ := ih
      rw [following_cons_of_ne hn, List.filter_cons_of_pos (by simpa using he)]
      refine ⟨?_, by simp [Spell.connect, hv], ?_⟩
      · simp [Spell.connect, hs, String.append_assoc]
      · cases x.isOr <;> simp +decide [Spell.connect, ha, har]

theorem writes_chain {xs : List (Condition Rendering × String)} {ps : List (Bool × Script)}
    (h : List.Forall₂ Links xs ps) :
    Writes (ps.flatMap (·.2.values)) (chain xs) (Spell.chain ps) := by
  induction h with
  | nil => exact writes_nil
  | @cons x p xs ps hx hr ih =>
    obtain ⟨x, t⟩ := x
    obtain ⟨isOr, s⟩ := p
    obtain ⟨ho, ht, ha⟩ := hx
    dsimp only at ho ht ha
    subst ho ht
    by_cases he : s = []
    · subst he
      exact ih
    · have hn : s.sql ≠ "" := fun h => he (sql_eq_empty.mp h)
      obtain ⟨hs, hv, har⟩ := writes_following hr
      rw [chain_cons_of_ne hn, Spell.chain, List.filter_cons_of_pos (by simpa using he)]
      exact ⟨by simp [hs], by simp [hv], by simp [ha, har]⟩

theorem agrees_conditions (hc : ∀ op ∈ c.operators, Unmarked op) (scopes : Scopes)
    (xs : List (Condition σ))
    (hx : ∀ x ∈ xs, x.Obeys Terms.unmarked fun n => Faithful (f n) (g n)) :
    Agrees Writes (c.conditions scopes (xs.map (·.map f)))
      (Spell.conditions c scopes (xs.map (·.map g))) := by
  unfold conditions Spell.conditions
  rw [List.mapM_map, List.mapM_map]
  have h := Agrees.mapM_length fun x hm => agrees_condition hc scopes x (hx x hm)
  refine h.bind fun _ _ ss hs => agrees_pure ?_
  obtain ⟨⟨rfl, rfl, ha⟩, hl⟩ := hs
  have hlinks : List.Forall₂ Links ((xs.map (·.map f)).zip (ss.map sql))
      (((xs.map (·.map g)).map (·.isOr)).zip ss) := by
    clear h hx
    induction xs generalizing ss with
    | nil => exact .nil
    | cons x xs ih =>
      obtain ⟨s, ss, rfl⟩ := List.exists_cons_of_length_eq_add_one hl
      refine .cons ⟨rfl, rfl, ha s List.mem_cons_self⟩ (ih ss ?_ ?_)
      · simpa using hl
      · exact fun s hs => ha s (List.mem_cons_of_mem _ hs)
  have hv : (((xs.map (·.map g)).map (·.isOr)).zip ss).flatMap (·.2.values) =
      ss.flatMap values := by
    rw [← List.flatMap_map (fun p : Bool × Script => p.2) values, ← List.unzip_snd, List.unzip_zip]
    simp [hl]
  have h := writes_chain hlinks
  rw [hv] at h
  simpa using h

end Compiler

end SqlDialects
