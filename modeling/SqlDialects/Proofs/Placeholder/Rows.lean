import SqlDialects.Compiled
import SqlDialects.Proofs.Placeholder.Selects

/-! Inserts, updates and deletes bind their values in the order of their text. -/

namespace SqlDialects

open Script Text

namespace Compiler

variable {σ : Type} {c : Compiler} {f : σ → Rendering} {g : σ → Spelling} {scopes : Scopes}

theorem unmarked_columnList (c : Compiler) {columns : List String}
    (h : ∀ name ∈ columns, Unmarked name) : Unmarked (c.columnList columns) := by
  refine Unmarked.intercalate (by decide) fun t ht => ?_
  obtain ⟨name, hm, rfl⟩ := List.mem_map.mp ht
  exact c.engine.unmarked_wrap (h name hm)

theorem agrees_row {columns : List String} {values : List Value}
    (hv : ∀ v ∈ values, Terms.unmarked.value v) :
    Agrees Writes (c.row scopes columns values) (Spell.row scopes columns values) := by
  refine agrees_lift (ordinary_checkRow _ _ _) fun _ _ => ?_
  refine (agrees_parameters scopes hv).bind fun _ _ s hs => agrees_pure ?_
  exact writes_parenthesized (by decide) hs

theorem agrees_firstRows {table : Script} (ht : table.Aligned) (i : Insert σ)
    (hi : i.Obeys Terms.unmarked fun n => Faithful (f n) (g n)) :
    Agrees (fun bound => Writes (table.values ++ bound))
      (c.firstRows scopes table.sql (i.map f)) (Spell.firstRows c scopes table (i.map g)) := by
  cases i with
  | values columns values returnId =>
    obtain ⟨hn, hv⟩ := hi
    have hl := c.unmarked_columnList hn
    refine (agrees_row hv).bind fun _ _ s hs => agrees_pure ?_
    obtain ⟨rfl, rfl, ha⟩ := hs
    refine ⟨by simp [String.append_assoc], by simp, ?_⟩
    simp +decide [ht, hl, ha]
  | query columns n =>
    obtain ⟨hn, hq⟩ := hi
    have hl := c.unmarked_columnList hn
    refine (hq.select scopes).embed.bind fun _ _ s hs => agrees_pure ?_
    obtain ⟨rfl, rfl, ha⟩ := hs
    refine ⟨?_, by simp, ?_⟩
    · cases columns <;> simp [← String.toList_inj]
    · cases columns <;> simp +decide [ht, hl, ha]

theorem agrees_nextRow (i : Insert σ)
    (hi : i.Obeys Terms.unmarked fun n => Faithful (f n) (g n)) :
    Agrees Writes (c.nextRow scopes (i.map f)) (Spell.nextRow scopes (i.map g)) := by
  cases i with
  | values columns values returnId => exact agrees_row hi.2
  | query columns n => exact agrees_error (by rintro _ _ ⟨⟩)

theorem agrees_assignment {p : String × Value} (hn : Unmarked p.1)
    (hv : Terms.unmarked.value p.2) :
    Agrees Writes (c.assignment scopes p.1 p.2) (Spell.assignment c scopes p) := by
  have hw := c.engine.unmarked_wrap hn
  refine (agrees_parameter scopes hv).bind fun _ _ s hs => agrees_pure ?_
  obtain ⟨rfl, rfl, ha⟩ := hs
  refine ⟨by simp [String.append_assoc], by simp, ?_⟩
  simp +decide [hw, ha]

theorem wantsId_map {τ : Type} (h : σ → τ) (i : Insert σ) : wantsId (i.map h) = wantsId i := by
  cases i <;> rfl

theorem assignments_map {τ : Type} (h : σ → τ) (component : Component) (q : Statement σ) :
    c.assignments component (q.map h) = c.assignments component q := by
  unfold assignments
  rw [q.getOne_map _ _ (ClauseKind.insert?_map h)]
  cases q.getOne component ClauseKind.insert? (some c.engine) with
  | error e => rfl
  | ok o =>
    cases o with
    | none => rfl
    | some i => cases i <;> rfl

theorem ordinary_assignments (c : Compiler) (component : Component) (q : Statement σ) :
    Ordinary (c.assignments component q) := by
  refine (q.ordinary_getOne _ _ _).bind fun o _ => ?_
  cases o with
  | none => exact ordinary_error (by rintro _ _ ⟨⟩)
  | some i =>
    cases i with
    | query columns n => exact ordinary_error (by rintro _ _ ⟨⟩)
    | values columns values returnId =>
      exact (ordinary_checkRow _ _ _).bind fun _ _ => ordinary_ok _

theorem obeys_assignments {t : Terms} {P : σ → Prop} {q : Statement σ} (hq : q.Obeys t P)
    {component : Component} {columns : List String} {values : List Value}
    (h : c.assignments component q = .ok (columns, values)) :
    (∀ name ∈ columns, t.name name) ∧ ∀ v ∈ values, t.value v := by
  unfold assignments at h
  cases ho : q.getOne component ClauseKind.insert? (some c.engine) with
  | error e =>
    rw [ho] at h
    cases h
  | ok o =>
    rw [ho] at h
    cases o with
    | none => cases h
    | some i =>
      have hi := hq.getOne ClauseKind.obeys_insert ho
      cases i with
      | query _ _ => cases h
      | values columns' values' _ =>
        cases hr : checkRow component columns' values' with
        | error e =>
          simp only [bind, Except.bind, hr] at h
          cases h
        | ok u =>
          simp only [bind, Except.bind, hr] at h
          cases h
          exact hi

section Statement

variable {q : Statement σ} (hc : ∀ op ∈ c.operators, Unmarked op)
  (hq : q.Obeys Terms.unmarked fun n => Faithful (f n) (g n))

include hq

theorem agrees_target (operation : Operation) :
    Agrees Writes (c.target operation (q.map f)) (Spell.target c operation (q.map g)) := by
  refine agrees_sourceFor hq operation fun s hs => ?_
  cases s with
  | table name => exact agrees_pure (writes_text (c.engine.unmarked_wrap hs))
  | raw sql bindings aliasName => exact agrees_rawText hs.1
  | query n aliasName => exact agrees_error (by rintro _ _ ⟨⟩)

theorem agrees_insertText :
    Agrees Writes (c.insertText scopes (q.map f)) (Spell.insert c scopes (q.map g)) := by
  refine (agrees_target hq .insert).bind fun _ _ table ht => ?_
  obtain ⟨rfl, rfl, hta⟩ := ht
  refine agrees_getAll hq (ClauseKind.insert?_map f) (ClauseKind.insert?_map g)
    ClauseKind.obeys_insert fun is hi => ?_
  cases is with
  | nil => exact agrees_error (by rintro _ _ ⟨⟩)
  | cons first rest =>
    refine (agrees_firstRows hta first (hi first List.mem_cons_self)).bind fun _ _ head hh => ?_
    rw [List.mapM_map, List.mapM_map]
    have hrest (i : Insert σ) (hm : i ∈ rest) : Agrees Writes (c.nextRow scopes (i.map f))
        (Spell.nextRow scopes (i.map g)) := agrees_nextRow i (hi i (List.mem_cons_of_mem _ hm))
    refine (Agrees.mapM hrest).bind fun _ _ rows hr => agrees_pure ?_
    obtain ⟨rfl, hv, ha⟩ := hh
    obtain ⟨rfl, rfl, har⟩ := hr
    have hj : (Script.join ", " (head :: rows)).Aligned := by
      refine aligned_join (by decide) fun s hs => ?_
      rcases List.mem_cons.mp hs with rfl | hs
      · exact ha
      · exact har s hs
    have hlast : Unmarked c.dialect.lastId := c.engine.unmarked_lastId
    rw [wantsId_map, wantsId_map]
    refine ⟨?_, ?_, ?_⟩
    · rw [sql_append, sql_join, sql_text]
      split <;> simp [String.append_assoc]
    · rw [values_append, values_join, values_text, List.flatMap_cons, hv]
      simp
    · rw [aligned_append, aligned_text]
      refine ⟨hj, ?_⟩
      split <;> simp +decide [hlast]

include hc

theorem agrees_whereSuffix :
    Agrees Writes (c.whereSuffix scopes (q.map f)) (Spell.whereSuffix c scopes (q.map g)) := by
  refine (agrees_wheres hc hq).bind fun _ part s hs => ?_
  rcases hs.absent_or_present with ⟨rfl, rfl, rfl⟩ | ⟨t, rfl, he, rfl, rfl, ha⟩
  · exact agrees_pure writes_nil
  · rw [he]
    exact agrees_pure ⟨by simp, by simp, by simp +decide [ha]⟩

theorem agrees_updateText (component : Component) :
    Agrees Writes (c.updateText scopes component (q.map f))
      (Spell.update c scopes component (q.map g)) := by
  refine (agrees_target hq .update).bind fun _ _ table ht => ?_
  rw [assignments_map, assignments_map]
  refine agrees_lift (c.ordinary_assignments component q) fun p hp => ?_
  obtain ⟨columns, values⟩ := p
  obtain ⟨hn, hv⟩ := obeys_assignments hq hp
  have hset (p : String × Value) (hm : p ∈ columns.zip values) :
      Agrees Writes (c.assignment scopes p.1 p.2) (Spell.assignment c scopes p) :=
    agrees_assignment (hn _ (List.of_mem_zip hm).1) (hv _ (List.of_mem_zip hm).2)
  refine (Agrees.mapM hset).bind fun _ _ sets hs => ?_
  refine (agrees_whereSuffix hc hq).bind fun _ _ suffix hw => agrees_pure ?_
  obtain ⟨rfl, rfl, hta⟩ := ht
  obtain ⟨rfl, rfl, hsa⟩ := hs
  obtain ⟨rfl, rfl, hwa⟩ := hw
  have hj := aligned_join (show Unmarked ", " by decide) hsa
  refine ⟨?_, ?_, ?_⟩
  · simp [sql_join, String.append_assoc]
  · simp [values_join]
  · simp +decide [hta, hj, hwa]

theorem agrees_deleteText :
    Agrees Writes (c.deleteText scopes (q.map f)) (Spell.delete c scopes (q.map g)) := by
  refine (agrees_target hq .delete).bind fun _ _ table ht => ?_
  refine (agrees_whereSuffix hc hq).bind fun _ _ suffix hw => agrees_pure ?_
  obtain ⟨rfl, rfl, hta⟩ := ht
  obtain ⟨rfl, rfl, hwa⟩ := hw
  refine ⟨by simp [String.append_assoc], by simp, ?_⟩
  simp +decide [hta, hwa]

end Statement

end Compiler

end SqlDialects
