import Mathlib.Data.List.DropRight
import SqlDialects.Proofs.Building.Calls

/-!
What is pending for the next condition. Main statement: a condition is joined with OR if that was
called for since the condition before it, and negated if negation was called for an odd number of
times since then; calls that add no condition leave both as they are pending.
-/

namespace SqlDialects

namespace Call

def condition? : Call → Option (Component × Predicate Subquery)
  | single s => s.condition?
  | _ => none

def isOr : Call → Bool
  | single s => s.isOr
  | _ => false

def isNot : Call → Bool
  | single s => s.isNot
  | _ => false

def sinceCondition (calls : List Call) : List Call := calls.rtakeWhile (·.condition?.isNone)

theorem sinceCondition_concat (calls : List Call) (c : Call) :
    sinceCondition (calls ++ [c]) =
      if c.condition?.isNone then sinceCondition calls ++ [c] else [] :=
  List.rtakeWhile_concat _ _ _

end Call

def Clause.holdsCondition {σ : Type} (c : Clause σ) : Bool := c.kind.condition?.isSome

def Statement.conditions {σ : Type} (q : Statement σ) : List (Clause σ) :=
  q.clauses.filter Clause.holdsCondition

theorem Statement.filter_replaceFirst_sublist {σ : Type} {component : Component}
    {scope : Option Engine} {kind : ClauseKind σ} (h : kind.condition? = none)
    (cs : List (Clause σ)) :
    ((replaceFirst component scope kind cs).filter Clause.holdsCondition).Sublist
      (cs.filter Clause.holdsCondition) := by
  have hnew : ¬Clause.holdsCondition ⟨component, scope, kind⟩ := by simp [Clause.holdsCondition, h]
  induction cs with
  | nil => rw [replaceFirst, List.filter_cons_of_neg hnew]
  | cons c cs ih =>
    rw [replaceFirst]
    split
    · rw [List.filter_cons_of_neg hnew]
      exact (List.sublist_cons_self c cs).filter _
    · simp only [List.filter_cons]
      split
      · exact ih.cons_cons c
      · exact ih

namespace Edit

def isCondition : Edit → Bool
  | add _ kind | replace _ kind => kind.condition?.isSome
  | clear _ _ => false

theorem filter_apply_sublist {e : Edit} (h : e.isCondition = false) (scope : Option Engine)
    (cs : List (Clause Subquery)) :
    ((e.apply scope cs).filter Clause.holdsCondition).Sublist
      (cs.filter Clause.holdsCondition) := by
  cases e with
  | add component kind =>
    have hnew : Clause.holdsCondition ⟨component, scope, kind⟩ = false := h
    simp [apply, hnew]
  | replace component kind =>
    exact Statement.filter_replaceFirst_sublist (by simpa [isCondition] using h) cs
  | clear component engine => exact List.filter_sublist.filter _

theorem filter_foldl_apply_sublist {es : List Edit} (h : ∀ e ∈ es, e.isCondition = false)
    (scope : Option Engine) (cs : List (Clause Subquery)) :
    ((es.foldl (apply scope) cs).filter Clause.holdsCondition).Sublist
      (cs.filter Clause.holdsCondition) := by
  induction es generalizing cs with
  | nil => exact .refl _
  | cons e es ih =>
    obtain ⟨he, hes⟩ := List.forall_mem_cons.mp h
    exact (ih hes _).trans (filter_apply_sublist he scope cs)

end Edit

theorem Query.isCondition_of_mem_edits {s : Step} (h : s.condition? = none)
    (hfree : s.isFree = false) (q : Query) : ∀ e ∈ q.edits s, e.isCondition = false := by
  have hmap {α : Type} {component : Component} {kind : α → ClauseKind Subquery}
      (hkind : ∀ x, (kind x).condition? = none) (xs : List α) :
      ∀ e ∈ xs.map fun x => Edit.add component (kind x), e.isCondition = false := by
    intro e he
    obtain ⟨x, -, rfl⟩ := List.mem_map.mp he
    simp [Edit.isCondition, hkind]
  cases s with
  | filter | having => cases h
  | add | addOrReplace => cases hfree
  | select names => exact hmap (fun _ => rfl) _
  | groupBy names => exact hmap (fun _ => rfl) names
  | orderBy names ascending => exact hmap (fun _ => rfl) names
  | insertRows columns rows returnId =>
    exact List.forall_mem_cons.mpr ⟨rfl, hmap (fun _ => rfl) rows⟩
  | _ => simp [edits, Edit.isCondition, ClauseKind.condition?]

def Call.Ordinary (c : Call) : Prop :=
  ∀ s, c = .single s → s.isSingle = true ∧ s.startsOver = false ∧ s.isFree = false

namespace Draft

section

variable {c : Call} (hc : c.Ordinary) (d : Draft)

include hc

theorem pendingOr_call :
    (d.call c).query.pendingOr = (c.condition?.isNone && (c.isOr || d.query.pendingOr)) := by
  cases c with
  | enter | leave => rfl
  | single s =>
    obtain ⟨hs, hstart, -⟩ := hc s rfl
    exact (d.query.edited_apply hs hstart).pendingOr

theorem pendingNot_call :
    (d.call c).query.pendingNot =
      (c.condition?.isNone && if c.isNot then !d.query.pendingNot else d.query.pendingNot) := by
  cases c with
  | enter | leave => rfl
  | single s =>
    obtain ⟨hs, hstart, -⟩ := hc s rfl
    exact (d.query.edited_apply hs hstart).pendingNot

theorem conditions_call_sublist (h : c.condition? = none) :
    (d.call c).query.conditions.Sublist d.query.conditions := by
  cases c with
  | enter | leave => exact .refl _
  | single s =>
    obtain ⟨hs, hstart, hfree⟩ := hc s rfl
    rw [Statement.conditions, call, (d.query.edited_apply hs hstart).clauses]
    exact Edit.filter_foldl_apply_sublist (Query.isCondition_of_mem_edits h hfree _) _ _

omit hc in
theorem clauses_call_of_condition {component : Component} {p : Predicate Subquery}
    (h : c.condition? = some (component, p)) :
    (d.call c).query.clauses = d.query.clauses ++
      [⟨component, d.query.scope, .condition ⟨p, d.query.pendingOr, d.query.pendingNot⟩⟩] := by
  cases c with
  | enter | leave => cases h
  | single s => cases s <;> cases h <;> rfl

end

theorem pending_run {d : Draft} (hor : d.query.pendingOr = false)
    (hnot : d.query.pendingNot = false) {calls : List Call} (h : ∀ c ∈ calls, c.Ordinary) :
    (d.run calls).query.pendingOr = (Call.sinceCondition calls).any (·.isOr) ∧
    (d.run calls).query.pendingNot =
      ((Call.sinceCondition calls).countP (·.isNot) % 2 == 1) := by
  -- A call is added last, since what is pending is reckoned back from the end.
  induction calls using List.reverseRecOn with
  | nil => exact ⟨hor, hnot⟩
  | append_singleton calls c ih =>
    obtain ⟨hcalls, hlast⟩ := List.forall_mem_append.mp h
    have hc := List.forall_mem_singleton.mp hlast
    obtain ⟨hsinceOr, hsinceNot⟩ := ih hcalls
    rw [run_append, run_cons, run_nil, pendingOr_call hc, pendingNot_call hc, hsinceOr, hsinceNot,
      Call.sinceCondition_concat]
    split
    · next hnone =>
      rw [hnone, Bool.true_and, Bool.true_and, List.any_append, List.countP_append,
        List.countP_singleton]
      refine ⟨by rw [Bool.or_comm, List.any_cons, List.any_nil, Bool.or_false], ?_⟩
      split
      · have hodd (n : Nat) : ((n + 1) % 2 == 1) = !(n % 2 == 1) := by
          rw [Bool.eq_iff_iff]
          simp
          omega
        exact (hodd _).symm
      · rfl
    · next hsome => simp [hsome]

end Draft

/-- A condition takes up what has been called for since the one before it, in whatever scopes that
was. All other calls leave what is pending as it is, but for the calls that make it so. -/
theorem pending_goes_to_next_condition {q : Query} (hor : q.pendingOr = false)
    (hnot : q.pendingNot = false) {steps : List Step}
    (h : ∀ s, .single s ∈ Step.allCalls steps → s.startsOver = false ∧ s.isFree = false) :
    Draft.run ⟨q, []⟩ (Step.allCalls steps) = ⟨q.run steps, []⟩ ∧
    ∀ calls c, calls ++ [c] <+: Step.allCalls steps →
      let before := (Draft.run ⟨q, []⟩ calls).query
      let after := (Draft.run ⟨q, []⟩ (calls ++ [c])).query
      let since := Call.sinceCondition calls
      (∀ component p, c.condition? = some (component, p) →
        after.clauses = before.clauses ++ [⟨component, before.scope,
          .condition ⟨p, since.any (·.isOr), since.countP (·.isNot) % 2 == 1⟩⟩]) ∧
      (c.condition? = none →
        after.conditions.Sublist before.conditions ∧
        (c.isOr = false → after.pendingOr = before.pendingOr) ∧
        (c.isNot = false → after.pendingNot = before.pendingNot)) := by
  refine ⟨Draft.run_allCalls ⟨q, []⟩ steps, fun calls c hprefix => ?_⟩
  have hordinary : ∀ x ∈ calls ++ [c], x.Ordinary := by
    rintro x hx s rfl
    have hmem := hprefix.subset hx
    exact ⟨Step.isSingle_of_mem_allCalls steps hmem, h s hmem⟩
  obtain ⟨hcalls, hlast⟩ := List.forall_mem_append.mp hordinary
  have hc := List.forall_mem_singleton.mp hlast
  have hafter : Draft.run ⟨q, []⟩ (calls ++ [c]) = (Draft.run ⟨q, []⟩ calls).call c :=
    Draft.run_append _ _ _
  obtain ⟨hor, hnot⟩ := Draft.pending_run (d := ⟨q, []⟩) hor hnot hcalls
  dsimp only
  rw [hafter]
  refine ⟨fun component p hp => ?_, fun hnone => ⟨?_, fun hkeep => ?_, fun hkeep => ?_⟩⟩
  · rw [Draft.clauses_call_of_condition _ hp, hor, hnot]
  · exact Draft.conditions_call_sublist hc _ hnone
  · rw [Draft.pendingOr_call hc, hnone, hkeep]
    rfl
  · rw [Draft.pendingNot_call hc, hnone, hkeep]
    rfl

def negatedThrice : List Step :=
  [.orNext, .notNext, .forEngine .mySql [.notThen (.limit 3), .compare "a" "!=" .null],
    .filter (.isNull "b")]

theorem pending_goes_to_next_condition_negatedThrice :
    (∀ s, .single s ∈ Step.allCalls negatedThrice → s.startsOver = false ∧ s.isFree = false) ∧
    (Draft.run {} ((Step.allCalls negatedThrice).take 7)).query.clauses =
      (Draft.run {} ((Step.allCalls negatedThrice).take 6)).query.clauses ++
        [⟨.filter, some .mySql, .condition ⟨.isNull "a", true, true⟩⟩] ∧
    (Query.build negatedThrice).clauses =
      (Draft.run {} ((Step.allCalls negatedThrice).take 8)).query.clauses ++
        [⟨.filter, none, .condition ⟨.isNull "b", false, false⟩⟩] := by
  have h : ∀ s, .single s ∈ Step.allCalls negatedThrice →
      s.startsOver = false ∧ s.isFree = false := by
    intro s hs
    simp [negatedThrice, Step.allCalls, Step.calls, Call.comparison, Value.isNull] at hs
    rcases hs with rfl | rfl | rfl | rfl | rfl | rfl | rfl <;> exact ⟨rfl, rfl⟩
  obtain ⟨hrun, hcalls⟩ := pending_goes_to_next_condition (q := {}) rfl rfl h
  obtain ⟨hfirst, -⟩ := hcalls ((Step.allCalls negatedThrice).take 6)
    (.single (.filter (.isNull "a"))) ⟨[.leave, .single (.filter (.isNull "b"))], rfl⟩
  obtain ⟨hsecond, -⟩ := hcalls ((Step.allCalls negatedThrice).take 8)
    (.single (.filter (.isNull "b"))) ⟨[], rfl⟩
  refine ⟨h, hfirst .filter _ rfl, ?_⟩
  have hquery : (Draft.run {} (Step.allCalls negatedThrice)).query = Query.build negatedThrice :=
    congrArg Draft.query hrun
  rw [← hquery]
  exact hsecond .filter _ rfl

end SqlDialects
