import SqlDialects.Statement.Step

/-!
The calls that a list of steps comes to, one after the other. A step that is made of others is
taken apart, and building for one engine becomes what stands between entering its scope and leaving
it. Main statement: the calls build what the steps build.
-/

namespace SqlDialects

inductive Call where
  | enter (engine : Engine)
  | leave
  /-- A step that is not made of others. -/
  | single (s : Step)

/-- A comparison with null comes to a test for null, and to a negation before it if the operator is
one for inequality. -/
def Call.comparison (test : Predicate Subquery → Step) (column operator : String)
    (value : Value) : List Call :=
  if value.isNull then
    if operator = "!=" ∨ operator = "<>" then [.single .notNext, .single (test (.isNull column))]
    else [.single (test (.isNull column))]
  else [.single (test (.compare column operator value))]

namespace Step

mutual

def calls : Step → List Call
  | .forPage page perPage =>
    [.single (.limit perPage), .single (.offset (saturate ((page.toNat - 1) * perPage.toNat)))]
  | .orThen s => .single .orNext :: s.calls
  | .notThen s => .single .notNext :: s.calls
  | .compare name operator value => Call.comparison .filter name operator value
  | .compareHaving name operator value => Call.comparison .having name operator value
  | .forEngine engine steps => .enter engine :: (allCalls steps ++ [.leave])
  | s => [.single s]

def allCalls : List Step → List Call
  | [] => []
  | s :: steps => s.calls ++ allCalls steps

end

def isSingle : Step → Bool
  | .forPage _ _ | .orThen _ | .notThen _ | .compare _ _ _ | .compareHaving _ _ _
  | .forEngine _ _ => false
  | _ => true

def startsOver : Step → Bool
  | .table _ => true
  | _ => false

def condition? : Step → Option (Component × Predicate Subquery)
  | .filter p => some (.filter, p)
  | .having p => some (.having, p)
  | _ => none

def isOr : Step → Bool
  | .orNext => true
  | _ => false

def isNot : Step → Bool
  | .notNext => true
  | _ => false

def isFree : Step → Bool
  | .add _ _ | .addOrReplace _ _ => true
  | _ => false

end Step

inductive Edit where
  | add (component : Component) (kind : ClauseKind Subquery)
  | replace (component : Component) (kind : ClauseKind Subquery)
  | clear (component : Component) (engine : Option Engine)

def Edit.apply (scope : Option Engine) (cs : List (Clause Subquery)) :
    Edit → List (Clause Subquery)
  | add component kind => cs ++ [⟨component, scope, kind⟩]
  | replace component kind => Statement.replaceFirst component scope kind cs
  | clear component engine => cs.filter (!·.visible component (engine.or scope))

namespace Query

def edits (q : Query) : Step → List Edit
  | .source s => [.replace .source (.source s)]
  | .select names =>
    (names.flatMap Text.expandBraces).map fun name => .add .select (.column (.named name))
  | .column c => [.add .select (.column c)]
  | .join j => [.add .join (.join j)]
  | .groupBy names => names.map fun name => .add .group (.column (.named name))
  | .group c => [.add .group (.column c)]
  | .orderBy names ascending =>
    names.map fun name => .add .order (.order (.column name ascending))
  | .order o => [.add .order (.order o)]
  | .limit n => [.replace .limit (.limit n)]
  | .offset n => [.replace .offset (.offset n)]
  | .combine c => [.add .combine (.combine c)]
  | .filter p => [.add .filter (.condition ⟨p, q.pendingOr, q.pendingNot⟩)]
  | .having p => [.add .having (.condition ⟨p, q.pendingOr, q.pendingNot⟩)]
  | .insertRows columns rows returnId => .clear .insert none ::
    rows.map fun row => .add .insert (.insert (.values columns row returnId))
  | .insertQuery columns query =>
    [.clear .insert none, .add .insert (.insert (.query columns (.of query)))]
  | .update columns values =>
    [.clear .update none, .add .update (.insert (.values columns values false))]
  | .assign columns values =>
    [.clear .assign none, .add .assign (.insert (.values columns values false))]
  | .aggregate function columns =>
    [.clear .aggregate none,
      .add .aggregate (.aggregate ⟨function, if columns.isEmpty then ["*"] else columns⟩)]
  | .cte s => [.add .cte (.source s)]
  | .add component kind => [.add component kind]
  | .addOrReplace component kind => [.replace component kind]
  | .clear component engine => [.clear component engine]
  | _ => []

/-- What a single step makes of a statement, unless it starts over: it edits the clauses in the
scope that the statement is in. -/
structure Edited (q : Query) (s : Step) (r : Query) : Prop where
  clauses : r.clauses = (q.edits s).foldl (Edit.apply q.scope) q.clauses
  scope : r.scope = q.scope
  pendingOr : r.pendingOr = (s.condition?.isNone && (s.isOr || q.pendingOr))
  pendingNot : r.pendingNot =
    (s.condition?.isNone && if s.isNot then !q.pendingNot else q.pendingNot)

theorem foldl_add_eq {α : Type} (component : Component) (kind : α → ClauseKind Subquery)
    (xs : List α) (q : Query) :
    xs.foldl (fun q x => q.add component (kind x)) q =
      { q with clauses :=
          (xs.map fun x => .add component (kind x)).foldl (Edit.apply q.scope) q.clauses } := by
  induction xs generalizing q with
  | nil => rfl
  | cons x xs ih => exact ih _

theorem edited_apply (q : Query) {s : Step} (h : s.isSingle = true) (hs : s.startsOver = false) :
    q.Edited s (q.apply s) := by
  cases s with
  | table => cases hs
  | forPage | orThen | notThen | compare | compareHaving | forEngine => cases h
  | select names =>
    rw [apply, Statement.select, Statement.addColumns]
    simp only [Statement.addColumn, foldl_add_eq]
    exact ⟨rfl, rfl, rfl, rfl⟩
  | groupBy names =>
    rw [apply, Statement.groupBy, foldl_add_eq]
    exact ⟨rfl, rfl, rfl, rfl⟩
  | orderBy names ascending =>
    rw [apply, Statement.orderBy, foldl_add_eq]
    exact ⟨rfl, rfl, rfl, rfl⟩
  | insertRows columns rows returnId =>
    rw [apply, Statement.insertAll, foldl_add_eq, List.map_map]
    exact ⟨rfl, rfl, rfl, rfl⟩
  | _ => exact ⟨rfl, rfl, rfl, rfl⟩

end Query

/-- A statement in the making, with the scopes to return to, the innermost one first. -/
structure Draft where
  query : Query := {}
  outer : List (Option Engine) := []

namespace Draft

def call (d : Draft) : Call → Draft
  | .enter engine => ⟨{ d.query with scope := some engine }, d.query.scope :: d.outer⟩
  | .leave => ⟨{ d.query with scope := d.outer.headD none }, d.outer.tail⟩
  | .single s => { d with query := d.query.apply s }

def run (d : Draft) (calls : List Call) : Draft := calls.foldl call d

variable (d : Draft)

@[simp] theorem run_nil : d.run [] = d := rfl

@[simp] theorem run_cons (c : Call) (calls : List Call) :
    d.run (c :: calls) = (d.call c).run calls := rfl

theorem run_append (as bs : List Call) : d.run (as ++ bs) = (d.run as).run bs :=
  List.foldl_append

theorem run_comparison (component : Component) {test : Predicate Subquery → Step}
    (h : ∀ (q : Query) p, q.apply (test p) = q.addCondition component p)
    (column operator : String) (value : Value) :
    d.run (Call.comparison test column operator value) =
      { d with query := d.query.compare component column operator value } := by
  unfold Call.comparison Statement.compare
  split
  · split <;> simp [call, h, Query.apply]
  · simp [call, h]

mutual

theorem run_calls (d : Draft) :
    ∀ s : Step, d.run s.calls = { d with query := d.query.apply s }
  | .orThen s => run_calls { d with query := d.query.orNext } s
  | .notThen s => run_calls { d with query := d.query.notNext } s
  | .compare _ _ _ => d.run_comparison .filter (fun _ _ => rfl) _ _ _
  | .compareHaving _ _ _ => d.run_comparison .having (fun _ _ => rfl) _ _ _
  | .forEngine engine steps => by
    have hinner := run_allCalls (d.call (.enter engine)) steps
    rw [Step.calls, run_cons, run_append, hinner]
    rfl
  | .forPage _ _ | .table _ | .source _ | .rename _ | .select _ | .column _ | .distinct | .join _
  | .groupBy _ | .group _ | .orderBy _ _ | .order _ | .limit _ | .offset _ | .combine _
  | .orNext | .notNext | .filter _ | .having _ | .insertRows _ _ _ | .insertQuery _ _
  | .update _ _ | .assign _ _ | .delete | .aggregate _ _ | .cte _ | .define _ _ | .add _ _
  | .addOrReplace _ _ | .clear _ _ => rfl

theorem run_allCalls (d : Draft) :
    ∀ steps : List Step, d.run (Step.allCalls steps) = { d with query := d.query.run steps }
  | [] => rfl
  | s :: steps => by
    rw [Step.allCalls, run_append, run_calls d s]
    exact run_allCalls _ steps

end

end Draft

theorem Call.isSingle_of_mem_comparison {test : Predicate Subquery → Step}
    (h : ∀ p, (test p).isSingle = true) {column operator : String} {value : Value} {s : Step}
    (hs : .single s ∈ Call.comparison test column operator value) : s.isSingle = true := by
  unfold comparison at hs
  split at hs
  · split at hs
    · simp only [List.mem_cons, List.not_mem_nil, or_false, Call.single.injEq] at hs
      rcases hs with rfl | rfl
      · rfl
      · exact h _
    · obtain rfl := by simpa using hs
      exact h _
  · obtain rfl := by simpa using hs
    exact h _

namespace Step

mutual

theorem isSingle_of_mem_calls {s' : Step} :
    ∀ s : Step, .single s' ∈ s.calls → s'.isSingle = true
  | .orThen s, h => by
    rcases List.mem_cons.mp h with h | h
    · cases h
      rfl
    · exact isSingle_of_mem_calls s h
  | .notThen s, h => by
    rcases List.mem_cons.mp h with h | h
    · cases h
      rfl
    · exact isSingle_of_mem_calls s h
  | .compare _ _ _, h => Call.isSingle_of_mem_comparison (fun _ => rfl) h
  | .compareHaving _ _ _, h => Call.isSingle_of_mem_comparison (fun _ => rfl) h
  | .forEngine _ steps, h => by
    rcases List.mem_cons.mp h with h | h
    · cases h
    · rcases List.mem_append.mp h with h | h
      · exact isSingle_of_mem_allCalls steps h
      · cases List.mem_singleton.mp h
  | .forPage _ _, h => by
    rcases List.mem_cons.mp h with h | h
    · cases h
      rfl
    · cases List.mem_singleton.mp h
      rfl
  | .table _, h | .source _, h | .rename _, h | .select _, h | .column _, h | .distinct, h
  | .join _, h | .groupBy _, h | .group _, h | .orderBy _ _, h | .order _, h | .limit _, h
  | .offset _, h | .combine _, h | .orNext, h | .notNext, h | .filter _, h | .having _, h
  | .insertRows _ _ _, h | .insertQuery _ _, h | .update _ _, h | .assign _ _, h | .delete, h
  | .aggregate _ _, h | .cte _, h | .define _ _, h | .add _ _, h | .addOrReplace _ _, h
  | .clear _ _, h => by
    cases List.mem_singleton.mp h
    rfl

theorem isSingle_of_mem_allCalls {s' : Step} :
    ∀ steps : List Step, .single s' ∈ allCalls steps → s'.isSingle = true
  | s :: steps, h => by
    rcases List.mem_append.mp h with h | h
    · exact isSingle_of_mem_calls s h
    · exact isSingle_of_mem_allCalls steps h

end

end Step

end SqlDialects
