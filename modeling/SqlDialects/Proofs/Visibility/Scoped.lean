import SqlDialects.Proofs.Paging.Statements
import SqlDialects.Proofs.Statement.Steps
import SqlDialects.Proofs.Visibility.Foreign

/-!
Building for one engine, as another engine sees it. What is added or replaced is out of its sight,
but a bucket is emptied of all that the engine in scope sees, the clauses for every engine included.
-/

namespace SqlDialects

variable {σ : Type} {e : Engine}

/-- The clause is for one engine, or in none of these buckets. -/
def Clause.outlasts (emptied : List Component) (c : Clause σ) : Bool :=
  !(c.engine.isNone && emptied.contains c.component)

theorem Clause.outlasts_append (as bs : List Component) (c : Clause σ) :
    c.outlasts (as ++ bs) = (c.outlasts bs && c.outlasts as) := by
  simp only [outlasts, List.contains_append]
  cases c.engine.isNone <;> cases as.contains c.component <;> cases bs.contains c.component <;> rfl

/-- What the engine sees of the first statement it sees of the second, but for the clauses for
every engine in these buckets; it sees no more. -/
structure Statement.Spares (e : Engine) (emptied : List Component) (p q : Statement σ) : Prop where
  scope : q.scope = p.scope
  seen : q.clauses.filter (·.isFor e) =
    (p.clauses.filter (·.isFor e)).filter (·.outlasts emptied)

def Statement.Elsewhere (e : Engine) (q : Statement σ) : Prop := ∃ d, q.scope = some d ∧ d ≠ e

namespace Statement

variable {p q r : Statement σ}

theorem Elsewhere.isFor_eq_false (h : q.Elsewhere e) {c : Clause σ} (hc : c.engine = q.scope) :
    c.isFor e = false := by
  obtain ⟨d, hd, hne⟩ := h
  simp [Clause.isFor, hc, hd, hne]

theorem Elsewhere.congr (h : p.Elsewhere e) (hs : q.scope = p.scope) : q.Elsewhere e := by
  obtain ⟨d, hd, hne⟩ := h
  exact ⟨d, hs.trans hd, hne⟩

theorem Spares.same (hs : q.scope = p.scope)
    (h : q.clauses.filter (·.isFor e) = p.clauses.filter (·.isFor e)) : p.Spares e [] q :=
  ⟨hs, by simp [h, Clause.outlasts]⟩

theorem Spares.trans {as bs : List Component} (h : p.Spares e as q) (h' : q.Spares e bs r) :
    p.Spares e (as ++ bs) r where
  scope := h'.scope.trans h.scope
  seen := by
    rw [h'.seen, h.seen, List.filter_filter]
    exact List.filter_congr fun c _ => (c.outlasts_append as bs).symm

theorem Spares.elsewhere {emptied : List Component} (h : p.Spares e emptied q)
    (hp : p.Elsewhere e) : q.Elsewhere e := hp.congr h.scope

theorem Spares.add (h : q.Elsewhere e) (component : Component) (kind : ClauseKind σ) :
    q.Spares e [] (q.add component kind) := by
  refine .same rfl ?_
  rw [Statement.add, List.filter_append, List.filter_cons_of_neg (by simp [h.isFor_eq_false]),
    List.filter_nil, List.append_nil]

theorem Spares.foldl_add {α : Type} (h : q.Elsewhere e) (component : Component)
    (kind : α → ClauseKind σ) (xs : List α) :
    q.Spares e [] (xs.foldl (fun q x => q.add component (kind x)) q) := by
  induction xs generalizing q with
  | nil => exact .same rfl rfl
  | cons x xs ih => exact (Spares.add h component (kind x)).trans (ih (h.congr rfl))

theorem Spares.addOrReplace (h : q.Elsewhere e) (component : Component) (kind : ClauseKind σ) :
    q.Spares e [] (q.addOrReplace component kind) :=
  .same rfl (filter_replaceFirst (fun _ _ hc => h.isFor_eq_false hc) q.clauses)

theorem Spares.clear (h : q.Elsewhere e) (component : Component) (engine : Option Engine)
    (he : engine ≠ some e) : q.Spares e [component] (q.clear component engine) where
  scope := rfl
  seen := by
    obtain ⟨d, hd, hne⟩ : ∃ d, engine.or q.scope = some d ∧ d ≠ e := by
      cases engine with
      | none => exact h
      | some d => exact ⟨d, rfl, fun hd => he (congrArg some hd)⟩
    rw [Statement.clear, hd, List.filter_filter, List.filter_filter]
    refine List.filter_congr fun c _ => ?_
    rw [Bool.eq_iff_iff]
    cases hc : c.engine with
    | none => simp [Clause.isFor, Clause.visible, Clause.outlasts, hc]
    | some b =>
      by_cases hb : b = e
      · simp [Clause.isFor, Clause.visible, Clause.outlasts, hc, hb, Ne.symm hne]
      · simp [Clause.isFor, hc, hb]

theorem Spares.addCondition (h : q.Elsewhere e) (component : Component) (p : Predicate σ) :
    q.Spares e [] (q.addCondition component p) := by
  have hadd := Spares.add h component (.condition ⟨p, q.pendingOr, q.pendingNot⟩)
  exact ⟨hadd.scope, hadd.seen⟩

theorem Spares.compare (h : q.Elsewhere e) (component : Component) (column operator : String)
    (value : Value) : q.Spares e [] (q.compare component column operator value) := by
  unfold Statement.compare
  split
  · have hnull {r : Statement σ} (hs : r.scope = q.scope) (hr : r.clauses = q.clauses) :
        q.Spares e [] (r.addCondition component (.isNull column)) := by
      have hadd := Spares.addCondition (h.congr hs) component (.isNull column)
      exact ⟨hadd.scope.trans hs, hadd.seen.trans (by rw [hr])⟩
    split <;> exact hnull rfl rfl
  · exact .addCondition h component (.compare column operator value)

theorem Spares.refill {α : Type} (h : q.Elsewhere e) (method : Method) (component : Component)
    (kind : α → ClauseKind σ) (xs : List α) :
    q.Spares e [component] (xs.foldl (fun q x => q.add component (kind x))
      ({ q with method := method }.clear component none)) := by
  have hmethod : q.Spares e [] { q with method := method } := .same rfl rfl
  have hclear := hmethod.trans (.clear (hmethod.elsewhere h) component none nofun)
  exact hclear.trans (.foldl_add (hclear.elsewhere h) component kind xs)

end Statement

mutual

/-- The buckets that the step empties. -/
def Step.emptied : Step → List Component
  | .orThen s => s.emptied
  | .notThen s => s.emptied
  | .insertRows .. => [.insert]
  | .insertQuery .. => [.insert]
  | .update .. => [.update]
  | .assign .. => [.assign]
  | .aggregate .. => [.aggregate]
  | .forEngine _ steps => Step.allEmptied steps
  | .clear component _ => [component]
  | _ => []

def Step.allEmptied : List Step → List Component
  | [] => []
  | s :: steps => s.emptied ++ Step.allEmptied steps

end

mutual

/-- The step goes on with the statement, and it does not call the engine by name. -/
def Step.avoids (e : Engine) : Step → Bool
  | .table _ => false
  | .orThen s => s.avoids e
  | .notThen s => s.avoids e
  | .forEngine d steps => d != e && Step.allAvoid e steps
  | .clear _ engine => engine != some e
  | _ => true

def Step.allAvoid (e : Engine) : List Step → Bool
  | [] => true
  | s :: steps => s.avoids e && Step.allAvoid e steps

end

namespace Query

open Statement

mutual

theorem spares_apply {q : Query} (h : q.Elsewhere e) :
    ∀ s : Step, s.avoids e → q.Spares e s.emptied (q.apply s)
  | .source s, _ => .addOrReplace h .source (.source s)
  | .rename _, _ => .same rfl rfl
  | .select names, _ => .foldl_add h .select _ _
  | .column c, _ => .add h .select (.column c)
  | .distinct, _ => .same rfl rfl
  | .join j, _ => .add h .join (.join j)
  | .groupBy names, _ => .foldl_add h .group _ names
  | .group c, _ => .add h .group (.column c)
  | .orderBy names _, _ => .foldl_add h .order _ names
  | .order o, _ => .add h .order (.order o)
  | .limit n, _ => .addOrReplace h .limit (.limit n)
  | .offset n, _ => .addOrReplace h .offset (.offset n)
  | .forPage _ perPage, _ => by
    have hlimit := Spares.addOrReplace h .limit (.limit perPage)
    exact hlimit.trans (.addOrReplace (hlimit.elsewhere h) .offset _)
  | .combine c, _ => .add h .combine (.combine c)
  | .orNext, _ => .same rfl rfl
  | .notNext, _ => .same rfl rfl
  | .orThen s, hs => by
    have hthen := spares_apply (q := q.orNext) (h.congr rfl) s hs
    exact ⟨hthen.scope, hthen.seen⟩
  | .notThen s, hs => by
    have hthen := spares_apply (q := q.notNext) (h.congr rfl) s hs
    exact ⟨hthen.scope, hthen.seen⟩
  | .filter p, _ => .addCondition h .filter p
  | .having p, _ => .addCondition h .having p
  | .compare column operator value, _ => .compare h .filter column operator value
  | .compareHaving column operator value, _ => .compare h .having column operator value
  | .insertRows columns rows returnId, _ =>
    .refill h .insert .insert .insert (rows.map (.values columns · returnId))
  | .insertQuery columns source, _ =>
    .refill h .insert .insert .insert [.query columns (.of source)]
  | .update columns values, _ => .refill h .update .update .insert [.values columns values false]
  | .assign columns values, _ => .refill h .assign .assign .insert [.values columns values false]
  | .delete, _ => .same rfl rfl
  | .aggregate function columns, _ => .refill h .aggregate .aggregate .aggregate [_]
  | .cte s, _ => .add h .cte (.source s)
  | .define _ _, _ => .same rfl rfl
  | .forEngine d steps, hs => by
    simp only [Step.avoids, Bool.and_eq_true, bne_iff_ne] at hs
    have hrun := spares_run (q := { q with scope := some d }) ⟨d, rfl, hs.1⟩ steps hs.2
    exact ⟨rfl, hrun.seen⟩
  | .add component kind, _ => .add h component kind
  | .addOrReplace component kind, _ => .addOrReplace h component kind
  | .clear component engine, hs => .clear h component engine (by simpa [Step.avoids] using hs)

theorem spares_run {q : Query} (h : q.Elsewhere e) :
    ∀ steps : List Step, Step.allAvoid e steps → q.Spares e (Step.allEmptied steps) (q.run steps)
  | [], _ => .same rfl rfl
  | s :: steps, hs => by
    simp only [Step.allAvoid, Bool.and_eq_true] at hs
    have hfirst := spares_apply h s hs.1
    exact hfirst.trans (spares_run (hfirst.elsewhere h) steps hs.2)

end

theorem spares_forEngine (q : Query) {d : Engine} (hd : e ≠ d) {steps : List Step}
    (hs : Step.allAvoid e steps) :
    q.Spares e (Step.allEmptied steps) (q.apply (.forEngine d steps)) := by
  have hrun := spares_run (q := { q with scope := some d }) ⟨d, rfl, hd.symm⟩ steps hs
  exact ⟨rfl, hrun.seen⟩

theorem bucket_of_spares {emptied : List Component} {p q : Query} (h : p.Spares e emptied q)
    (component : Component) :
    q.bucket component (some e) =
      if component ∈ emptied then (p.bucket component (some e)).filter (·.engine.isSome)
      else p.bucket component (some e) := by
  have hvisible (c : Clause Subquery) :
      c.visible component (some e) = (c.component == component && c.isFor e) := by
    simp [Clause.visible, Clause.isFor]
  have hbucket (r : Query) : r.bucket component (some e) =
      (r.clauses.filter (·.isFor e)).filter (·.component == component) := by
    rw [Statement.bucket, List.filter_filter]
    exact List.filter_congr fun c _ => hvisible c
  rw [hbucket q, h.seen, hbucket p]
  generalize p.clauses.filter (·.isFor e) = shown
  have houtlasts {c : Clause Subquery} (hcomp : c.component = component) :
      c.outlasts emptied = (c.engine.isSome || !decide (component ∈ emptied)) := by
    cases hengine : c.engine <;> simp [Clause.outlasts, hcomp, hengine]
  have hfilter : (shown.filter (·.outlasts emptied)).filter (·.component == component) =
      (shown.filter (·.component == component)).filter
        fun c => c.engine.isSome || !decide (component ∈ emptied) := by
    rw [List.filter_filter, List.filter_filter]
    refine List.filter_congr fun c _ => ?_
    by_cases hcomp : c.component = component
    · simp [houtlasts hcomp, hcomp]
    · simp [beq_false_of_ne hcomp]
  rw [hfilter]
  split
  · next hc => simp only [hc, decide_true, Bool.not_true, Bool.or_false]
  · next hc => simp only [hc, decide_false, Bool.not_false, Bool.or_true, List.filter_true]

/-- Building for one engine leaves the scope as it was. Another engine sees nothing new, and it
loses the clauses for every engine in the buckets that were emptied, and no others. So it still sees
the same if and only if no such clause stood there. -/
theorem forEngine_empties_for_others (q : Query) {d : Engine} (hd : e ≠ d) {steps : List Step}
    (hs : Step.allAvoid e steps) :
    (q.apply (.forEngine d steps)).scope = q.scope ∧
    (q.apply (.forEngine d steps)).clauses.filter (·.isFor e) =
      (q.clauses.filter (·.isFor e)).filter (·.outlasts (Step.allEmptied steps)) ∧
    (∀ component, (q.apply (.forEngine d steps)).bucket component (some e) =
      if component ∈ Step.allEmptied steps then
        (q.bucket component (some e)).filter (·.engine.isSome)
      else q.bucket component (some e)) ∧
    ((q.apply (.forEngine d steps)).clauses.filter (·.isFor e) = q.clauses.filter (·.isFor e) ↔
      ∀ c ∈ q.clauses, c.engine = none → c.component ∉ Step.allEmptied steps) := by
  have hspares := q.spares_forEngine hd hs
  refine ⟨hspares.scope, hspares.seen, bucket_of_spares hspares, ?_⟩
  rw [hspares.seen, List.filter_eq_self]
  constructor
  · intro h c hc hnone
    have hfor : c.isFor e := by simp [Clause.isFor, hnone]
    have hkept := h c (List.mem_filter.mpr ⟨hc, hfor⟩)
    simpa [Clause.outlasts, hnone] using hkept
  · intro h c hc
    have hnone := h c (List.mem_of_mem_filter hc)
    cases hengine : c.engine with
    | none => simp [Clause.outlasts, hnone hengine]
    | some b => simp [Clause.outlasts, hengine]

def insertedFor : Query := (table "t").run [.insertRow ["a"] [.int 1]]

def reinsertion : List Step := [.insertRow ["a"] [.int 2]]

theorem forEngine_empties_for_others_reinsertion :
    Engine.postgres ≠ .mySql ∧ Step.allAvoid .postgres reinsertion ∧
    (insertedFor.apply (.forEngine .mySql reinsertion)).bucket .insert (some .postgres) =
      (insertedFor.bucket .insert (some .postgres)).filter (·.engine.isSome) := by
  have hne : Engine.postgres ≠ .mySql := by decide
  have hs : Step.allAvoid .postgres reinsertion := rfl
  obtain ⟨-, -, hbucket, -⟩ := insertedFor.forEngine_empties_for_others hne hs
  exact ⟨hne, hs, hbucket .insert⟩

/-- The row that PostgreSQL is to insert goes when MySQL is given one of its own. -/
theorem reinsertion_empties_row :
    insertedFor.scope = none ∧ Engine.postgres ≠ .mySql ∧
    (insertedFor.apply (.forEngine .mySql reinsertion)).method = insertedFor.method ∧
    (insertedFor.bucket .insert (some .postgres)).length = 1 ∧
    (insertedFor.apply (.forEngine .mySql reinsertion)).bucket .insert (some .postgres) = [] ∧
    (insertedFor.apply (.forEngine .mySql reinsertion)).clauses.filter (·.isFor .postgres) ≠
      insertedFor.clauses.filter (·.isFor .postgres) := by
  refine ⟨rfl, by decide, rfl, rfl, rfl, fun h => ?_⟩
  exact absurd (congrArg List.length h) (by decide)

end Query

end SqlDialects
