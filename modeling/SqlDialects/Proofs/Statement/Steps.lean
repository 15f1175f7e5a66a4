import SqlDialects.Proofs.Paging.Statements
import SqlDialects.Statement.Step

/-!
Statements that are built step by step. What every step of a list preserves, the list preserves: in
a statement that is built from nothing, with nested statements that are built so too, nothing is in
scope, and each variable is defined once.
-/

namespace SqlDialects

theorem Query.run_induction {steps : List Step} {q : Query} {I : Query → Prop}
    (h : ∀ s ∈ steps, ∀ q, I q → I (q.apply s)) (hq : I q) : I (q.run steps) := by
  induction steps generalizing q with
  | nil => exact hq
  | cons s steps ih =>
    obtain ⟨hfirst, hrest⟩ := List.forall_mem_cons.mp h
    exact ih hrest (hfirst q hq)

mutual

def Step.taken : Step → List Subquery
  | .source s => (ClauseKind.source s).nested
  | .column x => (ClauseKind.column x).nested
  | .join j => (ClauseKind.join j).nested
  | .group x => (ClauseKind.column x).nested
  | .combine x => (ClauseKind.combine x).nested
  | .orThen s => s.taken
  | .notThen s => s.taken
  | .filter p => (ClauseKind.condition ⟨p, false, false⟩).nested
  | .having p => (ClauseKind.condition ⟨p, false, false⟩).nested
  | .insertQuery columns query => (ClauseKind.insert (.query columns (.of query))).nested
  | .cte s => (ClauseKind.source s).nested
  | .forEngine _ steps => Step.allTaken steps
  | .add _ kind => kind.nested
  | .addOrReplace _ kind => kind.nested
  | _ => []

def Step.allTaken : List Step → List Subquery
  | [] => []
  | s :: steps => s.taken ++ Step.allTaken steps

end

/-- The statement is built by steps from nothing, and so is each one that a step takes. No engine is
in scope in any of them, as it would be in a statement that was put into a fresh one while it was
being built for an engine. -/
inductive Query.Reachable : Query → Prop
  | build (steps : List Step) (h : ∀ n ∈ Step.allTaken steps, Reachable n.statement) :
      Reachable (Query.build steps)

theorem Variables.mem_names_define {vars : Variables} {name other : String} {v : Value}
    (h : other ∈ (vars.define name v).map (·.1)) : other = name ∨ other ∈ vars.map (·.1) := by
  induction vars with
  | nil => exact .inl (List.mem_singleton.mp h)
  | cons w vars ih =>
    rw [define] at h
    split at h
    · next he =>
      have hnames : other = w.1 ∨ other ∈ vars.map (·.1) := List.mem_cons.mp h
      exact hnames.imp (·.trans he) (List.mem_cons_of_mem _)
    · rcases List.mem_cons.mp h with rfl | h
      · exact .inr List.mem_cons_self
      · exact (ih h).imp_right (List.mem_cons_of_mem _)

theorem Variables.nodup_define {vars : Variables} (h : (vars.map (·.1)).Nodup) (name : String)
    (v : Value) : ((vars.define name v).map (·.1)).Nodup := by
  induction vars with
  | nil => exact List.pairwise_singleton _ _
  | cons w vars ih =>
    rw [List.map_cons, List.nodup_cons] at h
    rw [define]
    split
    · next he =>
      rw [List.map_cons, List.nodup_cons]
      exact ⟨he ▸ h.1, h.2⟩
    · next hne =>
      rw [List.map_cons, List.nodup_cons]
      exact ⟨fun hm => (mem_names_define hm).elim hne h.1, ih h.2⟩

namespace Statement

variable {σ : Type} {P : σ → Prop} {p q : Statement σ}

/-- What a statement is made of: nested statements that are as asked, and variables of different
names. -/
structure Composed (P : σ → Prop) (q : Statement σ) : Prop where
  nested : ∀ c ∈ q.clauses, ∀ n ∈ c.kind.nested, P n
  names : (q.vars.map (·.1)).Nodup

theorem Composed.congr (h : p.Composed P) (hc : q.clauses = p.clauses) (hv : q.vars = p.vars) :
    q.Composed P :=
  ⟨hc ▸ h.nested, hv ▸ h.names⟩

variable (h : q.Composed P) (component : Component) {kind : ClauseKind σ}
  (hk : ∀ n ∈ kind.nested, P n)

include h

theorem Composed.clear (engine : Option Engine) : (q.clear component engine).Composed P :=
  ⟨fun c hc => h.nested c (List.mem_of_mem_filter hc), h.names⟩

theorem Composed.define (name : String) (v : Value) : (q.define name v).Composed P :=
  ⟨h.nested, Variables.nodup_define h.names name v⟩

include hk in
theorem Composed.add : (q.add component kind).Composed P := by
  refine ⟨fun c hc => ?_, h.names⟩
  rcases List.mem_append.mp hc with hc | hc
  · exact h.nested c hc
  · rw [List.mem_singleton.mp hc]
    exact hk

include hk in
theorem Composed.addOrReplace : (q.addOrReplace component kind).Composed P := by
  refine ⟨fun c hc => ?_, h.names⟩
  rcases mem_replaceFirst hc with hc | rfl
  · exact h.nested c hc
  · exact hk

theorem Composed.foldl_add {α : Type} {kind : α → ClauseKind σ} {xs : List α}
    (hk : ∀ x ∈ xs, ∀ n ∈ (kind x).nested, P n) :
    (xs.foldl (fun (q : Statement σ) x => q.add component (kind x)) q).Composed P := by
  induction xs generalizing q with
  | nil => exact h
  | cons x xs ih =>
    obtain ⟨hx, hxs⟩ := List.forall_mem_cons.mp hk
    exact ih (h.add component hx) hxs

theorem Composed.addCondition {x : Predicate σ}
    (hx : ∀ n ∈ (ClauseKind.condition ⟨x, false, false⟩).nested, P n) :
    (q.addCondition component x).Composed P := by
  have hadd : (q.add component (.condition ⟨x, q.pendingOr, q.pendingNot⟩)).Composed P :=
    h.add component hx
  exact hadd.congr rfl rfl

theorem Composed.compare (column operator : String) (value : Value) :
    (q.compare component column operator value).Composed P := by
  unfold Statement.compare
  split
  · have hnull {r : Statement σ} (hr : r.Composed P) :
        (r.addCondition component (.isNull column)).Composed P := hr.addCondition component nofun
    split
    · exact hnull (h.congr rfl rfl)
    · exact hnull h
  · exact h.addCondition component nofun

theorem Composed.setMethod (method : Method) :
    Statement.Composed P { q with method := method } := h.congr rfl rfl

omit h in
theorem scope_compare (h : q.scope = none) (component : Component) (column operator : String)
    (value : Value) : (q.compare component column operator value).scope = none := by
  unfold Statement.compare
  split
  · split <;> exact h
  · exact h

end Statement

namespace Query

open Statement

variable {P : Subquery → Prop}

mutual

theorem composed_apply {q : Query} (h : q.Composed P) :
    ∀ s : Step, (∀ n ∈ s.taken, P n) → (q.apply s).Composed P
  | .table _, _ => ⟨List.forall_mem_singleton.mpr (List.forall_mem_nil P), .nil⟩
  | .source _, hs => h.addOrReplace _ hs
  | .rename _, _ => h.congr rfl rfl
  | .select _, _ => h.foldl_add _ fun _ _ => List.forall_mem_nil P
  | .column _, hs => h.add _ hs
  | .distinct, _ => h.congr rfl rfl
  | .join _, hs => h.add _ hs
  | .groupBy _, _ => h.foldl_add _ fun _ _ => List.forall_mem_nil P
  | .group _, hs => h.add _ hs
  | .orderBy _ _, _ => h.foldl_add _ fun _ _ => List.forall_mem_nil P
  | .order _, _ => h.add _ nofun
  | .limit _, _ => h.addOrReplace _ nofun
  | .offset _, _ => h.addOrReplace _ nofun
  | .forPage _ perPage, _ => by
    have hlimit : (q.limit perPage).Composed P := h.addOrReplace .limit (List.forall_mem_nil P)
    exact hlimit.addOrReplace .offset (List.forall_mem_nil P)
  | .combine _, hs => h.add _ hs
  | .orNext, _ => h.congr rfl rfl
  | .notNext, _ => h.congr rfl rfl
  | .orThen s, hs => composed_apply (q := q.orNext) (h.congr rfl rfl) s hs
  | .notThen s, hs => composed_apply (q := q.notNext) (h.congr rfl rfl) s hs
  | .filter _, hs => h.addCondition _ hs
  | .having _, hs => h.addCondition _ hs
  | .compare column operator value, _ => h.compare _ column operator value
  | .compareHaving column operator value, _ => h.compare _ column operator value
  | .insertRows _ rows _, _ =>
    ((h.setMethod .insert).clear .insert none).foldl_add .insert fun x hx => by
      obtain ⟨row, -, rfl⟩ := List.mem_map.mp hx
      exact List.forall_mem_nil P
  | .insertQuery _ _, hs =>
    ((h.setMethod .insert).clear .insert none).add .insert hs
  | .update _ _, _ =>
    ((h.setMethod .update).clear .update none).add .update (List.forall_mem_nil P)
  | .assign _ _, _ =>
    ((h.setMethod .assign).clear .assign none).add .assign (List.forall_mem_nil P)
  | .delete, _ => h.congr rfl rfl
  | .aggregate _ _, _ =>
    ((h.setMethod .aggregate).clear .aggregate none).add .aggregate (List.forall_mem_nil P)
  | .cte _, hs => h.add _ hs
  | .define name v, _ => h.define name v
  | .forEngine e steps, hs => by
    have hrun := composed_run (q := { q with scope := some e }) (h.congr rfl rfl) steps hs
    exact hrun.congr rfl rfl
  | .add _ _, hs => h.add _ hs
  | .addOrReplace _ _, hs => h.addOrReplace _ hs
  | .clear component engine, _ => h.clear component engine

theorem composed_run {q : Query} (h : q.Composed P) :
    ∀ steps : List Step, (∀ n ∈ Step.allTaken steps, P n) → (q.run steps).Composed P
  | [], _ => h
  | s :: steps, hs => by
    rw [Step.allTaken, List.forall_mem_append] at hs
    exact composed_run (composed_apply h s hs.1) steps hs.2

end

theorem scope_foldl_add {α : Type} {q : Query} (h : q.scope = none) (component : Component)
    (kind : α → ClauseKind Subquery) (xs : List α) :
    (xs.foldl (fun q x => q.add component (kind x)) q).scope = none := by
  induction xs generalizing q with
  | nil => exact h
  | cons x xs ih => exact ih h

theorem scope_apply {q : Query} (h : q.scope = none) : ∀ s : Step, (q.apply s).scope = none
  | .table _ => rfl
  | .select _ => scope_foldl_add h .select _ _
  | .groupBy _ => scope_foldl_add h .group _ _
  | .orderBy _ _ => scope_foldl_add h .order _ _
  | .orThen s => scope_apply (q := q.orNext) h s
  | .notThen s => scope_apply (q := q.notNext) h s
  | .compare _ _ _ => scope_compare h .filter _ _ _
  | .compareHaving _ _ _ => scope_compare h .having _ _ _
  | .insertRows _ _ _ => by
    have hcleared : ({ q with method := .insert }.clear .insert none : Query).scope = none := h
    exact scope_foldl_add hcleared .insert .insert _
  | .source _ | .rename _ | .column _ | .distinct | .join _ | .group _ | .order _ | .limit _
  | .offset _ | .forPage _ _ | .combine _ | .orNext | .notNext | .filter _ | .having _
  | .insertQuery _ _ | .update _ _ | .assign _ _ | .delete | .aggregate _ _ | .cte _ | .define _ _
  | .forEngine _ _ | .add _ _ | .addOrReplace _ _ | .clear _ _ => h

namespace Reachable

variable {q : Query} (h : q.Reachable)

include h

theorem composed : q.Composed fun n => n.statement.Reachable := by
  obtain ⟨steps, hs⟩ := h
  have hempty : Statement.Composed (fun n : Subquery => n.statement.Reachable) {} :=
    ⟨List.forall_mem_nil _, List.nodup_nil⟩
  exact composed_run hempty steps hs

theorem scope : q.scope = none := by
  obtain ⟨steps, hs⟩ := h
  exact run_induction (I := fun q => q.scope = none) (fun s _ q hq => scope_apply hq s) rfl

theorem nested {n : Subquery} (hn : n ∈ q.nested) : n.statement.Reachable := by
  obtain ⟨c, hc, hn⟩ := Statement.mem_nested.mp hn
  exact h.composed.nested c hc n hn

end Reachable

end Query

end SqlDialects
