import SqlDialects.Statement.Subquery

/-!
The values in a statement, the statements nested directly in it and the places they stand in. What
holds of a statement as soon as it holds of those nested in it holds of every statement.
-/

namespace SqlDialects

/-- What of a nested statement is rendered where it stands: the whole select, its conditions
alone, or its table with its conditions as constraints. -/
inductive Place where
  | select
  | group
  | joined
  deriving DecidableEq

variable {σ τ : Type}

/-- The values that stand where SQL has one. Those bound by SQL text are not among them. -/
def Predicate.held : Predicate σ → List Value
  | compare _ _ value => [value]
  | like _ _ value _ _ => [value]
  | datePart _ _ _ value => [value]
  | oneOf _ values => values
  | between _ lower higher => [lower, higher]
  | queryAgainst _ _ value => [value]
  | _ => []

def Insert.held : Insert σ → List Value
  | values _ cells _ => cells
  | query _ _ => []

def ClauseKind.held : ClauseKind σ → List Value
  | condition c => c.predicate.held
  | insert i => i.held
  | _ => []

def ClauseKind.brought : ClauseKind σ → List Value
  | source (.raw _ bindings _) => bindings
  | column (.raw _ bindings) => bindings
  | condition ⟨.raw _ bindings, _, _⟩ => bindings
  | order (.raw _ bindings) => bindings
  | combine (.raw _ bindings) => bindings
  | _ => []

def Source.parts : Source σ → List (Place × σ)
  | query q _ => [(.select, q)]
  | _ => []

def Column.parts : Column σ → List (Place × σ)
  | query q _ => [(.select, q)]
  | _ => []

def Predicate.parts : Predicate σ → List (Place × σ)
  | oneOfQuery _ q => [(.select, q)]
  | rowsExist q => [(.select, q)]
  | againstQuery _ _ q => [(.select, q)]
  | queryAgainst q _ _ => [(.select, q)]
  | nested q => [(.group, q)]
  | _ => []

def Combine.parts : Combine σ → List (Place × σ)
  | query _ _ q => [(.select, q)]
  | raw _ _ => []

def Insert.parts : Insert σ → List (Place × σ)
  | query _ q => [(.select, q)]
  | values _ _ _ => []

def ClauseKind.parts : ClauseKind σ → List (Place × σ)
  | source s => s.parts
  | column c => c.parts
  | condition c => c.predicate.parts
  | join j => [(.joined, j.target)]
  | combine c => c.parts
  | insert i => i.parts
  | _ => []

def ClauseKind.nested (k : ClauseKind σ) : List σ := k.parts.map (·.2)

def Statement.nested (q : Statement σ) : List σ := q.clauses.flatMap (·.kind.nested)

theorem ClauseKind.parts_map (f : σ → τ) (k : ClauseKind σ) :
    (k.map f).parts = k.parts.map fun n => (n.1, f n.2) := by
  cases k with
  | source s => cases s <;> rfl
  | column x => cases x <;> rfl
  | condition x =>
    obtain ⟨p, _, _⟩ := x
    cases p <;> rfl
  | combine x => cases x <;> rfl
  | insert i => cases i <;> rfl
  | _ => rfl

theorem ClauseKind.nested_map (f : σ → τ) (k : ClauseKind σ) :
    (k.map f).nested = k.nested.map f := by
  simp only [nested, parts_map, List.map_map, Function.comp_def]

theorem Statement.mem_nested {q : Statement σ} {n : σ} :
    n ∈ q.nested ↔ ∃ c ∈ q.clauses, n ∈ c.kind.nested := List.mem_flatMap

theorem Statement.mem_nested_of_part {q : Statement σ} {c : Clause σ} {n : Place × σ}
    (hc : c ∈ q.clauses) (hn : n ∈ c.kind.parts) : n.2 ∈ q.nested :=
  mem_nested.mpr ⟨c, hc, List.mem_map_of_mem hn⟩

theorem Statement.exists_part {q : Statement σ} {n : σ} (h : n ∈ q.nested) :
    ∃ c ∈ q.clauses, ∃ place, (place, n) ∈ c.kind.parts := by
  obtain ⟨c, hc, hn⟩ := mem_nested.mp h
  obtain ⟨⟨place, _⟩, hm, rfl⟩ := List.mem_map.mp hn
  exact ⟨c, hc, place, hm⟩

theorem ClauseKind.part_of_source {k : ClauseKind σ} {n : σ} {aliasName : Option String}
    (h : k = .source (.query n aliasName)) : (.select, n) ∈ k.parts := by
  rw [h]
  exact .head _

theorem ClauseKind.sizeOf_nested [SizeOf σ] {k : ClauseKind σ} {n : σ} (h : n ∈ k.nested) :
    sizeOf n < sizeOf k := by
  cases k with
  | source s =>
    cases s <;> simp [nested, parts, Source.parts] at h
    subst h
    simp only [source.sizeOf_spec, Source.query.sizeOf_spec]
    omega
  | column c =>
    cases c <;> simp [nested, parts, Column.parts] at h
    subst h
    simp only [column.sizeOf_spec, Column.query.sizeOf_spec]
    omega
  | condition c =>
    obtain ⟨p, isOr, isNot⟩ := c
    have hp : sizeOf n < sizeOf p := by
      cases p <;> simp [nested, parts, Predicate.parts] at h <;> subst h <;> simp +arith
    simp only [condition.sizeOf_spec, Condition.mk.sizeOf_spec]
    omega
  | join j =>
    obtain ⟨kind, target⟩ := j
    simp only [nested, parts, List.map_cons, List.map_nil, List.mem_singleton] at h
    subst h
    simp only [join.sizeOf_spec, Join.mk.sizeOf_spec]
    omega
  | combine c =>
    cases c <;> simp [nested, parts, Combine.parts] at h
    subst h
    simp only [combine.sizeOf_spec, Combine.query.sizeOf_spec]
    omega
  | insert i =>
    cases i <;> simp [nested, parts, Insert.parts] at h
    subst h
    simp only [insert.sizeOf_spec, Insert.query.sizeOf_spec]
    omega
  | order _ => simp [nested, parts] at h
  | aggregate _ => simp [nested, parts] at h
  | limit _ => simp [nested, parts] at h
  | offset _ => simp [nested, parts] at h

theorem Subquery.sizeOf_nested {q : Query} {n : Subquery} (h : n ∈ q.nested) :
    sizeOf n < sizeOf (Subquery.of q) := by
  obtain ⟨c, hc, hn⟩ := Statement.mem_nested.mp h
  have hk := ClauseKind.sizeOf_nested hn
  have hs := List.sizeOf_lt_of_mem hc
  obtain ⟨component, engine, kind⟩ := c
  obtain ⟨method, aliasName, distinct, clauses, vars, scope, pendingOr, pendingNot⟩ := q
  simp only [of.sizeOf_spec, Statement.mk.sizeOf_spec, Clause.mk.sizeOf_spec] at hk hs ⊢
  omega

theorem ClauseKind.map_id (k : ClauseKind σ) : k.map id = k := by
  cases k with
  | source s => cases s <;> rfl
  | column c => cases c <;> rfl
  | condition c =>
    obtain ⟨p, _, _⟩ := c
    cases p <;> rfl
  | combine c => cases c <;> rfl
  | insert i => cases i <;> rfl
  | _ => rfl

theorem Statement.map_id (q : Statement σ) : q.map id = q := by
  simp only [map, Clause.map, ClauseKind.map_id, List.map_id']

theorem ClauseKind.map_congr {f g : σ → τ} {k : ClauseKind σ} (h : ∀ n ∈ k.nested, f n = g n) :
    k.map f = k.map g := by
  simp only [nested, List.forall_mem_map] at h
  cases k with
  | source s =>
    cases s with
    | query q a => simp [map, Source.map, h (.select, q) (.head _)]
    | _ => rfl
  | column c =>
    cases c with
    | query q a => simp [map, Column.map, h (.select, q) (.head _)]
    | _ => rfl
  | condition c =>
    obtain ⟨p, isOr, isNot⟩ := c
    have hp : p.map f = p.map g := by
      cases p with
      | oneOfQuery _ q => simp [Predicate.map, h (.select, q) (.head _)]
      | rowsExist q => simp [Predicate.map, h (.select, q) (.head _)]
      | againstQuery _ _ q => simp [Predicate.map, h (.select, q) (.head _)]
      | queryAgainst q _ _ => simp [Predicate.map, h (.select, q) (.head _)]
      | nested q => simp [Predicate.map, h (.group, q) (.head _)]
      | _ => rfl
    simp [map, Condition.map, hp]
  | join j => simp [map, Join.map, h (.joined, j.target) (.head _)]
  | combine c =>
    cases c with
    | query _ _ q => simp [map, Combine.map, h (.select, q) (.head _)]
    | raw _ _ => rfl
  | insert i =>
    cases i with
    | query _ q => simp [map, Insert.map, h (.select, q) (.head _)]
    | values _ _ _ => rfl
  | _ => rfl

theorem Statement.map_congr {f g : σ → τ} {q : Statement σ} (h : ∀ n ∈ q.nested, f n = g n) :
    q.map f = q.map g := by
  have hclauses : q.clauses.map (·.map f) = q.clauses.map (·.map g) := by
    refine List.map_congr_left fun c hc => ?_
    rw [Clause.map, Clause.map]
    exact congrArg _ (ClauseKind.map_congr fun n hn => h n (mem_nested.mpr ⟨c, hc, hn⟩))
  rw [map, map, hclauses]

theorem Subquery.induction {P : Subquery → Prop}
    (step : ∀ q : Query, (∀ n ∈ q.nested, P n) → P (.of q)) (s : Subquery) : P s := by
  obtain ⟨q⟩ := s
  exact step q fun n hn => Subquery.induction step n
termination_by sizeOf s
decreasing_by exact Subquery.sizeOf_nested hn

/-- A statement stands in another one at some depth, in a bucket and in a place there. -/
inductive Query.Nests : Query → Component → Place → Query → Prop
  | here {q n : Query} {d : Clause Subquery} {place : Place} (hd : d ∈ q.clauses)
      (hn : (place, Subquery.of n) ∈ d.kind.parts) : Nests q d.component place n
  | inside {q body n : Query} {component : Component} {place : Place}
      (hb : Subquery.of body ∈ q.nested) (hn : Nests body component place n) :
      Nests q component place n

theorem Query.forall_nests {P : Component → Place → Query → Prop} {q : Query} :
    (∀ component place n, Query.Nests q component place n → P component place n) ↔
      ∀ d ∈ q.clauses, ∀ m ∈ d.kind.parts, P d.component m.1 m.2.statement ∧
        ∀ component place n, Query.Nests m.2.statement component place n →
          P component place n := by
  constructor
  · rintro h d hd ⟨place, ⟨m⟩⟩ hm
    refine ⟨h _ _ _ (.here hd hm), fun component place n hn => h _ _ _ (.inside ?_ hn)⟩
    exact Statement.mem_nested_of_part hd hm
  · intro h component place n hn
    cases hn with
    | here hd hm => exact (h _ hd _ hm).1
    | inside hb hn =>
      obtain ⟨d, hd, place', hm⟩ := Statement.exists_part hb
      exact (h d hd _ hm).2 component place n hn

theorem Query.not_nests {q n : Query} {component : Component} {place : Place}
    (h : q.nested = []) : ¬ Query.Nests q component place n := by
  intro hn
  have hmem : ∃ m, m ∈ q.nested := by
    cases hn with
    | here hd hm => exact ⟨_, Statement.mem_nested_of_part hd hm⟩
    | inside hb _ => exact ⟨_, hb⟩
  obtain ⟨m, hm⟩ := hmem
  rw [h] at hm
  cases hm

end SqlDialects
