import SqlDialects.Proofs.Statement.Lookup

/-!
What the texts and the values of a statement are like, at any depth. Conditions on them are
lifted to clauses and statements, given what holds of the statements nested there.
-/

namespace SqlDialects

/-- Conditions on the parts of a statement that come from outside. -/
structure Terms where
  /-- Tables, columns and aliases. -/
  name : String → Prop := fun _ => True
  /-- Columns that rows are ordered by, which are names too. -/
  orderName : String → Prop := fun _ => True
  operator : String → Prop := fun _ => True
  datePart : String → Prop := fun _ => True
  function : String → Prop := fun _ => True
  seed : String → Prop := fun _ => True
  escape : Char → Prop := fun _ => True
  /-- Values that stand where SQL has one. -/
  value : Value → Prop := fun _ => True
  /-- SQL text and the bindings it brings. -/
  raw : String → List Value → Prop := fun _ _ => True

variable {σ τ : Type} (t : Terms) (P : σ → Prop)

def Source.Obeys : Source σ → Prop
  | table name => t.name name
  | raw sql bindings aliasName => t.raw sql bindings ∧ ∀ name ∈ aliasName, t.name name
  | query q aliasName => P q ∧ ∀ name ∈ aliasName, t.name name

def Column.Obeys : Column σ → Prop
  | named name => t.name name
  | raw sql bindings => t.raw sql bindings
  | query q aliasName => P q ∧ ∀ name ∈ aliasName, t.name name

def Predicate.Obeys : Predicate σ → Prop
  | compare column operator value => t.name column ∧ t.operator operator ∧ t.value value
  | like column operator value _ escape =>
    t.name column ∧ t.operator operator ∧ t.value value ∧ ∀ e ∈ escape, t.escape e
  | datePart part column operator value =>
    t.datePart part ∧ t.name column ∧ t.operator operator ∧ t.value value
  | columns first operator second => t.name first ∧ t.operator operator ∧ t.name second
  | isNull column => t.name column
  | truth column _ => t.name column
  | oneOf column values => t.name column ∧ ∀ v ∈ values, t.value v
  | oneOfQuery column q => t.name column ∧ P q
  | between column lower higher => t.name column ∧ t.value lower ∧ t.value higher
  | rowsExist q => P q
  | againstQuery column operator q => t.name column ∧ t.operator operator ∧ P q
  | queryAgainst q operator value => P q ∧ t.operator operator ∧ t.value value
  | nested q => P q
  | raw sql bindings => t.raw sql bindings

def Condition.Obeys (c : Condition σ) : Prop := c.predicate.Obeys t P

def Join.Obeys (j : Join σ) : Prop := P j.target

def Order.Obeys : Order → Prop
  | column name _ => t.name name ∧ t.orderName name
  | raw sql bindings => t.raw sql bindings
  | random seed => t.seed seed

def Combine.Obeys : Combine σ → Prop
  | query _ _ q => P q
  | raw sql bindings => t.raw sql bindings

def Insert.Obeys : Insert σ → Prop
  | values columns vs _ => (∀ name ∈ columns, t.name name) ∧ ∀ v ∈ vs, t.value v
  | query columns q => (∀ name ∈ columns, t.name name) ∧ P q

def Aggregate.Obeys (a : Aggregate) : Prop :=
  t.function a.function ∧ ∀ name ∈ a.columns, t.name name

def ClauseKind.Obeys : ClauseKind σ → Prop
  | source s => s.Obeys t P
  | column c => c.Obeys t P
  | condition c => c.Obeys t P
  | join j => j.Obeys P
  | order o => o.Obeys t
  | combine c => c.Obeys t P
  | insert i => i.Obeys t P
  | aggregate a => a.Obeys t
  | limit _ => True
  | offset _ => True

def Statement.Obeys (q : Statement σ) : Prop :=
  (∀ name ∈ q.aliasName, t.name name) ∧ ∀ c ∈ q.clauses, c.kind.Obeys t P

/-- A statement whose parts are as the terms say at any depth. -/
def Subquery.Obeys (s : Subquery) : Prop := s.fold (Statement.Obeys t id)

def Query.Obeys (q : Query) : Prop := Statement.Obeys t (Subquery.Obeys t) q

variable {t P} {Q : σ → Prop}

theorem ClauseKind.Obeys.imp {k : ClauseKind σ} (h : k.Obeys t P)
    (hn : ∀ n ∈ k.nested, P n → Q n) : k.Obeys t Q := by
  cases k with
  | source s =>
    cases s with
    | query q a => exact ⟨hn q (by simp [nested, parts, Source.parts]) h.1, h.2⟩
    | table _ => exact h
    | raw _ _ _ => exact h
  | column c =>
    cases c with
    | query q a => exact ⟨hn q (by simp [nested, parts, Column.parts]) h.1, h.2⟩
    | named _ => exact h
    | raw _ _ => exact h
  | condition c =>
    obtain ⟨p, _, _⟩ := c
    cases p with
    | oneOfQuery _ q => exact ⟨h.1, hn q (by simp [nested, parts, Predicate.parts]) h.2⟩
    | rowsExist q => exact hn q (by simp [nested, parts, Predicate.parts]) h
    | againstQuery _ _ q =>
      exact ⟨h.1, h.2.1, hn q (by simp [nested, parts, Predicate.parts]) h.2.2⟩
    | queryAgainst q _ _ => exact ⟨hn q (by simp [nested, parts, Predicate.parts]) h.1, h.2⟩
    | nested q => exact hn q (by simp [nested, parts, Predicate.parts]) h
    | _ => exact h
  | join j => exact hn j.target (by simp [nested, parts]) h
  | combine c =>
    cases c with
    | query _ _ q => exact hn q (by simp [nested, parts, Combine.parts]) h
    | raw _ _ => exact h
  | insert i =>
    cases i with
    | query _ q => exact ⟨h.1, hn q (by simp [nested, parts, Insert.parts]) h.2⟩
    | values _ _ _ => exact h
  | _ => exact h

theorem ClauseKind.Obeys.nested {k : ClauseKind σ} (h : k.Obeys t P) : ∀ n ∈ k.nested, P n := by
  intro n hn
  cases k with
  | source s =>
    cases s with
    | query q a => exact List.mem_singleton.mp hn ▸ h.1
    | _ => cases hn
  | column c =>
    cases c with
    | query q a => exact List.mem_singleton.mp hn ▸ h.1
    | _ => cases hn
  | condition c =>
    obtain ⟨p, _, _⟩ := c
    cases p with
    | oneOfQuery _ q => exact List.mem_singleton.mp hn ▸ h.2
    | rowsExist q => exact List.mem_singleton.mp hn ▸ h
    | againstQuery _ _ q => exact List.mem_singleton.mp hn ▸ h.2.2
    | queryAgainst q _ _ => exact List.mem_singleton.mp hn ▸ h.1
    | nested q => exact List.mem_singleton.mp hn ▸ h
    | _ => cases hn
  | join j => exact List.mem_singleton.mp hn ▸ h
  | combine c =>
    cases c with
    | query _ _ q => exact List.mem_singleton.mp hn ▸ h
    | raw _ _ => cases hn
  | insert i =>
    cases i with
    | query _ q => exact List.mem_singleton.mp hn ▸ h.2
    | values _ _ _ => cases hn
  | _ => cases hn

structure Terms.Le (t u : Terms) : Prop where
  name : ∀ n, t.name n → u.name n
  orderName : ∀ n, t.orderName n → u.orderName n
  operator : ∀ o, t.operator o → u.operator o
  datePart : ∀ p, t.datePart p → u.datePart p
  function : ∀ f, t.function f → u.function f
  seed : ∀ s, t.seed s → u.seed s
  escape : ∀ e, t.escape e → u.escape e
  value : ∀ v, t.value v → u.value v
  raw : ∀ sql bindings, t.raw sql bindings → u.raw sql bindings

theorem Source.Obeys.mono {u : Terms} (hu : t.Le u) {s : Source σ} (h : s.Obeys t P) :
    s.Obeys u P := by
  cases s with
  | table _ => exact hu.name _ h
  | raw _ _ _ => exact ⟨hu.raw _ _ h.1, fun n hn => hu.name n (h.2 n hn)⟩
  | query _ _ => exact ⟨h.1, fun n hn => hu.name n (h.2 n hn)⟩

theorem Column.Obeys.mono {u : Terms} (hu : t.Le u) {c : Column σ} (h : c.Obeys t P) :
    c.Obeys u P := by
  cases c with
  | named _ => exact hu.name _ h
  | raw _ _ => exact hu.raw _ _ h
  | query _ _ => exact ⟨h.1, fun n hn => hu.name n (h.2 n hn)⟩

theorem Predicate.Obeys.mono {u : Terms} (hu : t.Le u) {p : Predicate σ} (h : p.Obeys t P) :
    p.Obeys u P := by
  cases p with
  | compare _ _ _ => exact ⟨hu.name _ h.1, hu.operator _ h.2.1, hu.value _ h.2.2⟩
  | like _ _ _ _ _ =>
    obtain ⟨hn, ho, hv, he⟩ := h
    exact ⟨hu.name _ hn, hu.operator _ ho, hu.value _ hv, fun e hm => hu.escape e (he e hm)⟩
  | datePart _ _ _ _ =>
    obtain ⟨hp, hn, ho, hv⟩ := h
    exact ⟨hu.datePart _ hp, hu.name _ hn, hu.operator _ ho, hu.value _ hv⟩
  | columns _ _ _ => exact ⟨hu.name _ h.1, hu.operator _ h.2.1, hu.name _ h.2.2⟩
  | isNull _ => exact hu.name _ h
  | truth _ _ => exact hu.name _ h
  | oneOf _ _ => exact ⟨hu.name _ h.1, fun v hv => hu.value v (h.2 v hv)⟩
  | oneOfQuery _ _ => exact ⟨hu.name _ h.1, h.2⟩
  | between _ _ _ => exact ⟨hu.name _ h.1, hu.value _ h.2.1, hu.value _ h.2.2⟩
  | rowsExist _ => exact h
  | againstQuery _ _ _ => exact ⟨hu.name _ h.1, hu.operator _ h.2.1, h.2.2⟩
  | queryAgainst _ _ _ => exact ⟨h.1, hu.operator _ h.2.1, hu.value _ h.2.2⟩
  | nested _ => exact h
  | raw _ _ => exact hu.raw _ _ h

theorem ClauseKind.Obeys.mono {u : Terms} (hu : t.Le u) {k : ClauseKind σ} (h : k.Obeys t P) :
    k.Obeys u P := by
  cases k with
  | source s => exact Source.Obeys.mono hu h
  | column c => exact Column.Obeys.mono hu h
  | condition c => exact Predicate.Obeys.mono hu h
  | join j => exact h
  | order o =>
    cases o with
    | column _ _ => exact ⟨hu.name _ h.1, hu.orderName _ h.2⟩
    | raw _ _ => exact hu.raw _ _ h
    | random _ => exact hu.seed _ h
  | combine c =>
    cases c with
    | query _ _ _ => exact h
    | raw _ _ => exact hu.raw _ _ h
  | insert i =>
    cases i with
    | values _ _ _ =>
      exact ⟨fun n hn => hu.name n (h.1 n hn), fun v hv => hu.value v (h.2 v hv)⟩
    | query _ _ => exact ⟨fun n hn => hu.name n (h.1 n hn), h.2⟩
  | aggregate a => exact ⟨hu.function _ h.1, fun n hn => hu.name n (h.2 n hn)⟩
  | limit _ => trivial
  | offset _ => trivial

theorem Statement.Obeys.mono {u : Terms} (hu : t.Le u) {q : Statement σ} (h : q.Obeys t P) :
    q.Obeys u P :=
  ⟨fun n hn => hu.name n (h.1 n hn), fun c hc => (h.2 c hc).mono hu⟩

theorem ClauseKind.obeys_map {f : σ → τ} {R : τ → Prop} {k : ClauseKind σ} :
    (k.map f).Obeys t R ↔ k.Obeys t (R ∘ f) := by
  cases k with
  | source s => cases s <;> rfl
  | column c => cases c <;> rfl
  | condition c =>
    obtain ⟨p, _, _⟩ := c
    cases p <;> rfl
  | combine c => cases c <;> rfl
  | insert i => cases i <;> rfl
  | _ => rfl

theorem Statement.Obeys.imp {q : Statement σ} (h : q.Obeys t P)
    (hn : ∀ n ∈ q.nested, P n → Q n) : q.Obeys t Q :=
  ⟨h.1, fun c hc => (h.2 c hc).imp fun n hk => hn n (mem_nested.mpr ⟨c, hc, hk⟩)⟩

theorem Statement.obeys_map {f : σ → τ} {R : τ → Prop} {q : Statement σ} :
    (q.map f).Obeys t R ↔ q.Obeys t (R ∘ f) := by
  simp [Obeys, Statement.map, Clause.map, ClauseKind.obeys_map]

theorem Subquery.obeys_of {q : Query} : (Subquery.of q).Obeys t ↔ q.Obeys t := by
  rw [Obeys, fold_of, Statement.obeys_map]
  rfl

theorem Subquery.Obeys.induction {P : Subquery → Prop}
    (step : ∀ q : Query, q.Obeys t → Statement.Obeys t P q → P (.of q)) (s : Subquery)
    (h : s.Obeys t) : P s := by
  induction s using Subquery.induction with
  | step q ih =>
    have hq := obeys_of.mp h
    exact step q hq (Statement.Obeys.imp hq ih)

theorem Subquery.Obeys.mono {u : Terms} (hu : t.Le u) (s : Subquery) (h : s.Obeys t) :
    s.Obeys u :=
  induction (P := fun s => s.Obeys u)
    (fun _ _ hn => obeys_of.mpr (Statement.Obeys.mono hu hn)) s h

theorem Query.Obeys.mono {u : Terms} (hu : t.Le u) {q : Query} (h : q.Obeys t) : q.Obeys u :=
  Statement.Obeys.mono hu (Statement.Obeys.imp h fun s _ hs => Subquery.Obeys.mono hu s hs)

namespace Statement

variable {α : Type} {q : Statement σ} {component : Component} {engine : Option Engine}

theorem Obeys.kind (h : q.Obeys t P) {c : Clause σ} (hc : c ∈ q.bucket component engine) :
    c.kind.Obeys t P :=
  h.2 c (mem_bucket.mp hc).1

theorem Obeys.getAll (h : q.Obeys t P) {as? : ClauseKind σ → Option α} {A : α → Prop}
    (hA : ∀ k a, as? k = some a → k.Obeys t P → A a) {xs : List α}
    (hx : q.getAll component as? engine = .ok xs) : ∀ x ∈ xs, A x := by
  intro x hm
  obtain ⟨c, hc, hk⟩ := mem_of_getAll hx hm
  exact hA c.kind x hk (h.kind hc)

theorem Obeys.getOne (h : q.Obeys t P) {as? : ClauseKind σ → Option α} {A : α → Prop}
    (hA : ∀ k a, as? k = some a → k.Obeys t P → A a) {x : α}
    (hx : q.getOne component as? engine = .ok (some x)) : A x := by
  obtain ⟨c, hc, hk⟩ := getOne_eq_some.mp hx
  exact hA c.kind x hk (h.kind (mem_of_choose hc))

end Statement

namespace ClauseKind

variable (k : ClauseKind σ)

theorem obeys_source (s : Source σ) (hk : k.source? = some s) (h : k.Obeys t P) :
    s.Obeys t P := by
  cases k <;> cases hk
  exact h

theorem obeys_column (c : Column σ) (hk : k.column? = some c) (h : k.Obeys t P) :
    c.Obeys t P := by
  cases k <;> cases hk
  exact h

theorem obeys_condition (c : Condition σ) (hk : k.condition? = some c) (h : k.Obeys t P) :
    c.Obeys t P := by
  cases k <;> cases hk
  exact h

theorem obeys_join (j : Join σ) (hk : k.join? = some j) (h : k.Obeys t P) : j.Obeys P := by
  cases k <;> cases hk
  exact h

theorem obeys_order (o : Order) (hk : k.order? = some o) (h : k.Obeys t P) : o.Obeys t := by
  cases k <;> cases hk
  exact h

theorem obeys_combine (c : Combine σ) (hk : k.combine? = some c) (h : k.Obeys t P) :
    c.Obeys t P := by
  cases k <;> cases hk
  exact h

theorem obeys_insert (i : Insert σ) (hk : k.insert? = some i) (h : k.Obeys t P) :
    i.Obeys t P := by
  cases k <;> cases hk
  exact h

theorem obeys_aggregate (a : Aggregate) (hk : k.aggregate? = some a) (h : k.Obeys t P) :
    a.Obeys t := by
  cases k <;> cases hk
  exact h

end ClauseKind

end SqlDialects
