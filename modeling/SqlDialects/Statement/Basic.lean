import SqlDialects.Engine
import SqlDialects.Statement.Kind
import SqlDialects.Value.Basic

/-!
Statements and their clauses. All of them are generic in the type `σ` that stands for the
statements nested in them, so that a pass over a statement first replaces each nested statement
by what the pass makes of it, and then treats the clauses of one statement alone.
-/

namespace SqlDialects

/-- Where rows come from. A name may carry its own alias, as in `users as u`. -/
inductive Source (σ : Type) where
  | table (name : String)
  | raw (sql : String) (bindings : List Value) (aliasName : Option String)
  | query (query : σ) (aliasName : Option String)

inductive Column (σ : Type) where
  | named (name : String)
  | raw (sql : String) (bindings : List Value)
  | query (query : σ) (aliasName : Option String)

inductive Predicate (σ : Type) where
  | compare (column operator : String) (value : Value)
  /-- `starts`, `ends` and `contains` are operators here too. -/
  | like (column operator : String) (value : Value) (caseSensitive : Bool) (escape : Option Char)
  | datePart (part column operator : String) (value : Value)
  | columns (first operator second : String)
  | isNull (column : String)
  | truth (column : String) (value : Bool)
  | oneOf (column : String) (values : List Value)
  | oneOfQuery (column : String) (query : σ)
  | between (column : String) (lower higher : Value)
  | rowsExist (query : σ)
  | againstQuery (column operator : String) (query : σ)
  | queryAgainst (query : σ) (operator : String) (value : Value)
  /-- A group in parentheses: the conditions of another statement. -/
  | nested (query : σ)
  | raw (sql : String) (bindings : List Value)

structure Condition (σ : Type) where
  predicate : Predicate σ
  isOr : Bool := false
  isNot : Bool := false

/-- The table joined and the constraints on it are clauses of a statement of their own. -/
structure Join (σ : Type) where
  kind : JoinKind
  target : σ

inductive Order where
  | column (name : String) (ascending : Bool)
  | raw (sql : String) (bindings : List Value)
  | random (seed : String)

inductive Combine (σ : Type) where
  | query (operation : SetOperation) (all : Bool) (query : σ)
  | raw (sql : String) (bindings : List Value)

/-- Columns and what goes into them; updates use the first form too. -/
inductive Insert (σ : Type) where
  | values (columns : List String) (values : List Value) (returnId : Bool)
  | query (columns : List String) (query : σ)

structure Aggregate where
  function : String
  columns : List String
  deriving DecidableEq

inductive ClauseKind (σ : Type) where
  | source (s : Source σ)
  | column (c : Column σ)
  | condition (c : Condition σ)
  | join (j : Join σ)
  | order (o : Order)
  | combine (c : Combine σ)
  | insert (i : Insert σ)
  | aggregate (a : Aggregate)
  | limit (n : UInt64)
  | offset (n : UInt64)

structure Clause (σ : Type) where
  component : Component
  /-- The only engine the clause is for. -/
  engine : Option Engine
  kind : ClauseKind σ

structure Statement (σ : Type) where
  method : Method := .select
  /-- The name the statement goes by inside another one. -/
  aliasName : Option String := none
  distinct : Bool := false
  clauses : List (Clause σ) := []
  vars : Variables := []
  /-- The engine that clauses added from now on are for. -/
  scope : Option Engine := none
  /-- The next condition is joined with OR. -/
  pendingOr : Bool := false
  /-- The next condition is negated. -/
  pendingNot : Bool := false

variable {σ τ υ : Type}

def ClauseKind.family : ClauseKind σ → Family
  | source _ => .source
  | column _ => .column
  | condition _ => .condition
  | join _ => .join
  | order _ => .order
  | combine _ => .combine
  | insert _ => .insert
  | aggregate _ => .aggregate
  | limit _ => .limit
  | offset _ => .offset

def Source.map (f : σ → τ) : Source σ → Source τ
  | table name => .table name
  | raw sql bindings aliasName => .raw sql bindings aliasName
  | query q aliasName => .query (f q) aliasName

def Column.map (f : σ → τ) : Column σ → Column τ
  | named name => .named name
  | raw sql bindings => .raw sql bindings
  | query q aliasName => .query (f q) aliasName

def Predicate.map (f : σ → τ) : Predicate σ → Predicate τ
  | compare column operator value => .compare column operator value
  | like column operator value caseSensitive escape =>
    .like column operator value caseSensitive escape
  | datePart part column operator value => .datePart part column operator value
  | columns first operator second => .columns first operator second
  | isNull column => .isNull column
  | truth column value => .truth column value
  | oneOf column values => .oneOf column values
  | oneOfQuery column q => .oneOfQuery column (f q)
  | between column lower higher => .between column lower higher
  | rowsExist q => .rowsExist (f q)
  | againstQuery column operator q => .againstQuery column operator (f q)
  | queryAgainst q operator value => .queryAgainst (f q) operator value
  | nested q => .nested (f q)
  | raw sql bindings => .raw sql bindings

def Condition.map (f : σ → τ) (c : Condition σ) : Condition τ :=
  ⟨c.predicate.map f, c.isOr, c.isNot⟩

def Join.map (f : σ → τ) (j : Join σ) : Join τ := ⟨j.kind, f j.target⟩

def Combine.map (f : σ → τ) : Combine σ → Combine τ
  | query operation all q => .query operation all (f q)
  | raw sql bindings => .raw sql bindings

def Insert.map (f : σ → τ) : Insert σ → Insert τ
  | values names vs returnId => .values names vs returnId
  | query names q => .query names (f q)

def ClauseKind.map (f : σ → τ) : ClauseKind σ → ClauseKind τ
  | source s => .source (s.map f)
  | column c => .column (c.map f)
  | condition c => .condition (c.map f)
  | join j => .join (j.map f)
  | order o => .order o
  | combine c => .combine (c.map f)
  | insert i => .insert (i.map f)
  | aggregate a => .aggregate a
  | limit n => .limit n
  | offset n => .offset n

def Clause.map (f : σ → τ) (c : Clause σ) : Clause τ := ⟨c.component, c.engine, c.kind.map f⟩

def Statement.map (f : σ → τ) (s : Statement σ) : Statement τ :=
  ⟨s.method, s.aliasName, s.distinct, s.clauses.map (·.map f), s.vars, s.scope,
    s.pendingOr, s.pendingNot⟩

@[simp] theorem ClauseKind.family_map (f : σ → τ) (k : ClauseKind σ) :
    (k.map f).family = k.family := by
  cases k <;> rfl

theorem Source.map_map (f : σ → τ) (g : τ → υ) (s : Source σ) :
    (s.map f).map g = s.map (g ∘ f) := by
  cases s <;> rfl

theorem Column.map_map (f : σ → τ) (g : τ → υ) (c : Column σ) :
    (c.map f).map g = c.map (g ∘ f) := by
  cases c <;> rfl

theorem Condition.map_map (f : σ → τ) (g : τ → υ) (c : Condition σ) :
    (c.map f).map g = c.map (g ∘ f) := by
  obtain ⟨p, _, _⟩ := c
  cases p <;> rfl

theorem Combine.map_map (f : σ → τ) (g : τ → υ) (c : Combine σ) :
    (c.map f).map g = c.map (g ∘ f) := by
  cases c <;> rfl

theorem Insert.map_map (f : σ → τ) (g : τ → υ) (i : Insert σ) :
    (i.map f).map g = i.map (g ∘ f) := by
  cases i <;> rfl

theorem ClauseKind.map_map (f : σ → τ) (g : τ → υ) (k : ClauseKind σ) :
    (k.map f).map g = k.map (g ∘ f) := by
  cases k <;> simp [ClauseKind.map, Source.map_map, Column.map_map, Condition.map_map,
    Combine.map_map, Insert.map_map, Join.map]

theorem Statement.map_map (f : σ → τ) (g : τ → υ) (s : Statement σ) :
    (s.map f).map g = s.map (g ∘ f) := by
  simp [Statement.map, Clause.map, ClauseKind.map_map]

end SqlDialects
