import SqlDialects.Fault
import SqlDialects.Statement.Basic

/-!
Looking clauses up in their buckets. A clause is visible to an engine if it is for that engine or
for all of them; a look-up for no engine in particular sees every clause.
-/

namespace SqlDialects

variable {σ τ α : Type}

namespace ClauseKind

def source? : ClauseKind σ → Option (Source σ)
  | source s => some s
  | _ => none

def column? : ClauseKind σ → Option (Column σ)
  | column c => some c
  | _ => none

def condition? : ClauseKind σ → Option (Condition σ)
  | condition c => some c
  | _ => none

def join? : ClauseKind σ → Option (Join σ)
  | join j => some j
  | _ => none

def order? : ClauseKind σ → Option Order
  | order o => some o
  | _ => none

def combine? : ClauseKind σ → Option (Combine σ)
  | combine c => some c
  | _ => none

def insert? : ClauseKind σ → Option (Insert σ)
  | insert i => some i
  | _ => none

def aggregate? : ClauseKind σ → Option Aggregate
  | aggregate a => some a
  | _ => none

def limit? : ClauseKind σ → Option UInt64
  | limit n => some n
  | _ => none

def offset? : ClauseKind σ → Option UInt64
  | offset n => some n
  | _ => none

def ofFamily? (f : Family) (k : ClauseKind σ) : Option (ClauseKind σ) :=
  if k.family = f then some k else none

end ClauseKind

namespace Clause

def visible (component : Component) (engine : Option Engine) (c : Clause σ) : Bool :=
  c.component == component && (c.engine.isNone || engine.isNone || c.engine == engine)

def view (component : Component) (as? : ClauseKind σ → Option α) (c : Clause σ) :
    Except Fault α :=
  match as? c.kind with
  | some a => .ok a
  | none => .error (.misplacedClause component (.family c.kind.family))

@[simp] theorem visible_map (f : σ → τ) (component : Component) (engine : Option Engine)
    (c : Clause σ) : (c.map f).visible component engine = c.visible component engine := rfl

end Clause

namespace Statement

def bucket (s : Statement σ) (component : Component) (engine : Option Engine) :
    List (Clause σ) :=
  s.clauses.filter (·.visible component engine)

def has (s : Statement σ) (component : Component) (engine : Option Engine) : Bool :=
  s.clauses.any (·.visible component engine)

def getAll (s : Statement σ) (component : Component) (as? : ClauseKind σ → Option α)
    (engine : Option Engine) : Except Fault (List α) :=
  (s.bucket component engine).mapM (·.view component as?)

/-- The first clause for the engine itself, or else for every engine, or else at all. -/
def choose (engine : Option Engine) (cs : List (Clause σ)) : Option (Clause σ) :=
  (cs.find? fun c => engine.isSome && c.engine == engine).or
    ((cs.find? (·.engine.isNone)).or cs.head?)

def getOne (s : Statement σ) (component : Component) (as? : ClauseKind σ → Option α)
    (engine : Option Engine) : Except Fault (Option α) :=
  match choose engine (s.bucket component engine) with
  | some c => (c.view component as?).map some
  | none => .ok none

def limitFor (s : Statement σ) (engine : Option Engine) : Except Fault UInt64 :=
  (s.getOne .limit ClauseKind.limit? engine).map (·.getD 0)

def offsetFor (s : Statement σ) (engine : Option Engine) : Except Fault UInt64 :=
  (s.getOne .offset ClauseKind.offset? engine).map (·.getD 0)

def add (s : Statement σ) (component : Component) (kind : ClauseKind σ) : Statement σ :=
  { s with clauses := s.clauses ++ [⟨component, s.scope, kind⟩] }

/-- Replaces the first clause that stands in the bucket for exactly this engine. -/
def replaceFirst (component : Component) (engine : Option Engine) (kind : ClauseKind σ) :
    List (Clause σ) → List (Clause σ)
  | [] => [⟨component, engine, kind⟩]
  | c :: cs =>
    if c.component = component ∧ c.engine = engine then ⟨component, engine, kind⟩ :: cs
    else c :: replaceFirst component engine kind cs

/-- Puts a clause in the place of the bucket's clause for the same engine, or adds it. -/
def addOrReplace (s : Statement σ) (component : Component) (kind : ClauseKind σ) : Statement σ :=
  { s with clauses := replaceFirst component s.scope kind s.clauses }

/-- Removes what is visible to the engine, or else to the one in scope, or else everything. -/
def clear (s : Statement σ) (component : Component) (engine : Option Engine) : Statement σ :=
  { s with clauses := s.clauses.filter (!·.visible component (engine.or s.scope)) }

theorem bucket_add (s : Statement σ) (component other : Component) (kind : ClauseKind σ)
    (engine : Option Engine) :
    (s.add component kind).bucket other engine =
      s.bucket other engine ++
        [⟨component, s.scope, kind⟩].filter (Clause.visible other engine) := by
  simp [add, bucket, List.filter_append]

theorem has_eq_true_iff (s : Statement σ) (component : Component) (engine : Option Engine) :
    s.has component engine = true ↔ s.bucket component engine ≠ [] := by
  simp [has, bucket, List.filter_eq_nil_iff]

end Statement

end SqlDialects
