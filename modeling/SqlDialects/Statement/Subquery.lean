import SqlDialects.Dialect
import SqlDialects.Statement.Basic
import SqlDialects.Text.Blank

/-!
Statements whose nested statements are statements again, to any depth. `Subquery.fold` gives each
its meaning from the meanings of those nested in it; `fold_of` is its defining equation. Tables and
derived tables go by names.
-/

namespace SqlDialects

inductive Subquery where
  | of (statement : Statement Subquery)

abbrev Query := Statement Subquery

namespace Subquery

def statement : Subquery → Query
  | of q => q

variable {α : Type}

mutual
def fold (meaning : Statement α → α) : Subquery → α
  | of q => meaning (foldStatement meaning q)
termination_by structural s => s

/-- The statement with each nested statement replaced by its meaning. -/
def foldStatement (meaning : Statement α → α) : Query → Statement α
  | ⟨method, aliasName, distinct, clauses, vars, scope, pendingOr, pendingNot⟩ =>
    ⟨method, aliasName, distinct, foldClauses meaning clauses, vars, scope, pendingOr,
      pendingNot⟩
termination_by structural s => s

def foldClauses (meaning : Statement α → α) : List (Clause Subquery) → List (Clause α)
  | [] => []
  | c :: cs => foldClause meaning c :: foldClauses meaning cs
termination_by structural s => s

def foldClause (meaning : Statement α → α) : Clause Subquery → Clause α
  | ⟨component, engine, kind⟩ => ⟨component, engine, foldKind meaning kind⟩
termination_by structural s => s

def foldKind (meaning : Statement α → α) : ClauseKind Subquery → ClauseKind α
  | .source s => .source (foldSource meaning s)
  | .column c => .column (foldColumn meaning c)
  | .condition c => .condition (foldCondition meaning c)
  | .join j => .join (foldJoin meaning j)
  | .order o => .order o
  | .combine c => .combine (foldCombine meaning c)
  | .insert i => .insert (foldInsert meaning i)
  | .aggregate a => .aggregate a
  | .limit n => .limit n
  | .offset n => .offset n
termination_by structural s => s

def foldSource (meaning : Statement α → α) : Source Subquery → Source α
  | .table name => .table name
  | .raw sql bindings aliasName => .raw sql bindings aliasName
  | .query q aliasName => .query (fold meaning q) aliasName
termination_by structural s => s

def foldColumn (meaning : Statement α → α) : Column Subquery → Column α
  | .named name => .named name
  | .raw sql bindings => .raw sql bindings
  | .query q aliasName => .query (fold meaning q) aliasName
termination_by structural s => s

def foldCondition (meaning : Statement α → α) : Condition Subquery → Condition α
  | ⟨predicate, isOr, isNot⟩ => ⟨foldPredicate meaning predicate, isOr, isNot⟩
termination_by structural s => s

def foldPredicate (meaning : Statement α → α) : Predicate Subquery → Predicate α
  | .compare column operator value => .compare column operator value
  | .like column operator value caseSensitive escape =>
    .like column operator value caseSensitive escape
  | .datePart part column operator value => .datePart part column operator value
  | .columns first operator second => .columns first operator second
  | .isNull column => .isNull column
  | .truth column value => .truth column value
  | .oneOf column values => .oneOf column values
  | .oneOfQuery column q => .oneOfQuery column (fold meaning q)
  | .between column lower higher => .between column lower higher
  | .rowsExist q => .rowsExist (fold meaning q)
  | .againstQuery column operator q => .againstQuery column operator (fold meaning q)
  | .queryAgainst q operator value => .queryAgainst (fold meaning q) operator value
  | .nested q => .nested (fold meaning q)
  | .raw sql bindings => .raw sql bindings
termination_by structural s => s

def foldJoin (meaning : Statement α → α) : Join Subquery → Join α
  | ⟨kind, target⟩ => ⟨kind, fold meaning target⟩
termination_by structural s => s

def foldCombine (meaning : Statement α → α) : Combine Subquery → Combine α
  | .query operation all q => .query operation all (fold meaning q)
  | .raw sql bindings => .raw sql bindings
termination_by structural s => s

def foldInsert (meaning : Statement α → α) : Insert Subquery → Insert α
  | .values columns values returnId => .values columns values returnId
  | .query columns q => .query columns (fold meaning q)
termination_by structural s => s
end

theorem foldKind_eq_map (meaning : Statement α → α) (k : ClauseKind Subquery) :
    foldKind meaning k = k.map (fold meaning) := by
  cases k with
  | source s => cases s <;> rfl
  | column c => cases c <;> rfl
  | condition c =>
    obtain ⟨p, _, _⟩ := c
    cases p <;> rfl
  | join j => cases j; rfl
  | order o => rfl
  | combine c => cases c <;> rfl
  | insert i => cases i <;> rfl
  | aggregate a => rfl
  | limit n => rfl
  | offset n => rfl

theorem foldClauses_eq_map (meaning : Statement α → α) (cs : List (Clause Subquery)) :
    foldClauses meaning cs = cs.map (·.map (fold meaning)) := by
  induction cs with
  | nil => rfl
  | cons c cs ih =>
    rw [foldClauses, ih, List.map_cons, foldClause, foldKind_eq_map]
    rfl

theorem foldStatement_eq_map (meaning : Statement α → α) (q : Query) :
    foldStatement meaning q = q.map (fold meaning) := by
  rw [foldStatement, foldClauses_eq_map]
  rfl

theorem fold_of (meaning : Statement α → α) (q : Query) :
    fold meaning (of q) = meaning (q.map (fold meaning)) := by
  rw [fold, foldStatement_eq_map]

end Subquery

section Aliases

variable {σ : Type}

/-- The name of a table: the third word of a text with an `as` in it, or else the whole text. -/
def tableAlias (name : String) : String :=
  match splitAs? name.toList with
  | some _ => ((Text.words name)[2]?).getD name
  | none => name

def Source.aliasBy (nameOf : σ → Option String) : Source σ → Option String
  | table name => some (tableAlias name)
  | raw _ _ aliasName => aliasName
  | query q aliasName => aliasName.or (nameOf q)

def Subquery.aliasName (s : Subquery) : Option String := s.statement.aliasName

def Source.alias? (s : Source Subquery) : Option String := s.aliasBy Subquery.aliasName

end Aliases

end SqlDialects
