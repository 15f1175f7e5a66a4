import SqlDialects.Statement.Subquery

/-!
Equality of statements, down to pending flags and scopes. Values are equal as `Value.same` says,
and the order of variables does not matter.
-/

namespace SqlDialects

variable {σ τ : Type}

def Source.same (r : σ → τ → Bool) : Source σ → Source τ → Bool
  | table a, table b => a == b
  | raw s bs a, raw s' bs' a' => s == s' && Value.sameItems bs bs' && a == a'
  | query q a, query q' a' => r q q' && a == a'
  | _, _ => false

def Column.same (r : σ → τ → Bool) : Column σ → Column τ → Bool
  | named a, named b => a == b
  | raw s bs, raw s' bs' => s == s' && Value.sameItems bs bs'
  | query q a, query q' a' => r q q' && a == a'
  | _, _ => false

def Predicate.same (r : σ → τ → Bool) : Predicate σ → Predicate τ → Bool
  | compare c o v, compare c' o' v' => c == c' && o == o' && v.same v'
  | like c o v s e, like c' o' v' s' e' => c == c' && o == o' && v.same v' && s == s' && e == e'
  | datePart p c o v, datePart p' c' o' v' => p == p' && c == c' && o == o' && v.same v'
  | columns a o b, columns a' o' b' => a == a' && o == o' && b == b'
  | isNull c, isNull c' => c == c'
  | truth c v, truth c' v' => c == c' && v == v'
  | oneOf c vs, oneOf c' vs' => c == c' && Value.sameItems vs vs'
  | oneOfQuery c q, oneOfQuery c' q' => c == c' && r q q'
  | between c l h, between c' l' h' => c == c' && l.same l' && h.same h'
  | rowsExist q, rowsExist q' => r q q'
  | againstQuery c o q, againstQuery c' o' q' => c == c' && o == o' && r q q'
  | queryAgainst q o v, queryAgainst q' o' v' => r q q' && o == o' && v.same v'
  | nested q, nested q' => r q q'
  | raw s bs, raw s' bs' => s == s' && Value.sameItems bs bs'
  | _, _ => false

def Condition.same (r : σ → τ → Bool) (a : Condition σ) (b : Condition τ) : Bool :=
  a.predicate.same r b.predicate && a.isOr == b.isOr && a.isNot == b.isNot

def Join.same (r : σ → τ → Bool) (a : Join σ) (b : Join τ) : Bool :=
  a.kind == b.kind && r a.target b.target

def Order.same : Order → Order → Bool
  | column c a, column c' a' => c == c' && a == a'
  | raw s bs, raw s' bs' => s == s' && Value.sameItems bs bs'
  | random s, random s' => s == s'
  | _, _ => false

def Combine.same (r : σ → τ → Bool) : Combine σ → Combine τ → Bool
  | query o a q, query o' a' q' => o == o' && a == a' && r q q'
  | raw s bs, raw s' bs' => s == s' && Value.sameItems bs bs'
  | _, _ => false

def Insert.same (r : σ → τ → Bool) : Insert σ → Insert τ → Bool
  | values cs vs i, values cs' vs' i' => cs == cs' && Value.sameItems vs vs' && i == i'
  | query cs q, query cs' q' => cs == cs' && r q q'
  | _, _ => false

def ClauseKind.same (r : σ → τ → Bool) : ClauseKind σ → ClauseKind τ → Bool
  | source a, source b => a.same r b
  | column a, column b => a.same r b
  | condition a, condition b => a.same r b
  | join a, join b => a.same r b
  | order a, order b => a.same b
  | combine a, combine b => a.same r b
  | insert a, insert b => a.same r b
  | aggregate a, aggregate b => a == b
  | limit a, limit b => a == b
  | offset a, offset b => a == b
  | _, _ => false

def Clause.same (r : σ → τ → Bool) (a : Clause σ) (b : Clause τ) : Bool :=
  a.component == b.component && a.engine == b.engine && a.kind.same r b.kind

def Clause.sameAll (r : σ → τ → Bool) : List (Clause σ) → List (Clause τ) → Bool
  | [], [] => true
  | a :: as, b :: bs => a.same r b && sameAll r as bs
  | _, _ => false

def Statement.same (r : σ → τ → Bool) (a : Statement σ) (b : Statement τ) : Bool :=
  a.method == b.method && a.aliasName == b.aliasName && a.distinct == b.distinct &&
    Clause.sameAll r a.clauses b.clauses && a.vars.same b.vars && a.scope == b.scope &&
    a.pendingOr == b.pendingOr && a.pendingNot == b.pendingNot

def Subquery.same : Subquery → Subquery → Bool :=
  Subquery.fold fun s other => s.same (fun test q => test q) other.statement

def Query.same (a b : Query) : Bool := Statement.same Subquery.same a b

theorem Subquery.same_of (a : Query) (b : Subquery) :
    Subquery.same (.of a) b =
      (a.map Subquery.same).same (fun test q => test q) b.statement := by
  rw [Subquery.same, fold_of]

end SqlDialects
