import SqlDialects.Statement.Step

/-!
Aggregates over a page, an order or several columns. The aggregate of one column is taken where
it stands; of several, or of distinct rows, it is taken over an inner statement.
-/

namespace SqlDialects

def Query.unpaged (q : Query) : Query :=
  ((q.clear .limit none).clear .order none).clear .group none

/-- The rows that an aggregate counts: distinct in the columns, or else not null in each. -/
def Query.counted (engine : Engine) (columns : List String) (q : Query) : Query :=
  let inner : Query := { q.clear .aggregate (some engine) with method := .select }
  if inner.distinct then (inner.clear .select (some engine)).select columns
  else columns.foldl (fun q name => q.notNext.addCondition .filter (.isNull name)) inner

def Query.aggregateOver (function : String) (inner : Query) : Query :=
  { (Statement.add ({} : Query) .aggregate (.aggregate ⟨function, ["*"]⟩)).setSource
      (.query (.of (inner.rename (function ++ "Query"))) none) with method := .aggregate }

def Query.aggregated (engine : Engine) (q : Query) : Except Fault Query := do
  let q := q.unpaged
  match ← q.getOne .aggregate ClauseKind.aggregate? (some engine) with
  | none => return q
  | some a =>
    if a.columns.length = 1 ∧ !q.distinct then return q
    else return Query.aggregateOver a.function (q.counted engine a.columns)

end SqlDialects
