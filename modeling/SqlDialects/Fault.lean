import SqlDialects.Statement.Kind
import SqlDialects.Value.Literal

/-! Why a statement has no SQL. -/

namespace SqlDialects

inductive Operation where
  | select
  | insert
  | update
  | delete
  | join
  deriving DecidableEq

def Operation.name : Operation → String
  | select => "select"
  | insert => "insert"
  | update => "update"
  | delete => "delete"
  | join => "join"

inductive Misplaced where
  | family (f : Family)
  /-- Rows of a query where rows of values belong. -/
  | insertQuery
  deriving DecidableEq

def Misplaced.name : Misplaced → String
  | family f => f.name
  | insertQuery => "InsertQueryClause"

inductive Fault where
  | missingTable (operation : Operation)
  | derivedTarget (operation : Operation)
  | emptyValues (component : Component)
  | arityMismatch (component : Component) (columns values : Nat)
  | unsafeOperator (operator : String)
  | misplacedClause (component : Component) (found : Misplaced)
  | undefinedVariable (name : String)
  | unnamedCte
  | likeOperand (value : Value)
  | markerMismatch (markers bindings : Nat)

def Fault.message : Fault → String
  | missingTable o => "No table set to " ++ o.name
  | derivedTarget o =>
    "Cannot " ++ o.name ++ " a derived table, use a concrete or raw table expression"
  | emptyValues c => "Columns and values cannot be empty in the '" ++ c.name ++ "' clause"
  | arityMismatch c columns values =>
    "Columns count (" ++ Number.natText columns ++ ") should be equal to values count (" ++
      Number.natText values ++ ") in the '" ++ c.name ++ "' clause"
  | unsafeOperator op =>
    "The operator '" ++ op ++
      "' cannot be used. Please consider white listing it before using it."
  | misplacedClause c found =>
    "Invalid type \"" ++ found.name ++ "\" provided for the \"" ++ c.name ++ "\" clause."
  | undefinedVariable name => "Variable '" ++ name ++ "' not found"
  | unnamedCte => "Invalid value: CTE without an alias"
  | likeOperand v => "Invalid value: expected a string for a LIKE comparison, got " ++ v.literal
  | markerMismatch markers bindings =>
    "Found " ++ Number.natText markers ++ " parameter markers but " ++ Number.natText bindings ++
      " bindings"

end SqlDialects
