import SqlDialects.Dialect
import SqlDialects.Fault

/-!
Compilers: an engine, how it pages, how it names parameters, and the operators it accepts.
-/

namespace SqlDialects

structure Config where
  /-- Pages by numbering rows where the engine has no clause for it in old versions. -/
  legacyPaging : Bool := true
  operators : List String := []
  markerPrefix : Option String := none
  deriving DecidableEq

structure Compiler where
  engine : Engine
  legacyPaging : Bool
  markerPrefix : String
  /-- Operators accepted besides the safe ones, in lower case and without repetition. -/
  operators : List String
  deriving DecidableEq

def safeOperators : List String :=
  ["=", "<", ">", "<=", ">=", "<>", "!=", "<=>", "like", "not like", "ilike", "not ilike",
    "like binary", "not like binary", "rlike", "not rlike", "regexp", "not regexp",
    "similar to", "not similar to"]

namespace Compiler

def insertOperator (operators : List String) (operator : String) : List String :=
  if operators.contains operator then operators else operators ++ [operator]

def accept (c : Compiler) (operators : List String) : Compiler :=
  { c with operators := (operators.map Text.lower).foldl insertOperator c.operators }

def ofConfig (engine : Engine) (config : Config) : Compiler :=
  Compiler.accept
    ⟨engine, config.legacyPaging, config.markerPrefix.getD engine.dialect.markerPrefix, []⟩
    config.operators

def ofEngine (engine : Engine) : Compiler := ofConfig engine {}

def dialect (c : Compiler) : Dialect := c.engine.dialect

def accepts (c : Compiler) (operator : String) : Bool :=
  safeOperators.contains operator || c.operators.contains operator

def checkOperator (c : Compiler) (operator : String) : Except Fault String :=
  let op := Text.lower operator
  if c.accepts op then .ok op else .error (.unsafeOperator op)

theorem mem_insertOperator {operators : List String} {operator op : String} :
    op ∈ insertOperator operators operator ↔ op ∈ operators ∨ op = operator := by
  by_cases h : operator ∈ operators
  · simp only [insertOperator, List.contains_iff_mem, h, if_true]
    exact ⟨Or.inl, fun ho => ho.elim id fun he => he ▸ h⟩
  · simp [insertOperator, h]

theorem mem_foldl_insertOperator {added operators : List String} {op : String} :
    op ∈ added.foldl insertOperator operators ↔ op ∈ operators ∨ op ∈ added := by
  induction added generalizing operators with
  | nil => simp
  | cons a added ih => rw [List.foldl_cons, ih, mem_insertOperator, List.mem_cons, or_assoc]

theorem mem_operators_accept {c : Compiler} {added : List String} {op : String} :
    op ∈ (c.accept added).operators ↔ op ∈ c.operators ∨ op ∈ added.map Text.lower :=
  mem_foldl_insertOperator

end Compiler

end SqlDialects
