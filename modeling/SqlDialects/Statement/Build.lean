import SqlDialects.Number.Digits
import SqlDialects.Statement.Store
import SqlDialects.Text.Braces
import SqlDialects.Text.Case

/-!
Building statements clause by clause. A clause is added for the engine in scope, and a condition
takes up the connector and the sign that are pending.
-/

namespace SqlDialects

variable {σ : Type}

def saturate (n : Nat) : UInt64 :=
  if n < Number.pow2 64 then UInt64.ofNat n else 18446744073709551615

namespace Statement

def rename (s : Statement σ) (name : String) : Statement σ := { s with aliasName := some name }

def setSource (s : Statement σ) (source : Source σ) : Statement σ :=
  s.addOrReplace .source (.source source)

def addColumn (s : Statement σ) (column : Column σ) : Statement σ :=
  s.add .select (.column column)

def addColumns (s : Statement σ) (names : List String) : Statement σ :=
  names.foldl (fun s name => s.addColumn (.named name)) s

/-- Selects columns, where a name may list several in braces. -/
def select (s : Statement σ) (names : List String) : Statement σ :=
  s.addColumns (names.flatMap Text.expandBraces)

def groupBy (s : Statement σ) (names : List String) : Statement σ :=
  names.foldl (fun s name => s.add .group (.column (.named name))) s

def orderBy (s : Statement σ) (names : List String) (ascending : Bool) : Statement σ :=
  names.foldl (fun s name => s.add .order (.order (.column name ascending))) s

def limit (s : Statement σ) (n : UInt64) : Statement σ := s.addOrReplace .limit (.limit n)

def offset (s : Statement σ) (n : UInt64) : Statement σ := s.addOrReplace .offset (.offset n)

def forPage (s : Statement σ) (page perPage : UInt64) : Statement σ :=
  (s.limit perPage).offset (saturate ((page.toNat - 1) * perPage.toNat))

def orNext (s : Statement σ) : Statement σ := { s with pendingOr := true }

def notNext (s : Statement σ) : Statement σ := { s with pendingNot := !s.pendingNot }

def addCondition (s : Statement σ) (component : Component) (p : Predicate σ) : Statement σ :=
  { s.add component (.condition ⟨p, s.pendingOr, s.pendingNot⟩) with
    pendingOr := false, pendingNot := false }

/-- A comparison with null is a test for null, negated by the operators for inequality. -/
def compare (s : Statement σ) (component : Component) (column operator : String)
    (value : Value) : Statement σ :=
  if value.isNull then
    (if operator = "!=" ∨ operator = "<>" then s.notNext else s).addCondition component
      (.isNull column)
  else s.addCondition component (.compare column operator value)

def insertAll (s : Statement σ) (rows : List (Insert σ)) : Statement σ :=
  rows.foldl (fun s row => s.add .insert (.insert row))
    ({ s with method := .insert }.clear .insert none)

def assignAll (s : Statement σ) (method : Method) (component : Component)
    (columns : List String) (values : List Value) : Statement σ :=
  ({ s with method := method }.clear component none).add component
    (.insert (.values columns values false))

def aggregate (s : Statement σ) (function : String) (columns : List String) : Statement σ :=
  ({ s with method := .aggregate }.clear .aggregate none).add .aggregate
    (.aggregate ⟨function, if columns.isEmpty then ["*"] else columns⟩)

def define (s : Statement σ) (name : String) (value : Value) : Statement σ :=
  { s with vars := s.vars.define name value }

end Statement

end SqlDialects
