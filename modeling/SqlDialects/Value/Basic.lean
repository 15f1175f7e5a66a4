import SqlDialects.Calendar.DateTime
import SqlDialects.Number.Decimal
import SqlDialects.Value.Uuid

/-!
Values that statements bind. A `raw` value is SQL text and is written into the statement; a
`var` stands for a value that the statement, or one around it, defines under a name.
-/

namespace SqlDialects

open Number Calendar

inductive Value where
  | null
  | bool (b : Bool)
  | int (n : Int64)
  | uint (n : UInt64)
  | float (x : Float)
  | decimal (d : Decimal)
  | string (text : String)
  | bytes (bs : List UInt8)
  | uuid (u : Uuid)
  | date (d : Date)
  | dateTime (d : DateTime)
  | array (items : List Value)
  | raw (sql : String)
  | var (name : String)

namespace Value

instance : Inhabited Value := ⟨null⟩

def isNull : Value → Bool
  | null => true
  | _ => false

def isArray : Value → Bool
  | array _ => true
  | _ => false

def text? : Value → Option String
  | string s => some s
  | raw s => some s
  | _ => none

mutual
/-- Equality of values: floating-point and decimal numbers are compared as numbers. -/
def same : Value → Value → Bool
  | null, null => true
  | bool a, bool b => a == b
  | int a, int b => a == b
  | uint a, uint b => a == b
  | float a, float b => a == b
  | decimal a, decimal b => a.sameNumber b
  | string a, string b => a == b
  | bytes a, bytes b => a == b
  | uuid a, uuid b => a == b
  | date a, date b => a == b
  | dateTime a, dateTime b => a == b
  | array a, array b => sameItems a b
  | raw a, raw b => a == b
  | var a, var b => a == b
  | _, _ => false

def sameItems : List Value → List Value → Bool
  | [], [] => true
  | a :: as, b :: bs => a.same b && sameItems as bs
  | _, _ => false
end

def flatten (values : List Value) : List Value :=
  values.flatMap fun
    | array items => items
    | v => [v]

mutual
def leaves : Value → List Value
  | array items => leavesOf items
  | v => [v]

def leavesOf : List Value → List Value
  | [] => []
  | v :: vs => v.leaves ++ leavesOf vs
end

@[simp] theorem flatten_append (a b : List Value) : flatten (a ++ b) = flatten a ++ flatten b :=
  List.flatMap_append

end Value

abbrev Variables := List (String × Value)

namespace Variables

def find? (vars : Variables) (name : String) : Option Value :=
  match vars with
  | [] => none
  | (n, v) :: rest => if n = name then some v else find? rest name

/-- Defines a name; a name defined before keeps its place and takes the new value. -/
def define (vars : Variables) (name : String) (value : Value) : Variables :=
  match vars with
  | [] => [(name, value)]
  | (n, v) :: rest => if n = name then (n, value) :: rest else (n, v) :: define rest name value

def same (a b : Variables) : Bool :=
  a.length == b.length && a.all fun (name, value) =>
    match find? b name with
    | some other => value.same other
    | none => false

end Variables

end SqlDialects
