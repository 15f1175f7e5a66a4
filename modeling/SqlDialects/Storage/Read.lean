import SqlDialects.Json.Parse
import SqlDialects.Statement.Subquery
import SqlDialects.Value.Literal

/-!
Reading stored statements. Members of an object may come in any order, unknown ones are passed
over and repeated ones are refused; an array in the place of an object holds the members in their
order. The number that each reader takes is how many arrays and objects may still be nested.
-/

namespace SqlDialects

open Json Number Calendar

namespace Storage

def maxDepth : Nat := 127

abbrev Reader (α : Type) := Nat → Json → Option α

variable {α σ : Type}

structure Members where
  values : List (Option Json)
  /-- They were given as an array, in which only members with a default may be missing. -/
  positional : Bool

/-- The one member of a name; none may be there, two may not. -/
def member? (members : List (String × Json)) (name : String) : Option (Option Json) :=
  match members.filter (·.1 == name) with
  | [] => some none
  | [(_, value)] => some (some value)
  | _ => none

def decodeNames? (members : List (List Char × Json)) : Option (List (String × Json)) :=
  members.mapM fun (name, value) => (decodeText? name).map (·, value)

def members? (names : List String) : Nat → Json → Option (Members × Nat)
  | depth + 1, .object members => do
    let members ← decodeNames? members
    let values ← names.mapM (member? members)
    return (⟨values, false⟩, depth)
  | depth + 1, .array items =>
    if items.length ≤ names.length then
      some (⟨items.map some ++ List.replicate (names.length - items.length) none, true⟩, depth)
    else none
  | _, _ => none

namespace Members

def get (m : Members) (i : Nat) : Option Json := (m.values[i]?).join

def required (m : Members) (i : Nat) (depth : Nat) (read : Reader α) : Option α :=
  (m.get i).bind (read depth)

def orElse (m : Members) (i : Nat) (depth : Nat) (default : α) (read : Reader α) : Option α :=
  match m.get i with
  | some j => read depth j
  | none => some default

def optional (m : Members) (i : Nat) (depth : Nat) (read : Reader (Option α)) :
    Option (Option α) :=
  match m.get i with
  | some j => read depth j
  | none => if m.positional then none else some none

end Members

def nullable (read : Reader α) : Reader (Option α) := fun depth j =>
  match j with
  | .null => some none
  | j => (read depth j).map some

def list (read : Reader α) : Reader (List α)
  | depth + 1, .array items => items.mapM (read depth)
  | _, _ => none

def text : Reader String := fun _ j => j.text?

def bool : Reader Bool := fun _ j => j.bool?

def uint64 : Reader UInt64 := fun _ j => do
  let n ← j.int?
  if 0 ≤ n then some (UInt64.ofNat n.toNat) else none

def int64 : Reader Int64 := fun _ j => do
  let n ← j.int?
  if n < pow2 63 then some (Int64.ofInt n) else none

def byte : Reader UInt8 := fun _ j => do
  let n ← j.int?
  if 0 ≤ n ∧ n < 256 then some (UInt8.ofNat n.toNat) else none

def float : Reader Float := fun _ j =>
  match j.numeralOf? with
  | some (.int n) =>
    some (if n < 0 then -UInt64.toFloat (UInt64.ofNat n.natAbs)
      else UInt64.toFloat (UInt64.ofNat n.natAbs))
  | some (.float x) => some x
  | none => none

def decimal : Reader Decimal := fun _ j =>
  match j with
  | .string literal => (decodeText? literal).bind Decimal.ofText?
  | j => match j.numeralOf? with
    | some (.int n) => Decimal.ofInt? n
    | some (.float x) => Decimal.readPlain? (floatText literalLayout x).toList
    | none => none

def char : Reader Char := fun _ j => do
  match (← j.text?).toList with
  | [c] => some c
  | _ => none

def choice? : Nat → Json → Option (String × Option Json × Nat)
  | depth, .string literal => (decodeText? literal).map (·, none, depth)
  | depth + 1, .object [(name, value)] => (decodeText? name).map (·, some value, depth)
  | _, _ => none

def name (ofTag? : String → Option α) : Reader α := fun depth j => do
  let (tag, content, _) ← choice? depth j
  match content with
  | none => ofTag? tag
  | some .null => ofTag? tag
  | some _ => none

def variant (read : String → Option (Reader α)) : Reader α := fun depth j => do
  let (tag, content, depth) ← choice? depth j
  let read ← read tag
  read depth (← content)

def fields (names : List String) (read : Members → Nat → Option α) : Reader α := fun depth j => do
  let (members, depth) ← members? names depth j
  read members depth

def raw (make : String → List Value → α) (value : Reader Value) : Reader α :=
  fields ["expression", "bindings"] fun m depth => do
    let sql ← m.required 0 depth text
    let bindings ← m.required 1 depth (list value)
    return make sql bindings

def leaf : String → Option (Reader Value)
  | "Bool" => some fun depth j => (bool depth j).map .bool
  | "Int" => some fun depth j => (int64 depth j).map .int
  | "UInt" => some fun depth j => (uint64 depth j).map .uint
  | "Float" => some fun depth j => (float depth j).map .float
  | "Decimal" => some fun depth j => (decimal depth j).map .decimal
  | "String" => some fun depth j => (text depth j).map .string
  | "Bytes" => some fun depth j => (list byte depth j).map .bytes
  | "Uuid" => some fun _ j => (j.text?.bind Uuid.ofText?).map .uuid
  | "Date" => some fun _ j => (j.text?.bind Date.ofText?).map .date
  | "DateTime" => some fun _ j => (j.text?.bind DateTime.ofText?).map .dateTime
  | "Raw" => some fun depth j => (text depth j).map .raw
  | "Variable" => some fun depth j => (text depth j).map .var
  | _ => none

def valueWithin : Nat → Reader Value
  | 0, _, _ => none
  | tries + 1, depth, j => do
    let (tag, content, depth) ← choice? depth j
    match tag, content with
    | "Null", none => some .null
    | "Null", some .null => some .null
    | "Array", some j => (list (valueWithin tries) depth j).map .array
    | tag, some j => (← leaf tag) depth j
    | _, none => none

def value : Reader Value := valueWithin (maxDepth + 1)

def source (sub : Reader σ) : Reader (Source σ) :=
  variant fun
    | "Table" => some (fields ["table"] fun m depth => do
        let name ← m.required 0 depth text
        return .table name)
    | "Raw" => some (fields ["expression", "bindings", "alias"] fun m depth => do
        let sql ← m.required 0 depth text
        let bindings ← m.required 1 depth (list value)
        let aliasName ← m.optional 2 depth (nullable text)
        return .raw sql bindings aliasName)
    | "Query" => some (fields ["query", "alias"] fun m depth => do
        let query ← m.required 0 depth sub
        let aliasName ← m.optional 1 depth (nullable text)
        return .query query aliasName)
    | _ => none

def column (sub : Reader σ) : Reader (Column σ) :=
  variant fun
    | "Named" => some fun depth j => (text depth j).map .named
    | "Raw" => some (raw .raw value)
    | "Query" => some (fields ["query", "alias"] fun m depth => do
        let query ← m.required 0 depth sub
        let aliasName ← m.optional 1 depth (nullable text)
        return .query query aliasName)
    | _ => none

def predicate (sub : Reader σ) : Reader (Predicate σ) :=
  variant fun
    | "Basic" => some (fields ["column", "operator", "value"] fun m depth => do
        let column ← m.required 0 depth text
        let operator ← m.required 1 depth text
        let v ← m.required 2 depth value
        return .compare column operator v)
    | "Like" => some (fields ["column", "operator", "value", "case_sensitive", "escape"]
        fun m depth => do
          let column ← m.required 0 depth text
          let operator ← m.required 1 depth text
          let v ← m.required 2 depth value
          let caseSensitive ← m.required 3 depth bool
          let escape ← m.optional 4 depth (nullable char)
          return .like column operator v caseSensitive escape)
    | "Date" => some (fields ["part", "column", "operator", "value"] fun m depth => do
        let part ← m.required 0 depth text
        let column ← m.required 1 depth text
        let operator ← m.required 2 depth text
        let v ← m.required 3 depth value
        return .datePart part column operator v)
    | "Columns" => some (fields ["first", "operator", "second"] fun m depth => do
        let first ← m.required 0 depth text
        let operator ← m.required 1 depth text
        let second ← m.required 2 depth text
        return .columns first operator second)
    | "Null" => some (fields ["column"] fun m depth => do
        let column ← m.required 0 depth text
        return .isNull column)
    | "Boolean" => some (fields ["column", "value"] fun m depth => do
        let column ← m.required 0 depth text
        let v ← m.required 1 depth bool
        return .truth column v)
    | "In" => some (fields ["column", "values"] fun m depth => do
        let column ← m.required 0 depth text
        let values ← m.required 1 depth (list value)
        return .oneOf column values)
    | "InQuery" => some (fields ["column", "query"] fun m depth => do
        let column ← m.required 0 depth text
        let query ← m.required 1 depth sub
        return .oneOfQuery column query)
    | "Between" => some (fields ["column", "lower", "higher"] fun m depth => do
        let column ← m.required 0 depth text
        let lower ← m.required 1 depth value
        let higher ← m.required 2 depth value
        return .between column lower higher)
    | "Exists" => some (fields ["query"] fun m depth => do
        let query ← m.required 0 depth sub
        return .rowsExist query)
    | "ColumnQuery" => some (fields ["column", "operator", "query"] fun m depth => do
        let column ← m.required 0 depth text
        let operator ← m.required 1 depth text
        let query ← m.required 2 depth sub
        return .againstQuery column operator query)
    | "SubQuery" => some (fields ["query", "operator", "value"] fun m depth => do
        let query ← m.required 0 depth sub
        let operator ← m.required 1 depth text
        let v ← m.required 2 depth value
        return .queryAgainst query operator v)
    | "Nested" => some (fields ["query"] fun m depth => do
        let query ← m.required 0 depth sub
        return .nested query)
    | "Raw" => some (raw .raw value)
    | _ => none

def condition (sub : Reader σ) : Reader (Condition σ) :=
  fields ["kind", "is_or", "is_not"] fun m depth => do
    let p ← m.required 0 depth (predicate sub)
    let isOr ← m.orElse 1 depth false bool
    let isNot ← m.orElse 2 depth false bool
    return ⟨p, isOr, isNot⟩

def join (sub : Reader σ) : Reader (Join σ) :=
  fields ["kind", "query"] fun m depth => do
    let kind ← m.required 0 depth (name JoinKind.ofTag?)
    let query ← m.required 1 depth sub
    return ⟨kind, query⟩

def order : Reader Order :=
  variant fun
    | "Column" => some (fields ["column", "ascending"] fun m depth => do
        let column ← m.required 0 depth text
        let ascending ← m.required 1 depth bool
        return .column column ascending)
    | "Raw" => some (raw .raw value)
    | "Random" => some (fields ["seed"] fun m depth => do
        let seed ← m.required 0 depth text
        return .random seed)
    | _ => none

def combine (sub : Reader σ) : Reader (Combine σ) :=
  variant fun
    | "Query" => some (fields ["operation", "all", "query"] fun m depth => do
        let operation ← m.required 0 depth (name SetOperation.ofTag?)
        let all ← m.required 1 depth bool
        let query ← m.required 2 depth sub
        return .query operation all query)
    | "Raw" => some (raw .raw value)
    | _ => none

def insert (sub : Reader σ) : Reader (Insert σ) :=
  variant fun
    | "Values" => some (fields ["columns", "values", "return_id"] fun m depth => do
        let columns ← m.required 0 depth (list text)
        let values ← m.required 1 depth (list value)
        let returnId ← m.required 2 depth bool
        return .values columns values returnId)
    | "Query" => some (fields ["columns", "query"] fun m depth => do
        let columns ← m.required 0 depth (list text)
        let query ← m.required 1 depth sub
        return .query columns query)
    | _ => none

def aggregate : Reader Aggregate :=
  fields ["function", "columns"] fun m depth => do
    let function ← m.required 0 depth text
    let columns ← m.required 1 depth (list text)
    return ⟨function, columns⟩

def clauseKind (sub : Reader σ) : Reader (ClauseKind σ) :=
  variant fun
    | "From" => some fun depth j => (source sub depth j).map .source
    | "Column" => some fun depth j => (column sub depth j).map .column
    | "Condition" => some fun depth j => (condition sub depth j).map .condition
    | "Join" => some fun depth j => (join sub depth j).map .join
    | "Order" => some fun depth j => (order depth j).map .order
    | "Combine" => some fun depth j => (combine sub depth j).map .combine
    | "Insert" => some fun depth j => (insert sub depth j).map .insert
    | "Aggregate" => some fun depth j => (aggregate depth j).map .aggregate
    | "Limit" => some fun depth j => (uint64 depth j).map .limit
    | "Offset" => some fun depth j => (uint64 depth j).map .offset
    | _ => none

def clause (sub : Reader σ) : Reader (Clause σ) :=
  fields ["component", "engine", "kind"] fun m depth => do
    let component ← m.required 0 depth (name Component.ofTag?)
    let engine ← m.orElse 1 depth none (nullable (name Engine.ofName?))
    let kind ← m.required 2 depth (clauseKind sub)
    return ⟨component, engine, kind⟩

/-- Defines the variables in the order in which they stand; of a repeated name the last value
counts. -/
def definitions : Reader Variables
  | depth + 1, .object members => do
    let members ← decodeNames? members
    members.foldlM (fun vars (name, j) => (value depth j).map (vars.define name)) []
  | _, _ => none

def statement (sub : Reader σ) : Reader (Statement σ) :=
  fields ["method", "alias", "distinct", "clauses", "variables"] fun m depth => do
    let method ← m.orElse 0 depth .select (name Method.ofTag?)
    let aliasName ← m.orElse 1 depth none (nullable text)
    let distinct ← m.orElse 2 depth false bool
    let clauses ← m.orElse 3 depth [] (list (clause sub))
    let vars ← m.orElse 4 depth [] definitions
    return ⟨method, aliasName, distinct, clauses, vars, none, false, false⟩

def subqueryWithin : Nat → Reader Subquery
  | 0, _, _ => none
  | tries + 1, depth, j => (statement (subqueryWithin tries) depth j).map .of

def subquery : Reader Subquery := subqueryWithin (maxDepth + 1)

end Storage

def Query.ofJson? (j : Json) : Option Query := Storage.statement Storage.subquery Storage.maxDepth j

def Query.ofText? (text : String) : Option Query := (Json.parse? text).bind Query.ofJson?

def ClauseKind.ofText? (text : String) : Option (ClauseKind Subquery) :=
  (Json.parse? text).bind (Storage.clauseKind Storage.subquery Storage.maxDepth)

end SqlDialects
