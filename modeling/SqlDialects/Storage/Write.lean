import SqlDialects.Compiled
import SqlDialects.Json.Basic

/-!
The form in which statements are stored. A choice is an object with one member named for it, or a
bare name if nothing belongs to it. What is pending and in scope is not stored.
-/

namespace SqlDialects

open Json Number

/-- A number that is not finite is written as null. -/
def floatJson (x : Float) : Json :=
  match floatParts x with
  | .finite _ _ _ => .number (floatText numberLayout x).toList
  | _ => .null

mutual
def Value.toJson : Value → Json
  | .null => ofText "Null"
  | .bool b => tagged "Bool" (.bool b)
  | .int n => tagged "Int" (ofInt n.toInt)
  | .uint n => tagged "UInt" (ofNat n.toNat)
  | .float x => tagged "Float" (floatJson x)
  | .decimal d => tagged "Decimal" (ofText d.text)
  | .string s => tagged "String" (ofText s)
  | .bytes bs => tagged "Bytes" (.array (bs.map fun b => ofNat b.toNat))
  | .uuid u => tagged "Uuid" (ofText u.text)
  | .date d => tagged "Date" (ofText d.text)
  | .dateTime d => tagged "DateTime" (ofText d.text)
  | .array items => tagged "Array" (.array (Value.listToJson items))
  | .raw sql => tagged "Raw" (ofText sql)
  | .var name => tagged "Variable" (ofText name)

def Value.listToJson : List Value → List Json
  | [] => []
  | v :: vs => v.toJson :: Value.listToJson vs
end

def valuesJson (values : List Value) : Json := .array (Value.listToJson values)

def textsJson (texts : List String) : Json := .array (texts.map ofText)

def rawMembers (sql : String) (bindings : List Value) : List (String × Json) :=
  [("expression", ofText sql), ("bindings", valuesJson bindings)]

def Source.toJson : Source Json → Json
  | table name => tagged "Table" (record [("table", ofText name)])
  | raw sql bindings aliasName =>
    tagged "Raw" (record (rawMembers sql bindings ++ [("alias", ofOption ofText aliasName)]))
  | query q aliasName =>
    tagged "Query" (record [("query", q), ("alias", ofOption ofText aliasName)])

def Column.toJson : Column Json → Json
  | named name => tagged "Named" (ofText name)
  | raw sql bindings => tagged "Raw" (record (rawMembers sql bindings))
  | query q aliasName =>
    tagged "Query" (record [("query", q), ("alias", ofOption ofText aliasName)])

def Predicate.toJson : Predicate Json → Json
  | compare column operator value =>
    tagged "Basic" (record [("column", ofText column), ("operator", ofText operator),
      ("value", value.toJson)])
  | like column operator value caseSensitive escape =>
    tagged "Like" (record [("column", ofText column), ("operator", ofText operator),
      ("value", value.toJson), ("case_sensitive", .bool caseSensitive),
      ("escape", ofOption (fun e => ofText e.toString) escape)])
  | datePart part column operator value =>
    tagged "Date" (record [("part", ofText part), ("column", ofText column),
      ("operator", ofText operator), ("value", value.toJson)])
  | columns first operator second =>
    tagged "Columns" (record [("first", ofText first), ("operator", ofText operator),
      ("second", ofText second)])
  | isNull column => tagged "Null" (record [("column", ofText column)])
  | truth column value =>
    tagged "Boolean" (record [("column", ofText column), ("value", .bool value)])
  | oneOf column values =>
    tagged "In" (record [("column", ofText column), ("values", valuesJson values)])
  | oneOfQuery column q => tagged "InQuery" (record [("column", ofText column), ("query", q)])
  | between column lower higher =>
    tagged "Between" (record [("column", ofText column), ("lower", lower.toJson),
      ("higher", higher.toJson)])
  | rowsExist q => tagged "Exists" (record [("query", q)])
  | againstQuery column operator q =>
    tagged "ColumnQuery" (record [("column", ofText column), ("operator", ofText operator),
      ("query", q)])
  | queryAgainst q operator value =>
    tagged "SubQuery" (record [("query", q), ("operator", ofText operator),
      ("value", value.toJson)])
  | nested q => tagged "Nested" (record [("query", q)])
  | raw sql bindings => tagged "Raw" (record (rawMembers sql bindings))

def Condition.toJson (c : Condition Json) : Json :=
  record [("kind", c.predicate.toJson), ("is_or", .bool c.isOr), ("is_not", .bool c.isNot)]

def Join.toJson (j : Join Json) : Json :=
  record [("kind", ofText j.kind.tag), ("query", j.target)]

def Order.toJson : Order → Json
  | column name ascending =>
    tagged "Column" (record [("column", ofText name), ("ascending", .bool ascending)])
  | raw sql bindings => tagged "Raw" (record (rawMembers sql bindings))
  | random seed => tagged "Random" (record [("seed", ofText seed)])

def Combine.toJson : Combine Json → Json
  | query operation all q =>
    tagged "Query" (record [("operation", ofText operation.tag), ("all", .bool all),
      ("query", q)])
  | raw sql bindings => tagged "Raw" (record (rawMembers sql bindings))

def Insert.toJson : Insert Json → Json
  | values names vs returnId =>
    tagged "Values" (record [("columns", textsJson names), ("values", valuesJson vs),
      ("return_id", .bool returnId)])
  | query names q => tagged "Query" (record [("columns", textsJson names), ("query", q)])

def Aggregate.toJson (a : Aggregate) : Json :=
  record [("function", ofText a.function), ("columns", textsJson a.columns)]

def ClauseKind.toJson : ClauseKind Json → Json
  | source s => tagged "From" s.toJson
  | column c => tagged "Column" c.toJson
  | condition c => tagged "Condition" c.toJson
  | join j => tagged "Join" j.toJson
  | order o => tagged "Order" o.toJson
  | combine c => tagged "Combine" c.toJson
  | insert i => tagged "Insert" i.toJson
  | aggregate a => tagged "Aggregate" a.toJson
  | limit n => tagged "Limit" (ofNat n.toNat)
  | offset n => tagged "Offset" (ofNat n.toNat)

def ClauseKind.contentJson : ClauseKind Json → Json
  | source s => s.toJson
  | column c => c.toJson
  | condition c => c.toJson
  | join j => j.toJson
  | order o => o.toJson
  | combine c => c.toJson
  | insert i => i.toJson
  | aggregate a => a.toJson
  | limit n => ofNat n.toNat
  | offset n => ofNat n.toNat

def Clause.toJson (c : Clause Json) : Json :=
  record [("component", ofText c.component.tag), ("engine", ofOption (ofText ·.name) c.engine),
    ("kind", c.kind.toJson)]

def Variables.toJson (vars : Variables) : Json :=
  record (vars.map fun (name, value) => (name, value.toJson))

def Statement.toJson (s : Statement Json) : Json :=
  record [("method", ofText s.method.tag), ("alias", ofOption ofText s.aliasName),
    ("distinct", .bool s.distinct), ("clauses", .array (s.clauses.map Clause.toJson)),
    ("variables", s.vars.toJson)]

def Subquery.toJson : Subquery → Json := Subquery.fold Statement.toJson

def Query.toJson (q : Query) : Json := Statement.toJson (q.map Subquery.toJson)

def Compiled.toJson (r : Compiled) : Json :=
  record [("query", ofOption Query.toJson r.query), ("raw_sql", ofText r.rawSql),
    ("sql", ofText r.sql), ("bindings", valuesJson r.bindings),
    ("named_bindings", record (r.named.map fun (name, value) => (name, value.toJson)))]

theorem Subquery.toJson_of (q : Query) : Subquery.toJson (.of q) = Query.toJson q := by
  rw [Subquery.toJson, Subquery.fold_of]
  rfl

end SqlDialects
