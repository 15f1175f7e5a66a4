/-!
The closed sets of words that statements are made of. Each has the name it shows and, where
statements are stored, the tag it is stored under.
-/

namespace SqlDialects

inductive Method where
  | select
  | insert
  | update
  | delete
  | aggregate
  | assign
  deriving DecidableEq

namespace Method

def all : List Method := [select, insert, update, delete, aggregate, assign]

def name : Method → String
  | select => "select"
  | insert => "insert"
  | update => "update"
  | delete => "delete"
  | aggregate => "aggregate"
  | assign => "set"

def tag : Method → String
  | select => "Select"
  | insert => "Insert"
  | update => "Update"
  | delete => "Delete"
  | aggregate => "Aggregate"
  | assign => "Set"

def ofTag? (tag : String) : Option Method := all.find? (·.tag == tag)

@[simp] theorem ofTag?_tag (m : Method) : ofTag? m.tag = some m := by cases m <;> rfl

end Method

/-- The buckets in which a statement keeps its clauses. -/
inductive Component where
  | source
  | select
  | filter
  | join
  | group
  | having
  | order
  | limit
  | offset
  | combine
  | insert
  | update
  | assign
  | cte
  | aggregate
  deriving DecidableEq

namespace Component

def all : List Component :=
  [source, select, filter, join, group, having, order, limit, offset, combine, insert, update,
    assign, cte, aggregate]

def name : Component → String
  | source => "from"
  | select => "select"
  | filter => "where"
  | join => "join"
  | group => "group"
  | having => "having"
  | order => "order"
  | limit => "limit"
  | offset => "offset"
  | combine => "combine"
  | insert => "insert"
  | update => "update"
  | assign => "set"
  | cte => "cte"
  | aggregate => "aggregate"

def tag : Component → String
  | source => "From"
  | select => "Select"
  | filter => "Where"
  | join => "Join"
  | group => "Group"
  | having => "Having"
  | order => "Order"
  | limit => "Limit"
  | offset => "Offset"
  | combine => "Combine"
  | insert => "Insert"
  | update => "Update"
  | assign => "Set"
  | cte => "Cte"
  | aggregate => "Aggregate"

def ofName? (name : String) : Option Component := all.find? (·.name == name)

def ofTag? (tag : String) : Option Component := all.find? (·.tag == tag)

@[simp] theorem ofTag?_tag (c : Component) : ofTag? c.tag = some c := by cases c <;> rfl

end Component

inductive JoinKind where
  | inner
  | left
  | right
  | cross
  deriving DecidableEq

namespace JoinKind

def all : List JoinKind := [inner, left, right, cross]

def keyword : JoinKind → String
  | inner => "INNER JOIN"
  | left => "LEFT JOIN"
  | right => "RIGHT JOIN"
  | cross => "CROSS JOIN"

def tag : JoinKind → String
  | inner => "Inner"
  | left => "Left"
  | right => "Right"
  | cross => "Cross"

def ofTag? (tag : String) : Option JoinKind := all.find? (·.tag == tag)

@[simp] theorem ofTag?_tag (k : JoinKind) : ofTag? k.tag = some k := by cases k <;> rfl

end JoinKind

inductive SetOperation where
  | union
  | except
  | intersect
  deriving DecidableEq

namespace SetOperation

def all : List SetOperation := [union, except, intersect]

def keyword : SetOperation → String
  | union => "UNION"
  | except => "EXCEPT"
  | intersect => "INTERSECT"

def tag : SetOperation → String
  | union => "Union"
  | except => "Except"
  | intersect => "Intersect"

def ofTag? (tag : String) : Option SetOperation := all.find? (·.tag == tag)

@[simp] theorem ofTag?_tag (o : SetOperation) : ofTag? o.tag = some o := by cases o <;> rfl

end SetOperation

/-- The families of clauses; a bucket holds clauses of one family. -/
inductive Family where
  | source
  | column
  | condition
  | join
  | order
  | combine
  | insert
  | aggregate
  | limit
  | offset
  deriving DecidableEq

namespace Family

def all : List Family :=
  [source, column, condition, join, order, combine, insert, aggregate, limit, offset]

def name : Family → String
  | source => "FromClause"
  | column => "Column"
  | condition => "Condition"
  | join => "Join"
  | order => "OrderBy"
  | combine => "Combine"
  | insert => "InsertClause"
  | aggregate => "AggregateClause"
  | limit => "LimitClause"
  | offset => "OffsetClause"

def ofName? (name : String) : Option Family := all.find? (·.name == name)

end Family

end SqlDialects
