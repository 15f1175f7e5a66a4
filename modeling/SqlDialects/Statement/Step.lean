import SqlDialects.Statement.Build
import SqlDialects.Statement.Subquery

/-! The calls that build a statement, as data: a statement is the outcome of a list of steps. -/

namespace SqlDialects

inductive Step where
  /-- Starts over with a table. -/
  | table (name : String)
  | source (s : Source Subquery)
  | rename (name : String)
  | select (names : List String)
  | column (c : Column Subquery)
  | distinct
  | join (j : Join Subquery)
  | groupBy (names : List String)
  | group (c : Column Subquery)
  | orderBy (names : List String) (ascending : Bool)
  | order (o : Order)
  | limit (n : UInt64)
  | offset (n : UInt64)
  | forPage (page perPage : UInt64)
  | combine (c : Combine Subquery)
  | orNext
  | notNext
  | orThen (s : Step)
  | notThen (s : Step)
  | filter (p : Predicate Subquery)
  | having (p : Predicate Subquery)
  | compare (column operator : String) (value : Value)
  | compareHaving (column operator : String) (value : Value)
  | insertRows (columns : List String) (rows : List (List Value)) (returnId : Bool)
  | insertQuery (columns : List String) (query : Query)
  | update (columns : List String) (values : List Value)
  | assign (columns : List String) (values : List Value)
  | delete
  | aggregate (function : String) (columns : List String)
  | cte (s : Source Subquery)
  | define (name : String) (value : Value)
  /-- The clauses that the steps add are for one engine. The steps go on with the statement itself:
  none of them puts it, with the engine in scope, into a fresh one. -/
  | forEngine (engine : Engine) (steps : List Step)
  | add (component : Component) (kind : ClauseKind Subquery)
  | addOrReplace (component : Component) (kind : ClauseKind Subquery)
  | clear (component : Component) (engine : Option Engine)

namespace Query

def table (name : String) : Query := ({} : Query).setSource (.table name)

mutual
def apply (q : Query) : Step → Query
  | .table name => table name
  | .source s => q.setSource s
  | .rename name => q.rename name
  | .select names => q.select names
  | .column c => q.addColumn c
  | .distinct => { q with distinct := true }
  | .join j => q.add .join (.join j)
  | .groupBy names => q.groupBy names
  | .group c => q.add .group (.column c)
  | .orderBy names ascending => q.orderBy names ascending
  | .order o => q.add .order (.order o)
  | .limit n => q.limit n
  | .offset n => q.offset n
  | .forPage page perPage => q.forPage page perPage
  | .combine c => q.add .combine (.combine c)
  | .orNext => q.orNext
  | .notNext => q.notNext
  | .orThen s => apply q.orNext s
  | .notThen s => apply q.notNext s
  | .filter p => q.addCondition .filter p
  | .having p => q.addCondition .having p
  | .compare column operator value => q.compare .filter column operator value
  | .compareHaving column operator value => q.compare .having column operator value
  | .insertRows columns rows returnId => q.insertAll (rows.map (.values columns · returnId))
  | .insertQuery columns source => q.insertAll [.query columns (.of source)]
  | .update columns values => q.assignAll .update .update columns values
  | .assign columns values => q.assignAll .assign .assign columns values
  | .delete => { q with method := .delete }
  | .aggregate function columns => q.aggregate function columns
  | .cte s => q.add .cte (.source s)
  | .define name value => q.define name value
  | .forEngine engine steps => { run { q with scope := some engine } steps with scope := q.scope }
  | .add component kind => q.add component kind
  | .addOrReplace component kind => q.addOrReplace component kind
  | .clear component engine => q.clear component engine

def run (q : Query) : List Step → Query
  | [] => q
  | s :: steps => run (apply q s) steps
end

def build (steps : List Step) : Query := run {} steps

@[simp] theorem run_nil (q : Query) : run q [] = q := rfl

theorem run_append (q : Query) (a b : List Step) : run q (a ++ b) = run (run q a) b := by
  induction a generalizing q with
  | nil => rfl
  | cons s a ih => exact ih _

end Query

inductive JoinStep where
  | on (first operator second : String)
  | orOn (first operator second : String)
  | constrain (steps : List Step)

def JoinStep.steps : JoinStep → List Step
  | on first operator second => [.filter (.columns first operator second)]
  | orOn first operator second => [.orThen (.filter (.columns first operator second))]
  | constrain steps => steps

namespace Step

def sourceTable (name : String) : Step := source (.table name)

def sourceRaw (sql : String) (bindings : List Value) : Step := source (.raw sql bindings none)

def sourceQuery (q : Query) : Step := source (.query (.of q) none)

def sourceQueryAs (q : Query) (name : String) : Step := sourceQuery (q.rename name)

def columnRaw (sql : String) (bindings : List Value) : Step := column (.raw sql bindings)

def columnQuery (q : Query) (name : String) : Step := column (.query (.of q) (some name))

def joinTable (kind : JoinKind) (table : String) (constraints : List JoinStep) : Step :=
  join ⟨kind, .of ((Query.table table).run (constraints.flatMap JoinStep.steps))⟩

def joinQuery (kind : JoinKind) (q : Query) (name : String) (constraints : List JoinStep) : Step :=
  join ⟨kind, .of (Query.build (sourceQueryAs q name :: constraints.flatMap JoinStep.steps))⟩

def joinOn (kind : JoinKind) (table first operator second : String) : Step :=
  joinTable kind table [.on first operator second]

def groupRaw (sql : String) (bindings : List Value) : Step := group (.raw sql bindings)

def orderRaw (sql : String) (bindings : List Value) : Step := order (.raw sql bindings)

def orderRandom (seed : String) : Step := order (.random seed)

def combineQuery (operation : SetOperation) (all : Bool) (q : Query) : Step :=
  combine (.query operation all (.of q))

def combineRaw (sql : String) (bindings : List Value) : Step := combine (.raw sql bindings)

def equal (column : String) (value : Value) : Step := compare column "=" value

def isNull (column : String) : Step := filter (.isNull column)

def isTrue (column : String) : Step := filter (.truth column true)

def isFalse (column : String) : Step := filter (.truth column false)

def oneOf (column : String) (values : List Value) : Step := filter (.oneOf column values)

def oneOfQuery (column : String) (q : Query) : Step := filter (.oneOfQuery column (.of q))

def between (column : String) (lower higher : Value) : Step :=
  filter (.between column lower higher)

def matchText (column operator : String) (value : Value) (caseSensitive : Bool)
    (escape : Option Char) : Step :=
  filter (.like column operator value caseSensitive escape)

def like (column : String) (value : Value) : Step := matchText column "like" value false none

def starts (column : String) (value : Value) : Step := matchText column "starts" value false none

def ends (column : String) (value : Value) : Step := matchText column "ends" value false none

def containsText (column : String) (value : Value) : Step :=
  matchText column "contains" value false none

def datePart (part column operator : String) (value : Value) : Step :=
  filter (.datePart (Text.lower part) column operator value)

def date (column operator : String) (value : Value) : Step := datePart "date" column operator value

def time (column operator : String) (value : Value) : Step := datePart "time" column operator value

def columns (first operator second : String) : Step := filter (.columns first operator second)

def filterRaw (sql : String) (bindings : List Value) : Step := filter (.raw sql bindings)

def havingRaw (sql : String) (bindings : List Value) : Step := having (.raw sql bindings)

/-- Tests that a query has rows; what it selects does not matter and becomes a constant. -/
def rowsExist (q : Query) : Step :=
  filter (.rowsExist (.of ((q.clear .select none).addColumn (.raw "1" []))))

def nested (steps : List Step) : Step := filter (.nested (.of (Query.build steps)))

def queryAgainst (q : Query) (operator : String) (value : Value) : Step :=
  filter (.queryAgainst (.of q) operator value)

def againstQuery (column operator : String) (q : Query) : Step :=
  filter (.againstQuery column operator (.of q))

def insertRow (columns : List String) (values : List Value) : Step :=
  insertRows columns [values] false

def insertRowReturningId (columns : List String) (values : List Value) : Step :=
  insertRows columns [values] true

def insertPairs (pairs : List (String × Value)) : Step :=
  insertRow (pairs.map (·.1)) (pairs.map (·.2))

def updatePairs (pairs : List (String × Value)) : Step :=
  update (pairs.map (·.1)) (pairs.map (·.2))

def count (columns : List String) : Step := aggregate "count" columns

def average (column : String) : Step := aggregate "avg" [column]

def sum (column : String) : Step := aggregate "sum" [column]

def maximum (column : String) : Step := aggregate "max" [column]

def minimum (column : String) : Step := aggregate "min" [column]

def cteQuery (name : String) (q : Query) : Step :=
  cte (.query (.of (q.rename name)) (some name))

def cteRaw (name sql : String) (bindings : List Value) : Step :=
  cte (.raw sql bindings (some name))

end Step

end SqlDialects
