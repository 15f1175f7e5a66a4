/-!
TOML values and tables. How a table came to be decides whether it may still grow: a table that
only stood in the names of others may get a header once, one made by dotted keys may get more
keys, and an inline table is finished.
-/

namespace SqlDialects

namespace Toml

inductive Origin where
  | header
  | implied
  | dotted
  | inline
  deriving DecidableEq

end Toml

inductive Toml where
  | string (text : String)
  | bool (b : Bool)
  /-- A number or a date, as it is written. -/
  | other (text : List Char)
  | array (items : List Toml)
  | table (origin : Toml.Origin) (members : List (String × Toml))
  /-- Tables under one repeated header. -/
  | tables (elements : List (List (String × Toml)))

namespace Toml

abbrev Members := List (String × Toml)

def member? (key : String) : Members → Option Toml
  | [] => none
  | (k, v) :: rest => if k = key then some v else member? key rest

def replace (key : String) (value : Toml) : Members → Members
  | [] => []
  | (k, v) :: rest => if k = key then (k, value) :: rest else (k, v) :: replace key value rest

/-- Changes the table at the end of a path, making the tables on the way. Dotted keys do not reach
into tables that have a header. -/
def alter (dotted : Bool) (change : Origin → Members → Option Members) (origin : Origin) :
    List String → Members → Option Members
  | [], members => change origin members
  | key :: path, members =>
    match member? key members with
    | none =>
      let made := if dotted then Origin.dotted else .implied
      (alter dotted change made path []).map fun inner => members ++ [(key, .table made inner)]
    | some (.table o inner) =>
      if o = .inline ∨ dotted ∧ o = .header then none
      else (alter dotted change o path inner).map fun inner =>
        replace key (.table o inner) members
    | some (.tables elements) =>
      match elements.getLast? with
      | none => none
      | some last => (alter dotted change .header path last).map fun inner =>
          replace key (.tables (elements.dropLast ++ [inner])) members
    | some _ => none

def insertNew (key : String) (value : Toml) (members : Members) : Option Members :=
  match member? key members with
  | some _ => none
  | none => some (members ++ [(key, value)])

def assign (path : List String) (key : String) (value : Toml) (origin : Origin)
    (members : Members) : Option Members :=
  alter true
    (fun o inner =>
      if (o = .dotted) ↔ path = [] then none else insertNew key value inner)
    origin path members

def openTable (key : String) (_ : Origin) (members : Members) : Option Members :=
  match member? key members with
  | none => some (members ++ [(key, .table .header [])])
  | some (.table .implied inner) => some (replace key (.table .header inner) members)
  | some _ => none

def openElement (key : String) (_ : Origin) (members : Members) : Option Members :=
  match member? key members with
  | none => some (members ++ [(key, .tables [[]])])
  | some (.tables elements) => some (replace key (.tables (elements ++ [[]])) members)
  | some _ => none

end Toml

end SqlDialects
