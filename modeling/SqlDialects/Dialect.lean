import SqlDialects.Engine
import SqlDialects.Text.Case
import SqlDialects.Text.Occurrences
import SqlDialects.Text.Quote

/-!
The words and marks in which engines differ, and identifiers quoted with them. Inside the quotes
the closing mark is written twice.
-/

namespace SqlDialects

structure Dialect where
  opening : Char := '"'
  closing : Char := '"'
  columnAs : String := "AS "
  tableAs : String := "AS "
  /-- The statement that reports the id of the row just inserted. -/
  lastId : String := ""
  escape : Char := '\\'
  placeholder : Char := '?'
  markerPrefix : String := "@p"
  deriving DecidableEq

def Engine.dialect : Engine → Dialect
  | generic => {}
  | mySql => { opening := '\x60', closing := '\x60', lastId := "SELECT last_insert_id() as Id" }
  | postgres => { lastId := "SELECT lastval() AS id" }
  | sqlServer => { opening := '[', closing := ']', lastId := "SELECT scope_identity() as Id" }
  | sqlite => { lastId := "select last_insert_rowid() as id" }
  | firebird => {}

def Dialect.quote (d : Dialect) (text : List Char) : List Char :=
  Text.quote d.opening d.closing text

def afterAs? : List Char → Option (List Char)
  | ' ' :: a :: s :: ' ' :: rest =>
    if (a = 'a' ∨ a = 'A') ∧ (s = 's' ∨ s = 'S') then some rest else none
  | _ => none

def splitAs? : List Char → Option (List Char × List Char)
  | [] => none
  | c :: rest =>
    match afterAs? (c :: rest) with
    | some after => some ([], after)
    | none => (splitAs? rest).map fun (before, after) => (c :: before, after)

namespace Engine

def wrapSegment (e : Engine) (text : List Char) : List Char :=
  if text = ['*'] then text
  else
    let wrapped := e.dialect.quote text
    if e = firebird then wrapped.flatMap Text.upperChar else wrapped

def wrapPath (e : Engine) (text : List Char) : List Char :=
  List.intercalate ['.'] ((Text.pieces ['.'] text).map e.wrapSegment)

def wrapName (e : Engine) (text : List Char) : List Char :=
  match splitAs? text with
  | some (before, after) =>
    e.wrapPath before ++ ' ' :: e.dialect.columnAs.toList ++ e.wrapSegment after
  | none => e.wrapPath text

def wrapValue (e : Engine) (text : String) : String := String.ofList (e.wrapSegment text.toList)

def wrap (e : Engine) (text : String) : String := String.ofList (e.wrapName text.toList)

def delimiters (d : Dialect) : List (Char × Char) :=
  [('{', d.opening), ('}', d.closing), ('[', d.opening), (']', d.closing)]

def wrapIdentifiers (e : Engine) (sql : String) : String :=
  (delimiters e.dialect).foldl
    (fun sql (mark, quote) =>
      Text.replaceUnescaped e.dialect.escape.toString mark.toString quote.toString sql)
    sql

theorem upperChar_quote : Text.upperChar '"' = ['"'] := rfl

@[simp] theorem wrapSegment_star (e : Engine) : e.wrapSegment ['*'] = ['*'] := rfl

end Engine

end SqlDialects
