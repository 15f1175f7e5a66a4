import SqlDialects.Proofs.Paging.Ordering
import SqlDialects.Proofs.Paging.Top

/-!
Pages of the rows of a select. Each engine asks for them in its own way: by a clause behind the
others, by one behind the keyword of the select, or by a range of the numbers of its rows.
-/

namespace SqlDialects

namespace Paging

/-- What is open in front of a word: nothing, a comment that the line ends, or comments in one
another. -/
inductive Gap where
  | none
  | line
  | block (depth : Nat)

def behindGap : Gap → List Char → List Char
  | _, [] => []
  | .none, '-' :: '-' :: rest => behindGap .line rest
  | .none, '/' :: '*' :: rest => behindGap (.block 0) rest
  | .none, c :: rest => if Text.isBlank c then behindGap .none rest else c :: rest
  | .line, c :: rest => behindGap (if c = '\n' then .none else .line) rest
  | .block depth, '/' :: '*' :: rest => behindGap (.block (depth + 1)) rest
  | .block 0, '*' :: '/' :: rest => behindGap .none rest
  | .block (depth + 1), '*' :: '/' :: rest => behindGap (.block depth) rest
  | .block depth, _ :: rest => behindGap (.block depth) rest

def inWord (c : Char) : Bool :=
  (Reading.isWordChar c || "@#$".toList.contains c) && !Text.isBlank c

def quantifiers : List String := ["DISTINCT", "ALL", "TOP"]

/-- The quantifiers that leave rows out. -/
def selective : List String := ["DISTINCT", "TOP"]

/-- The columns begin with one of the words, which belongs to the keyword of the select then and not
to them. -/
def Quantified (words : List String) (columns : String) : Prop :=
  ((behindGap .none columns.toList).takeWhile inWord).map Char.toUpper ∈ words.map String.toList

instance (words : List String) (columns : String) : Decidable (Quantified words columns) :=
  inferInstanceAs (Decidable (_ ∈ words.map String.toList))

example : Quantified quantifiers "/* a -- */ distinct[a]" ∧
    ¬Quantified quantifiers "DISTINCT_ID" ∧ ¬Quantified quantifiers "*" := by
  decide +kernel

end Paging

def numberedBy (order : String) : String := "ROW_NUMBER() OVER (" ++ order ++ ") AS [row_num]"

namespace Compiler

section Pages

variable (c : Compiler) (ss : Scopes) (q : Statement Rendering)

inductive Numbers : Fragment → Fragment → Prop
  | ordered {columns order : Fragment} {rest : String} {bound : List Value}
      (hc : c.basicColumns ss q = ⟨columns.bindings, .ok columns.sql⟩)
      (ho : c.orders q = ⟨order.bindings, .ok (some order.sql)⟩) :
      Numbers
        ⟨columns.sql ++ rest ++ " " ++ order.sql, columns.bindings ++ bound ++ order.bindings⟩
        ⟨columns.sql ++ ", " ++ numberedBy order.sql ++ rest,
          columns.bindings ++ order.bindings ++ bound⟩
  | unordered {columns : Fragment} {rest : String} {bound : List Value}
      (hc : c.basicColumns ss q = ⟨columns.bindings, .ok columns.sql⟩)
      (ho : c.orders q = pure none) :
      Numbers ⟨columns.sql ++ rest, columns.bindings ++ bound⟩
        ⟨columns.sql ++ ", " ++ numberedBy anyOrder ++ rest, columns.bindings ++ bound⟩

/-- How a select asks for a page of all its rows: not at all, by the clause of the engine, by one
between the keyword and the columns, or by a range of the numbers of the rows. -/
inductive Paged (all : Fragment) : Fragment → Paging → Prop
  | whole : Paged all all (.slice none 0)
  | behind {text : String} {bindings : List Value} {p : Paging}
      (hr : (Paging.Reader.clause c.engine (q.has .order (some c.engine))).read? text bindings =
        some p) :
      Paged all ⟨all.sql ++ " " ++ text, all.bindings ++ bindings⟩ p
  | inside {text columns : String} {bindings : List Value} {p : Paging}
      (he : c.engine = .sqlServer) (ha : all.sql = "SELECT " ++ columns)
      (hq : ¬Paging.Quantified Paging.quantifiers columns)
      (hr : Paging.Reader.top.read? text bindings = some p) :
      Paged all ⟨"SELECT " ++ text ++ " " ++ columns, bindings ++ all.bindings⟩ p
  | around {inner : Fragment} {text columns : String} {bindings : List Value} {p : Paging}
      (he : c.engine = .sqlServer) (ha : all.sql = "SELECT " ++ columns)
      (hq : ¬Paging.Quantified Paging.selective columns) (hn : Numbers c ss q all inner)
      (hr : Paging.Reader.range.read? text bindings = some p) :
      Paged all
        ⟨"SELECT * FROM (" ++ inner.sql ++ ") AS [results_wrapper] WHERE " ++ text,
          inner.bindings ++ bindings⟩ p

end Pages

variable {c : Compiler} {ss : Scopes} {q : Statement Rendering} {outer : Scopes} {w : Window}

section AllRows

variable (hcomb : q.has .combine (some c.engine) = false)

include hcomb

end AllRows

theorem Numbers.starts {all inner : Fragment} (h : Numbers c ss q all inner) (columns : String)
    (order : Option String) {bound bound' : List Value}
    (hc : c.basicColumns ss q = ⟨bound, .ok columns⟩) (ho : c.orders q = ⟨bound', .ok order⟩) :
    (columns ++ ", " ++ numberedBy (order.getD anyOrder)).toList <+: inner.sql.toList := by
  cases h with
  | @ordered columns' order' rest _ hc' ho' =>
    obtain rfl := Except.ok.inj (congrArg Emit.outcome (hc'.symm.trans hc))
    obtain rfl := Except.ok.inj (congrArg Emit.outcome (ho'.symm.trans ho))
    exact ⟨rest.toList, String.toList_append.symm⟩
  | @unordered columns' rest _ hc' ho' =>
    obtain rfl := Except.ok.inj (congrArg Emit.outcome (hc'.symm.trans hc))
    obtain rfl := Except.ok.inj (congrArg Emit.outcome (ho'.symm.trans ho))
    exact ⟨rest.toList, String.toList_append.symm⟩

end Compiler

end SqlDialects
