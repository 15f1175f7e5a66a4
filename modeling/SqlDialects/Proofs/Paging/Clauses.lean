import SqlDialects.Number.Digits
import SqlDialects.Proofs.Paging.Window
import SqlDialects.Proofs.Reading.Tokens

/-!
The clauses that ask for a page, read with what they bind. A placeholder takes the next binding.
-/

namespace SqlDialects

open Reading

namespace Paging

abbrev Reader := StateT (List Token × List Value) Option

namespace Reader

def phrase (text : String) : Reader Unit := fun (toks, bindings) =>
  let start := plainTokens text.toList
  if start.isPrefixOf toks then some ((), toks.drop start.length, bindings) else none

def count : Reader Nat := fun
  | (.sign '?' :: toks, .uint n :: bindings) => some (n.toNat, toks, bindings)
  | (.word text :: toks, bindings) =>
    if text.all Char.isDigit then some (Number.ofDigits text, toks, bindings) else none
  | _ => none

/-- A limit. A negative one is none for the engine that takes it. -/
def limit (e : Engine) : Reader (Option Nat) :=
  match e with
  | .sqlite => (do phrase "LIMIT -1"; return none) <|> (do phrase "LIMIT"; return some (← count))
  | _ => do
    phrase "LIMIT"
    return some (← count)

def offset : Reader Nat := do
  phrase "OFFSET"
  count

def limited (e : Engine) : Reader Paging := do
  let limit ← limit e
  let offset ← offset <|> pure 0
  return slice limit offset

/-- `OFFSET m ROWS`, with `FETCH NEXT n ROWS ONLY` behind it or without. Both belong to an order,
so one comes first if the select has none. -/
def fetched (ordered : Bool) : Reader Paging := do
  unless ordered do phrase "ORDER BY (SELECT 0)"
  let offset ← offset
  phrase "ROWS"
  let limit ←
    (do
      phrase "FETCH NEXT"
      let limit ← count
      phrase "ROWS ONLY"
      return some limit) <|> pure none
  return slice limit offset

def clause (e : Engine) (ordered : Bool) : Reader Paging :=
  match e with
  | .sqlServer => fetched ordered
  | .mySql | .sqlite => limited e
  | _ => limited e <|> do return slice none (← offset)

def top : Reader Paging := do
  phrase "TOP ("
  let limit ← count
  phrase ")"
  return slice (some limit) 0

def range : Reader Paging := do
  phrase "[row_num]"
  (do
    phrase ">="
    return numbered (← count) none) <|>
  (do
    phrase "BETWEEN"
    let first ← count
    phrase "AND"
    return numbered first (some (← count)))

def read? (r : Reader Paging) (text : String) (bindings : List Value) : Option Paging :=
  match r.run (plainTokens text.toList, bindings) with
  | some (p, [], []) => some p
  | _ => none

section Forms

variable (l o : UInt64)

theorem clause_limit {e : Engine} (he : e ≠ .sqlServer) (ordered : Bool) :
    (clause e ordered).read? "LIMIT ?" [.uint l] = some (slice (some l.toNat) 0) := by
  cases e <;> first | rfl | exact absurd rfl he

theorem clause_both {e : Engine} (he : e ≠ .sqlServer) (ordered : Bool) :
    (clause e ordered).read? "LIMIT ? OFFSET ?" [.uint l, .uint o] =
      some (slice (some l.toNat) o.toNat) := by
  cases e <;> first | rfl | exact absurd rfl he

theorem clause_offset {e : Engine} (he : e ∉ [Engine.mySql, .sqlite, .sqlServer])
    (ordered : Bool) :
    (clause e ordered).read? "OFFSET ?" [.uint o] = some (slice none o.toNat) := by
  cases e <;> first | rfl | exact absurd (by decide) he

theorem clause_rowBound (ordered : Bool) :
    (clause .mySql ordered).read? "LIMIT 18446744073709551615 OFFSET ?" [.uint o] =
      some (slice (some rowBound) o.toNat) := by rfl

theorem clause_negative (ordered : Bool) :
    (clause .sqlite ordered).read? "LIMIT -1 OFFSET ?" [.uint o] =
      some (slice none o.toNat) := by rfl

theorem clause_rows (ordered : Bool) :
    (clause .sqlServer ordered).read?
        ((if ordered then "" else "ORDER BY (SELECT 0) ") ++ "OFFSET ? ROWS") [.uint o] =
      some (slice none o.toNat) := by
  cases ordered <;> rfl

theorem clause_fetch (ordered : Bool) :
    (clause .sqlServer ordered).read? ((if ordered then "" else "ORDER BY (SELECT 0) ") ++
        "OFFSET ? ROWS FETCH NEXT ? ROWS ONLY") [.uint o, .uint l] =
      some (slice (some l.toNat) o.toNat) := by
  cases ordered <;> rfl

end Forms

end Reader

/-- No engine takes the clause of another for an offset without a limit. -/
example : (Reader.clause .mySql true).read? "OFFSET ?" [.uint 5] = none ∧
    (Reader.clause .postgres true).read? "LIMIT -1 OFFSET ?" [.uint 5] = none := by
  decide +kernel

/-- What is written for a window: nothing if it is all rows, and else a text that asks for it in
the words of the engine. -/
inductive Writes (e : Engine) (ordered : Bool) (w : Window) : Emit (Option String) → Prop
  | nothing (hl : w.limit = 0) (ho : w.offset = 0) : Writes e ordered w (pure none)
  | clause {text : String} {bindings : List Value} {p : Paging}
      (hr : (Reader.clause e ordered).read? text bindings = some p) (hk : p.Keeps w) :
      Writes e ordered w ⟨bindings, .ok (some text)⟩

end Paging

namespace Window

open Paging

variable (w : Window)

theorem basic_writes {e : Engine} (he : e ≠ .sqlServer)
    (hne : w.limit = 0 → w.offset ≠ 0 → e ∉ [Engine.mySql, .sqlite, .sqlServer]) (ordered : Bool) :
    Writes e ordered w w.basic := by
  unfold basic
  by_cases hl : w.limit = 0
  · rw [if_pos hl]
    by_cases ho : w.offset = 0
    · rw [if_pos ho]
      exact .nothing hl ho
    · rw [if_neg ho]
      exact .clause (Reader.clause_offset w.offset (hne hl ho) ordered) (slice_keeps_noLimit hl)
  · rw [if_neg hl]
    have hkeeps := slice_keeps_limit hl
    by_cases ho : w.offset = 0
    · rw [if_pos ho]
      rw [ho] at hkeeps
      exact .clause (Reader.clause_limit w.limit he ordered) hkeeps
    · rw [if_neg ho]
      exact .clause (Reader.clause_both w.limit w.offset he ordered) hkeeps

theorem withLimit_writes {e : Engine} {ordered : Bool} {all : String} {limit : Option Nat}
    (he : e ≠ .sqlServer)
    (hr : ∀ o, (Reader.clause e ordered).read? ("LIMIT " ++ all ++ " OFFSET ?") [.uint o] =
      some (slice limit o.toNat))
    (hk : w.limit = 0 → (slice limit w.offset.toNat).Keeps w) :
    Writes e ordered w (w.withLimit all) := by
  unfold withLimit
  split
  · next h => exact .clause (hr w.offset) (hk h.1)
  · next h => exact w.basic_writes he (fun hl ho => absurd ⟨hl, ho⟩ h) ordered

theorem fetch_writes (ordered : Bool) : Writes .sqlServer ordered w (w.fetch ordered) := by
  unfold fetch
  by_cases hl : w.limit = 0
  · by_cases ho : w.offset = 0
    · simp only [hl, ho, and_self, if_true]
      exact .nothing hl ho
    · simp only [hl, ho, and_false, if_false, if_true]
      exact .clause (Reader.clause_rows w.offset ordered) (slice_keeps_noLimit hl)
  · simp only [hl, false_and, if_false]
    exact .clause (Reader.clause_fetch w.limit w.offset ordered) (slice_keeps_limit hl)

def range : Fragment :=
  let first := saturate (w.offset.toNat + 1)
  let last := saturate (w.limit.toNat + w.offset.toNat)
  if w.limit = 0 then ⟨"[row_num] >= ?", [.uint first]⟩
  else ⟨"[row_num] BETWEEN ? AND ?", [.uint first, .uint last]⟩

end Window

def Window.clause (e : Engine) (ordered : Bool) (w : Window) : Emit (Option String) :=
  match e with
  | .mySql => w.withLimit "18446744073709551615"
  | .sqlite => w.withLimit "-1"
  | .sqlServer => w.fetch ordered
  | _ => w.basic

namespace Compiler

variable (c : Compiler) {σ : Type} {q : Statement σ} {w : Window}

theorem page_eq (hl : ¬(c.engine = .sqlServer ∧ c.legacyPaging = true)) (q : Statement σ) :
    c.page q = (do
      let w ← Emit.lift (q.window (some c.engine))
      w.clause c.engine (q.has .order (some c.engine))) := by
  unfold page
  cases he : c.engine with
  | sqlServer =>
    have hmodern : c.legacyPaging = false := by simpa [he] using hl
    simp only [← he, hmodern, Bool.false_eq_true, if_false]
    rw [he]
    rfl
  | mySql => rfl
  | sqlite => rfl
  | generic => rw [basicPage, he]; rfl
  | postgres => rw [basicPage, he]; rfl
  | firebird => rw [basicPage, he]; rfl

/-- The clause for a page asks for the window of the statement, in the words of each engine. -/
theorem page_writes (h : q.window (some c.engine) = .ok w)
    (hl : ¬(c.engine = .sqlServer ∧ c.legacyPaging = true)) :
    Paging.Writes c.engine (q.has .order (some c.engine)) w (c.page q) := by
  have hpage : c.page q = w.clause c.engine (q.has .order (some c.engine)) := by
    rw [c.page_eq hl, h]
    exact Emit.pure_bind w _
  rw [hpage]
  generalize q.has .order (some c.engine) = ordered
  cases c.engine with
  | mySql =>
    exact w.withLimit_writes (by decide) (fun o => Paging.Reader.clause_rowBound o ordered)
      Paging.slice_keeps_rowBound
  | sqlite =>
    exact w.withLimit_writes (by decide) (fun o => Paging.Reader.clause_negative o ordered)
      Paging.slice_keeps_noLimit
  | sqlServer => exact w.fetch_writes ordered
  | _ => exact w.basic_writes (by decide) (fun _ _ => by decide) ordered

end Compiler

end SqlDialects
