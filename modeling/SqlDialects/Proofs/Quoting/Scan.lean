import Mathlib.Data.List.Basic
import Mathlib.Tactic.SplitIfs
import SqlDialects.Dialect

/-!
Reading SQL character by character as an engine does that knows nothing but its quotes and
parentheses. Names and texts of every kind can be put together from pieces, each of which is read
from outside of quotes to outside of quotes.
-/

namespace SqlDialects

inductive Spot where
  | outside
  | inside (closing : Char)
  /-- Behind a closing mark, which closes nothing if it is the first of two. -/
  | behind (closing : Char)
  deriving DecidableEq

def Spot.quoted : Spot → Bool
  | inside _ => true
  | _ => false

structure Scan where
  spot : Spot
  depth : Nat
  deriving DecidableEq

namespace Engine

def readOutside (e : Engine) (depth : Nat) (c : Char) : Option Scan :=
  if c = e.dialect.opening then some ⟨.inside e.dialect.closing, depth⟩
  else if c = '\'' then some ⟨.inside '\'', depth⟩
  else if c = '(' then some ⟨.outside, depth + 1⟩
  else if c = ')' then if depth = 0 then none else some ⟨.outside, depth - 1⟩
  else if c = e.dialect.closing then none
  else some ⟨.outside, depth⟩

def read (e : Engine) (s : Scan) (c : Char) : Option Scan :=
  match s.spot with
  | .outside => e.readOutside s.depth c
  | .inside closing =>
    if c = closing then some ⟨.behind closing, s.depth⟩ else some ⟨.inside closing, s.depth⟩
  | .behind closing =>
    if c = closing then some ⟨.inside closing, s.depth⟩ else e.readOutside s.depth c

def readAll (e : Engine) (s : Scan) (text : List Char) : Option Scan := text.foldlM e.read s

/-- Read from the start to the end, the SQL leaves no quote and no parenthesis open, and closes none
that is not. -/
def Closed (e : Engine) (sql : String) : Prop :=
  ∃ s, e.readAll ⟨.outside, 0⟩ sql.toList = some s ∧ s.depth = 0 ∧
    ∀ closing, s.spot ≠ .inside closing

theorem closed_iff {e : Engine} {sql : String} : e.Closed sql ↔
    (e.readAll ⟨.outside, 0⟩ sql.toList).any (fun s => s.depth == 0 && !s.spot.quoted) = true := by
  have hquoted (s : Spot) : (!s.quoted) = true ↔ ∀ closing, s ≠ .inside closing := by
    cases s <;> simp [Spot.quoted]
  unfold Closed
  cases e.readAll ⟨.outside, 0⟩ sql.toList with
  | none => simp
  | some s => simp [← hquoted]

instance (e : Engine) (sql : String) : Decidable (e.Closed sql) :=
  decidable_of_iff _ closed_iff.symm

def closers (e : Engine) : List Char := [e.dialect.closing, '\'']

/-- Outside of quotes, where a closing mark may just have been read. -/
def Outside (e : Engine) (s : Scan) : Prop :=
  s.spot = .outside ∨ ∃ closing ∈ e.closers, s.spot = .behind closing

variable {e : Engine}

@[simp] theorem readAll_nil (s : Scan) : e.readAll s [] = some s := rfl

theorem readAll_cons (s : Scan) (c : Char) (text : List Char) :
    e.readAll s (c :: text) = (e.read s c).bind (e.readAll · text) := rfl

theorem read_inside (closing : Char) (depth : Nat) (c : Char) :
    e.read ⟨.inside closing, depth⟩ c =
      if c = closing then some ⟨.behind closing, depth⟩ else some ⟨.inside closing, depth⟩ := rfl

theorem read_behind (closing : Char) (depth : Nat) (c : Char) :
    e.read ⟨.behind closing, depth⟩ c =
      if c = closing then some ⟨.inside closing, depth⟩ else e.readOutside depth c := rfl

theorem readAll_append (s : Scan) (a b : List Char) :
    e.readAll s (a ++ b) = (e.readAll s a).bind (e.readAll · b) :=
  List.foldlM_append

/-- What is read outside of quotes is read the same behind a closing mark. A second closing mark
would open a quote there anyway, or be refused. -/
theorem read_of_outside {s s' : Scan} {c : Char} (hs : e.Outside s)
    (h : e.readOutside s.depth c = some s') : e.read s c = some s' := by
  obtain ⟨spot, depth⟩ := s
  rcases hs with rfl | ⟨closing, hclosing, rfl⟩
  · exact h
  · by_cases hc : c = closing
    · subst hc
      have hopen : e.readOutside depth c = some ⟨.inside c, depth⟩ := by
        rcases List.mem_pair.mp hclosing with rfl | rfl
        · cases e with
          | sqlServer => cases h
          | _ => rfl
        · cases e <;> rfl
      exact (if_pos rfl).trans (hopen.symm.trans h)
    · exact (if_neg hc).trans h

theorem readAll_of_outside {s s' : Scan} {text : List Char} (hs : e.Outside s)
    (h : e.readAll ⟨.outside, s.depth⟩ text = some s') (hs' : e.Outside s') :
    ∃ s'', e.readAll s text = some s'' ∧ e.Outside s'' ∧ s''.depth = s'.depth := by
  cases text with
  | nil =>
    cases h
    exact ⟨s, rfl, hs, rfl⟩
  | cons c text =>
    rw [readAll_cons] at h
    obtain ⟨s₁, h₁, h⟩ := Option.bind_eq_some_iff.mp h
    refine ⟨s', ?_, hs', rfl⟩
    rw [readAll_cons, read_of_outside hs h₁]
    exact h

def Marked (e : Engine) (s : Scan) : Prop :=
  ∀ closing, s.spot = .inside closing ∨ s.spot = .behind closing → closing ∈ e.closers

theorem marked_outside (depth : Nat) : e.Marked ⟨.outside, depth⟩ := by
  rintro _ (h | h) <;> cases h

theorem marked_inside {closing : Char} (h : closing ∈ e.closers) (depth : Nat) :
    e.Marked ⟨.inside closing, depth⟩ := by
  rintro _ (hq | hq) <;> cases hq
  exact h

theorem Marked.readOutside {s : Scan} {depth : Nat} {c : Char}
    (h : e.readOutside depth c = some s) : e.Marked s := by
  unfold Engine.readOutside at h
  split_ifs at h <;> cases h
  · exact marked_inside List.mem_cons_self _
  · exact marked_inside (List.mem_cons_of_mem _ List.mem_cons_self) _
  all_goals exact marked_outside _

theorem Marked.readAll {s s' : Scan} {text : List Char} (hs : e.Marked s)
    (h : e.readAll s text = some s') : e.Marked s' := by
  have hstep {s s' : Scan} {c : Char} (hs : e.Marked s) (h : e.read s c = some s') :
      e.Marked s' := by
    obtain ⟨spot, depth⟩ := s
    cases spot with
    | outside => exact Marked.readOutside h
    | inside closing =>
      have hclosing := hs closing (.inl rfl)
      rw [read_inside] at h
      split_ifs at h <;> cases h
      · rintro _ (hq | hq) <;> cases hq
        exact hclosing
      · exact marked_inside hclosing _
    | behind closing =>
      have hclosing := hs closing (.inr rfl)
      rw [read_behind] at h
      split_ifs at h
      · cases h
        exact marked_inside hclosing _
      · exact Marked.readOutside h
  induction text generalizing s with
  | nil =>
    cases h
    exact hs
  | cons c text ih =>
    obtain ⟨s₁, h₁, h⟩ := Option.bind_eq_some_iff.mp h
    exact ih (hstep hs h₁) h

/-- Read from outside of quotes and `i` parentheses deep, the text ends outside of quotes and `j`
deep; and so it does in any number of parentheses more. -/
def Spans (e : Engine) (i j : Nat) (text : String) : Prop :=
  ∀ k, ∃ s, e.readAll ⟨.outside, i + k⟩ text.toList = some s ∧ e.Outside s ∧ s.depth = j + k

theorem Spans.append {i j k : Nat} {a b : String} (ha : e.Spans i j a) (hb : e.Spans j k b) :
    e.Spans i k (a ++ b) := by
  intro n
  obtain ⟨s, hs, hout, hdepth⟩ := ha n
  obtain ⟨s', hs', hout', hdepth'⟩ := hb n
  rw [← hdepth] at hs'
  obtain ⟨t, ht, htout, htdepth⟩ := readAll_of_outside hout hs' hout'
  refine ⟨t, ?_, htout, htdepth.trans hdepth'⟩
  rw [String.toList_append, readAll_append, hs]
  exact ht

theorem Spans.deeper {i j : Nat} {text : String} (h : e.Spans i j text) (n : Nat) :
    e.Spans (i + n) (j + n) text := by
  intro k
  rw [Nat.add_assoc, Nat.add_assoc]
  exact h (n + k)

theorem spans_empty (i : Nat) : e.Spans i i "" := fun _ => ⟨_, rfl, .inl rfl, rfl⟩

theorem Spans.closed {text : String} (h : e.Spans 0 0 text) : e.Closed text := by
  obtain ⟨s, hs, hout, hdepth⟩ := h 0
  refine ⟨s, hs, hdepth, fun closing hin => ?_⟩
  rcases hout with hout | ⟨q, -, hout⟩
  · rw [hin] at hout
    cases hout
  · rw [hin] at hout
    cases hout

end Engine

def Text.structural : List Char := ['\'', '"', '\x60', '[', ']', '(', ')']

def Text.Bare (text : String) : Prop := ∀ c ∈ text.toList, c ∉ structural

instance (text : String) : Decidable (Text.Bare text) :=
  List.decidableBAll (· ∉ Text.structural) text.toList

/-- How many parentheses deep a text ends that begins `i` deep. It has no quotes. -/
def Text.nesting : Nat → List Char → Option Nat
  | i, [] => some i
  | i, c :: rest =>
    if c = '(' then nesting (i + 1) rest
    else if c = ')' then if i = 0 then none else nesting (i - 1) rest
    else if c ∈ structural then none
    else nesting i rest

namespace Engine

open Text

variable {e : Engine} {i j : Nat}

theorem readOutside_of_bare {c : Char} (h : c ∉ structural) (depth : Nat) :
    e.readOutside depth c = some ⟨.outside, depth⟩ := by
  simp only [structural, List.mem_cons, List.not_mem_nil, or_false, not_or] at h
  obtain ⟨h₁, h₂, h₃, h₄, h₅, h₆, h₇⟩ := h
  cases e <;> simp [readOutside, dialect, *]

theorem readOutside_open (depth : Nat) :
    e.readOutside depth '(' = some ⟨.outside, depth + 1⟩ := by
  cases e <;> rfl

theorem readOutside_close (depth : Nat) :
    e.readOutside (depth + 1) ')' = some ⟨.outside, depth⟩ := by
  cases e <;> rfl

theorem spans_of_nesting {text : String} (h : nesting i text.toList = some j) :
    e.Spans i j text := by
  intro k
  suffices e.readAll ⟨.outside, i + k⟩ text.toList = some ⟨.outside, j + k⟩ from
    ⟨_, this, .inl rfl, rfl⟩
  generalize text.toList = cs at h
  -- Induction on the text: no character leads into a quote.
  induction cs generalizing i with
  | nil =>
    cases h
    rfl
  | cons c cs ih =>
    rw [nesting] at h
    rw [readAll_cons]
    show (e.readOutside (i + k) c).bind _ = _
    split_ifs at h with hopen hclose hzero hbare
    · rw [hopen, readOutside_open, Nat.add_right_comm]
      exact ih h
    · obtain ⟨i, rfl⟩ := Nat.exists_eq_succ_of_ne_zero hzero
      rw [hclose, Nat.succ_add, readOutside_close]
      exact ih h
    · rw [readOutside_of_bare hbare]
      exact ih h

theorem spans_bare {text : String} (h : Bare text) : e.Spans i i text := by
  refine spans_of_nesting ?_
  unfold Bare at h
  generalize text.toList = cs at h
  induction cs with
  | nil => rfl
  | cons c cs ih =>
    have hc := h c List.mem_cons_self
    have hopen : c ≠ '(' := by
      rintro rfl
      exact hc (by decide)
    have hclose : c ≠ ')' := by
      rintro rfl
      exact hc (by decide)
    rw [nesting, if_neg hopen, if_neg hclose, if_neg hc]
    exact ih fun c hm => h c (List.mem_cons_of_mem _ hm)

theorem readAll_double (closing : Char) (depth : Nat) (text : List Char) :
    e.readAll ⟨.inside closing, depth⟩ (double closing text) = some ⟨.inside closing, depth⟩ := by
  induction text with
  | nil => rfl
  | cons c text ih =>
    have hsplit : double closing (c :: text) = double closing [c] ++ double closing text := by
      rw [← double_append, List.singleton_append]
    rw [hsplit, readAll_append]
    by_cases hc : c = closing
    · subst hc
      have htwo : e.readAll ⟨.inside c, depth⟩ (double c [c]) = some ⟨.inside c, depth⟩ := by
        simp [double, readAll_cons, read]
      rw [htwo]
      exact ih
    · have hone : e.readAll ⟨.inside closing, depth⟩ (double closing [c]) =
          some ⟨.inside closing, depth⟩ := by
        simp [double, readAll_cons, read, hc]
      rw [hone]
      exact ih

theorem readAll_inside {closing : Char} (depth : Nat) {text : List Char} (h : closing ∉ text) :
    e.readAll ⟨.inside closing, depth⟩ text = some ⟨.inside closing, depth⟩ := by
  have hdouble := readAll_double (e := e) closing depth text
  rwa [double_eq_self h] at hdouble

theorem spans_quote (name : List Char) : e.Spans i i (String.ofList (e.dialect.quote name)) := by
  intro k
  refine ⟨⟨.behind e.dialect.closing, i + k⟩, ?_, .inr ⟨_, List.mem_cons_self, rfl⟩, rfl⟩
  have hopen : e.read ⟨.outside, i + k⟩ e.dialect.opening =
      some ⟨.inside e.dialect.closing, i + k⟩ := if_pos rfl
  have hclose : e.read ⟨.inside e.dialect.closing, i + k⟩ e.dialect.closing =
      some ⟨.behind e.dialect.closing, i + k⟩ := if_pos rfl
  rw [String.toList_ofList, Dialect.quote, quote, List.cons_append, readAll_cons, hopen]
  show e.readAll _ _ = _
  rw [readAll_append, readAll_double]
  show e.readAll _ _ = _
  rw [readAll_cons, hclose]
  rfl

example : Engine.sqlServer.readAll ⟨.outside, 0⟩ "[a]](]".toList = some ⟨.behind ']', 0⟩ := by
  decide

/-- Read inside of a literal that stands `i` parentheses deep or deeper, the text ends inside of one
and as deep. -/
def Within (e : Engine) (i : Nat) (text : String) : Prop :=
  ∀ k, e.readAll ⟨.inside '\'', i + k⟩ text.toList = some ⟨.inside '\'', i + k⟩

theorem within_of_not_mem {text : String} (h : '\'' ∉ text.toList) : e.Within i text :=
  fun _ => readAll_inside _ h

theorem Within.spans_literal {text : String} (h : e.Within i text) :
    e.Spans i i ("'" ++ text ++ "'") := by
  intro k
  refine ⟨⟨.behind '\'', i + k⟩, ?_, .inr ⟨_, List.mem_cons_of_mem _ List.mem_cons_self, rfl⟩, rfl⟩
  have hopen : e.read ⟨.outside, i + k⟩ '\'' = some ⟨.inside '\'', i + k⟩ := by cases e <;> rfl
  have hclose : e.read ⟨.inside '\'', i + k⟩ '\'' = some ⟨.behind '\'', i + k⟩ := rfl
  have htext : ("'" ++ text ++ "'").toList = '\'' :: (text.toList ++ ['\'']) := by simp
  rw [htext, readAll_cons, hopen]
  show e.readAll _ _ = _
  rw [readAll_append, h k]
  show e.readAll _ _ = _
  rw [readAll_cons, hclose]
  rfl

theorem spans_literal {text : String} (h : '\'' ∉ text.toList) : e.Spans i i ("'" ++ text ++ "'") :=
  (within_of_not_mem h).spans_literal

end Engine

end SqlDialects
