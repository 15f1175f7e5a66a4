import SqlDialects.Render.Page
import SqlDialects.Statement.Build

/-!
Which rows of a result a page keeps. Rows are counted from one. Words are saturated where they do
not hold a number, which no result of fewer rows than the greatest word shows.
-/

namespace SqlDialects

/-- What a database is asked to keep of the rows of a result: so many of them behind those passed
over, or those with numbers in a range. -/
inductive Paging where
  | slice (limit : Option Nat) (offset : Nat)
  | numbered (first : Nat) (last : Option Nat)
  deriving DecidableEq

def rowBound : Nat := Number.pow2 64 - 1

section Positions

variable {α : Type}

def atPositions (p : Nat → Bool) (rows : List α) : List α :=
  ((rows.zipIdx 1).filter fun row => p row.2).map (·.1)

theorem atPositions_congr {p p' : Nat → Bool} {rows : List α}
    (h : ∀ k, 0 < k → k ≤ rows.length → p k = p' k) : atPositions p rows = atPositions p' rows := by
  have hfilter : (rows.zipIdx 1).filter (fun row => p row.2) =
      (rows.zipIdx 1).filter fun row => p' row.2 := by
    refine List.filter_congr fun row hrow => ?_
    obtain ⟨hle, hlt, -⟩ := List.mem_zipIdx hrow
    exact h row.2 (by omega) (by omega)
  rw [atPositions, hfilter, atPositions]

theorem filter_zipIdx (lower upper start : Nat) (rows : List α) :
    (((rows.zipIdx start).filter fun row => decide (lower < row.2 ∧ row.2 ≤ upper)).map (·.1)) =
      (rows.drop (lower + 1 - start)).take (upper + 1 - max (lower + 1) start) := by
  induction rows generalizing start with
  | nil => simp
  | cons row rows ih =>
    rw [List.zipIdx_cons, List.filter_cons]
    by_cases hlow : lower < start
    · have hdrop : lower + 1 - start = 0 ∧ lower + 1 - (start + 1) = 0 := by omega
      have hmax : max (lower + 1) start = start ∧ max (lower + 1) (start + 1) = start + 1 := by
        omega
      rw [hdrop.1, List.drop_zero, hmax.1]
      by_cases hup : start ≤ upper
      · obtain ⟨n, hn⟩ : ∃ n, upper + 1 - start = n + 1 := ⟨upper - start, by omega⟩
        have hrest : upper + 1 - (start + 1) = n := by omega
        rw [if_pos (by simp [hlow, hup]), List.map_cons, ih, hdrop.2, hmax.2, hrest, hn]
        rfl
      · have hnone : upper + 1 - start = 0 ∧ upper + 1 - (start + 1) = 0 := by omega
        rw [if_neg (by simp [hup]), ih, hmax.2, hnone.1, hnone.2]
        rfl
    · obtain ⟨n, hn⟩ : ∃ n, lower + 1 - start = n + 1 := ⟨lower - start, by omega⟩
      have hrest : lower + 1 - (start + 1) = n := by omega
      have hmax : max (lower + 1) (start + 1) = max (lower + 1) start := by omega
      rw [if_neg (by simp [hlow]), ih, hrest, hn, hmax]
      rfl

theorem atPositions_between (lower upper : Nat) (rows : List α) :
    atPositions (fun k => decide (lower < k ∧ k ≤ upper)) rows =
      (rows.drop lower).take (upper - lower) := by
  have h := filter_zipIdx lower upper 1 rows
  have hmax : upper + 1 - max (lower + 1) 1 = upper - lower := by omega
  rwa [Nat.add_sub_cancel, hmax] at h

theorem atPositions_above (lower : Nat) (rows : List α) :
    atPositions (fun k => decide (lower < k)) rows = rows.drop lower := by
  have hcongr : atPositions (fun k => decide (lower < k)) rows =
      atPositions (fun k => decide (lower < k ∧ k ≤ rows.length)) rows :=
    atPositions_congr fun k _ hk => by simp [hk]
  rw [hcongr, atPositions_between, List.take_of_length_le (by simp)]

end Positions

variable {α : Type}

/-- The rows that are kept. -/
def Paging.keep (p : Paging) (rows : List α) : List α :=
  match p with
  | slice none offset => rows.drop offset
  | slice (some limit) offset => (rows.drop offset).take limit
  | numbered first none => atPositions (fun k => decide (first ≤ k)) rows
  | numbered first (some last) => atPositions (fun k => decide (first ≤ k ∧ k ≤ last)) rows

def Window.keep (w : Window) (rows : List α) : List α :=
  atPositions
    (fun k => decide (w.offset.toNat < k ∧ (w.limit = 0 ∨ k ≤ w.offset.toNat + w.limit.toNat))) rows

/-- The window is what is kept of every result that is small enough. -/
def Paging.Keeps (p : Paging) (w : Window) : Prop :=
  ∀ (α : Type) (rows : List α), rows.length < rowBound → p.keep rows = w.keep rows

namespace Window

theorem keep_of_noLimit {w : Window} (h : w.limit = 0) (rows : List α) :
    w.keep rows = rows.drop w.offset.toNat := by
  rw [← atPositions_above, keep]
  simp [h]

theorem keep_of_limit {w : Window} (h : w.limit ≠ 0) (rows : List α) :
    w.keep rows = (rows.drop w.offset.toNat).take w.limit.toNat := by
  have hbetween := atPositions_between w.offset.toNat (w.offset.toNat + w.limit.toNat) rows
  rw [Nat.add_sub_cancel_left] at hbetween
  rw [← hbetween, keep]
  simp [h]

end Window

namespace Paging

theorem slice_keeps_noLimit {w : Window} (h : w.limit = 0) :
    (slice none w.offset.toNat).Keeps w :=
  fun _ rows _ => (w.keep_of_noLimit h rows).symm

theorem slice_keeps_limit {w : Window} (h : w.limit ≠ 0) :
    (slice (some w.limit.toNat) w.offset.toNat).Keeps w :=
  fun _ rows _ => (w.keep_of_limit h rows).symm

theorem slice_keeps_rowBound {w : Window} (h : w.limit = 0) :
    (slice (some rowBound) w.offset.toNat).Keeps w := by
  intro α rows hrows
  rw [w.keep_of_noLimit h]
  exact List.take_of_length_le (by simp; omega)

end Paging

end SqlDialects
