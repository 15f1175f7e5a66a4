import SqlDialects.Dialect

/-!
Marks replaced on both sides of a character that is neither a mark nor an escape: what is done on
one side does not depend on the other.
-/

namespace SqlDialects

namespace Text

theorem replaceUnescapedFrom_append {escape token stop : Char} (he : stop ≠ escape)
    (ht : stop ≠ token) (replacement : Char) (a b : List Char) {skip : Nat}
    (hs : skip ≤ a.length) :
    replaceUnescapedFrom [escape] [token] [replacement] skip (a ++ stop :: b) =
      replaceUnescapedFrom [escape] [token] [replacement] skip a ++
        stop :: replaceUnescapedFrom [escape] [token] [replacement] 0 b := by
  induction a generalizing skip with
  | nil =>
    obtain rfl : skip = 0 := Nat.le_zero.mp hs
    simp [replaceUnescapedFrom, he.symm, ht.symm]
  | cons c a ih =>
    cases skip with
    | succ n => exact ih (Nat.le_of_succ_le_succ hs)
    | zero =>
      rw [List.cons_append, replaceUnescapedFrom, replaceUnescapedFrom]
      have hescaped : ([escape] ++ [token]).isPrefixOf (c :: (a ++ stop :: b)) =
          ([escape] ++ [token]).isPrefixOf (c :: a) := by
        cases a <;> simp [List.isPrefixOf, ht.symm]
      have hmark : [token].isPrefixOf (c :: (a ++ stop :: b)) = [token].isPrefixOf (c :: a) := by
        simp [List.isPrefixOf]
      rw [hescaped, hmark]
      split
      · next h =>
        have hlen : 1 ≤ a.length := by
          cases a with
          | nil => simp at h
          | cons _ _ => simp
        rw [List.append_assoc]
        exact congrArg _ (ih hlen)
      · split
        · rw [List.append_assoc]
          exact congrArg _ (ih (Nat.zero_le _))
        · exact congrArg _ (ih (Nat.zero_le _))

end Text

namespace Engine

def Plain (e : Engine) (c : Char) : Prop := c ∉ e.dialect.escape :: (delimiters e.dialect).map (·.1)

theorem wrapIdentifiers_split (e : Engine) {stop : Char} (h : e.Plain stop) (a b : String) :
    e.wrapIdentifiers (a ++ (stop.toString ++ b)) =
      e.wrapIdentifiers a ++ (stop.toString ++ e.wrapIdentifiers b) := by
  have hpass {marks : List (Char × Char)} (hm : ∀ m ∈ marks, stop ≠ e.dialect.escape ∧ stop ≠ m.1)
      (a b : String) :
      let pass := fun sql (m : Char × Char) =>
        Text.replaceUnescaped e.dialect.escape.toString m.1.toString m.2.toString sql
      marks.foldl pass (a ++ (stop.toString ++ b)) =
        marks.foldl pass a ++ (stop.toString ++ marks.foldl pass b) := by
    intro pass
    induction marks generalizing a b with
    | nil => rfl
    | cons m marks ih =>
      have hone : pass (a ++ (stop.toString ++ b)) m = pass a m ++ (stop.toString ++ pass b m) := by
        have hfrom := Text.replaceUnescapedFrom_append (hm m List.mem_cons_self).1
          (hm m List.mem_cons_self).2 m.2 a.toList b.toList (Nat.zero_le _)
        rw [← String.toList_inj]
        simpa [pass, Text.replaceUnescaped] using hfrom
      rw [List.foldl_cons, List.foldl_cons, List.foldl_cons, hone]
      exact ih (fun m' hm' => hm m' (List.mem_cons_of_mem _ hm')) _ _
  refine hpass (fun m hm => ?_) a b
  exact ⟨fun he => h (he ▸ List.mem_cons_self),
    fun he => h (List.mem_cons_of_mem _ (he ▸ List.mem_map_of_mem hm))⟩

end Engine

end SqlDialects
