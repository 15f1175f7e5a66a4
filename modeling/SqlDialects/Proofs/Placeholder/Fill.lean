import SqlDialects.Proofs.Placeholder.Alignment

/-!
Placeholders replaced one by one from the left. What becomes of a text in a longer one depends on
the number of placeholders in front of it alone, so texts whose placeholders have their values can
be put behind each other before or after their arrays are expanded.
-/

namespace SqlDialects

namespace Text

def fill (m : Char) (mark : Nat → List Char) : Nat → List Char → List Char
  | _, [] => []
  | i, c :: rest => if c = m then mark i ++ fill m mark (i + 1) rest else c :: fill m mark i rest

variable {m : Char} {mark mark' : Nat → List Char}

theorem fill_cons_self (i : Nat) (rest : List Char) :
    fill m mark i (m :: rest) = mark i ++ fill m mark (i + 1) rest := by
  rw [fill, if_pos rfl]

theorem fill_cons_of_ne {c : Char} (h : c ≠ m) (i : Nat) (rest : List Char) :
    fill m mark i (c :: rest) = c :: fill m mark i rest := by
  rw [fill, if_neg h]

theorem weave_modifyHead_cons (c : Char) {ps : List (List Char)} (h : ps ≠ []) (i : Nat) :
    weave mark i (ps.modifyHead (c :: ·)) = c :: weave mark i ps := by
  obtain ⟨p, ps, rfl⟩ := List.exists_cons_of_ne_nil h
  rw [List.modifyHead_cons, weave_cons, weave_cons, List.cons_append]

theorem weave_splitOn (i : Nat) (text : List Char) :
    weave mark i (text.splitOn m) = fill m mark i text := by
  induction text generalizing i with
  | nil => rfl
  | cons c rest ih =>
    have hne := List.splitOn_ne_nil m rest
    rw [List.splitOn_cons_eq_if_modifyHead]
    by_cases hc : c = m
    · obtain ⟨p, ps, hp⟩ := List.exists_cons_of_ne_nil hne
      rw [if_pos (by simp [hc]), hc, fill_cons_self, ← ih, hp]
      rfl
    · rw [if_neg (by simp [hc]), weave_modifyHead_cons c hne, ih, fill_cons_of_ne hc]

theorem fill_append (i : Nat) (a b : List Char) :
    fill m mark i (a ++ b) = fill m mark i a ++ fill m mark (i + a.count m) b := by
  induction a generalizing i with
  | nil => rfl
  | cons c a ih =>
    by_cases hc : c = m
    · subst hc
      rw [List.cons_append, fill_cons_self, fill_cons_self, ih, List.count_cons_self,
        List.append_assoc, Nat.add_right_comm, Nat.add_assoc]
    · rw [List.cons_append, fill_cons_of_ne hc, fill_cons_of_ne hc, ih,
        List.count_cons_of_ne hc, List.cons_append]

theorem fill_congr {i k : Nat} {text : List Char}
    (h : ∀ j < text.count m, mark (i + j) = mark' (k + j)) :
    fill m mark i text = fill m mark' k text := by
  induction text generalizing i k with
  | nil => rfl
  | cons c rest ih =>
    by_cases hc : c = m
    · subst hc
      rw [List.count_cons_self] at h
      have hrest : fill c mark (i + 1) rest = fill c mark' (k + 1) rest := by
        refine ih fun j hj => ?_
        have hnext := h (j + 1) (Nat.add_lt_add_right hj 1)
        rwa [Nat.add_comm j 1, ← Nat.add_assoc, ← Nat.add_assoc] at hnext
      rw [fill_cons_self, fill_cons_self, hrest]
      exact congrArg (· ++ _) (h 0 (Nat.succ_pos _))
    · rw [List.count_cons_of_ne hc] at h
      rw [fill_cons_of_ne hc, fill_cons_of_ne hc, ih h]

theorem fill_of_not_mem {i : Nat} {text : List Char} (h : m ∉ text) :
    fill m mark i text = text := by
  rw [← weave_splitOn, splitOn_of_not_mem h]
  rfl

end Text

open Text

theorem mem_expandMarker {v : Option Value} {c : Char} (h : c ∈ (expandMarker "?" v).toList) :
    c = '?' ∨ c = ',' := by
  have hone (h : c ∈ "?".toList) : c = '?' := by simpa using h
  have hcomma (h : c ∈ ",".toList) : c = ',' := by simpa using h
  unfold expandMarker at h
  split at h
  · rw [String.toList_intercalate] at h
    rcases mem_intercalate h with h | ⟨p, hp, h⟩
    · exact .inr (hcomma h)
    · obtain ⟨t, ht, rfl⟩ := List.mem_map.mp hp
      rw [List.eq_of_mem_replicate ht] at h
      exact .inl (hone h)
  · exact .inl (hone h)

theorem expandMarkers_eq_ok {bindings : List Value} {sql t : String} :
    expandMarkers "?" bindings sql = .ok t ↔ marks sql = bindings.length ∧
      t.toList = fill '?' (fun i => (expandMarker "?" bindings[i]?).toList) 0 sql.toList := by
  have hlist : (replaceEach "?" (fun i => expandMarker "?" bindings[i]?) sql).toList =
      fill '?' (fun i => (expandMarker "?" bindings[i]?).toList) 0 sql.toList := by
    rw [toList_replaceEach (show "?".toList = ['?'] by decide), weave_splitOn]
  rw [expandMarkers, length_indexesOf_mark, ← hlist, String.toList_inj]
  by_cases h : marks sql = bindings.length
  · rw [if_neg (not_not.mpr h)]
    exact ⟨fun ht => ⟨h, (Except.ok.inj ht).symm⟩, fun ht => congrArg Except.ok ht.2.symm⟩
  · rw [if_pos h]
    exact ⟨nofun, fun ht => absurd ht.1 h⟩

theorem expandMarkers_append {bs cs : List Value} {a b t u : String}
    (ha : expandMarkers "?" bs a = .ok t) (hb : expandMarkers "?" cs b = .ok u) :
    expandMarkers "?" (bs ++ cs) (a ++ b) = .ok (t ++ u) := by
  rw [expandMarkers_eq_ok] at ha hb ⊢
  obtain ⟨hma, ht⟩ := ha
  obtain ⟨hmb, hu⟩ := hb
  refine ⟨by rw [marks_append, hma, hmb, List.length_append], ?_⟩
  have hcount : a.toList.count '?' = bs.length := hma
  rw [String.toList_append, String.toList_append, fill_append, ht, hu, Nat.zero_add, hcount]
  congr 1
  · refine fill_congr fun j hj => ?_
    rw [Nat.zero_add, List.getElem?_append_left (hcount ▸ hj)]
  · refine fill_congr fun j _ => ?_
    rw [Nat.zero_add, List.getElem?_append_right (Nat.le_add_right _ _), Nat.add_sub_cancel_left]

theorem expandMarkers_of_unmarked {sql : String} (h : Unmarked sql) :
    expandMarkers "?" [] sql = .ok sql :=
  expandMarkers_eq_ok.mpr ⟨h.marks_eq, (fill_of_not_mem h).symm⟩

theorem expandMarkers_intercalate {separator : String} (hs : Unmarked separator)
    {fs : List Fragment} {ts : List String}
    (h : List.Forall₂ (fun f t => expandMarkers "?" f.bindings f.sql = .ok t) fs ts) :
    expandMarkers "?" (fs.flatMap (·.bindings)) (separator.intercalate (fs.map (·.sql))) =
      .ok (separator.intercalate ts) := by
  induction h with
  | nil => rfl
  | @cons f t fs ts hf h ih =>
    cases h with
    | nil => simpa using hf
    | cons hg h =>
      rw [List.flatMap_cons, List.map_cons, List.map_cons, String.intercalate_cons_cons,
        String.intercalate_cons_cons, ← List.map_cons]
      have hfirst := expandMarkers_append hf (expandMarkers_of_unmarked hs)
      rw [List.append_nil] at hfirst
      exact expandMarkers_append hfirst ih

end SqlDialects
