import SqlDialects.Proofs.Placeholder.Fill
import SqlDialects.Proofs.Quoting.Scan
import SqlDialects.Proofs.Reading.Operands

/-!
Names, lists and trimmed texts that are read from outside of quotes to outside of quotes, and
compiled texts: whatever number of placeholders stands for a placeholder, the rest is read the same.
-/

namespace SqlDialects

namespace Engine

open Text

variable {e : Engine} {i j : Nat}

theorem Spans.paren {text : String} (h : e.Spans i i text) : e.Spans i i ("(" ++ text ++ ")") :=
  ((spans_of_nesting rfl).append (h.deeper 1)).append (spans_of_nesting rfl)

theorem spans_intercalate {separator : String} (hs : e.Spans i i separator) {parts : List String}
    (h : ∀ p ∈ parts, e.Spans i i p) : e.Spans i i (separator.intercalate parts) := by
  induction parts with
  | nil => exact spans_empty i
  | cons p parts ih =>
    have hp := h p List.mem_cons_self
    have ih := ih fun p hm => h p (List.mem_cons_of_mem _ hm)
    cases parts with
    | nil => simpa using hp
    | cons q parts =>
      rw [String.intercalate_cons_cons]
      exact (hp.append hs).append ih

section Names

variable (e)

theorem spans_wrapSegment (text : List Char) :
    e.Spans i i (String.ofList (e.wrapSegment text)) := by
  rcases Reading.wrapSegment_cases e text with h | ⟨name, h⟩
  · rw [h]
    exact spans_bare (by decide)
  · rw [h]
    exact spans_quote name

theorem spans_wrapValue (name : String) : e.Spans i i (e.wrapValue name) :=
  e.spans_wrapSegment name.toList

theorem spans_wrapPath (text : List Char) : e.Spans i i (String.ofList (e.wrapPath text)) := by
  have hparts : String.ofList (e.wrapPath text) =
      ".".intercalate ((pieces ['.'] text).map fun p => String.ofList (e.wrapSegment p)) := by
    rw [← String.toList_inj, String.toList_intercalate, String.toList_ofList, List.map_map,
      wrapPath]
    exact congrArg _ (List.map_congr_left fun _ _ => String.toList_ofList.symm)
  rw [hparts]
  refine spans_intercalate (spans_bare (by decide)) fun p hp => ?_
  obtain ⟨piece, -, rfl⟩ := List.mem_map.mp hp
  exact e.spans_wrapSegment piece

theorem bare_columnAs : Bare e.dialect.columnAs := by cases e <;> decide

theorem bare_tableAs : Bare e.dialect.tableAs := by cases e <;> decide

theorem spans_wrap (name : String) : e.Spans i i (e.wrap name) := by
  unfold wrap wrapName
  cases splitAs? name.toList with
  | none => exact e.spans_wrapPath _
  | some parts =>
    have htext : String.ofList (e.wrapPath parts.1 ++ ' ' :: e.dialect.columnAs.toList ++
        e.wrapSegment parts.2) = String.ofList (e.wrapPath parts.1) ++ " " ++
          e.dialect.columnAs ++ String.ofList (e.wrapSegment parts.2) := by
      simp [← String.toList_inj]
    have hspace : e.Spans i i " " := spans_bare (by decide)
    show e.Spans i i (String.ofList _)
    rw [htext]
    exact (((e.spans_wrapPath _).append hspace).append (spans_bare e.bare_columnAs)).append
      (e.spans_wrapSegment _)

end Names

section Trim

theorem closers_subset {c : Char} (h : c ∈ e.closers) : c ∈ structural := by
  rcases List.mem_pair.mp h with rfl | rfl
  · cases e <;> decide
  · decide

theorem bare_of_isBlank {c : Char} (h : isBlank c = true) : c ∉ structural := by
  have hall : structural.all (!isBlank ·) = true := by decide
  intro hm
  have hc := List.all_eq_true.mp hall c hm
  rw [h] at hc
  cases hc

theorem Spans.of_cons {c : Char} {text : List Char} (hc : isBlank c = true)
    (h : e.Spans i j (String.ofList (c :: text))) : e.Spans i j (String.ofList text) := by
  intro k
  obtain ⟨s, hs, hout⟩ := h k
  rw [String.toList_ofList, readAll_cons] at hs
  have hread : e.read ⟨.outside, i + k⟩ c = some ⟨.outside, i + k⟩ :=
    readOutside_of_bare (bare_of_isBlank hc) _
  rw [hread] at hs
  exact ⟨s, by rwa [String.toList_ofList], hout⟩

theorem Spans.of_concat {c : Char} {text : List Char} (hc : isBlank c = true)
    (h : e.Spans i j (String.ofList (text ++ [c]))) : e.Spans i j (String.ofList text) := by
  intro k
  obtain ⟨s, hs, hout, hdepth⟩ := h k
  rw [String.toList_ofList, readAll_append] at hs
  obtain ⟨s₁, h₁, hs⟩ := Option.bind_eq_some_iff.mp hs
  have hread : e.read s₁ c = some s := by
    rw [readAll_cons] at hs
    obtain ⟨s₂, h₂, hs⟩ := Option.bind_eq_some_iff.mp hs
    cases hs
    exact h₂
  have hmarked := (marked_outside (e := e) (i + k)).readAll h₁
  refine ⟨s₁, by rwa [String.toList_ofList], ?_⟩
  have hplain : e.readOutside s₁.depth c = some ⟨.outside, s₁.depth⟩ :=
    readOutside_of_bare (bare_of_isBlank hc) _
  obtain ⟨spot, depth⟩ := s₁
  cases spot with
  | outside =>
    rw [read, hplain] at hread
    cases hread
    exact ⟨.inl rfl, hdepth⟩
  | inside closing =>
    have hne : c ≠ closing := by
      rintro rfl
      exact bare_of_isBlank hc (closers_subset (hmarked c (.inl rfl)))
    rw [read_inside, if_neg hne] at hread
    cases hread
    rcases hout with h | ⟨_, -, h⟩ <;> cases h
  | behind closing =>
    have hne : c ≠ closing := by
      rintro rfl
      exact bare_of_isBlank hc (closers_subset (hmarked c (.inr rfl)))
    rw [read_behind, if_neg hne, hplain] at hread
    cases hread
    exact ⟨.inr ⟨closing, hmarked closing (.inr rfl), rfl⟩, hdepth⟩

theorem Spans.dropBlanks {text : List Char} (h : e.Spans i j (String.ofList text)) :
    e.Spans i j (String.ofList (dropBlanks text)) := by
  induction text with
  | nil => exact h
  | cons c text ih =>
    by_cases hc : isBlank c = true
    · rw [Text.dropBlanks, List.dropWhile_cons_of_pos hc]
      exact ih (h.of_cons hc)
    · rw [Text.dropBlanks, List.dropWhile_cons_of_neg hc]
      exact h

theorem Spans.dropLastBlanks {text : List Char} (h : e.Spans i j (String.ofList text.reverse)) :
    e.Spans i j (String.ofList (Text.dropBlanks text).reverse) := by
  induction text with
  | nil => exact h
  | cons c text ih =>
    by_cases hc : isBlank c = true
    · rw [Text.dropBlanks, List.dropWhile_cons_of_pos hc]
      rw [List.reverse_cons] at h
      exact ih (h.of_concat hc)
    · rw [Text.dropBlanks, List.dropWhile_cons_of_neg hc]
      exact h

theorem Spans.trim {text : String} (h : e.Spans i j text) : e.Spans i j (Text.trim text) := by
  have hfirst : e.Spans i j (String.ofList (Text.dropBlanks text.toList)) :=
    Spans.dropBlanks (by rwa [String.ofList_toList])
  refine Spans.dropLastBlanks ?_
  rwa [List.reverse_reverse]

end Trim

section Fill

/-- One text is read as far as another, but for a closing mark that it may just have read. -/
def Follows (e : Engine) (s t : Scan) : Prop :=
  s = t ∨ ∃ closing ∈ e.closers, ∃ depth, s = ⟨.outside, depth⟩ ∧ t = ⟨.behind closing, depth⟩

theorem Follows.outside {s t : Scan} (h : e.Follows s t) (hs : e.Outside s) :
    e.Outside t ∧ t.depth = s.depth := by
  rcases h with rfl | ⟨closing, hclosing, depth, rfl, rfl⟩
  · exact ⟨hs, rfl⟩
  · exact ⟨.inr ⟨closing, hclosing, rfl⟩, rfl⟩

theorem Follows.read {s t s' : Scan} {c : Char} (h : e.Follows s t) (hs : e.read s c = some s') :
    e.read t c = some s' := by
  rcases h with rfl | ⟨closing, hclosing, depth, rfl, rfl⟩
  · exact hs
  · exact read_of_outside (.inr ⟨closing, hclosing, rfl⟩) hs

def settle (s : Scan) : Scan :=
  match s.spot with
  | .behind _ => ⟨.outside, s.depth⟩
  | _ => s

theorem read_bare {s : Scan} (hs : e.Marked s) {c : Char} (hc : c ∉ structural) :
    e.read s c = some (settle s) := by
  have hplain (depth : Nat) : e.readOutside depth c = some ⟨.outside, depth⟩ :=
    readOutside_of_bare hc depth
  obtain ⟨spot, depth⟩ := s
  cases spot with
  | outside => exact hplain depth
  | inside closing =>
    have hne : c ≠ closing := by
      rintro rfl
      exact hc (closers_subset (hs c (.inl rfl)))
    exact if_neg hne
  | behind closing =>
    have hne : c ≠ closing := by
      rintro rfl
      exact hc (closers_subset (hs c (.inr rfl)))
    exact (if_neg hne).trans (hplain depth)

theorem Marked.settle {s : Scan} (hs : e.Marked s) : e.Marked (settle s) := by
  obtain ⟨spot, depth⟩ := s
  cases spot with
  | behind closing => exact marked_outside depth
  | _ => exact hs

theorem Follows.settle {s t : Scan} (hs : e.Marked s) (h : e.Follows s t) :
    e.Follows (settle s) t := by
  rcases h with rfl | ⟨closing, hclosing, depth, rfl, rfl⟩
  · obtain ⟨spot, depth⟩ := s
    cases spot with
    | behind closing => exact .inr ⟨closing, hs closing (.inr rfl), depth, rfl, rfl⟩
    | _ => exact .inl rfl
  · exact .inr ⟨closing, hclosing, depth, rfl, rfl⟩

theorem readAll_bare {s : Scan} (hs : e.Marked s) {text : List Char}
    (ht : ∀ c ∈ text, c ∉ structural) : e.readAll (settle s) text = some (settle s) := by
  induction text with
  | nil => rfl
  | cons c text ih =>
    have hread := read_bare hs.settle (ht c List.mem_cons_self)
    have htwice : Engine.settle (Engine.settle s) = Engine.settle s := by
      obtain ⟨spot, depth⟩ := s
      cases spot <;> rfl
    rw [readAll_cons, hread, htwice]
    exact ih fun c hm => ht c (List.mem_cons_of_mem _ hm)

variable {mark : Nat → List Char} (hm : ∀ i, ∀ c ∈ mark i, c ∉ structural)

include hm

/-- A text with its placeholders replaced by others is read as far as before. -/
theorem readAll_fill {text : List Char} {s s' t : Scan} (hs : e.Marked s)
    (h : e.readAll s text = some s') (ht : e.Follows s t) (i : Nat) :
    ∃ t', e.readAll t (fill '?' mark i text) = some t' ∧ e.Follows s' t' := by
  induction text generalizing s t i with
  | nil =>
    cases h
    exact ⟨t, rfl, ht⟩
  | cons c text ih =>
    have hmarked (s₁ : Scan) (h₁ : e.read s c = some s₁) : e.Marked s₁ := by
      have hone : e.readAll s [c] = some s₁ := by
        rw [readAll_cons, h₁]
        rfl
      exact hs.readAll hone
    obtain ⟨s₁, h₁, h⟩ := Option.bind_eq_some_iff.mp h
    by_cases hc : c = '?'
    · subst hc
      rw [read_bare hs (by decide)] at h₁
      cases h₁
      rw [fill_cons_self, readAll_append]
      cases hmark : mark i with
      | nil => exact ih hs.settle h (ht.settle hs) (i + 1)
      | cons d ds =>
        have hds := hm i
        rw [hmark] at hds
        have hd := ht.read (read_bare hs (hds d List.mem_cons_self))
        have hrest := readAll_bare hs fun c hc => hds c (List.mem_cons_of_mem _ hc)
        rw [readAll_cons, hd]
        show ∃ t', (e.readAll (Engine.settle s) ds).bind _ = _ ∧ _
        rw [hrest]
        exact ih hs.settle h (.inl rfl) (i + 1)
    · rw [fill_cons_of_ne hc, readAll_cons, ht.read h₁]
      exact ih (hmarked s₁ h₁) h (.inl rfl) i

end Fill

theorem Spans.of_bare_append {a b : String} (ha : Bare a) (h : e.Spans i j (a ++ b)) :
    e.Spans i j b := by
  intro k
  obtain ⟨s, hs, hout⟩ := h k
  have hread : e.readAll ⟨.outside, i + k⟩ a.toList = some ⟨.outside, i + k⟩ :=
    readAll_bare (marked_outside _) ha
  rw [String.toList_append, readAll_append, hread] at hs
  exact ⟨s, hs, hout⟩

theorem bare_expandMarker (v : Option Value) : Bare (expandMarker "?" v) := by
  intro c hc
  rcases mem_expandMarker hc with rfl | rfl <;> decide

/-- A compiled text is read like the text with one placeholder for each value. -/
theorem Spans.expandMarkers {bindings : List Value} {sql t : String} (h : e.Spans i j sql)
    (ht : expandMarkers "?" bindings sql = .ok t) : e.Spans i j t := by
  obtain ⟨-, ht⟩ := expandMarkers_eq_ok.mp ht
  intro k
  obtain ⟨s, hs, hout, hdepth⟩ := h k
  obtain ⟨s', hs', hfollows⟩ :=
    readAll_fill (fun n => bare_expandMarker bindings[n]?) (marked_outside _) hs (.inl rfl) 0
  obtain ⟨hout', hdepth'⟩ := hfollows.outside hout
  exact ⟨s', by rw [ht, hs'], hout', hdepth'.trans hdepth⟩

end Engine

end SqlDialects
