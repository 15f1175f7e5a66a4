import SqlDialects.Dialect
import SqlDialects.Text.Braces
import SqlDialects.Proofs.Text.Caseless

/-!
Placeholders in texts. Quoting a name, changing case and turning marks of identifiers into quotes
make no placeholder and lose none.
-/

namespace SqlDialects

namespace Text

def Unmarked (text : String) : Prop := '?' ∉ text.toList

instance (text : String) : Decidable (Unmarked text) := inferInstanceAs (Decidable (_ ∉ _))

def marks (text : String) : Nat := text.toList.count '?'

theorem caseless_mark : Caseless '?' := by decide

theorem Unmarked.upper {text : String} (h : Unmarked text) : Unmarked (upper text) := by
  rwa [Unmarked, mem_upper caseless_mark]

theorem Unmarked.lower {text : String} (h : Unmarked text) : Unmarked (lower text) := by
  rwa [Unmarked, mem_lower caseless_mark]

theorem Unmarked.append {a b : String} (ha : Unmarked a) (hb : Unmarked b) : Unmarked (a ++ b) := by
  simp only [Unmarked, String.toList_append, List.mem_append, not_or] at *
  exact ⟨ha, hb⟩

theorem Unmarked.marks_eq {text : String} (h : Unmarked text) : marks text = 0 :=
  List.count_eq_zero.mpr h

theorem marks_append (a b : String) : marks (a ++ b) = marks a + marks b := by
  simp [marks]

theorem not_mem_of_all {text marks : List Char} (h : text.all (!marks.contains ·) = true) :
    ∀ c ∈ text, c ∉ marks := by
  intro c hc
  simpa using List.all_eq_true.mp h c hc

theorem mem_double {c mark : Char} {text : List Char} : c ∈ double mark text ↔ c ∈ text := by
  simp only [double, List.mem_flatMap]
  constructor
  · rintro ⟨d, hd, hc⟩
    split at hc <;> simp at hc <;> exact hc ▸ hd
  · intro h
    exact ⟨c, h, by split <;> simp⟩

theorem mem_consFirst {c d : Char} {piece : List Char} {ps : List (List Char)}
    (hp : piece ∈ consFirst d ps) (hc : c ∈ piece) : c = d ∨ ∃ p ∈ ps, c ∈ p := by
  cases ps with
  | nil =>
    rw [consFirst, List.mem_singleton] at hp
    subst hp
    exact .inl (List.mem_singleton.mp hc)
  | cons p ps =>
    rcases List.mem_cons.mp hp with rfl | hp
    · rcases List.mem_cons.mp hc with rfl | hc
      · exact .inl rfl
      · exact .inr ⟨p, List.mem_cons_self, hc⟩
    · exact .inr ⟨piece, List.mem_cons_of_mem _ hp, hc⟩

theorem mem_of_mem_piecesFrom {needle text piece : List Char} {skip : Nat} {c : Char}
    (hp : piece ∈ piecesFrom needle skip text) (hc : c ∈ piece) : c ∈ text := by
  induction text generalizing skip piece with
  | nil =>
    rw [piecesFrom, List.mem_singleton] at hp
    exact hp ▸ hc
  | cons d rest ih =>
    cases skip with
    | succ skip => exact List.mem_cons_of_mem _ (ih hp hc)
    | zero =>
      rw [piecesFrom] at hp
      split at hp
      · rcases List.mem_cons.mp hp with rfl | hp
        · cases hc
        · exact List.mem_cons_of_mem _ (ih hp hc)
      · rcases mem_consFirst hp hc with rfl | ⟨p, hm, hcp⟩
        · exact List.mem_cons_self
        · exact List.mem_cons_of_mem _ (ih hm hcp)

theorem mem_of_mem_trimBlanks {text : List Char} {c : Char} (h : c ∈ trimBlanks text) :
    c ∈ text := by
  unfold trimBlanks dropBlanks at h
  have hr := (List.dropWhile_sublist _).mem (List.mem_reverse.mp h)
  exact (List.dropWhile_sublist _).mem (List.mem_reverse.mp hr)

theorem mem_intercalate {c : Char} {sep : List Char} {parts : List (List Char)}
    (h : c ∈ List.intercalate sep parts) : c ∈ sep ∨ ∃ p ∈ parts, c ∈ p := by
  induction parts with
  | nil => cases h
  | cons p parts ih =>
    cases parts with
    | nil => exact .inr ⟨p, List.mem_cons_self, by simpa using h⟩
    | cons q parts =>
      rw [List.intercalate_cons_cons, List.mem_append, List.mem_append] at h
      rcases h with (h | h) | h
      · exact .inr ⟨p, List.mem_cons_self, h⟩
      · exact .inl h
      · rcases ih h with hs | ⟨r, hr, hc⟩
        · exact .inl hs
        · exact .inr ⟨r, List.mem_cons_of_mem _ hr, hc⟩

theorem Unmarked.intercalate {separator : String} {parts : List String} (hs : Unmarked separator)
    (hp : ∀ p ∈ parts, Unmarked p) : Unmarked (separator.intercalate parts) := by
  intro hm
  rw [String.toList_intercalate] at hm
  rcases mem_intercalate hm with h | ⟨p, h, hc⟩
  · exact hs h
  · obtain ⟨t, ht, rfl⟩ := List.mem_map.mp h
    exact hp t ht hc

/-- A character that replacing tokens neither reads nor writes is kept, as often as it occurs. -/
theorem count_replaceUnescapedFrom {c : Char} {escape token replacement : List Char}
    (ht : token ≠ []) (hc : c ∉ escape ++ token ++ replacement) (skip : Nat) (text : List Char) :
    (replaceUnescapedFrom escape token replacement skip text).count c =
      (text.drop skip).count c := by
  simp only [List.mem_append, not_or] at hc
  obtain ⟨⟨hce, hct⟩, hcr⟩ := hc
  have hpos := List.length_pos_iff.mpr ht
  have hskip (lead : List Char) (hl : 0 < lead.length) (hn : c ∉ lead) (d : Char)
      (rest : List Char) (h : lead.isPrefixOf (d :: rest)) :
      (rest.drop (lead.length - 1)).count c = (d :: rest).count c := by
    obtain ⟨tail, htail⟩ := List.isPrefixOf_iff_prefix.mp h
    obtain ⟨e, lead, rfl⟩ := List.exists_cons_of_length_pos hl
    rw [List.cons_append, List.cons.injEq] at htail
    obtain ⟨rfl, rfl⟩ := htail
    have hcl : List.count c lead = 0 :=
      List.count_eq_zero.mpr fun hm => hn (List.mem_cons_of_mem _ hm)
    have hce : e ≠ c := fun he => hn (he ▸ List.mem_cons_self)
    simp [hcl, hce]
  induction text generalizing skip with
  | nil => simp
  | cons d rest ih =>
    cases skip with
    | succ skip => exact ih skip
    | zero =>
      rw [replaceUnescapedFrom, List.drop_zero]
      split
      · next h =>
        have hlen : 0 < (escape ++ token).length := by simp; omega
        have hn : c ∉ escape ++ token := by simp [hce, hct]
        rw [List.count_append, ih, List.count_eq_zero.mpr hct, Nat.zero_add,
          ← hskip _ hlen hn d rest h, List.length_append]
      · split
        · next h =>
          rw [List.count_append, ih, List.count_eq_zero.mpr hcr, Nat.zero_add,
            hskip _ hpos hct d rest h]
        · rw [List.count_cons, List.count_cons, ih, List.drop_zero]

theorem mem_of_mem_beforeLastBrace {text before : List Char} {c : Char}
    (h : beforeLastBrace text = some before) (hc : c ∈ before) : c ∈ text := by
  unfold beforeLastBrace at h
  split at h
  · cases h
  · next d rest hd =>
    cases h
    have hr : c ∈ text.reverse.dropWhile (· != '}') :=
      hd ▸ List.mem_cons_of_mem _ (List.mem_reverse.mp hc)
    exact List.mem_reverse.mp ((List.dropWhile_sublist _).mem hr)

theorem mem_of_dottedWord? {text word rest : List Char} (h : dottedWord? text = some (word, rest))
    {c : Char} (hc : c ∈ word ∨ c ∈ rest) : c ∈ text := by
  unfold dottedWord? at h
  split at h
  · next d ds rs ht hd =>
    cases h
    rcases hc with hc | hc
    · exact (List.takeWhile_sublist _).mem (ht ▸ hc)
    · exact (List.dropWhile_sublist _).mem (hd ▸ List.mem_cons_of_mem _ hc)
  · cases h

theorem mem_of_bracePrefix? {text table rest : List Char}
    (h : bracePrefix? text = some (table, rest)) {c : Char} (hc : c ∈ table ∨ c ∈ rest) :
    c = '.' ∨ c ∈ text := by
  unfold bracePrefix? at h
  split at h
  · next first rest' hw =>
    cases h
    exact .inr (mem_of_dottedWord? hw (hc.imp_right (List.mem_cons_of_mem _)))
  · next first between _ hw =>
    have hb {d : Char} (hd : d ∈ between) : d ∈ text := mem_of_dottedWord? hw (.inr hd)
    split at h
    · next second rest' hs =>
      cases h
      rcases hc with hc | hc
      · rcases List.mem_append.mp hc with hc | hc
        · exact .inr (mem_of_dottedWord? hw (.inl hc))
        · rcases List.mem_cons.mp hc with rfl | hc
          · exact .inl rfl
          · exact .inr (hb (mem_of_dottedWord? hs (.inl hc)))
      · exact .inr (hb (mem_of_dottedWord? hs (.inr (List.mem_cons_of_mem _ hc))))
    · cases h
  · cases h

theorem mem_of_mem_expandBraces {text column : String} {c : Char}
    (hc : column ∈ expandBraces text) (hm : c ∈ column.toList) : c = '.' ∨ c ∈ text.toList := by
  unfold Text.expandBraces at hc
  split at hc
  · rw [List.mem_singleton.mp hc] at hm
    exact .inr hm
  · next table rest hp =>
    split at hc
    · rw [List.mem_singleton.mp hc] at hm
      exact .inr hm
    · next inner hi =>
      obtain ⟨piece, hpiece, rfl⟩ := List.mem_map.mp hc
      rw [String.toList_ofList] at hm
      rcases List.mem_append.mp hm with hm | hm
      · exact mem_of_bracePrefix? hp (.inl hm)
      · rcases List.mem_cons.mp hm with hm | hm
        · exact .inl hm
        · have hin := mem_of_mem_piecesFrom hpiece (mem_of_mem_trimBlanks hm)
          have hrest := mem_of_mem_beforeLastBrace hi hin
          exact mem_of_bracePrefix? hp (.inr ((List.takeWhile_sublist _).mem hrest))

theorem Unmarked.expandBraces {text column : String} (h : Unmarked text)
    (hc : column ∈ expandBraces text) : Unmarked column := by
  intro hm
  rcases mem_of_mem_expandBraces hc hm with hdot | hm
  · exact absurd hdot (by decide)
  · exact h hm

end Text

namespace Engine

open Text

variable (e : Engine)

theorem mem_wrapSegment {c : Char} (hc : Caseless c) {text : List Char}
    (h : c ∈ e.wrapSegment text) :
    c = e.dialect.opening ∨ c = e.dialect.closing ∨ c ∈ text := by
  have hq (hm : c ∈ e.dialect.quote text) :
      c = e.dialect.opening ∨ c = e.dialect.closing ∨ c ∈ text := by
    simp only [Dialect.quote, Text.quote, List.cons_append, List.mem_cons, List.mem_append,
      mem_double, List.not_mem_nil, or_false] at hm
    exact hm.imp_right Or.symm
  unfold wrapSegment at h
  split at h
  · exact .inr (.inr h)
  · simp only at h
    split at h
    · obtain ⟨d, hd, hcd⟩ := List.mem_flatMap.mp h
      rw [(mem_upperChar hc).mp hcd] at hq ⊢
      exact hq hd
    · exact hq h

theorem mem_of_splitAs? {text before after : List Char}
    (h : splitAs? text = some (before, after)) {c : Char} (hc : c ∈ before ∨ c ∈ after) :
    c ∈ text := by
  have hafter {text after : List Char} (h : afterAs? text = some after) (hc : c ∈ after) :
      c ∈ text := by
    unfold afterAs? at h
    split at h
    · split at h
      · cases h
        simp [hc]
      · cases h
    · cases h
  induction text generalizing before with
  | nil => cases h
  | cons d rest ih =>
    unfold splitAs? at h
    split at h
    · next ha =>
      cases h
      rcases hc with hc | hc
      · cases hc
      · exact hafter ha hc
    · cases hs : splitAs? rest with
      | none => rw [hs] at h; cases h
      | some p =>
        rw [hs] at h
        cases h
        rcases hc with hc | hc
        · rcases List.mem_cons.mp hc with rfl | hc
          · exact List.mem_cons_self
          · exact List.mem_cons_of_mem _ (ih hs (.inl hc))
        · exact List.mem_cons_of_mem _ (ih hs (.inr hc))

theorem not_mem_wrapSegment {text : List Char} (h : '?' ∉ text) : '?' ∉ e.wrapSegment text := by
  intro hm
  rcases e.mem_wrapSegment caseless_mark hm with ho | hc | ht
  · cases e <;> exact absurd ho (by decide)
  · cases e <;> exact absurd hc (by decide)
  · exact h ht

theorem not_mem_wrapPath {text : List Char} (h : '?' ∉ text) : '?' ∉ e.wrapPath text := by
  intro hm
  rcases mem_intercalate hm with hs | ⟨p, hp, hc⟩
  · exact absurd hs (by decide)
  · obtain ⟨piece, hpiece, rfl⟩ := List.mem_map.mp hp
    exact e.not_mem_wrapSegment (fun hq => h (mem_of_mem_piecesFrom hpiece hq)) hc

theorem unmarked_columnAs : Unmarked e.dialect.columnAs := by cases e <;> decide

theorem unmarked_tableAs : Unmarked e.dialect.tableAs := by cases e <;> decide

theorem unmarked_lastId : Unmarked e.dialect.lastId := by cases e <;> decide

theorem unmarked_wrap {name : String} (h : Unmarked name) : Unmarked (e.wrap name) := by
  rw [Unmarked, wrap, String.toList_ofList]
  unfold wrapName
  split
  · next before after hs =>
    have hb := e.not_mem_wrapPath fun hq => h (mem_of_splitAs? hs (.inl hq))
    have ha := e.not_mem_wrapSegment fun hq => h (mem_of_splitAs? hs (.inr hq))
    simp only [List.mem_append, List.mem_cons, not_or]
    exact ⟨⟨hb, by decide, e.unmarked_columnAs⟩, ha⟩
  · exact e.not_mem_wrapPath h

theorem unmarked_wrapValue {name : String} (h : Unmarked name) : Unmarked (e.wrapValue name) := by
  rw [Unmarked, wrapValue, String.toList_ofList]
  exact e.not_mem_wrapSegment h

theorem marks_replaceUnescaped {escape token replacement : Char}
    (h : '?' ∉ [escape] ++ [token] ++ [replacement]) (text : String) :
    marks (replaceUnescaped escape.toString token.toString replacement.toString text) =
      marks text := by
  unfold replaceUnescaped marks
  split
  · rfl
  · rw [String.toList_ofList, count_replaceUnescapedFrom (by simp) (by simpa using h),
      List.drop_zero]

theorem marks_wrapIdentifiers (sql : String) : marks (e.wrapIdentifiers sql) = marks sql := by
  unfold wrapIdentifiers delimiters
  simp only [List.foldl_cons, List.foldl_nil]
  rw [marks_replaceUnescaped, marks_replaceUnescaped, marks_replaceUnescaped,
    marks_replaceUnescaped] <;> cases e <;> decide

end Engine

end SqlDialects
