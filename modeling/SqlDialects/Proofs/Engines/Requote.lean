import SqlDialects.Proofs.Placeholder.Fill
import SqlDialects.Proofs.Reading.Tokens

/-!
SQL in the quotes of another engine. A name is quoted alike by the engines that double the closing
mark, if it has none of their marks itself; all else in SQL stays as it is.
-/

namespace SqlDialects

namespace Engine

open Text

def kin : List Engine := [.postgres, .sqlite, .mySql]

variable (e : Engine)

def requoteChar (c : Char) : Char := if c = '"' then e.dialect.opening else c

/-- SQL for the generic engine in the quotes of this one. -/
def requote (sql : String) : String := String.ofList (sql.toList.map e.requoteChar)

/-- The text has no mark that one engine quotes with and another does not. -/
def Neutral (text : List Char) : Prop :=
  e.dialect.opening = '"' ∨ '"' ∉ text ∧ e.dialect.opening ∉ text

variable {e}

theorem requoteChar_of_ne {c : Char} (h : c ≠ '"') : e.requoteChar c = c := if_neg h

theorem map_requoteChar {text : List Char} (h : '"' ∉ text) : text.map e.requoteChar = text := by
  refine (List.map_congr_left fun c hc => ?_).trans (List.map_id text)
  exact requoteChar_of_ne fun hq => h (hq ▸ hc)

theorem Neutral.map_requoteChar {text : List Char} (h : e.Neutral text) :
    text.map e.requoteChar = text := by
  rcases h with h | ⟨h, -⟩
  · refine (List.map_congr_left fun c _ => ?_).trans (List.map_id text)
    unfold requoteChar
    split
    · next hc => rw [h, hc]; rfl
    · rfl
  · exact Engine.map_requoteChar h

theorem Neutral.of_subset {a b : List Char} (h : e.Neutral b) (hab : ∀ c ∈ a, c ∈ b) :
    e.Neutral a :=
  h.imp_right fun ⟨h, h'⟩ => ⟨fun hq => h (hab _ hq), fun hq => h' (hab _ hq)⟩

theorem Neutral.append {a b : List Char} (ha : e.Neutral a) (hb : e.Neutral b) :
    e.Neutral (a ++ b) := by
  rcases ha with h | ⟨ha, ha'⟩
  · exact .inl h
  · refine hb.imp_right fun ⟨hb, hb'⟩ => ⟨fun hm => ?_, fun hm => ?_⟩
    · exact (List.mem_append.mp hm).elim ha hb
    · exact (List.mem_append.mp hm).elim ha' hb'

theorem neutral_of_not_mem (he : e ∈ kin) {text : List Char} (h : '"' ∉ text ∧ '\x60' ∉ text) :
    e.Neutral text := by
  have hopening : ∀ e ∈ kin, e.dialect.opening = '"' ∨ e.dialect.opening = '\x60' := by decide
  exact (hopening e he).imp_right fun ho => ⟨h.1, by rw [ho]; exact h.2⟩

theorem requote_of_opening (h : e.dialect.opening = '"') (sql : String) : e.requote sql = sql := by
  rw [requote, Neutral.map_requoteChar (.inl h), String.ofList_toList]

theorem requote_of_neutral {sql : String} (h : e.Neutral sql.toList) : e.requote sql = sql := by
  rw [requote, h.map_requoteChar, String.ofList_toList]

theorem requote_unquoted {sql : String} (h : '"' ∉ sql.toList) : e.requote sql = sql := by
  rw [requote, map_requoteChar h, String.ofList_toList]

theorem requote_append (a b : String) : e.requote (a ++ b) = e.requote a ++ e.requote b := by
  simp [requote]

theorem requote_eq_empty {sql : String} : e.requote sql = "" ↔ sql = "" := by
  rw [← String.toList_eq_nil_iff, ← String.toList_eq_nil_iff, requote, String.toList_ofList,
    List.map_eq_nil_iff]

theorem isEmpty_requote (sql : String) : (e.requote sql).isEmpty = sql.isEmpty := by
  rw [Bool.eq_iff_iff, String.isEmpty_iff, String.isEmpty_iff, requote_eq_empty]

theorem requote_intercalate {separator : String} (hs : '"' ∉ separator.toList)
    (parts : List String) : e.requote (separator.intercalate parts) =
      separator.intercalate (parts.map e.requote) := by
  induction parts with
  | nil => rfl
  | cons p parts ih =>
    cases parts with
    | nil => simp
    | cons q parts =>
      rw [String.intercalate_cons_cons, requote_append, requote_append, requote_unquoted hs, ih]
      exact String.intercalate_cons_cons.symm

theorem requote_negate (isNot : Bool) (sql : String) :
    e.requote (negate isNot sql) = negate isNot (e.requote sql) := by
  cases isNot with
  | false => rfl
  | true =>
    show e.requote ("NOT (" ++ sql ++ ")") = "NOT (" ++ e.requote sql ++ ")"
    have hopen : e.requote "NOT (" = "NOT (" := requote_unquoted (by decide)
    have hclose : e.requote ")" = ")" := requote_unquoted (by decide)
    rw [requote_append, requote_append, hopen, hclose]

section Trim

variable (he : e ∈ kin)

include he

theorem isBlank_requoteChar (c : Char) : isBlank (e.requoteChar c) = isBlank c := by
  unfold requoteChar
  split
  · next hc =>
    subst hc
    revert e
    decide
  · rfl

theorem dropBlanks_requote (text : List Char) :
    dropBlanks (text.map e.requoteChar) = (dropBlanks text).map e.requoteChar := by
  have hblank : isBlank ∘ e.requoteChar = isBlank := funext (isBlank_requoteChar he)
  rw [dropBlanks, List.dropWhile_map, hblank, dropBlanks]

theorem requote_trim (sql : String) : e.requote (trim sql) = trim (e.requote sql) := by
  simp only [requote, trim, trimBlanks, String.toList_ofList, List.map_reverse,
    ← dropBlanks_requote he]

end Trim

section Names

variable (he : e ∈ kin) {text : List Char}

include he

theorem wrapSegment_requote (h : e.Neutral text) :
    e.wrapSegment text = (generic.wrapSegment text).map e.requoteChar := by
  by_cases hstar : text = ['*']
  · subst hstar
    rw [wrapSegment_star, wrapSegment_star, map_requoteChar (by decide)]
  · have hquote {d : Engine} (hf : d ≠ firebird) :
        d.wrapSegment text = quote d.dialect.opening d.dialect.closing text := by
      rw [wrapSegment, if_neg hstar]
      exact if_neg hf
    have hsame (ho : e.dialect.opening = '"') (hc : e.dialect.closing = '"') :
        quote e.dialect.opening e.dialect.closing text =
          (quote '"' '"' text).map e.requoteChar := by
      rw [Neutral.map_requoteChar (.inl ho), ho, hc]
    rw [hquote (d := generic) (by decide)]
    rcases List.mem_cons.mp he with rfl | he
    · rw [hquote (by decide)]
      exact hsame rfl rfl
    rcases List.mem_pair.mp he with rfl | rfl
    · rw [hquote (by decide)]
      exact hsame rfl rfl
    · obtain ⟨hq, hm⟩ := h.resolve_left (by decide)
      have hgeneric : quote '"' '"' text = '"' :: text ++ ['"'] := by
        rw [quote, Text.double_eq_self hq]
      have hown : quote '\x60' '\x60' text = '\x60' :: text ++ ['\x60'] := by
        rw [quote, Text.double_eq_self (show '\x60' ∉ text from hm)]
      rw [hquote (by decide)]
      show quote '\x60' '\x60' text = (quote '"' '"' text).map _
      rw [hgeneric, hown, List.map_append, List.map_cons, map_requoteChar hq]
      rfl

omit he in
theorem map_intercalate_requoteChar {separator : List Char} (hs : '"' ∉ separator)
    (parts : List (List Char)) : (List.intercalate separator parts).map e.requoteChar =
      List.intercalate separator (parts.map (List.map e.requoteChar)) := by
  induction parts with
  | nil => rfl
  | cons p parts ih =>
    cases parts with
    | nil => simp
    | cons q parts =>
      rw [List.intercalate_cons_cons, List.map_append, List.map_append, map_requoteChar hs, ih]
      exact List.intercalate_cons_cons.symm

theorem wrapPath_requote (h : e.Neutral text) :
    e.wrapPath text = (generic.wrapPath text).map e.requoteChar := by
  have hpieces : (pieces ['.'] text).map e.wrapSegment =
      ((pieces ['.'] text).map generic.wrapSegment).map (List.map e.requoteChar) := by
    rw [List.map_map]
    refine List.map_congr_left fun p hp => ?_
    exact wrapSegment_requote he (h.of_subset fun c hc => mem_of_mem_piecesFrom hp hc)
  rw [wrapPath, wrapPath, hpieces, map_intercalate_requoteChar (by decide)]

theorem wrap_requote {name : String} (h : e.Neutral name.toList) :
    e.wrap name = e.requote (generic.wrap name) := by
  have hword : e.dialect.columnAs = generic.dialect.columnAs := by cases e <;> rfl
  rw [wrap, wrap, requote, String.toList_ofList]
  refine congrArg String.ofList ?_
  unfold wrapName
  split
  · next before after hs =>
    have hbefore := h.of_subset fun c hc => mem_of_splitAs? hs (.inl hc)
    have hafter := h.of_subset fun c hc => mem_of_splitAs? hs (.inr hc)
    have has : generic.dialect.columnAs.toList.map e.requoteChar =
        generic.dialect.columnAs.toList := map_requoteChar (by decide)
    rw [wrapPath_requote he hbefore, wrapSegment_requote he hafter, hword, List.map_append,
      List.map_append, List.map_cons, has, requoteChar_of_ne (by decide)]
  · exact wrapPath_requote he h

theorem wrapValue_requote {name : String} (h : e.Neutral name.toList) :
    e.wrapValue name = e.requote (generic.wrapValue name) := by
  rw [wrapValue, wrapValue, requote, String.toList_ofList, wrapSegment_requote he h]

end Names

section Identifiers

theorem isPrefixOf_map_requoteChar {token : List Char} (ht : '"' ∉ token)
    (ho : e.dialect.opening = '"' ∨ e.dialect.opening ∉ token) (text : List Char) :
    token.isPrefixOf (text.map e.requoteChar) = token.isPrefixOf text := by
  induction token generalizing text with
  | nil => rfl
  | cons t token ih =>
    have ih := ih (fun h => ht (List.mem_cons_of_mem _ h))
      (ho.imp_right fun ho h => ho (List.mem_cons_of_mem _ h))
    cases text with
    | nil => rfl
    | cons c text =>
      have hc : (t == e.requoteChar c) = (t == c) := by
        have htq : t ≠ '"' := fun h => ht (h ▸ List.mem_cons_self)
        unfold requoteChar
        split
        · next hc =>
          have hto : t ≠ e.dialect.opening := by
            rcases ho with ho | ho
            · rwa [ho]
            · exact fun h => ho (h ▸ List.mem_cons_self)
          rw [hc, beq_eq_false_iff_ne.mpr htq, beq_eq_false_iff_ne.mpr hto]
        · rfl
      rw [List.map_cons, List.isPrefixOf_cons_cons, List.isPrefixOf_cons_cons, ih, hc]

theorem replaceUnescapedFrom_requote {escape token : List Char} (ht : '"' ∉ escape ++ token)
    (ho : e.dialect.opening = '"' ∨ e.dialect.opening ∉ escape ++ token)
    (replacement : List Char) (skip : Nat) (text : List Char) :
    replaceUnescapedFrom escape token (replacement.map e.requoteChar) skip
        (text.map e.requoteChar) =
      (replaceUnescapedFrom escape token replacement skip text).map e.requoteChar := by
  have htoken : '"' ∉ token := fun h => ht (List.mem_append_right _ h)
  have hopening := ho.imp_right fun ho h => ho (List.mem_append_right escape h)
  induction text generalizing skip with
  | nil => simp
  | cons c text ih =>
    cases skip with
    | succ skip => exact ih skip
    | zero =>
      rw [List.map_cons, replaceUnescapedFrom, replaceUnescapedFrom, ← List.map_cons,
        isPrefixOf_map_requoteChar ht ho, isPrefixOf_map_requoteChar htoken hopening, ih, ih, ih]
      split
      · rw [List.map_append, map_requoteChar htoken]
      · split
        · rw [List.map_append]
        · rfl

theorem replaceUnescaped_requote {escape token : Char} (ht : '"' ∉ [escape, token])
    (ho : e.dialect.opening = '"' ∨ e.dialect.opening ∉ [escape, token]) (replacement : Char)
    (sql : String) :
    replaceUnescaped escape.toString token.toString (e.requoteChar replacement).toString
        (e.requote sql) =
      e.requote (replaceUnescaped escape.toString token.toString replacement.toString sql) := by
  have htoken : token.toString.isEmpty = false := isEmpty_needle (m := token) (by simp)
  have hreplace : replaceUnescapedFrom [escape] [token] ([replacement].map e.requoteChar) 0
      (sql.toList.map e.requoteChar) = (replaceUnescapedFrom [escape] [token] [replacement] 0
        sql.toList).map e.requoteChar := replaceUnescapedFrom_requote ht ho _ _ _
  simpa [replaceUnescaped, htoken, requote] using congrArg String.ofList hreplace

theorem wrapIdentifiers_requote (he : e ∈ kin) {sql : String} (h : e.Neutral sql.toList) :
    e.wrapIdentifiers sql = e.requote (generic.wrapIdentifiers sql) := by
  let replaced (sql : String) (ds : List (Char × Char)) : String :=
    ds.foldl (fun sql d => replaceUnescaped ('\\').toString d.1.toString d.2.toString sql) sql
  have hall (ds : List (Char × Char)) (hds : ∀ d ∈ ds, '"' ∉ ['\\', d.1] ∧
      (e.dialect.opening = '"' ∨ e.dialect.opening ∉ ['\\', d.1])) (sql : String) :
      replaced (e.requote sql) (ds.map (Prod.map id e.requoteChar)) =
        e.requote (replaced sql ds) := by
    induction ds generalizing sql with
    | nil => rfl
    | cons d ds ih =>
      obtain ⟨ht, ho⟩ := hds d List.mem_cons_self
      refine (congrArg (replaced · _) (replaceUnescaped_requote ht ho d.2 sql)).trans ?_
      exact ih (fun d hm => hds d (List.mem_cons_of_mem _ hm)) _
  have hescape (e : Engine) : e.dialect.escape = '\\' := by cases e <;> rfl
  have hmarks : ∀ e ∈ kin, delimiters e.dialect =
      (delimiters generic.dialect).map (Prod.map id e.requoteChar) := by decide
  have hds : ∀ e ∈ kin, ∀ d ∈ delimiters generic.dialect, '"' ∉ ['\\', d.1] ∧
      (e.dialect.opening = '"' ∨ e.dialect.opening ∉ ['\\', d.1]) := by decide
  have htext := hall _ (hds e he) sql
  rw [requote_of_neutral h, ← hmarks e he] at htext
  rw [wrapIdentifiers, wrapIdentifiers, hescape, hescape]
  exact htext

end Identifiers

section Markers

variable (he : e ∈ kin)

include he

theorem requoteChar_eq_mark {c : Char} : e.requoteChar c = '?' ↔ c = '?' := by
  have hne : ∀ e ∈ kin, e.dialect.opening ≠ '?' := by decide
  unfold requoteChar
  split
  · next hc =>
    subst hc
    exact iff_of_false (hne e he) (by decide)
  · rfl

theorem marks_requote (sql : String) : marks (e.requote sql) = marks sql := by
  rw [marks, requote, String.toList_ofList, marks, List.count, List.countP_map]
  refine List.countP_congr fun c _ => ?_
  simpa using requoteChar_eq_mark he

theorem fill_requote {mark : Nat → List Char} (hm : ∀ i, '"' ∉ mark i) (i : Nat)
    (text : List Char) : fill '?' mark i (text.map e.requoteChar) =
      (fill '?' mark i text).map e.requoteChar := by
  induction text generalizing i with
  | nil => rfl
  | cons c text ih =>
    by_cases hc : c = '?'
    · have hq := (requoteChar_eq_mark he).mpr hc
      rw [List.map_cons, hq, hc, fill_cons_self, fill_cons_self, ih, List.map_append,
        map_requoteChar (hm i)]
    · have hq : e.requoteChar c ≠ '?' := fun h => hc ((requoteChar_eq_mark he).mp h)
      rw [List.map_cons, fill_cons_of_ne hq, fill_cons_of_ne hc, ih, List.map_cons]

/-- Arrays are expanded before SQL is requoted or after. -/
theorem expandMarkers_requote (bindings : List Value) (sql : String) :
    expandMarkers "?" bindings (e.requote sql) =
      (expandMarkers "?" bindings sql).map e.requote := by
  have hmark (i : Nat) : '"' ∉ (expandMarker "?" bindings[i]?).toList := fun h => by
    rcases mem_expandMarker h with h | h <;> exact absurd h (by decide)
  by_cases h : marks sql = bindings.length
  · have hsql : expandMarkers "?" bindings sql = .ok (String.ofList
        (fill '?' (fun i => (expandMarker "?" bindings[i]?).toList) 0 sql.toList)) :=
      expandMarkers_eq_ok.mpr ⟨h, String.toList_ofList⟩
    rw [hsql]
    refine expandMarkers_eq_ok.mpr ⟨(marks_requote he sql).trans h, ?_⟩
    rw [requote, requote, String.toList_ofList, String.toList_ofList, String.toList_ofList,
      fill_requote he hmark]
  · rw [expandMarkers, expandMarkers, length_indexesOf_mark, length_indexesOf_mark,
      marks_requote he, if_pos h, if_pos h]
    rfl

end Markers

end Engine

end SqlDialects
