import Mathlib.Data.List.Forall2
import Mathlib.Data.List.TakeWhile
import SqlDialects.Proofs.Text.Mark
import SqlDialects.Proofs.Text.Occurs
import SqlDialects.Proofs.Text.Pieces
import SqlDialects.Text.Braces

/-!
What braces in a column expression list. Main statement: a list of names is taken apart just when it
stands on one line, whatever follows it, and an expression stands for itself just when it does not
open with a table and a brace that is closed on its line.
-/

namespace SqlDialects.Text

def IsWord (text : List Char) : Prop := text ≠ [] ∧ ∀ c ∈ text, isWord c = true

def IsTable (text : List Char) : Prop :=
  IsWord text ∨ ∃ first second, IsWord first ∧ IsWord second ∧ text = first ++ '.' :: second

theorem dottedWord?_eq_some_iff {text word rest : List Char} :
    dottedWord? text = some (word, rest) ↔ IsWord word ∧ text = word ++ '.' :: rest := by
  have hdot : ¬isWord '.' = true := by decide
  constructor
  · intro h
    unfold dottedWord? at h
    split at h
    · next c word' rest' hword hrest =>
      cases h
      have hall := List.all_takeWhile (p := isWord) (l := text)
      rw [hword, List.all_eq_true] at hall
      refine ⟨⟨List.cons_ne_nil c word', hall⟩, ?_⟩
      rw [← hword, ← hrest, List.takeWhile_append_dropWhile]
    · cases h
  · rintro ⟨⟨hne, hword⟩, rfl⟩
    obtain ⟨c, word, rfl⟩ := List.exists_cons_of_ne_nil hne
    have htake : (c :: word ++ '.' :: rest).takeWhile isWord = c :: word := by
      rw [List.takeWhile_append_of_pos hword, List.takeWhile_cons_of_neg hdot, List.append_nil]
    have hdrop : (c :: word ++ '.' :: rest).dropWhile isWord = '.' :: rest := by
      rw [List.dropWhile_append_of_pos hword, List.dropWhile_cons_of_neg hdot]
    rw [dottedWord?, htake, hdrop]
    rfl

theorem bracePrefix?_eq_some_iff {text table rest : List Char} :
    bracePrefix? text = some (table, rest) ↔
      IsTable table ∧ text = table ++ '.' :: '{' :: rest := by
  constructor
  · intro h
    unfold bracePrefix? at h
    split at h
    · next hfirst =>
      cases h
      obtain ⟨hword, rfl⟩ := dottedWord?_eq_some_iff.mp hfirst
      exact ⟨.inl hword, rfl⟩
    · next hfirst =>
      split at h
      · next hsecond =>
        cases h
        obtain ⟨hword, rfl⟩ := dottedWord?_eq_some_iff.mp hfirst
        obtain ⟨hword', rfl⟩ := dottedWord?_eq_some_iff.mp hsecond
        exact ⟨.inr ⟨_, _, hword, hword', rfl⟩, by simp⟩
      · cases h
    · cases h
  · rintro ⟨hword | ⟨first, second, hfirst, hsecond, rfl⟩, rfl⟩
    · rw [bracePrefix?, dottedWord?_eq_some_iff.mpr ⟨hword, rfl⟩]
      rfl
    · have hone : dottedWord? (first ++ '.' :: second ++ '.' :: '{' :: rest) =
          some (first, second ++ '.' :: '{' :: rest) :=
        dottedWord?_eq_some_iff.mpr ⟨hfirst, by simp⟩
      have htwo : dottedWord? (second ++ '.' :: '{' :: rest) = some (second, '{' :: rest) :=
        dottedWord?_eq_some_iff.mpr ⟨hsecond, rfl⟩
      obtain ⟨c, word, rfl⟩ := List.exists_cons_of_ne_nil hsecond.1
      have hc : c ≠ '{' := by
        rintro rfl
        exact absurd (hsecond.2 _ List.mem_cons_self) (by decide)
      rw [bracePrefix?, hone]
      simp only [List.cons_append]
      split
      · next heq => exact absurd (List.cons.inj (Prod.mk.inj (Option.some.inj heq)).2).1 hc
      · next heq =>
        cases heq
        rw [← List.cons_append, htwo]
        rfl
      · next heq => cases heq

theorem bne_of_not_mem {m : Char} {text : List Char} (h : m ∉ text) :
    ∀ c ∈ text, (c != m) = true := by
  intro c hc
  rw [bne_iff_ne]
  rintro rfl
  exact h hc

theorem beforeLastBrace_append {inner after : List Char} (h : '}' ∉ after) :
    beforeLastBrace (inner ++ '}' :: after) = some inner := by
  have hafter : '}' ∉ after.reverse := fun hm => h (List.mem_reverse.mp hm)
  have hdrop : (inner ++ '}' :: after).reverse.dropWhile (· != '}') = '}' :: inner.reverse := by
    rw [List.reverse_append, List.reverse_cons, List.append_assoc,
      List.dropWhile_append_of_pos (bne_of_not_mem hafter), List.singleton_append,
      List.dropWhile_cons_of_neg (by decide)]
  rw [beforeLastBrace, hdrop]
  exact congrArg some (List.reverse_reverse inner)

theorem exists_last_brace {text : List Char} (h : '}' ∈ text) :
    ∃ inner after, '}' ∉ after ∧ text = inner ++ '}' :: after := by
  obtain ⟨back, front, hreverse, hback⟩ := List.eq_append_cons_of_mem (List.mem_reverse.mpr h)
  refine ⟨front.reverse, back.reverse, fun hm => hback (List.mem_reverse.mp hm), ?_⟩
  rw [← List.reverse_reverse text, hreverse]
  simp

theorem beforeLastBrace_of_not_mem {text : List Char} (h : '}' ∉ text) :
    beforeLastBrace text = none := by
  have hreverse : '}' ∉ text.reverse := fun hm => h (List.mem_reverse.mp hm)
  rw [beforeLastBrace, List.dropWhile_eq_nil_iff.mpr (bne_of_not_mem hreverse)]

def restOfLine (text : List Char) : List Char := text.takeWhile (· != '\n')

theorem restOfLine_append {front : List Char} (back : List Char) (h : '\n' ∉ front) :
    restOfLine (front ++ back) = front ++ restOfLine back :=
  List.takeWhile_append_of_pos (bne_of_not_mem h)

theorem restOfLine_subset {front : List Char} (back : List Char) (h : '\n' ∈ front) :
    restOfLine (front ++ back) ⊆ front := by
  obtain ⟨line, more, rfl, hline⟩ := List.eq_append_cons_of_mem h
  have hrest : restOfLine (line ++ '\n' :: more ++ back) = line := by
    rw [List.append_assoc, restOfLine_append _ hline]
    exact List.append_nil line
  rw [hrest]
  exact List.subset_append_left _ _

section Table

variable {table : List Char} (ht : IsTable table)

include ht

theorem expandBraces_open (rest : List Char) :
    expandBraces (String.ofList (table ++ '.' :: '{' :: rest)) =
      match beforeLastBrace (restOfLine rest) with
      | none => [String.ofList (table ++ '.' :: '{' :: rest)]
      | some inner =>
        (inner.splitOn ',').map fun column =>
          String.ofList (table ++ '.' :: trimBlanks column) := by
  have hp (inner : List Char) : pieces [','] inner = inner.splitOn ',' :=
    piecesFrom_singleton ',' inner
  unfold expandBraces
  rw [String.toList_ofList, bracePrefix?_eq_some_iff.mpr ⟨ht, rfl⟩]
  simp only [hp]
  rfl

theorem expandBraces_ne_self {rest : List Char} (h : '}' ∈ restOfLine rest) :
    expandBraces (String.ofList (table ++ '.' :: '{' :: rest)) ≠
      [String.ofList (table ++ '.' :: '{' :: rest)] := by
  obtain ⟨inner, after, hafter, hline⟩ := exists_last_brace h
  rw [expandBraces_open ht, hline, beforeLastBrace_append hafter]
  -- A single name would have to be the whole rest, but it lies inside the braces.
  intro hself
  have hone : ',' ∉ inner := by
    have hlength := congrArg List.length hself
    rw [List.length_map, length_splitOn, List.length_singleton, Nat.add_eq_right] at hlength
    exact List.count_eq_zero.mp hlength
  dsimp only at hself
  rw [splitOn_of_not_mem hone, List.map_singleton, List.cons.injEq, String.ofList_inj,
    List.append_cancel_left_eq, List.cons.injEq] at hself
  have hinner : trimBlanks inner <:+: inner := trimBlanks_infix inner
  have hlong : inner.length < rest.length := by
    have hrest : (restOfLine rest).length ≤ rest.length :=
      (List.takeWhile_prefix _).length_le
    rw [hline, List.length_append, List.length_cons] at hrest
    omega
  have hshort := hinner.length_le
  rw [hself.1.2, List.length_cons] at hshort
  omega

end Table

/-- A name in a list: it has no comma and no brace, and white space is around it only. -/
structure IsCell (name cell : String) : Prop where
  comma : ',' ∉ name.toList
  opening : '{' ∉ name.toList
  closing : '}' ∉ name.toList
  first : ∀ c ∈ name.toList.head?, isBlank c = false
  last : ∀ c ∈ name.toList.getLast?, isBlank c = false
  pads : ∃ front back, (∀ c ∈ front ++ back, isBlank c = true) ∧
    cell.toList = front ++ name.toList ++ back

/-- A text that lists some names between commas. -/
def Lists (inner : String) (names : List String) : Prop :=
  names ≠ [] ∧ ∃ cells, List.Forall₂ IsCell names cells ∧ inner = ",".intercalate cells

theorem dropBlanks_append {front text : List Char} (h : ∀ c ∈ front, isBlank c = true) :
    dropBlanks (front ++ text) = dropBlanks text :=
  List.dropWhile_append_of_pos h

namespace IsCell

variable {name cell : String} (h : IsCell name cell)

include h

theorem trimBlanks : Text.trimBlanks cell.toList = name.toList := by
  obtain ⟨front, back, hblank, hcell⟩ := h.pads
  have hfront : ∀ c ∈ front, isBlank c = true := fun c hc => hblank c (List.mem_append_left _ hc)
  have hback : ∀ c ∈ back.reverse, isBlank c = true :=
    fun c hc => hblank c (List.mem_append_right _ (List.mem_reverse.mp hc))
  rw [hcell, Text.trimBlanks, List.append_assoc, dropBlanks_append hfront]
  by_cases hname : name.toList = []
  · have hnone : dropBlanks back = [] :=
      List.dropWhile_eq_nil_iff.mpr fun c hc => hback c (List.mem_reverse.mpr hc)
    rw [hname, List.nil_append, hnone]
    rfl
  · have hkeep : dropBlanks (name.toList ++ back) = name.toList ++ back :=
      dropBlanks_eq_self_iff.mpr (by rw [List.head?_append_of_ne_nil _ hname]; exact h.first)
    have hlast : dropBlanks name.toList.reverse = name.toList.reverse :=
      dropBlanks_eq_self_iff.mpr (by rw [List.head?_reverse]; exact h.last)
    rw [hkeep, List.reverse_append, dropBlanks_append hback, hlast, List.reverse_reverse]

theorem not_mem {c : Char} (hc : isBlank c = false) (hname : c ∉ name.toList) :
    c ∉ cell.toList := by
  obtain ⟨front, back, hblank, hcell⟩ := h.pads
  intro hmem
  rw [hcell, List.append_assoc] at hmem
  have hpad (hm : c ∈ front ++ back) : False := absurd (hblank c hm) (by rw [hc]; decide)
  rcases List.mem_append.mp hmem with hm | hm
  · exact hpad (List.mem_append_left _ hm)
  · exact (List.mem_append.mp hm).elim hname fun hm => hpad (List.mem_append_right _ hm)

end IsCell

theorem IsCell.of_mem {names cells : List String} (h : List.Forall₂ IsCell names cells)
    {cell : String} (hm : cell ∈ cells) : ∃ name, IsCell name cell := by
  induction h with
  | nil => cases hm
  | cons hcell _ ih =>
    rcases List.mem_cons.mp hm with rfl | hm
    · exact ⟨_, hcell⟩
    · exact ih hm

theorem IsCell.map_trimBlanks {names cells : List String} (h : List.Forall₂ IsCell names cells) :
    cells.map (fun cell => Text.trimBlanks cell.toList) = names.map String.toList := by
  induction h with
  | nil => rfl
  | cons hcell _ ih => rw [List.map_cons, List.map_cons, hcell.trimBlanks, ih]

theorem Lists.trimBlanks_splitOn {inner : String} {names : List String} (h : Lists inner names) :
    (inner.toList.splitOn ',').map trimBlanks = names.map String.toList := by
  obtain ⟨hne, cells, hcells, rfl⟩ := h
  have hne' : cells.map String.toList ≠ [] := by
    rw [ne_eq, List.map_eq_nil_iff]
    rintro rfl
    cases hcells
    exact hne rfl
  have hcomma : ∀ text ∈ cells.map String.toList, ',' ∉ text := by
    intro text ht
    obtain ⟨cell, hcell, rfl⟩ := List.mem_map.mp ht
    obtain ⟨name, hname⟩ := IsCell.of_mem hcells hcell
    exact hname.not_mem rfl hname.comma
  have hchars : ",".toList = [','] := rfl
  rw [String.toList_intercalate, hchars, List.splitOn_intercalate ',' hcomma hne', List.map_map]
  exact IsCell.map_trimBlanks hcells

theorem Lists.closing {inner : String} {names : List String} (h : Lists inner names) :
    '}' ∉ inner.toList := by
  obtain ⟨-, cells, hcells, rfl⟩ := h
  rw [String.toList_intercalate]
  intro hm
  rcases mem_intercalate hm with hm | ⟨text, ht, hm⟩
  · exact absurd hm (by decide)
  · obtain ⟨cell, hcell, rfl⟩ := List.mem_map.mp ht
    obtain ⟨name, hname⟩ := IsCell.of_mem hcells hcell
    exact hname.not_mem rfl hname.closing hm

theorem Lists.opening {inner : String} {names : List String} (h : Lists inner names) :
    ∀ name ∈ names, '{' ∉ name.toList := by
  obtain ⟨-, cells, hcells, rfl⟩ := h
  induction hcells with
  | nil => exact fun name hm => absurd hm List.not_mem_nil
  | cons hcell _ ih =>
    intro name hm
    rcases List.mem_cons.mp hm with rfl | hm
    · exact hcell.opening
    · exact ih name hm

def braced (table inner after : String) : String :=
  table ++ ".\x7b" ++ inner ++ "\x7d" ++ after

theorem braced_eq_ofList (table inner after : String) : braced table inner after =
    String.ofList (table.toList ++ '.' :: '{' :: (inner.toList ++ '}' :: after.toList)) := by
  rw [← String.toList_inj, String.toList_ofList]
  simp [braced]

theorem expandBraces_lists_iff {table inner after : String} {names : List String}
    (ht : IsTable table.toList) (hl : Lists inner names) (ha : '}' ∉ restOfLine after.toList) :
    expandBraces (braced table inner after) = names.map (table ++ "." ++ ·) ↔
      '\n' ∉ inner.toList := by
  rw [braced_eq_ofList, expandBraces_open ht]
  constructor
  · -- Braces that the line does not close are kept, and no name begins with one.
    intro heq hline
    have hnone : '}' ∉ restOfLine (inner.toList ++ '}' :: after.toList) :=
      fun hm => hl.closing (restOfLine_subset _ hline hm)
    rw [beforeLastBrace_of_not_mem hnone, eq_comm] at heq
    obtain ⟨name, rfl, hname⟩ := List.map_eq_singleton_iff.mp heq
    have hopen : '{' ∉ name.toList := hl.opening name List.mem_cons_self
    rw [← String.toList_inj, String.toList_ofList, String.toList_append, String.toList_append,
      List.append_assoc, List.append_cancel_left_eq] at hname
    have hbegins : name.toList = '{' :: (inner.toList ++ '}' :: after.toList) :=
      (List.cons.inj hname).2
    rw [hbegins] at hopen
    exact hopen List.mem_cons_self
  · intro hline
    have hrest : restOfLine (inner.toList ++ '}' :: after.toList) =
        inner.toList ++ '}' :: restOfLine after.toList :=
      restOfLine_append _ hline
    rw [hrest, beforeLastBrace_append ha]
    have hnames := congrArg (List.map fun name => String.ofList (table.toList ++ '.' :: name))
      hl.trimBlanks_splitOn
    rw [List.map_map, List.map_map] at hnames
    refine hnames.trans (List.map_congr_left fun name _ => ?_)
    rw [← String.toList_inj]
    simp

/-- The text opens with a table, and with a brace behind its dot that is closed on its line. -/
def OpensList (text : String) : Prop :=
  ∃ table inner after, IsTable table.toList ∧ '\n' ∉ inner.toList ∧
    text = braced table inner after

theorem expandBraces_eq_self_iff {text : String} :
    expandBraces text = [text] ↔ ¬OpensList text := by
  constructor
  · rintro hself ⟨table, inner, after, ht, hline, rfl⟩
    rw [braced_eq_ofList] at hself
    refine expandBraces_ne_self ht ?_ hself
    rw [restOfLine_append _ hline]
    exact List.mem_append_right _ List.mem_cons_self
  · intro hopen
    unfold expandBraces
    split
    · rfl
    · next table rest hprefix =>
      obtain ⟨ht, htext⟩ := bracePrefix?_eq_some_iff.mp hprefix
      have hnone : '}' ∉ restOfLine rest := by
        intro hm
        obtain ⟨inner, after, -, hline⟩ := exists_last_brace hm
        obtain ⟨more, hmore⟩ : restOfLine rest <+: rest := List.takeWhile_prefix _
        refine hopen ⟨String.ofList table, String.ofList inner, String.ofList (after ++ more),
          by rwa [String.toList_ofList], ?_, ?_⟩
        · rw [String.toList_ofList]
          intro hm
          have hsame : '\n' ∈ restOfLine rest := hline ▸ List.mem_append_left _ hm
          exact absurd (List.mem_takeWhile_imp hsame) (by decide)
        · rw [braced_eq_ofList, ← String.toList_inj, htext, ← hmore, hline]
          simp
      have hbrace : beforeLastBrace (rest.takeWhile (· != '\n')) = none :=
        beforeLastBrace_of_not_mem hnone
      rw [hbrace]

/-- A text stands for itself just when it opens no list. A list is taken apart just when it stands
on one line, whatever follows it. -/
theorem expandBraces_one_line (text : String) :
    (expandBraces text = [text] ↔ ¬OpensList text) ∧
    ∀ table inner after names, text = braced table inner after → IsTable table.toList →
      Lists inner names → '}' ∉ restOfLine after.toList →
      (expandBraces text = names.map (table ++ "." ++ ·) ↔ '\n' ∉ inner.toList) := by
  refine ⟨expandBraces_eq_self_iff, fun table inner after names htext ht hl ha => ?_⟩
  rw [htext]
  exact expandBraces_lists_iff ht hl ha

theorem isTable_users : IsTable "users".toList := .inl ⟨by decide, List.all_eq_true.mp (by decide)⟩

theorem lists_id_name (pad : String) (h : pad.toList.all isBlank = true) :
    Lists ("id," ++ pad ++ "name") ["id", "name"] := by
  have hid : IsCell "id" "id" :=
    ⟨by decide, by decide, by decide, by rintro c ⟨⟩; rfl, by rintro c ⟨⟩; rfl, [], [], by simp,
      rfl⟩
  have hname : IsCell "name" (pad ++ "name") :=
    ⟨by decide, by decide, by decide, by rintro c ⟨⟩; rfl, by rintro c ⟨⟩; rfl, pad.toList, [],
      by simpa using h, by simp⟩
  exact ⟨List.cons_ne_nil _ _, ["id", pad ++ "name"], .cons hid (.cons hname .nil),
    by simp [String.append_assoc]⟩

theorem expandBraces_one_line_users :
    expandBraces "public.users.{id, name}" = ["public.users.id", "public.users.name"] ∧
      expandBraces "users.{id, name} as x" = ["users.id", "users.name"] ∧
      expandBraces (braced "users" "id,\nname" "") ≠ ["users.id", "users.name"] := by
  have hpublic : IsTable "public.users".toList :=
    .inr ⟨"public".toList, "users".toList, ⟨by decide, List.all_eq_true.mp (by decide)⟩,
      ⟨by decide, List.all_eq_true.mp (by decide)⟩, rfl⟩
  have hspace : Lists "id, name" ["id", "name"] := lists_id_name " " (by decide)
  have hline : Lists "id,\nname" ["id", "name"] := lists_id_name "\n" (by decide)
  have htwoWords := (expandBraces_one_line "public.users.{id, name}").2 "public.users" "id, name"
    "" _ (by decide) hpublic hspace (by decide)
  have halias := (expandBraces_one_line "users.{id, name} as x").2 "users" "id, name" " as x" _
    (by decide) isTable_users hspace (by decide)
  have htwoLines := (expandBraces_one_line _).2 "users" "id,\nname" "" _ rfl isTable_users hline
    (by decide)
  exact ⟨htwoWords.mpr (by decide), halias.mpr (by decide),
    fun hlist => htwoLines.mp hlist (by decide)⟩

def IsBraceList (text : String) : Prop :=
  ∃ table inner, IsTable table.toList ∧ '{' ∉ inner.toList ∧ '}' ∉ inner.toList ∧
    text = braced table inner ""

/-- An alias behind the braces is dropped, and a list on two lines is not taken apart. -/
theorem alias_behind_braces_is_dropped :
    (¬IsBraceList "users.{id, name} as x" ∧
      expandBraces "users.{id, name} as x" = ["users.id", "users.name"]) ∧
    (IsTable "users".toList ∧ Lists "id,\nname" ["id", "name"] ∧
      expandBraces (braced "users" "id,\nname" "") = [braced "users" "id,\nname" ""]) := by
  refine ⟨⟨?_, by decide⟩, isTable_users, lists_id_name "\n" (by decide), by decide⟩
  rintro ⟨table, inner, -, -, -, h⟩
  rw [braced, String.append_empty] at h
  have hlast := congrArg (fun text => text.toList.getLast?) h
  rw [String.toList_append, List.getLast?_append_of_ne_nil _ (by decide)] at hlast
  exact absurd hlast (by decide)

end SqlDialects.Text
