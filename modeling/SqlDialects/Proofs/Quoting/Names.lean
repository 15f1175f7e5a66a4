import SqlDialects.Proofs.Reading.Operands
import SqlDialects.Proofs.Text.Pieces

/-!
Quoted names can be told again. What an engine writes for a name has one reading alone: the parts
between the dots, and all behind the first ` as ` as an alias. Whatever marks the name holds, none
of them ends its quotes early.
-/

namespace SqlDialects

open Text

/-- A part of a quoted name: a bare star, or what stands between quotes. -/
inductive NamePart where
  | star
  | quoted (text : List Char)
  deriving DecidableEq

/-- A quoted name: its parts, and the part behind `AS` if there is one. -/
structure QuotedName where
  parts : List NamePart
  aliasPart : Option NamePart
  deriving DecidableEq

/-- A body in which every closing mark is doubled, and the text that it stands for. -/
inductive Doubled (closing : Char) : List Char → List Char → Prop
  | nil : Doubled closing [] []
  | plain {c : Char} {body text : List Char} (hc : c ≠ closing) (h : Doubled closing body text) :
      Doubled closing (c :: body) (c :: text)
  | mark {body text : List Char} (h : Doubled closing body text) :
      Doubled closing (closing :: closing :: body) (closing :: text)

namespace Engine

section Grammar

variable (e : Engine)

inductive WritesPart : NamePart → List Char → Prop
  | star : WritesPart .star ['*']
  | quoted {body text : List Char} (h : Doubled e.dialect.closing body text) :
      WritesPart (.quoted text) (e.dialect.opening :: body ++ [e.dialect.closing])

inductive WritesPath : List NamePart → List Char → Prop
  | one {part : NamePart} {sql : List Char} (h : e.WritesPart part sql) : WritesPath [part] sql
  | dot {part : NamePart} {parts : List NamePart} {sql rest : List Char}
      (h : e.WritesPart part sql) (hs : WritesPath parts rest) :
      WritesPath (part :: parts) (sql ++ '.' :: rest)

inductive WritesName : QuotedName → List Char → Prop
  | plain {parts : List NamePart} {sql : List Char} (h : e.WritesPath parts sql) :
      WritesName ⟨parts, none⟩ sql
  | renamed {parts : List NamePart} {part : NamePart} {sql last : List Char}
      (h : e.WritesPath parts sql) (hl : e.WritesPart part last) :
      WritesName ⟨parts, some part⟩ (sql ++ " AS ".toList ++ last)

end Grammar

end Engine

section Reader

def readBody (closing : Char) : List Char → Option (List Char × List Char)
  | [] => none
  | [c] => if c = closing then some ([], []) else none
  | c :: d :: rest =>
    if c = closing then
      if d = closing then (readBody closing rest).map fun (text, rest) => (closing :: text, rest)
      else some ([], d :: rest)
    else (readBody closing (d :: rest)).map fun (text, rest) => (c :: text, rest)

theorem length_readBody {closing : Char} {sql text rest : List Char}
    (h : readBody closing sql = some (text, rest)) : rest.length < sql.length := by
  fun_induction readBody closing sql generalizing text rest with
  | case1 => cases h
  | case2 =>
    cases h
    exact Nat.zero_lt_one
  | case3 => cases h
  | case4 more ih =>
    obtain ⟨⟨t, r⟩, hr, h⟩ := Option.map_eq_some_iff.mp h
    cases h
    exact Nat.lt_add_right 2 (ih hr)
  | case5 d more hd =>
    cases h
    exact Nat.lt_succ_self _
  | case6 c d more hc ih =>
    obtain ⟨⟨t, r⟩, hr, h⟩ := Option.map_eq_some_iff.mp h
    cases h
    exact Nat.lt_add_right 1 (ih hr)

namespace Engine

variable (e : Engine)

def readPart : List Char → Option (NamePart × List Char)
  | [] => none
  | c :: rest =>
    if c = '*' then some (.star, rest)
    else if c = e.dialect.opening then
      (readBody e.dialect.closing rest).map fun (text, rest) => (.quoted text, rest)
    else none

variable {e} in
theorem length_readPart {sql rest : List Char} {part : NamePart}
    (h : e.readPart sql = some (part, rest)) : rest.length < sql.length := by
  cases sql with
  | nil => cases h
  | cons c sql =>
    rw [readPart] at h
    split at h
    · cases h
      exact Nat.lt_succ_self _
    · split at h
      · obtain ⟨⟨t, r⟩, hr, h⟩ := Option.map_eq_some_iff.mp h
        cases h
        exact Nat.lt_add_right 1 (length_readBody hr)
      · cases h

def readPath (sql : List Char) : Option (List NamePart × List Char) :=
  match _h : e.readPart sql with
  | none => none
  | some (part, '.' :: rest) =>
    (readPath rest).map fun (parts, rest) => (part :: parts, rest)
  | some (part, rest) => some ([part], rest)
termination_by sql.length
decreasing_by exact Nat.lt_of_succ_lt (length_readPart _h)

def readName? (sql : String) : Option QuotedName :=
  match e.readPath sql.toList with
  | none => none
  | some (parts, []) => some ⟨parts, none⟩
  | some (parts, ' ' :: 'A' :: 'S' :: ' ' :: last) =>
    match e.readPart last with
    | some (part, []) => some ⟨parts, some part⟩
    | _ => none
  | some _ => none

end Engine

end Reader

section Reading

theorem readBody_append {closing : Char} {body text : List Char} (rest : List Char)
    (h : Doubled closing body text) (hr : ∀ c ∈ rest.head?, c ≠ closing) :
    readBody closing (body ++ closing :: rest) = some (text, rest) := by
  induction h with
  | nil =>
    cases rest with
    | nil => exact if_pos rfl
    | cons d rest => rw [List.nil_append, readBody, if_pos rfl, if_neg (hr d rfl)]
  | @plain c body text hc h ih =>
    obtain ⟨d, more, hd⟩ := List.exists_cons_of_ne_nil (show body ++ closing :: rest ≠ [] by simp)
    rw [List.cons_append, hd, readBody, if_neg hc, ← hd, ih]
    rfl
  | mark h ih =>
    rw [List.cons_append, List.cons_append, readBody, if_pos rfl, if_pos rfl, ih]
    rfl

namespace Engine

variable {e : Engine}

def EndsPart (rest : List Char) : Prop := ∀ c ∈ rest.head?, c = '.' ∨ c = ' '

theorem readPart_append {part : NamePart} {sql : List Char} (rest : List Char)
    (h : e.WritesPart part sql) (hr : EndsPart rest) :
    e.readPart (sql ++ rest) = some (part, rest) := by
  cases h with
  | star => rfl
  | @quoted body text h =>
    have hopening : e.dialect.opening ≠ '*' := by cases e <;> decide
    have hclosing : '.' ≠ e.dialect.closing ∧ ' ' ≠ e.dialect.closing := by cases e <;> decide
    have hbody := readBody_append rest h fun c hc => by
      rcases hr c hc with rfl | rfl
      · exact hclosing.1
      · exact hclosing.2
    rw [List.cons_append, List.cons_append, List.append_assoc, List.singleton_append, readPart,
      if_neg hopening, if_pos rfl, hbody]
    rfl

theorem readPath_of_dot {part : NamePart} {sql rest : List Char}
    (h : e.readPart sql = some (part, '.' :: rest)) :
    e.readPath sql = (e.readPath rest).map fun (parts, rest) => (part :: parts, rest) := by
  rw [readPath]
  split
  · next hnone =>
    rw [h] at hnone
    cases hnone
  · next hdot =>
    rw [h] at hdot
    cases hdot
    rfl
  · next hend hsome =>
    rw [h] at hsome
    cases hsome
    exact absurd rfl (hend rest)

theorem readPath_of_end {part : NamePart} {sql rest : List Char}
    (h : e.readPart sql = some (part, rest)) (hr : ∀ c ∈ rest.head?, c = ' ') :
    e.readPath sql = some ([part], rest) := by
  rw [readPath]
  split
  · next hnone =>
    rw [h] at hnone
    cases hnone
  · next hdot =>
    rw [h] at hdot
    cases hdot
    exact absurd (hr '.' rfl) (by decide)
  · next hsome =>
    rw [h] at hsome
    cases hsome
    rfl

theorem readPath_append {parts : List NamePart} {sql : List Char} (rest : List Char)
    (h : e.WritesPath parts sql) (hr : ∀ c ∈ rest.head?, c = ' ') :
    e.readPath (sql ++ rest) = some (parts, rest) := by
  induction h with
  | one h => exact readPath_of_end (readPart_append rest h fun c hc => .inr (hr c hc)) hr
  | @dot part parts sql more h hs ih =>
    have hpart : e.readPart (sql ++ '.' :: (more ++ rest)) = some (part, '.' :: (more ++ rest)) :=
      readPart_append _ h fun c hc => .inl (Option.some.inj hc).symm
    rw [List.append_assoc, List.cons_append, readPath_of_dot hpart, ih]
    rfl

theorem readName?_of_writes {n : QuotedName} {sql : String} (h : e.WritesName n sql.toList) :
    e.readName? sql = some n := by
  unfold readName?
  generalize sql.toList = text at h
  cases h with
  | plain h =>
    have hpath := readPath_append [] h nofun
    rw [List.append_nil] at hpath
    rw [hpath]
  | @renamed parts part sql last h hl =>
    have hpath := readPath_append (" AS ".toList ++ last) h fun c hc =>
      (Option.some.inj hc).symm
    have hpart := readPart_append [] hl nofun
    rw [List.append_nil] at hpart
    rw [List.append_assoc, hpath]
    show (match e.readPart last with
      | some (part, []) => some (⟨parts, some part⟩ : QuotedName)
      | _ => none) = _
    rw [hpart]

end Engine

end Reading

section Words

/-- An `as` between spaces, in any case. -/
def IsAs (word : List Char) : Prop := word.map Char.toLower = " as ".toList

structure FirstAs (text before after : List Char) : Prop where
  found : ∃ word, IsAs word ∧ text = before ++ word ++ after
  first : ∀ b word a, IsAs word → text = b ++ word ++ a → before.length ≤ b.length

theorem eq_or_eq_of_toLower {c small : Char} (h : c.toLower = small) :
    c = small ∨ c.val = small.val - 32 := by
  unfold Char.toLower at h
  split at h
  · have hval : c.val + ('a'.val - 'A'.val) = small.val := congrArg Char.val h
    rw [← hval]
    exact .inr (UInt32.add_sub_cancel _ _).symm
  · exact .inl h

theorem afterAs?_eq_some_iff {text after : List Char} :
    afterAs? text = some after ↔ ∃ word, IsAs word ∧ text = word ++ after := by
  constructor
  · intro h
    unfold afterAs? at h
    split at h
    · next a s rest =>
      split at h
      · next hword =>
        cases h
        refine ⟨[' ', a, s, ' '], ?_, rfl⟩
        obtain ⟨rfl | rfl, rfl | rfl⟩ := hword <;> rfl
      · cases h
    · cases h
  · rintro ⟨word, hword, rfl⟩
    obtain ⟨c₁, w₁, rfl, h₁, hword⟩ := List.map_eq_cons_iff.mp hword
    obtain ⟨c₂, w₂, rfl, h₂, hword⟩ := List.map_eq_cons_iff.mp hword
    obtain ⟨c₃, w₃, rfl, h₃, hword⟩ := List.map_eq_cons_iff.mp hword
    obtain ⟨c₄, w₄, rfl, h₄, hword⟩ := List.map_eq_cons_iff.mp hword
    obtain rfl := List.map_eq_nil_iff.mp hword
    have hspace : Caseless ' ' := by decide
    obtain rfl := (eq_toLower hspace).mp h₁.symm
    obtain rfl := (eq_toLower hspace).mp h₄.symm
    have ha : c₂ = 'a' ∨ c₂ = 'A' := (eq_or_eq_of_toLower h₂).imp_right Char.ext
    have hs : c₃ = 's' ∨ c₃ = 'S' := (eq_or_eq_of_toLower h₃).imp_right Char.ext
    exact if_pos ⟨ha, hs⟩

theorem firstAs_of_splitAs? {text before after : List Char}
    (h : splitAs? text = some (before, after)) : FirstAs text before after := by
  induction text generalizing before with
  | nil => cases h
  | cons c rest ih =>
    unfold splitAs? at h
    split at h
    · next hafter =>
      cases h
      exact ⟨afterAs?_eq_some_iff.mp hafter, fun _ _ _ _ _ => Nat.zero_le _⟩
    · next hnone =>
      obtain ⟨⟨b, a⟩, hrest, h⟩ := Option.map_eq_some_iff.mp h
      cases h
      obtain ⟨⟨word, hword, rfl⟩, hfirst⟩ := ih hrest
      refine ⟨⟨word, hword, rfl⟩, fun b' word' a' hword' htext => ?_⟩
      cases b' with
      | nil =>
        have hsome := afterAs?_eq_some_iff.mpr ⟨word', hword', htext⟩
        rw [hnone] at hsome
        cases hsome
      | cons d b' =>
        exact Nat.succ_le_succ (hfirst b' word' a' hword' (List.cons.inj htext).2)

theorem not_isAs_of_splitAs? {text : List Char} (h : splitAs? text = none)
    (before word after : List Char) (hword : IsAs word) : text ≠ before ++ word ++ after := by
  induction text generalizing before with
  | nil =>
    intro htext
    obtain ⟨hleft, -⟩ := List.append_eq_nil_iff.mp htext.symm
    obtain ⟨-, rfl⟩ := List.append_eq_nil_iff.mp hleft
    cases hword
  | cons c rest ih =>
    unfold splitAs? at h
    split at h
    · cases h
    · next hnone =>
      intro htext
      cases before with
      | nil =>
        have hsome := afterAs?_eq_some_iff.mpr ⟨word, hword, htext⟩
        rw [hnone] at hsome
        cases hsome
      | cons d before =>
        exact ih (Option.map_eq_none_iff.mp h) before (List.cons.inj htext).2

theorem IsAs.length_eq {word : List Char} (h : IsAs word) : word.length = 4 := by
  rw [← List.length_map (f := Char.toLower), h]
  rfl

theorem FirstAs.unique {text before after before' after' : List Char}
    (h : FirstAs text before after) (h' : FirstAs text before' after') :
    before = before' ∧ after = after' := by
  obtain ⟨⟨word, hword, rfl⟩, hfirst⟩ := h
  obtain ⟨⟨word', hword', htext⟩, hfirst'⟩ := h'
  have hlength : before.length = before'.length :=
    Nat.le_antisymm (hfirst before' word' after' hword' htext) (hfirst' before word after hword rfl)
  rw [List.append_assoc, List.append_assoc] at htext
  obtain ⟨hbefore, hrest⟩ := List.append_inj htext hlength
  exact ⟨hbefore, (List.append_inj hrest (hword.length_eq.trans hword'.length_eq.symm)).2⟩

end Words

namespace Engine

section Wrapped

variable (e : Engine)

/-- A star is kept bare. Anything else is quoted, by Firebird in upper case. -/
def namePart (text : List Char) : NamePart :=
  if text = ['*'] then .star
  else .quoted (if e = firebird then text.flatMap upperChar else text)

/-- What a text names: the parts between the dots in front of its first ` as `, and all that
follows as an alias. -/
inductive Names (text : List Char) : QuotedName → Prop
  | plain (h : ∀ before word after, IsAs word → text ≠ before ++ word ++ after) :
      Names text ⟨(text.splitOn '.').map e.namePart, none⟩
  | renamed {before after : List Char} (h : FirstAs text before after) :
      Names text ⟨(before.splitOn '.').map e.namePart, some (e.namePart after)⟩

theorem doubled_double (closing : Char) (text : List Char) :
    Doubled closing (double closing text) text := by
  induction text with
  | nil => exact .nil
  | cons c text ih =>
    by_cases hc : c = closing
    · subst hc
      simpa [double] using ih.mark
    · simpa [double, hc] using ih.plain hc

theorem writesPart_wrapSegment (text : List Char) :
    e.WritesPart (e.namePart text) (e.wrapSegment text) := by
  unfold namePart wrapSegment
  split
  · next h =>
    rw [h]
    exact .star
  · dsimp only
    split
    · next he =>
      subst he
      have hupper : (firebird.dialect.quote text).flatMap upperChar =
          firebird.dialect.quote (text.flatMap upperChar) := by
        show (quote '"' '"' text).flatMap upperChar = quote '"' '"' (text.flatMap upperChar)
        rw [quote, quote, ← Reading.double_flatMap_upperChar]
        simp [upperChar_quote]
      rw [hupper]
      exact .quoted (doubled_double _ _)
    · exact .quoted (doubled_double _ _)

theorem writesPath_intercalate (piece : List Char) (more : List (List Char)) :
    e.WritesPath ((piece :: more).map e.namePart)
      (List.intercalate ['.'] ((piece :: more).map e.wrapSegment)) := by
  induction more generalizing piece with
  | nil => simpa using WritesPath.one (e.writesPart_wrapSegment piece)
  | cons next more ih =>
    rw [List.map_cons, List.map_cons, List.map_cons, List.map_cons, List.intercalate_cons_cons,
      List.append_assoc]
    exact .dot (e.writesPart_wrapSegment piece) (ih next)

theorem writesPath_wrapPath (text : List Char) :
    e.WritesPath ((text.splitOn '.').map e.namePart) (e.wrapPath text) := by
  rw [wrapPath, pieces, piecesFrom_singleton]
  obtain ⟨piece, more, hsplit⟩ := List.exists_cons_of_ne_nil (List.splitOn_ne_nil '.' text)
  rw [hsplit]
  exact e.writesPath_intercalate piece more

variable {e} in
theorem Names.unique {text : List Char} {m n : QuotedName} (hm : e.Names text m)
    (hn : e.Names text n) : m = n := by
  cases hm with
  | plain hm =>
    cases hn with
    | plain _ => rfl
    | renamed hn =>
      obtain ⟨word, hword, htext⟩ := hn.found
      exact absurd htext (hm _ word _ hword)
  | renamed hm =>
    cases hn with
    | plain hn =>
      obtain ⟨word, hword, htext⟩ := hm.found
      exact absurd htext (hn _ word _ hword)
    | renamed hn =>
      obtain ⟨rfl, rfl⟩ := hm.unique hn
      rfl

theorem exists_writesName (text : String) :
    ∃ n, e.Names text.toList n ∧ e.WritesName n (e.wrap text).toList := by
  rw [wrap, String.toList_ofList, wrapName]
  cases h : splitAs? text.toList with
  | none => exact ⟨_, .plain (not_isAs_of_splitAs? h), .plain (e.writesPath_wrapPath _)⟩
  | some split =>
    have hword : ' ' :: e.dialect.columnAs.toList = " AS ".toList := by cases e <;> rfl
    refine ⟨_, .renamed (firstAs_of_splitAs? h), ?_⟩
    dsimp only
    rw [hword]
    exact .renamed (e.writesPath_wrapPath _) (e.writesPart_wrapSegment _)

/-- The SQL of a name can be told again. Whatever the text is, it belongs to one name, which is all
that its SQL can be read as: the parts in front of the first ` as ` and the alias behind it, as
they are or in upper case, and a bare star for nothing but a star. -/
theorem wrap_decodes (text : String) :
    ∃ n, (∀ m, e.Names text.toList m ↔ m = n) ∧
      (∀ m, e.WritesName m (e.wrap text).toList ↔ m = n) ∧ e.readName? (e.wrap text) = some n := by
  obtain ⟨n, hn, hwrites⟩ := e.exists_writesName text
  have hread := readName?_of_writes hwrites
  refine ⟨n, fun m => ⟨fun hm => hm.unique hn, ?_⟩, fun m => ⟨fun hm => ?_, ?_⟩, hread⟩
  · rintro rfl
    exact hn
  · have hm := readName?_of_writes hm
    rw [hread] at hm
    exact (Option.some.inj hm).symm
  · rintro rfl
    exact hwrites

example : sqlServer.readName? (sqlServer.wrap "a]b.*.c aS x.y") =
    some ⟨[.quoted ['a', ']', 'b'], .star, .quoted ['c']], some (.quoted ['x', '.', 'y'])⟩ := by
  cbv

end Wrapped

end Engine

end SqlDialects
