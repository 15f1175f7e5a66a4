import SqlDialects.Proofs.Quoting.Scan
import SqlDialects.Proofs.Text.Caseless
import SqlDialects.Render.Condition

/-!
SQL text as tokens. Names and texts stand between quotes, blanks and comments are left out, and a
select in parentheses is one token, up to the parenthesis outside of quotes that closes the one in
front of it. What a text reads as does not depend on what follows, as long as that begins with a
mark that ends words and quoted texts.
-/

namespace SqlDialects.Reading

inductive Token where
  | word (text : List Char)
  /-- A name or a text, told apart by the mark that closes them. -/
  | quoted (closing : Char) (text : List Char)
  | sign (c : Char)
  /-- A select, with the parentheses around it. -/
  | query (sql : String)
  deriving DecidableEq

def isWordChar (c : Char) : Bool := c.isAlphanum || c = '_' || 127 < c.toNat

inductive Mode where
  | outside
  | quoted (closing : Char)
  | comment
  deriving DecidableEq

def growFirst (c : Char) : List Token → List Token
  | .word text :: tokens => .word (c :: text) :: tokens
  | .quoted closing text :: tokens => .quoted closing (c :: text) :: tokens
  | tokens => tokens

def plainTokens : List Char → List Token
  | [] => []
  | c :: rest =>
    if isWordChar c then
      if rest.head?.any isWordChar then growFirst c (plainTokens rest)
      else .word [c] :: plainTokens rest
    else if c = ' ' then plainTokens rest
    else .sign c :: plainTokens rest

def selectStart : List Char := "SELECT ".toList

/-- The text in front of the parenthesis that closes one before it. There is none if that is never
closed. -/
def inside? (e : Engine) : Scan → List Char → Option (List Char)
  | _, [] => none
  | s, c :: rest =>
    match e.read s c with
    | some s => (inside? e s rest).map (c :: ·)
    | none => if c = ')' then some [] else none

/-- The tokens of a text, where the next `skip` characters are already dealt with. There are none if
a quoted text, a comment or a select does not end. -/
def tokensFrom (e : Engine) : Mode → Nat → List Char → Option (List Token)
  | mode, _, [] => if mode = .outside then some [] else none
  | mode, skip + 1, _ :: rest => tokensFrom e mode skip rest
  | .outside, 0, c :: rest =>
    if isWordChar c then
      if rest.head?.any isWordChar then (tokensFrom e .outside 0 rest).map (growFirst c)
      else (tokensFrom e .outside 0 rest).map (.word [c] :: ·)
    else if c = ' ' then tokensFrom e .outside 0 rest
    else if c = e.dialect.opening then tokensFrom e (.quoted e.dialect.closing) 0 rest
    else if c = '\'' then tokensFrom e (.quoted '\'') 0 rest
    else if c = '/' ∧ rest.head? = some '*' then tokensFrom e .comment 1 rest
    else if c = '(' ∧ selectStart.isPrefixOf rest then
      (inside? e ⟨.outside, 0⟩ rest).bind fun sql =>
        (tokensFrom e .outside (sql.length + 1) rest).map (.query (String.ofList sql) :: ·)
    else (tokensFrom e .outside 0 rest).map (.sign c :: ·)
  | .quoted closing, 0, c :: rest =>
    if c = closing then
      if rest.head? = some closing then (tokensFrom e (.quoted closing) 1 rest).map (growFirst c)
      else (tokensFrom e .outside 0 rest).map (.quoted closing [] :: ·)
    else (tokensFrom e (.quoted closing) 0 rest).map (growFirst c)
  | .comment, 0, c :: rest =>
    if c = '*' ∧ rest.head? = some '/' then tokensFrom e .outside 1 rest
    else tokensFrom e .comment 0 rest

def tokens (e : Engine) (text : String) : Option (List Token) :=
  tokensFrom e .outside 0 text.toList

def stops : List Char := [' ', '.', ',', '(', ')', ':']

/-- The text is empty or begins with a mark that ends words and quoted texts. -/
def Apart (text : List Char) : Prop := ∀ c ∈ text.head?, c ∈ stops

/-- The text reads as the tokens, whatever follows. -/
def Lexes (e : Engine) (text : String) (toks : List Token) : Prop :=
  ∀ rest, Apart rest →
    tokensFrom e .outside 0 (text.toList ++ rest) =
      (tokensFrom e .outside 0 rest).map (toks ++ ·)

variable {e : Engine}

theorem isWordChar_of_mem_stops {c : Char} (h : c ∈ stops) : isWordChar c = false := by
  have hall : stops.all (!isWordChar ·) = true := by decide
  exact (Bool.not_eq_true' _).mp (List.all_eq_true.mp hall c h)

theorem closing_not_mem_stops (e : Engine) : e.dialect.closing ∉ stops := by cases e <;> decide

theorem Apart.any_isWordChar {rest : List Char} (h : Apart rest) :
    rest.head?.any isWordChar = false := by
  cases rest with
  | nil => rfl
  | cons c rest => simpa using isWordChar_of_mem_stops (h c rfl)

theorem Apart.head?_ne {rest : List Char} {c : Char} (h : Apart rest) (hc : c ∉ stops) :
    rest.head? ≠ some c :=
  fun he => hc (h c he)

theorem Apart.append {text rest : List Char} (h : Apart text) (hr : Apart rest) :
    Apart (text ++ rest) := by
  cases text with
  | nil => exact hr
  | cons c text => exact h

theorem Lexes.tokens_eq {text : String} {toks : List Token} (h : Lexes e text toks) :
    tokens e text = some toks := by
  have hnil := h [] (by rintro _ ⟨⟩)
  simpa [tokens, tokensFrom] using hnil

theorem lexes_empty (e : Engine) : Lexes e "" [] := by
  intro rest _
  simp

theorem Lexes.append {a b : String} {A B : List Token}
    (ha : Lexes e a A) (hb : Lexes e b B) (hab : Apart b.toList) :
    Lexes e (a ++ b) (A ++ B) := by
  intro rest hr
  rw [String.toList_append, List.append_assoc, ha _ (hab.append hr), hb _ hr, Option.map_map]
  simp [Function.comp_def]

def isPlain (c : Char) : Bool := isWordChar c || " *,.:<=>!?".toList.contains c

theorem opening_not_plain (e : Engine) : isPlain e.dialect.opening = false := by
  cases e <;> decide

theorem growFirst_append (c : Char) {toks : List Token} (h : toks ≠ []) (more : List Token) :
    growFirst c (toks ++ more) = growFirst c toks ++ more := by
  obtain ⟨t, toks, rfl⟩ := List.exists_cons_of_ne_nil h
  cases t <;> rfl

theorem growFirst_ne_nil (c : Char) {toks : List Token} (h : toks ≠ []) :
    growFirst c toks ≠ [] := by
  obtain ⟨t, toks, rfl⟩ := List.exists_cons_of_ne_nil h
  cases t <;> simp [growFirst]

theorem plainTokens_ne_nil {text : List Char} (h : text.head?.any isWordChar = true) :
    plainTokens text ≠ [] := by
  induction text with
  | nil => cases h
  | cons c rest ih =>
    have hc : isWordChar c = true := h
    rw [plainTokens, if_pos hc]
    split
    · next hr => exact growFirst_ne_nil c (ih hr)
    · simp

theorem lexes_plain (e : Engine) (text : String) (h : text.toList.all isPlain = true) :
    Lexes e text (plainTokens text.toList) := by
  intro rest hr
  rw [List.all_eq_true] at h
  generalize text.toList = cs at h
  -- Induction on the characters: whether a word goes on is told by the next one.
  induction cs with
  | nil => simp [plainTokens]
  | cons c cs ih =>
    have ih := ih fun d hd => h d (List.mem_cons_of_mem _ hd)
    have hc := h c List.mem_cons_self
    have hnext : (cs ++ rest).head?.any isWordChar = cs.head?.any isWordChar := by
      cases cs with
      | nil => exact hr.any_isWordChar
      | cons d cs => rfl
    rw [List.cons_append, tokensFrom, plainTokens, hnext, ih]
    by_cases hw : isWordChar c = true
    · rw [if_pos hw, if_pos hw]
      split
      · next hg =>
        rw [Option.map_map]
        refine congrArg (Option.map · _) (funext fun more => ?_)
        exact growFirst_append c (plainTokens_ne_nil hg) more
      · rw [Option.map_map]
        rfl
    · have hsign : " *,.:<=>!?".toList.contains c = true := by simpa [isPlain, hw] using hc
      have ho : c ≠ e.dialect.opening := by
        rintro rfl
        rw [opening_not_plain] at hc
        cases hc
      have hm : c ≠ '\'' ∧ c ≠ '/' ∧ c ≠ '(' := by
        refine ⟨?_, ?_, ?_⟩ <;> rintro rfl <;> exact absurd hsign (by decide)
      rw [if_neg hw, if_neg hw]
      by_cases hb : c = ' '
      · rw [if_pos hb, if_pos hb]
      · rw [if_neg hb, if_neg hb, if_neg ho, if_neg hm.1, if_neg (by simp [hm.2.1]),
          if_neg (by simp [hm.2.2]), Option.map_map]
        rfl

theorem tokensFrom_double {closing : Char} (text : List Char)
    {rest : List Char} (hr : rest.head? ≠ some closing) :
    tokensFrom e (.quoted closing) 0 (Text.double closing text ++ closing :: rest) =
      (tokensFrom e .outside 0 rest).map (.quoted closing text :: ·) := by
  induction text with
  | nil => simp [tokensFrom, hr]
  | cons c text ih =>
    have hgrow : (tokensFrom e .outside 0 rest).map (.quoted closing (c :: text) :: ·) =
        ((tokensFrom e .outside 0 rest).map (.quoted closing text :: ·)).map
          (growFirst c) := by
      rw [Option.map_map]
      rfl
    rw [hgrow, ← ih]
    by_cases hc : c = closing
    · subst hc
      simp [Text.double, tokensFrom]
    · simp [Text.double, tokensFrom, hc]

theorem lexes_quote (e : Engine) (text : List Char) :
    Lexes e (String.ofList (e.dialect.quote text)) [.quoted e.dialect.closing text] := by
  intro rest hr
  have hw : isWordChar e.dialect.opening = false ∧ e.dialect.opening ≠ ' ' := by
    cases e <;> decide
  have htext : (String.ofList (e.dialect.quote text)).toList ++ rest =
      e.dialect.opening :: (Text.double e.dialect.closing text ++ e.dialect.closing :: rest) := by
    simp [Dialect.quote, Text.quote]
  rw [htext, tokensFrom, if_neg (by simp [hw.1]), if_neg hw.2, if_pos rfl,
    tokensFrom_double _ (hr.head?_ne (closing_not_mem_stops e))]
  rfl

theorem lexes_text (e : Engine) {text : String} (h : '\'' ∉ text.toList) :
    Lexes e ("'" ++ text ++ "'") [.quoted '\'' text.toList] := by
  intro rest hr
  have hq : '\'' ≠ e.dialect.opening := by cases e <;> decide
  have htext : ("'" ++ text ++ "'").toList ++ rest =
      '\'' :: (Text.double '\'' text.toList ++ '\'' :: rest) := by
    simp [Text.double_eq_self h]
  rw [htext, tokensFrom, if_neg (by decide), if_neg (by decide), if_neg hq, if_pos rfl,
    tokensFrom_double _ (hr.head?_ne (by decide))]
  rfl

theorem tokensFrom_comment {text : List Char} (h : '*' ∉ text) (rest : List Char) :
    tokensFrom e .comment 0 (text ++ '*' :: '/' :: rest) =
      tokensFrom e .outside 0 rest := by
  induction text with
  | nil => simp [tokensFrom]
  | cons c text ih =>
    have hc : c ≠ '*' := fun he => h (he ▸ List.mem_cons_self)
    rw [List.cons_append, tokensFrom, if_neg (by simp [hc])]
    exact ih fun hm => h (List.mem_cons_of_mem _ hm)

theorem lexes_comment (e : Engine) {text : String} (h : '*' ∉ text.toList) :
    Lexes e (" /*" ++ text ++ "*/") [] := by
  intro rest _
  have hs : '/' ≠ e.dialect.opening := by cases e <;> decide
  have htext : (" /*" ++ text ++ "*/").toList ++ rest =
      ' ' :: '/' :: '*' :: (text.toList ++ '*' :: '/' :: rest) := by
    simp
  rw [htext, tokensFrom, if_neg (by decide), if_pos rfl, tokensFrom, if_neg (by decide),
    if_neg (by decide), if_neg hs, if_neg (by decide), if_pos ⟨rfl, rfl⟩, tokensFrom,
    tokensFrom_comment h]
  simp

theorem lexes_space {text : String} {toks : List Token}
    (h : Lexes e text toks) : Lexes e (" " ++ text) toks := by
  intro rest hr
  have htext : (" " ++ text).toList ++ rest = ' ' :: (text.toList ++ rest) := by simp
  rw [htext, tokensFrom, if_neg (by decide), if_pos rfl, h _ hr]

theorem Lexes.spaced {a b : String} {A B : List Token}
    (ha : Lexes e a A) (hb : Lexes e b B) :
    Lexes e (a ++ " " ++ b) (A ++ B) := by
  rw [String.append_assoc]
  exact ha.append (lexes_space hb) (by simp [Apart, stops])

def NoSelect (text : String) : Prop := ∀ rest, ¬selectStart <+: text.toList ++ rest

theorem lexes_sign (e : Engine) {c : Char} (h : c ∈ ")*,.:<=>!?".toList)
    (rest : List Char) :
    tokensFrom e .outside 0 (c :: rest) =
      (tokensFrom e .outside 0 rest).map (.sign c :: ·) := by
  have hall : ")*,.:<=>!?".toList.all fun c => !isWordChar c && !" '/(".toList.contains c := by
    decide
  obtain ⟨hw, hmarks⟩ := Bool.and_eq_true_iff.mp (List.all_eq_true.mp hall c h)
  have hne {d : Char} (hd : " '/(".toList.contains d = true) : c ≠ d := by
    rintro rfl
    rw [hd] at hmarks
    cases hmarks
  have hm : e.dialect.opening ∉ ")*,.:<=>!?".toList := by cases e <;> decide
  have ho : c ≠ e.dialect.opening := fun he => hm (he ▸ h)
  have hb : c ≠ ' ' := hne (by decide)
  have hq : c ≠ '\'' := hne (by decide)
  have hs : c ≠ '/' := hne (by decide)
  have hp : c ≠ '(' := hne (by decide)
  rw [tokensFrom, if_neg (by simpa using hw), if_neg hb, if_neg ho, if_neg hq,
    if_neg (fun h => hs h.1), if_neg (fun h => hp h.1)]

theorem Lexes.sign {mark text : String} {toks : List Token} {c : Char}
    (h : Lexes e text toks) (hm : mark.toList = [c]) (hc : c ∈ ")*,.:<=>!?".toList) :
    Lexes e (mark ++ text) (.sign c :: toks) := by
  intro rest hr
  have htext : (mark ++ text).toList ++ rest = c :: (text.toList ++ rest) := by simp [hm]
  rw [htext, lexes_sign _ hc, h _ hr, Option.map_map]
  rfl

theorem Lexes.paren {text : String} {toks : List Token}
    (h : Lexes e text toks) (hn : NoSelect text) :
    Lexes e ("(" ++ text ++ ")") (.sign '(' :: toks ++ [.sign ')']) := by
  intro rest _
  have ho : '(' ≠ e.dialect.opening := by cases e <;> decide
  have htext : ("(" ++ text ++ ")").toList ++ rest = '(' :: (text.toList ++ ')' :: rest) := by
    simp
  have hclose : Apart (')' :: rest) := by simp [Apart, stops]
  rw [htext, tokensFrom, if_neg (by decide), if_neg (by decide), if_neg ho, if_neg (by decide),
    if_neg (by simp), if_neg (by simp [hn _]), h _ hclose, lexes_sign _ (by decide),
    Option.map_map, Option.map_map]
  refine congrArg (Option.map · _) (funext fun more => ?_)
  simp

theorem tokensFrom_skip (mode : Mode) (text rest : List Char) :
    tokensFrom e mode text.length (text ++ rest) = tokensFrom e mode 0 rest := by
  induction text with
  | nil => rfl
  | cons c text ih => rw [List.length_cons, List.cons_append, tokensFrom, ih]

def IsSelect (sql : String) : Prop := selectStart <+: sql.toList

theorem read_close {s : Scan} (hs : e.Outside s) (hd : s.depth = 0) : e.read s ')' = none := by
  have hclose : e.readOutside 0 ')' = none := by cases e <;> rfl
  have hmarks : ')' ∉ e.closers := by cases e <;> decide
  obtain ⟨spot, depth⟩ := s
  obtain rfl : depth = 0 := hd
  rcases hs with rfl | ⟨closing, hclosing, rfl⟩
  · exact hclose
  · have hne : ')' ≠ closing := by
      rintro rfl
      exact hmarks hclosing
    exact (if_neg hne).trans hclose

theorem inside?_append {s s' : Scan} {text : List Char} (h : e.readAll s text = some s')
    (hs : e.read s' ')' = none) (rest : List Char) :
    inside? e s (text ++ ')' :: rest) = some text := by
  induction text generalizing s with
  | nil =>
    cases h
    rw [List.nil_append, inside?, hs]
    exact if_pos rfl
  | cons c text ih =>
    rw [Engine.readAll_cons] at h
    obtain ⟨s₁, hread, h⟩ := Option.bind_eq_some_iff.mp h
    rw [List.cons_append, inside?, hread]
    dsimp only
    rw [ih h]
    rfl

theorem inside?_of_spans {sql : String} (h : e.Spans 0 0 sql) (rest : List Char) :
    inside? e ⟨.outside, 0⟩ (sql.toList ++ ')' :: rest) = some sql.toList := by
  obtain ⟨s, hread, hout, hdepth⟩ := h 0
  exact inside?_append hread (read_close hout hdepth) rest

theorem lexes_query {sql : String} (h : IsSelect sql) (hs : e.Spans 0 0 sql) :
    Lexes e ("(" ++ sql ++ ")") [.query sql] := by
  intro rest _
  have ho : '(' ≠ e.dialect.opening := by cases e <;> decide
  have htext : ("(" ++ sql ++ ")").toList ++ rest = '(' :: (sql.toList ++ ')' :: rest) := by simp
  have hstart : selectStart.isPrefixOf (sql.toList ++ ')' :: rest) = true :=
    List.isPrefixOf_iff_prefix.mpr (h.trans (List.prefix_append _ _))
  have hskip := tokensFrom_skip (e := e) .outside (sql.toList ++ [')']) rest
  rw [List.length_append, List.append_assoc, List.singleton_append] at hskip
  rw [htext, tokensFrom, if_neg (by decide), if_neg (by decide), if_neg ho, if_neg (by decide),
    if_neg (by simp), if_pos ⟨rfl, hstart⟩, inside?_of_spans hs, Option.bind_some,
    String.ofList_toList]
  exact congrArg (Option.map _) hskip

theorem noSelect_of_head {text : String} {c : Char} (h : text.toList.head? = some c)
    (hc : c ≠ 'S') : NoSelect text := by
  intro rest
  cases ht : text.toList with
  | nil =>
    rw [ht] at h
    cases h
  | cons d cs =>
    rw [ht] at h
    cases h
    have hs : selectStart = 'S' :: "ELECT ".toList := rfl
    rw [hs, List.cons_append, List.cons_prefix_cons]
    exact fun hp => hc hp.1.symm

theorem NoSelect.append {a : String} (h : NoSelect a) (b : String) : NoSelect (a ++ b) := by
  intro rest
  rw [String.toList_append, List.append_assoc]
  exact h _

end SqlDialects.Reading
