import SqlDialects.Proofs.Reading.Grammar

/-!
The parts of atoms: names, calls, markers and operators. No condition ends inside an operand, and
none has a sign that denies the atom it stands in.
-/

namespace SqlDialects.Reading

variable {e : Engine}

namespace Token

def calm (t : Token) : Bool := !t.is "NOT" && t ≠ sign '!'

def opens (t : Token) : Bool := !t.is "NOT" && t ≠ sign '(' && !t.ends

def isWord : Token → Bool
  | word _ => true
  | _ => false

def inName (t : Token) : Bool :=
  match t with
  | quoted _ _ => true
  | t => t = sign '.' || t = sign '*' || t = word "AS".toList

theorem of_inName {t : Token} (h : t.inName = true) : t.passes = true ∧ t.calm = true := by
  unfold inName at h
  split at h
  · exact ⟨rfl, rfl⟩
  · simp only [Bool.or_eq_true, decide_eq_true_eq] at h
    rcases h with (rfl | rfl) | rfl <;> decide

theorem opens_of_not_isWord {t : Token} (h : t.isWord = false) (hn : t.inName = true) :
    t.opens = true := by
  unfold inName at hn
  split at hn
  · rfl
  · simp only [Bool.or_eq_true, decide_eq_true_eq] at hn
    rcases hn with (rfl | rfl) | rfl
    · decide
    · decide
    · cases h

end Token

theorem denied?_append {toks : List Token} (h : ∀ t ∈ toks, t.calm = true) (rest : List Token) :
    denied? e (toks ++ rest) = (denied? e rest).map (toks ++ ·) := by
  induction toks with
  | nil => simp
  | cons t toks ih =>
    have ht := h t List.mem_cons_self
    have ih := ih fun u hu => h u (List.mem_cons_of_mem _ hu)
    simp only [Token.calm, Bool.and_eq_true, Bool.not_eq_true', decide_eq_true_eq] at ht
    rw [List.cons_append, denied?, if_neg (by simp [ht.1]), if_neg (by simp [ht.2]), ih,
      Option.map_map]
    rfl

theorem denied?_calm {toks : List Token} (h : ∀ t ∈ toks, t.calm = true) :
    denied? e toks = none := by
  have hcalm := denied?_append (e := e) h []
  rwa [List.append_nil] at hcalm

/-- A part of an atom. -/
structure Operand (e : Engine) (text : String) (toks : List Token) : Prop where
  lexes : Lexes e text toks
  passes : Passes toks
  calm : ∀ t ∈ toks, t.calm = true

/-- A part that an atom can begin with. -/
structure Subject (e : Engine) (text : String) (toks : List Token) : Prop
    extends Operand e text toks where
  opens : ∃ t rest, toks = t :: rest ∧ t.opens = true
  /-- No comparison of constants begins like this. -/
  distinct : ∀ more, toks ++ more ≠ always
  noSelect : NoSelect text

def PlainWord (w : List Char) : Prop :=
  w ≠ [] ∧ w.all isWordChar = true ∧ (Token.word w).opens = true ∧
    (Token.word w).is "BETWEEN" = false

instance (w : List Char) : Decidable (PlainWord w) := inferInstanceAs (Decidable (_ ∧ _ ∧ _ ∧ _))

theorem plainTokens_word {w : List Char} (hne : w ≠ []) (h : w.all isWordChar = true) :
    plainTokens w = [.word w] := by
  rw [List.all_eq_true] at h
  induction w with
  | nil => exact absurd rfl hne
  | cons c w ih =>
    rw [plainTokens, if_pos (h c List.mem_cons_self)]
    cases w with
    | nil => rfl
    | cons d w =>
      have hd : isWordChar d = true := h d (by simp)
      have ih := ih (by simp) fun a ha => h a (List.mem_cons_of_mem _ ha)
      rw [ih, if_pos (by simp [hd])]
      rfl

theorem lexes_word (e : Engine) (w : String) (hne : w.toList ≠ [])
    (h : w.toList.all isWordChar = true) : Lexes e w [.word w.toList] := by
  have hplain : w.toList.all isPlain = true := by
    rw [List.all_eq_true] at h ⊢
    exact fun c hc => by simp [isPlain, h c hc]
  have hlex := lexes_plain e w hplain
  rwa [plainTokens_word hne h] at hlex

theorem operand_plain (e : Engine) (text : String) (h : text.toList.all isPlain = true)
    (ht : ∀ t ∈ plainTokens text.toList, t.passes = true ∧ t.calm = true) :
    Operand e text (plainTokens text.toList) where
  lexes := lexes_plain e text h
  passes := passes_of_forall fun t hm => (ht t hm).1
  calm t hm := (ht t hm).2

theorem operand_word (e : Engine) (w : String) (h : PlainWord w.toList) :
    Operand e w [.word w.toList] := by
  obtain ⟨hne, hw, ho, hb⟩ := h
  have hends : (Token.word w.toList).ends = false ∧ (Token.word w.toList).is "NOT" = false := by
    simpa [Token.opens, and_comm] using ho
  refine ⟨lexes_word e w hne hw, passes_token ?_, ?_⟩
  · simp [Token.passes, hends.1, hb]
  · simp [Token.calm, hends.2]

theorem operand_text (e : Engine) (text : String) (h : '\'' ∉ text.toList) :
    Operand e ("'" ++ text ++ "'") [.quoted '\'' text.toList] where
  lexes := lexes_text e h
  passes := passes_token rfl
  calm := by simp [Token.calm, Token.is]

theorem subject_query {sql : String} (h : IsSelect sql) (hs : e.Spans 0 0 sql) :
    Subject e ("(" ++ sql ++ ")") [.query sql] where
  lexes := lexes_query h hs
  passes := passes_token rfl
  calm := by simp [Token.calm, Token.is]
  opens := ⟨_, _, rfl, rfl⟩
  distinct more h := by
    rw [always_eq] at h
    cases h
  noSelect := by
    rw [String.append_assoc]
    exact NoSelect.append (noSelect_of_head (c := '(') rfl (by decide) : NoSelect "(") _

namespace Operand

variable {a b : String} {A B : List Token}

theorem append (ha : Operand e a A) (hb : Operand e b B) (hab : Apart b.toList) :
    Operand e (a ++ b) (A ++ B) where
  lexes := ha.lexes.append hb.lexes hab
  passes := ha.passes.append hb.passes
  calm t ht := (List.mem_append.mp ht).elim (ha.calm t) (hb.calm t)

theorem spaced (ha : Operand e a A) (hb : Operand e b B) :
    Operand e (a ++ " " ++ b) (A ++ B) where
  lexes := ha.lexes.spaced hb.lexes
  passes := ha.passes.append hb.passes
  calm t ht := (List.mem_append.mp ht).elim (ha.calm t) (hb.calm t)

theorem paren (ha : Operand e a A) (hn : NoSelect a) :
    Operand e ("(" ++ a ++ ")") (.sign '(' :: A ++ [.sign ')']) where
  lexes := ha.lexes.paren hn
  passes := ha.passes.paren
  calm t ht := by
    rcases List.mem_append.mp ht with ht | ht
    · rcases List.mem_cons.mp ht with rfl | ht
      · decide
      · exact ha.calm t ht
    · obtain rfl := List.mem_singleton.mp ht
      decide

theorem comma (ha : Operand e a A) (hb : Operand e b B) :
    Operand e (a ++ ", " ++ b) (A ++ .sign ',' :: B) := by
  have hcomma : Operand e "," [.sign ','] :=
    operand_plain e "," (by decide) (by decide)
  have htext : a ++ ", " ++ b = a ++ ("," ++ " " ++ b) := by simp [← String.toList_inj]
  rw [htext]
  exact ha.append (hcomma.spaced hb) (by simp [Apart, stops])

end Operand

theorem apart_paren (text : String) : Apart ("(" ++ text ++ ")").toList := by
  simp [Apart, stops]

/-- No word that goes before a sign is the one that selects begin with and a blank. -/
theorem noSelect_word {w text : String} {c : Char} (hw : w.toList.all isWordChar = true)
    (ht : text.toList.head? = some c) (hc : isWordChar c = false ∧ c ≠ ' ') :
    NoSelect (w ++ text) := by
  -- Along the two words at once: one that ends first meets a character that is in no word.
  have hgeneral (p w more : List Char) (hp : ∀ d ∈ p, isWordChar d = true)
      (hw : ∀ d ∈ w, isWordChar d = true) : ¬p ++ [' '] <+: w ++ c :: more := by
    induction p generalizing w with
    | nil =>
      cases w with
      | nil =>
        intro h
        exact hc.2 (List.cons_prefix_cons.mp h).1.symm
      | cons d w =>
        have hd := hw d List.mem_cons_self
        intro h
        obtain ⟨rfl, -⟩ := List.cons_prefix_cons.mp h
        exact absurd hd (by decide)
    | cons d p ih =>
      have hd := hp d List.mem_cons_self
      cases w with
      | nil =>
        intro h
        obtain ⟨rfl, -⟩ := List.cons_prefix_cons.mp h
        rw [hc.1] at hd
        cases hd
      | cons d w =>
        intro h
        exact ih w (fun a ha => hp a (List.mem_cons_of_mem _ ha))
          (fun a ha => hw a (List.mem_cons_of_mem _ ha)) (List.cons_prefix_cons.mp h).2
  obtain ⟨more, hmore⟩ := List.head?_eq_some_iff.mp ht
  have hselect : "SELECT".toList.all isWordChar = true := by decide
  intro rest
  rw [String.toList_append, hmore, List.append_assoc]
  exact hgeneral _ _ _ (List.all_eq_true.mp hselect) (List.all_eq_true.mp hw)

theorem subject_call {w a : String} {A : List Token}
    (hw : PlainWord w.toList) (ha : Operand e a A) (hn : NoSelect a) :
    Subject e (w ++ "(" ++ a ++ ")")
      (.word w.toList :: .sign '(' :: A ++ [.sign ')']) where
  toOperand := by
    have h := (operand_word e w hw).append (ha.paren hn) (apart_paren a)
    rw [← String.append_assoc, ← String.append_assoc] at h
    exact h
  opens := ⟨_, _, rfl, hw.2.2.1⟩
  distinct more := by
    rw [always_eq]
    simp
  noSelect := by
    rw [String.append_assoc, String.append_assoc]
    exact noSelect_word (c := '(') hw.2.1 (by simp) (by decide)

theorem Subject.append {a b : String} {A B : List Token}
    (ha : Subject e a A) (hb : Operand e b B) (hab : Apart b.toList) :
    Subject e (a ++ b) (A ++ B) where
  toOperand := ha.toOperand.append hb hab
  opens := by
    obtain ⟨t, rest, rfl, ht⟩ := ha.opens
    exact ⟨t, rest ++ B, rfl, ht⟩
  distinct more := by
    rw [List.append_assoc]
    exact ha.distinct (B ++ more)
  noSelect := ha.noSelect.append b

section Names

def IsName (toks : List Token) : Prop :=
  (∃ t rest, toks = t :: rest ∧ t.isWord = false) ∧ ∀ t ∈ toks, t.inName = true

theorem IsName.append {a b : List Token} (ha : IsName a) (hb : ∀ t ∈ b, t.inName = true) :
    IsName (a ++ b) := by
  obtain ⟨⟨t, rest, rfl, ht⟩, hall⟩ := ha
  exact ⟨⟨t, rest ++ b, rfl, ht⟩, fun u hu => (List.mem_append.mp hu).elim (hall u) (hb u)⟩

theorem double_flatMap_upperChar (text : List Char) :
    (Text.double '"' text).flatMap Text.upperChar =
      Text.double '"' (text.flatMap Text.upperChar) := by
  induction text with
  | nil => rfl
  | cons c text ih =>
    have hc : (Text.double '"' [c]).flatMap Text.upperChar =
        Text.double '"' (Text.upperChar c) := by
      by_cases hq : c = '"'
      · subst hq
        rfl
      · have hm : '"' ∉ Text.upperChar c := by
          rw [Text.mem_upperChar (by decide)]
          exact Ne.symm hq
        rw [Text.double_eq_self hm, Text.double_eq_self (by simpa using Ne.symm hq)]
        simp
    rw [← List.singleton_append, Text.double_append, List.flatMap_append, List.flatMap_append,
      Text.double_append, hc, ih]
    simp

theorem wrapSegment_cases (e : Engine) (text : List Char) :
    e.wrapSegment text = ['*'] ∨ ∃ name, e.wrapSegment text = e.dialect.quote name := by
  unfold Engine.wrapSegment
  split
  · next h => exact .inl h
  · refine .inr ?_
    split
    · next he =>
      subst he
      refine ⟨text.flatMap Text.upperChar, ?_⟩
      have hq : Engine.firebird.dialect.opening = '"' ∧ Engine.firebird.dialect.closing = '"' :=
        ⟨rfl, rfl⟩
      rw [Dialect.quote, Dialect.quote, hq.1, hq.2, Text.quote, Text.quote,
        ← double_flatMap_upperChar]
      simp [Engine.upperChar_quote]
    · exact ⟨text, rfl⟩

theorem lexes_segment (e : Engine) (text : List Char) :
    ∃ t : Token, t.isWord = false ∧ t.inName = true ∧
      Lexes e (String.ofList (e.wrapSegment text)) [t] ∧
      NoSelect (String.ofList (e.wrapSegment text)) := by
  rcases wrapSegment_cases e text with h | ⟨name, h⟩
  · rw [h]
    exact ⟨.sign '*', rfl, rfl, lexes_plain e "*" (by decide),
      noSelect_of_head (c := '*') (by simp) (by decide)⟩
  · rw [h]
    refine ⟨_, rfl, rfl, lexes_quote e name, ?_⟩
    exact noSelect_of_head (c := e.dialect.opening) (by simp [Dialect.quote, Text.quote])
      (by cases e <;> decide)

theorem lexes_dots (e : Engine) (p : List Char) (ps : List (List Char)) :
    ∃ toks, IsName toks ∧
      Lexes e (String.ofList (List.intercalate ['.'] ((p :: ps).map e.wrapSegment))) toks ∧
      NoSelect (String.ofList (List.intercalate ['.'] ((p :: ps).map e.wrapSegment))) := by
  induction ps generalizing p with
  | nil =>
    obtain ⟨t, hw, hn, hlex⟩ := lexes_segment e p
    refine ⟨[t], ⟨⟨t, [], rfl, hw⟩, by simpa using hn⟩, ?_⟩
    simpa using hlex
  | cons q ps ih =>
    obtain ⟨t, hw, hn, hlex, hselect⟩ := lexes_segment e p
    obtain ⟨toks, hname, hrest, -⟩ := ih q
    have htext : String.ofList (List.intercalate ['.'] ((p :: q :: ps).map e.wrapSegment)) =
        String.ofList (e.wrapSegment p) ++
          ("." ++ String.ofList (List.intercalate ['.'] ((q :: ps).map e.wrapSegment))) := by
      rw [← String.toList_inj, List.map_cons, List.map_cons, List.intercalate_cons_cons]
      simp
    rw [htext]
    refine ⟨[t] ++ .sign '.' :: toks, ?_, ?_, hselect.append _⟩
    · refine IsName.append ⟨⟨t, [], rfl, hw⟩, by simpa using hn⟩ fun u hu => ?_
      rcases List.mem_cons.mp hu with rfl | hu
      · rfl
      · exact hname.2 u hu
    · exact hlex.append (hrest.sign (c := '.') rfl (by decide)) (by simp [Apart, stops])

theorem lexes_path (e : Engine) (text : List Char) :
    ∃ toks, IsName toks ∧ Lexes e (String.ofList (e.wrapPath text)) toks ∧
      NoSelect (String.ofList (e.wrapPath text)) := by
  unfold Engine.wrapPath
  obtain ⟨p, ps, hp⟩ := List.exists_cons_of_ne_nil (Text.piecesFrom_ne_nil ['.'] 0 text)
  rw [Text.pieces, hp]
  exact lexes_dots e p ps

theorem lexes_wrap (e : Engine) (text : String) :
    ∃ toks, IsName toks ∧ Lexes e (e.wrap text) toks ∧ NoSelect (e.wrap text) := by
  unfold Engine.wrap Engine.wrapName
  split
  · next before after _ =>
    obtain ⟨toks, hname, hpath, hselect⟩ := lexes_path e before
    obtain ⟨t, -, hn, hsegment, -⟩ := lexes_segment e after
    have hs : Lexes e "AS" [.word "AS".toList] := lexes_word e "AS" (by decide) (by decide)
    have has : e.dialect.columnAs = "AS " := by cases e <;> rfl
    have htext : String.ofList (e.wrapPath before ++ ' ' :: e.dialect.columnAs.toList ++
        e.wrapSegment after) =
          String.ofList (e.wrapPath before) ++ " " ++ "AS" ++ " " ++
            String.ofList (e.wrapSegment after) := by
      rw [has, ← String.toList_inj]
      simp
    rw [htext]
    refine ⟨toks ++ [Token.word "AS".toList] ++ [t], (hname.append ?_).append ?_,
      (hpath.spaced hs).spaced hsegment,
      (((hselect.append _).append _).append _).append _⟩
    · intro u hu
      obtain rfl := List.mem_singleton.mp hu
      decide
    · simpa using hn
  · exact lexes_path e text.toList

theorem subject_wrap (e : Engine) (text : String) :
    ∃ toks, IsName toks ∧ Subject e (e.wrap text) toks := by
  obtain ⟨toks, hname, hlex, hselect⟩ := lexes_wrap e text
  refine ⟨toks, hname, ⟨⟨hlex, ?_, fun t ht => ?_⟩, ?_, fun more h => ?_, hselect⟩⟩
  · exact passes_of_forall fun t ht => (Token.of_inName (hname.2 t ht)).1
  · exact (Token.of_inName (hname.2 t ht)).2
  · obtain ⟨⟨t, rest, rfl, ht⟩, hall⟩ := hname
    exact ⟨t, rest, rfl, Token.opens_of_not_isWord ht (hall t List.mem_cons_self)⟩
  · obtain ⟨⟨t, rest, rfl, ht⟩, -⟩ := hname
    rw [always_eq, List.cons_append, List.cons.injEq] at h
    obtain ⟨rfl, -⟩ := h
    cases ht

end Names

theorem operand_markers (e : Engine) {text : String} (h : ∀ c ∈ text.toList, c ∈ "?, ".toList) :
    ∃ toks, Operand e text toks := by
  have hall : "?, ".toList.all fun c => isPlain c && !isWordChar c := by decide
  have hplain (c : Char) (hc : c ∈ "?, ".toList) : isPlain c = true ∧ isWordChar c = false := by
    simpa using List.all_eq_true.mp hall c hc
  refine ⟨_, operand_plain e text ?_ ?_⟩
  · exact List.all_eq_true.mpr fun c hc => (hplain c (h c hc)).1
  generalize text.toList = cs at h
  -- No word can begin, so each character is a blank or a sign of its own.
  induction cs with
  | nil => rintro _ ⟨⟩
  | cons c cs ih =>
    have ih := ih fun d hd => h d (List.mem_cons_of_mem _ hd)
    have hc := h c List.mem_cons_self
    rw [plainTokens, if_neg (by simp [(hplain c hc).2])]
    split
    · exact ih
    · next hb =>
      intro t ht
      rcases List.mem_cons.mp ht with rfl | ht
      · have hsign : c = '?' ∨ c = ',' := by simpa [hb] using hc
        rcases hsign with rfl | rfl <;> decide
      · exact ih t ht

end SqlDialects.Reading
