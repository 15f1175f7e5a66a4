import SqlDialects.Proofs.Reading.Operands

/-!
Atoms and their negations. An atom that is rendered without a negation reads as itself, and its
negation as the negation of it, whether the sign stands inside the atom or in front of it.
-/

namespace SqlDialects.Reading

def comparing : List String := safeOperators ++ ["starts", "ends", "contains"]

/-- The text reads as one atom, which denies nothing. -/
structure ReadsAtom (e : Engine) (text : String) (toks : List Token) : Prop where
  lexes : Lexes e text toks
  atom : IsAtom toks
  positive : signed e toks = .leaf toks
  noSelect : NoSelect text

def ReadsFactor (e : Engine) (text : String) (t : Formula (List Token)) : Prop :=
  ∃ toks, toks ≠ [] ∧ Lexes e text toks ∧ Factor e toks t ∧ NoSelect text

def ReadsExpression (e : Engine) (text : String) (t : Formula (List Token)) : Prop :=
  ∃ toks, toks ≠ [] ∧ Lexes e text toks ∧ Expression e toks t ∧ NoSelect text

variable {e : Engine} {l r text : String} {L R toks : List Token}
  {t : Formula (List Token)}

theorem IsAtom.ne_nil (h : IsAtom toks) : toks ≠ [] := by
  obtain ⟨t, rest, rfl, -⟩ := h.opens
  simp

theorem ReadsAtom.factor (h : ReadsAtom e text toks) : ReadsFactor e text (.leaf toks) := by
  refine ⟨toks, h.atom.ne_nil, h.lexes, ?_, h.noSelect⟩
  rw [← h.positive]
  exact factor_atom h.atom

theorem ReadsFactor.expression (h : ReadsFactor e text t) : ReadsExpression e text t := by
  obtain ⟨toks, hne, hlex, hfactor, hselect⟩ := h
  exact ⟨toks, hne, hlex, expression_factor hne hfactor, hselect⟩

theorem ReadsExpression.ne_empty (h : ReadsExpression e text t) : text ≠ "" := by
  rintro rfl
  obtain ⟨toks, hne, hlex, -⟩ := h
  have htokens := hlex.tokens_eq
  exact hne (Option.some.inj htokens).symm

theorem ReadsExpression.group (h : ReadsExpression e text t) :
    ReadsFactor e ("(" ++ text ++ ")") t := by
  obtain ⟨toks, hne, hlex, hread, hselect⟩ := h
  refine ⟨_, by simp, hlex.paren hselect, factor_paren hread, ?_⟩
  rw [String.append_assoc]
  exact (noSelect_of_head (c := '(') rfl (by decide)).append _

theorem lexes_keyword (e : Engine) (w : String) (h : w ∈ ["NOT", "IS", "NULL", "IN", "BETWEEN",
    "AND", "OR", "EXISTS"]) : Lexes e w [.word w.toList] := by
  have hw : ∀ w ∈ ["NOT", "IS", "NULL", "IN", "BETWEEN", "AND", "OR", "EXISTS"],
      w.toList ≠ [] ∧ w.toList.all isWordChar = true := by decide
  exact lexes_word e w (hw w h).1 (hw w h).2

theorem ReadsFactor.not (h : ReadsFactor e text t) : ReadsFactor e ("NOT " ++ text) (.not t) := by
  obtain ⟨toks, -, hlex, hfactor, -⟩ := h
  have hnot := (lexes_keyword e "NOT" (by decide)).spaced hlex
  have htext : "NOT" ++ " " ++ text = "NOT " ++ text := rfl
  refine ⟨_, by simp, htext ▸ hnot, factor_not hfactor, ?_⟩
  exact (noSelect_of_head (c := 'N') rfl (by decide)).append _

theorem ReadsExpression.negate (h : ReadsExpression e text t) :
    ReadsFactor e ("NOT (" ++ text ++ ")") (.not t) := by
  have hnot := h.group.not
  rwa [← String.append_assoc, ← String.append_assoc] at hnot

theorem ReadsAtom.negate (h : ReadsAtom e text toks) (isNot : Bool) :
    ReadsFactor e (negate isNot text)
      (if isNot then .not (.leaf toks) else .leaf toks) := by
  cases isNot with
  | false => exact h.factor
  | true => exact h.factor.expression.negate

theorem Subject.isAtom (h : Subject e l L) (more : List Token)
    (hs : ∀ rest, Stops rest → splitAtom 0 false (L ++ more ++ rest) = (L ++ more, rest)) :
    IsAtom (L ++ more) where
  opens := by
    obtain ⟨t, rest, rfl, ht⟩ := h.opens
    simp only [Token.opens, Bool.and_eq_true, Bool.not_eq_true', decide_eq_true_eq] at ht
    exact ⟨t, rest ++ more, rfl, ht.1.1, ht.1.2, ht.2⟩
  split := hs

theorem Subject.signed_eq (h : Subject e l L) {more denied : List Token}
    (hd : denied? e more = some denied) : signed e (L ++ more) = .not (.leaf (L ++ denied)) := by
  rw [signed, if_neg (h.distinct more), denied?_append h.calm, hd]
  rfl

theorem Subject.signed_eq_leaf (h : Subject e l L) (more : List Token)
    (hd : denied? e more = none) : signed e (L ++ more) = .leaf (L ++ more) := by
  rw [signed, if_neg (h.distinct more), denied?_append h.calm, hd]
  rfl

theorem Subject.reads (h : Subject e text toks) : ReadsAtom e text toks where
  lexes := h.lexes
  atom := by
    have hatom := h.isAtom [] fun rest hr => by
      rw [List.append_nil]
      exact h.passes.split hr
    rwa [List.append_nil] at hatom
  positive := by
    have hleaf := h.signed_eq_leaf [] rfl
    rwa [List.append_nil] at hleaf
  noSelect := h.noSelect

theorem comparing_plain : ∀ op ∈ comparing, op.toList.all isPlain = true := by decide

theorem comparing_passes : ∀ op ∈ comparing, ∀ t ∈ plainTokens op.toList, t.passes = true := by
  decide

def ownNot : List Token → Bool
  | t :: u :: more => t.is "NOT" && !u.takesNot && (u :: more).all Token.calm
  | _ => false

theorem comparing_sign : ∀ op ∈ comparing, (∀ t ∈ plainTokens op.toList, t.calm = true) ∨
    plainTokens op.toList = [.sign '!', .sign '='] ∨ ownNot (plainTokens op.toList) = true := by
  decide

theorem denied?_operator {op : String} (ho : op ∈ comparing) (hr : ∀ t ∈ R, t.calm = true)
    (ht : R ∉ truths e) : denied? e (plainTokens op.toList ++ R) = none := by
  have hnone := denied?_calm (e := e) hr
  -- A sign could be the operator's `!` or its NOT: neither is followed by what it would deny.
  rcases comparing_sign op ho with h | h | h
  · rw [denied?_append h, hnone]
    rfl
  · rw [h, List.cons_append, denied?, if_neg (by simp [Token.is]), if_neg (by simp [ht]),
      denied?_append (by decide), hnone]
    rfl
  · generalize plainTokens op.toList = toks at h
    unfold ownNot at h
    split at h
    · next t u more =>
      simp only [Bool.and_eq_true, Bool.not_eq_true', List.all_eq_true] at h
      obtain ⟨⟨hnot, htakes⟩, hcalm⟩ := h
      have hsign : t ≠ .sign '!' := by
        rintro rfl
        cases hnot
      rw [List.cons_append, denied?, if_neg (by simp [htakes]), if_neg (by simp [hsign]),
        denied?_append hcalm, hnone]
      rfl
    · cases h

theorem reads_comparison {op : String} (hl : Subject e l L) (ho : op ∈ comparing)
    (hr : Operand e r R) (ht : R ∉ truths e) :
    ∃ toks, ReadsAtom e (l ++ " " ++ op ++ " " ++ r) toks := by
  have hpasses := passes_of_forall (comparing_passes op ho)
  have hlex := (hl.lexes.spaced (lexes_plain e op (comparing_plain op ho))).spaced hr.lexes
  rw [List.append_assoc] at hlex
  refine ⟨_, hlex, hl.isAtom _ fun rest hrest => ?_,
    hl.signed_eq_leaf _ (denied?_operator ho hr.calm ht),
    (((hl.noSelect.append _).append _).append _).append _⟩
  exact (hl.passes.append (hpasses.append hr.passes)).split hrest

theorem Subject.spaced (hl : Subject e l L) (hr : Operand e r R) :
    Subject e (l ++ " " ++ r) (L ++ R) where
  toOperand := hl.toOperand.spaced hr
  opens := by
    obtain ⟨t, rest, rfl, ht⟩ := hl.opens
    exact ⟨t, rest ++ R, rfl, ht⟩
  distinct more := by
    rw [List.append_assoc]
    exact hl.distinct (R ++ more)
  noSelect := (hl.noSelect.append _).append _

theorem factor_denied {denied : List Token} (hl : Subject e l L) (hr : Lexes e r R)
    (hs : ∀ rest, Stops rest → splitAtom 0 false (L ++ R ++ rest) = (L ++ R, rest))
    (hd : denied? e R = some denied) :
    ReadsFactor e (l ++ " " ++ r) (.not (.leaf (L ++ denied))) := by
  have hatom := hl.isAtom R hs
  refine ⟨L ++ R, hatom.ne_nil, hl.lexes.spaced hr, ?_, (hl.noSelect.append _).append _⟩
  rw [← hl.signed_eq hd]
  exact factor_atom hatom

/-- The text of an atom and that of its negation read as such. -/
def ReadsBoth (e : Engine) (text : Bool → String) : Prop :=
  ∃ toks, ReadsAtom e (text false) toks ∧
    ∀ isNot, ReadsFactor e (text isNot) (if isNot then .not (.leaf toks) else .leaf toks)

theorem readsBoth_intro (text : Bool → String) (h : ReadsAtom e (text false) toks)
    (hn : ReadsFactor e (text true) (.not (.leaf toks))) : ReadsBoth e text := by
  refine ⟨toks, h, fun isNot => ?_⟩
  cases isNot with
  | false => exact h.factor
  | true => exact hn

theorem readsBoth_negate (h : ReadsAtom e text toks) :
    ReadsBoth e fun isNot => negate isNot text :=
  readsBoth_intro _ h (h.negate true)

theorem readsBoth_isNull (hl : Subject e l L) :
    ReadsBoth e fun isNot => l ++ " " ++ if isNot then "IS NOT NULL" else "IS NULL" := by
  have hnull := operand_plain e "IS NULL" (by decide) (by decide)
  have hnot := lexes_plain e "IS NOT NULL" (by decide)
  have hown : Passes (plainTokens "IS NOT NULL".toList) := passes_of_forall (by decide)
  exact readsBoth_intro (fun isNot => l ++ " " ++ if isNot then "IS NOT NULL" else "IS NULL")
    (hl.spaced hnull).reads
    (factor_denied hl hnot (fun _ => (hl.passes.append hown).split) (by cases e <;> rfl))

theorem operand_truth (e : Engine) (value : Bool) :
    ∃ toks ∈ truths e, Operand e (if value then e.trueText else e.falseText) toks := by
  have hcast (text : String) {c : Char} (hh : text.toList.head? = some c) (hc : c ≠ 'S')
      (hp : text.toList.all isPlain = true)
      (ht : ∀ t ∈ plainTokens text.toList, t.passes = true ∧ t.calm = true) :=
    (subject_call (e := .sqlServer) (w := "cast") (by decide) (operand_plain _ text hp ht)
      (noSelect_of_head hh hc)).toOperand
  cases value with
  | true =>
    refine ⟨_, List.mem_cons_self, ?_⟩
    cases e with
    | sqlServer => exact hcast "1 as bit" (c := '1') rfl (by decide) (by decide) (by decide)
    | _ => exact operand_plain _ _ (by decide) (by decide)
  | false =>
    refine ⟨_, List.mem_cons_of_mem _ List.mem_cons_self, ?_⟩
    cases e with
    | sqlServer => exact hcast "0 as bit" (c := '0') rfl (by decide) (by decide) (by decide)
    | _ => exact operand_plain _ _ (by decide) (by decide)

theorem readsBoth_truth (hl : Subject e l L) (value : Bool) :
    ReadsBoth e fun isNot => l ++ " " ++ (if isNot then "!=" else "=") ++ " " ++
      (if value then e.trueText else e.falseText) := by
  obtain ⟨T, hmem, ht⟩ := operand_truth e value
  generalize (if value then e.trueText else e.falseText) = truth at ht
  have heq := (operand_plain e "=" (by decide) (by decide)).spaced ht
  have hne := (lexes_plain e "!=" (by decide)).spaced ht.lexes
  have hown : Passes (plainTokens "!=".toList) := passes_of_forall (by decide)
  have hpasses := hl.passes.append (hown.append ht.passes)
  have hdenied : denied? e (plainTokens "!=".toList ++ T) = some (plainTokens "=".toList ++ T) := by
    show denied? e (.sign '!' :: .sign '=' :: T) = some (.sign '=' :: T)
    rw [denied?, if_neg (by simp [Token.is]), if_pos ⟨rfl, List.mem_map_of_mem hmem⟩]
  have h := readsBoth_intro
    (fun isNot => l ++ " " ++ ((if isNot then "!=" else "=") ++ " " ++ truth))
    (hl.spaced heq).reads (factor_denied hl hne (fun _ => hpasses.split) hdenied)
  simp only [← String.append_assoc] at h
  exact h

theorem readsBoth_member (hl : Subject e l L) (hr : Operand e r R) :
    ReadsBoth e fun isNot =>
      l ++ " " ++ (if isNot then "NOT IN" else "IN") ++ " " ++ r := by
  have hin := (operand_word e "IN" (by decide)).spaced hr
  have hnot := (lexes_plain e "NOT IN" (by decide)).spaced hr.lexes
  have hown : Passes (plainTokens "NOT IN".toList) := passes_of_forall (by decide)
  have hpasses := hl.passes.append (hown.append hr.passes)
  have h := readsBoth_intro (fun isNot =>
    l ++ " " ++ ((if isNot then "NOT IN" else "IN") ++ " " ++ r)) (hl.spaced hin).reads
    (factor_denied hl hnot (fun _ => hpasses.split) rfl)
  simp only [← String.append_assoc] at h
  exact h

theorem readsBoth_between (hl : Subject e l L) :
    ReadsBoth e fun isNot =>
      l ++ " " ++ if isNot then "NOT BETWEEN ? AND ?" else "BETWEEN ? AND ?" := by
  have hin := lexes_plain e "BETWEEN ? AND ?" (by decide)
  have hnot := lexes_plain e "NOT BETWEEN ? AND ?" (by decide)
  have hmarker : Passes [.sign '?'] := passes_token rfl
  have hword : Passes [.word "NOT".toList] := passes_token (by decide)
  have htokens : plainTokens "BETWEEN ? AND ?".toList =
      .word "BETWEEN".toList :: [.sign '?'] ++ .word "AND".toList :: [.sign '?'] ∧
      plainTokens "NOT BETWEEN ? AND ?".toList =
        [.word "NOT".toList] ++ plainTokens "BETWEEN ? AND ?".toList := by decide
  have hsplit {A : List Token} (ha : Passes A) (rest : List Token) (hr : Stops rest) :
      splitAtom 0 false (A ++ plainTokens "BETWEEN ? AND ?".toList ++ rest) =
        (A ++ plainTokens "BETWEEN ? AND ?".toList, rest) := by
    have h := split_between ha hmarker hmarker hr
    rw [htokens.1, ← List.append_assoc]
    exact h
  have hnegative := hsplit (hl.passes.append hword)
  rw [List.append_assoc, ← htokens.2] at hnegative
  have hreads : ReadsAtom e (l ++ " " ++ "BETWEEN ? AND ?")
      (L ++ plainTokens "BETWEEN ? AND ?".toList) :=
    ⟨hl.lexes.spaced hin, hl.isAtom _ (hsplit hl.passes), hl.signed_eq_leaf _ (by cases e <;> rfl),
      (hl.noSelect.append _).append _⟩
  exact readsBoth_intro
    (fun isNot => l ++ " " ++ if isNot then "NOT BETWEEN ? AND ?" else "BETWEEN ? AND ?") hreads
    (factor_denied hl hnot hnegative (by cases e <;> rfl))

theorem readsBoth_exists {sql : String} (h : IsSelect sql) (hs : e.Spans 0 0 sql) :
    ReadsBoth e fun isNot =>
      (if isNot then "NOT EXISTS" else "EXISTS") ++ " (" ++ sql ++ ")" := by
  have hlex := (lexes_keyword e "EXISTS" (by decide)).spaced (lexes_query h hs)
  have htext : "EXISTS" ++ " " ++ ("(" ++ sql ++ ")") = "EXISTS" ++ " (" ++ sql ++ ")" := by
    simp [← String.toList_inj]
  rw [htext] at hlex
  have hpasses : Passes [.word "EXISTS".toList, .query sql] :=
    (passes_token (t := .word "EXISTS".toList) (by decide)).append (passes_token rfl)
  have hreads : ReadsAtom e ("EXISTS" ++ " (" ++ sql ++ ")")
      [.word "EXISTS".toList, .query sql] := by
    refine ⟨hlex, ⟨⟨_, _, rfl, by decide, by decide, by decide⟩, fun _ => hpasses.split⟩, ?_, ?_⟩
    · rw [signed, always_eq, if_neg (by simp), denied?_calm]
      simp [Token.calm, Token.is]
    · rw [String.append_assoc]
      exact (noSelect_of_head (c := 'E') rfl (by decide)).append _
  -- This NOT is not part of the atom: it is read as any other that stands before a condition.
  have hnot := hreads.factor.not
  have htext : "NOT " ++ ("EXISTS" ++ " (" ++ sql ++ ")") = "NOT EXISTS" ++ " (" ++ sql ++ ")" := by
    simp [← String.toList_inj]
  rw [htext] at hnot
  exact readsBoth_intro _ hreads hnot

theorem readsBoth_nothing (e : Engine) :
    ReadsBoth e fun isNot =>
      if isNot then "1 = 1 /* NOT IN [empty list] */" else "1 = 0 /* IN [empty list] */" := by
  have hlex (text note : String) (h : text.toList.all isPlain = true)
      (hn : '*' ∉ note.toList) :
      Lexes e (text ++ (" /*" ++ note ++ "*/")) (plainTokens text.toList) := by
    have h := (lexes_plain e text h).append (lexes_comment e hn) (by simp [Apart, stops])
    simpa only [List.append_nil] using h
  have hatom {toks : List Token} (h : ∀ t ∈ toks, t.passes = true)
      (ho : ∃ t rest, toks = t :: rest ∧ t.is "NOT" = false ∧ t ≠ .sign '(' ∧ t.ends = false) :
      IsAtom toks :=
    ⟨ho, fun _ => (passes_of_forall h).split⟩
  have hnever : IsAtom never := hatom (by decide) ⟨_, _, rfl, by decide, by decide, by decide⟩
  have halways : IsAtom always := hatom (by decide) ⟨_, _, rfl, by decide, by decide, by decide⟩
  have hselect (text : String) : NoSelect ("1" ++ text) :=
    (noSelect_of_head (c := '1') rfl (by decide)).append _
  have hpositive : signed e never = .leaf never := by
    rw [signed, if_neg (by decide), denied?_calm (by decide)]
  have hnegative : Factor e always (.not (.leaf never)) := by
    have h := factor_atom (e := e) halways
    rwa [signed, if_pos rfl] at h
  refine readsBoth_intro _ ⟨?_, hnever, hpositive, hselect " = 0 /* IN [empty list] */"⟩
    ⟨always, by decide, ?_, hnegative, hselect " = 1 /* NOT IN [empty list] */"⟩
  · exact hlex "1 = 0" " IN [empty list] " (by decide) (by decide)
  · exact hlex "1 = 1" " NOT IN [empty list] " (by decide) (by decide)

end SqlDialects.Reading
