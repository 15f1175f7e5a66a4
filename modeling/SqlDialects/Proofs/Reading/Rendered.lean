import SqlDialects.Proofs.Operator.Vetted
import SqlDialects.Proofs.Reading.Meaning
import SqlDialects.Proofs.Reading.Selects
import SqlDialects.Proofs.Text.Mark

/-!
Predicates with plain terms are rendered as texts that read as one atom, and their negations as
texts that read as its negation.
-/

namespace SqlDialects

open Reading

namespace Reading

variable {e : Engine} {l r : String} {L R : List Token}

theorem not_mem_truths (e : Engine) {t : Token} {more : List Token} (h : t.isWord = false) :
    t :: more ∉ truths e := by
  have hwords : ∀ r ∈ truths e, r.head?.any Token.isWord = true := by cases e <;> decide
  intro hm
  have hword : t.isWord = true := hwords _ hm
  rw [h] at hword
  cases hword

theorem operand_marker (e : Engine) : Operand e "?" [.sign '?'] :=
  operand_plain e "?" (by decide) (by decide)

theorem reads_marker {op : String} (hl : Subject e l L) (ho : op ∈ comparing) :
    ∃ toks, ReadsAtom e (l ++ " " ++ op ++ " " ++ "?") toks :=
  reads_comparison hl ho (operand_marker e) (not_mem_truths e rfl)

theorem reads_escape {op : String} {mark : Char} (hl : Subject e l L)
    (ho : op ∈ comparing) (hm : mark ≠ '\'') :
    ∃ toks, ReadsAtom e
      (l ++ " " ++ op ++ " " ++ "?" ++ " ESCAPE '" ++ mark.toString ++ "'") toks := by
  have htext := operand_text e mark.toString (by simpa using Ne.symm hm)
  have hr := ((operand_marker e).spaced (operand_word e "ESCAPE" (by decide))).spaced htext
  have h := reads_comparison hl ho hr (not_mem_truths e rfl)
  have heq : l ++ " " ++ op ++ " " ++
      ("?" ++ " " ++ "ESCAPE" ++ " " ++ ("'" ++ mark.toString ++ "'")) =
        l ++ " " ++ op ++ " " ++ "?" ++ " ESCAPE '" ++ mark.toString ++ "'" := by
    simp [← String.toList_inj]
  rwa [heq] at h

theorem quote_not_mem_word {w : String} (h : PlainWord w.toList) : '\'' ∉ w.toList := by
  intro hm
  exact absurd (List.all_eq_true.mp h.2.1 _ hm) (by decide)

theorem subject_textCall {w text a : String} {A : List Token} (hw : PlainWord w.toList)
    (ht : '\'' ∉ text.toList) (ha : Operand e a A) :
    ∃ toks, Subject e (w ++ "('" ++ text ++ "', " ++ a ++ ")") toks := by
  have hs : NoSelect ("'" ++ text ++ "'" ++ ", " ++ a) := by
    simp only [String.append_assoc]
    exact (noSelect_of_head (c := '\'') rfl (by decide)).append _
  have h := subject_call hw ((operand_text e text ht).comma ha) hs
  have heq : w ++ "(" ++ ("'" ++ text ++ "'" ++ ", " ++ a) ++ ")" =
      w ++ "('" ++ text ++ "', " ++ a ++ ")" := by
    simp [← String.toList_inj]
  rw [heq] at h
  exact ⟨_, h⟩

section Parentheses

theorem spaced_paren (a b : String) : a ++ " " ++ ("(" ++ b ++ ")") = a ++ " (" ++ b ++ ")" := by
  simp [← String.toList_inj]

theorem readsBoth_memberOf (hl : Subject e l L) (hr : Operand e ("(" ++ r ++ ")") R) :
    ReadsBoth e fun isNot =>
      l ++ " " ++ (if isNot then "NOT IN" else "IN") ++ " (" ++ r ++ ")" := by
  have hboth := readsBoth_member hl hr
  simp only [spaced_paren] at hboth
  exact hboth

variable {op sql : String} (hsql : IsSelect sql) (hspans : e.Spans 0 0 sql) (ho : op ∈ comparing)

include hsql hspans ho

theorem reads_againstQuery (hl : Subject e l L) :
    ∃ toks, ReadsAtom e (l ++ " " ++ op ++ " (" ++ sql ++ ")") toks := by
  obtain ⟨toks, hreads⟩ := reads_comparison hl ho (subject_query hsql hspans).toOperand
    (not_mem_truths e rfl)
  rw [spaced_paren] at hreads
  exact ⟨toks, hreads⟩

theorem reads_queryAgainst :
    ∃ toks, ReadsAtom e ("(" ++ sql ++ ") " ++ op ++ " " ++ "?") toks := by
  obtain ⟨toks, hreads⟩ := reads_marker (subject_query hsql hspans) ho
  have heq : "(" ++ sql ++ ")" ++ " " ++ op ++ " " ++ "?" =
      "(" ++ sql ++ ") " ++ op ++ " " ++ "?" := by
    simp [← String.toList_inj]
  rw [heq] at hreads
  exact ⟨toks, hreads⟩

end Parentheses

section DateParts

variable {part name op : String} {N : List Token}

theorem subject_castPart (hname : Subject e name N)
    (hword : PlainWord (Text.upper part).toList) :
    ∃ toks, Subject e (if part = "time" then name ++ "::time"
      else if part = "date" then name ++ "::date"
      else "DATE_PART('" ++ Text.upper part ++ "', " ++ name ++ ")") toks := by
  split_ifs
  · have htime := operand_plain e "::time" (by decide) (by decide)
    exact ⟨_, hname.append htime (by simp [Apart, stops])⟩
  · have hdate := operand_plain e "::date" (by decide) (by decide)
    exact ⟨_, hname.append hdate (by simp [Apart, stops])⟩
  · exact subject_textCall (w := "DATE_PART") (by decide) (quote_not_mem_word hword)
      hname.toOperand

theorem subject_wordPart (hname : Subject e name N) (hword : PlainWord part.toList) :
    ∃ toks, Subject e (if part = "TIME" ∨ part = "DATE"
      then "CAST(" ++ name ++ " AS " ++ part ++ ")"
      else "DATEPART(" ++ part ++ ", " ++ name ++ ")") toks := by
  have hpart := operand_word e part hword
  split_ifs
  · have hcast := (hname.toOperand.spaced (operand_word e "AS" (by decide))).spaced hpart
    have h := subject_call (w := "CAST") (by decide) hcast
      ((((hname.noSelect.append _).append _).append _).append _)
    have heq : "CAST" ++ "(" ++ (name ++ " " ++ "AS" ++ " " ++ part) ++ ")" =
        "CAST(" ++ name ++ " AS " ++ part ++ ")" := by
      simp [← String.toList_inj]
    rw [heq] at h
    exact ⟨_, h⟩
  · have hs : NoSelect (part ++ ", " ++ name) := by
      rw [String.append_assoc]
      exact noSelect_word (c := ',') hword.2.1 (by simp) (by decide)
    have h := subject_call (w := "DATEPART") (by decide) (hpart.comma hname.toOperand) hs
    have heq : "DATEPART" ++ "(" ++ (part ++ ", " ++ name) ++ ")" =
        "DATEPART(" ++ part ++ ", " ++ name ++ ")" := by
      simp [← String.toList_inj]
    rw [heq] at h
    exact ⟨_, h⟩

theorem reads_formatted {format : String} (hname : Subject e name N)
    (hquote : '\'' ∉ format.toList) (ho : op ∈ comparing) :
    ∃ toks, ReadsAtom e ("strftime('" ++ format ++ "', " ++ name ++ ") " ++ op ++ " cast(" ++
      "?" ++ " as text)") toks := by
  obtain ⟨L, hl⟩ := subject_textCall (w := "strftime") (by decide) hquote hname.toOperand
  have hcast := (subject_call (e := e) (w := "cast") (by decide)
    (operand_plain e "? as text" (by decide) (by decide))
    (noSelect_of_head (c := '?') rfl (by decide))).toOperand
  have hne : [.word "cast".toList, .sign '('] ++ plainTokens "? as text".toList ++ [.sign ')'] ∉
      truths e := by cases e <;> decide
  obtain ⟨toks, hreads⟩ := reads_comparison hl ho hcast hne
  have heq : "strftime" ++ "('" ++ format ++ "', " ++ name ++ ")" ++ " " ++ op ++ " " ++
      ("cast" ++ "(" ++ "? as text" ++ ")") =
        "strftime('" ++ format ++ "', " ++ name ++ ") " ++ op ++ " cast(" ++ "?" ++
          " as text)" := by
    simp [← String.toList_inj]
  rw [heq] at hreads
  exact ⟨toks, hreads⟩

theorem reads_namedPart (hname : Subject e name N) (hword : PlainWord part.toList)
    (ho : op ∈ comparing) :
    ∃ toks, ReadsAtom e (part ++ "(" ++ name ++ ") " ++ op ++ " " ++ "?") toks := by
  obtain ⟨toks, hreads⟩ := reads_marker (subject_call hword hname.toOperand hname.noSelect) ho
  have heq : part ++ "(" ++ name ++ ")" ++ " " ++ op ++ " " ++ "?" =
      part ++ "(" ++ name ++ ") " ++ op ++ " " ++ "?" := by
    simp [← String.toList_inj]
  rw [heq] at hreads
  exact ⟨toks, hreads⟩

end DateParts

end Reading

namespace Compiler

variable {c : Compiler} {ss : Scopes}

theorem marker_of_parameter {v : Value} {marker : String} (hv : ∀ sql, v ≠ .raw sql)
    (h : (c.parameter ss v).outcome = .ok marker) : marker = "?" := by
  have hbound {v : Value} (h : (do
      let bound ← Emit.lift (resolve ss v)
      Emit.push [bound]
      return c.marker : Emit String).outcome = .ok marker) : marker = "?" := by
    obtain ⟨_, -, h⟩ := Emit.bind_eq_ok h
    obtain ⟨_, -, h⟩ := Emit.bind_eq_ok h
    cases h
    exact c.marker_eq
  cases v with
  | raw sql => exact absurd rfl (hv sql)
  | _ => exact hbound h

theorem quote_not_mem_timeFormat {part format : String} (h : timeFormat? part = some format) :
    '\'' ∉ format.toList := by
  unfold timeFormat? at h
  split at h <;> cases h <;> decide

theorem datePart_reads {part column op sql : String} {v : Value} {isNot : Bool}
    (hp : (plainTerms c.engine).datePart part) (ho : op ∈ comparing) (hv : ∀ sql, v ≠ .raw sql)
    (h : (c.datePart ss part column op v isNot).outcome = .ok sql) :
    ∃ text toks, ReadsAtom c.engine text toks ∧
      ∀ isNot, (c.datePart ss part column op v isNot).outcome = .ok (negate isNot text) := by
  obtain ⟨N, -, hname⟩ := subject_wrap c.engine column
  obtain ⟨hword, hformat⟩ := hp
  unfold datePart basicDatePart at h ⊢
  generalize c.engine = e at h hname hformat ⊢
  cases e with
  | postgres =>
    obtain ⟨marker, hm, -⟩ := Emit.bind_eq_ok h
    obtain rfl := marker_of_parameter hv hm
    simp only [Emit.outcome_bind hm]
    obtain ⟨L, hl⟩ := subject_castPart hname hword
    obtain ⟨toks, hreads⟩ := reads_marker hl ho
    exact ⟨_, toks, hreads, fun isNot => rfl⟩
  | sqlServer =>
    obtain ⟨marker, hm, -⟩ := Emit.bind_eq_ok h
    obtain rfl := marker_of_parameter hv hm
    simp only [Emit.outcome_bind hm]
    obtain ⟨L, hl⟩ := subject_wordPart hname hword
    obtain ⟨toks, hreads⟩ := reads_marker hl ho
    exact ⟨_, toks, hreads, fun isNot => rfl⟩
  | sqlite =>
    obtain ⟨marker, hm, -⟩ := Emit.bind_eq_ok h
    obtain rfl := marker_of_parameter hv hm
    simp only [Emit.outcome_bind hm]
    obtain ⟨format, hf⟩ := Option.isSome_iff_exists.mp (hformat rfl)
    obtain ⟨toks, hreads⟩ := reads_formatted hname (quote_not_mem_timeFormat hf) ho
    rw [hf]
    exact ⟨_, toks, hreads, fun isNot => rfl⟩
  | _ =>
    obtain ⟨marker, hm, -⟩ := Emit.bind_eq_ok h
    obtain rfl := marker_of_parameter hv hm
    simp only [Emit.outcome_bind hm]
    obtain ⟨toks, hreads⟩ := reads_namedPart hname hword ho
    exact ⟨_, toks, hreads, fun isNot => rfl⟩

theorem likeOperand_of_ok {v : Value} {pattern right : String} (hv : ∀ sql, v ≠ .raw sql)
    (h : (c.likeOperand ss v pattern).outcome = .ok right) : right = "?" := by
  have hs : ∀ sql, Value.string pattern ≠ .raw sql := by rintro _ ⟨⟩
  cases v with
  | raw sql => exact absurd rfl (hv sql)
  | _ => exact marker_of_parameter hs h

theorem like_reads {column operator sql : String} {v : Value} {caseSensitive isNot : Bool}
    {escape : Option Char} (ho : Text.lower operator ∈ comparing) (hv : ∀ sql, v ≠ .raw sql)
    (he : ∀ mark ∈ escape, mark ≠ '\'')
    (h : (c.like ss column operator v caseSensitive escape isNot).outcome = .ok sql) :
    ∃ text toks, ReadsAtom c.engine text toks ∧ ∀ isNot,
      (c.like ss column operator v caseSensitive escape isNot).outcome =
        .ok (negate isNot text) := by
  obtain ⟨N, -, hname⟩ := subject_wrap c.engine column
  unfold like at h ⊢
  obtain ⟨pattern, ht, h⟩ := Emit.bind_eq_ok h
  simp only [Emit.outcome_bind ht]
  have hpattern := likePattern_cases operator pattern
  revert h hpattern
  generalize likePattern operator pattern = x
  obtain ⟨op, pattern⟩ := x
  intro h hpattern
  dsimp only at h hpattern ⊢
  obtain ⟨op', hop, h⟩ := Emit.bind_eq_ok h
  obtain ⟨right, hr, h⟩ := Emit.bind_eq_ok h
  obtain ⟨rfl, -⟩ := checkOperator_eq_ok hop
  obtain rfl := likeOperand_of_ok hv hr
  simp only [Emit.outcome_bind hop, Emit.outcome_bind hr]
  have hin : Text.lower op ∈ comparing := by
    rcases hpattern with rfl | ⟨-, rfl⟩
    · exact ho
    · decide +kernel
  have hleft : ∃ L, Subject c.engine
      (if caseSensitive then c.engine.wrap column
        else "LOWER(" ++ c.engine.wrap column ++ ")") L := by
    cases caseSensitive with
    | true => exact ⟨N, hname⟩
    | false => exact ⟨_, subject_call (w := "LOWER") (by decide) hname.toOperand hname.noSelect⟩
  obtain ⟨L, hl⟩ := hleft
  cases escape with
  | none =>
    obtain ⟨toks, hreads⟩ := reads_marker hl hin
    exact ⟨_, toks, hreads, fun isNot => rfl⟩
  | some mark =>
    obtain ⟨toks, hreads⟩ := reads_escape hl hin (he mark rfl)
    exact ⟨_, toks, hreads, fun isNot => rfl⟩

theorem parameters_operand {vs : List Value} {text : String} (hne : vs ≠ [])
    (hv : ∀ v ∈ vs, ∀ sql, v ≠ .raw sql) (h : (c.parameters ss vs).outcome = .ok text) :
    ∃ R, Operand c.engine ("(" ++ text ++ ")") R := by
  obtain ⟨v, vs, rfl⟩ := List.exists_cons_of_ne_nil hne
  obtain ⟨markers, hm, h⟩ := Emit.bind_eq_ok h
  cases h
  have hmarkers : ∀ m ∈ markers, m = "?" := by
    intro m hmem
    obtain ⟨u, hu, hum⟩ := forall₂_mem_right (Emit.mapM_eq_ok hm) hmem
    exact marker_of_parameter (hv u hu) hum
  have hchars : ∀ d ∈ (", ".intercalate markers).toList, d ∈ "?, ".toList := by
    have hpart : ∀ part ∈ [", ", "?"], part.toList ⊆ "?, ".toList := by decide
    intro d hd
    rw [String.toList_intercalate] at hd
    rcases Text.mem_intercalate hd with hd | ⟨p, hp, hd⟩
    · exact hpart ", " (by decide) hd
    · obtain ⟨m, hmem, rfl⟩ := List.mem_map.mp hp
      obtain rfl := hmarkers m hmem
      exact hpart "?" (by decide) hd
  have hhead : (", ".intercalate markers).toList.head? = some '?' := by
    cases Emit.mapM_eq_ok hm with
    | @cons _ first _ rest hf _ =>
      obtain rfl := hmarkers first List.mem_cons_self
      cases rest with
      | nil => rfl
      | cons m ms => simp [String.intercalate_cons_cons]
  obtain ⟨R, hr⟩ := operand_markers c.engine hchars
  exact ⟨_, hr.paren (noSelect_of_head hhead (by decide))⟩

def SelectSpans (c : Compiler) (ss : Scopes) (n : Subquery) : Prop :=
  ∀ f, (c.rendering n).select ss = .ok f → c.engine.Spans 0 0 f.sql

theorem SelectSpans.embed {n : Subquery} {sql : String} (hn : c.SelectSpans ss n)
    (h : (Emit.embed ((c.rendering n).select ss)).outcome = .ok sql) :
    IsSelect sql ∧ c.engine.Spans 0 0 sql := by
  cases hs : (c.rendering n).select ss with
  | error e =>
    rw [hs] at h
    cases h
  | ok f =>
    rw [hs] at h
    cases h
    exact ⟨isSelect_rendering hs, hn f hs⟩

/-- A predicate with plain terms reads as one atom, and its negation as the negation of that. -/
theorem condition_readsBoth {p : Predicate Subquery} (hn : ∀ q, p ≠ .nested q)
    (hp : p.Obeys (plainTerms c.engine) (c.SelectSpans ss)) {isOr isNot : Bool} {sql : String}
    (h : (c.condition ss ⟨p.map c.rendering, isOr, isNot⟩).outcome = .ok sql) :
    ∃ text, ReadsBoth c.engine text ∧ ∀ isOr isNot,
      (c.condition ss ⟨p.map c.rendering, isOr, isNot⟩).outcome = .ok (text isNot) := by
  unfold condition at h ⊢
  dsimp only at h ⊢
  cases p with
  | compare column operator value =>
    obtain ⟨-, ho, hv⟩ := hp
    obtain ⟨op, hop, h⟩ := Emit.bind_eq_ok h
    obtain ⟨marker, hm, h⟩ := Emit.bind_eq_ok h
    obtain ⟨rfl, -⟩ := checkOperator_eq_ok hop
    obtain rfl := marker_of_parameter hv hm
    obtain ⟨N, -, hname⟩ := subject_wrap c.engine column
    obtain ⟨toks, hreads⟩ := reads_marker hname ho
    refine ⟨_, readsBoth_negate hreads, fun isOr isNot => ?_⟩
    simp only [Predicate.map, Emit.outcome_bind hop, Emit.outcome_bind hm]
    rfl
  | like column operator value caseSensitive escape =>
    obtain ⟨-, ho, hv, he⟩ := hp
    obtain ⟨text, toks, hreads, hall⟩ := like_reads ho hv he h
    exact ⟨_, readsBoth_negate hreads, fun isOr isNot => hall isNot⟩
  | datePart part column operator value =>
    obtain ⟨hpart, -, ho, hv⟩ := hp
    obtain ⟨op, hop, h⟩ := Emit.bind_eq_ok h
    obtain ⟨rfl, -⟩ := checkOperator_eq_ok hop
    obtain ⟨text, toks, hreads, hall⟩ := datePart_reads hpart ho hv h
    refine ⟨_, readsBoth_negate hreads, fun isOr isNot => ?_⟩
    simp only [Predicate.map, Emit.outcome_bind hop]
    exact hall isNot
  | columns first operator second =>
    obtain ⟨-, ho, -⟩ := hp
    obtain ⟨op, hop, h⟩ := Emit.bind_eq_ok h
    obtain ⟨rfl, -⟩ := checkOperator_eq_ok hop
    obtain ⟨N, -, hfirst⟩ := subject_wrap c.engine first
    obtain ⟨M, ⟨⟨t, rest, rfl, ht⟩, -⟩, hsecond⟩ := subject_wrap c.engine second
    obtain ⟨toks, hreads⟩ := reads_comparison hfirst ho hsecond.toOperand (not_mem_truths _ ht)
    refine ⟨_, readsBoth_negate hreads, fun isOr isNot => ?_⟩
    simp only [Predicate.map, Emit.outcome_bind hop]
    rfl
  | isNull column =>
    obtain ⟨N, -, hname⟩ := subject_wrap c.engine column
    exact ⟨_, readsBoth_isNull hname, fun isOr isNot => rfl⟩
  | truth column value =>
    obtain ⟨N, -, hname⟩ := subject_wrap c.engine column
    exact ⟨_, readsBoth_truth hname value, fun isOr isNot => rfl⟩
  | oneOf column values =>
    obtain ⟨-, hv⟩ := hp
    dsimp only [Predicate.map] at h ⊢
    split at h
    · next he =>
      simp only [if_pos he]
      exact ⟨_, readsBoth_nothing c.engine, fun isOr isNot => rfl⟩
    · next he =>
      simp only [if_neg he]
      obtain ⟨markers, hm, h⟩ := Emit.bind_eq_ok h
      obtain ⟨N, -, hname⟩ := subject_wrap c.engine column
      obtain ⟨R, hr⟩ := parameters_operand (by simpa using he) hv hm
      refine ⟨_, readsBoth_memberOf hname hr, fun isOr isNot => ?_⟩
      simp only [Emit.outcome_bind hm]
      rfl
  | oneOfQuery column n =>
    obtain ⟨sub, hs, h⟩ := Emit.bind_eq_ok h
    obtain ⟨hselect, hspans⟩ := hp.2.embed hs
    obtain ⟨N, -, hname⟩ := subject_wrap c.engine column
    have hquery := (subject_query hselect hspans).toOperand
    refine ⟨_, readsBoth_memberOf hname hquery, fun isOr isNot => ?_⟩
    simp only [Predicate.map, Emit.outcome_bind hs]
    rfl
  | between column lower higher =>
    obtain ⟨-, hl, hh⟩ := hp
    obtain ⟨low, hlow, h⟩ := Emit.bind_eq_ok h
    obtain ⟨high, hhigh, h⟩ := Emit.bind_eq_ok h
    obtain rfl := marker_of_parameter hl hlow
    obtain rfl := marker_of_parameter hh hhigh
    obtain ⟨N, -, hname⟩ := subject_wrap c.engine column
    refine ⟨_, readsBoth_between hname, fun isOr isNot => ?_⟩
    simp only [Predicate.map, Emit.outcome_bind hlow, Emit.outcome_bind hhigh]
    cases isNot <;> exact congrArg Except.ok (by simp [← String.toList_inj])
  | rowsExist n =>
    obtain ⟨sub, hs, h⟩ := Emit.bind_eq_ok h
    obtain ⟨hselect, hspans⟩ := SelectSpans.embed hp hs
    refine ⟨_, readsBoth_exists hselect hspans, fun isOr isNot => ?_⟩
    simp only [Predicate.map, Emit.outcome_bind hs]
    rfl
  | againstQuery column operator n =>
    obtain ⟨-, ho, hq⟩ := hp
    obtain ⟨op, hop, h⟩ := Emit.bind_eq_ok h
    obtain ⟨sub, hs, h⟩ := Emit.bind_eq_ok h
    obtain ⟨rfl, -⟩ := checkOperator_eq_ok hop
    obtain ⟨hselect, hspans⟩ := hq.embed hs
    obtain ⟨N, -, hname⟩ := subject_wrap c.engine column
    obtain ⟨toks, hreads⟩ := reads_againstQuery hselect hspans ho hname
    refine ⟨_, readsBoth_negate hreads, fun isOr isNot => ?_⟩
    simp only [Predicate.map, Emit.outcome_bind hop, Emit.outcome_bind hs]
    rfl
  | queryAgainst n operator value =>
    obtain ⟨hq, ho, hv⟩ := hp
    obtain ⟨op, hop, h⟩ := Emit.bind_eq_ok h
    obtain ⟨sub, hs, h⟩ := Emit.bind_eq_ok h
    obtain ⟨marker, hm, h⟩ := Emit.bind_eq_ok h
    obtain ⟨rfl, -⟩ := checkOperator_eq_ok hop
    obtain rfl := marker_of_parameter hv hm
    obtain ⟨hselect, hspans⟩ := hq.embed hs
    obtain ⟨toks, hreads⟩ := reads_queryAgainst hselect hspans ho
    refine ⟨_, readsBoth_negate hreads, fun isOr isNot => ?_⟩
    simp only [Predicate.map, Emit.outcome_bind hop, Emit.outcome_bind hs, Emit.outcome_bind hm]
    rfl
  | nested n => exact absurd rfl (hn n)
  | raw sql bindings => exact hp.elim

end Compiler

end SqlDialects
