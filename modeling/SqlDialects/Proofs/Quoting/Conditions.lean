import SqlDialects.Proofs.Quoting.Texts
import SqlDialects.Proofs.Reading.Rendered
import SqlDialects.Proofs.Text.Unbraced

/-!
Conditions whose names are arbitrary and whose other terms are harmless where they are written. Each
is rendered as SQL that is read from outside of quotes to outside of quotes, and so are the chains
of them.
-/

namespace SqlDialects

open Text

namespace Emit

variable {α β : Type} {P : α → Prop} {Q : β → Prop}

def Gives (P : α → Prop) (x : Emit α) : Prop := ∀ a, x.outcome = .ok a → P a

theorem gives_pure {a : α} (h : P a) : (pure a : Emit α).Gives P := by
  rintro _ ⟨⟩
  exact h

theorem gives_lift {x : Except Fault α} (h : ∀ a, x = .ok a → P a) : (Emit.lift x).Gives P := h

theorem Gives.bind {x : Emit α} {f : α → Emit β} (hx : x.Gives P)
    (hf : ∀ a, P a → (f a).Gives Q) : (x >>= f).Gives Q := by
  intro b hb
  obtain ⟨a, ha, hb⟩ := bind_eq_ok hb
  exact hf a (hx a ha) b hb

theorem Gives.mapM {f : α → Emit β} {xs : List α} (h : ∀ x ∈ xs, (f x).Gives Q) :
    (xs.mapM f).Gives fun ys => ∀ y ∈ ys, Q y := by
  intro ys hys y hy
  obtain ⟨x, hx, hxy⟩ := forall₂_mem_right (mapM_eq_ok hys) hy
  exact h x hx y hxy

theorem gives_embed {x : Except Fault Fragment} {P : String → Prop}
    (h : ∀ f, x = .ok f → P f.sql) : (Emit.embed x).Gives P := by
  intro sql hsql
  cases x with
  | error e => cases hsql
  | ok f =>
    cases hsql
    exact h f rfl

theorem Gives.toFragment {x : Emit String} {P : String → Prop} (h : x.Gives P) {f : Fragment}
    (hf : x.toFragment = .ok f) : P f.sql := by
  obtain ⟨bound, outcome⟩ := x
  cases outcome with
  | error e => cases hf
  | ok sql =>
    cases hf
    exact h sql rfl

end Emit

def Text.Simple (text : String) : Prop := ∀ c ∈ text.toList, c.isAlphanum ∨ c = '_'

instance (text : String) : Decidable (Text.Simple text) :=
  List.decidableBAll (fun c : Char => c.isAlphanum = true ∨ c = '_') text.toList

/-- The names are arbitrary. All else that is written out has no quotes, brackets and parentheses of
its own, and nothing is written out as it is. -/
def Terms.confined : Terms where
  operator := Bare
  datePart := Simple
  function := Simple
  seed := Simple
  escape := (· ≠ '\'')
  value v := ∀ sql, v ≠ .raw sql
  raw _ _ := False

theorem Text.Simple.bare {text : String} (h : Simple text) : Bare text := by
  have hall : structural.all (fun c => ¬(c.isAlphanum = true ∨ c = '_')) = true := by decide
  exact fun c hc hm => of_decide_eq_true (List.all_eq_true.mp hall c hm) (h c hc)

theorem Text.Simple.bare_upper {text : String} (h : Simple text) : Bare (upper text) := by
  have hascii : ∀ n < 128, (Char.ofNat n).isAlphanum = true ∨ Char.ofNat n = '_' →
      (upperChar (Char.ofNat n)).all (· ∉ structural) = true := by decide +kernel
  have hsmall (c : Char) (hc : c.isAlphanum = true ∨ c = '_') : c.toNat < 128 := by
    rcases hc with hc | rfl
    · change (decide (c.val ≥ 'A'.val ∧ c.val ≤ 'Z'.val) || (c.val ≥ 'a'.val && c.val ≤ 'z'.val) ||
        (c.val ≥ '0'.val && c.val ≤ '9'.val)) = true at hc
      simp only [Bool.or_eq_true, Bool.and_eq_true, decide_eq_true_eq] at hc
      have hle (n : UInt32) (hn : c.val ≤ n) (h128 : n < 128) : c.toNat < 128 :=
        UInt32.lt_iff_toNat_lt.mp (UInt32.lt_of_le_of_lt hn h128)
      rcases hc with (hc | hc) | hc
      · exact hle _ hc.2 (by decide)
      · exact hle _ hc.2 (by decide)
      · exact hle _ hc.2 (by decide)
    · decide
  intro d hd
  rw [Text.upper, String.toList_ofList] at hd
  obtain ⟨c, hc, hd⟩ := List.mem_flatMap.mp hd
  have hword := h c hc
  rw [← Char.ofNat_toNat c] at hword hd
  have hupper := List.all_eq_true.mp (hascii c.toNat (hsmall c (h c hc)) hword) d hd
  exact of_decide_eq_true hupper

theorem Text.Bare.lower {text : String} (h : Bare text) : Bare (lower text) := by
  have hall : structural.all (fun c => 0 < c.toNat ∧ c.toNat < 97) = true := by decide
  intro c hc hm
  obtain ⟨hpos, hsmall⟩ := of_decide_eq_true (List.all_eq_true.mp hall c hm)
  exact h c (mem_of_mem_lower hpos hsmall hc) hm

namespace Engine

/-- A date part leaves nothing open where the engine writes it: as a word in parentheses, inside of
a literal, or as the name of a function. Some parts, or all, are not written out. -/
def HoldsPart (e : Engine) (part : String) : Prop :=
  match e with
  | .sqlite => True
  | .postgres => part = "time" ∨ part = "date" ∨ e.Within 1 (upper part)
  | .sqlServer => e.Spans 1 1 (upper part)
  | e => e.Spans 0 0 (upper part)

end Engine

/-- All that is written out leaves nothing open where it stands. Where the order of rows becomes a
column of their numbers, it has nothing that a second pass over it changes. -/
def Compiler.harmless (c : Compiler) : Terms where
  orderName n := c.engine = .sqlServer ∧ c.legacyPaging = true → Unbraced n
  operator operator := ∀ op, c.checkOperator operator = .ok op → Bare op
  datePart := c.engine.HoldsPart
  function f := c.engine.Spans 0 0 (upper f)
  seed s := c.engine = .mySql → c.engine.Spans 1 1 s
  escape := (· ≠ '\'')
  value v := ∀ sql, v ≠ .raw sql
  raw sql _ := c.engine.Spans 0 0 (c.engine.wrapIdentifiers sql) ∧
    (c.engine = .sqlServer ∧ c.legacyPaging = true → Unbraced (c.engine.wrapIdentifiers sql))

structure Rendering.Spans (e : Engine) (r : Rendering) : Prop where
  select : ∀ ss f, r.select ss = .ok f → e.Spans 0 0 f.sql
  conditions : ∀ ss, (r.conditions ss).Gives (e.Spans 0 0)
  joined : ∀ ss, (r.joined ss).Gives (e.Spans 0 0)

namespace Engine

variable {e : Engine}

theorem Spans.negate {sql : String} (h : e.Spans 0 0 sql) (isNot : Bool) :
    e.Spans 0 0 (SqlDialects.negate isNot sql) := by
  cases isNot with
  | false => exact h
  | true =>
    have hopen : e.Spans 0 1 "NOT (" := spans_of_nesting rfl
    exact (hopen.append (h.deeper 1)).append (spans_of_nesting rfl)

end Engine

namespace Compiler

variable {c : Compiler} (ss : Scopes)

theorem spans_parameter {v : Value} (hv : ∀ sql, v ≠ .raw sql) :
    (c.parameter ss v).Gives (c.engine.Spans 0 0) := by
  intro marker h
  rw [marker_of_parameter hv h]
  exact Engine.spans_bare (by decide)

theorem spans_parameters {vs : List Value} (hv : ∀ v ∈ vs, ∀ sql, v ≠ .raw sql) :
    (c.parameters ss vs).Gives (c.engine.Spans 0 0) := by
  refine (Emit.Gives.mapM fun v hm => spans_parameter ss (hv v hm)).bind fun markers hmarkers => ?_
  exact Emit.gives_pure (Engine.spans_intercalate (Engine.spans_bare (by decide)) hmarkers)

theorem bare_checkOperator {operator op : String} (h : Bare operator)
    (hop : c.checkOperator operator = .ok op) : Bare op := by
  rw [(checkOperator_eq_ok hop).1]
  exact h.lower

theorem spans_rawText {sql : String} (bindings : List Value) (h : c.harmless.raw sql bindings) :
    (c.rawText sql bindings).Gives (c.engine.Spans 0 0) :=
  Emit.Gives.bind (P := fun _ => True) (fun _ _ => trivial) fun _ _ => Emit.gives_pure h.1

section Texts

variable {e : Engine} {part name op marker : String}

theorem spans_comparison {left right : String} (hl : e.Spans 0 0 left) (ho : Bare op)
    (hr : e.Spans 0 0 right) : e.Spans 0 0 (left ++ " " ++ op ++ " " ++ right) := by
  have hspace : e.Spans 0 0 " " := Engine.spans_bare (by decide)
  exact (((hl.append hspace).append (Engine.spans_bare ho)).append hspace).append hr

theorem spans_parenthesized {left inner : String} (hl : e.Spans 0 0 left)
    (hi : e.Spans 0 0 inner) : e.Spans 0 0 (left ++ " (" ++ inner ++ ")") := by
  have hopen : e.Spans 0 1 " (" := Engine.spans_of_nesting rfl
  have hclose : e.Spans 1 0 ")" := Engine.spans_of_nesting rfl
  exact ((hl.append hopen).append (hi.deeper 1)).append hclose

theorem spans_castPart (hp : part = "time" ∨ part = "date" ∨ e.Within 1 (upper part))
    (hn : e.Spans 0 0 name) :
    e.Spans 0 0 (if part = "time" then name ++ "::time"
      else if part = "date" then name ++ "::date"
      else "DATE_PART('" ++ upper part ++ "', " ++ name ++ ")") := by
  split_ifs with htime hdate
  · exact hn.append (Engine.spans_bare (by decide))
  · exact hn.append (Engine.spans_bare (by decide))
  · have htext : "DATE_PART('" ++ upper part ++ "', " ++ name ++ ")" =
        "DATE_PART(" ++ ("'" ++ upper part ++ "'") ++ ", " ++ name ++ ")" := by
      simp [← String.toList_inj]
    have hwithin := (hp.resolve_left htime).resolve_left hdate
    have hopen : e.Spans 0 1 "DATE_PART(" := Engine.spans_of_nesting rfl
    have hcomma : e.Spans 1 1 ", " := Engine.spans_bare (by decide)
    rw [htext]
    exact (((hopen.append hwithin.spans_literal).append hcomma).append (hn.deeper 1)).append
      (Engine.spans_of_nesting rfl)

theorem spans_wordPart (hp : e.Spans 1 1 part) (hn : e.Spans 0 0 name) :
    e.Spans 0 0 (if part = "TIME" ∨ part = "DATE" then "CAST(" ++ name ++ " AS " ++ part ++ ")"
      else "DATEPART(" ++ part ++ ", " ++ name ++ ")") := by
  have hclose : e.Spans 1 0 ")" := Engine.spans_of_nesting rfl
  split_ifs
  · have hopen : e.Spans 0 1 "CAST(" := Engine.spans_of_nesting rfl
    have has : e.Spans 1 1 " AS " := Engine.spans_bare (by decide)
    exact (((hopen.append (hn.deeper 1)).append has).append hp).append hclose
  · have hopen : e.Spans 0 1 "DATEPART(" := Engine.spans_of_nesting rfl
    have hcomma : e.Spans 1 1 ", " := Engine.spans_bare (by decide)
    exact (((hopen.append hp).append hcomma).append (hn.deeper 1)).append hclose

theorem spans_formatted {format : String} (hquote : '\'' ∉ format.toList) (hn : e.Spans 0 0 name)
    (ho : Bare op) (hm : e.Spans 0 0 marker) :
    e.Spans 0 0 ("strftime('" ++ format ++ "', " ++ name ++ ") " ++ op ++ " cast(" ++ marker ++
      " as text)") := by
  have htext : "strftime('" ++ format ++ "', " ++ name ++ ") " ++ op ++ " cast(" ++ marker ++
      " as text)" =
        "strftime(" ++ ("'" ++ format ++ "'") ++ ", " ++ name ++ ") " ++ op ++ " cast(" ++ marker ++
          " as text)" := by
    simp [← String.toList_inj]
  have hopen : e.Spans 0 1 "strftime(" := Engine.spans_of_nesting rfl
  have hcomma : e.Spans 1 1 ", " := Engine.spans_bare (by decide)
  have hbetween : e.Spans 1 0 ") " := Engine.spans_of_nesting rfl
  have hcast : e.Spans 0 1 " cast(" := Engine.spans_of_nesting rfl
  have hlast : e.Spans 1 0 " as text)" := Engine.spans_of_nesting rfl
  have hleft := (((hopen.append (Engine.spans_literal hquote)).append hcomma).append
    (hn.deeper 1)).append hbetween
  rw [htext]
  exact (((hleft.append (Engine.spans_bare ho)).append hcast).append (hm.deeper 1)).append hlast

theorem spans_namedPart (hp : e.Spans 0 0 part) (hn : e.Spans 0 0 name) (ho : Bare op)
    (hm : e.Spans 0 0 marker) :
    e.Spans 0 0 (part ++ "(" ++ name ++ ") " ++ op ++ " " ++ marker) := by
  have hopen : e.Spans 0 1 "(" := Engine.spans_of_nesting rfl
  have hbetween : e.Spans 1 0 ") " := Engine.spans_of_nesting rfl
  have hspace : e.Spans 0 0 " " := Engine.spans_bare (by decide)
  have hleft := ((hp.append hopen).append (hn.deeper 1)).append hbetween
  exact ((hleft.append (Engine.spans_bare ho)).append hspace).append hm

end Texts

theorem spans_datePart {part column op : String} {v : Value} {isNot : Bool}
    (hp : c.engine.HoldsPart part) (ho : Bare op) (hv : ∀ sql, v ≠ .raw sql) :
    (c.datePart ss part column op v isNot).Gives (c.engine.Spans 0 0) := by
  have hparameter := spans_parameter (c := c) ss hv
  have hname : c.engine.Spans 0 0 (c.engine.wrap column) := c.engine.spans_wrap column
  unfold datePart basicDatePart
  generalize c.engine = e at hp hparameter hname ⊢
  cases e with
  | postgres =>
    refine hparameter.bind fun marker hm => Emit.gives_pure ?_
    exact (spans_comparison (spans_castPart hp hname) ho hm).negate isNot
  | sqlServer =>
    refine hparameter.bind fun marker hm => Emit.gives_pure ?_
    exact (spans_comparison (spans_wordPart hp hname) ho hm).negate isNot
  | sqlite =>
    refine hparameter.bind fun marker hm => ?_
    cases hf : timeFormat? part with
    | none => exact Emit.gives_pure (spans_comparison hname ho hm)
    | some format =>
      have hsql := spans_formatted (quote_not_mem_timeFormat hf) hname ho hm
      exact Emit.gives_pure (hsql.negate isNot)
  | _ =>
    refine hparameter.bind fun marker hm => Emit.gives_pure ?_
    exact (spans_namedPart hp hname ho hm).negate isNot

theorem spans_like {column operator : String} {v : Value} {caseSensitive isNot : Bool}
    {escape : Option Char} (ho : c.harmless.operator operator) (hv : ∀ sql, v ≠ .raw sql)
    (he : ∀ mark ∈ escape, mark ≠ '\'') :
    (c.like ss column operator v caseSensitive escape isNot).Gives (c.engine.Spans 0 0) := by
  have hname : c.engine.Spans 0 0 (c.engine.wrap column) := c.engine.spans_wrap column
  have hleft : c.engine.Spans 0 0 (if caseSensitive then c.engine.wrap column
      else "LOWER(" ++ c.engine.wrap column ++ ")") := by
    split
    · exact hname
    · have hopen : c.engine.Spans 0 1 "LOWER(" := Engine.spans_of_nesting rfl
      exact (hopen.append (hname.deeper 1)).append (Engine.spans_of_nesting rfl)
  have hright (pattern : String) : (c.likeOperand ss v pattern).Gives (c.engine.Spans 0 0) := by
    intro right hr
    rw [likeOperand_of_ok hv hr]
    exact Engine.spans_bare (by decide)
  unfold like
  refine Emit.Gives.bind (P := fun _ => True) (fun _ _ => trivial) fun text _ => ?_
  have hop : c.harmless.operator (likePattern operator text).1 := by
    rcases likePattern_cases operator text with h | ⟨-, h⟩
    · rw [h]
      exact ho
    · rw [h]
      exact fun op => bare_checkOperator (by decide)
  revert hop
  generalize likePattern operator text = x
  obtain ⟨op, pattern⟩ := x
  intro hop
  dsimp only at hop ⊢
  refine (Emit.gives_lift hop).bind fun op hop => ?_
  refine (hright _).bind fun right hr => Emit.gives_pure (Engine.Spans.negate ?_ isNot)
  have hcompare := spans_comparison hleft hop hr
  cases escape with
  | none => exact hcompare
  | some mark =>
    have hmark : '\'' ∉ mark.toString.toList := by simpa using Ne.symm (he mark rfl)
    have hword : c.engine.Spans 0 0 " ESCAPE " := Engine.spans_bare (by decide)
    have htext (sql : String) : sql ++ " ESCAPE '" ++ mark.toString ++ "'" =
        sql ++ " ESCAPE " ++ ("'" ++ mark.toString ++ "'") := by
      simp [← String.toList_inj]
    dsimp only
    rw [htext]
    exact (hcompare.append hword).append (Engine.spans_literal hmark)

theorem spans_emptyList (e : Engine) (isNot : Bool) : e.Spans 0 0
    (if isNot then "1 = 1 /* NOT IN [empty list] */" else "1 = 0 /* IN [empty list] */") := by
  cases isNot <;> cases e <;> exact fun k => ⟨⟨.outside, 0 + k⟩, rfl, .inl rfl, rfl⟩

theorem spans_condition {x : Condition Rendering}
    (hx : x.Obeys c.harmless (Rendering.Spans c.engine)) :
    (c.condition ss x).Gives (c.engine.Spans 0 0) := by
  have hname (name : String) : c.engine.Spans 0 0 (c.engine.wrap name) := c.engine.spans_wrap name
  have hspace : c.engine.Spans 0 0 " " := Engine.spans_bare (by decide)
  have hselect {query : Rendering} (h : query.Spans c.engine) :
      (Emit.embed (query.select ss)).Gives (c.engine.Spans 0 0) := Emit.gives_embed (h.select ss)
  have hsign (plain negated : String) (hp : Bare plain) (hn : Bare negated) :
      Bare (if x.isNot then negated else plain) := by
    split
    · exact hn
    · exact hp
  obtain ⟨p, isOr, isNot⟩ := x
  unfold condition
  cases p with
  | compare column operator value =>
    obtain ⟨-, ho, hv⟩ := hx
    refine (Emit.gives_lift ho).bind fun op hop => ?_
    refine (spans_parameter ss hv).bind fun marker hm => Emit.gives_pure ?_
    exact (spans_comparison (hname column) hop hm).negate isNot
  | like column operator value caseSensitive escape =>
    obtain ⟨-, ho, hv, he⟩ := hx
    exact spans_like ss ho hv he
  | datePart part column operator value =>
    obtain ⟨hp, -, ho, hv⟩ := hx
    exact (Emit.gives_lift ho).bind fun op hop => spans_datePart ss hp hop hv
  | columns first operator second =>
    obtain ⟨-, ho, -⟩ := hx
    refine (Emit.gives_lift ho).bind fun op hop => Emit.gives_pure ?_
    exact (spans_comparison (hname first) hop (hname second)).negate isNot
  | isNull column =>
    have hword := hsign "IS NULL" "IS NOT NULL" (by decide) (by decide)
    exact Emit.gives_pure (((hname column).append hspace).append (Engine.spans_bare hword))
  | truth column value =>
    have hword := hsign "=" "!=" (by decide) (by decide)
    have hvalue : c.engine.Spans 0 0
        (if value then c.engine.trueText else c.engine.falseText) := by
      refine Engine.spans_of_nesting ?_
      cases value <;> cases c.engine <;> rfl
    exact Emit.gives_pure (spans_comparison (hname column) hword hvalue)
  | oneOf column values =>
    dsimp only
    split
    · exact Emit.gives_pure (spans_emptyList c.engine isNot)
    · have hword := hsign "IN" "NOT IN" (by decide) (by decide)
      refine (spans_parameters ss hx.2).bind fun markers hm => Emit.gives_pure ?_
      have hleft := ((hname column).append hspace).append (Engine.spans_bare hword)
      exact spans_parenthesized hleft hm
  | oneOfQuery column query =>
    have hword := hsign "IN" "NOT IN" (by decide) (by decide)
    refine (hselect hx.2).bind fun sub hsub => Emit.gives_pure ?_
    have hleft := ((hname column).append hspace).append (Engine.spans_bare hword)
    exact spans_parenthesized hleft hsub
  | between column lower higher =>
    obtain ⟨-, hl, hh⟩ := hx
    have hword := hsign "BETWEEN" "NOT BETWEEN" (by decide) (by decide)
    have hand : c.engine.Spans 0 0 " AND " := Engine.spans_bare (by decide)
    refine (spans_parameter ss hl).bind fun low hlow => ?_
    refine (spans_parameter ss hh).bind fun high hhigh => Emit.gives_pure ?_
    exact ((spans_comparison (hname column) hword hlow).append hand).append hhigh
  | rowsExist query =>
    have hword := hsign "EXISTS" "NOT EXISTS" (by decide) (by decide)
    refine (hselect hx).bind fun sub hsub => Emit.gives_pure ?_
    exact spans_parenthesized (Engine.spans_bare hword) hsub
  | againstQuery column operator query =>
    obtain ⟨-, ho, hq⟩ := hx
    refine (Emit.gives_lift ho).bind fun op hop => ?_
    refine (hselect hq).bind fun sub hsub => Emit.gives_pure ?_
    have hleft := ((hname column).append hspace).append (Engine.spans_bare hop)
    exact (spans_parenthesized hleft hsub).negate isNot
  | queryAgainst query operator value =>
    obtain ⟨hq, ho, hv⟩ := hx
    refine (Emit.gives_lift ho).bind fun op hop => ?_
    refine (hselect hq).bind fun sub hsub => ?_
    refine (spans_parameter ss hv).bind fun marker hm => Emit.gives_pure ?_
    have hopen : c.engine.Spans 0 1 "(" := Engine.spans_of_nesting rfl
    have hclose : c.engine.Spans 1 0 ") " := Engine.spans_of_nesting rfl
    have hleft := (hopen.append (hsub.deeper 1)).append hclose
    exact (((hleft.append (Engine.spans_bare hop)).append hspace).append hm).negate isNot
  | nested query =>
    refine (hx.conditions ss).bind fun sql hsql => Emit.gives_pure ?_
    split
    · exact Engine.spans_empty 0
    · have hlead : c.engine.Spans 0 1 (if isNot then "NOT (" else "(") := by
        cases isNot <;> exact Engine.spans_of_nesting rfl
      exact (hlead.append (hsql.deeper 1)).append (Engine.spans_of_nesting rfl)
  | raw sql bindings =>
    exact (spans_rawText bindings hx).bind fun text ht => Emit.gives_pure (ht.negate isNot)

theorem spans_following {xs : List (Condition Rendering × String)}
    (h : ∀ x ∈ xs, c.engine.Spans 0 0 x.2) : c.engine.Spans 0 0 (chain.following xs) := by
  induction xs with
  | nil => exact Engine.spans_empty 0
  | cons x xs ih =>
    have hsql := h x List.mem_cons_self
    have ih := ih fun x hm => h x (List.mem_cons_of_mem _ hm)
    obtain ⟨x, sql⟩ := x
    by_cases hne : sql = ""
    · subst hne
      exact ih
    · rw [following_cons_of_ne hne]
      refine (Engine.Spans.append ?_ hsql).append ih
      split <;> exact Engine.spans_bare (by decide)

theorem spans_chain {xs : List (Condition Rendering × String)}
    (h : ∀ x ∈ xs, c.engine.Spans 0 0 x.2) : c.engine.Spans 0 0 (chain xs) := by
  induction xs with
  | nil => exact Engine.spans_empty 0
  | cons x xs ih =>
    have hsql := h x List.mem_cons_self
    have hrest := fun x hm => h x (List.mem_cons_of_mem _ hm)
    obtain ⟨x, sql⟩ := x
    by_cases hne : sql = ""
    · subst hne
      exact ih hrest
    · rw [chain_cons_of_ne hne]
      exact hsql.append (spans_following hrest)

theorem spans_conditions {xs : List (Condition Rendering)}
    (h : ∀ x ∈ xs, x.Obeys c.harmless (Rendering.Spans c.engine)) :
    (c.conditions ss xs).Gives (c.engine.Spans 0 0) := by
  refine (Emit.Gives.mapM fun x hx => spans_condition ss (h x hx)).bind fun parts hparts => ?_
  refine Emit.gives_pure (spans_chain fun x hx => ?_)
  exact hparts x.2 (List.of_mem_zip hx).2

end Compiler

end SqlDialects
