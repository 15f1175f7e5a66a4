import SqlDialects.Proofs.Operator.Success
import SqlDialects.Proofs.Outcome.Phases

/-!
A condition is rendered only with an operator that is accepted, and every condition of a statement
that compiles is rendered with success and stands in the SQL, at any depth.
-/

namespace SqlDialects

def Stands (text sql : String) : Prop := ∃ left right, sql = left ++ " " ++ text ++ " " ++ right

theorem Stands.append {text sql : String} (h : Stands text sql) (more : String) :
    Stands text (sql ++ more) := by
  obtain ⟨left, right, rfl⟩ := h
  exact ⟨left, right ++ more, String.append_assoc⟩

theorem Stands.negate {text sql : String} (h : Stands text sql) (isNot : Bool) :
    Stands text (SqlDialects.negate isNot sql) := by
  cases isNot with
  | false => exact h
  | true =>
    obtain ⟨left, right, rfl⟩ := h
    refine ⟨"NOT (" ++ left, right ++ ")", ?_⟩
    simp [SqlDialects.negate, String.append_assoc]

namespace Compiler

variable {c : Compiler} {ss : Scopes}

theorem accepts_iff {op : String} :
    c.accepts op = true ↔ op ∈ safeOperators ∨ op ∈ c.operators := by
  unfold accepts
  rw [Bool.or_eq_true, List.contains_iff_mem, List.contains_iff_mem]

theorem checkOperator_eq_ok {operator op : String} (h : c.checkOperator operator = .ok op) :
    op = Text.lower operator ∧ c.accepts op = true := by
  unfold checkOperator at h
  dsimp only at h
  split at h
  · next ha =>
    cases h
    exact ⟨rfl, ha⟩
  · cases h

/-- The operator stands in the SQL in lower case and is accepted, or it is one of the forms of
patterns, which stands there as `like`. -/
def Vets (c : Compiler) (p : Predicate Rendering) (operator sql : String) : Prop :=
  ∃ printed, Stands printed sql ∧
    (printed = Text.lower operator ∧ c.accepts printed = true ∨
      p.isPattern = true ∧ printed = "like")

theorem likePattern_cases (operator text : String) :
    (likePattern operator text).1 = operator ∨
      (["starts", "ends", "contains"].contains operator = true ∧
        (likePattern operator text).1 = "like") := by
  unfold likePattern
  split
  · exact .inr ⟨by decide, rfl⟩
  · exact .inr ⟨by decide, rfl⟩
  · exact .inr ⟨by decide, rfl⟩
  · exact .inl rfl

theorem like_vets {column operator sql : String} {value : Value} {caseSensitive : Bool}
    {escape : Option Char} {isNot : Bool}
    (h : (c.like ss column operator value caseSensitive escape isNot).outcome = .ok sql) :
    c.Vets (.like column operator value caseSensitive escape) operator sql := by
  unfold Compiler.like at h
  obtain ⟨text, -, h⟩ := Emit.bind_eq_ok h
  have hpattern := likePattern_cases operator text
  revert h hpattern
  generalize likePattern operator text = x
  obtain ⟨op, pattern⟩ := x
  intro h hpattern
  dsimp only at h hpattern
  obtain ⟨_, hop, h⟩ := Emit.bind_eq_ok h
  obtain ⟨right, -, h⟩ := Emit.bind_eq_ok h
  cases h
  obtain ⟨rfl, ha⟩ := checkOperator_eq_ok hop
  refine ⟨Text.lower op, .negate ?_ _, ?_⟩
  · cases escape with
    | none => exact ⟨_, right, rfl⟩
    | some e => exact .append (.append (.append ⟨_, right, rfl⟩ " ESCAPE '") e.toString) "'"
  · rcases hpattern with hsame | ⟨hform, hlike⟩
    · rw [hsame] at ha ⊢
      exact .inl ⟨rfl, ha⟩
    · rw [hlike]
      exact .inr ⟨hform, by decide +kernel⟩

theorem datePart_stands {part column op sql : String} {value : Value} {isNot : Bool}
    (h : (c.datePart ss part column op value isNot).outcome = .ok sql) : Stands op sql := by
  unfold datePart basicDatePart at h
  dsimp only at h
  split at h
  · obtain ⟨marker, -, h⟩ := Emit.bind_eq_ok h
    cases h
    exact .negate ⟨_, marker, rfl⟩ _
  · obtain ⟨marker, -, h⟩ := Emit.bind_eq_ok h
    cases h
    exact .negate ⟨_, marker, rfl⟩ _
  · obtain ⟨marker, -, h⟩ := Emit.bind_eq_ok h
    split at h
    · next format _ =>
      cases h
      refine .negate ⟨"strftime('" ++ format ++ "', " ++ c.engine.wrap column ++ ")",
        "cast(" ++ marker ++ " as text)", ?_⟩ _
      simp [← String.toList_inj]
    · cases h
      exact ⟨_, marker, rfl⟩
  · obtain ⟨marker, -, h⟩ := Emit.bind_eq_ok h
    cases h
    refine .negate ⟨Text.upper part ++ "(" ++ c.engine.wrap column ++ ")", marker, ?_⟩ _
    simp [← String.toList_inj]

theorem condition_vets {x : Condition Rendering} {sql operator : String}
    (h : (c.condition ss x).outcome = .ok sql) (ho : x.predicate.operator? = some operator) :
    c.Vets x.predicate operator sql := by
  unfold Compiler.condition at h
  dsimp only at h
  generalize x.predicate = p at h ho ⊢
  cases p with
  | compare column op value =>
    cases ho
    obtain ⟨op, hop, h⟩ := Emit.bind_eq_ok h
    obtain ⟨marker, -, h⟩ := Emit.bind_eq_ok h
    cases h
    exact ⟨op, .negate ⟨_, _, rfl⟩ _, .inl (checkOperator_eq_ok hop)⟩
  | like column op value caseSensitive escape =>
    cases ho
    exact like_vets h
  | datePart part column op value =>
    cases ho
    obtain ⟨op, hop, h⟩ := Emit.bind_eq_ok h
    exact ⟨op, datePart_stands h, .inl (checkOperator_eq_ok hop)⟩
  | columns first op second =>
    cases ho
    obtain ⟨op, hop, h⟩ := Emit.bind_eq_ok h
    cases h
    exact ⟨op, .negate ⟨_, _, rfl⟩ _, .inl (checkOperator_eq_ok hop)⟩
  | againstQuery column op q =>
    cases ho
    obtain ⟨op, hop, h⟩ := Emit.bind_eq_ok h
    obtain ⟨sub, -, h⟩ := Emit.bind_eq_ok h
    cases h
    have hstands : Stands op (c.engine.wrap column ++ " " ++ op ++ " (" ++ sub ++ ")") :=
      ⟨c.engine.wrap column, "(" ++ sub ++ ")", by simp [← String.toList_inj]⟩
    exact ⟨op, hstands.negate _, .inl (checkOperator_eq_ok hop)⟩
  | queryAgainst q op value =>
    cases ho
    obtain ⟨op, hop, h⟩ := Emit.bind_eq_ok h
    obtain ⟨sub, -, h⟩ := Emit.bind_eq_ok h
    obtain ⟨marker, -, h⟩ := Emit.bind_eq_ok h
    cases h
    have hstands : Stands op ("(" ++ sub ++ ") " ++ op ++ " " ++ marker) :=
      ⟨"(" ++ sub ++ ")", marker, by simp [← String.toList_inj]⟩
    exact ⟨op, hstands.negate _, .inl (checkOperator_eq_ok hop)⟩
  | _ => cases ho

section Sound

variable {sql : String}

theorem reaches_rendered {q : Query} {place : Place} (h : (c.rendering (.of q)).Shows sql place) :
    ∀ k ∈ q.rendered c.engine place, c.Reaches sql (k.map c.rendering) := by
  rw [rendering_of] at h
  intro k hk
  have hprepared : k.map c.rendering ∈ (c.prepare q).rendered c.engine place := by
    unfold prepare
    rw [Statement.rendered_map]
    exact List.mem_map_of_mem hk
  cases place with
  | select =>
    obtain ⟨ss, f, h, hs⟩ := h
    exact (select_reaches h _ hprepared).mono hs
  | group =>
    obtain ⟨ss, text, h, hs⟩ := h
    exact (filterText_reaches h _ hprepared).mono hs
  | joined =>
    obtain ⟨ss, text, h, hs⟩ := h
    exact (joinedTable_reaches h _ hprepared).mono hs

theorem parts_show {k : ClauseKind Subquery} (h : c.Reaches sql (k.map c.rendering))
    {place : Place} {n : Subquery} (hn : (place, n) ∈ k.parts) :
    (c.rendering n).Shows sql place := by
  refine h.1 (place, c.rendering n) ?_
  rw [ClauseKind.parts_map]
  exact List.mem_map_of_mem hn

theorem renders_shows {place : Place} {q : Query} {x : Condition Subquery}
    (hx : Renders c.engine place q x)
    (h : ∀ k ∈ q.rendered c.engine place, c.Reaches sql (k.map c.rendering)) :
    ∃ ss, (c.condition ss (x.map c.rendering)).Shows sql := by
  -- Induction on where the condition stands: each step goes down one nested statement.
  induction hx with
  | here hx => exact (h _ hx).2 _ rfl
  | inside hk hb _ ih => exact ih (reaches_rendered (parts_show (h _ hk) hb))

theorem cteDefinition_parts {root : Query} {s : Source Subquery} {f : Fragment}
    (h : c.cteDefinition root s = .ok f) {place : Place} {n : Subquery}
    (hn : (place, n) ∈ s.parts) : (c.rendering n).Shows f.sql place := by
  cases s with
  | query body aliasName =>
    cases List.mem_singleton.mp hn
    unfold cteDefinition at h
    split at h
    · cases h
    · split at h
      · cases h
      · obtain ⟨sub, hs, h⟩ := SqlDialects.bind_eq_ok h
        cases h
        exact ⟨_, sub, hs, .between _ _ _⟩
  | _ => cases hn

theorem occurs_body {q : Query} {f : Fragment} (h : c.assemble q = .ok f) :
    ∃ g, c.body q = .ok g ∧ Text.Occurs g.sql f.sql := by
  obtain ⟨front, g, -, hg, rfl⟩ := assemble_eq_ok.mp h
  exact ⟨g, hg, (Text.Occurs.refl _).append_left _⟩

theorem occurs_defining {definitions : List Fragment} {d : Fragment} (hd : d ∈ definitions) :
    Text.Occurs d.sql (Fragment.defining definitions).sql := by
  have hne : definitions.isEmpty = false := List.isEmpty_eq_false_iff.mpr (List.ne_nil_of_mem hd)
  have htrimmed : Text.trim d.sql ∈ definitions.map fun d => Text.trim d.sql :=
    List.mem_map_of_mem hd
  have hlist := (Text.Occurs.refl d.sql).trim.trans (.intercalate ",\n" htrimmed)
  rw [Fragment.defining, hne]
  exact (hlist.append_left _).append_right _

theorem ctes_show {q : Query} {f : Fragment} (h : c.assemble q = .ok f)
    {sources : List (Source Subquery)} (hs : q.ctes c.engine = .ok sources) :
    ∀ s ∈ sources, ∃ g, c.cteDefinition q s = .ok g ∧ Text.Occurs g.sql f.sql := by
  intro s hm
  obtain ⟨front, body, hfront, -, rfl⟩ := assemble_eq_ok.mp h
  obtain ⟨found, definitions, hfound, hdefinitions, rfl⟩ := front_eq_ok.mp hfront
  obtain rfl := Except.ok.inj (hs.symm.trans hfound)
  obtain ⟨g, hg, hok⟩ := forall₂_mem_left (mapM_eq_ok.mp hdefinitions) hm
  exact ⟨g, hok, (occurs_defining hg).append_right _⟩

theorem condition_occurs {q : Query} {f : Fragment} (h : c.assemble q = .ok f)
    {x : Condition Subquery} (hx : q.Renders c.engine x) :
    ∃ ss, (c.condition ss (x.map c.rendering)).Shows f.sql := by
  obtain ⟨g, hbody, hg⟩ := occurs_body h
  unfold body at hbody
  have hselect {r : Query} (hr : c.select (c.prepare r) [] = .ok g) :
      ∀ k ∈ r.rendered c.engine .select, c.Reaches f.sql (k.map c.rendering) := by
    refine reaches_rendered ?_
    rw [rendering_of]
    exact ⟨[], g, hr, hg⟩
  have hkinds {component : Component}
      (hk : ∀ k ∈ (c.prepare q).kinds c.engine component, c.Reaches g.sql k) :
      ∀ k ∈ q.kinds c.engine component, c.Reaches f.sql (k.map c.rendering) := by
    intro k hm
    refine (hk _ ?_).mono hg
    unfold prepare
    rw [Statement.kinds_map]
    exact List.mem_map_of_mem hm
  cases hx with
  | select hm hx =>
    rw [hm] at hbody
    exact renders_shows hx (hselect hbody)
  | aggregate hm hr hx =>
    rw [hm] at hbody
    obtain ⟨r, hr', hbody⟩ := SqlDialects.bind_eq_ok hbody
    rw [hr] at hr'
    cases hr'
    exact renders_shows hx (hselect hbody)
  | insert hm hk hb hx =>
    rw [hm] at hbody
    have hinsert := hkinds (insertText_reaches (Emit.outcome_of_toFragment hbody))
    exact renders_shows hx (reaches_rendered (parts_show (hinsert _ hk) hb))
  | change hm hx =>
    refine renders_shows hx (hkinds ?_)
    rcases hm with hm | hm | hm
    · rw [hm] at hbody
      exact updateText_reaches (Emit.outcome_of_toFragment hbody)
    · rw [hm] at hbody
      exact updateText_reaches (Emit.outcome_of_toFragment hbody)
    · rw [hm] at hbody
      exact deleteText_reaches (Emit.outcome_of_toFragment hbody)
  | cte hs hm hb hx =>
    obtain ⟨d, hd, hg⟩ := ctes_show h hs _ hm
    have hreach := (cteDefinition_parts hd hb).mono hg
    exact renders_shows hx (reaches_rendered hreach)

theorem condition_succeeds {q : Query} {f : Fragment} (h : c.assemble q = .ok f)
    {x : Condition Subquery} (hx : q.Renders c.engine x) :
    ∃ ss, (c.condition ss (x.map c.rendering)).Succeeds := by
  obtain ⟨ss, hshows⟩ := condition_occurs h hx
  exact ⟨ss, hshows.succeeds⟩

end Sound

end Compiler

end SqlDialects
