import SqlDialects.Proofs.Operator.Vetted
import SqlDialects.Proofs.Outcome.Phases
import SqlDialects.Proofs.Twin.Compiled

/-!
Operators reach the SQL only if they are accepted, and to accept more of them changes nothing
that compiles already.
-/

namespace SqlDialects

/-- The same rendering, where nothing is said once an operator was rejected. -/
def acceptance : Tie where
  value := Eq
  bound := Eq
  vars := Eq
  scopes := Eq
  fault := Eq
  spared e := ∃ operator, e = .unsafeOperator operator

namespace Compiler

variable {c d : Compiler}

/-- The compilers differ in that the second one may accept more operators. -/
structure Widens (c d : Compiler) : Prop where
  engine : c.engine = d.engine
  paging : c.legacyPaging = d.legacyPaging
  markers : c.markerPrefix = d.markerPrefix
  operators : ∀ op ∈ c.operators, op ∈ d.operators

theorem widens_accept (c : Compiler) (added : List String) : c.Widens (c.accept added) where
  engine := rfl
  paging := rfl
  markers := rfl
  operators _ hop := mem_operators_accept.mpr (.inl hop)

theorem Widens.trans {b : Compiler} (h : c.Widens d) (h' : d.Widens b) : c.Widens b where
  engine := h.engine.trans h'.engine
  paging := h.paging.trans h'.paging
  markers := h.markers.trans h'.markers
  operators op hop := h'.operators op (h.operators op hop)

theorem widens_foldl_accept (c : Compiler) (added : List (List String)) :
    c.Widens (added.foldl accept c) := by
  induction added generalizing c with
  | nil => exact ⟨rfl, rfl, rfl, fun _ hop => hop⟩
  | cons operators added ih => exact (c.widens_accept operators).trans (ih (c.accept operators))

theorem Widens.checkOperator (h : c.Widens d) (operator : String) :
    acceptance.Yields Eq (c.checkOperator operator) (d.checkOperator operator) := by
  unfold Compiler.checkOperator
  by_cases ha : c.accepts (Text.lower operator) = true
  · have hd : d.accepts (Text.lower operator) = true := by
      rw [accepts_iff] at ha ⊢
      exact ha.imp_right (h.operators _)
    simp only [ha, hd, if_true]
    exact .ok rfl
  · have hspared : acceptance.spared (.unsafeOperator (Text.lower operator)) := ⟨_, rfl⟩
    simp only [ha]
    exact .spared hspared _

theorem parameter_eq (c d : Compiler) (ss : Scopes) (v : Value) :
    c.parameter ss v = d.parameter ss v := by
  have hmarker : c.marker = d.marker := by
    rw [marker_eq, marker_eq]
  cases v <;> simp only [parameter, hmarker]

theorem acceptance_refl {α : Type} (x : Emit α) : acceptance.Emits Eq x x :=
  .refl (fun _ => rfl) fun _ _ => rfl

theorem Widens.like (h : c.Widens d) (ss : Scopes) (column operator : String) (v : Value)
    (caseSensitive : Bool) (escape : Option Char) (isNot : Bool) :
    acceptance.Emits Eq (c.like ss column operator v caseSensitive escape isNot)
      (d.like ss column operator v caseSensitive escape isNot) := by
  have hoperand : c.likeOperand ss v = d.likeOperand ss v := by
    funext pattern
    unfold likeOperand
    rw [c.parameter_eq d]
  unfold Compiler.like
  rw [h.engine, hoperand]
  refine (acceptance_refl _).andThen fun text => ?_
  refine (h.checkOperator _).lift.andThen fun op => ?_
  exact acceptance_refl _

theorem Widens.holds (h : c.Widens d) : acceptance.Holds c d where
  engine := h.engine
  paging := h.paging
  fault _ := rfl
  uint _ := rfl
  noVars := rfl
  noScopes := rfl
  push := by
    rintro vs _ ss _ rfl rfl
    rfl
  operator := h.checkOperator
  parameter := by
    rintro ss _ v _ rfl rfl
    rw [c.parameter_eq d]
    exact acceptance_refl _
  like := by
    rintro ss _ v _ rfl rfl
    exact fun column operator caseSensitive escape isNot =>
      h.like ss column operator v caseSensitive escape isNot

theorem Widens.assemble (h : c.Widens d) {q : Query} {f : Fragment} (hf : c.assemble q = .ok f) :
    d.assemble q = .ok f := by
  have hsame : q.Alike acceptance d.engine (Subquery.Alike acceptance d.engine) q :=
    .refl (fun _ _ _ _ => rfl) (fun _ _ _ _ => rfl) rfl fun m _ =>
      .refl (fun _ => rfl) (fun _ => rfl) (fun _ => rfl) m
  have hassemble := h.holds.assemble hsame
  rw [hf] at hassemble
  generalize d.assemble q = y at hassemble ⊢
  cases hassemble with
  | ok hfg => exact congrArg Except.ok (hfg.eq rfl).symm

theorem Widens.compile (h : c.Widens d) {q : Query} {r : Compiled} (hr : c.compile q = .ok r) :
    d.compile q = .ok r := by
  have hname : d.markerName = c.markerName := by
    funext i
    rw [markerName, markerName, h.markers]
  obtain ⟨f, hf, rfl⟩ := compile_eq_ok.mp hr
  obtain ⟨whole, hwhole, hexpand⟩ := compileRaw_eq_ok.mp hf
  refine compile_eq_ok.mpr ⟨f, compileRaw_eq_ok.mpr ⟨whole, h.assemble hwhole, hexpand⟩, ?_⟩
  rw [nameMarkers, nameMarkers, marker_eq, marker_eq, hname]

/-- Every operator of a condition that is rendered, at any depth, is accepted, and stands in the
SQL of its condition in lower case; the forms of patterns stand there as `like`. Accepting more
operators, in any order and in any case, changes nothing that compiles. -/
theorem operators_accepted (c : Compiler) (q : Query) (r : Compiled) (h : c.compile q = .ok r) :
    (∀ x, q.Renders c.engine x → ∀ operator, x.predicate.operator? = some operator →
      ∃ scopes sql printed, (c.condition scopes (x.map c.rendering)).outcome = .ok sql ∧
        Stands printed sql ∧
        (printed = Text.lower operator ∧ (printed ∈ safeOperators ∨ printed ∈ c.operators) ∨
          x.predicate.isPattern = true ∧ printed = "like")) ∧
    ∀ added : List (List String), (added.foldl accept c).compile q = .ok r := by
  refine ⟨fun x hx operator ho => ?_, fun added => (c.widens_foldl_accept added).compile h⟩
  have hassemble : ∃ f, c.assemble q = .ok f := by
    unfold compile compileRaw at h
    obtain ⟨f, hf, -⟩ := SqlDialects.bind_eq_ok h
    obtain ⟨g, hg, -⟩ := SqlDialects.bind_eq_ok hf
    exact ⟨g, hg⟩
  obtain ⟨f, hf⟩ := hassemble
  obtain ⟨scopes, sql, hsql⟩ := condition_succeeds hf hx
  have ho' : (x.map c.rendering).predicate.operator? = some operator := by
    rw [← ho]
    exact Predicate.operator?_map _ _
  obtain ⟨printed, hstands, hvets⟩ := condition_vets hsql ho'
  refine ⟨scopes, sql, printed, hsql, hstands, ?_⟩
  rcases hvets with ⟨hlower, ha⟩ | ⟨hpattern, hlike⟩
  · exact .inl ⟨hlower, accepts_iff.mp ha⟩
  · refine .inr ⟨?_, hlike⟩
    rw [← hpattern]
    exact (Predicate.isPattern_map _ _).symm

def containsWord : Condition Subquery :=
  ⟨.like "name" "contains" (.string "ann") true none, false, false⟩

def groupOfPatterns : Query where
  clauses := [
    ⟨.source, none, .source (.table "users")⟩,
    ⟨.filter, none, .condition { predicate := .nested (.of {
      clauses := [⟨.filter, none, .condition containsWord⟩,
        ⟨.filter, none, .condition ⟨.compare "city" "~*" (.string "b"), true, false⟩⟩] }) }⟩]

theorem operators_accepted_group :
    ∃ r, (ofConfig .postgres { operators := ["~*"] }).compile groupOfPatterns = .ok r ∧
      r.rawSql = "SELECT * FROM \"users\" WHERE (\"name\" like ? OR \"city\" ~* ?)" ∧
      groupOfPatterns.Renders .postgres containsWord ∧
      (∃ sql printed, Stands printed sql ∧
        (printed = Text.lower "contains" ∧ (printed ∈ safeOperators ∨ printed ∈ ["~*"]) ∨
          containsWord.predicate.isPattern = true ∧ printed = "like")) ∧
      ([["Regexp"], ["!~"]].foldl accept (ofConfig .postgres { operators := ["~*"] })).compile
        groupOfPatterns = .ok r := by
  have hr : ∃ r, (ofConfig .postgres { operators := ["~*"] }).compile groupOfPatterns = .ok r ∧
      r.rawSql = "SELECT * FROM \"users\" WHERE (\"name\" like ? OR \"city\" ~* ?)" :=
    ⟨_, rfl, by decide +kernel⟩
  have hx : groupOfPatterns.Renders .postgres containsWord :=
    .select rfl (.inside (.tail _ (.head _)) (.head _) (.here (.head _)))
  obtain ⟨r, hr, hraw⟩ := hr
  obtain ⟨hall, hadded⟩ := operators_accepted (ofConfig .postgres { operators := ["~*"] })
    groupOfPatterns r hr
  obtain ⟨_, sql, printed, -, hprinted⟩ := hall containsWord hx "contains" rfl
  exact ⟨r, hr, hraw, hx, ⟨sql, printed, hprinted⟩, hadded [["Regexp"], ["!~"]]⟩

end Compiler

end SqlDialects
