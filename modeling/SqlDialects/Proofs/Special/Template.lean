import SqlDialects.Proofs.Data.Kinds
import SqlDialects.Proofs.Insert.Header
import SqlDialects.Proofs.Scope.Lexical

/-!
What is written for values. The text of a condition around its values is the same whatever they are:
it is a template that is filled with SQL text as it stands and with a placeholder for any other
value.
-/

namespace SqlDialects

open Fragment

/-- What is written for a value: SQL text as it stands, for a variable a placeholder for what it is
defined as, and for any other value a placeholder for itself. -/
inductive Value.Writes (ss : Scopes) : Value → Fragment → Prop
  | raw (sql : String) : Writes ss (.raw sql) (ofText sql)
  | var {name : String} {d : Value} (h : ss.find? name = some d) : Writes ss (.var name) ⟨"?", [d]⟩
  | literal {v : Value} (h : v.isLiteral = true) : Writes ss v ⟨"?", [v]⟩

/-- What is written for the value of a pattern: SQL text is put into its form, and of any other
value the text in that form is bound. -/
inductive Value.WritesPattern (ss : Scopes) (form : String → String) : Value → Fragment → Prop
  | raw (sql : String) : WritesPattern ss form (.raw sql) (ofText (form sql))
  | bound {v d : Value} {text : String} (hv : ∀ sql, v ≠ .raw sql)
      (h : Compiler.resolve ss v = .ok d) (ht : d.text? = some text) :
      WritesPattern ss form v ⟨"?", [.string (form text)]⟩

def patternForm (operator : String) (caseSensitive : Bool) (text : String) : String :=
  let pattern := (likePattern operator text).2
  if caseSensitive then pattern else Text.lower pattern

variable {σ : Type}

def Predicate.Writes (ss : Scopes) : Predicate σ → Value → Fragment → Prop
  | like _ operator _ caseSensitive _ => Value.WritesPattern ss (patternForm operator caseSensitive)
  | _ => Value.Writes ss

/-- A text with places for values. -/
structure Template where
  front : String
  /-- The text behind each value. -/
  behind : List String
  /-- What is bound before the values. -/
  bound : List Value

def Template.fill (t : Template) (fs : List Fragment) : Fragment :=
  ⟨t.front ++ String.join (List.zipWith (fun f more => f.sql ++ more) fs t.behind),
    t.bound ++ fs.flatMap (·.bindings)⟩

theorem join_separated (separator close : String) (f : Fragment) (fs : List Fragment) :
    String.join (List.zipWith (fun f more => f.sql ++ more) (f :: fs)
        (List.replicate fs.length separator ++ [close])) =
      (joined separator (f :: fs)).sql ++ close := by
  induction fs generalizing f with
  | nil => simp [joined]
  | cons g fs ih =>
    rw [List.length_cons, List.replicate_succ, List.cons_append, List.zipWith_cons_cons,
      String.join_cons, ih]
    simp [joined, String.intercalate_cons_cons, String.append_assoc]

theorem exists_negate (isNot : Bool) :
    ∃ left right, ∀ sql, negate isNot sql = left ++ sql ++ right := by
  cases isNot with
  | false => exact ⟨"", "", fun sql => by simp [negate]⟩
  | true => exact ⟨"NOT (", ")", fun _ => rfl⟩

theorem Condition.rewrite_id (x : Condition σ) : x.rewrite id (fun _ n => n) = x := by
  have hkind := ClauseKind.map_eq_rewrite id (.condition x)
  rw [ClauseKind.map_id] at hkind
  exact (ClauseKind.condition.inj hkind).symm

namespace Compiler

variable {c : Compiler} {ss : Scopes} {v : Value} {f : Fragment}

theorem parameter_of_writes (h : v.Writes ss f) : c.parameter ss v = ⟨f.bindings, .ok f.sql⟩ := by
  cases h with
  | raw sql => rfl
  | var hd =>
    rw [parameter_of_not_raw (by rintro _ ⟨⟩), resolve_var hd, c.marker_eq]
    rfl
  | literal hl =>
    rw [parameter_of_not_raw (Value.ne_raw hl), resolve_literal hl, c.marker_eq]
    rfl

theorem writes_of_parameter {text : String} (h : (c.parameter ss v).outcome = .ok text) :
    ∃ f, v.Writes ss f := by
  cases v with
  | raw sql => exact ⟨_, .raw sql⟩
  | var name =>
    rw [parameter_of_not_raw (by rintro _ ⟨⟩)] at h
    cases hd : ss.find? name with
    | none =>
      rw [resolve_missing hd] at h
      cases h
    | some d => exact ⟨_, .var hd⟩
  | _ => exact ⟨_, .literal rfl⟩

theorem writes_of_parameters {vs : List Value} {text : String}
    (h : (c.parameters ss vs).outcome = .ok text) : ∃ fs, List.Forall₂ (Value.Writes ss) vs fs := by
  obtain ⟨texts, ht, -⟩ := Emit.bind_eq_ok h
  have hrendered := Emit.mapM_eq_ok ht
  clear ht h
  induction hrendered with
  | nil => exact ⟨[], .nil⟩
  | cons hv _ ih =>
    obtain ⟨f, hf⟩ := writes_of_parameter hv
    obtain ⟨fs, hfs⟩ := ih
    exact ⟨f :: fs, .cons hf hfs⟩

theorem parameters_of_writes {vs : List Value} {fs : List Fragment}
    (h : List.Forall₂ (Value.Writes ss) vs fs) :
    c.parameters ss vs = ⟨(joined ", " fs).bindings, .ok (joined ", " fs).sql⟩ := by
  have hmarkers : vs.mapM (c.parameter ss) =
      ⟨fs.flatMap (·.bindings), .ok (fs.map (·.sql))⟩ := by
    induction h with
    | nil => rfl
    | cons hv _ ih =>
      rw [List.mapM_cons, parameter_of_writes hv, ih]
      simp only [Emit.mk_ok_bind, Emit.bound_pure, Emit.outcome_pure, List.append_nil]
      rfl
  rw [parameters, hmarkers]
  simp only [Emit.mk_ok_bind, Emit.bound_pure, Emit.outcome_pure, List.append_nil]
  rfl

/-- A condition is a template, filled with what is written for its values. -/
structure Frames (c : Compiler) (ss : Scopes) (x : Condition Rendering) (t : Template) : Prop where
  places : t.behind.length = x.predicate.held.length
  fill : ∀ (f : Value → Value) (fs : List Fragment),
    List.Forall₂ (x.predicate.Writes ss) (x.predicate.held.map f) fs →
      (c.condition ss (x.rewrite f fun _ n => n)).toFragment = .ok (t.fill fs)

theorem Frames.condition {x : Condition Rendering} {t : Template} (h : c.Frames ss x t)
    {fs : List Fragment} (hfs : List.Forall₂ (x.predicate.Writes ss) x.predicate.held fs) :
    (c.condition ss x).toFragment = .ok (t.fill fs) := by
  have hfill := h.fill id fs (by rwa [List.map_id])
  rwa [Condition.rewrite_id] at hfill

theorem frames_none {x : Condition Rendering} (hx : x.predicate.held = []) {f : Fragment}
    (h : (c.condition ss x).toFragment = .ok f) : c.Frames ss x ⟨f.sql, [], f.bindings⟩ where
  places := by rw [hx]; rfl
  fill g fs hfs := by
    rw [hx] at hfs
    cases hfs
    have hsame : x.rewrite g (fun _ n => n) = x := by
      have hkind : (ClauseKind.condition x).rewrite g (fun _ n => n) =
          (ClauseKind.condition x).rewrite id fun _ n => n :=
        ClauseKind.rewrite_congr (by rw [ClauseKind.held, hx]; nofun) fun _ _ => rfl
      exact (ClauseKind.condition.inj hkind).trans x.rewrite_id
    rw [hsame, h]
    simp [Template.fill]

theorem frames_one {x : Condition Rendering} {v : Value} (hx : x.predicate.held = [v])
    (left right : String) (bound : List Value)
    (h : ∀ (f : Value → Value) (g : Fragment), x.predicate.Writes ss (f v) g →
      c.condition ss (x.rewrite f fun _ n => n) =
        ⟨bound ++ g.bindings, .ok (left ++ g.sql ++ right)⟩) :
    c.Frames ss x ⟨left, [right], bound⟩ where
  places := by rw [hx]; rfl
  fill f fs hfs := by
    rw [hx] at hfs
    cases hfs with
    | cons hg hnil =>
      cases hnil
      rw [Emit.toFragment_eq_ok, h f _ hg]
      simp [Template.fill, String.append_assoc]

theorem exists_datePart (c : Compiler) (ss : Scopes) (part column op : String) (isNot : Bool) :
    ∃ left right, ∀ v, c.datePart ss part column op v isNot = (do
      let marker ← c.parameter ss v
      return left ++ marker ++ right) := by
  obtain ⟨a, b, hnegate⟩ := exists_negate isNot
  have hplain (front back : String) : ∃ left right, ∀ v, (do
      let marker ← c.parameter ss v
      return negate isNot (front ++ marker ++ back)) = (do
      let marker ← c.parameter ss v
      return left ++ marker ++ right) := by
    refine ⟨a ++ front, back ++ b, fun v => congrArg (c.parameter ss v >>= ·) (funext fun m => ?_)⟩
    simp only [hnegate, String.append_assoc]
  have hend (front : String) : ∃ left right, ∀ v, (do
      let marker ← c.parameter ss v
      return negate isNot (front ++ marker)) = (do
      let marker ← c.parameter ss v
      return left ++ marker ++ right) := by
    obtain ⟨left, right, h⟩ := hplain front ""
    exact ⟨left, right, fun v => by simpa only [String.append_empty] using h v⟩
  unfold datePart basicDatePart
  dsimp only
  split
  · exact hend _
  · exact hend _
  · split
    · exact hplain _ " as text)"
    · exact ⟨c.engine.wrap column ++ " " ++ op ++ " ", "",
        fun v => by simp only [String.append_empty]⟩
  · exact hend _

theorem exists_like {operator op : String} (column : String) (caseSensitive : Bool)
    (escape : Option Char) (isNot : Bool)
    (hop : c.checkOperator (likePattern operator "").1 = .ok op) :
    ∃ left right, ∀ v g, v.WritesPattern ss (patternForm operator caseSensitive) g →
      c.like ss column operator v caseSensitive escape isNot =
        ⟨g.bindings, .ok (left ++ g.sql ++ right)⟩ := by
  obtain ⟨a, b, hnegate⟩ := exists_negate isNot
  have hop' (text : String) : c.checkOperator (likePattern operator text).1 = .ok op := by
    rw [likePattern_operator operator text "", hop]
  refine ⟨a ++ ((if caseSensitive then c.engine.wrap column
    else "LOWER(" ++ c.engine.wrap column ++ ")") ++ " " ++ op ++ " "),
    (escape.elim "" fun e => " ESCAPE '" ++ e.toString ++ "'") ++ b, fun v g hg => ?_⟩
  have htext : ∃ text, likeText ss v = .ok text ∧ c.likeOperand ss v
      (patternForm operator caseSensitive text) = ⟨g.bindings, .ok g.sql⟩ := by
    cases hg with
    | raw sql => exact ⟨sql, rfl, rfl⟩
    | @bound v d text hv hd ht =>
      refine ⟨text, ?_, ?_⟩
      · simp only [likeText, hd, bind, Except.bind, ht]
        rfl
      · rw [likeOperand_of_not_raw hv, c.marker_eq]
  obtain ⟨text, ht, hoperand⟩ := htext
  unfold patternForm at hoperand
  unfold like
  rw [ht, Emit.lift_ok_bind]
  dsimp only at hoperand ⊢
  rw [hop', Emit.lift_ok_bind, hoperand, Emit.mk_ok_bind]
  refine Emit.ext (List.append_nil _) (congrArg Except.ok ?_)
  rw [hnegate]
  cases escape <;> simp only [Option.elim, String.append_assoc, String.empty_append]

theorem writes_of_like {column operator sql : String} {caseSensitive isNot : Bool}
    {escape : Option Char}
    (h : (c.like ss column operator v caseSensitive escape isNot).outcome = .ok sql) :
    ∃ op f, c.checkOperator (likePattern operator "").1 = .ok op ∧
      v.WritesPattern ss (patternForm operator caseSensitive) f := by
  obtain ⟨text, ht, h⟩ := Emit.bind_eq_ok h
  obtain ⟨op, hop, -⟩ := Emit.bind_eq_ok h
  have hop : c.checkOperator (likePattern operator text).1 = .ok op := hop
  rw [likePattern_operator operator text ""] at hop
  by_cases hraw : ∀ sql, v ≠ .raw sql
  · have ht : likeText ss v = .ok text := ht
    unfold likeText at ht
    obtain ⟨d, hd, ht⟩ := SqlDialects.bind_eq_ok ht
    cases htext : d.text? with
    | none =>
      rw [htext] at ht
      cases ht
    | some text => exact ⟨op, _, hop, .bound hraw hd htext⟩
  · obtain ⟨sql, rfl⟩ := not_forall_not.mp hraw
    exact ⟨op, _, hop, .raw sql⟩

section Frame

variable {isOr isNot : Bool}

theorem exists_frame {x : Condition Rendering} (hx : x.predicate.held = [v])
    (hp : x.predicate.Writes ss = Value.Writes ss) (h : (c.condition ss x).Succeeds)
    (left right : String) (bound : List Value)
    (hparameter : ∀ f : Value → Value, c.condition ss (x.rewrite f fun _ n => n) = (do
      Emit.push bound
      let marker ← c.parameter ss (f v)
      return left ++ marker ++ right)) :
    ∃ t fs, c.Frames ss x t ∧ List.Forall₂ (x.predicate.Writes ss) x.predicate.held fs := by
  have hself := hparameter id
  rw [Condition.rewrite_id] at hself
  rw [hself] at h
  obtain ⟨sql, h⟩ := h
  obtain ⟨_, -, h⟩ := Emit.bind_eq_ok h
  obtain ⟨marker, hm, -⟩ := Emit.bind_eq_ok h
  obtain ⟨f, hf⟩ := writes_of_parameter hm
  refine ⟨_, [f], frames_one hx left right bound fun g w hw => ?_, ?_⟩
  · rw [hp] at hw
    rw [hparameter, parameter_of_writes hw, Emit.mk_ok_bind]
    exact Emit.ext (congrArg (bound ++ ·) (List.append_nil _)) rfl
  · rw [hx, hp]
    exact .cons hf .nil

theorem frames_compare {column operator : String} {value : Value}
    (h : (c.condition ss ⟨.compare column operator value, isOr, isNot⟩).Succeeds) :
    ∃ t fs, c.Frames ss ⟨.compare column operator value, isOr, isNot⟩ t ∧
      List.Forall₂ (Value.Writes ss) [value] fs := by
  obtain ⟨a, b, hnegate⟩ := exists_negate isNot
  obtain ⟨sql, hsql⟩ := h
  obtain ⟨op, hop, -⟩ := Emit.bind_eq_ok hsql
  have hop : c.checkOperator operator = .ok op := hop
  refine exists_frame rfl rfl ⟨sql, hsql⟩ (a ++ (c.engine.wrap column ++ " " ++ op ++ " ")) b []
    fun f => ?_
  show (do
    let op ← Emit.lift (c.checkOperator operator)
    let marker ← c.parameter ss (f value)
    return negate isNot (c.engine.wrap column ++ " " ++ op ++ " " ++ marker)) = _
  rw [hop, Emit.lift_ok_bind]
  simp only [hnegate, String.append_assoc]
  rfl

theorem frames_datePart {part column operator : String} {value : Value}
    (h : (c.condition ss ⟨.datePart part column operator value, isOr, isNot⟩).Succeeds) :
    ∃ t fs, c.Frames ss ⟨.datePart part column operator value, isOr, isNot⟩ t ∧
      List.Forall₂ (Value.Writes ss) [value] fs := by
  obtain ⟨sql, hsql⟩ := h
  obtain ⟨op, hop, -⟩ := Emit.bind_eq_ok hsql
  have hop : c.checkOperator operator = .ok op := hop
  obtain ⟨left, right, hpart⟩ := c.exists_datePart ss part column op isNot
  refine exists_frame rfl rfl ⟨sql, hsql⟩ left right [] fun f => ?_
  show (do
    let op ← Emit.lift (c.checkOperator operator)
    c.datePart ss part column op (f value) isNot) = _
  rw [hop, Emit.lift_ok_bind, hpart]
  rfl

theorem frames_queryAgainst {q : Rendering} {operator : String} {value : Value}
    (h : (c.condition ss ⟨.queryAgainst q operator value, isOr, isNot⟩).Succeeds) :
    ∃ t fs, c.Frames ss ⟨.queryAgainst q operator value, isOr, isNot⟩ t ∧
      List.Forall₂ (Value.Writes ss) [value] fs := by
  obtain ⟨a, b, hnegate⟩ := exists_negate isNot
  obtain ⟨sql, hsql⟩ := h
  obtain ⟨op, hop, hrest⟩ := Emit.bind_eq_ok hsql
  have hop : c.checkOperator operator = .ok op := hop
  obtain ⟨text, hembed, -⟩ := Emit.bind_eq_ok hrest
  obtain ⟨sub, hsub, -⟩ := Emit.embed_eq_ok hembed
  refine exists_frame rfl rfl ⟨sql, hsql⟩ (a ++ ("(" ++ sub.sql ++ ") " ++ op ++ " ")) b
    sub.bindings fun f => ?_
  show (do
    let op ← Emit.lift (c.checkOperator operator)
    let sub ← Emit.embed (q.select ss)
    let marker ← c.parameter ss (f value)
    return negate isNot ("(" ++ sub ++ ") " ++ op ++ " " ++ marker)) = _
  rw [hop, Emit.lift_ok_bind, hsub]
  simp only [hnegate, String.append_assoc]
  rfl

theorem frames_like {column operator : String} {value : Value} {caseSensitive : Bool}
    {escape : Option Char}
    (h : (c.condition ss
      ⟨.like column operator value caseSensitive escape, isOr, isNot⟩).Succeeds) :
    ∃ t fs, c.Frames ss ⟨.like column operator value caseSensitive escape, isOr, isNot⟩ t ∧
      List.Forall₂ (Value.WritesPattern ss (patternForm operator caseSensitive)) [value] fs := by
  obtain ⟨sql, h⟩ := h
  obtain ⟨op, f, hop, hf⟩ := writes_of_like h
  obtain ⟨left, right, hlike⟩ := exists_like column caseSensitive escape isNot hop
  exact ⟨_, [f], frames_one rfl left right [] fun g w hw => hlike (g value) w hw, .cons hf .nil⟩

theorem frames_oneOf {column : String} {first : Value} {rest : List Value}
    (h : (c.condition ss ⟨.oneOf column (first :: rest), isOr, isNot⟩).Succeeds) :
    ∃ t fs, c.Frames ss ⟨.oneOf column (first :: rest), isOr, isNot⟩ t ∧
      List.Forall₂ (Value.Writes ss) (first :: rest) fs := by
  have hlist (v : Value) (vs : List Value) :
      c.condition ss ⟨.oneOf column (v :: vs), isOr, isNot⟩ = (do
        let markers ← c.parameters ss (v :: vs)
        return c.engine.wrap column ++ " " ++ (if isNot then "NOT IN" else "IN") ++ " (" ++
          markers ++ ")") := rfl
  rw [hlist] at h
  obtain ⟨sql, h⟩ := h
  obtain ⟨markers, hm, -⟩ := Emit.bind_eq_ok h
  obtain ⟨fs, hfs⟩ := writes_of_parameters hm
  refine ⟨⟨c.engine.wrap column ++ " " ++ (if isNot then "NOT IN" else "IN") ++ " (",
    List.replicate rest.length ", " ++ [")"], []⟩, fs, ⟨?_, fun g fs hfs => ?_⟩, hfs⟩
  · simp [Predicate.held]
  · have hall : List.Forall₂ (Value.Writes ss) (g first :: rest.map g) fs := hfs
    rw [Emit.toFragment_eq_ok]
    show c.condition ss ⟨.oneOf column (g first :: rest.map g), isOr, isNot⟩ = _
    rw [hlist, parameters_of_writes hall, Emit.mk_ok_bind]
    cases hall with
    | @cons _ w _ ws _ hrest =>
      have hlength : rest.length = ws.length := by
        rw [← hrest.length_eq, List.length_map]
      refine Emit.ext (List.append_nil _) (congrArg Except.ok ?_)
      rw [Template.fill, hlength, join_separated]
      simp only [String.append_assoc]

theorem frames_between {column : String} {lower higher : Value}
    (h : (c.condition ss ⟨.between column lower higher, isOr, isNot⟩).Succeeds) :
    ∃ t fs, c.Frames ss ⟨.between column lower higher, isOr, isNot⟩ t ∧
      List.Forall₂ (Value.Writes ss) [lower, higher] fs := by
  obtain ⟨sql, h⟩ := h
  obtain ⟨low, hl, h⟩ := Emit.bind_eq_ok h
  obtain ⟨high, hh, -⟩ := Emit.bind_eq_ok h
  obtain ⟨f, hf⟩ := writes_of_parameter hl
  obtain ⟨f', hf'⟩ := writes_of_parameter hh
  refine ⟨⟨c.engine.wrap column ++ " " ++ (if isNot then "NOT BETWEEN" else "BETWEEN") ++ " ",
    [" AND ", ""], []⟩, [f, f'], ⟨rfl, fun g fs hfs => ?_⟩, .cons hf (.cons hf' .nil)⟩
  have hboth : List.Forall₂ (Value.Writes ss) [g lower, g higher] fs := hfs
  obtain ⟨w, _, hw, hrest, rfl⟩ := List.forall₂_cons_left_iff.mp hboth
  obtain ⟨w', _, hw', hnil, rfl⟩ := List.forall₂_cons_left_iff.mp hrest
  cases hnil
  rw [Emit.toFragment_eq_ok]
  show (do
    let low ← c.parameter ss (g lower)
    let high ← c.parameter ss (g higher)
    return c.engine.wrap column ++ " " ++ (if isNot then "NOT BETWEEN" else "BETWEEN") ++ " " ++
      low ++ " AND " ++ high) = _
  rw [parameter_of_writes hw, parameter_of_writes hw']
  simp only [Emit.mk_ok_bind]
  refine Emit.ext ?_ (congrArg Except.ok ?_)
  · simp [Template.fill]
  · simp [Template.fill, String.append_assoc]

end Frame

theorem condition_frames {x : Condition Rendering} (h : (c.condition ss x).Succeeds) :
    ∃ t fs, c.Frames ss x t ∧ List.Forall₂ (x.predicate.Writes ss) x.predicate.held fs := by
  by_cases hheld : x.predicate.held = []
  · obtain ⟨sql, h⟩ := h
    refine ⟨_, [], frames_none hheld (f := ⟨sql, (c.condition ss x).bound⟩) ?_, ?_⟩
    · exact Emit.toFragment_eq_ok.mpr (Emit.ext rfl h)
    · rw [hheld]
      exact .nil
  obtain ⟨p, isOr, isNot⟩ := x
  cases p with
  | compare column operator value => exact frames_compare h
  | like column operator value caseSensitive escape => exact frames_like h
  | datePart part column operator value => exact frames_datePart h
  | oneOf column values =>
    obtain ⟨first, rest, rfl⟩ := List.exists_cons_of_ne_nil (show values ≠ [] from hheld)
    exact frames_oneOf h
  | between column lower higher => exact frames_between h
  | queryAgainst q operator value => exact frames_queryAgainst h
  | _ => exact absurd rfl hheld

end Compiler

end SqlDialects
