import SqlDialects.Proofs.Quoting.Selects

/-!
The text of rendered conditions says what the conditions say. Chains are read link by link, and
groups by induction on their nesting.
-/

namespace SqlDialects

open Reading

namespace Reading

variable {α : Type} {e : Engine} {m : α → List Token}

def Shows (e : Engine) (m : α → List Token) (text : String)
    (t : Option (Formula α)) : Prop :=
  t.elim (text = "") fun t => ReadsFactor e text (t.map m)

def ShowsAll (e : Engine) (m : α → List Token) (text : String)
    (t : Option (Formula α)) : Prop :=
  t.elim (text = "") fun t => ReadsExpression e text (t.map m)

def ShowsLink (e : Engine) (m : α → List Token)
    (x : Condition Rendering × String) (o : Bool × Option (Formula α)) : Prop :=
  x.1.isOr = o.1 ∧ Shows e m x.2 o.2

def present (os : List (Bool × Option (Formula α))) : List (Bool × Formula α) :=
  os.filterMap fun o => o.2.map (o.1, ·)

theorem ReadsFactor.ne_empty {text : String} {t : Formula (List Token)}
    (h : ReadsFactor e text t) : text ≠ "" :=
  h.expression.ne_empty

/-- The rendered text behind the first condition that is there: each of the others goes with its
connector, and what is empty takes its connector with it. -/
theorem following_links {xs : List (Condition Rendering × String)}
    {os : List (Bool × Option (Formula α))} (h : List.Forall₂ (ShowsLink e m) xs os) :
    ∃ toks, Lexes e (Compiler.chain.following xs) toks ∧
      Apart (Compiler.chain.following xs).toList ∧
      Following e toks ((present os).map fun x => (x.1, x.2.map m)) := by
  -- Induction on the links that are still to come; those without text change nothing.
  induction h with
  | nil => exact ⟨[], lexes_empty e, by rintro _ ⟨⟩, following_nil⟩
  | @cons x o xs os hx _ ih =>
    obtain ⟨x, text⟩ := x
    obtain ⟨isOr, t⟩ := o
    obtain ⟨ho, ht⟩ := hx
    dsimp only at ho ht
    subst ho
    cases t with
    | none =>
      obtain rfl : text = "" := ht
      exact ih
    | some t =>
      have ht : ReadsFactor e text (t.map m) := ht
      obtain ⟨more, hmore, hapart, hfollowing⟩ := ih
      have hne := ht.ne_empty
      obtain ⟨toks, -, hlex, hfactor, -⟩ := ht
      have hword : Lexes e (if x.isOr then "OR" else "AND") [connector x.isOr] := by
        cases x.isOr with
        | false => exact lexes_keyword e "AND" (by decide)
        | true => exact lexes_keyword e "OR" (by decide)
      have hlink := (lexes_space (hword.spaced hlex)).append hmore hapart
      have htext : " " ++ ((if x.isOr then "OR" else "AND") ++ " " ++ text) ++
          Compiler.chain.following xs = Compiler.chain.following ((x, text) :: xs) := by
        rw [Compiler.following_cons_of_ne hne]
        cases x.isOr <;> simp [← String.toList_inj]
      rw [htext] at hlink
      refine ⟨_, hlink, ?_, following_cons hfactor hfollowing⟩
      rw [← htext, String.append_assoc]
      simp [Apart, stops]

theorem chain_links {xs : List (Condition Rendering × String)}
    {os : List (Bool × Option (Formula α))} (h : List.Forall₂ (ShowsLink e m) xs os) :
    ShowsAll e m (Compiler.chain xs) (Formula.chain (present os)) := by
  induction h with
  | nil => exact rfl
  | @cons x o xs os hx hrest ih =>
    obtain ⟨x, text⟩ := x
    obtain ⟨isOr, t⟩ := o
    obtain ⟨ho, ht⟩ := hx
    dsimp only at ho ht
    subst ho
    cases t with
    | none =>
      obtain rfl : text = "" := ht
      exact ih
    | some t =>
      have ht : ReadsFactor e text (t.map m) := ht
      obtain ⟨more, hmore, hapart, hfollowing⟩ := following_links hrest
      have hne := ht.ne_empty
      obtain ⟨toks, htoks, hlex, hfactor, hselect⟩ := ht
      have htext : text ++ Compiler.chain.following xs = Compiler.chain ((x, text) :: xs) :=
        (Compiler.chain_cons_of_ne hne x xs).symm
      have hread := expression_follow htoks hfactor hfollowing
      have hall := hlex.append hmore hapart
      rw [htext] at hall
      show ReadsExpression e _ ((t.follow (present os)).map m)
      rw [Formula.map_follow]
      refine ⟨_, by simp [htoks], hall, hread, ?_⟩
      rw [← htext]
      exact hselect.append _

theorem ShowsAll.eq_empty_iff {text : String} {t : Option (Formula α)} (h : ShowsAll e m text t) :
    text = "" ↔ t = none := by
  cases t with
  | none => exact iff_of_true h rfl
  | some t => exact iff_of_false (ReadsExpression.ne_empty h) (by simp)

theorem ShowsAll.read?_eq {text : String} {t : Option (Formula α)} (h : ShowsAll e m text t) :
    read? e text = some (t.map (Formula.map m)) := by
  cases t with
  | none =>
    obtain rfl : text = "" := h
    rfl
  | some t =>
    obtain ⟨toks, hne, hlex, hread, -⟩ : ReadsExpression e text (t.map m) := h
    have htokens := hlex.tokens_eq
    rw [read?, htokens]
    exact readTokens?_eq hne hread

theorem ShowsAll.group {text : String} {t : Option (Formula α)} (h : ShowsAll e m text t)
    (isNot : Bool) :
    Shows e m (if text.isEmpty then "" else (if isNot then "NOT (" else "(") ++ text ++ ")")
      (if isNot then t.map .not else t) := by
  cases t with
  | none =>
    obtain rfl : text = "" := h
    cases isNot <;> rfl
  | some t =>
    have h : ReadsExpression e text (t.map m) := h
    rw [if_neg (by simpa using h.ne_empty)]
    cases isNot with
    | false => exact h.group
    | true => exact h.negate

end Reading

theorem bare_of_plainWord {w : String} (h : PlainWord w.toList) : Text.Bare w := by
  have hall : Text.structural.all (!isWordChar ·) = true := by decide
  intro c hc hm
  have hmark := List.all_eq_true.mp hall c hm
  rw [List.all_eq_true.mp h.2.1 c hc] at hmark
  cases hmark

namespace Compiler

variable {c : Compiler} {ss : Scopes}

theorem selectTerms_le (c : Compiler) : c.selectTerms.Le c.harmless where
  name _ hn := hn
  orderName _ hn := hn
  operator operator ho op hop := by
    have hbare : ∀ op ∈ comparing, Text.Bare op := by decide
    rw [(checkOperator_eq_ok hop).1]
    exact hbare _ ho
  datePart part hp := by
    have hbare := bare_of_plainWord hp.1
    have hmem : '\'' ∉ (Text.upper part).toList := quote_not_mem_word hp.1
    show c.engine.HoldsPart part
    unfold Engine.HoldsPart
    cases c.engine with
    | sqlite => trivial
    | postgres => exact .inr (.inr (Engine.within_of_not_mem hmem))
    | _ => exact Engine.spans_bare hbare
  function _ hf := hf
  seed _ hs := hs
  escape _ he := he
  value _ hv := hv
  raw _ _ h := h.elim

theorem atom_shows {p : Predicate Subquery} (hn : ∀ q, p ≠ .nested q)
    (hp : p.Obeys (plainTerms c.engine) (Subquery.Obeys c.selectTerms)) {isOr isNot : Bool}
    {sql : String} (h : (c.condition ss ⟨p.map c.rendering, isOr, isNot⟩).outcome = .ok sql) :
    Shows c.engine (c.atom ss) sql
      (Condition.formula? id (Subquery.formula? c.engine) ⟨p, isOr, isNot⟩) := by
  have hspans : p.Obeys (plainTerms c.engine) (c.SelectSpans ss) :=
    ClauseKind.Obeys.imp (k := .condition ⟨p, isOr, isNot⟩) hp fun n _ hn f hf =>
      (spans_rendering n (Subquery.Obeys.mono c.selectTerms_le n hn)).select ss f hf
  obtain ⟨text, ⟨toks, hreads, hfactor⟩, hall⟩ := condition_readsBoth hn hspans h
  obtain rfl : text isNot = sql := Except.ok.inj ((hall isOr isNot).symm.trans h)
  have hatom : c.atom ss p = toks := by
    rw [atom, hall false false]
    show (tokens c.engine (text false)).getD [] = toks
    rw [hreads.lexes.tokens_eq]
    rfl
  have hleaf : p.formula? id (Subquery.formula? c.engine) = some (.leaf p) := by
    cases p with
    | nested q => exact absurd rfl (hn q)
    | _ => rfl
  have hfactor := hfactor isNot
  rw [← hatom] at hfactor
  rw [Condition.formula?, hleaf]
  cases isNot <;> exact hfactor

theorem links_of_mapM {xs : List (Condition Subquery)} {parts : List String}
    (hx : ∀ x ∈ xs, ∀ sql, (c.condition ss (x.map c.rendering)).outcome = .ok sql →
      Shows c.engine (c.atom ss) sql (x.formula? id (Subquery.formula? c.engine)))
    (h : ((xs.map (·.map c.rendering)).mapM (c.condition ss)).outcome = .ok parts) :
    List.Forall₂ (ShowsLink c.engine (c.atom ss)) ((xs.map (·.map c.rendering)).zip parts)
      (xs.map fun x => (x.isOr, x.formula? id (Subquery.formula? c.engine))) := by
  replace h := Emit.mapM_eq_ok h
  induction xs generalizing parts with
  | nil => exact .nil
  | cons x xs ih =>
    cases h with
    | cons hfirst hrest =>
      exact .cons ⟨rfl, hx x List.mem_cons_self _ hfirst⟩
        (ih (fun y hy => hx y (List.mem_cons_of_mem _ hy)) hrest)

theorem conditions_show {xs : List (Condition Subquery)}
    (hx : ∀ x ∈ xs, ∀ sql, (c.condition ss (x.map c.rendering)).outcome = .ok sql →
      Shows c.engine (c.atom ss) sql (x.formula? id (Subquery.formula? c.engine)))
    {text : String} (h : (c.conditions ss (xs.map (·.map c.rendering))).outcome = .ok text) :
    ShowsAll c.engine (c.atom ss) text (conditionFormula? c.engine xs) := by
  obtain ⟨parts, hparts, h⟩ := Emit.bind_eq_ok h
  cases h
  have hchain := chain_links (links_of_mapM hx hparts)
  rw [present, List.filterMap_map] at hchain
  exact hchain

theorem condition_shows {x : Condition Subquery} (hx : x.Plain c) {sql : String}
    (h : (c.condition ss (x.map c.rendering)).outcome = .ok sql) :
    Shows c.engine (c.atom ss) sql (x.formula? id (Subquery.formula? c.engine)) := by
  -- Induction on the nesting of groups; the conditions of a group are a list of their own.
  induction hx generalizing sql with
  | atom hn hp => exact atom_shows hn hp h
  | @group q isOr isNot _ ih =>
    obtain ⟨text, htext, h⟩ := Emit.bind_eq_ok h
    cases h
    rw [rendering_of] at htext
    obtain ⟨ys, hys, htext⟩ := Emit.bind_eq_ok htext
    have hys := Statement.conditionsFor_of_getAll hys
    rw [prepare, Statement.conditionsFor_map] at hys
    subst hys
    have hall := conditions_show (fun x hm _ hsql => ih x hm hsql) htext
    rw [← Subquery.formula?_of] at hall
    exact hall.group isNot

/-- The text of conditions reads, with the precedence of SQL, as exactly what the conditions say,
and it is empty just when they say nothing. -/
theorem conditions_read (c : Compiler) (scopes : Scopes) (xs : List (Condition Subquery))
    (hx : ∀ x ∈ xs, x.Plain c) (text : String)
    (h : (c.conditions scopes (xs.map (·.map c.rendering))).outcome = .ok text) :
    read? c.engine text =
        some ((conditionFormula? c.engine xs).map (Formula.map (c.atom scopes))) ∧
      (text = "" ↔ conditionFormula? c.engine xs = none) := by
  have hshows := conditions_show (fun x hm _ hsql => condition_shows (hx x hm) hsql) h
  exact ⟨hshows.read?_eq, hshows.eq_empty_iff⟩

def markedSelect : Subquery := .of {
  clauses := [⟨.source, none, .source (.table "vip)s\x60('")⟩,
    ⟨.order, none, .order (.random "42")⟩] }

def lateOrders : List (Condition Subquery) :=
  [⟨.nested (.of {}), false, true⟩,
    ⟨.compare "paid" "=" (.bool false), true, false⟩,
    ⟨.nested (.of { clauses := [
      ⟨.filter, none, .condition ⟨.between "due" (.int 1) (.int 9), false, true⟩⟩,
      ⟨.filter, some .postgres, .condition ⟨.isNull "due", false, false⟩⟩,
      ⟨.filter, none, .condition ⟨.oneOfQuery "buyer" markedSelect, true, false⟩⟩] }),
      false, true⟩]

def lateOrdersText : String :=
  "\x60paid\x60 = ? AND NOT (\x60due\x60 NOT BETWEEN ? AND ? OR \x60buyer\x60 IN " ++
    "(SELECT * FROM \x60vip)s\x60\x60('\x60 ORDER BY RAND(42)))"

theorem conditions_read_lateOrders :
    ((ofEngine .mySql).conditions []
        (lateOrders.map (·.map (ofEngine .mySql).rendering))).outcome = .ok lateOrdersText ∧
      read? .mySql lateOrdersText = some ((conditionFormula? .mySql lateOrders).map
        (Formula.map ((ofEngine .mySql).atom []))) := by
  have hselect : markedSelect.Obeys (ofEngine .mySql).selectTerms := by
    rw [markedSelect, Subquery.obeys_of]
    refine ⟨by rintro _ ⟨⟩, ?_⟩
    simp only [List.forall_mem_cons]
    exact ⟨trivial, fun _ => Engine.spans_bare (by decide), by simp⟩
  have hplain : ∀ x ∈ lateOrders, x.Plain (ofEngine .mySql) := by
    have hvalue {v : Value} (h : v = .bool false ∨ v = .int 1 ∨ v = .int 9) (sql : String) :
        v ≠ .raw sql := by
      rcases h with rfl | rfl | rfl <;> simp
    simp only [lateOrders, List.forall_mem_cons]
    refine ⟨.group fun x hx => ?_, .atom (by simp) ⟨trivial, ?_, hvalue (by simp)⟩,
      .group fun x hx => ?_, by simp⟩
    · cases hx
    · exact (by decide +kernel : Text.lower "=" ∈ comparing)
    · rcases List.mem_cons.mp hx with rfl | hx
      · exact .atom (by simp) ⟨trivial, hvalue (by simp), hvalue (by simp)⟩
      · obtain rfl := List.mem_singleton.mp hx
        exact .atom (by simp) ⟨trivial, hselect⟩
  have htext : ((ofEngine .mySql).conditions []
      (lateOrders.map (·.map (ofEngine .mySql).rendering))).outcome = .ok lateOrdersText := rfl
  exact ⟨htext, (conditions_read (ofEngine .mySql) [] lateOrders hplain _ htext).1⟩

/-- A single condition with plain terms, also in its select, whose text reads as two. -/
def ReadsAsTwo (c : Compiler) (p : Predicate Subquery) : Prop :=
  p.Obeys (plainTerms c.engine) (Subquery.Obeys (plainTerms c.engine)) ∧
    conditionFormula? c.engine [⟨p, false, false⟩] = some (.leaf p) ∧
    ∃ text, (c.conditions [] [⟨p.map c.rendering, false, false⟩]).outcome = .ok text ∧
      (read? c.engine text).map (Option.map (Formula.map fun _ => ())) =
        some (some (.or (.leaf ()) (.leaf ())))

def inVips (clauses : List (Clause Subquery)) : Predicate Subquery :=
  .oneOfQuery "buyer" (.of { clauses := ⟨.source, none, .source (.table "vips")⟩ :: clauses })

/-- Seeds and functions are written out as they are, and a name whose braces are taken for quotes is
cut in two. -/
theorem selects_readAsTwo :
    ReadsAsTwo (ofEngine .mySql) (inVips [⟨.order, none, .order (.random "1)) OR ((id = 1")⟩]) ∧
    ReadsAsTwo (ofEngine .postgres)
      (inVips [⟨.aggregate, none, .aggregate ⟨"id FROM a) OR (max", ["x"]⟩⟩]) ∧
    ReadsAsTwo (ofEngine .sqlServer)
      (inVips [⟨.order, none, .order (.column "a\x7d))) OR x IN (f(g(\x7bb" true)⟩,
        ⟨.offset, none, .offset 1⟩]) := by
  have hplain {e : Engine} {clauses : List (Clause Subquery)}
      (h : ∀ x ∈ clauses, x.kind.Obeys (plainTerms e) (Subquery.Obeys (plainTerms e))) :
      (inVips clauses).Obeys (plainTerms e) (Subquery.Obeys (plainTerms e)) := by
    refine ⟨trivial, ?_⟩
    rw [Subquery.obeys_of]
    exact ⟨by rintro _ ⟨⟩, List.forall_mem_cons.mpr ⟨trivial, h⟩⟩
  refine ⟨⟨hplain ?_, rfl, _, rfl, by decide +kernel⟩, ⟨hplain ?_, rfl, _, rfl, by decide +kernel⟩,
    ⟨hplain ?_, rfl, _, rfl, by decide +kernel⟩⟩
  all_goals simp [ClauseKind.Obeys, Order.Obeys, Aggregate.Obeys, plainTerms]

end Compiler

end SqlDialects
