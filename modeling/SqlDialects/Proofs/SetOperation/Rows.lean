import SqlDialects.Proofs.Paging.Selects
import SqlDialects.Proofs.Placeholder.Alignment
import SqlDialects.Proofs.Reading.Operands
import SqlDialects.Proofs.SetOperation.Grouping
import SqlDialects.Statement.Step

/-!
The rows of set operations between tables. The SQL is a chain of selects without parentheses, so it
gives the rows of the tree that SQL reads in the chain. These are the rows of the tree that it is
compiled from where no more is regrouped than INTERSECTs or UNIONs of one kind.
-/

namespace SqlDialects

namespace Reading

variable {e : Engine}

def setOperation? (t : Token) : Option SetOperation :=
  SetOperation.all.find? fun operation => t = .word operation.keyword.toList

def splitAll : List Token → Bool × List Token
  | [] => (false, [])
  | t :: rest => if t = .word "ALL".toList then (true, rest) else (false, t :: rest)

def splitSets : List Token → SetChain (List Token)
  | [] => ⟨[], []⟩
  | t :: rest =>
    let later := splitSets rest
    match setOperation? t with
    | none => ⟨t :: later.first, later.links⟩
    | some operation =>
      ⟨[], ⟨operation, (splitAll later.first).1, (splitAll later.first).2⟩ :: later.links⟩

def selectAll : List Token := [.word "SELECT".toList, .sign '*', .word "FROM".toList]

def tableOf? (select : List Token) : Option (List Token) :=
  let table := select.drop selectAll.length
  if selectAll.isPrefixOf select && table ≠ [] && table.all Token.inName then some table else none

/-- The rows that the SQL of set operations between tables gives, from the rows of the tables. -/
def setRows? {α : Type} [DecidableEq α] (e : Engine) (rows : List Token → Multiset α)
    (sql : String) : Option (Multiset α) := do
  let toks ← tokens e sql
  let tables ← (splitSets toks).mapM tableOf?
  return tables.tree.rows rows

def reference (e : Engine) (name : String) : List Token := (tokens e (e.wrap name)).getD []

theorem reference_spec (e : Engine) (name : String) :
    IsName (reference e name) ∧ Lexes e (e.wrap name) (reference e name) := by
  obtain ⟨toks, hname, hlex, -⟩ := lexes_wrap e name
  rw [reference, hlex.tokens_eq]
  exact ⟨hname, hlex⟩

theorem setOperation?_keyword (operation : SetOperation) :
    setOperation? (.word operation.keyword.toList) = some operation := by
  cases operation <;> decide

theorem setOperation?_inName {t : Token} (h : t.inName = true) : setOperation? t = none := by
  unfold Token.inName at h
  split at h
  · rfl
  · simp only [Bool.or_eq_true, decide_eq_true_eq] at h
    rcases h with (rfl | rfl) | rfl <;> decide

theorem splitSets_of_none {toks : List Token} (h : ∀ t ∈ toks, setOperation? t = none) :
    splitSets toks = ⟨toks, []⟩ := by
  induction toks with
  | nil => rfl
  | cons t toks ih =>
    rw [splitSets, h t List.mem_cons_self, ih fun u hu => h u (List.mem_cons_of_mem _ hu)]

theorem splitSets_append {toks rest : List Token} {t : Token} {operation : SetOperation}
    (h : setOperation? t = some operation) :
    splitSets (toks ++ t :: rest) = ⟨(splitSets toks).first, (splitSets toks).links ++
      ⟨operation, (splitAll (splitSets rest).first).1, (splitAll (splitSets rest).first).2⟩ ::
        (splitSets rest).links⟩ := by
  induction toks with
  | nil => simp [splitSets, h]
  | cons u toks ih =>
    rw [List.cons_append, splitSets, splitSets, ih]
    cases setOperation? u <;> rfl

theorem splitSets_selectAll (name : String) :
    splitSets (selectAll ++ reference e name) = ⟨selectAll ++ reference e name, []⟩ := by
  refine splitSets_of_none fun t ht => ?_
  rcases List.mem_append.mp ht with ht | ht
  · have hall : ∀ u ∈ selectAll, setOperation? u = none := by decide
    exact hall t ht
  · exact setOperation?_inName ((reference_spec e name).1.2 t ht)

theorem tableOf?_selectAll (e : Engine) (name : String) :
    tableOf? (selectAll ++ reference e name) = some (reference e name) := by
  obtain ⟨⟨⟨t, rest, hne, -⟩, hall⟩, -⟩ := reference_spec e name
  have hstart : selectAll.isPrefixOf (selectAll ++ reference e name) = true :=
    List.isPrefixOf_iff_prefix.mpr (List.prefix_append _ _)
  have hnames : (reference e name).all Token.inName = true := List.all_eq_true.mpr hall
  rw [tableOf?, List.drop_left, hstart, hnames, hne]
  rfl

end Reading

open Reading

namespace SetTree

def query : SetTree String → Query
  | leaf name => Query.table name
  | node operation all l r => l.query.apply (.combineQuery operation all r.query)

theorem query_eq (t : SetTree String) : { t.query with clauses := [] } = ({} : Query) := by
  induction t with
  | leaf name => rfl
  | node operation all l r ihl _ => exact ihl

theorem bucket_query (t : SetTree String) {component : Component} (h : component ≠ .combine)
    (engine : Option Engine) :
    t.query.bucket component engine = (Query.table t.chain.first).bucket component engine := by
  induction t with
  | leaf name => rfl
  | node operation all l r ihl _ => exact (l.query.bucket_add_of_ne h _ engine).trans ihl

def sql (e : Engine) : SetTree String → String
  | leaf name => "SELECT *" ++ " " ++ ("FROM " ++ e.wrap name)
  | node operation all l r =>
    l.sql e ++ " " ++ (operation.keyword ++ " " ++ (if all then "ALL " else "") ++ r.sql e)

def tokens (e : Engine) : SetTree String → List Token
  | leaf name => selectAll ++ reference e name
  | node operation all l r => l.tokens e ++
      .word operation.keyword.toList :: ((if all then [.word "ALL".toList] else []) ++ r.tokens e)

variable {e : Engine}

theorem lexes_sql (e : Engine) (t : SetTree String) : Lexes e (t.sql e) (t.tokens e) := by
  have hword (w : String) (hw : w.toList ≠ [] ∧ w.toList.all isWordChar = true) :
      Lexes e w [.word w.toList] :=
    lexes_word e w hw.1 hw.2
  induction t with
  | leaf name =>
    have hstar : Lexes e "SELECT *" [.word "SELECT".toList, .sign '*'] :=
      lexes_plain e "SELECT *" (by decide)
    have htable : Lexes e ("FROM " ++ e.wrap name)
        ([.word "FROM".toList] ++ reference e name) :=
      (hword "FROM" (by decide)).spaced (reference_spec e name).2
    exact hstar.spaced htable
  | node operation all l r ihl ihr =>
    have hkeyword := hword operation.keyword (by cases operation <;> decide)
    cases all with
    | true =>
      have htext : operation.keyword ++ " " ++ "ALL " ++ r.sql e =
          operation.keyword ++ " " ++ ("ALL" ++ " " ++ r.sql e) := by
        simp [← String.toList_inj]
      have hlex := ihl.spaced (hkeyword.spaced ((hword "ALL" (by decide)).spaced ihr))
      rw [← htext] at hlex
      exact hlex
    | false =>
      have hlex := ihl.spaced (hkeyword.spaced ihr)
      rw [← String.append_empty (s := operation.keyword ++ " ")] at hlex
      exact hlex

theorem splitSets_tokens (e : Engine) (t : SetTree String) :
    splitSets (t.tokens e) = t.chain.map fun name => selectAll ++ reference e name := by
  induction t with
  | leaf name => exact splitSets_selectAll name
  | node operation all l r ihl ihr =>
    rw [tokens, splitSets_append (setOperation?_keyword operation), ihl]
    cases all with
    | true =>
      have hall : splitSets ([.word "ALL".toList] ++ r.tokens e) =
          ⟨.word "ALL".toList :: (splitSets (r.tokens e)).first, (splitSets (r.tokens e)).links⟩ :=
        rfl
      rw [if_pos rfl, hall, ihr]
      simp [splitAll, chain, SetChain.join, SetChain.map, SetLink.map]
    | false =>
      rw [if_neg (by decide), List.nil_append, ihr]
      simp [splitAll, selectAll, chain, SetChain.join, SetChain.map, SetLink.map]

/-- The SQL gives the rows of the tree that is read in it. -/
theorem setRows?_sql {α : Type} [DecidableEq α] (e : Engine) (t : SetTree String)
    (rows : List Token → Multiset α) :
    setRows? e rows (t.sql e) = some (t.regrouped.rows (rows ∘ reference e)) := by
  have htables := SetChain.mapM_map (tableOf?_selectAll e) t.chain
  rw [setRows?, (lexes_sql e t).tokens_eq, Option.bind_eq_bind, Option.bind_some, splitSets_tokens,
    htables, Option.bind_eq_bind, Option.bind_some, tree_map, rows_map]
  rfl

theorem unmarked_sql_iff (e : Engine) (t : SetTree String) :
    Text.Unmarked (t.sql e) ↔ ∀ name ∈ t.operands, Text.Unmarked (e.wrap name) := by
  induction t with
  | leaf name => simp [sql, operands, Text.Unmarked]
  | node operation all l r ihl ihr =>
    have hwords : '?' ∉ (operation.keyword ++ " " ++ if all then "ALL " else "").toList := by
      cases operation <;> cases all <;> decide
    simp only [Text.Unmarked] at ihl ihr hwords ⊢
    simp only [String.toList_append, List.mem_append, not_or] at hwords
    simp [sql, operands, or_imp, forall_and, ihl, ihr, hwords]

end SetTree

namespace Compiler

variable {c : Compiler} {q : Statement Rendering} {ss : Scopes}

theorem combinations_add (h : q.addsFor c.engine = true) (x : Combine Rendering) :
    c.combinations ss (q.add .combine (.combine x)) = (do
      let found ← c.combinations ss q
      let text ← c.combination ss x
      return some (found.elim text (· ++ " " ++ text))) := by
  have hkind : (ClauseKind.combine x).combine? = some x := rfl
  have hone : [x].mapM (c.combination ss) = (do
      let text ← c.combination ss x
      return [text]) := by
    simp only [List.mapM_cons, List.mapM_nil, pure_bind]
  rw [combinations, combinations, Statement.getAll_add_self h .combine hkind]
  cases q.getAll .combine ClauseKind.combine? (some c.engine) with
  | error e => rfl
  | ok xs =>
    simp only [Except.map, Emit.lift_ok_bind, List.mapM_append, hone, bind_assoc, pure_bind]
    cases xs with
    | nil => simp
    | cons y ys =>
      rw [if_neg (by simp), if_neg (by simp)]
      simp only [bind_assoc, pure_bind, Option.elim_some]
      generalize hm : (y :: ys).mapM (c.combination ss) = texts
      obtain ⟨bound, outcome⟩ := texts
      cases outcome with
      | error e => rfl
      | ok texts =>
        have hne : texts ≠ [] := by
          rintro rfl
          have hlength := (Emit.mapM_eq_ok (congrArg Emit.outcome hm)).length_eq
          simp at hlength
        have hlast (text : String) : " ".intercalate (texts ++ [text]) =
            " ".intercalate texts ++ " " ++ text := by
          rw [String.intercalate_append_of_ne_nil hne (by simp), String.intercalate_singleton]
        simp only [Emit.mk_ok_bind, hlast]

theorem trailing_elim {found : Option String} (hf : found ≠ some "") {text : String}
    (ht : text ≠ "") :
    trailing [some (found.elim text (· ++ " " ++ text))] = trailing [found] ++ " " ++ text := by
  cases found with
  | none => rw [Option.elim_none, trailing_some ht, trailing_none, String.empty_append]
  | some before =>
    have hb : before ≠ "" := fun hb => hf (congrArg some hb)
    rw [Option.elim_some, trailing_some (by simp), trailing_some hb]
    simp only [String.append_assoc]

section Trees

variable {t : SetTree String} {outer : Scopes}

theorem select_query_of_combinations {tail : Option String}
    (h : c.combinations ([] :: outer) (c.prepare t.query) = pure tail) :
    c.select (c.prepare t.query) outer = .ok ⟨"SELECT *" ++ " " ++
      ("FROM " ++ c.engine.wrap t.chain.first) ++ trailing [tail], []⟩ := by
  have hbucket {component : Component} (hc : component ≠ .combine) :
      (c.prepare t.query).bucket component (some c.engine) =
        (c.prepare (Query.table t.chain.first)).bucket component (some c.engine) := by
    rw [prepare, prepare, Statement.bucket_map, Statement.bucket_map, t.bucket_query hc]
  have hvars : (c.prepare t.query).vars = [] := congrArg Statement.vars t.query_eq
  have hdistinct : (c.prepare t.query).distinct = false := congrArg Statement.distinct t.query_eq
  have hwindow : (c.prepare t.query).window (some c.engine) = .ok ⟨0, 0⟩ :=
    (Statement.window_congr (hbucket (by decide)) (hbucket (by decide))).trans rfl
  have hcolumns : c.columns ([] :: outer) (c.prepare t.query) = pure "SELECT *" := by
    rw [columns_eq_basic hwindow (.inr (.inl rfl))]
    exact (basicColumns_congr hdistinct (hbucket (by decide)) (hbucket (by decide))).trans rfl
  have hmiddle : c.middle ([] :: outer) (c.prepare t.query) =
      pure [some ("FROM " ++ c.engine.wrap t.chain.first), none, none, none, none] :=
    (middle_congr fun component hm => hbucket (by rintro rfl; exact absurd hm (by decide))).trans
      rfl
  have horders : c.orders (c.prepare t.query) = pure none :=
    (orders_congr (hbucket (by decide))).trans rfl
  have hparts (table : String) (ht : table ≠ "") :
      joinParts (some "SELECT *" :: ([some table, none, none, none, none] ++ [none, none, tail])) =
        "SELECT *" ++ " " ++ table ++ trailing [tail] := by
    have htrailing : trailing ([some table, none, none, none, none] ++ [none, none, tail]) =
        " " ++ table ++ trailing [tail] := by
      rw [trailing, List.cons_append, filterMap_cons_text ht, List.map_cons, String.join_cons]
      rfl
    rw [joinParts_cons (by decide), htrailing]
    simp only [String.append_assoc]
  rw [c.select_of_noOffset (Statement.window_eq_ok hwindow).2, basicSelect, hvars, selectText_eq,
    hcolumns, hmiddle, horders, page_of_noWindow hwindow, h]
  simp only [pure_bind, hparts _ (show "FROM " ++ c.engine.wrap t.chain.first ≠ "" by simp)]
  rfl

theorem combinations_query (t : SetTree String) (ss : Scopes) :
    ∃ tail, tail ≠ some "" ∧ c.combinations ss (c.prepare t.query) = pure tail ∧
      t.sql c.engine = "SELECT *" ++ " " ++ ("FROM " ++ c.engine.wrap t.chain.first) ++
        trailing [tail] := by
  induction t generalizing ss with
  | leaf name =>
    refine ⟨none, by simp, rfl, ?_⟩
    rw [trailing_none, String.append_empty]
    rfl
  | node operation all l r ihl ihr =>
    obtain ⟨before, hne, hbefore, hl⟩ := ihl ss
    have hselect (outer : Scopes) :
        c.select (c.prepare r.query) outer = .ok ⟨r.sql c.engine, []⟩ := by
      obtain ⟨tail, -, htail, hr⟩ := ihr ([] :: outer)
      rw [select_query_of_combinations htail, hr]
    let text := operation.keyword ++ " " ++ (if all then "ALL " else "") ++ r.sql c.engine
    have htext : text ≠ "" := by simp [text]
    have hcombination : c.combination ss (.query operation all (c.rendering (.of r.query))) =
        pure text := by
      have hsub : (c.rendering (.of r.query)).select ss = .ok ⟨r.sql c.engine, []⟩ := by
        rw [rendering_of]
        exact hselect ss
      rw [combination, hsub]
      rfl
    have hprepare : c.prepare (SetTree.node operation all l r).query = (c.prepare l.query).add
        .combine (.combine (.query operation all (c.rendering (.of r.query)))) :=
      Statement.map_add _ _ _ _
    have hadds : (c.prepare l.query).addsFor c.engine = true := by
      have hscope : (c.prepare l.query).scope = none := congrArg Statement.scope l.query_eq
      rw [Statement.addsFor, hscope]
      rfl
    refine ⟨some (before.elim text (· ++ " " ++ text)), ?_, ?_, ?_⟩
    · cases before <;> simp [htext]
    · rw [hprepare, combinations_add hadds, hbefore, hcombination]
      simp only [pure_bind]
    · rw [SetTree.sql, hl, trailing_elim hne htext]
      simp only [SetTree.chain, SetChain.join, String.append_assoc, text]

theorem select_query (t : SetTree String) (outer : Scopes) :
    c.select (c.prepare t.query) outer = .ok ⟨t.sql c.engine, []⟩ := by
  obtain ⟨tail, -, htail, ht⟩ := combinations_query (c := c) t ([] :: outer)
  rw [select_query_of_combinations htail, ht]

theorem assemble_query (t : SetTree String) :
    c.assemble t.query = .ok ⟨t.sql c.engine, []⟩ := by
  have hmethod : t.query.method = .select := congrArg Statement.method t.query_eq
  have hcte : t.query.has .cte (some c.engine) = false :=
    (Statement.has_congr (t.bucket_query (by decide) _)).trans rfl
  have hbody : c.body t.query = .ok ⟨t.sql c.engine, []⟩ := by
    rw [body, hmethod]
    exact select_query t []
  rw [assemble_of_noCte hcte, hbody]

theorem expandMarkers_nil (sql : String) : expandMarkers "?" [] sql =
    if Text.Unmarked sql then .ok sql else .error (.markerMismatch (Text.marks sql) 0) := by
  rw [expandMarkers, length_indexesOf_mark]
  by_cases h : Text.Unmarked sql
  · rw [if_pos h, if_neg (by simp [h.marks_eq]), Text.replaceEach_of_not_mem (by decide) _ h]
    rfl
  · have hmarks : Text.marks sql ≠ ([] : List Value).length :=
      fun hm => h (List.count_eq_zero.mp hm)
    rw [if_neg h, if_pos hmarks]
    rfl

theorem compile_query (t : SetTree String) : c.compile t.query =
    if Text.Unmarked (t.sql c.engine) then
      .ok ⟨some t.query, t.sql c.engine, t.sql c.engine, [], []⟩
    else .error (.markerMismatch (Text.marks (t.sql c.engine)) 0) := by
  have hraw : c.compileRaw t.query = (expandMarkers "?" [] (t.sql c.engine)).map (⟨·, []⟩) := by
    rw [compileRaw_eq, assemble_query]
    rfl
  rw [compile, hraw, expandMarkers_nil]
  by_cases h : Text.Unmarked (t.sql c.engine)
  · have hnames : Text.replaceEach "?" c.markerName (t.sql c.engine) = t.sql c.engine :=
      Text.replaceEach_of_not_mem (by decide) _ h
    rw [if_pos h, if_pos h]
    show Except.ok (c.nameMarkers _ _) = _
    rw [nameMarkers, marker_eq, hnames]
    rfl
  · rw [if_neg h, if_neg h]
    rfl

/-- A tree of set operations compiles unless the name of a table looks like a placeholder. By the
rules of SQL, what it compiles to gives the rows of the one tree that is grouped as SQL reads it and
is the same chain. These are the rows of the tree itself where no more is regrouped than INTERSECTs
or UNIONs of one kind. -/
theorem compile_regroups (c : Compiler) (t : SetTree String) :
    ((∃ r, c.compile t.query = .ok r) ↔
      ∀ name ∈ t.operands, Text.Unmarked (c.engine.wrap name)) ∧
    (∀ u : SetTree String, u.Grouped ∧ u.chain = t.chain ↔ u = t.regrouped) ∧
    ∀ r, c.compile t.query = .ok r →
      r.sql = r.rawSql ∧ r.bindings = [] ∧
      ∀ (α : Type) [DecidableEq α] (rows : List Token → Multiset α),
        setRows? c.engine rows r.rawSql = some (t.regrouped.rows (rows ∘ reference c.engine)) ∧
        (t.Kept → setRows? c.engine rows r.rawSql = some (t.rows (rows ∘ reference c.engine))) := by
  rw [compile_query, ← t.unmarked_sql_iff]
  refine ⟨⟨?_, fun h => ⟨_, if_pos h⟩⟩, t.grouped_iff_eq_regrouped, ?_⟩
  · rintro ⟨r, hr⟩
    by_contra h
    rw [if_neg h] at hr
    cases hr
  · intro r hr
    split at hr
    · cases hr
      refine ⟨rfl, rfl, fun α _ rows => ⟨t.setRows?_sql c.engine rows, fun hkept => ?_⟩⟩
      rw [← hkept.rows_regrouped]
      exact t.setRows?_sql c.engine rows
    · cases hr

end Trees

def unionOfUnion : SetTree String :=
  .node .union true (.leaf "a")
    (.node .union true (.leaf "b") (.node .intersect false (.leaf "c") (.leaf "d")))

theorem compile_regroups_unionOfUnion :
    ∃ r, (ofEngine .generic).compile unionOfUnion.query = .ok r ∧
      unionOfUnion.regrouped ≠ unionOfUnion ∧ unionOfUnion.Kept ∧
      setRows? .generic (fun table => if table = [.quoted '"' ['a']] then {1}
        else if table = [.quoted '"' ['b']] then {1, 2} else ({2, 2, 3} : Multiset ℕ))
          r.rawSql = some {1, 1, 2, 2, 3} := by
  obtain ⟨hcompiled, -, hrows⟩ := compile_regroups (ofEngine .generic) unionOfUnion
  obtain ⟨r, hr⟩ := hcompiled.mpr (by decide)
  obtain ⟨-, -, hrows⟩ := hrows r hr
  have hkept : unionOfUnion.Kept :=
    .union true (.intersections (.leaf "a")) (.node (.intersections (.leaf "b"))
      (.intersections (.node false (.leaf "c") (.leaf "d"))))
  refine ⟨r, hr, by decide, hkept, ((hrows ℕ _).2 hkept).trans ?_⟩
  decide +kernel

def exceptOfExcept : SetTree String :=
  .node .except false (.leaf "a") (.node .except false (.leaf "b") (.leaf "c"))

/-- With the same row in all three tables, that row is left; the SQL loses it, as it takes the third
table from what is already nothing. -/
theorem nested_except_is_flattened :
    ∃ r, (ofEngine .generic).compile exceptOfExcept.query = .ok r ∧
      r.rawSql = "SELECT * FROM \"a\" EXCEPT SELECT * FROM \"b\" EXCEPT SELECT * FROM \"c\"" ∧
      setRows? .generic (fun _ => ({()} : Multiset Unit)) r.rawSql = some 0 ∧
      exceptOfExcept.rows (fun _ => ({()} : Multiset Unit)) = {()} := by
  have hsql : exceptOfExcept.sql .generic =
      "SELECT * FROM \"a\" EXCEPT SELECT * FROM \"b\" EXCEPT SELECT * FROM \"c\"" := by
    decide +kernel
  have hunmarked : Text.Unmarked (exceptOfExcept.sql .generic) := by
    rw [hsql]
    decide
  refine ⟨_, (compile_query exceptOfExcept).trans (if_pos hunmarked), hsql, ?_, by decide⟩
  exact exceptOfExcept.setRows?_sql .generic _

end Compiler

end SqlDialects
