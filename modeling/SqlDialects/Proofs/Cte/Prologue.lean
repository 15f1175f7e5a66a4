import SqlDialects.Proofs.Cte.Emission
import SqlDialects.Proofs.Outcome.Phases
import SqlDialects.Proofs.Reading.Operands
import SqlDialects.Proofs.Scope.Early
import SqlDialects.Proofs.Select.SameRows

/-!
The prologue of a statement. It defines the expressions that the statement declares, and those in
the bodies of what it defines. What other nested statements declare has no part in the output.
-/

namespace SqlDialects

variable {σ τ : Type}

def Statement.withoutCtes (q : Statement σ) : Statement σ :=
  { q with clauses := q.clauses.filter (·.component != .cte) }

/-- A nested statement, which a search comes to or passes by. What is declared where the search
passes by is left out at any depth. -/
def Subquery.pruned (n : Subquery) (searched : Bool) : Subquery :=
  Subquery.fold (fun (q : Statement (Bool → Subquery)) searched =>
    .of ((if searched then q else q.withoutCtes).rewrite id
      (fun component _ n => n (searched && component == .cte)) q.vars)) n searched

def Query.pruned (q : Query) (searched : Bool) : Query :=
  (if searched then q else q.withoutCtes).rewrite id
    (fun component _ n => n.pruned (searched && component == .cte)) q.vars

/-- The statement without the expressions that a search through it does not come to. -/
def Query.hoisted (q : Query) : Query := q.pruned true

theorem Subquery.pruned_of (q : Query) (searched : Bool) :
    (Subquery.of q).pruned searched = .of (q.pruned searched) := by
  have hmap (f : Subquery → Bool → Subquery) : (q.map f).withoutCtes = q.withoutCtes.map f := by
    simp only [Statement.withoutCtes, Statement.map, List.filter_map]
    rfl
  rw [pruned, fold_of, hmap, Query.pruned]
  cases searched with
  | true => exact congrArg Subquery.of (Statement.map_rewrite _ _ _ _ _)
  | false => exact congrArg Subquery.of (Statement.map_rewrite _ _ _ _ _)

namespace Statement

variable (q : Statement σ) {component : Component} {engine : Option Engine} {e : Engine}

theorem bucket_withoutCtes (h : component ≠ .cte) :
    q.withoutCtes.bucket component engine = q.bucket component engine := by
  rw [bucket, withoutCtes, List.filter_filter, bucket]
  refine List.filter_congr fun d _ => ?_
  by_cases hd : d.component = component
  · simp [Clause.visible, hd, h]
  · simp [Clause.visible, hd]

theorem has_withoutCtes (h : component ≠ .cte) :
    q.withoutCtes.has component engine = q.has component engine :=
  has_congr (q.bucket_withoutCtes h)

theorem offsetFor_withoutCtes : q.withoutCtes.offsetFor engine = q.offsetFor engine := by
  rw [offsetFor, getOne_congr (q.bucket_withoutCtes (by decide)), offsetFor]

theorem window_withoutCtes : q.withoutCtes.window engine = q.window engine :=
  window_congr (q.bucket_withoutCtes (by decide)) (q.bucket_withoutCtes (by decide))

theorem withoutCtes_add (h : component ≠ .cte) (kind : ClauseKind σ) :
    (q.add component kind).withoutCtes = q.withoutCtes.add component kind := by
  have hkeep : (component != .cte) = true := by simpa using h
  simp [withoutCtes, add, List.filter_append, hkeep]

theorem withoutCtes_clear :
    (q.clear component engine).withoutCtes = q.withoutCtes.clear component engine := by
  simp only [withoutCtes, clear, List.filter_filter, Bool.and_comm]

theorem withoutCtes_starred : (q.starred e).withoutCtes = q.withoutCtes.starred e := by
  unfold starred
  rw [q.has_withoutCtes (by decide)]
  split
  · rfl
  · exact q.withoutCtes_add (by decide) _

theorem withoutCtes_numberRows (order : Fragment) :
    (Compiler.numberRows q order).withoutCtes = Compiler.numberRows q.withoutCtes order := by
  unfold Compiler.numberRows addColumn
  rw [withoutCtes_clear, withoutCtes_add _ (by decide)]

end Statement

namespace Compiler

variable {c : Compiler}

section Rendered

variable (q : Statement Rendering) (ss outer : Scopes)

theorem orders_withoutCtes : c.orders q.withoutCtes = c.orders q :=
  orders_congr (q.bucket_withoutCtes (by decide))

theorem basicSelect_withoutCtes : c.basicSelect q.withoutCtes outer = c.basicSelect q outer := by
  have hbasic : c.basicColumns (q.vars :: outer) q.withoutCtes =
      c.basicColumns (q.vars :: outer) q :=
    basicColumns_congr rfl (q.bucket_withoutCtes (by decide)) (q.bucket_withoutCtes (by decide))
  have hcolumns : c.columns (q.vars :: outer) q.withoutCtes = c.columns (q.vars :: outer) q := by
    rw [columns, hbasic, q.window_withoutCtes, columns]
  have hmiddle : c.middle (q.vars :: outer) q.withoutCtes = c.middle (q.vars :: outer) q :=
    middle_congr fun component hm => q.bucket_withoutCtes (by
      rintro rfl
      exact absurd hm (by decide))
  have hpage : c.page q.withoutCtes = c.page q := by
    rw [page, basicPage, q.window_withoutCtes, q.has_withoutCtes (by decide), page, basicPage]
  have hcombinations : c.combinations (q.vars :: outer) q.withoutCtes =
      c.combinations (q.vars :: outer) q :=
    combinations_congr (q.bucket_withoutCtes (by decide))
  have hvars : q.withoutCtes.vars = q.vars := rfl
  rw [basicSelect, selectText_eq, hvars, hcolumns, hmiddle, orders_withoutCtes, hpage,
    hcombinations, ← selectText_eq, basicSelect]

theorem numberedSelect_withoutCtes :
    c.numberedSelect q.withoutCtes outer = c.numberedSelect q outer := by
  have hstarred (p : Statement Rendering) : (if p.has .select (some c.engine) then p
      else p.select ["*"]) = p.starred c.engine := rfl
  unfold numberedSelect
  simp only [hstarred, q.window_withoutCtes, ← q.withoutCtes_starred, orders_withoutCtes,
    ← Statement.withoutCtes_numberRows, basicSelect_withoutCtes]

theorem select_withoutCtes : c.select q.withoutCtes outer = c.select q outer := by
  rw [select, q.offsetFor_withoutCtes, basicSelect_withoutCtes, numberedSelect_withoutCtes, select]

theorem filterText_withoutCtes : c.filterText ss q.withoutCtes = c.filterText ss q :=
  filterText_congr (q.bucket_withoutCtes (by decide))

theorem joinedTable_withoutCtes : c.joinedTable ss q.withoutCtes = c.joinedTable ss q := by
  rw [joinedTable, sourceFor_congr (q.bucket_withoutCtes (by decide)),
    Statement.getAll_congr (q.bucket_withoutCtes (by decide)), joinedTable]

end Rendered

theorem rendering_pruned (n : Subquery) (searched : Bool) :
    c.rendering (n.pruned searched) = c.rendering n := by
  induction n using Subquery.induction generalizing searched with
  | step q ih =>
    have hprepare (p : Query) (hp : ∀ d ∈ p.clauses, d ∈ q.clauses) :
        c.prepare (p.rewrite id (fun component _ n => n.pruned (searched && component == .cte))
          p.vars) = c.prepare p := by
      rw [prepare, Statement.rewrite_map, prepare, Statement.map_eq_rewrite]
      refine Statement.rewrite_congr p.vars (fun _ _ _ _ => rfl) fun d hd n hn => ?_
      exact ih n.2 (Statement.mem_nested_of_part (hp d hd) hn) _
    rw [Subquery.pruned_of, Query.pruned, rendering_of, rendering_of]
    cases searched with
    | true =>
      have hsame := hprepare q fun _ hd => hd
      simp only [if_true, hsame]
      rfl
    | false =>
      have hsame : c.prepare (q.withoutCtes.rewrite id _ q.vars) = (c.prepare q).withoutCtes :=
        (hprepare q.withoutCtes fun _ hd => List.mem_of_mem_filter hd).trans (by
          simp only [prepare, Statement.withoutCtes, Statement.map, List.filter_map]
          rfl)
      simp only [Bool.false_eq_true, if_false, hsame, funext (select_withoutCtes (c.prepare q)),
        filterText_withoutCtes, joinedTable_withoutCtes]
      rfl

end Compiler

/-- A search through the statement passes the nested one by: it comes to the bodies of expressions
alone, and to nothing inside of what it passes by. -/
inductive Query.PassesBy : Query → Query → Prop
  | here {q n : Query} {d : Clause Subquery} (hd : d ∈ q.clauses) (hc : d.component ≠ .cte)
      (hn : Subquery.of n ∈ d.kind.nested) : PassesBy q n
  | body {q body n : Query} {d : Clause Subquery} (hd : d ∈ q.clauses) (hc : d.component = .cte)
      (hb : Subquery.of body ∈ d.kind.nested) (h : PassesBy body n) : PassesBy q n
  | inside {q m n : Query} (h : PassesBy q m) (hn : Subquery.of n ∈ m.nested) : PassesBy q n

section Hoisted

variable {q : Query}

theorem Query.exists_pruned {searched : Bool} {d : Clause Subquery}
    (hd : d ∈ (q.pruned searched).clauses) {n : Query} (hn : Subquery.of n ∈ d.kind.nested) :
    ∃ m : Query, n = m.pruned (searched && d.component == .cte) := by
  obtain ⟨d, -, rfl⟩ := List.mem_map.mp hd
  obtain ⟨⟨place, part⟩, hpart, hn⟩ := List.mem_map.mp hn
  rw [Clause.rewrite, ClauseKind.parts_rewrite] at hpart
  obtain ⟨⟨_, ⟨m⟩⟩, -, heq⟩ := List.mem_map.mp hpart
  cases heq
  refine ⟨m, ?_⟩
  rw [Subquery.pruned_of] at hn
  exact (Subquery.of.inj hn).symm

theorem Query.PassesBy.exists_pruned {n : Query} (h : Query.PassesBy q.hoisted n) :
    ∃ m : Query, n = m.pruned false := by
  unfold hoisted at h
  generalize hq : q.pruned true = p at h
  induction h generalizing q with
  | here hd hc hn =>
    subst hq
    obtain ⟨m, rfl⟩ := Query.exists_pruned hd hn
    exact ⟨m, congrArg m.pruned (by simpa using hc)⟩
  | body hd hc hb _ ih =>
    subst hq
    obtain ⟨m, rfl⟩ := Query.exists_pruned hd hb
    exact ih (congrArg m.pruned (by simpa using hc)).symm
  | inside _ hn ih =>
    obtain ⟨m, rfl⟩ := ih hq
    obtain ⟨d, hd, hn⟩ := Statement.mem_nested.mp hn
    exact Query.exists_pruned hd hn

theorem Query.not_cte_of_pruned {d : Clause Subquery} (hd : d ∈ (q.pruned false).clauses) :
    d.component ≠ .cte := by
  obtain ⟨d, hmem, rfl⟩ := List.mem_map.mp hd
  have hkept : (d.component != .cte) = true := (List.mem_filter.mp hmem).2
  exact bne_iff_ne.mp hkept

theorem hereditary_pruned : Hereditary (Subquery.pruned · true) :=
  fun q => ⟨_, _, _, Subquery.pruned_of q true, rfl⟩

theorem Compiler.assemble_hoisted (c : Compiler) (q : Query) :
    c.assemble q.hoisted = c.assemble q := by
  have hpasses : Query.Passes c agreement id
      (fun component _ n => n.pruned (true && component == .cte)) q.vars q := by
    refine ⟨Query.enters_of_rendering fun _ _ n _ => rendering_pruned n _, hereditary_pruned,
      fun body _ _ => ?_⟩
    rw [rendering_pruned]
    exact agreement_fragments_refl _
  exact (agreement_eq (hpasses.assemble plain_agreement)).symm

end Hoisted

section Prologue

variable {e : Engine}

def Engine.definition (e : Engine) (d : String × String) : String :=
  e.wrapValue d.1 ++ " AS (" ++ d.2 ++ ")"

def Engine.prologue (e : Engine) (definitions : List (String × String)) : String :=
  if definitions.isEmpty then ""
  else "WITH " ++ ",\n".intercalate (definitions.map e.definition) ++ "\n"

theorem Text.trimBlanks_of_ends {first last : Char} (text : List Char)
    (hf : isBlank first = false) (hl : isBlank last = false) :
    trimBlanks (first :: text ++ [last]) = first :: text ++ [last] := by
  have hdrop (c : Char) (cs : List Char) (hc : isBlank c = false) :
      dropBlanks (c :: cs) = c :: cs :=
    List.dropWhile_cons_of_neg (by rw [hc]; decide)
  rw [trimBlanks, List.cons_append, hdrop first _ hf, ← List.cons_append, List.reverse_append,
    List.reverse_singleton, List.singleton_append, hdrop last _ hl, List.reverse_cons,
    List.reverse_reverse]

theorem Engine.exists_cons_wrapSegment (e : Engine) (text : List Char) :
    ∃ first rest, e.wrapSegment text = first :: rest ∧ Text.isBlank first = false := by
  rcases Reading.wrapSegment_cases e text with h | ⟨name, h⟩
  · exact ⟨_, _, h, rfl⟩
  · exact ⟨_, _, h, by cases e <;> rfl⟩

theorem Engine.trim_definition (d : String × String) :
    Text.trim (e.definition d) = e.definition d := by
  obtain ⟨first, rest, hw, hf⟩ := e.exists_cons_wrapSegment d.1.toList
  have htext : (e.definition d).toList = first :: (rest ++ (" AS (" ++ d.2).toList) ++ [')'] := by
    simp [definition, wrapValue, hw]
  rw [Text.trim, htext, Text.trimBlanks_of_ends _ hf rfl, ← htext, String.ofList_toList]

variable {c : Compiler} {q : Query}

theorem Compiler.definition_of_cteDefinition {s : Source Subquery} {d : Fragment}
    (h : c.cteDefinition q s = .ok d) : ∃ body, d.sql = c.engine.definition (s.cteName, body) := by
  unfold cteDefinition at h
  unfold Source.cteName
  cases ha : s.alias? with
  | none =>
    rw [ha] at h
    cases h
  | some name =>
    rw [ha] at h
    dsimp only at h
    split at h
    · cases h
    · cases s with
      | table _ => cases h
      | raw sql bindings _ =>
        cases h
        exact ⟨_, rfl⟩
      | query body _ =>
        obtain ⟨sub, -, h⟩ := bind_eq_ok h
        cases h
        exact ⟨_, rfl⟩

theorem Compiler.exists_definitions {found : List (Source Subquery)} {fs : List Fragment}
    (h : found.mapM (c.cteDefinition q) = .ok fs) : ∃ definitions : List (String × String),
      definitions.map Prod.fst = found.map Source.cteName ∧
        fs.map (fun f => Text.trim f.sql) = definitions.map c.engine.definition := by
  replace h := mapM_eq_ok.mp h
  induction h with
  | nil => exact ⟨[], rfl, rfl⟩
  | @cons s f _ _ hf _ ih =>
    obtain ⟨definitions, hnames, htexts⟩ := ih
    obtain ⟨body, hbody⟩ := definition_of_cteDefinition hf
    refine ⟨(s.cteName, body) :: definitions, by rw [List.map_cons, hnames, List.map_cons], ?_⟩
    rw [List.map_cons, htexts, hbody, c.engine.trim_definition, List.map_cons]

theorem Compiler.exists_prologue {f : Fragment} (h : c.assemble q = .ok f) :
    ∃ found definitions body, q.ctes c.engine = .ok found ∧
      definitions.map Prod.fst = found.map Source.cteName ∧ c.body q = .ok body ∧
      f.sql = c.engine.prologue definitions ++ body.sql := by
  obtain ⟨front, body, hfront, hbody, rfl⟩ := assemble_eq_ok.mp h
  obtain ⟨found, fs, hfound, hfs, rfl⟩ := front_eq_ok.mp hfront
  obtain ⟨definitions, hnames, htexts⟩ := exists_definitions hfs
  have hempty : fs.isEmpty = definitions.isEmpty := by
    simpa using congrArg List.isEmpty htexts
  refine ⟨found, definitions, body, hfound, hnames, hbody, ?_⟩
  rw [Fragment.sql_append, Fragment.defining, Engine.prologue, htexts, hempty]

theorem Query.closed_ctes {found : List (Source Subquery)} (h : q.ctes e = .ok found) :
    (∀ s ∈ q.declared e, s.cteName ∈ found.map Source.cteName) ∧
      ∀ s ∈ found, ∀ d ∈ s.declared e, d.cteName ∈ found.map Source.cteName := by
  obtain ⟨seen, hf⟩ := Query.ctes_eq_ok h
  have ht : Tracks [] [] [] [] := ⟨by simp, by simp⟩
  have hemission := emits (.of q) ht hf
  have hin (n : String) (hn : n ∈ seen) : n ∈ found.map Source.cteName := by
    simpa using (hemission.tracks.finished n).mp hn
  exact ⟨fun s hs => hin _ (hemission.passed s hs),
    fun s hs d hd => hin _ (hemission.closed s hs d hd)⟩

end Prologue

namespace Compiler

variable {c : Compiler} {q : Query}

/-- The prologue of the SQL defines each expression that the statement declares or the body of one
that it defines, and no others. Without those that any other nested statement declares, the
output is the same. -/
theorem compile_defines_searched {r : Compiled} (h : c.compile q = .ok r) :
    (∃ found definitions body, q.ctes c.engine = .ok found ∧
      definitions.map Prod.fst = found.map Source.cteName ∧ c.body q = .ok body ∧
      expandMarkers c.marker r.bindings (c.engine.prologue definitions ++ body.sql) =
        .ok r.rawSql ∧
      (∀ s ∈ q.declared c.engine, s.cteName ∈ definitions.map Prod.fst) ∧
      (∀ s ∈ found, ∀ d ∈ s.declared c.engine, d.cteName ∈ definitions.map Prod.fst) ∧
      ∀ s ∈ found, Defines c.engine q s) ∧
    (∀ n, q.hoisted.PassesBy n → ∀ d ∈ n.clauses, d.component ≠ .cte) ∧
    c.output q.hoisted = c.output q := by
  refine ⟨?_, fun n hn => ?_, ?_⟩
  · obtain ⟨raw, hraw, h⟩ := bind_eq_ok h
    obtain ⟨f, hf, hraw⟩ := bind_eq_ok hraw
    obtain ⟨sql, hsql, hraw⟩ := bind_eq_ok hraw
    cases hraw
    cases h
    obtain ⟨found, definitions, body, hfound, hnames, hbody, hsplit⟩ := exists_prologue hf
    obtain ⟨hdeclared, hinner⟩ := Query.closed_ctes hfound
    rw [← hnames] at hdeclared hinner
    exact ⟨found, definitions, body, hfound, hnames, hbody, hsplit ▸ hsql, hdeclared, hinner,
      fun s hs => defines_of_mem_ctes hfound hs⟩
  · obtain ⟨m, rfl⟩ := hn.exists_pruned
    exact fun d hd => Query.not_cte_of_pruned hd
  · rw [output_eq, output_eq, assemble_hoisted]

theorem exists_compiled_map {α : Type} {f : Compiled → α} {a : α}
    (h : (c.compile q).toOption.map f = some a) : ∃ r, c.compile q = .ok r ∧ f r = a := by
  cases hr : c.compile q with
  | error e =>
    rw [hr] at h
    cases h
  | ok r =>
    rw [hr] at h
    exact ⟨r, rfl, Option.some.inj h⟩

theorem exists_compiled {sql : String}
    (h : (c.compile q).toOption.map (·.rawSql) = some sql) :
    ∃ r, c.compile q = .ok r ∧ r.rawSql = sql :=
  exists_compiled_map h

def refunded : Query where
  clauses := [⟨.source, none, .source (.query (.of (Query.selecting "refunds" [
      .selecting "returns" "refunds" []])) (some "r"))⟩,
    ⟨.cte, none, .source totals⟩]

theorem compile_defines_searched_refunded :
    ∃ r, (ofEngine .postgres).compile refunded = .ok r ∧
      r.rawSql = "WITH \"days\" AS (SELECT * FROM \"dates\"),\n" ++
        "\"totals\" AS (SELECT * FROM \"days\")\n" ++
        "SELECT * FROM (SELECT * FROM \"refunds\") AS \"r\"" ∧
      (∀ n, refunded.hoisted.PassesBy n → ∀ d ∈ n.clauses, d.component ≠ .cte) ∧
      (ofEngine .postgres).output refunded.hoisted = (ofEngine .postgres).output refunded := by
  have hsql : ((ofEngine .postgres).compile refunded).toOption.map (·.rawSql) =
      some ("WITH \"days\" AS (SELECT * FROM \"dates\"),\n" ++
        "\"totals\" AS (SELECT * FROM \"days\")\n" ++
        "SELECT * FROM (SELECT * FROM \"refunds\") AS \"r\"") := by decide +kernel
  obtain ⟨r, hr, hsql⟩ := exists_compiled hsql
  obtain ⟨-, hpassed, houtput⟩ := compile_defines_searched hr
  exact ⟨r, hr, hsql, hpassed, houtput⟩

/-- The derived table is selected from under a name that nothing defines. -/
theorem derived_table_declares_in_vain :
    ¬∀ (q n : Query) (aliasName : Option String) (r : Compiled),
      (ofEngine .generic).compile q = .ok r →
      q.getOne .source ClauseKind.source? (some .generic) =
        .ok (some (.query (.of n) aliasName)) →
      ∀ s ∈ n.declared .generic, ∃ definitions rest,
        r.rawSql = Engine.generic.prologue definitions ++ rest ∧
          s.cteName ∈ definitions.map Prod.fst := by
  intro hall
  let used := Source.selecting "base" "b" []
  let q : Query := { clauses := [⟨.source, none, .source (.query (.of (Query.selecting "b" [used]))
    (some "s"))⟩] }
  have hsql : ((ofEngine .generic).compile q).toOption.map (·.rawSql) =
      some "SELECT * FROM (SELECT * FROM \"b\") AS \"s\"" := by decide +kernel
  obtain ⟨r, hr, hsql⟩ := exists_compiled hsql
  obtain ⟨definitions, rest, htext, hmem⟩ :=
    hall q _ _ r hr rfl used (List.mem_singleton.mpr rfl)
  rw [hsql] at htext
  cases definitions with
  | nil => cases hmem
  | cons d definitions =>
    have hfirst := congrArg (fun text => text.toList.head?) htext
    simp [Engine.prologue] at hfirst

end Compiler

end SqlDialects
