import SqlDialects.Proofs.Cte.Prologue
import SqlDialects.Proofs.Paging.Selects
import SqlDialects.Proofs.Text.Mark
import SqlDialects.Proofs.Text.Occurs
import SqlDialects.Proofs.Text.Verbatim

/-!
The limit of an old engine among the columns. It is put behind the keywords that the rendered text
begins with, so what becomes of the columns depends on how the first of them begins.
-/

namespace SqlDialects

def BeginsDistinct (text : String) : Prop := "DISTINCT".toList <+: text.toList

instance (text : String) : Decidable (BeginsDistinct text) := inferInstanceAs (Decidable (_ <+: _))

theorem beginsDistinct_iff {text : String} :
    BeginsDistinct text ↔ ∃ rest, text = "DISTINCT" ++ rest := by
  constructor
  · rintro ⟨rest, hrest⟩
    exact ⟨String.ofList rest, by simp [← String.toList_inj, ← hrest]⟩
  · rintro ⟨rest, rfl⟩
    exact ⟨rest.toList, String.toList_append.symm⟩

theorem dropPrefix?_append (start rest : String) :
    dropPrefix? start (start ++ rest) = some rest := by
  have hprefix : start.toList.isPrefixOf (start ++ rest).toList = true := by simp
  rw [dropPrefix?, if_pos hprefix, String.toList_append, List.drop_left, String.ofList_toList]

theorem insertTop_distinct (rest : String) :
    insertTop ("SELECT DISTINCT" ++ rest) = "SELECT DISTINCT TOP (?)" ++ rest := by
  rw [insertTop, dropPrefix?_append]

theorem insertTop_select {text : String} (h : ¬BeginsDistinct text) :
    insertTop ("SELECT " ++ text) = "SELECT TOP (?) " ++ text := by
  have hnone : dropPrefix? "SELECT DISTINCT" ("SELECT " ++ text) = none := by
    refine if_neg fun hprefix => h ?_
    have hword := List.isPrefixOf_iff_prefix.mp hprefix
    have hboth : "SELECT DISTINCT".toList = "SELECT ".toList ++ "DISTINCT".toList := rfl
    rw [hboth, String.toList_append, List.prefix_append_right_inj] at hword
    exact hword
  have hselect : "SELECT " ++ text = "SELECT" ++ (" " ++ text) := by
    rw [← String.append_assoc]
    rfl
  rw [insertTop, hnone]
  dsimp only
  rw [hselect, dropPrefix?_append, Option.getD_some, ← String.append_assoc]
  rfl

theorem top_in_front_ne (rest : String) :
    "SELECT DISTINCT TOP (?)" ++ rest ≠ "SELECT TOP (?) " ++ ("DISTINCT" ++ rest) := by
  intro h
  have hletter := congrArg (fun text => text.toList[7]?) h
  simp at hletter

namespace Engine

def quoting (e : Engine) : List Char :=
  e.dialect.escape :: (delimiters e.dialect).flatMap fun m => [m.1, m.2]

theorem head_pass (e : Engine) {m : Char × Char} (hm : m ∈ delimiters e.dialect) {sql : String}
    (h : ∀ c ∈ sql.toList.head?, c ∈ e.quoting) :
    ∀ c ∈ (e.pass sql m).toList.head?, c ∈ e.quoting := by
  have hmark : m.1 ∈ e.quoting ∧ m.2 ∈ e.quoting := by
    have hboth : [m.1, m.2] ⊆ e.quoting :=
      fun c hc => List.mem_cons_of_mem _ (List.mem_flatMap.mpr ⟨m, hm, hc⟩)
    exact ⟨hboth (by simp), hboth (by simp)⟩
  rw [toList_pass]
  cases hs : sql.toList with
  | nil => simp
  | cons d rest =>
    rw [hs] at h
    rw [Text.replaceUnescapedFrom]
    split
    · simpa using hmark.1
    · split
      · simpa using hmark.2
      · simpa using h

theorem wrapIdentifiers_empty (e : Engine) : e.wrapIdentifiers "" = "" := by cases e <;> rfl

theorem head_wrapIdentifiers (e : Engine) {sql : String}
    (h : ∀ c ∈ sql.toList.head?, c ∈ e.quoting) :
    ∀ c ∈ (e.wrapIdentifiers sql).toList.head?, c ∈ e.quoting := by
  have hpasses (marks : List (Char × Char)) (hm : ∀ m ∈ marks, m ∈ delimiters e.dialect)
      (sql : String) (h : ∀ c ∈ sql.toList.head?, c ∈ e.quoting) :
      ∀ c ∈ (marks.foldl e.pass sql).toList.head?, c ∈ e.quoting := by
    induction marks generalizing sql with
    | nil => exact h
    | cons m marks ih =>
      obtain ⟨hmark, hmarks⟩ := List.forall_mem_cons.mp hm
      exact ih hmarks _ (e.head_pass hmark h)
  exact hpasses _ (fun _ hm => hm) sql h

theorem prefix_wrapIdentifiers_iff (e : Engine) {word : List Char}
    (h : ∀ c ∈ word, c ∉ e.quoting) (sql : String) :
    word <+: (e.wrapIdentifiers sql).toList ↔ word <+: sql.toList := by
  induction word generalizing sql with
  | nil => simp
  | cons c word ih =>
    obtain ⟨hc, hword⟩ := List.forall_mem_cons.mp h
    cases hs : sql.toList with
    | nil =>
      have hempty : sql = "" := String.toList_inj.mp hs
      rw [hempty, wrapIdentifiers_empty]
      rfl
    | cons d rest =>
      by_cases hd : e.Plain d
      · have hsql : sql = "" ++ (d.toString ++ String.ofList rest) := by
          simp [← String.toList_inj, hs]
        have hrest := ih hword (String.ofList rest)
        rw [hsql, wrapIdentifiers_split e hd, wrapIdentifiers_empty]
        simpa [List.cons_prefix_cons] using fun _ => hrest
      · have hquoting : d ∈ e.quoting := by
          rcases List.mem_cons.mp (not_not.mp hd) with rfl | hmark
          · exact List.mem_cons_self
          · obtain ⟨m, hm, rfl⟩ := List.mem_map.mp hmark
            exact List.mem_cons_of_mem _ (List.mem_flatMap.mpr ⟨m, hm, List.mem_cons_self⟩)
        have hstart : ∀ c ∈ sql.toList.head?, c ∈ e.quoting := by simpa [hs] using hquoting
        have hhead := e.head_wrapIdentifiers hstart
        constructor
        · rintro ⟨more, hmore⟩
          exact absurd (hhead c (by simp [← hmore])) hc
        · intro hp
          obtain ⟨rfl, -⟩ := List.cons_prefix_cons.mp hp
          exact absurd hquoting hc

theorem head_wrap (e : Engine) (name : String) :
    ∃ c rest, (e.wrap name).toList = c :: rest ∧ (c = '*' ∨ c = e.dialect.opening) := by
  have hsegment (text : List Char) :
      ∃ c rest, e.wrapSegment text = c :: rest ∧ (c = '*' ∨ c = e.dialect.opening) := by
    rcases Reading.wrapSegment_cases e text with h | ⟨quoted, h⟩
    · exact ⟨_, _, h, .inl rfl⟩
    · exact ⟨_, _, h, .inr rfl⟩
  have hpath (text : List Char) :
      ∃ c rest, e.wrapPath text = c :: rest ∧ (c = '*' ∨ c = e.dialect.opening) := by
    obtain ⟨piece, more, hpieces⟩ :=
      List.exists_cons_of_ne_nil (Text.piecesFrom_ne_nil ['.'] 0 text)
    obtain ⟨c, rest, hfirst, hc⟩ := hsegment piece
    rw [wrapPath, Text.pieces, hpieces, List.map_cons, hfirst]
    cases more with
    | nil => exact ⟨c, rest, by simp, hc⟩
    | cons next more =>
      rw [List.map_cons, List.intercalate_cons_cons]
      exact ⟨c, _, rfl, hc⟩
  rw [wrap, String.toList_ofList, wrapName]
  split
  · next before after _ =>
    obtain ⟨c, rest, hfirst, hc⟩ := hpath before
    rw [hfirst]
    exact ⟨c, _, rfl, hc⟩
  · exact hpath _

end Engine

theorem not_beginsDistinct {c : Char} {rest : List Char} {text : String}
    (h : text.toList = c :: rest) (hc : c ≠ 'D') : ¬BeginsDistinct text := by
  intro hp
  rw [BeginsDistinct, h] at hp
  exact hc (List.cons_prefix_cons.mp hp).1.symm

namespace Statement

variable {σ : Type}

/-- The columns of the statement begin with the word for distinct rows though it does not ask for
them itself: with SQL text that has the word, or with a function that is called so. -/
inductive LeadsDistinct (e : Engine) (q : Statement σ) : Prop
  | text {sql : String} {bindings : List Value} {rest : List (Column σ)}
      (ha : q.getOne .aggregate ClauseKind.aggregate? (some e) = .ok none)
      (hs : q.getAll .select ClauseKind.column? (some e) = .ok (.raw sql bindings :: rest))
      (hp : BeginsDistinct sql) : LeadsDistinct e q
  | function {function name : String}
      (ha : q.getOne .aggregate ClauseKind.aggregate? (some e) = .ok (some ⟨function, [name]⟩))
      (hp : BeginsDistinct (Text.upper function)) : LeadsDistinct e q

variable {e : Engine} {q : Statement σ}

theorem leadsDistinct_of_aggregate {a : Aggregate}
    (ha : q.getOne .aggregate ClauseKind.aggregate? (some e) = .ok (some a)) :
    q.LeadsDistinct e ↔ ∃ name, a.columns = [name] ∧ BeginsDistinct (Text.upper a.function) := by
  constructor
  · rintro (⟨hnone, -, -⟩ | ⟨hsome, hp⟩)
    · rw [ha] at hnone
      cases hnone
    · rw [ha] at hsome
      cases hsome
      exact ⟨_, rfl, hp⟩
  · obtain ⟨function, columns⟩ := a
    rintro ⟨name, rfl, hp⟩
    exact .function ha hp

theorem leadsDistinct_of_columns {xs : List (Column σ)}
    (ha : q.getOne .aggregate ClauseKind.aggregate? (some e) = .ok none)
    (hs : q.getAll .select ClauseKind.column? (some e) = .ok xs) :
    q.LeadsDistinct e ↔
      ∃ sql bindings rest, xs = .raw sql bindings :: rest ∧ BeginsDistinct sql := by
  constructor
  · rintro (⟨-, hraw, hp⟩ | ⟨hsome, -⟩)
    · rw [hs] at hraw
      cases hraw
      exact ⟨_, _, _, rfl, hp⟩
    · rw [ha] at hsome
      cases hsome
  · rintro ⟨sql, bindings, rest, rfl, hp⟩
    exact .text ha hs hp

end Statement

namespace Compiler

variable {c : Compiler} {ss : Scopes} {q : Statement Rendering} {w : Window}

def distinctWord (distinct : Bool) : String := if distinct then "DISTINCT " else ""

theorem beginsDistinct_column_iff (hc : c.engine = .sqlServer) {x : Column Rendering}
    {text : String}
    (h : (c.column ss x).outcome = .ok text) :
    BeginsDistinct text ↔ ∃ sql bindings, x = .raw sql bindings ∧ BeginsDistinct sql := by
  have hletters : ∀ c ∈ "DISTINCT".toList, c ∉ Engine.sqlServer.quoting :=
    Text.not_mem_of_all (by decide)
  cases x with
  | named name =>
    cases h
    obtain ⟨first, rest, hname, hfirst⟩ := c.engine.head_wrap name
    have hne : first ≠ 'D' := by
      rcases hfirst with rfl | rfl
      · decide
      · rw [hc]
        decide
    exact iff_of_false (not_beginsDistinct hname hne) (by rintro ⟨_, _, ⟨⟩, _⟩)
  | raw sql bindings =>
    obtain ⟨_, -, hpure⟩ := Emit.bind_eq_ok h
    have htext := Except.ok.inj hpure
    rw [← htext, hc]
    have hsql : BeginsDistinct (Engine.sqlServer.wrapIdentifiers sql) ↔ BeginsDistinct sql :=
      Engine.prefix_wrapIdentifiers_iff _ hletters sql
    rw [hsql]
    constructor
    · exact fun hp => ⟨sql, bindings, rfl, hp⟩
    · rintro ⟨_, _, ⟨⟩, hp⟩
      exact hp
  | query n aliasName =>
    obtain ⟨sub, -, hpure⟩ := Emit.bind_eq_ok h
    have htext := Except.ok.inj hpure
    have hopen (more : String) : ¬BeginsDistinct ("(" ++ more) :=
      @not_beginsDistinct '(' more.toList _ (by simp) (by decide)
    rw [← htext, String.append_assoc, String.append_assoc]
    exact iff_of_false (hopen _) (by rintro ⟨_, _, ⟨⟩, _⟩)

theorem beginsDistinct_append_iff {c : Char} (h : c ∉ "DISTINCT".toList) (text more : String) :
    BeginsDistinct (text ++ (c.toString ++ more)) ↔ BeginsDistinct text := by
  rw [BeginsDistinct, String.toList_append, String.toList_append, Char.toString,
    String.toList_singleton, List.singleton_append, Text.prefix_append_cons_iff h, BeginsDistinct]

theorem beginsDistinct_intercalate_iff (text : String) (texts : List String) :
    BeginsDistinct (", ".intercalate (text :: texts)) ↔ BeginsDistinct text := by
  cases texts with
  | nil => simp
  | cons next texts =>
    have hcomma : ", " = ','.toString ++ " " := rfl
    rw [String.intercalate_cons_cons, hcomma, String.append_assoc, String.append_assoc]
    exact beginsDistinct_append_iff (by decide) _ _

theorem beginsDistinct_call_iff {a : Aggregate} {text : String}
    (h : c.aggregateCall false a = "SELECT " ++ text) :
    BeginsDistinct text ↔ ∃ name, a.columns = [name] ∧ BeginsDistinct (Text.upper a.function) := by
  unfold aggregateCall at h
  split at h
  · next name hname =>
    have hopen : "(" = '('.toString ++ "" := rfl
    simp only [String.append_assoc, String.append_right_inj] at h
    rw [← h, hopen, String.append_assoc, beginsDistinct_append_iff (by decide), hname]
    exact ⟨fun hp => ⟨name, rfl, hp⟩, fun ⟨_, _, hp⟩ => hp⟩
  · next hone =>
    have hone' : "SELECT 1" = "SELECT " ++ "1" := rfl
    have hconst : text = "1" := ((String.append_right_inj "SELECT ").mp (hone' ▸ h)).symm
    refine iff_of_false (by rw [hconst]; decide) ?_
    rintro ⟨name, hname, -⟩
    exact hone name hname

theorem beginsDistinct_columns_iff (hc : c.engine = .sqlServer) {columns : Fragment}
    (h : c.basicColumns ss q =
      ⟨columns.bindings, .ok ("SELECT " ++ distinctWord q.distinct ++ columns.sql)⟩)
    (hd : q.distinct = false) : BeginsDistinct columns.sql ↔ q.LeadsDistinct c.engine := by
  have hout := congrArg Emit.outcome h
  have hempty : "SELECT " ++ distinctWord false = "SELECT " := rfl
  rw [hd, hempty] at hout
  obtain ⟨a, ha, hout⟩ := Emit.bind_eq_ok hout
  rw [hd] at hout
  cases a with
  | some a =>
    have htext : c.aggregateCall false a = "SELECT " ++ columns.sql := Except.ok.inj hout
    rw [beginsDistinct_call_iff htext, Statement.leadsDistinct_of_aggregate ha]
  | none =>
    obtain ⟨xs, hxs, hout⟩ := Emit.bind_eq_ok hout
    obtain ⟨texts, htexts, hout⟩ := Emit.bind_eq_ok hout
    have htext : "SELECT " ++ "" ++ (if texts.isEmpty then "*" else ", ".intercalate texts) =
      "SELECT " ++ columns.sql := Except.ok.inj hout
    rw [String.append_empty, String.append_right_inj] at htext
    rw [Statement.leadsDistinct_of_columns ha hxs, ← htext]
    cases Emit.mapM_eq_ok htexts with
    | nil => exact iff_of_false (by decide) (by rintro ⟨_, _, _, ⟨⟩, _⟩)
    | @cons x text xs texts hx _ =>
      have hfirst : (if (text :: texts).isEmpty then "*" else ", ".intercalate (text :: texts)) =
        ", ".intercalate (text :: texts) := rfl
      rw [hfirst, beginsDistinct_intercalate_iff, beginsDistinct_column_iff hc hx]
      constructor
      · rintro ⟨sql, bindings, rfl, hp⟩
        exact ⟨sql, bindings, xs, rfl, hp⟩
      · rintro ⟨sql, bindings, rest, heq, hp⟩
        exact ⟨sql, bindings, (List.cons.inj heq).1, hp⟩

/-- An old engine binds the limit before everything that the columns bind. It stands behind the
keywords, in front of the columns as they are without it, unless these begin with the word for
distinct rows in a select that does not ask for them itself. Then it stands behind that word, be it
the word alone or the beginning of a longer one. -/
theorem columns_intact_iff (hl : c.engine = .sqlServer ∧ c.legacyPaging = true)
    (hw : q.window (some c.engine) = .ok w) (hlimit : w.limit ≠ 0) (hoffset : w.offset = 0)
    {columns : Fragment} (h : c.basicColumns ss q =
      ⟨columns.bindings, .ok ("SELECT " ++ distinctWord q.distinct ++ columns.sql)⟩) :
    (c.columns ss q = ⟨.uint w.limit :: columns.bindings,
        .ok ("SELECT " ++ distinctWord q.distinct ++ "TOP (?) " ++ columns.sql)⟩ ↔
      (q.distinct = false → ¬q.LeadsDistinct c.engine)) ∧
    (q.distinct = false → q.LeadsDistinct c.engine → ∃ rest, columns.sql = "DISTINCT" ++ rest ∧
      c.columns ss q =
        ⟨.uint w.limit :: columns.bindings, .ok ("SELECT DISTINCT TOP (?)" ++ rest)⟩) := by
  let basic : Fragment := ⟨"SELECT " ++ distinctWord q.distinct ++ columns.sql, columns.bindings⟩
  have hbasic : c.basicColumns ss q = ⟨basic.bindings, .ok basic.sql⟩ := h
  have htop : c.columns ss q = ⟨.uint w.limit :: columns.bindings, .ok (insertTop basic.sql)⟩ :=
    columns_eq_top hw hl hlimit hoffset hbasic
  have hlead := beginsDistinct_columns_iff hl.1 h
  rw [htop]
  simp only [basic]
  cases hd : q.distinct with
  | true =>
    have hword : "SELECT " ++ distinctWord true ++ columns.sql =
        "SELECT DISTINCT" ++ (" " ++ columns.sql) := by
      rw [← String.append_assoc]
      rfl
    have htext : "SELECT DISTINCT TOP (?)" ++ (" " ++ columns.sql) =
        "SELECT " ++ distinctWord true ++ "TOP (?) " ++ columns.sql := by
      rw [← String.append_assoc]
      rfl
    rw [hword, insertTop_distinct, htext]
    exact ⟨iff_of_true rfl nofun, nofun⟩
  | false =>
    have hword : "SELECT " ++ distinctWord false ++ columns.sql = "SELECT " ++ columns.sql := rfl
    have htext : "SELECT " ++ distinctWord false ++ "TOP (?) " ++ columns.sql =
      "SELECT TOP (?) " ++ columns.sql := rfl
    rw [hword, htext, ← hlead hd]
    by_cases hp : BeginsDistinct columns.sql
    · obtain ⟨rest, hrest⟩ := beginsDistinct_iff.mp hp
      have hboth : "SELECT " ++ columns.sql = "SELECT DISTINCT" ++ rest := by
        rw [hrest, ← String.append_assoc]
        rfl
      rw [hboth, insertTop_distinct]
      refine ⟨iff_of_false (fun heq => ?_) (fun hno => hno rfl hp), fun _ _ => ⟨rest, hrest, rfl⟩⟩
      rw [hrest] at heq
      exact top_in_front_ne rest (Except.ok.inj (Emit.mk.inj heq).2)
    · rw [insertTop_select hp]
      exact ⟨iff_of_true rfl fun _ => hp, fun _ hyes => absurd hyes hp⟩

def firstOf (sql : String) (bindings : List Value) : Query where
  clauses := [⟨.source, none, .source (.table "t")⟩,
    ⟨.select, none, .column (.raw sql bindings)⟩,
    ⟨.limit, none, .limit 5⟩]

theorem columns_intact_iff_firstOf :
    let c := ofEngine .sqlServer
    let q := c.prepare (firstOf "COALESCE([a], ?)" [.int 7])
    (c.engine = .sqlServer ∧ c.legacyPaging = true) ∧ q.window (some c.engine) = .ok ⟨5, 0⟩ ∧
      c.basicColumns [[]] q =
        ⟨[.int 7], .ok ("SELECT " ++ distinctWord q.distinct ++ "COALESCE([a], ?)")⟩ ∧
      c.columns [[]] q = ⟨[.uint 5, .int 7], .ok "SELECT TOP (?) COALESCE([a], ?)"⟩ := by
  intro c q
  have hl : c.engine = .sqlServer ∧ c.legacyPaging = true := ⟨rfl, rfl⟩
  have hw : q.window (some c.engine) = .ok ⟨5, 0⟩ := rfl
  have hb : c.basicColumns [[]] q =
      ⟨[.int 7], .ok ("SELECT " ++ distinctWord q.distinct ++ "COALESCE([a], ?)")⟩ :=
    Emit.eq_mk_of_toOption rfl (by decide +kernel)
  have hcolumns : q.getAll .select ClauseKind.column? (some c.engine) =
      .ok [.raw "COALESCE([a], ?)" [.int 7]] := rfl
  have hleads : ¬q.LeadsDistinct c.engine := by
    rw [Statement.leadsDistinct_of_columns rfl hcolumns]
    rintro ⟨sql, bindings, rest, ⟨⟩, hp⟩
    exact absurd hp (by decide)
  let columns : Fragment := ⟨"COALESCE([a], ?)", [.int 7]⟩
  have hbasic : c.basicColumns [[]] q =
      ⟨columns.bindings, .ok ("SELECT " ++ distinctWord q.distinct ++ columns.sql)⟩ := hb
  exact ⟨hl, hw, hb,
    (columns_intact_iff hl hw (by decide) rfl hbasic).1.mpr fun _ => hleads⟩

/-- A column whose name begins with the word is taken apart. -/
theorem long_column_is_split :
    (∃ r, (ofEngine .sqlServer).compile (firstOf "DISTINCT_ID" []) = .ok r ∧
      r.rawSql = "SELECT DISTINCT TOP (?)_ID FROM [t]") ∧
    let c := ofEngine .sqlServer
    let q := c.prepare (firstOf "DISTINCT_ID" [])
    q.window (some c.engine) = .ok ⟨5, 0⟩ ∧
      c.basicColumns [[]] q = ⟨[], .ok ("SELECT " ++ distinctWord q.distinct ++ "DISTINCT_ID")⟩ ∧
      c.columns [[]] q ≠
        ⟨[.uint 5], .ok ("SELECT " ++ distinctWord q.distinct ++ "TOP (?) " ++ "DISTINCT_ID")⟩ := by
  refine ⟨exists_compiled (by decide +kernel), rfl,
    Emit.eq_mk_of_toOption rfl (by decide +kernel), fun h => ?_⟩
  have hsplit : (ofEngine .sqlServer).columns [[]]
      ((ofEngine .sqlServer).prepare (firstOf "DISTINCT_ID" [])) =
      ⟨[.uint 5], .ok ("SELECT DISTINCT TOP (?)" ++ "_ID")⟩ :=
    Emit.eq_mk_of_toOption rfl (by decide +kernel)
  rw [hsplit] at h
  exact top_in_front_ne "_ID" (Except.ok.inj (Emit.mk.inj h).2)

end Compiler

end SqlDialects
