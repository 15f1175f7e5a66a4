import SqlDialects.Proofs.Operator.Success
import SqlDialects.Proofs.Placeholder.Fill

/-!
Batches of statements. A batch is its statements one after the other, each compiled as it is alone;
only the numbers of its parameters go on where those of the statements before it end.
-/

namespace SqlDialects

open Text

namespace Compiler

variable (c : Compiler)

def numberedFrom (start : Nat) (r : Compiled) : String :=
  replaceEach c.marker (fun i => c.markerName (start + i)) r.rawSql

def numberedInTurn : Nat → List Compiled → List String
  | _, [] => []
  | start, r :: rs =>
    c.numberedFrom start r :: numberedInTurn (start + r.flatBindings.length) rs

theorem toList_numberedFrom (start : Nat) (r : Compiled) :
    (c.numberedFrom start r).toList =
      fill '?' (fun i => (c.markerName i).toList) start r.rawSql.toList := by
  rw [numberedFrom, marker_eq, toList_replaceEach (show "?".toList = ['?'] by decide),
    weave_splitOn]
  exact fill_congr fun j _ => by rw [Nat.zero_add]

theorem sql_nameMarkers (query : Option Query) (f : Fragment) :
    (c.nameMarkers query f).sql = c.numberedFrom 0 (c.nameMarkers query f) := by
  simp only [numberedFrom, Nat.zero_add]
  rfl

theorem fill_batch (start : Nat) {rs : List Compiled}
    (h : ∀ r ∈ rs, marks r.rawSql = r.flatBindings.length) :
    fill '?' (fun i => (c.markerName i).toList) start
        (";\n".intercalate (rs.map (·.rawSql))).toList =
      (";\n".intercalate (c.numberedInTurn start rs)).toList := by
  induction rs generalizing start with
  | nil => rfl
  | cons r rs ih =>
    obtain ⟨hr, hrs⟩ := List.forall_mem_cons.mp h
    cases rs with
    | nil => simpa [numberedInTurn] using (c.toList_numberedFrom start r).symm
    | cons r' rs =>
      have hseparator : (";\n".toList).count '?' = 0 := by decide
      have hcount : r.rawSql.toList.count '?' = r.flatBindings.length := hr
      have ih := ih (start + r.flatBindings.length) hrs
      rw [numberedInTurn, List.map_cons, List.map_cons, String.intercalate_cons_cons,
        ← List.map_cons, String.toList_append, String.toList_append, fill_append, fill_append,
        ← toList_numberedFrom, fill_of_not_mem (show '?' ∉ ";\n".toList by decide),
        List.count_append, hcount, hseparator, Nat.add_zero, ih]
      rw [numberedInTurn, String.intercalate_cons_cons, String.toList_append, String.toList_append]

variable {c} in
theorem exists_fragments {qs : List Query} {rs : List Compiled}
    (h : List.Forall₂ (fun q r => c.compile q = .ok r) qs rs) :
    ∃ fs, qs.mapM c.compileRaw = .ok fs ∧ fs.map (·.sql) = rs.map (·.rawSql) ∧
      fs.flatMap (·.bindings) = rs.flatMap (·.bindings) ∧
      ∀ r ∈ rs, marks r.rawSql = r.flatBindings.length := by
  induction h with
  | nil => exact ⟨[], List.mapM_nil, rfl, rfl, List.forall_mem_nil _⟩
  | cons hr h ih =>
    obtain ⟨f, hf, rfl⟩ := compile_eq_ok.mp hr
    obtain ⟨fs, hfs, hsql, hbindings, hmarks⟩ := ih
    refine ⟨f :: fs, ?_, ?_, ?_, List.forall_mem_cons.mpr ⟨marks_compileRaw hf, hmarks⟩⟩
    · rw [List.mapM_cons, hf, hfs]
      rfl
    · rw [List.map_cons, List.map_cons, hsql]
      rfl
    · rw [List.flatMap_cons, List.flatMap_cons, hbindings]
      rfl

theorem flatten_flatMap (rs : List Compiled) :
    Value.flatten (rs.flatMap (·.bindings)) = rs.flatMap (·.flatBindings) := by
  induction rs with
  | nil => rfl
  | cons r rs ih =>
    rw [List.flatMap_cons, List.flatMap_cons, Value.flatten_append, ih]
    rfl

/-- A result is the batch of others: their SQL with placeholders has semicolons in between, their
values stand in turn, and are numbered through from zero. In its SQL with names the parameters of
each go on where those before it end; alone they are numbered from zero. -/
structure Concatenates (rs : List Compiled) (r : Compiled) : Prop where
  query : r.query = none
  rawSql : r.rawSql = ";\n".intercalate (rs.map (·.rawSql))
  bindings : r.bindings = rs.flatMap (·.bindings)
  flatBindings : r.flatBindings = rs.flatMap (·.flatBindings)
  named : r.named = r.flatBindings.zipIdx.map fun (v, i) => (c.markerName i, v)
  sql : r.sql = ";\n".intercalate (c.numberedInTurn 0 rs)
  alone : ∀ s ∈ rs, s.sql = c.numberedFrom 0 s

theorem compileMany_of_forall₂ {qs : List Query} {rs : List Compiled}
    (h : List.Forall₂ (fun q r => c.compile q = .ok r) qs rs) :
    ∃ r, c.compileMany qs = .ok r ∧ c.Concatenates rs r := by
  obtain ⟨fs, hfs, hsql, hbindings, hmarks⟩ := exists_fragments h
  refine ⟨c.nameMarkers none
    ⟨";\n".intercalate (rs.map Compiled.rawSql), rs.flatMap Compiled.bindings⟩, ?_, ?_⟩
  · rw [compileMany, hfs, ← hsql, ← hbindings]
    rfl
  · refine ⟨rfl, rfl, rfl, flatten_flatMap rs, rfl, ?_, fun s hs => ?_⟩
    · rw [sql_nameMarkers, ← String.toList_inj, toList_numberedFrom]
      exact c.fill_batch 0 hmarks
    · obtain ⟨q, -, hq⟩ := forall₂_mem_right h hs
      obtain ⟨f, -, rfl⟩ := compile_eq_ok.mp hq
      exact c.sql_nameMarkers _ f

/-- A batch is the concatenation of its statements. It compiles if and only if each of them does,
and else has the fault of the first that does not. -/
theorem compileMany_concatenates (qs : List Query) :
    (∀ rs, List.Forall₂ (fun q r => c.compile q = .ok r) qs rs →
      ∃ r, c.compileMany qs = .ok r ∧ c.Concatenates rs r) ∧
    ((∃ r, c.compileMany qs = .ok r) ↔ ∀ q ∈ qs, ∃ r, c.compile q = .ok r) ∧
    ∀ e, c.compileMany qs = .error e ↔
      ∃ before q after, qs = before ++ q :: after ∧ (∀ p ∈ before, ∃ r, c.compile p = .ok r) ∧
        c.compile q = .error e := by
  refine ⟨fun rs h => c.compileMany_of_forall₂ h, ⟨fun ⟨r, hr⟩ q hq => ?_, fun hall => ?_⟩,
    fun e => ?_⟩
  · obtain ⟨fs, hfs, -⟩ := bind_eq_ok hr
    obtain ⟨f, -, hf⟩ := forall₂_mem_left (mapM_eq_ok.mp hfs) hq
    exact compiles_iff.mpr ⟨f, hf⟩
  · cases hrs : qs.mapM c.compile with
    | ok rs =>
      obtain ⟨r, hr, -⟩ := c.compileMany_of_forall₂ (mapM_eq_ok.mp hrs)
      exact ⟨r, hr⟩
    | error e =>
      obtain ⟨before, q, after, rfl, -, hq⟩ := mapM_eq_error.mp hrs
      obtain ⟨r, hr⟩ := hall q (by simp)
      rw [hq] at hr
      cases hr
  · simp only [compileMany_eq_error, mapM_eq_error, compile_eq_error, compiles_iff]

theorem compileMany_concatenates_arrays :
    ∃ r₁ r₂ r, (ofEngine .generic).compile arraysBound = .ok r₁ ∧
      (ofEngine .generic).compile (Query.build [.source (.table "u"), .equal "id" (.int 7)]) =
        .ok r₂ ∧
      (ofEngine .generic).compileMany
        [arraysBound, Query.build [.source (.table "u"), .equal "id" (.int 7)]] = .ok r ∧
      r₂.sql = "SELECT * FROM \"u\" WHERE \"id\" = @p0" ∧
      r.sql = "SELECT * FROM \"t\" WHERE a = @p0 OR b IN (@p1,@p2) OR c IN ();\n" ++
        "SELECT * FROM \"u\" WHERE \"id\" = @p3" := by
  obtain ⟨hbatch, -, -⟩ := compileMany_concatenates (ofEngine .generic)
    [arraysBound, Query.build [.source (.table "u"), .equal "id" (.int 7)]]
  obtain ⟨r, hr, hcat⟩ := hbatch _ (.cons rfl (.cons rfl .nil))
  refine ⟨_, _, r, rfl, rfl, hr, ?_, ?_⟩
  · decide +kernel
  · rw [hcat.sql]
    decide +kernel

end Compiler

end SqlDialects
