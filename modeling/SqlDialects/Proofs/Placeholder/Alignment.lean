import Mathlib.Data.List.Nodup
import SqlDialects.Proofs.Outcome.Phases
import SqlDialects.Proofs.Statement.Lookup
import SqlDialects.Proofs.Text.Mark
import SqlDialects.Proofs.Text.Pieces

/-!
In what is compiled there is one placeholder for each value, arrays taken apart: the names and the
literals of the values stand exactly where the placeholders do.
-/

namespace SqlDialects

open Text

theorem natText_injective : Function.Injective Number.natText := by
  intro m n h
  unfold Number.natText at h
  have hd : Number.digits m = Number.digits n := String.ofList_injective h
  rw [← Number.ofDigits_digits m, hd, Number.ofDigits_digits]

theorem marks_mark : marks "?" = 1 := by decide

theorem marks_intercalate_replicate (n : Nat) :
    marks (",".intercalate (List.replicate n "?")) = n := by
  induction n with
  | zero => rfl
  | succ n ih =>
    cases n with
    | zero => rfl
    | succ n =>
      rw [List.replicate_succ, List.replicate_succ, String.intercalate_cons_cons, marks_append,
        marks_append, ← List.replicate_succ, ih]
      have hc : marks "," = 0 := by decide
      have hm := marks_mark
      omega

theorem marks_expandMarker (v : Value) :
    marks (expandMarker "?" (some v)) = (Value.flatten [v]).length := by
  cases v with
  | array items =>
    show marks (",".intercalate (List.replicate items.length "?")) = _
    rw [marks_intercalate_replicate]
    simp [Value.flatten]
  | _ => exact marks_mark

theorem map_range_getElem? {α β : Type} (f : Option α → β) (xs : List α) :
    (List.range xs.length).map (fun i => f xs[i]?) = xs.map fun x => f (some x) := by
  refine List.ext_getElem (by simp) fun i h₁ h₂ => ?_
  have hi : i < xs.length := by simpa using h₂
  simp [List.getElem?_eq_getElem hi]

theorem count_expandMarker (values : List Value) :
    (values.flatMap fun v => (expandMarker "?" (some v)).toList).count '?' =
      (Value.flatten values).length := by
  induction values with
  | nil => rfl
  | cons v values ih =>
    have hv : (expandMarker "?" (some v)).toList.count '?' = (Value.flatten [v]).length :=
      marks_expandMarker v
    have happend := Value.flatten_append [v] values
    rw [List.singleton_append] at happend
    rw [List.flatMap_cons, List.count_append, hv, ih, happend, List.length_append]

theorem length_indexesOf_mark (sql : String) : (indexesOf "?" sql).length = marks sql :=
  length_indexesOf (by decide) sql

theorem marks_expandMarkers {bindings : List Value} {sql t : String}
    (h : expandMarkers "?" bindings sql = .ok t) : marks t = (Value.flatten bindings).length := by
  have hi := length_indexesOf_mark sql
  unfold expandMarkers at h
  by_cases hn : marks sql = bindings.length
  · rw [hi, hn] at h
    simp only [ne_eq, not_true_eq_false, if_false] at h
    cases h
    have hmarks := map_range_getElem? (fun v => (expandMarker "?" v).toList) bindings
    rw [marks, count_replaceEach (by decide), ← marks, hn, List.flatMap_def, hmarks,
      ← List.flatMap_def]
    exact count_expandMarker bindings
  · rw [hi] at h
    simp only [ne_eq, hn, not_false_eq_true, if_true] at h
    cases h

namespace Compiler

variable {c : Compiler}

theorem marks_compileRaw {q : Query} {f : Fragment} (h : c.compileRaw q = .ok f) :
    marks f.sql = (Value.flatten f.bindings).length := by
  obtain ⟨whole, -, hexpand⟩ := compileRaw_eq_ok.mp h
  obtain ⟨hsql, hbindings⟩ := Fragment.expand_eq_ok.mp hexpand
  rw [← hbindings]
  exact marks_expandMarkers hsql

theorem marks_batch {fs : List Fragment}
    (h : ∀ f ∈ fs, marks f.sql = (Value.flatten f.bindings).length) :
    marks (";\n".intercalate (fs.map (·.sql))) =
      (Value.flatten (fs.flatMap (·.bindings))).length := by
  induction fs with
  | nil => rfl
  | cons f fs ih =>
    have hf := h f List.mem_cons_self
    have ih := ih fun f hm => h f (List.mem_cons_of_mem _ hm)
    rw [List.flatMap_cons, Value.flatten_append, List.length_append, ← hf, ← ih]
    cases fs with
    | nil => simp [marks]
    | cons g fs =>
      rw [List.map_cons, List.map_cons, String.intercalate_cons_cons, marks_append, marks_append,
        ← List.map_cons]
      have hs : marks ";\n" = 0 := by decide
      omega

theorem exists_fragment {r : Compiled}
    (h : (∃ q, c.compile q = .ok r) ∨ ∃ qs, c.compileMany qs = .ok r) :
    ∃ query f, r = c.nameMarkers query f ∧ marks f.sql = (Value.flatten f.bindings).length := by
  rcases h with ⟨q, h⟩ | ⟨qs, h⟩
  · obtain ⟨f, hf, rfl⟩ := compile_eq_ok.mp h
    exact ⟨some q, f, rfl, marks_compileRaw hf⟩
  · obtain ⟨fs, hfs, rfl⟩ := compileMany_eq_ok.mp h
    refine ⟨none, _, rfl, marks_batch fun f hm => ?_⟩
    obtain ⟨q, -, hq⟩ := forall₂_mem_right (mapM_eq_ok.mp hfs) hm
    exact marks_compileRaw hq

theorem nodup_markerNames (c : Compiler) (n : Nat) : ((List.range n).map c.markerName).Nodup := by
  refine List.Nodup.map ?_ List.nodup_range
  intro i j h
  have hi : Number.natText i = Number.natText j := (String.append_right_inj _).mp h
  exact natText_injective hi

theorem named_nameMarkers (query : Option Query) (f : Fragment) :
    (c.nameMarkers query f).named.map (·.1) =
      (List.range (Value.flatten f.bindings).length).map c.markerName := by
  simp only [nameMarkers, List.map_map]
  refine List.ext_getElem (by simp) fun i h₁ h₂ => ?_
  simp

def literalOr : Option Value → String
  | some v => v.literal
  | none => "?"

/-- Around the placeholders of what is compiled stand its segments. There are as many
placeholders as values and as many names, each name is the prefix with its number and means the
value of that number, and no name stands for two. Named parameters and literals take exactly the
places of the placeholders. -/
theorem compiled_segments (c : Compiler) (r : Compiled)
    (h : (∃ q, c.compile q = .ok r) ∨ ∃ qs, c.compileMany qs = .ok r) :
    ∃ first rest, r.rawSql.toList.splitOn '?' = first :: rest ∧
      rest.length = r.flatBindings.length ∧ rest.length = r.named.length ∧
      (∀ i v, r.flatBindings[i]? = some v →
        r.named[i]? = some (c.markerPrefix ++ Number.natText i, v)) ∧
      (r.named.map (·.1)).Nodup ∧
      r.sql.toList =
        first ++ (List.zipWith (· ++ ·) (r.named.map (·.1.toList)) rest).flatten ∧
      r.literalSql.toList =
        first ++ (List.zipWith (· ++ ·) (r.flatBindings.map (·.literal.toList)) rest).flatten := by
  obtain ⟨query, f, rfl, hm⟩ := exists_fragment h
  obtain ⟨first, rest, hs⟩ := List.exists_cons_of_ne_nil (List.splitOn_ne_nil '?' f.sql.toList)
  have hlen : rest.length = (Value.flatten f.bindings).length := by
    have hl := length_splitOn '?' f.sql.toList
    rw [hs, List.length_cons, ← marks, hm] at hl
    exact Nat.add_right_cancel hl
  have hkeys := c.named_nameMarkers query f
  have hrange : List.range' 0 rest.length = List.range (Value.flatten f.bindings).length := by
    rw [hlen, List.range_eq_range']
  refine ⟨first, rest, hs, hlen, ?_, ?_, ?_, ?_, ?_⟩
  · simpa [nameMarkers] using hlen
  · intro i v hv
    have hv : (Value.flatten f.bindings)[i]? = some v := hv
    simp [nameMarkers, hv, markerName]
  · rw [hkeys]
    exact c.nodup_markerNames _
  · have ht := toList_replaceEach (show "?".toList = ['?'] by decide) c.markerName f.sql
    show (replaceEach c.marker c.markerName f.sql).toList = _
    have hmap : (c.nameMarkers query f).named.map (·.1.toList) =
        ((c.nameMarkers query f).named.map (·.1)).map String.toList := by
      rw [List.map_map]
      rfl
    rw [marker_eq, ht, hs, weave_cons, hrange, hmap, hkeys, List.map_map]
    rfl
  · have ht := toList_replaceEach (show "?".toList = ['?'] by decide)
      (fun i => literalOr (Value.flatten f.bindings)[i]?) f.sql
    have hmap := map_range_getElem? (fun v => (literalOr v).toList) (Value.flatten f.bindings)
    rw [hs, weave_cons, hrange, hmap] at ht
    exact ht

def arraysBound : Query where
  clauses := [
    ⟨.source, none, .source (.table "t")⟩,
    ⟨.filter, none, .condition ⟨.raw "a = ? OR b IN (?) OR c IN (?)"
      [.string "?", .array [.bool true, .null], .array []], false, false⟩⟩]

theorem compiled_segments_arrays :
    ∃ r, (ofEngine .generic).compile arraysBound = .ok r ∧
      r.rawSql = "SELECT * FROM \"t\" WHERE a = ? OR b IN (?,?) OR c IN ()" ∧
      r.literalSql = "SELECT * FROM \"t\" WHERE a = '?' OR b IN (true,NULL) OR c IN ()" ∧
      ∃ first rest, r.rawSql.toList.splitOn '?' = first :: rest ∧
        rest.length = r.flatBindings.length ∧ (r.named.map (·.1)).Nodup := by
  have hr : ∃ r, (ofEngine .generic).compile arraysBound = .ok r ∧
      r.rawSql = "SELECT * FROM \"t\" WHERE a = ? OR b IN (?,?) OR c IN ()" ∧
      r.flatBindings = [.string "?", .bool true, .null] :=
    ⟨_, rfl, rfl, rfl⟩
  obtain ⟨r, hr, hraw, hflat⟩ := hr
  have hliteral : r.literalSql =
      "SELECT * FROM \"t\" WHERE a = '?' OR b IN (true,NULL) OR c IN ()" := by
    rw [Compiled.literalSql, hflat, hraw]
    decide +kernel
  obtain ⟨first, rest, hs, hlen, -, -, hnodup, -⟩ :=
    compiled_segments (ofEngine .generic) r (.inl ⟨arraysBound, hr⟩)
  exact ⟨r, hr, hraw, hliteral, first, rest, hs, hlen, hnodup⟩

end Compiler

end SqlDialects
