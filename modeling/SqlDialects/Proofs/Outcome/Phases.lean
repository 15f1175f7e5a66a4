import SqlDialects.Compiled
import SqlDialects.Proofs.Statement.Ctes

/-!
The phases of compiling. A statement is assembled from the definitions of its expressions and its
body, with one placeholder for each value; the placeholders of arrays are expanded, and what comes
out is given names.
-/

namespace SqlDialects

namespace Fragment

instance : Append Fragment := ⟨fun a b => ⟨a.sql ++ b.sql, a.bindings ++ b.bindings⟩⟩

variable (a b : Fragment)

@[simp] theorem sql_append : (a ++ b).sql = a.sql ++ b.sql := rfl
@[simp] theorem bindings_append : (a ++ b).bindings = a.bindings ++ b.bindings := rfl

def defining (definitions : List Fragment) : Fragment where
  sql := if definitions.isEmpty then ""
    else "WITH " ++ ",\n".intercalate (definitions.map fun d => Text.trim d.sql) ++ "\n"
  bindings := definitions.flatMap (·.bindings)

theorem defining_nil_append (f : Fragment) : defining [] ++ f = f :=
  congrArg₂ Fragment.mk String.empty_append (List.nil_append _)

def expand (f : Fragment) : Except Fault Fragment :=
  (expandMarkers "?" f.bindings f.sql).map (⟨·, f.bindings⟩)

variable {a b} in
theorem expand_eq_ok : a.expand = .ok b ↔
    expandMarkers "?" a.bindings a.sql = .ok b.sql ∧ a.bindings = b.bindings := by
  obtain ⟨sql, bindings⟩ := b
  unfold expand
  cases expandMarkers "?" a.bindings a.sql <;> simp [Except.map]

end Fragment

namespace Compiler

section Assembling

variable (c : Compiler) {p q : Query}

def front (q : Query) : Except Fault Fragment := do
  let found ← q.ctes c.engine
  let definitions ← found.mapM (c.cteDefinition q)
  return Fragment.defining definitions

variable {c}

theorem front_congr (hv : p.vars = q.vars)
    (h : p.bucket .cte (some c.engine) = q.bucket .cte (some c.engine)) :
    c.front p = c.front q := by
  have hdefinition : c.cteDefinition p = c.cteDefinition q := by
    funext s
    rw [cteDefinition, hv, cteDefinition]
  rw [front, Query.ctes_congr h, hdefinition, front]

theorem front_of_noCte (h : q.has .cte (some c.engine) = false) :
    c.front q = .ok (Fragment.defining []) := by
  rw [front, Query.ctes_of_none h]
  rfl

theorem front_eq_ok {f : Fragment} : c.front q = .ok f ↔ ∃ found definitions,
    q.ctes c.engine = .ok found ∧ found.mapM (c.cteDefinition q) = .ok definitions ∧
      f = Fragment.defining definitions := by
  constructor
  · intro h
    obtain ⟨found, hfound, h⟩ := bind_eq_ok h
    obtain ⟨definitions, hdefinitions, h⟩ := bind_eq_ok h
    cases h
    exact ⟨found, definitions, hfound, hdefinitions, rfl⟩
  · rintro ⟨found, definitions, hfound, hdefinitions, rfl⟩
    simp only [front, hfound, bind, Except.bind, hdefinitions]
    rfl

theorem prependCtes_eq (f : Fragment) : c.prependCtes q f = (c.front q).map (· ++ f) := by
  rw [prependCtes, front]
  cases q.ctes c.engine with
  | error e => rfl
  | ok found =>
    cases found with
    | nil => exact congrArg Except.ok (Fragment.defining_nil_append f).symm
    | cons s found =>
      simp only [bind, Except.bind, List.isEmpty_cons, Bool.false_eq_true, if_false]
      cases hdefinitions : (s :: found).mapM (c.cteDefinition q) with
      | error e => rfl
      | ok definitions =>
        cases mapM_eq_ok.mp hdefinitions
        rfl

/-- A statement is its body behind what stands in front of it. -/
theorem assemble_eq : c.assemble q = (do
    let body ← c.body q
    let front ← c.front q
    return front ++ body) := by
  refine bind_congr fun body => ?_
  split
  · rw [prependCtes_eq]
    cases c.front q <;> rfl
  · next hnone =>
    rw [front_of_noCte (Bool.not_eq_true _ ▸ hnone)]
    exact congrArg Except.ok (Fragment.defining_nil_append body).symm

theorem assemble_of_noCte (h : q.has .cte (some c.engine) = false) : c.assemble q = c.body q := by
  rw [assemble, h]
  cases c.body q <;> rfl

theorem assemble_eq_ok {whole : Fragment} : c.assemble q = .ok whole ↔ ∃ front body,
    c.front q = .ok front ∧ c.body q = .ok body ∧ whole = front ++ body := by
  rw [assemble_eq]
  constructor
  · intro h
    obtain ⟨body, hbody, h⟩ := bind_eq_ok h
    obtain ⟨front, hfront, h⟩ := bind_eq_ok h
    cases h
    exact ⟨front, body, hfront, hbody, rfl⟩
  · rintro ⟨front, body, hfront, hbody, rfl⟩
    rw [hbody, hfront]
    rfl

end Assembling

variable {c : Compiler} {q : Query}

theorem compileRaw_eq : c.compileRaw q = c.assemble q >>= Fragment.expand := by
  rw [compileRaw, marker_eq]
  refine congrArg (c.assemble q >>= ·) (funext fun f => ?_)
  rw [Fragment.expand]
  cases expandMarkers "?" f.bindings f.sql <;> rfl

theorem compileRaw_eq_ok {f : Fragment} :
    c.compileRaw q = .ok f ↔ ∃ whole, c.assemble q = .ok whole ∧ whole.expand = .ok f := by
  rw [compileRaw_eq]
  constructor
  · exact bind_eq_ok
  · rintro ⟨whole, hwhole, hexpand⟩
    rw [hwhole]
    exact hexpand

theorem compile_eq_ok {r : Compiled} :
    c.compile q = .ok r ↔ ∃ f, c.compileRaw q = .ok f ∧ r = c.nameMarkers (some q) f := by
  constructor
  · intro h
    obtain ⟨f, hf, h⟩ := bind_eq_ok h
    cases h
    exact ⟨f, hf, rfl⟩
  · rintro ⟨f, hf, rfl⟩
    rw [compile, hf]
    rfl

theorem compiles_iff : (∃ r, c.compile q = .ok r) ↔ ∃ f, c.compileRaw q = .ok f := by
  constructor
  · rintro ⟨r, hr⟩
    obtain ⟨f, hf, -⟩ := compile_eq_ok.mp hr
    exact ⟨f, hf⟩
  · rintro ⟨f, hf⟩
    exact ⟨_, compile_eq_ok.mpr ⟨f, hf, rfl⟩⟩

theorem compile_eq_error {e : Fault} : c.compile q = .error e ↔ c.compileRaw q = .error e := by
  rw [compile]
  cases c.compileRaw q <;> simp [bind, Except.bind, pure, Except.pure]

/-- What a statement compiles to is what it is assembled to, with its arrays expanded. -/
theorem assembled_of_compile {r : Compiled} (h : c.compile q = .ok r) :
    ∃ whole, c.assemble q = .ok whole ∧ whole.expand = .ok ⟨r.rawSql, r.bindings⟩ := by
  obtain ⟨f, hf, rfl⟩ := compile_eq_ok.mp h
  exact compileRaw_eq_ok.mp hf

variable {qs : List Query}

theorem compileMany_eq_ok {r : Compiled} :
    c.compileMany qs = .ok r ↔ ∃ fs, qs.mapM c.compileRaw = .ok fs ∧
      r = c.nameMarkers none ⟨";\n".intercalate (fs.map (·.sql)), fs.flatMap (·.bindings)⟩ := by
  constructor
  · intro h
    obtain ⟨fs, hfs, h⟩ := bind_eq_ok h
    cases h
    exact ⟨fs, hfs, rfl⟩
  · rintro ⟨fs, hfs, rfl⟩
    rw [compileMany, hfs]
    rfl

theorem compileMany_eq_error {e : Fault} :
    c.compileMany qs = .error e ↔ qs.mapM c.compileRaw = .error e := by
  rw [compileMany]
  cases qs.mapM c.compileRaw <;> simp [bind, Except.bind, pure, Except.pure]

end Compiler

end SqlDialects
