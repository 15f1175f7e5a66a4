import SqlDialects.Proofs.Placeholder.Batch
import SqlDialects.Registry

/-!
Registries in use. Main statement: after any changes a registry lists each code once, in the order
in which the codes were first registered since it was made. The compiler of a code is the one that
was registered last for it, with all that it was made to accept since, and a statement is compiled
with all of them just as with each in turn.
-/

namespace SqlDialects

namespace Compiler

/-- One compiler accepts what another does and the operators of a list, in lower case, and it is the
other in all else. -/
structure ExtendedBy (c : Compiler) (operators : List String) (d : Compiler) : Prop where
  engine : d.engine = c.engine
  legacyPaging : d.legacyPaging = c.legacyPaging
  markerPrefix : d.markerPrefix = c.markerPrefix
  operators : ∀ op, op ∈ d.operators ↔ op ∈ c.operators ∨ ∃ added ∈ operators, Text.lower added = op

theorem extendedBy_accept (c : Compiler) (operators : List String) :
    c.ExtendedBy operators (c.accept operators) := by
  refine ⟨rfl, rfl, rfl, fun op => ?_⟩
  rw [mem_operators_accept, List.mem_map]

theorem accept_nil (c : Compiler) : c.accept [] = c := rfl

theorem accept_append (c : Compiler) (operators more : List String) :
    c.accept (operators ++ more) = (c.accept operators).accept more := by
  unfold accept
  rw [List.map_append, List.foldl_append]

end Compiler

theorem Engine.code_inj {e e' : Engine} : e.code = e'.code ↔ e = e' := by
  refine ⟨fun h => ?_, congrArg Engine.code⟩
  have hcode := Engine.ofCode?_code e
  rw [h, Engine.ofCode?_code] at hcode
  exact (Option.some.inj hcode).symm

namespace Registry

inductive Change where
  | empty
  /-- All engines under one configuration, the standard one among them. -/
  | ofConfig (config : Config)
  | register (c : Compiler)
  | accept (code : String) (operators : List String)

namespace Change

def startsOver : Change → Bool
  | .empty | .ofConfig _ => true
  | _ => false

def registered : Change → List Compiler
  | .ofConfig config => Engine.all.map (Compiler.ofConfig · config)
  | .register c => [c]
  | _ => []

def accepted (code : String) : Change → List String
  | .accept other operators => if other = code then operators else []
  | _ => []

/-- The compiler of a code, if there is one, stays in its place. -/
def Spares (code : String) (s : Change) : Prop :=
  s.startsOver = false ∧ ∀ c ∈ s.registered, c.engine.code ≠ code

end Change

def apply (r : Registry) : Change → Registry
  | .empty => empty
  | .ofConfig config => ofConfig config
  | .register c => r.register c
  | .accept code operators => r.accept code operators

def run (r : Registry) (changes : List Change) : Registry := changes.foldl apply r

def registrations (changes : List Change) : List Compiler :=
  changes.foldl (fun cs s => (if s.startsOver then [] else cs) ++ s.registered) []

/-- Each of the codes once, in the order in which they came first. -/
structure Enumerates (codes came : List String) : Prop where
  nodup : codes.Nodup
  mem : ∀ code, code ∈ codes ↔ code ∈ came
  order : codes.Pairwise fun code later => came.idxOf code < came.idxOf later

/-- The compiler that was registered last for the code, and what its code was made to accept
since. -/
def LastRegistered (changes : List Change) (code : String) (registered : Compiler)
    (operators : List String) : Prop :=
  ∃ before s after, changes = before ++ s :: after ∧ registered ∈ s.registered ∧
    registered.engine.code = code ∧ (∀ t ∈ after, t.Spares code) ∧
    operators = after.flatMap (Change.accepted code)

/-- The compiler that was registered last for the code, extended by what it was made to accept
since. -/
def Kept (changes : List Change) (code : String) (c : Compiler) : Prop :=
  ∃ registered operators, LastRegistered changes code registered operators ∧
    c = registered.accept operators ∧ registered.ExtendedBy operators c

def compileFor (r : Registry) (code : String) (q : Query) : Option (Except Fault Compiled) :=
  (r.get? code).map (·.compile q)

/-- All compilers give what each of them gives in turn, up to the first fault. -/
structure CompilesInTurn (r : Registry) (q : Query) : Prop where
  eq_ok : ∀ results, r.compileAll q = .ok results ↔
    results.map (·.1) = r.codes ∧ ∀ p ∈ results, r.compileFor p.1 q = some (.ok p.2)
  succeeds : (∃ results, r.compileAll q = .ok results) ↔
    ∀ code ∈ r.codes, ∃ result, r.compileFor code q = some (.ok result)
  eq_error : ∀ e, r.compileAll q = .error e ↔
    ∃ before code after, r.codes = before ++ code :: after ∧
      (∀ b ∈ before, ∃ result, r.compileFor b q = some (.ok result)) ∧
      r.compileFor code q = some (.error e)

section Codes

theorem codes_register (r : Registry) (c : Compiler) :
    (r.register c).codes =
      if c.engine.code ∈ r.codes then r.codes else r.codes ++ [c.engine.code] := by
  obtain ⟨cs⟩ := r
  show (place c cs).map (·.engine.code) = if c.engine.code ∈ cs.map (·.engine.code) then
    cs.map (·.engine.code) else cs.map (·.engine.code) ++ [c.engine.code]
  induction cs with
  | nil => rfl
  | cons d cs ih =>
    by_cases hd : d.engine = c.engine
    · simp [place, hd]
    · have hcode : c.engine.code ≠ d.engine.code := fun h => hd (Engine.code_inj.mp h).symm
      rw [place, if_neg hd, List.map_cons, ih, List.map_cons]
      simp only [List.mem_cons, hcode, false_or]
      split <;> rfl

theorem codes_accept (r : Registry) (code : String) (operators : List String) :
    (r.accept code operators).codes = r.codes := by
  rw [codes, accept, List.map_map, codes]
  refine List.map_congr_left fun c _ => ?_
  rw [Function.comp_apply]
  split <;> rfl

theorem Enumerates.concat {codes came : List String} (h : Enumerates codes came) (code : String) :
    Enumerates (if code ∈ codes then codes else codes ++ [code]) (came ++ [code]) := by
  have hidx {known : String} (hk : known ∈ codes) :
      (came ++ [code]).idxOf known = came.idxOf known :=
    List.idxOf_append_of_mem ((h.mem known).mp hk)
  have horder : codes.Pairwise fun known later =>
      (came ++ [code]).idxOf known < (came ++ [code]).idxOf later := by
    refine h.order.imp_of_mem fun hk hl hlt => ?_
    rwa [hidx hk, hidx hl]
  split
  · next hc =>
    refine ⟨h.nodup, fun other => ?_, horder⟩
    rw [List.mem_append, List.mem_singleton, ← h.mem other]
    exact ⟨Or.inl, fun ho => ho.elim id fun he => he ▸ hc⟩
  · next hc =>
    refine ⟨?_, fun other => ?_, List.pairwise_append.mpr ⟨horder, List.pairwise_singleton _ _,
      fun known hk later hl => ?_⟩⟩
    · exact List.nodup_append.mpr ⟨h.nodup, List.nodup_singleton _,
        fun known hk other ho heq => hc (List.mem_singleton.mp ho ▸ heq ▸ hk)⟩
    · rw [List.mem_append, List.mem_append, h.mem other]
    · obtain rfl := List.mem_singleton.mp hl
      have hnew : later ∉ came := fun hm => hc ((h.mem later).mpr hm)
      rw [hidx hk, List.idxOf_append_of_notMem hnew]
      exact Nat.lt_add_right _ (List.idxOf_lt_length_iff.mpr ((h.mem known).mp hk))

theorem enumerates_all : Enumerates (Engine.all.map (·.code)) (Engine.all.map (·.code)) where
  nodup := by decide
  mem _ := Iff.rfl
  order := by decide

theorem run_concat (r : Registry) (changes : List Change) (s : Change) :
    r.run (changes ++ [s]) = (r.run changes).apply s :=
  List.foldl_append

theorem registrations_concat (changes : List Change) (s : Change) :
    registrations (changes ++ [s]) =
      (if s.startsOver then [] else registrations changes) ++ s.registered :=
  List.foldl_append

theorem enumerates_run (changes : List Change) :
    Enumerates (run empty changes).codes ((registrations changes).map (·.engine.code)) := by
  -- From the back, for what is registered last comes behind all that was there.
  induction changes using List.reverseRecOn with
  | nil => exact ⟨List.nodup_nil, fun _ => Iff.rfl, .nil⟩
  | append_singleton changes s ih =>
    rw [run_concat, registrations_concat]
    cases s with
    | empty => exact ⟨List.nodup_nil, fun _ => Iff.rfl, .nil⟩
    | ofConfig config => exact enumerates_all
    | register c =>
      rw [apply, codes_register]
      simpa [Change.startsOver, Change.registered] using ih.concat c.engine.code
    | accept code operators =>
      rw [apply, codes_accept]
      simpa [Change.startsOver, Change.registered] using ih

end Codes

section LookUp

theorem find?_code_eq_some_iff {cs : List Compiler} (h : (cs.map (·.engine.code)).Nodup)
    {code : String} {c : Compiler} :
    cs.find? (·.engine.code == code) = some c ↔ c ∈ cs ∧ c.engine.code = code := by
  constructor
  · intro hc
    exact ⟨List.mem_of_find?_eq_some hc, by simpa using List.find?_some hc⟩
  · rintro ⟨hc, rfl⟩
    cases hfind : cs.find? (·.engine.code == c.engine.code) with
    | none => exact absurd (List.find?_eq_none.mp hfind c hc) (by simp)
    | some d =>
      have hcode : d.engine.code = c.engine.code := by simpa using List.find?_some hfind
      rw [List.inj_on_of_nodup_map h (List.mem_of_find?_eq_some hfind) hc hcode]

theorem get?_register (r : Registry) (c : Compiler) (code : String) :
    (r.register c).get? code = if c.engine.code = code then some c else r.get? code := by
  obtain ⟨cs⟩ := r
  show (place c cs).find? (·.engine.code == code) =
    if c.engine.code = code then some c else cs.find? (·.engine.code == code)
  induction cs with
  | nil => by_cases hc : c.engine.code = code <;> simp [place, hc]
  | cons d cs ih =>
    by_cases hd : d.engine = c.engine
    · rw [place, if_pos hd]
      by_cases hc : c.engine.code = code <;> simp [hc, hd]
    · rw [place, if_neg hd]
      by_cases hdc : d.engine.code = code
      · have hc : c.engine.code ≠ code := fun hc => hd (Engine.code_inj.mp (hdc.trans hc.symm))
        rw [if_neg hc, List.find?_cons_of_pos (by simp [hdc]),
          List.find?_cons_of_pos (by simp [hdc])]
      · rw [List.find?_cons_of_neg (by simp [hdc]), ih, List.find?_cons_of_neg (by simp [hdc])]

theorem get?_accept (r : Registry) (other : String) (operators : List String) (code : String) :
    (r.accept other operators).get? code =
      (r.get? code).map fun c => if other = code then c.accept operators else c := by
  have hcode : (fun c : Compiler => c.engine.code == code) ∘
      (fun c => if c.engine.code = other then c.accept operators else c) =
        fun c => c.engine.code == code := by
    funext c
    rw [Function.comp_apply]
    split <;> rfl
  rw [get?, accept, List.find?_map, hcode, get?]
  refine Option.map_congr fun c hc => ?_
  have hc : c.engine.code = code := by simpa using List.find?_some hc
  simp only [hc, eq_comm]

theorem get?_apply (r : Registry) (s : Change) (code : String) :
    (r.apply s).get? code = (s.registered.find? (·.engine.code == code)).or
      (if s.startsOver then none
        else (r.get? code).map fun c => c.accept (s.accepted code)) := by
  cases s with
  | empty => rfl
  | ofConfig config => exact (Option.or_none).symm
  | register c =>
    rw [apply, get?_register]
    by_cases hc : c.engine.code = code <;>
      simp [Change.registered, Change.startsOver, Change.accepted, Compiler.accept_nil, hc]
  | accept other operators =>
    rw [apply, get?_accept]
    by_cases ho : other = code <;>
      simp [Change.registered, Change.startsOver, Change.accepted, Compiler.accept_nil, ho]

theorem nodup_registered (s : Change) : (s.registered.map (·.engine.code)).Nodup := by
  cases s with
  | ofConfig config => exact enumerates_all.nodup
  | register c => exact List.nodup_singleton _
  | empty | accept => exact List.nodup_nil

theorem lastRegistered_concat {changes : List Change} {s : Change} {code : String} {c : Compiler}
    {operators : List String} : LastRegistered (changes ++ [s]) code c operators ↔
      (c ∈ s.registered ∧ c.engine.code = code) ∧ operators = [] ∨
      s.Spares code ∧ ∃ earlier, LastRegistered changes code c earlier ∧
        operators = earlier ++ s.accepted code := by
  constructor
  · rintro ⟨before, t, after, hchanges, hmem, hcode, hspares, rfl⟩
    rcases List.eq_nil_or_concat' after with rfl | ⟨after, u, rfl⟩
    · obtain ⟨-, ht⟩ := List.append_inj' hchanges rfl
      cases ht
      exact .inl ⟨⟨hmem, hcode⟩, rfl⟩
    · rw [← List.cons_append, ← List.append_assoc] at hchanges
      obtain ⟨rfl, hu⟩ := List.append_inj' hchanges rfl
      cases hu
      refine .inr ⟨hspares s (by simp), _, ⟨before, t, after, rfl, hmem, hcode,
        fun v hv => hspares v (List.mem_append_left _ hv), rfl⟩, ?_⟩
      rw [List.flatMap_append, List.flatMap_singleton]
  · rintro (⟨⟨hmem, hcode⟩, rfl⟩ | ⟨hs, _, ⟨before, t, after, rfl, hmem, hcode, hspares, rfl⟩, rfl⟩)
    · exact ⟨changes, s, [], rfl, hmem, hcode, nofun, rfl⟩
    · refine ⟨before, t, after ++ [s], by simp, hmem, hcode, fun v hv => ?_, ?_⟩
      · rcases List.mem_append.mp hv with hv | hv
        · exact hspares v hv
        · exact List.mem_singleton.mp hv ▸ hs
      · rw [List.flatMap_append, List.flatMap_singleton]

theorem kept_iff {changes : List Change} {code : String} {c : Compiler} :
    Kept changes code c ↔ ∃ registered operators,
      LastRegistered changes code registered operators ∧ c = registered.accept operators := by
  constructor
  · rintro ⟨registered, operators, hlast, rfl, -⟩
    exact ⟨registered, operators, hlast, rfl⟩
  · rintro ⟨registered, operators, hlast, rfl⟩
    exact ⟨registered, operators, hlast, rfl, registered.extendedBy_accept operators⟩

theorem kept_concat {changes : List Change} {s : Change} {code : String} {c : Compiler} :
    Kept (changes ++ [s]) code c ↔
      c ∈ s.registered ∧ c.engine.code = code ∨
      s.Spares code ∧ ∃ d, Kept changes code d ∧ c = d.accept (s.accepted code) := by
  simp only [kept_iff, lastRegistered_concat]
  constructor
  · rintro ⟨registered, operators, ⟨hown, rfl⟩ | ⟨hs, earlier, hlast, rfl⟩, rfl⟩
    · exact .inl hown
    · exact .inr ⟨hs, _, ⟨registered, earlier, hlast, rfl⟩, registered.accept_append _ _⟩
  · rintro (hown | ⟨hs, _, ⟨registered, earlier, hlast, rfl⟩, rfl⟩)
    · exact ⟨c, [], .inl ⟨hown, rfl⟩, c.accept_nil.symm⟩
    · exact ⟨registered, _, .inr ⟨hs, earlier, hlast, rfl⟩, (registered.accept_append _ _).symm⟩

theorem get?_run {changes : List Change} {code : String} {c : Compiler} :
    (run empty changes).get? code = some c ↔ Kept changes code c := by
  induction changes using List.reverseRecOn generalizing c with
  | nil =>
    refine iff_of_false nofun ?_
    rintro ⟨-, -, ⟨before, s, after, hchanges, -⟩, -⟩
    exact List.append_ne_nil_of_right_ne_nil _ (List.cons_ne_nil s after) hchanges.symm
  | append_singleton changes s ih =>
    have hspares : s.Spares code ↔
        s.registered.find? (·.engine.code == code) = none ∧ s.startsOver = false := by
      rw [Change.Spares, List.find?_eq_none, and_comm]
      simp
    rw [run_concat, get?_apply, Option.or_eq_some_iff, kept_concat, hspares,
      find?_code_eq_some_iff (nodup_registered s), and_assoc]
    refine or_congr_right (and_congr_right fun _ => ?_)
    cases hs : s.startsOver with
    | true => simp
    | false =>
      simp only [Bool.false_eq_true, if_false, Option.map_eq_some_iff, true_and, ih]
      exact exists_congr fun d => and_congr_right fun _ => eq_comm

end LookUp

section AllCompilers

variable {r : Registry}

theorem get?_of_mem (h : r.codes.Nodup) {c : Compiler} (hc : c ∈ r.compilers) :
    r.get? c.engine.code = some c :=
  (find?_code_eq_some_iff h).mpr ⟨hc, rfl⟩

theorem compileFor_of_mem (h : r.codes.Nodup) {c : Compiler} (hc : c ∈ r.compilers) (q : Query) :
    r.compileFor c.engine.code q = some (c.compile q) := by
  rw [compileFor, get?_of_mem h hc, Option.map_some]

theorem entry_eq_ok {c : Compiler} {q : Query} {p : String × Compiled} :
    (c.compile q).map (c.engine.code, ·) = .ok p ↔
      c.engine.code = p.1 ∧ c.compile q = .ok p.2 := by
  cases c.compile q <;> simp [Except.map, Prod.ext_iff]

theorem entry_eq_error {c : Compiler} {q : Query} {e : Fault} :
    (c.compile q).map (c.engine.code, ·) = .error e ↔ c.compile q = .error e := by
  cases c.compile q <;> simp [Except.map]

theorem forall₂_results_iff {cs : List Compiler} {q : Query}
    (h : ∀ c ∈ cs, r.compileFor c.engine.code q = some (c.compile q))
    {results : List (String × Compiled)} :
    List.Forall₂ (fun c p => (c.compile q).map (c.engine.code, ·) = .ok p) cs results ↔
      results.map (·.1) = cs.map (·.engine.code) ∧
        ∀ p ∈ results, r.compileFor p.1 q = some (.ok p.2) := by
  induction cs generalizing results with
  | nil => cases results <;> simp
  | cons c cs ih =>
    obtain ⟨hc, hcs⟩ := List.forall_mem_cons.mp h
    cases results with
    | nil => simp
    | cons p results =>
      rw [List.forall₂_cons, ih hcs, entry_eq_ok, List.map_cons, List.map_cons, List.cons.injEq,
        List.forall_mem_cons]
      constructor
      · rintro ⟨⟨hcode, hresult⟩, hcodes, hall⟩
        exact ⟨⟨hcode.symm, hcodes⟩, by rw [← hcode, hc, hresult], hall⟩
      · rintro ⟨⟨hcode, hcodes⟩, hfirst, hall⟩
        rw [hcode, hc] at hfirst
        exact ⟨⟨hcode.symm, Option.some.inj hfirst⟩, hcodes, hall⟩

theorem compileAll_eq_ok (h : r.codes.Nodup) {q : Query} {results : List (String × Compiled)} :
    r.compileAll q = .ok results ↔
      results.map (·.1) = r.codes ∧ ∀ p ∈ results, r.compileFor p.1 q = some (.ok p.2) :=
  mapM_eq_ok.trans (forall₂_results_iff fun _ hc => compileFor_of_mem h hc q)

theorem compileAll_eq_error (h : r.codes.Nodup) {q : Query} {e : Fault} :
    r.compileAll q = .error e ↔
      ∃ before code after, r.codes = before ++ code :: after ∧
        (∀ b ∈ before, ∃ result, r.compileFor b q = some (.ok result)) ∧
        r.compileFor code q = some (.error e) := by
  have hfor (c : Compiler) (hc : c ∈ r.compilers) := compileFor_of_mem h hc q
  rw [compileAll, mapM_eq_error]
  constructor
  · rintro ⟨before, c, after, hcs, hbefore, hc⟩
    refine ⟨before.map (·.engine.code), c.engine.code, after.map (·.engine.code), ?_, ?_, ?_⟩
    · rw [codes, hcs, List.map_append, List.map_cons]
    · intro code hcode
      obtain ⟨b, hb, rfl⟩ := List.mem_map.mp hcode
      obtain ⟨p, hp⟩ := hbefore b hb
      refine ⟨p.2, ?_⟩
      rw [hfor b (hcs ▸ List.mem_append_left _ hb), (entry_eq_ok.mp hp).2]
    · rw [hfor c (hcs ▸ List.mem_append_right _ List.mem_cons_self), entry_eq_error.mp hc]
  · rintro ⟨before, code, after, hcodes, hbefore, hcode⟩
    obtain ⟨front, rest, hcs, rfl, hrest⟩ := List.map_eq_append_iff.mp hcodes
    obtain ⟨c, back, rfl, rfl, -⟩ := List.map_eq_cons_iff.mp hrest
    refine ⟨front, c, back, hcs, fun b hb => ?_, entry_eq_error.mpr ?_⟩
    · obtain ⟨result, hresult⟩ := hbefore _ (List.mem_map_of_mem hb)
      rw [hfor b (hcs ▸ List.mem_append_left _ hb)] at hresult
      exact ⟨(b.engine.code, result), entry_eq_ok.mpr ⟨rfl, Option.some.inj hresult⟩⟩
    · rw [hfor c (hcs ▸ List.mem_append_right _ List.mem_cons_self)] at hcode
      exact Option.some.inj hcode

theorem compilesInTurn (h : r.codes.Nodup) (q : Query) : r.CompilesInTurn q := by
  refine ⟨fun _ => compileAll_eq_ok h, ⟨fun ⟨results, hresults⟩ code hcode => ?_, fun hall => ?_⟩,
    fun _ => compileAll_eq_error h⟩
  · obtain ⟨hcodes, hown⟩ := (compileAll_eq_ok h).mp hresults
    obtain ⟨p, hp, rfl⟩ := List.mem_map.mp (hcodes ▸ hcode)
    exact ⟨p.2, hown p hp⟩
  · cases hresults : r.compileAll q with
    | ok results => exact ⟨results, rfl⟩
    | error e =>
      obtain ⟨before, code, after, hcodes, -, hcode⟩ := (compileAll_eq_error h).mp hresults
      obtain ⟨result, hresult⟩ := hall code (by simp [hcodes])
      rw [hcode] at hresult
      cases hresult

end AllCompilers

/-- After any changes a registry lists the codes in the order in which they were first registered
since it was made, and has for each of them the compiler that was registered last, which accepts
besides its own operators just those that it was made to accept since. All of them compile a
statement just as each does in turn. -/
theorem run_keeps_last_registered (changes : List Change) :
    let r := run empty changes
    Enumerates r.codes ((registrations changes).map (·.engine.code)) ∧
      (∀ code c, r.get? code = some c ↔ Kept changes code c) ∧ ∀ q, r.CompilesInTurn q :=
  ⟨enumerates_run changes, fun _ _ => get?_run, compilesInTurn (enumerates_run changes).nodup⟩

def replacedSqlite : List Change :=
  [.register (.ofEngine .sqlite), .accept "sqlite" ["~*"], .register (.ofEngine .mySql),
    .register (.ofEngine .sqlite), .accept "mysql" ["SOUNDS LIKE"]]

theorem run_keeps_last_registered_replacedSqlite :
    let r := run empty replacedSqlite
    r.codes = ["sqlite", "mysql"] ∧
      (∃ c, r.get? "sqlite" = some c ∧ "~*" ∉ c.operators) ∧
      ∃ c, r.get? "mysql" = some c ∧ "sounds like" ∈ c.operators := by
  intro r
  obtain ⟨-, hkept, -⟩ := run_keeps_last_registered replacedSqlite
  have hsqlite : LastRegistered replacedSqlite "sqlite" (.ofEngine .sqlite) [] := by
    refine ⟨replacedSqlite.take 3, .register (.ofEngine .sqlite), replacedSqlite.drop 4, rfl,
      List.mem_singleton_self _, rfl, ?_, by decide⟩
    rintro t ht
    obtain rfl := List.mem_singleton.mp ht
    exact ⟨rfl, nofun⟩
  have hmySql : LastRegistered replacedSqlite "mysql" (.ofEngine .mySql) ["SOUNDS LIKE"] := by
    refine ⟨replacedSqlite.take 2, .register (.ofEngine .mySql), replacedSqlite.drop 3, rfl,
      List.mem_singleton_self _, rfl, ?_, by decide⟩
    intro t ht
    rcases List.mem_pair.mp ht with rfl | rfl
    · refine ⟨rfl, fun c hc => ?_⟩
      obtain rfl := List.mem_singleton.mp hc
      decide
    · exact ⟨rfl, nofun⟩
  refine ⟨by decide, ⟨_, (hkept _ _).mpr (kept_iff.mpr ⟨_, _, hsqlite, rfl⟩), by decide⟩,
    _, (hkept _ _).mpr (kept_iff.mpr ⟨_, _, hmySql, rfl⟩), by decide +kernel⟩

end Registry

end SqlDialects
