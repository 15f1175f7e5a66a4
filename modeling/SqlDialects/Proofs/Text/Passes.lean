import SqlDialects.Proofs.Text.Verbatim

/-!
The passes over SQL text for one mark after the other do what one scan for all marks does. What a
pass writes is read again by those that follow, but no escape of theirs is made by it, and no mark
that would change.
-/

namespace SqlDialects

namespace Text

section Scan

variable (escape : Char)

/-- One scan for all marks: an escaped mark loses its escape, and any other becomes what it stands
for. -/
def scanMarks (marks : List (Char × Char)) : List Char → List Char
  | [] => []
  | [c] => [(marks.lookup c).getD c]
  | c :: d :: rest =>
    if c = escape ∧ (marks.lookup d).isSome then d :: scanMarks marks rest
    else (marks.lookup c).getD c :: scanMarks marks (d :: rest)

variable {escape} {marks : List (Char × Char)}

theorem scanMarks_escaped {d : Char} (h : (marks.lookup d).isSome) (rest : List Char) :
    scanMarks escape marks (escape :: d :: rest) = d :: scanMarks escape marks rest :=
  if_pos ⟨rfl, h⟩

theorem scanMarks_unescaped {c : Char} {rest : List Char}
    (h : c = escape → ∀ d ∈ rest.head?, marks.lookup d = none) :
    scanMarks escape marks (c :: rest) =
      (marks.lookup c).getD c :: scanMarks escape marks rest := by
  cases rest with
  | nil => rfl
  | cons d rest =>
    refine if_neg fun ⟨hc, hd⟩ => ?_
    rw [h hc d rfl] at hd
    cases hd

theorem scanMarks_nil (text : List Char) : scanMarks escape [] text = text := by
  induction text with
  | nil => rfl
  | cons c rest ih =>
    rw [scanMarks_unescaped fun _ _ _ => rfl, ih, List.lookup_nil, Option.getD_none]

end Scan

/-- A later mark is another one, and changes no character that an earlier one becomes. -/
def Apart (p m : Char × Char) : Prop := p.1 ≠ m.1 ∧ (p.2 = m.1 → m.1 = m.2)

instance (p m : Char × Char) : Decidable (Apart p m) := inferInstanceAs (Decidable (_ ∧ _))

def Unescaping (escape : Char) (m : Char × Char) : Prop := m.1 ≠ escape ∧ m.2 ≠ escape

instance (escape : Char) (m : Char × Char) : Decidable (Unescaping escape m) :=
  inferInstanceAs (Decidable (_ ∧ _))

section Pass

variable {escape : Char} {marks : List (Char × Char)} {m : Char × Char}

theorem lookup_concat (c : Char) :
    (marks ++ [m]).lookup c = (marks.lookup c).or (if c = m.1 then some m.2 else none) := by
  obtain ⟨mark, becomes⟩ := m
  rw [List.lookup_append, List.lookup_singleton]
  simp only [beq_iff_eq]

theorem mem_of_lookup {c s : Char} (h : marks.lookup c = some s) : (c, s) ∈ marks := by
  obtain ⟨before, after, rfl, -⟩ := List.lookup_eq_some_iff.mp h
  simp

theorem pass_cons (hm : m.1 ≠ escape) {c : Char} {rest : List Char}
    (h : c = escape → ∀ d ∈ rest.head?, d ≠ m.1) :
    replaceUnescapedFrom [escape] [m.1] [m.2] 0 (c :: rest) =
      (if c = m.1 then m.2 else c) :: replaceUnescapedFrom [escape] [m.1] [m.2] 0 rest := by
  by_cases hc : c = m.1
  · rw [hc, if_pos rfl, replaceUnescapedFrom_mark m.2 hm]
  · rw [if_neg hc, replaceUnescapedFrom_other m.2 hc]
    rintro ⟨tail, htail⟩
    obtain ⟨rfl, rfl⟩ : escape = c ∧ m.1 :: tail = rest := by simpa using htail
    exact h rfl m.1 rfl rfl

variable (hp : ∀ p ∈ marks, Apart p m ∧ Unescaping escape p)

include hp

theorem lookup_of_apart : marks.lookup m.1 = none :=
  List.lookup_eq_none_iff.mpr fun p hmem => by simpa using (hp p hmem).1.1.symm

theorem lookup_escape : marks.lookup escape = none :=
  List.lookup_eq_none_iff.mpr fun p hmem => by simpa using (hp p hmem).2.1.symm

theorem getD_lookup_concat (c : Char) :
    (if (marks.lookup c).getD c = m.1 then m.2 else (marks.lookup c).getD c) =
      ((marks ++ [m]).lookup c).getD c := by
  rw [lookup_concat]
  cases h : marks.lookup c with
  | none => by_cases hc : c = m.1 <;> simp [hc]
  | some s =>
    show (if s = m.1 then m.2 else s) = s
    by_cases hs : s = m.1
    · rw [if_pos hs, ← (hp _ (mem_of_lookup h)).1.2 hs, hs]
    · rw [if_neg hs]

theorem head_scanMarks {rest : List Char} (h : ∀ d ∈ rest.head?, (marks ++ [m]).lookup d = none) :
    ∀ c ∈ (scanMarks escape marks rest).head?, c ≠ m.1 := by
  cases rest with
  | nil => exact nofun
  | cons d rest =>
    have hd := h d rfl
    rw [lookup_concat, Option.or_eq_none_iff] at hd
    by_cases hesc : d = escape ∧ ∃ x ∈ rest.head?, (marks.lookup x).isSome
    · obtain ⟨rfl, x, hx, hsome⟩ := hesc
      obtain ⟨more, rfl⟩ := List.head?_eq_some_iff.mp hx
      rw [scanMarks_escaped hsome]
      rintro c ⟨⟩ rfl
      rw [lookup_of_apart hp] at hsome
      cases hsome
    · rw [scanMarks_unescaped fun he x hx => ?_, hd.1]
      · rintro c ⟨⟩ rfl
        simp at hd
      · exact Option.not_isSome_iff_eq_none.mp fun hsome => hesc ⟨he, x, hx, hsome⟩

variable (hm : Unescaping escape m)

include hm

theorem pass_scanMarks_escaped {d : Char} (h : ((marks ++ [m]).lookup d).isSome)
    (rest : List Char) :
    replaceUnescapedFrom [escape] [m.1] [m.2] 0 (scanMarks escape marks (escape :: d :: rest)) =
      d :: replaceUnescapedFrom [escape] [m.1] [m.2] 0 (scanMarks escape marks rest) := by
  cases hd : marks.lookup d with
  | some s =>
    have hmem := mem_of_lookup hd
    have hsome : (marks.lookup d).isSome := by rw [hd]; rfl
    rw [scanMarks_escaped hsome, pass_cons hm.1 fun he => absurd he (hp _ hmem).2.1,
      if_neg (hp _ hmem).1.1]
  | none =>
    -- The mark is that of the pass, so the scan leaves its escape in front of it.
    have hmark : d = m.1 := by
      by_contra hne
      rw [lookup_concat, hd, if_neg hne] at h
      cases h
    subst hmark
    rw [scanMarks_unescaped fun _ x hx => Option.some.inj hx ▸ hd, lookup_escape hp,
      scanMarks_unescaped fun he => absurd he hm.1, hd]
    exact replaceUnescapedFrom_escaped escape m.1 m.2 _

/-- A further pass over a scanned text does what a scan for its mark too would have done. -/
theorem pass_scanMarks (text : List Char) :
    replaceUnescapedFrom [escape] [m.1] [m.2] 0 (scanMarks escape marks text) =
      scanMarks escape (marks ++ [m]) text := by
  induction hn : text.length using Nat.strong_induction_on generalizing text with
  | _ n ih =>
    cases text with
    | nil => rfl
    | cons c rest =>
      by_cases hesc : c = escape ∧ ∃ d ∈ rest.head?, ((marks ++ [m]).lookup d).isSome
      · obtain ⟨rfl, d, hd, hsome⟩ := hesc
        obtain ⟨more, rfl⟩ := List.head?_eq_some_iff.mp hd
        have hlt : more.length < n := hn ▸ Nat.lt_add_right 1 (Nat.lt_succ_self _)
        rw [pass_scanMarks_escaped hp hm hsome, scanMarks_escaped hsome, ih _ hlt more rfl]
      · have hlt : rest.length < n := hn ▸ Nat.lt_succ_self _
        have hnext (he : c = escape) : ∀ d ∈ rest.head?, (marks ++ [m]).lookup d = none :=
          fun d hd => Option.not_isSome_iff_eq_none.mp fun h => hesc ⟨he, d, hd, h⟩
        have hsooner (he : c = escape) : ∀ d ∈ rest.head?, marks.lookup d = none := fun d hd => by
          have hd := hnext he d hd
          rw [lookup_concat, Option.or_eq_none_iff] at hd
          exact hd.1
        have hescape (h : (marks.lookup c).getD c = escape) : c = escape := by
          cases hc : marks.lookup c with
          | none => rwa [hc] at h
          | some s =>
            rw [hc] at h
            exact absurd h (hp _ (mem_of_lookup hc)).2.2
        rw [scanMarks_unescaped hsooner, scanMarks_unescaped hnext,
          pass_cons hm.1 fun h => head_scanMarks hp (hnext (hescape h)), getD_lookup_concat hp,
          ih _ hlt rest rfl]

end Pass

theorem foldl_pass_scanMarks {escape : Char} {done marks : List (Char × Char)}
    (hapart : (done ++ marks).Pairwise Apart) (hesc : ∀ m ∈ done ++ marks, Unescaping escape m)
    (text : List Char) :
    marks.foldl (fun text m => replaceUnescapedFrom [escape] [m.1] [m.2] 0 text)
        (scanMarks escape done text) = scanMarks escape (done ++ marks) text := by
  induction marks generalizing done with
  | nil => rw [List.append_nil, List.foldl_nil]
  | cons m marks ih =>
    rw [List.append_cons] at hapart hesc ⊢
    have hdone (p : Char × Char) (hp : p ∈ done) : Apart p m ∧ Unescaping escape p := by
      have hpairs := (List.pairwise_append.mp hapart).1
      exact ⟨(List.pairwise_append.mp hpairs).2.2 p hp m List.mem_cons_self, hesc p (by simp [hp])⟩
    rw [List.foldl_cons, pass_scanMarks hdone (hesc m (by simp)), ih hapart hesc]

end Text

namespace Engine

open Text

variable (e : Engine)

/-- SQL text read once from the left: a backslash in front of a brace or a bracket is dropped and
the mark stays, any other opening mark becomes the engine's opening quote, any other closing mark
its closing quote, and the rest stays. -/
def scanIdentifiers : List Char → List Char
  | '\\' :: '{' :: rest => '{' :: scanIdentifiers rest
  | '\\' :: '}' :: rest => '}' :: scanIdentifiers rest
  | '\\' :: '[' :: rest => '[' :: scanIdentifiers rest
  | '\\' :: ']' :: rest => ']' :: scanIdentifiers rest
  | '{' :: rest => e.dialect.opening :: scanIdentifiers rest
  | '[' :: rest => e.dialect.opening :: scanIdentifiers rest
  | '}' :: rest => e.dialect.closing :: scanIdentifiers rest
  | ']' :: rest => e.dialect.closing :: scanIdentifiers rest
  | c :: rest => c :: scanIdentifiers rest
  | [] => []

theorem lookup_delimiters (d : Dialect) {c : Char} (h : c ∉ ['{', '}', '[', ']']) :
    (delimiters d).lookup c = none := by
  rw [List.lookup_eq_none_iff]
  intro m hm
  have hmark : m.1 ∈ ['{', '}', '[', ']'] := List.mem_map_of_mem (f := Prod.fst) hm
  exact bne_iff_ne.mpr fun he => h (he ▸ hmark)

theorem scanMarks_delimiters (text : List Char) :
    scanMarks '\\' (delimiters e.dialect) text = e.scanIdentifiers text := by
  fun_induction scanIdentifiers e text with
  | case1 rest ih | case2 rest ih | case3 rest ih | case4 rest ih =>
    rw [scanMarks_escaped rfl, ih]
  | case5 rest ih | case6 rest ih | case7 rest ih | case8 rest ih =>
    rw [scanMarks_unescaped fun he => absurd he (by decide), ih]
    rfl
  | case9 c rest hb₁ hb₂ hb₃ hb₄ hc₁ hc₂ hc₃ hc₄ ih =>
    have hc : c ∉ ['{', '}', '[', ']'] := by
      simp only [List.mem_cons, List.not_mem_nil, or_false, not_or]
      exact ⟨hc₁, hc₃, hc₂, hc₄⟩
    have hnext (he : c = '\\') : ∀ d ∈ rest.head?, (delimiters e.dialect).lookup d = none := by
      intro d hd
      obtain ⟨more, rfl⟩ := List.head?_eq_some_iff.mp hd
      refine lookup_delimiters _ ?_
      simp only [List.mem_cons, List.not_mem_nil, or_false, not_or]
      exact ⟨fun h => hb₁ more he (h ▸ rfl), fun h => hb₂ more he (h ▸ rfl),
        fun h => hb₃ more he (h ▸ rfl), fun h => hb₄ more he (h ▸ rfl)⟩
    rw [scanMarks_unescaped hnext, lookup_delimiters _ hc, ih]
    rfl
  | case10 => rfl

/-- The four passes over SQL text, one after the other, do what one scan does. -/
theorem wrapIdentifiers_eq_scan (sql : String) :
    e.wrapIdentifiers sql = String.ofList (e.scanIdentifiers sql.toList) := by
  have hpasses (marks : List (Char × Char)) (sql : String) : (marks.foldl e.pass sql).toList =
      marks.foldl (fun text m => replaceUnescapedFrom [e.dialect.escape] [m.1] [m.2] 0 text)
        sql.toList := by
    induction marks generalizing sql with
    | nil => rfl
    | cons m marks ih => rw [List.foldl_cons, List.foldl_cons, ih, toList_pass]
  have hescape : e.dialect.escape = '\\' := by cases e <;> rfl
  have hapart : (delimiters e.dialect).Pairwise Apart := by cases e <;> decide
  have hesc : ∀ m ∈ delimiters e.dialect, Unescaping '\\' m := by cases e <;> decide
  have hscan := @foldl_pass_scanMarks '\\' [] (delimiters e.dialect) hapart hesc sql.toList
  rw [scanMarks_nil, List.nil_append, scanMarks_delimiters, ← hescape] at hscan
  rw [← String.toList_inj, String.toList_ofList, ← hscan]
  exact hpasses _ _

/-- Brackets that the passes for braces write are left alone by those for brackets. -/
example : Engine.sqlServer.wrapIdentifiers "\x7ba\\[\x7d" = "[a[]" := by decide +kernel

end Engine

end SqlDialects
