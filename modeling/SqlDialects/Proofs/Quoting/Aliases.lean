import SqlDialects.Proofs.Quoting.Names
import SqlDialects.Proofs.Text.Words
import SqlDialects.Render.Select

/-!
The aliases of tables. A table is rendered with all that follows the first ` as ` of its text as an
alias, but the name it goes by is the third word of that text. Main statement: the two are the same
just if the alias is a single word and comes third, or happens to be the word that does.
-/

namespace SqlDialects

open Text

/-- The text has an alias, behind the first ` as ` in it. -/
structure Renames (text before keyword after : String) : Prop where
  letters : keyword.toList.map Char.toLower = "as".toList
  eq : text = before ++ " " ++ keyword ++ " " ++ after
  first : ∀ b word a, IsAs word → text.toList = b ++ word ++ a →
    before.toList.length ≤ b.length

theorem Renames.of_splitAs? {text before keyword after : String}
    (hsplit : splitAs? text.toList = some (before.toList, after.toList))
    (hletters : keyword.toList.map Char.toLower = "as".toList)
    (heq : text = before ++ " " ++ keyword ++ " " ++ after) :
    Renames text before keyword after :=
  ⟨hletters, heq, (firstAs_of_splitAs? hsplit).first⟩

namespace Renames

variable {text before keyword after : String} (h : Renames text before keyword after)

include h

theorem toList_eq : text.toList =
    before.toList ++ ' ' :: (keyword.toList ++ ' ' :: after.toList) := by
  rw [h.eq]
  simp

theorem firstAs : FirstAs text.toList before.toList after.toList where
  found := by
    refine ⟨' ' :: keyword.toList ++ [' '], ?_, ?_⟩
    · rw [IsAs, List.cons_append, List.map_cons, List.map_append, h.letters]
      rfl
    · rw [h.toList_eq]
      simp
  first := h.first

theorem isToken_keyword : IsToken keyword.toList where
  ne_nil hnil := by
    have hkeyword := h.letters
    rw [hnil] at hkeyword
    cases hkeyword
  solid c hc := by
    have hlower : c.toLower ∈ "as".toList := h.letters ▸ List.mem_map_of_mem hc
    have hletter : c.toLower = 'a' ∨ c.toLower = 's' := by simpa using hlower
    rcases hletter with hc | hc
    · obtain rfl | rfl := (eq_or_eq_of_toLower hc).imp_right (Char.ext (d := 'A')) <;> rfl
    · obtain rfl | rfl := (eq_or_eq_of_toLower hc).imp_right (Char.ext (d := 'S')) <;> rfl

theorem words_eq : words text = words before ++ keyword :: words after := by
  have hblank : isBlank ' ' = true := by decide
  rw [words, h.toList_eq, wordsFrom_append_blank hblank, wordsFrom_append_blank hblank,
    h.isToken_keyword.wordsFrom_eq]
  simp [words]

theorem splitAs?_eq : splitAs? text.toList = some (before.toList, after.toList) := by
  cases hsplit : splitAs? text.toList with
  | none =>
    obtain ⟨word, hword, htext⟩ := h.firstAs.found
    exact absurd htext (not_isAs_of_splitAs? hsplit _ word _ hword)
  | some parts =>
    obtain ⟨hbefore, hafter⟩ := (firstAs_of_splitAs? hsplit).unique h.firstAs
    rw [← hbefore, ← hafter]

theorem wrap_eq (e : Engine) :
    e.wrap text = String.ofList (e.wrapPath before.toList) ++ " AS " ++ e.wrapValue after := by
  have hword : e.dialect.columnAs.toList = "AS ".toList := by cases e <;> rfl
  rw [Engine.wrap, Engine.wrapName, h.splitAs?_eq, ← String.toList_inj]
  simp [hword, Engine.wrapValue]

theorem tableAlias_eq :
    tableAlias text = ((words before ++ keyword :: words after)[2]?).getD text := by
  rw [tableAlias, h.splitAs?_eq, h.words_eq]

theorem ne_after : text ≠ after := by
  intro heq
  have hlength := congrArg List.length h.toList_eq
  rw [heq] at hlength
  simp at hlength
  omega

theorem tableAlias_eq_after_iff :
    tableAlias text = after ↔
      IsToken after.toList ∧ (words before ++ [keyword, after])[2]? = some after := by
  have hwords (hw : IsToken after.toList) : words after = [after] := by
    rw [words, hw.wordsFrom_eq, List.map_singleton, String.ofList_toList]
  rw [h.tableAlias_eq]
  constructor
  · intro hthird
    have hsome : (words before ++ keyword :: words after)[2]? = some after := by
      cases hget : (words before ++ keyword :: words after)[2]? with
      | none =>
        rw [hget] at hthird
        exact absurd hthird h.ne_after
      | some w =>
        rw [hget] at hthird
        exact congrArg some hthird
    have hmem : after ∈ words text := h.words_eq ▸ List.mem_of_getElem? hsome
    obtain ⟨w, hw, rfl⟩ := List.mem_map.mp hmem
    have hword : IsToken (String.ofList w).toList := by
      rw [String.toList_ofList]
      exact isToken_of_mem_wordsFrom (List.forall_mem_nil _) hw
    rw [hwords hword] at hsome
    exact ⟨hword, hsome⟩
  · rintro ⟨hword, hthird⟩
    rw [hwords hword, hthird, Option.getD_some]

end Renames

theorem FirstAs.exists_renames {text : String} {before after : List Char}
    (h : FirstAs text.toList before after) :
    ∃ keyword, Renames text (String.ofList before) keyword (String.ofList after) := by
  have hspace : Caseless ' ' := by decide
  obtain ⟨word, hword, htext⟩ := h.found
  obtain ⟨c, rest, rfl, hc, hrest⟩ := List.map_eq_cons_iff.mp hword
  obtain ⟨keyword, last, rfl, hkeyword, hlast⟩ :=
    List.map_eq_append_iff.mp (show rest.map Char.toLower = "as".toList ++ [' '] from hrest)
  obtain ⟨d, more, rfl, hd, hmore⟩ := List.map_eq_cons_iff.mp hlast
  obtain rfl := List.map_eq_nil_iff.mp hmore
  obtain rfl := (eq_toLower hspace).mp hc.symm
  obtain rfl := (eq_toLower hspace).mp hd.symm
  refine ⟨String.ofList keyword, ⟨?_, ?_, ?_⟩⟩
  · rw [String.toList_ofList, hkeyword]
  · rw [← String.toList_inj, htext]
    simp
  · rw [String.toList_ofList]
    exact h.first

theorem third_eq_last_iff {α : Type} (xs : List α) (a b : α) :
    (xs ++ [a, b])[2]? = some b ↔ xs.length = 1 ∨ (xs ++ [a])[2]? = some b := by
  rcases xs with _ | ⟨x, _ | ⟨y, _ | ⟨z, xs⟩⟩⟩ <;> simp

/-- A table without an alias goes by its whole text. One with an alias is rendered with all that
follows the first ` as `, but goes by the third word, if there is one; it goes by its alias just if
that is a single word and comes third, or happens to be the word that does. -/
theorem table_alias_rendered_iff (c : Compiler) (ss : Scopes) (text : String) :
    ((¬∃ before keyword after, Renames text before keyword after) →
      (Source.table text).alias? = some text ∧
        c.tableExpression ss (.table text) = pure (String.ofList (c.engine.wrapPath text.toList))) ∧
    ∀ before keyword after, Renames text before keyword after →
      c.tableExpression ss (.table text) =
        pure (String.ofList (c.engine.wrapPath before.toList) ++ " AS " ++
          c.engine.wrapValue after) ∧
      (Source.table text).alias? =
        some (((words before ++ keyword :: words after)[2]?).getD text) ∧
      ((Source.table text).alias? = some after ↔
        IsToken after.toList ∧
          ((words before).length = 1 ∨ (words before ++ [keyword])[2]? = some after)) := by
  refine ⟨fun hnone => ?_, fun before keyword after h => ⟨?_, ?_, ?_⟩⟩
  · have hsplit : splitAs? text.toList = none := by
      cases hsplit : splitAs? text.toList with
      | none => rfl
      | some parts =>
        obtain ⟨keyword, h⟩ := (firstAs_of_splitAs? hsplit).exists_renames
        exact absurd ⟨_, keyword, _, h⟩ hnone
    refine ⟨?_, ?_⟩
    · rw [Source.alias?, Source.aliasBy, tableAlias, hsplit]
    · rw [Compiler.tableExpression, Engine.wrap, Engine.wrapName, hsplit]
  · rw [Compiler.tableExpression, h.wrap_eq]
  · rw [Source.alias?, Source.aliasBy, h.tableAlias_eq]
  · rw [Source.alias?, Source.aliasBy, Option.some.injEq, h.tableAlias_eq_after_iff,
      third_eq_last_iff]

theorem table_alias_rendered_iff_users :
    Renames "shop.users AS u" "shop.users" "AS" "u" ∧
      (Source.table "shop.users AS u").alias? = some "u" ∧
      (Compiler.ofEngine .mySql).tableExpression [] (.table "shop.users AS u") =
        pure "\x60shop\x60.\x60users\x60 AS \x60u\x60" ∧
      (Source.table "users").alias? = some "users" := by
  have h : Renames "shop.users AS u" "shop.users" "AS" "u" :=
    .of_splitAs? (by decide) (by decide) (by decide)
  obtain ⟨-, hrenamed⟩ := table_alias_rendered_iff (.ofEngine .mySql) [] "shop.users AS u"
  obtain ⟨hrendered, -, halias⟩ := hrenamed _ _ _ h
  have hsplit : splitAs? "users".toList = none := by decide
  have hnone : ¬∃ before keyword after, Renames "users" before keyword after := by
    rintro ⟨before, keyword, after, h⟩
    rw [h.splitAs?_eq] at hsplit
    cases hsplit
  have hwhole := (table_alias_rendered_iff (.ofEngine .mySql) [] "users").1 hnone
  refine ⟨h, halias.mpr ⟨by decide, .inl (by decide)⟩, ?_, hwhole.1⟩
  rw [hrendered]
  exact congrArg pure (by decide)

/-- A table of two words goes by the `as` before its alias, and an alias of two words is cut. -/
theorem alias_of_two_words_is_lost :
    (Renames "user accounts as u" "user accounts" "as" "u" ∧
      (Source.table "user accounts as u").alias? = some "as" ∧
      (Compiler.ofEngine .generic).tableExpression [] (.table "user accounts as u") =
        pure "\"user accounts\" AS \"u\"") ∧
    (Renames "users as all users" "users" "as" "all users" ∧
      (Source.table "users as all users").alias? = some "all" ∧
      (Compiler.ofEngine .generic).tableExpression [] (.table "users as all users") =
        pure "\"users\" AS \"all users\"") :=
  ⟨⟨.of_splitAs? (by decide) (by decide) (by decide), by decide, congrArg pure (by decide)⟩,
    ⟨.of_splitAs? (by decide) (by decide) (by decide), by decide, congrArg pure (by decide)⟩⟩

end SqlDialects
