import SqlDialects.Proofs.Text.Mark
import SqlDialects.Proofs.Text.Verbatim

/-!
Texts in which no pass over SQL text has anything to change. An engine whose quotes are brackets
writes its names so.
-/

namespace SqlDialects

namespace Text

def Unbraced (text : String) : Prop := ∀ c ∈ text.toList, c ∉ ['{', '}', '\\']

instance (text : String) : Decidable (Unbraced text) :=
  List.decidableBAll (· ∉ ['{', '}', '\\']) text.toList

theorem Unbraced.append {a b : String} (ha : Unbraced a) (hb : Unbraced b) : Unbraced (a ++ b) := by
  intro c hc
  rw [String.toList_append] at hc
  exact (List.mem_append.mp hc).elim (ha c) (hb c)

theorem Unbraced.intercalate {separator : String} {parts : List String} (hs : Unbraced separator)
    (hp : ∀ p ∈ parts, Unbraced p) : Unbraced (separator.intercalate parts) := by
  intro c hm
  rw [String.toList_intercalate] at hm
  rcases mem_intercalate hm with h | ⟨p, h, hc⟩
  · exact hs c h
  · obtain ⟨t, ht, rfl⟩ := List.mem_map.mp h
    exact hp t ht c hc

end Text

namespace Engine

open Text

theorem unbraced_wrapSegment {text : List Char} (h : ∀ c ∈ text, c ∉ ['{', '}', '\\']) :
    ∀ c ∈ sqlServer.wrapSegment text, c ∉ ['{', '}', '\\'] := by
  intro c hc
  unfold wrapSegment at hc
  split at hc
  · exact h c hc
  · have hquote : c ∈ sqlServer.dialect.quote text := hc
    simp only [Dialect.quote, Text.quote, List.cons_append, List.mem_cons, List.mem_append,
      mem_double, List.not_mem_nil, or_false] at hquote
    rcases hquote with rfl | hc | rfl
    · decide
    · exact h c hc
    · decide

theorem unbraced_wrapPath {text : List Char} (h : ∀ c ∈ text, c ∉ ['{', '}', '\\']) :
    ∀ c ∈ sqlServer.wrapPath text, c ∉ ['{', '}', '\\'] := by
  intro c hm
  rcases mem_intercalate hm with hs | ⟨p, hp, hc⟩
  · rw [List.mem_singleton.mp hs]
    decide
  · obtain ⟨piece, hpiece, rfl⟩ := List.mem_map.mp hp
    exact unbraced_wrapSegment (fun d hd => h d (mem_of_mem_piecesFrom hpiece hd)) c hc

theorem unbraced_wrap {name : String} (h : Unbraced name) : Unbraced (sqlServer.wrap name) := by
  rw [Unbraced, wrap, String.toList_ofList]
  unfold wrapName
  split
  · next before after hs =>
    have hb := unbraced_wrapPath fun c hc => h c (mem_of_splitAs? hs (.inl hc))
    have ha := unbraced_wrapSegment fun c hc => h c (mem_of_splitAs? hs (.inr hc))
    have has : ∀ c ∈ ' ' :: sqlServer.dialect.columnAs.toList, c ∉ ['{', '}', '\\'] :=
      not_mem_of_all (by decide)
    intro c hc
    rcases List.mem_append.mp hc with hc | hc
    · exact (List.mem_append.mp hc).elim (hb c) (has c)
    · exact ha c hc
  · exact unbraced_wrapPath h

theorem wrapIdentifiers_of_unbraced {sql : String} (h : Unbraced sql) :
    sqlServer.wrapIdentifiers sql = sql := by
  have hmissing (c : Char) (hc : c ∈ ['{', '}', '\\']) : c ∉ sql.toList := fun hm => h c hm hc
  have hescape (mark : Char) : ¬['\\', mark] <:+: sql.toList := fun hi =>
    hmissing '\\' (by decide) (hi.subset List.mem_cons_self)
  refine (sqlServer.wrapIdentifiers_eq_self_iff sql).mpr fun m hm => ⟨hescape m.1, ?_⟩
  have hmarks : ∀ m ∈ delimiters sqlServer.dialect, m.1 = m.2 ∨ m.1 ∈ ['{', '}', '\\'] := by
    decide
  exact (hmarks m hm).imp_right (hmissing m.1)

end Engine

end SqlDialects
