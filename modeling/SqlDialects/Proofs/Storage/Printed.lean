import SqlDialects.Proofs.Storage.Numerals

/-!
Documents as writers make them are read as they were printed: every string and every name of a
member is escaped, and every number is whole.
-/

namespace SqlDialects.Json

open Number

/-- A document of escaped strings and whole numbers. -/
inductive Written : Json → Prop
  | null : Written null
  | bool (b : Bool) : Written (bool b)
  | int (n : Int) : Written (ofInt n)
  | text (s : String) : Written (ofText s)
  | array {items : List Json} (h : ∀ j ∈ items, Written j) : Written (array items)
  | record {members : List (String × Json)} (h : ∀ m ∈ members, Written m.2) :
      Written (record members)

theorem ofNat_eq_ofInt (n : Nat) : ofNat n = ofInt n := by
  rw [ofNat, ofInt, intText, if_neg (by omega), Int.natAbs_natCast]

theorem Written.nat (n : Nat) : Written (ofNat n) := ofNat_eq_ofInt n ▸ .int n

theorem lexString_escapeChar (c : Char) (rest : List Char) :
    lexString (escapeChar c ++ rest) =
      (lexString rest).map fun (s, rest) => (escapeChar c ++ s, rest) := by
  unfold escapeChar
  split
  · rfl
  split
  · rfl
  split
  · next hq hb h =>
    have hc : (decide (c.toNat < 32) || c == '\\') = false := by
      simp [hb, Nat.not_lt.mpr h]
    rw [List.cons_append, List.nil_append, lexString.eq_def]
    split
    · next heq => cases heq
    · next heq => exact absurd (List.cons.inj heq).1 hq
    · next heq => exact absurd (List.cons.inj heq).1 hb
    · next heq => exact absurd (List.cons.inj heq).1 hb
    · next heq =>
      cases heq
      rw [hc, if_neg Bool.false_ne_true]
      rfl
  split
  · rfl
  split
  · rfl
  split
  · rfl
  split
  · rfl
  split
  · rfl
  · have hx (n : Nat) : isHex (Hex.digit (n % 16)) := by
      rw [isHex, Hex.value?_digit _ (Nat.mod_lt _ (by decide))]
      rfl
    show lexString ('\\' :: 'u' :: _ :: _ :: _ :: _ :: rest) = _
    rw [lexString, hx, hx, hx, hx]
    rfl

theorem lexString_escape (text rest : List Char) :
    lexString (escape text ++ '"' :: rest) = some (escape text, rest) := by
  induction text with
  | nil => rfl
  | cons c text ih =>
    rw [escape, List.flatMap_cons, List.append_assoc, lexString_escapeChar, ← escape, ih]
    rfl

def Opens (text : List Char) : Prop := ∃ c tail, text = c :: tail ∧ isSpace c = false ∧ c ≠ ']'

theorem Opens.append {text : List Char} (h : Opens text) (rest : List Char) :
    Opens (text ++ rest) := by
  obtain ⟨c, tail, rfl, hc⟩ := h
  exact ⟨c, tail ++ rest, rfl, hc⟩

theorem skipSpace_cons {c : Char} (h : isSpace c = false) (rest : List Char) :
    skipSpace (c :: rest) = c :: rest :=
  List.dropWhile_cons_of_neg (by simp [h])

def StartsNumber (c : Char) : Prop := c = '-' ∨ c.isDigit

theorem StartsNumber.ne {c : Char} (h : StartsNumber c) {d : Char} (hd : d ≠ '-')
    (hdigit : d.isDigit = false) : c ≠ d := by
  rintro rfl
  rcases h with h | h
  · exact hd h
  · exact absurd (hdigit.symm.trans h) (by decide)

theorem StartsNumber.not_space {c : Char} (h : StartsNumber c) : isSpace c = false := by
  have h1 : c ≠ ' ' := h.ne (by decide) rfl
  have h2 : c ≠ '\n' := h.ne (by decide) rfl
  have h3 : c ≠ '\t' := h.ne (by decide) rfl
  have h4 : c ≠ '\r' := h.ne (by decide) rfl
  simp [isSpace, h1, h2, h3, h4]

theorem intText_head (n : Int) : ∃ c tail, (intText n).toList = c :: tail ∧ StartsNumber c := by
  rw [toList_intText]
  split
  · exact ⟨'-', _, rfl, .inl rfl⟩
  · cases hd : digits n.natAbs with
    | nil => exact absurd hd (digits_ne_nil _)
    | cons c tail => exact ⟨c, tail, rfl, .inr (isDigit_of_mem_digits (hd ▸ List.mem_cons_self))⟩

theorem parseValue_number {c : Char} (h : StartsNumber c) (fuel : Nat) (tail : List Char) :
    parseValue (fuel + 1) (c :: tail) =
      (lexNumber (c :: tail)).map fun (n, rest) => (number n, rest) := by
  have h1 : c ≠ 'n' := h.ne (by decide) rfl
  have h2 : c ≠ 't' := h.ne (by decide) rfl
  have h3 : c ≠ 'f' := h.ne (by decide) rfl
  have h4 : c ≠ '"' := h.ne (by decide) rfl
  have h5 : c ≠ '[' := h.ne (by decide) rfl
  have h6 : c ≠ '{' := h.ne (by decide) rfl
  rw [parseValue, skipSpace_cons h.not_space]
  simp [h1, h2, h3, h4, h5, h6]

/-- Given fuel for its length, the document is read as it was printed. -/
def ReadsBack (j : Json) : Prop :=
  Opens j.print ∧ ∀ fuel rest, j.print.length ≤ fuel → Closes rest →
    parseValue fuel (j.print ++ rest) = some (j, rest)

theorem printItems_cons (j k : Json) (items : List Json) :
    printItems (j :: k :: items) = j.print ++ ',' :: printItems (k :: items) := rfl

theorem opens_printItems {j : Json} (h : Opens j.print) (items : List Json) :
    Opens (printItems (j :: items)) := by
  cases items with
  | nil => exact h
  | cons k items => exact h.append _

theorem parseItems_print {j : Json} {items : List Json} (h : ∀ k ∈ j :: items, ReadsBack k)
    {fuel : Nat} (hf : (printItems (j :: items)).length < fuel) (rest : List Char) :
    parseItems fuel (printItems (j :: items) ++ ']' :: rest) = some (j :: items, rest) := by
  induction items generalizing j fuel with
  | nil =>
    obtain ⟨fuel, rfl⟩ := Nat.exists_eq_add_one.mpr (Nat.zero_lt_of_lt hf)
    rw [parseItems, printItems, (h j List.mem_cons_self).2 fuel _ (Nat.lt_succ_iff.mp hf)
      (by rintro _ ⟨⟩; decide)]
    rfl
  | cons k items ih =>
    obtain ⟨fuel, rfl⟩ := Nat.exists_eq_add_one.mpr (Nat.zero_lt_of_lt hf)
    rw [printItems_cons, List.length_append, List.length_cons] at hf
    rw [parseItems, printItems_cons, List.append_assoc, List.cons_append,
      (h j List.mem_cons_self).2 fuel _ (by omega) (by rintro _ ⟨⟩; decide)]
    have hitems := @ih k (fun k hk => h k (List.mem_cons_of_mem _ hk)) fuel (by omega)
    show (parseItems fuel (printItems (k :: items) ++ ']' :: rest)).bind _ = _
    rw [hitems]
    rfl

def escaped (m : String × Json) : List Char × Json := (escape m.1.toList, m.2)

theorem record_eq (members : List (String × Json)) :
    record members = object (members.map escaped) :=
  rfl

theorem printMembers_cons (m n : List Char × Json) (members : List (List Char × Json)) :
    printMembers (m :: n :: members) = printMember m ++ ',' :: printMembers (n :: members) := rfl

theorem printMembers_head (m : String × Json) (members : List (String × Json)) :
    ∃ tail, printMembers ((m :: members).map escaped) = '"' :: tail := by
  cases members <;> exact ⟨_, rfl⟩

theorem printMember_append (m : String × Json) (rest : List Char) :
    printMember (escaped m) ++ rest =
      '"' :: (escape m.1.toList ++ '"' :: ':' :: (m.2.print ++ rest)) := by
  simp [printMember, escaped]

theorem parseMembers_comma {m : String × Json} (h : ReadsBack m.2) {fuel : Nat}
    (hf : m.2.print.length ≤ fuel) (rest : List Char) :
    parseMembers (fuel + 1) (printMember (escaped m) ++ ',' :: rest) =
      (parseMembers fuel rest).map fun (ms, rest) => (escaped m :: ms, rest) := by
  rw [printMember_append, parseMembers]
  simp only [skipSpace_cons (c := '"') rfl, lexString_escape, Option.bind_eq_bind,
    Option.bind_some, skipSpace_cons (c := ':') rfl, skipSpace_cons (c := ',') rfl,
    h.2 fuel (',' :: rest) hf (by rintro _ ⟨⟩; decide)]
  cases parseMembers fuel rest <;> rfl

theorem parseMembers_bracket {m : String × Json} (h : ReadsBack m.2) {fuel : Nat}
    (hf : m.2.print.length ≤ fuel) (rest : List Char) :
    parseMembers (fuel + 1) (printMember (escaped m) ++ '}' :: rest) =
      some ([escaped m], rest) := by
  rw [printMember_append, parseMembers]
  simp only [skipSpace_cons (c := '"') rfl, lexString_escape, Option.bind_eq_bind,
    Option.bind_some, skipSpace_cons (c := ':') rfl, skipSpace_cons (c := '}') rfl,
    h.2 fuel ('}' :: rest) hf (by rintro _ ⟨⟩; decide)]
  rfl

theorem parseMembers_print {m : String × Json} {members : List (String × Json)}
    (h : ∀ n ∈ m :: members, ReadsBack n.2) {fuel : Nat}
    (hf : (printMembers ((m :: members).map escaped)).length < fuel) (rest : List Char) :
    parseMembers fuel (printMembers ((m :: members).map escaped) ++ '}' :: rest) =
      some ((m :: members).map escaped, rest) := by
  have hlength : m.2.print.length ≤ (printMember (escaped m)).length := by
    simp [printMember, escaped]
    omega
  induction members generalizing m fuel with
  | nil =>
    obtain ⟨fuel, rfl⟩ := Nat.exists_eq_add_one.mpr (Nat.zero_lt_of_lt hf)
    rw [List.map_singleton, printMembers] at hf ⊢
    rw [parseMembers_bracket (h m List.mem_cons_self) (by omega)]
  | cons n members ih =>
    obtain ⟨fuel, rfl⟩ := Nat.exists_eq_add_one.mpr (Nat.zero_lt_of_lt hf)
    rw [List.map_cons, List.map_cons, printMembers_cons, ← List.map_cons] at hf ⊢
    rw [List.length_append, List.length_cons] at hf
    rw [List.append_assoc, List.cons_append,
      parseMembers_comma (h m List.mem_cons_self) (by omega)]
    have hmembers := @ih n (fun k hk => h k (List.mem_cons_of_mem _ hk)) fuel (by omega)
      (by simp [printMember, escaped]; omega)
    rw [hmembers]
    rfl

namespace ReadsBack

theorem int (n : Int) : ReadsBack (ofInt n) := by
  obtain ⟨c, tail, hc, hs⟩ := intText_head n
  refine ⟨⟨c, tail, hc, hs.not_space, hs.ne (by decide) rfl⟩, fun fuel rest hf hr => ?_⟩
  have hl := lexNumber_intText n hr
  rw [ofInt, print, hc] at hf ⊢
  rw [hc, List.cons_append] at hl
  obtain ⟨fuel, rfl⟩ := Nat.exists_eq_add_one.mpr (Nat.lt_of_lt_of_le (by simp) hf)
  rw [List.cons_append, parseValue_number hs, hl]
  rfl

theorem text (s : String) : ReadsBack (ofText s) := by
  refine ⟨⟨'"', _, rfl, by decide⟩, fun fuel rest hf hr => ?_⟩
  obtain ⟨fuel, rfl⟩ := Nat.exists_eq_add_one.mpr (Nat.lt_of_lt_of_le (by simp [ofText, print]) hf)
  have hp : (ofText s).print ++ rest = '"' :: (escape s.toList ++ '"' :: rest) := by
    simp [ofText, print]
  rw [hp, parseValue, skipSpace_cons rfl]
  show (lexString (escape s.toList ++ '"' :: rest)).map _ = _
  rw [lexString_escape]
  rfl

theorem array {items : List Json} (h : ∀ k ∈ items, ReadsBack k) : ReadsBack (.array items) := by
  refine ⟨⟨'[', _, rfl, by decide⟩, fun fuel rest hf hr => ?_⟩
  have hp : (Json.array items).print ++ rest = '[' :: (printItems items ++ ']' :: rest) := by
    simp [print]
  have hl : (Json.array items).print.length = (printItems items).length + 2 := by
    simp [print]
  obtain ⟨fuel, rfl⟩ := Nat.exists_eq_add_one.mpr (Nat.lt_of_lt_of_le (by omega) hf)
  rw [hp, parseValue, skipSpace_cons rfl]
  cases items with
  | nil => rfl
  | cons j items =>
    have hitems := @parseItems_print j items h fuel (by omega) rest
    obtain ⟨c, tail, hc, hspace, hclose⟩ := opens_printItems (h j List.mem_cons_self).1 items
    rw [hc, List.cons_append] at hitems ⊢
    simp only [skipSpace_cons hspace]
    split
    · next heq => exact absurd (List.cons.inj heq).1 hclose
    · rw [hitems]
      rfl

theorem record {members : List (String × Json)} (h : ∀ m ∈ members, ReadsBack m.2) :
    ReadsBack (.record members) := by
  refine ⟨⟨'{', _, rfl, by decide⟩, fun fuel rest hf hr => ?_⟩
  have hp : (Json.record members).print ++ rest =
      '{' :: (printMembers (members.map escaped) ++ '}' :: rest) := by
    simp [record_eq, print]
  have hl : (Json.record members).print.length =
      (printMembers (members.map escaped)).length + 2 := by
    simp [record_eq, print]
  obtain ⟨fuel, rfl⟩ := Nat.exists_eq_add_one.mpr (Nat.lt_of_lt_of_le (by omega) hf)
  rw [hp, parseValue, skipSpace_cons rfl]
  cases members with
  | nil => rfl
  | cons m members =>
    have hmembers := @parseMembers_print m members h fuel (by omega) rest
    obtain ⟨tail, ht⟩ := printMembers_head m members
    rw [ht, List.cons_append] at hmembers ⊢
    simp only [skipSpace_cons (c := '"') rfl]
    show (parseMembers fuel _).map _ = _
    rw [hmembers]
    rfl

end ReadsBack

theorem Written.readsBack {j : Json} (h : Written j) : ReadsBack j := by
  induction h with
  | null =>
    refine ⟨⟨'n', _, rfl, by decide⟩, fun fuel rest hf hr => ?_⟩
    obtain ⟨fuel, rfl⟩ := Nat.exists_eq_add_one.mpr (Nat.lt_of_lt_of_le (by decide) hf)
    rfl
  | bool b =>
    refine ⟨by cases b <;> exact ⟨_, _, rfl, by decide⟩, fun fuel rest hf hr => ?_⟩
    obtain ⟨fuel, rfl⟩ := Nat.exists_eq_add_one.mpr (Nat.lt_of_lt_of_le (by cases b <;> decide) hf)
    cases b <;> rfl
  | int n => exact .int n
  | text s => exact .text s
  | array _ ih => exact .array ih
  | record _ ih => exact .record ih

theorem Written.parse?_text {j : Json} (h : Written j) : parse? j.text = some j := by
  have hp := h.readsBack.2 (j.text.length + 1) [] (by simp [Json.text]) nofun
  rw [List.append_nil] at hp
  rw [parse?, Json.text, String.toList_ofList, ← Json.text, hp]
  rfl

end SqlDialects.Json
