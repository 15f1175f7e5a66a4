import SqlDialects.Proofs.Storage.Numerals
import SqlDialects.Value.Basic

/-! Identifiers, dates, moments and decimal numbers are read back from their texts. -/

namespace SqlDialects

open Number Text

namespace Uuid

theorem mem_chars {bytes : List UInt8} {c : Char} (h : c ∈ Hex.chars bytes) :
    ∃ n < 16, c = Hex.digit n := by
  obtain ⟨b, -, hc⟩ := List.mem_flatMap.mp h
  have hb := b.toNat_lt
  rcases List.mem_cons.mp hc with rfl | hc
  · exact ⟨b.toNat / 16, by omega, rfl⟩
  · exact ⟨b.toNat % 16, by omega, List.mem_singleton.mp hc⟩

theorem digit_plain : ∀ n < 16, Hex.digit n ≠ '-' ∧ Hex.digit n ≠ '{' ∧ Hex.digit n ≠ 'u' := by
  decide

theorem filter_group {digits : List Char} (h : ∀ c ∈ digits, c ≠ '-') :
    (group digits).filter (· != '-') = digits := by
  have hf (ds : List Char) (hds : ∀ c ∈ ds, c ∈ digits) : ds.filter (· != '-') = ds :=
    List.filter_eq_self.mpr fun c hc => by simpa using h c (hds c hc)
  have ht (n k : Nat) : ((digits.drop n).take k).filter (· != '-') = (digits.drop n).take k :=
    hf _ fun c hc => List.mem_of_mem_drop (List.mem_of_mem_take hc)
  have h0 : (digits.take 8).filter (· != '-') = digits.take 8 :=
    hf _ fun c hc => List.mem_of_mem_take hc
  have h20 : (digits.drop 20).filter (· != '-') = digits.drop 20 :=
    hf _ fun c hc => List.mem_of_mem_drop hc
  have hm (ds : List Char) : ('-' :: ds).filter (· != '-') = ds.filter (· != '-') := rfl
  simp only [group, List.append_assoc, List.cons_append, List.filter_append, hm, h0, ht, h20]
  rw [← List.drop_drop (i := 4) (j := 16), List.take_append_drop,
    ← List.drop_drop (i := 4) (j := 12), List.take_append_drop,
    ← List.drop_drop (i := 4) (j := 8), List.take_append_drop, List.take_append_drop]

theorem ofText?_text (u : Uuid) : ofText? u.text = some u := by
  have hd : ∀ c ∈ Hex.chars u.bytes, c ≠ '-' ∧ c ≠ '{' ∧ c ≠ 'u' := by
    intro c hc
    obtain ⟨n, hn, rfl⟩ := mem_chars hc
    exact digit_plain n hn
  have hlength : (Hex.chars u.bytes).length = 32 := by rw [Hex.length_chars, u.length_eq]
  have hgroup : (group (Hex.chars u.bytes)).length = 36 := by simp [group, hlength]
  have hungroup : ungroup? (group (Hex.chars u.bytes)) = some (Hex.chars u.bytes) := by
    rw [ungroup?, filter_group fun c hc => (hd c hc).1]
    exact if_pos rfl
  have hbytes : ofDigits? (Hex.chars u.bytes) = some u := by
    simp [ofDigits?, Hex.bytes?_chars, u.length_eq]
  obtain ⟨c, tail, hc, hbrace, hu⟩ : ∃ c tail, group (Hex.chars u.bytes) = c :: tail ∧
      c ≠ '{' ∧ c ≠ 'u' := by
    cases hc : Hex.chars u.bytes with
    | nil => simp [hc] at hlength
    | cons c tail => exact ⟨c, _, rfl, (hd c (hc ▸ List.mem_cons_self)).2⟩
  rw [hc] at hgroup hungroup
  have hurn : (c :: tail).take 9 ≠ "urn:uuid:".toList := by
    intro h
    exact hu (List.cons.inj h).1
  unfold ofText?
  rw [text, String.toList_ofList, hc]
  simp only [if_neg hurn, hgroup]
  rw [if_neg (by decide)]
  split
  · next heq => exact absurd (List.cons.inj heq).1 hbrace
  · simpa [hungroup] using hbytes

end Uuid

namespace Calendar

variable {rest : List Char}

theorem takeDigits_padded {limit width n : Nat} (hl : (padded width n).length ≤ limit)
    (hr : Undigited rest) : takeDigits limit (padded width n ++ rest) = some (n, rest) := by
  have hd : ∀ c ∈ padded width n, c.isDigit := fun c => isDigit_of_mem_padded
  have hrun : ((padded width n ++ rest).takeWhile Char.isDigit).take limit = padded width n := by
    rw [takeWhile_isDigit hd hr, List.take_of_length_le hl]
  have hne : (padded width n).isEmpty = false := by
    simpa using padded_ne_nil width n
  simp only [takeDigits, hrun, hne, List.drop_left, ofDigits_padded]
  rfl

theorem dropBlanks_cons {c : Char} (h : isBlank c = false) (rest : List Char) :
    dropBlanks (c :: rest) = c :: rest :=
  List.dropWhile_cons_of_neg (by simp [h])

theorem isBlank_of_isDigit {c : Char} (h : c.isDigit) : isBlank c = false := by
  have hc : 48 ≤ c.toNat ∧ c.toNat ≤ 57 := by
    simp only [Char.isDigit, Bool.and_eq_true, decide_eq_true_eq] at h
    exact h
  have hpoints : ∀ n ∈ blankPoints, n < 48 ∨ 57 < n := by decide
  have hmem : c.toNat ∉ blankPoints := by
    intro hm
    have := hpoints _ hm
    omega
  have hreturn : ¬ (9 ≤ c.toNat ∧ c.toNat ≤ 13) := by omega
  have hspaces : ¬ (8192 ≤ c.toNat ∧ c.toNat ≤ 8202) := by omega
  simp only [isBlank, ← Bool.decide_and, hreturn, hspaces, decide_false, Bool.false_or]
  simpa using hmem

theorem dropBlanks_padded (width n : Nat) (rest : List Char) :
    dropBlanks (padded width n ++ rest) = padded width n ++ rest := by
  obtain ⟨c, tail, hc, hdigit⟩ := padded_head width n
  rw [hc, List.cons_append, dropBlanks_cons (isBlank_of_isDigit hdigit)]

theorem readNumber?_padded {n : Nat} (h : n < 100) (hr : Undigited rest) :
    readNumber? 2 (padded 2 n ++ rest) = some (n, rest) := by
  rw [readNumber?, dropBlanks_padded,
    takeDigits_padded (Nat.le_of_eq (length_padded (by decide) h)) hr]

theorem readMark?_self {mark : Char} (h : isBlank mark = false) (rest : List Char) :
    readMark? mark (mark :: rest) = some rest := by
  rw [readMark?, dropBlanks_cons h]
  exact if_pos rfl

theorem readYear?_yearText (year : Int) (hr : Undigited rest) :
    readYear? (yearText year ++ rest) = some (year, rest) := by
  have hsigned := @takeDigits_padded rest (padded 4 year.natAbs ++ rest).length 4 year.natAbs
    (by simp) hr
  unfold yearText
  split
  · next hy =>
    have ht := @takeDigits_padded rest 4 4 year.toNat
      (Nat.le_of_eq (length_padded (by decide) (show year.toNat < 10000 by omega))) hr
    rw [readYear?, dropBlanks_padded]
    obtain ⟨c, tail, hc, hdigit⟩ := padded_head 4 year.toNat
    rw [hc, List.cons_append] at ht ⊢
    split
    · next heq =>
      rw [(List.cons.inj heq).1] at hdigit
      exact absurd hdigit (by decide)
    · next heq =>
      rw [(List.cons.inj heq).1] at hdigit
      exact absurd hdigit (by decide)
    · rw [ht]
      exact congrArg (fun y => some (y, rest)) (by omega)
  · next hy =>
    split
    · next hn =>
      have hy : -(year.natAbs : Int) = year := by omega
      rw [readYear?, List.cons_append, dropBlanks_cons (by decide)]
      simp only [hsigned, Option.map_some, hy]
    · next hn =>
      have hy : (year.natAbs : Int) = year := by omega
      rw [readYear?, List.cons_append, dropBlanks_cons (by decide)]
      simp only [hsigned, Option.map_some, hy]

namespace Date

theorem daysIn_le (year : Int) (month : Nat) : daysIn year month ≤ 31 := by
  unfold daysIn
  split
  · split <;> decide
  all_goals decide

theorem readPrefix?_chars (d : Date) (hr : Undigited rest) :
    readPrefix? (d.chars ++ rest) = some (d, rest) := by
  have hmark (rest : List Char) : Undigited ('-' :: rest) := undigited_cons rfl rest
  have hmonth : d.month < 100 := by
    have := d.month_mem
    omega
  have hday : d.day < 100 := by
    have := d.day_mem
    have := daysIn_le d.year d.month
    omega
  have hmake : make? d.year d.month d.day = some d :=
    dif_pos ⟨d.year_mem, d.month_mem, d.day_mem⟩
  simp only [readPrefix?, chars, List.append_assoc, List.cons_append,
    readYear?_yearText d.year (hmark _), readMark?_self (show isBlank '-' = false by decide),
    readNumber?_padded hmonth (hmark _), readNumber?_padded hday hr, hmake,
    Option.bind_eq_bind, Option.bind_some]
  rfl

theorem ofText?_text (d : Date) : ofText? d.text = some d := by
  have h := d.readPrefix?_chars undigited_nil
  rw [List.append_nil] at h
  rw [ofText?, text, String.toList_ofList, h]
  rfl

end Date

theorem readFraction?_padded {width n : Nat} (hw : 0 < width) (hl : width ≤ 9)
    (h : n < pow10 width) :
    readFraction? ('.' :: padded width n) = some (n * pow10 (9 - width), []) := by
  have hd : ∀ c ∈ padded width n, c.isDigit := fun c => isDigit_of_mem_padded
  have hrun := takeWhile_isDigit hd undigited_nil
  have hlength := length_padded hw h
  have hne : (padded width n).isEmpty = false := by
    simpa using padded_ne_nil width n
  rw [List.append_nil] at hrun
  rw [readFraction?]
  simp only [hrun, hne, hlength, List.take_of_length_le (Nat.le_trans (Nat.le_of_eq hlength) hl),
    ofDigits_padded]
  simp [hlength]

namespace Time

theorem readFraction?_fractionChars (t : Time) :
    readFraction? t.fractionChars = some (t.nanos % 1000000000, []) := by
  unfold fractionChars
  have h : t.nanos % 1000000000 < 1000000000 := Nat.mod_lt _ (by decide)
  generalize t.nanos % 1000000000 = n at h ⊢
  dsimp only
  split
  · next hn =>
    rw [hn]
    rfl
  split
  · rw [readFraction?_padded (by decide) (by decide) (show n / 1000000 < 1000 by omega)]
    exact congrArg (fun n => some (n, [])) (show n / 1000000 * 1000000 = n by omega)
  split
  · rw [readFraction?_padded (by decide) (by decide) (show n / 1000 < 1000000 by omega)]
    exact congrArg (fun n => some (n, [])) (show n / 1000 * 1000 = n by omega)
  · rw [readFraction?_padded (by decide) (by decide) h]
    exact congrArg (fun n => some (n, [])) (show n * 1 = n by omega)

theorem undigited_fractionChars (t : Time) : Undigited t.fractionChars := by
  unfold fractionChars
  dsimp only
  split
  · exact undigited_nil
  split
  · exact undigited_cons rfl _
  split
  · exact undigited_cons rfl _
  · exact undigited_cons rfl _

theorem make?_shown (t : Time) :
    (t.shownSecond = 60 →
      make? t.hour t.minute 59 (t.nanos % 1000000000 + 1000000000) = some t) ∧
    (t.shownSecond ≠ 60 →
      make? t.hour t.minute t.shownSecond (t.nanos % 1000000000) = some t) := by
  have hmake : make? t.hour t.minute t.second t.nanos = some t :=
    dif_pos ⟨t.hour_lt, t.minute_lt, t.second_lt, t.nanos_lt⟩
  have hsecond := t.second_lt
  have hnanos := t.nanos_lt
  unfold shownSecond
  constructor
  · intro hleap
    have hs : t.second = 59 := by omega
    have hn : t.nanos % 1000000000 + 1000000000 = t.nanos := by omega
    rw [hn, ← hs, hmake]
  · intro hleap
    have hs : t.second + t.nanos / 1000000000 = t.second := by omega
    have hn : t.nanos % 1000000000 = t.nanos := by omega
    rw [hs, hn, hmake]

end Time

namespace DateTime

theorem ofText?_text (d : DateTime) : ofText? d.text = some d := by
  have hhour : d.time.hour < 100 := by
    have := d.time.hour_lt
    omega
  have hminute : d.time.minute < 100 := by
    have := d.time.minute_lt
    omega
  have hsecond : d.time.shownSecond < 100 := by
    have := d.time.second_lt
    have := d.time.nanos_lt
    unfold Time.shownSecond
    omega
  have hcolon (rest : List Char) : Undigited (':' :: rest) := undigited_cons rfl rest
  simp only [ofText?, text, String.toList_ofList, Time.chars, List.append_assoc, List.cons_append,
    d.date.readPrefix?_chars (undigited_cons (c := 'T') rfl _),
    readMark?_self (show isBlank 'T' = false by decide),
    readMark?_self (show isBlank ':' = false by decide),
    readNumber?_padded hhour (hcolon _), readNumber?_padded hminute (hcolon _),
    readNumber?_padded hsecond d.time.undigited_fractionChars,
    d.time.readFraction?_fractionChars, Option.bind_eq_bind, Option.bind_some]
  split
  · next hleap =>
    rw [d.time.make?_shown.1 hleap]
    rfl
  · next hleap =>
    rw [d.time.make?_shown.2 hleap]
    rfl

end DateTime

end Calendar

namespace Number.Decimal

def reread (d : Decimal) : Decimal := { d with negative := d.negative && d.coefficient != 0 }

theorem sameNumber_reread (d : Decimal) : d.sameNumber d.reread := by
  have h : d.numerator = d.reread.numerator := by
    unfold numerator reread
    by_cases hc : d.coefficient = 0 <;> simp [hc]
  simp [sameNumber, h]

theorem readFrom_digits {negative seen pointSeen : Bool} {coefficient scale : Nat}
    {ds : List Char} (hd : ∀ c ∈ ds, c.isDigit)
    (hc : ofDigitsFrom coefficient ds < pow2 96)
    (hs : pointSeen → scale + ds.length ≤ 28) (rest : List Char) :
    readFrom negative seen pointSeen coefficient scale (ds ++ rest) =
      readFrom negative (seen || !ds.isEmpty) pointSeen (ofDigitsFrom coefficient ds)
        (if pointSeen then scale + ds.length else scale) rest := by
  induction ds generalizing seen coefficient scale with
  | nil =>
    rw [List.nil_append, List.isEmpty_nil, Bool.not_true, Bool.or_false, List.length_nil,
      Nat.add_zero, ite_self]
    rfl
  | cons c ds ih =>
    have hdigit : c.isDigit := hd c List.mem_cons_self
    have hnext : 10 * coefficient + (c.toNat - 48) < pow2 96 :=
      Nat.lt_of_le_of_lt (le_ofDigitsFrom _ ds) hc
    have hfull : (pointSeen && decide (scale = 28)) = false := by
      cases hp : pointSeen with
      | false => rfl
      | true =>
        have := hs hp
        rw [List.length_cons] at this
        simp
        omega
    rw [List.cons_append, readFrom, hfull, Bool.false_and, if_neg Bool.false_ne_true, if_pos hdigit]
    simp only [if_pos hnext]
    have hscale : (if pointSeen then (if pointSeen then scale + 1 else scale) + ds.length
        else if pointSeen then scale + 1 else scale) =
        if pointSeen then scale + (c :: ds).length else scale := by
      cases pointSeen
      · rfl
      · simp only [if_true, List.length_cons]
        omega
    rw [ih (fun c hm => hd c (List.mem_cons_of_mem _ hm)) hc, hscale, Bool.true_or,
      List.isEmpty_cons, Bool.not_false, Bool.or_true]
    · rfl
    · intro hp
      have := hs hp
      rw [List.length_cons] at this
      rw [if_pos hp]
      omega

theorem readFrom_point {negative : Bool} {whole places : List Char}
    (hd : ∀ c ∈ whole ++ places, c.isDigit) (hw : whole ≠ [])
    (hc : ofDigits (whole ++ places) < pow2 96) (hs : places.length ≤ 28) :
    readFrom negative false false 0 0 (whole ++ '.' :: places) =
      make? negative (ofDigits (whole ++ places)) places.length := by
  have hsplit : ofDigits (whole ++ places) = ofDigitsFrom (ofDigitsFrom 0 whole) places :=
    ofDigitsFrom_append 0 whole places
  rw [hsplit] at hc ⊢
  rw [readFrom_digits (fun c hm => hd c (List.mem_append_left _ hm))
    (Nat.lt_of_le_of_lt (le_ofDigitsFrom _ places) hc) (by simp)]
  have hplaces := @readFrom_digits negative true true _ 0 places
    (fun c hm => hd c (List.mem_append_right whole hm)) hc (by simpa using hs) []
  have hpoint (coefficient : Nat) : readFrom negative true false coefficient 0 ('.' :: places) =
      readFrom negative true true coefficient 0 places := by
    have hpoint : ('.' : Char).isDigit = false := rfl
    rw [readFrom]
    simp only [Bool.false_and, Bool.false_eq_true, if_false, hpoint]
    rfl
  have hseen : (false || !whole.isEmpty) = true := by simpa using hw
  rw [List.append_nil, Bool.true_or, if_pos rfl, Nat.zero_add] at hplaces
  rw [hseen, if_neg Bool.false_ne_true, hpoint, hplaces]
  rfl

def body (d : Decimal) : List Char :=
  let ds := padded (d.scale + 1) d.coefficient
  let whole := ds.take (ds.length - d.scale)
  if d.scale = 0 then whole else whole ++ '.' :: ds.drop (ds.length - d.scale)

theorem toList_text (d : Decimal) :
    d.text.toList = (if d.negative then ['-'] else []) ++ d.body := by
  unfold text
  rw [String.toList_append, String.toList_ofList]
  split <;> rfl

theorem make?_reread (d : Decimal) : make? d.negative d.coefficient d.scale = some d.reread :=
  dif_pos ⟨d.coefficient_lt, d.scale_le⟩

theorem readFrom_body (d : Decimal) :
    readFrom d.negative false false 0 0 d.body = some d.reread := by
  have hd : ∀ c ∈ padded (d.scale + 1) d.coefficient, c.isDigit := fun c => isDigit_of_mem_padded
  have hc := ofDigits_padded (d.scale + 1) d.coefficient
  have hl := le_length_padded (d.scale + 1) d.coefficient
  rw [body]
  generalize padded (d.scale + 1) d.coefficient = ds at hd hc hl
  have hlt : ofDigits ds < pow2 96 := hc ▸ d.coefficient_lt
  split
  · next hs =>
    rw [hs, Nat.sub_zero, List.take_length, ← List.append_nil ds,
      readFrom_digits hd hlt (by simp)]
    have hseen : (false || !ds.isEmpty) = true := by
      cases ds with
      | nil => simp at hl
      | cons c ds => rfl
    rw [hseen, if_neg Bool.false_ne_true, readFrom, if_pos rfl, ← ofDigits, hc]
    exact hs ▸ d.make?_reread
  · next hs =>
    have hwhole : ds.take (ds.length - d.scale) ≠ [] := by
      rw [← List.length_pos_iff, List.length_take]
      omega
    have hplaces : (ds.drop (ds.length - d.scale)).length = d.scale := by
      rw [List.length_drop]
      omega
    have happend := List.take_append_drop (ds.length - d.scale) ds
    rw [readFrom_point (by rwa [happend]) hwhole (by rwa [happend])
      (Nat.le_trans (Nat.le_of_eq hplaces) d.scale_le),
      happend, hplaces, hc, make?_reread]

theorem body_head (d : Decimal) : ∃ c tail, d.body = c :: tail ∧ c.isDigit := by
  have hl := le_length_padded (d.scale + 1) d.coefficient
  obtain ⟨c, tail, hc, hdigit⟩ := padded_head (d.scale + 1) d.coefficient
  rw [body]
  rw [hc] at hl ⊢
  obtain ⟨n, hn⟩ : ∃ n, (c :: tail).length - d.scale = n + 1 :=
    Nat.exists_eq_add_one.mpr (by omega)
  rw [hn, List.take_succ_cons]
  split
  · exact ⟨c, _, rfl, hdigit⟩
  · exact ⟨c, _, rfl, hdigit⟩

theorem ofText?_text (d : Decimal) : ofText? d.text = some d.reread := by
  have hbody := d.readFrom_body
  have hplain : readPlain? d.text.toList = some d.reread := by
    rw [toList_text]
    cases hn : d.negative with
    | true =>
      rw [hn] at hbody
      exact hbody
    | false =>
      obtain ⟨c, tail, hc, hdigit⟩ := d.body_head
      rw [hn, hc] at hbody
      rw [hc, if_neg Bool.false_ne_true, List.nil_append, readPlain?]
      · exact hbody
      · rintro _ ⟨⟩
        exact absurd hdigit (by decide)
      · rintro _ ⟨⟩
        exact absurd hdigit (by decide)
  rw [ofText?, hplain]

end Number.Decimal

end SqlDialects
