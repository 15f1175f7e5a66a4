import SqlDialects.Proofs.Storage.Printed
import SqlDialects.Proofs.Storage.Texts
import SqlDialects.Storage.Read
import SqlDialects.Storage.Write

/-!
Stored values are read as they were written. `Reads` says so of one document and any depth that is
enough for it; the readers of objects, choices and lists keep it.
-/

namespace SqlDialects

open Number

namespace Json

mutual
def depth : Json → Nat
  | array items => depthOfItems items + 1
  | object members => depthOfMembers members + 1
  | _ => 0

def depthOfItems : List Json → Nat
  | [] => 0
  | j :: items => max j.depth (depthOfItems items)

def depthOfMembers : List (List Char × Json) → Nat
  | [] => 0
  | (_, j) :: members => max j.depth (depthOfMembers members)
end

theorem depthOfItems_le {items : List Json} {n : Nat} :
    depthOfItems items ≤ n ↔ ∀ j ∈ items, j.depth ≤ n := by
  induction items with
  | nil => simp [depthOfItems]
  | cons j items ih => rw [depthOfItems, Nat.max_le, ih, List.forall_mem_cons]

theorem depthOfMembers_le {members : List (List Char × Json)} {n : Nat} :
    depthOfMembers members ≤ n ↔ ∀ m ∈ members, m.2.depth ≤ n := by
  induction members with
  | nil => simp [depthOfMembers]
  | cons m members ih => rw [depthOfMembers, Nat.max_le, ih, List.forall_mem_cons]

theorem depth_tagged (tag : String) (j : Json) : (tagged tag j).depth = j.depth + 1 := by
  simp [tagged, record, depth, depthOfMembers]

end Json

namespace Storage

open Json

variable {α β : Type} {j : Json}

/-- The depth is enough for the document, and no more than there may be. -/
def Fits (limit depth : Nat) (j : Json) : Prop :=
  j.depth ≤ depth ∧ depth ≤ limit ∧ depth ≤ maxDepth

namespace Fits

variable {limit depth : Nat}

theorem mono (h : Fits limit depth j) : Fits (limit + 1) depth j :=
  ⟨h.1, Nat.le_succ_of_le h.2.1, h.2.2⟩

theorem array {items : List Json} (h : Fits limit depth (.array items)) :
    ∃ d, depth = d + 1 ∧ ∀ j ∈ items, Fits limit d j := by
  obtain ⟨hd, hl, hm⟩ := h
  obtain ⟨d, rfl⟩ := Nat.exists_eq_add_one.mpr (Nat.lt_of_lt_of_le (Nat.succ_pos _) hd)
  exact ⟨d, rfl, fun j hj => ⟨depthOfItems_le.mp (Nat.le_of_succ_le_succ hd) j hj,
    Nat.le_of_succ_le hl, Nat.le_of_succ_le hm⟩⟩

theorem record {members : List (String × Json)} (h : Fits (limit + 1) depth (.record members)) :
    ∃ d, depth = d + 1 ∧ ∀ m ∈ members, Fits limit d m.2 := by
  obtain ⟨hd, hl, hm⟩ := h
  obtain ⟨d, rfl⟩ := Nat.exists_eq_add_one.mpr (Nat.lt_of_lt_of_le (Nat.succ_pos _) hd)
  refine ⟨d, rfl, fun m hin => ⟨?_, Nat.le_of_succ_le_succ hl, Nat.le_of_succ_le hm⟩⟩
  exact depthOfMembers_le.mp (Nat.le_of_succ_le_succ hd) _ (List.mem_map_of_mem hin)

theorem tagged {tag : String} {j : Json} (h : Fits limit depth (.tagged tag j)) :
    ∃ d, depth = d + 1 ∧ Fits limit d j := by
  obtain ⟨d, rfl, hd⟩ := h.mono.record
  exact ⟨d, rfl, hd (tag, j) (List.mem_singleton.mpr rfl)⟩

end Fits

/-- At every depth that fits, the document is read as the value. -/
def Reads (limit : Nat) (read : Reader α) (j : Json) (a : α) : Prop :=
  ∀ depth, Fits limit depth j → read depth j = some a

@[simp] theorem decodeText?_escape (s : String) : decodeText? (escape s.toList) = some s := by
  simp [decodeText?]

@[simp] theorem text?_ofText (s : String) : (ofText s).text? = some s := decodeText?_escape s

@[simp] theorem text_ofText (depth : Nat) (s : String) : text depth (ofText s) = some s :=
  text?_ofText s

@[simp] theorem bool_bool (depth : Nat) (b : Bool) : bool depth (.bool b) = some b := rfl

theorem int?_ofInt {n : Int} (hl : -pow2 63 ≤ n) (hu : n < pow2 64) : (ofInt n).int? = some n := by
  rw [int?, ofInt, numeralOf?, numeral?_intText hl hu]

theorem int?_ofNat {n : Nat} (h : n < pow2 64) : (ofNat n).int? = some (n : Int) := by
  rw [ofNat_eq_ofInt]
  exact int?_ofInt (by omega) (by exact_mod_cast h)

theorem mapM_map {γ : Type} {read : β → Option γ} {write : α → β} {f : α → γ} {xs : List α}
    (h : ∀ x ∈ xs, read (write x) = some (f x)) : (xs.map write).mapM read = some (xs.map f) := by
  induction xs with
  | nil => rfl
  | cons x xs ih =>
    have hxs := ih fun y hy => h y (List.mem_cons_of_mem x hy)
    simp [h x List.mem_cons_self, hxs]

theorem choice?_tagged (tag : String) (j : Json) (depth : Nat) :
    choice? (depth + 1) (.tagged tag j) = some (tag, some j, depth) := by
  simp [choice?, tagged, record]

namespace Reads

variable {limit : Nat} {read : Reader α} {j : Json} {a : α}

theorem text (s : String) : Reads limit Storage.text (ofText s) s :=
  fun depth _ => text_ofText depth s

theorem bool (b : Bool) : Reads limit Storage.bool (.bool b) b := fun _ _ => rfl

theorem uint64 (n : UInt64) : Reads limit Storage.uint64 (ofNat n.toNat) n := by
  intro depth _
  have hn : n.toNat < pow2 64 := n.toNat_lt
  simp [Storage.uint64, int?_ofNat hn]

theorem int64 (n : Int64) : Reads limit Storage.int64 (ofInt n.toInt) n := by
  intro depth _
  have hl : -pow2 63 ≤ n.toInt := n.le_toInt
  have hu : n.toInt < pow2 63 := n.toInt_lt
  have hp : (pow2 63 : Int) < pow2 64 := by decide
  simp [Storage.int64, int?_ofInt hl (Int.lt_trans hu hp), hu]

theorem byte (b : UInt8) : Reads limit Storage.byte (ofNat b.toNat) b := by
  intro depth _
  have hb : b.toNat < 256 := b.toNat_lt
  have hp : b.toNat < pow2 64 := Nat.lt_trans hb (by decide)
  have hb' : (b.toNat : Int) < 256 := by omega
  simp [Storage.byte, int?_ofNat hp, hb']

theorem char (c : Char) : Reads limit Storage.char (ofText c.toString) c := by
  intro depth _
  simp [Storage.char]

theorem decimal (d : Decimal) : Reads limit Storage.decimal (ofText d.text) d.reread := by
  intro depth _
  show (decodeText? (escape d.text.toList)).bind Decimal.ofText? = _
  rw [decodeText?_escape, Option.bind_some, d.ofText?_text]

theorem list {xs : List β} {write : β → Json} {f : β → α}
    (h : ∀ x ∈ xs, Reads limit read (write x) (f x)) :
    Reads limit (Storage.list read) (.array (xs.map write)) (xs.map f) := by
  intro depth hfit
  obtain ⟨d, rfl, hd⟩ := hfit.array
  exact mapM_map fun x hx => h x hx d (hd _ (List.mem_map_of_mem hx))

theorem nullable {o : Option β} {write : β → Json} {f : β → α} (hw : ∀ x, write x ≠ .null)
    (h : ∀ x ∈ o, Reads limit read (write x) (f x)) :
    Reads limit (Storage.nullable read) (ofOption write o) (o.map f) := by
  intro depth hfit
  cases o with
  | none => rfl
  | some x =>
    rw [ofOption, Storage.nullable]
    · rw [h x rfl depth hfit]
      rfl
    · exact hw x

theorem name {ofTag? : String → Option α} {tag : String} (h : ofTag? tag = some a) :
    Reads limit (Storage.name ofTag?) (ofText tag) a := by
  intro depth _
  simp [Storage.name, choice?, ofText, h]

theorem variant {readers : String → Option (Reader α)} {tag : String}
    (ht : readers tag = some read) (h : Reads limit read j a) :
    Reads limit (Storage.variant readers) (.tagged tag j) a := by
  intro depth hfit
  obtain ⟨d, rfl, hd⟩ := hfit.tagged
  simp [Storage.variant, choice?_tagged, ht, h d hd]

theorem map {f : α → β} (h : Reads limit read j a) :
    Reads limit (fun depth j => (read depth j).map f) j (f a) := by
  intro depth hfit
  exact congrArg (Option.map f) (h depth hfit)

end Reads

theorem member?_of_mem {members : List (String × Json)} (hd : (members.map (·.1)).Nodup)
    {m : String × Json} (hm : m ∈ members) : member? members m.1 = some (some m.2) := by
  have hf : members.filter (·.1 == m.1) = [m] := by
    induction members with
    | nil => cases hm
    | cons n members ih =>
      rw [List.map_cons, List.nodup_cons] at hd
      rcases List.mem_cons.mp hm with rfl | hm
      · have hrest : members.filter (·.1 == m.1) = [] := List.filter_eq_nil_iff.mpr fun n hn he =>
          hd.1 (List.mem_map.mpr ⟨n, hn, beq_iff_eq.mp he⟩)
        rw [List.filter_cons, if_pos (beq_self_eq_true m.1), hrest]
      · have hne : ¬ (n.1 == m.1) := fun he =>
          hd.1 (List.mem_map.mpr ⟨m, hm, (beq_iff_eq.mp he).symm⟩)
        rw [List.filter_cons, if_neg hne, ih hd.2 hm]
  rw [member?, hf]

theorem members?_record {names : List String} {members : List (String × Json)}
    (hn : members.map (·.1) = names) (hd : names.Nodup) (depth : Nat) :
    members? names (depth + 1) (.record members) =
      some (⟨members.map fun m => some m.2, false⟩, depth) := by
  subst hn
  have hnames : decodeNames? (members.map escaped) = some (members.map id) :=
    mapM_map fun m _ => by simp [escaped]
  have hvalues : (members.map (·.1)).mapM (member? members) =
      some (members.map fun m => some m.2) :=
    mapM_map fun m hm => member?_of_mem hd hm
  rw [record_eq, members?, hnames, List.map_id]
  simp only [Option.bind_eq_bind, Option.bind_some, hvalues]
  rfl

namespace Members

variable (values : List (Option Json)) (i depth : Nat)

@[simp] theorem required_mk (positional : Bool) (read : Reader α) :
    required ⟨values, positional⟩ i depth read = (values[i]?).join.bind (read depth) := rfl

@[simp] theorem optional_mk (read : Reader (Option α)) :
    optional ⟨values, false⟩ i depth read =
      match (values[i]?).join with
      | some j => read depth j
      | none => some none := rfl

@[simp] theorem orElse_mk (positional : Bool) (default : α) (read : Reader α) :
    orElse ⟨values, positional⟩ i depth default read =
      match (values[i]?).join with
      | some j => read depth j
      | none => some default := rfl

end Members

variable {limit : Nat}

theorem Reads.fields_succ {names : List String} {members : List (String × Json)}
    {read : Members → Nat → Option α} {a : α} (hn : members.map (·.1) = names) (hd : names.Nodup)
    (h : ∀ depth, (∀ m ∈ members, Fits limit depth m.2) →
      read ⟨members.map fun m => some m.2, false⟩ depth = some a) :
    Reads (limit + 1) (Storage.fields names read) (.record members) a := by
  intro depth hfit
  obtain ⟨d, rfl, hmembers⟩ := hfit.record
  simp [Storage.fields, members?_record hn hd, h d hmembers]

theorem Reads.fields {names : List String} {members : List (String × Json)}
    {read : Members → Nat → Option α} {a : α} (hn : members.map (·.1) = names) (hd : names.Nodup)
    (h : ∀ depth, (∀ m ∈ members, Fits limit depth m.2) →
      read ⟨members.map fun m => some m.2, false⟩ depth = some a) :
    Reads limit (Storage.fields names read) (.record members) a :=
  fun depth hfit => Reads.fields_succ hn hd h depth hfit.mono

end Storage

def Value.NoFloat (v : Value) : Prop := ∀ x, Value.float x ∉ v.leaves

mutual
def Value.reread : Value → Value
  | .decimal d => .decimal d.reread
  | .array items => .array (Value.rereadAll items)
  | v => v

def Value.rereadAll : List Value → List Value
  | [] => []
  | v :: vs => v.reread :: Value.rereadAll vs
end

theorem Value.rereadAll_eq_map (vs : List Value) : Value.rereadAll vs = vs.map Value.reread := by
  induction vs with
  | nil => rfl
  | cons v vs ih => rw [rereadAll, ih, List.map_cons]

theorem Value.listToJson_eq_map (vs : List Value) : Value.listToJson vs = vs.map Value.toJson := by
  induction vs with
  | nil => rfl
  | cons v vs ih => rw [listToJson, ih, List.map_cons]

theorem Value.mem_leavesOf {vs : List Value} {x : Value} :
    x ∈ Value.leavesOf vs ↔ ∃ v ∈ vs, x ∈ v.leaves := by
  induction vs with
  | nil => simp [leavesOf]
  | cons v vs ih => simp [leavesOf, ih]

theorem Value.NoFloat.item {items : List Value} (h : (Value.array items).NoFloat) :
    ∀ v ∈ items, v.NoFloat :=
  fun v hv x hx => h x (Value.mem_leavesOf.mpr ⟨v, hv, hx⟩)

namespace Storage

open Json

variable {limit : Nat}

theorem valueWithin_leaf {tag : String} {read : Reader Value} (h : leaf tag = some read)
    (tries depth : Nat) (j : Json) :
    valueWithin (tries + 1) (depth + 1) (.tagged tag j) = read depth j := by
  rw [valueWithin]
  simp only [choice?_tagged, Option.bind_eq_bind, Option.bind_some]
  split
  · next heq => cases heq
  · cases h
  · cases h
  · next heq =>
    cases heq
    rw [h]
    rfl
  · next heq => cases heq

theorem valueWithin_toJson {v : Value} (hv : v.NoFloat) {tries depth : Nat}
    (ht : v.toJson.depth < tries) (hfit : Fits limit depth v.toJson) :
    valueWithin tries depth v.toJson = some v.reread := by
  -- Only arrays take a try, and each of theirs has two levels of the document to itself.
  induction tries generalizing v depth with
  | zero => omega
  | succ tries ih =>
    have hleaf {tag : String} {read : Reader Value} {j : Json} {w : Value}
        (hfit : Fits limit depth (.tagged tag j)) (h : leaf tag = some read)
        (hr : Reads limit read j w) :
        valueWithin (tries + 1) depth (.tagged tag j) = some w := by
      obtain ⟨d, rfl, hd⟩ := hfit.tagged
      rw [valueWithin_leaf h, hr d hd]
    cases v with
    | null => rfl
    | bool b => exact hleaf hfit rfl (.map (.bool b))
    | int n => exact hleaf hfit rfl (.map (.int64 n))
    | uint n => exact hleaf hfit rfl (.map (.uint64 n))
    | float x => exact absurd (List.mem_singleton.mpr rfl) (hv x)
    | decimal d => exact hleaf hfit rfl (.map (.decimal d))
    | string s => exact hleaf hfit rfl (.map (.text s))
    | bytes bs =>
      have hbs : Reads limit (list byte) (.array (bs.map fun b => ofNat b.toNat)) (bs.map id) :=
        .list fun b _ => .byte b
      rw [List.map_id] at hbs
      exact hleaf hfit rfl (.map hbs)
    | uuid u =>
      exact hleaf hfit rfl fun depth _ => by
        rw [text?_ofText, Option.bind_some, u.ofText?_text, Option.map_some]
        rfl
    | date d =>
      exact hleaf hfit rfl fun depth _ => by
        rw [text?_ofText, Option.bind_some, d.ofText?_text, Option.map_some]
        rfl
    | dateTime d =>
      exact hleaf hfit rfl fun depth _ => by
        rw [text?_ofText, Option.bind_some, d.ofText?_text, Option.map_some]
        rfl
    | array items =>
      rw [Value.toJson, Value.listToJson_eq_map] at ht hfit ⊢
      rw [Value.reread, Value.rereadAll_eq_map]
      obtain ⟨d, rfl, hd⟩ := hfit.tagged
      obtain ⟨d, rfl, hitems⟩ := hd.array
      rw [depth_tagged, Json.depth] at ht
      have hdepth : ∀ j ∈ items.map Value.toJson, j.depth ≤ tries - 2 :=
        depthOfItems_le.mp (by omega)
      have hread : (items.map Value.toJson).mapM (valueWithin tries d) =
          some (items.map Value.reread) := mapM_map fun v hm => by
        have hj := List.mem_map_of_mem (f := Value.toJson) hm
        have := hdepth _ hj
        exact ih (hv.item v hm) (by omega) (hitems _ hj)
      rw [valueWithin]
      simp only [choice?_tagged, Option.bind_eq_bind, Option.bind_some]
      show (list (valueWithin tries) (d + 1) (.array (items.map Value.toJson))).map Value.array = _
      rw [list, hread, Option.map_some]
    | raw sql => exact hleaf hfit rfl (.map (.text sql))
    | var name => exact hleaf hfit rfl (.map (.text name))

theorem Reads.value {v : Value} (hv : v.NoFloat) : Reads limit Storage.value v.toJson v.reread :=
  fun _ hfit => valueWithin_toJson hv (Nat.lt_succ_of_le (Nat.le_trans hfit.1 hfit.2.2)) hfit

theorem Reads.values {vs : List Value} (hvs : ∀ v ∈ vs, v.NoFloat) :
    Reads limit (Storage.list Storage.value) (valuesJson vs) (vs.map Value.reread) := by
  rw [valuesJson, Value.listToJson_eq_map]
  exact .list fun v hv => .value (hvs v hv)

theorem Reads.texts (ss : List String) :
    Reads limit (Storage.list Storage.text) (textsJson ss) ss := by
  have h : Reads limit (Storage.list Storage.text) (textsJson ss) (ss.map id) :=
    .list fun s _ => .text s
  rwa [List.map_id] at h

theorem Reads.optionalText (o : Option String) :
    Reads limit (Storage.nullable Storage.text) (ofOption ofText o) o := by
  have h : Reads limit (Storage.nullable Storage.text) (ofOption ofText o) (o.map id) :=
    .nullable nofun fun s _ => .text s
  rwa [Option.map_id] at h

theorem Reads.optionalChar (o : Option Char) :
    Reads limit (Storage.nullable Storage.char)
      (ofOption (fun c => ofText (String.singleton c)) o) o := by
  have h : Reads limit (Storage.nullable Storage.char)
      (ofOption (fun c => ofText (String.singleton c)) o) (o.map id) :=
    .nullable nofun fun c _ => .char c
  rwa [Option.map_id] at h

end Storage

end SqlDialects
