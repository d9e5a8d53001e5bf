import Mathlib
import InlinePolicy.Json.Codec
import InlinePolicy.Proofs.Json.Printed

/-!
# Encoded values decoded

What decoding makes of an encoded value, part by part: a record without repeated names gives each
of its fields to its decoder (`record_of_members`), and a list is decoded item by item
(`fromJson_toJson_list`).  In the other direction, `Decodes P` says that whatever is decoded has a
property; it, too, passes from the parts to the whole.
-/

namespace InlinePolicy

open Json

/-- A type whose values all have a JSON form that its text denotes. -/
class ReadableJson (α : Type) [ToJson α] : Prop where
  readable (a : α) : (toJson a).Readable

export ReadableJson (readable)

namespace Json

variable {α β γ : Type}

/-! ## Readable forms -/

theorem ofInt?_toNat (n : UInt64) : Word.ofInt? n.toNat = some n := by
  rw [Word.ofInt?, if_pos (Int.natCast_nonneg _), Int.toNat_natCast]
  exact Word.ofNat?_eq_some_iff.2 rfl

theorem ofSigned?_toInt (n : Int64) : Word.ofSigned? n.toInt = some n := by
  rw [Word.ofSigned?, if_pos ⟨n.minValue_le_toInt, n.toInt_le⟩, Int64.ofInt_toInt]

instance : ReadableJson Bool := ⟨.bool⟩

instance : ReadableJson String := ⟨.string⟩

instance : ReadableJson UInt64 :=
  ⟨fun n => .integer (.inl (by rw [ofInt?_toNat, Option.isSome_some]))⟩

instance : ReadableJson Int64 :=
  ⟨fun n => .integer (.inr (by rw [ofSigned?_toInt, Option.isSome_some]))⟩

instance : ReadableJson Float where
  readable x := by
    change (ofFloat x).Readable
    unfold ofFloat
    split_ifs with finite
    · exact .real x finite
    · exact .null

instance [ToJson α] [ReadableJson α] : ReadableJson (List α) where
  readable items := .array fun item mem => by
    obtain ⟨a, -, rfl⟩ := List.mem_map.1 mem
    exact readable a

instance [ToJson α] [ReadableJson α] : ReadableJson (Option α) where
  readable
    | some a => readable a
    | none => .null

/-- Decoding the text of a value is decoding the value. -/
theorem decode_compact [FromJson α] {value : Json} (readable : value.Readable) :
    decode (α := α) value.compact = fromJson value := by
  rw [decode, parse?_compact readable]

theorem decode_pretty [FromJson α] {value : Json} (readable : value.Readable) :
    decode (α := α) value.pretty = fromJson value := by
  rw [decode, parse?_pretty readable]

theorem decode_pretty_line [FromJson α] {value : Json} (readable : value.Readable) :
    decode (α := α) (value.pretty ++ "\n") = fromJson value := by
  rw [decode, parse?_pretty_line readable]

/-! ## Values without parts -/

theorem fromJson_toJson_bool (b : Bool) : fromJson (toJson b) = .ok b := rfl

theorem fromJson_toJson_string (s : String) : fromJson (toJson s) = .ok s := rfl

theorem fromJson_toJson_word (n : UInt64) : fromJson (toJson n) = .ok n := by
  change (Word.ofInt? n.toNat).elim (Except.error Error.mismatch) .ok = .ok n
  rw [ofInt?_toNat, Option.elim_some]

theorem fromJson_toJson_signedWord (n : Int64) : fromJson (toJson n) = .ok n := by
  change (Word.ofSigned? n.toInt).elim (Except.error Error.mismatch) .ok = .ok n
  rw [ofSigned?_toInt, Option.elim_some]

theorem fromJson_toJson_float {x : Float} (finite : x.isFinite = true) :
    fromJson (toJson x) = .ok x := by
  have form : toJson x = .real x finite := dif_pos finite
  rw [form]
  rfl

/-! ## Lists and options -/

/-- An array is decoded item by item. -/
theorem fromJson_array [FromJson β] {items : List α} {values : List Json} {decoded : α → β}
    (each : List.Forall₂ (fun a value => fromJson value = .ok (decoded a)) items values) :
    fromJson (.array values) = .ok (items.map decoded) := by
  change values.mapM fromJson = Except.ok (items.map decoded)
  induction each with
  | nil => rfl
  | cons head _ ih =>
    rw [List.mapM_cons, head, ih]
    rfl

theorem fromJson_toJson_list [ToJson α] [FromJson β] {items : List α} {decoded : α → β}
    (each : ∀ a ∈ items, fromJson (toJson a) = .ok (decoded a)) :
    fromJson (toJson items) = .ok (items.map decoded) :=
  fromJson_array (List.forall₂_map_right_iff.2 (List.forall₂_same.2 each))

theorem fromJson_toJson_list_self [ToJson α] [FromJson α] {items : List α}
    (each : ∀ a ∈ items, fromJson (toJson a) = .ok a) : fromJson (toJson items) = .ok items := by
  have decoded := fromJson_toJson_list each
  rwa [List.map_id'] at decoded

theorem fromJson_option [FromJson α] {value : Json} (present : value ≠ .null) :
    fromJson value = some <$> (fromJson value : Except Error α) := by
  cases value with
  | null => exact absurd rfl present
  | _ => rfl

/-- An option, of which a value with the form `null` is lost. -/
theorem fromJson_toJson_option [ToJson α] [FromJson β] {o : Option α} {decoded : α → Option β}
    (each : ∀ a ∈ o, fromJson (toJson a) = .ok (decoded a)) :
    fromJson (toJson o) = .ok (o.bind decoded) := by
  cases o with
  | none => rfl
  | some a => exact each a rfl

/-- An option of a type whose values are read back and never have the form `null`. -/
theorem fromJson_toJson_option_self [ToJson α] [FromJson α]
    (each : ∀ a : α, fromJson (toJson a) = .ok (some a)) (o : Option α) :
    fromJson (toJson o) = .ok o := by
  rw [fromJson_toJson_option fun a _ => each a, Option.bind_fun_some]

theorem fromJson_toJson_some_word (n : UInt64) : fromJson (toJson n) = .ok (some n) := by
  rw [fromJson_option (by rintro ⟨⟩), fromJson_toJson_word]
  rfl

theorem fromJson_toJson_some_string (s : String) : fromJson (toJson s) = .ok (some s) :=
  rfl

/-- A float is lost in an option if it has no finite value. -/
theorem fromJson_toJson_some_float (x : Float) :
    fromJson (toJson x) = .ok (if x.isFinite then some x else none) := by
  split_ifs with finite
  · have form : toJson x = .real x finite := dif_pos finite
    rw [form]
    rfl
  · have form : toJson x = .null := dif_neg finite
    rw [form]
    rfl

/-! ## Records -/

/-- A computation that succeeds goes through its first step. -/
theorem ok_of_bind {x : Except Error α} {f : α → Except Error γ} {c : γ} (h : x >>= f = .ok c) :
    ∃ a, x = .ok a ∧ f a = .ok c := by
  cases x with
  | error e => cases h
  | ok a => exact ⟨a, rfl, h⟩

variable {names : List String} {members : List (String × Json)} {name : String} {value : Json}
  {build : Fields → Except Error β}

/-- No name in a list of members is repeated. -/
def DistinctNames (members : List (String × Json)) : Prop := (members.map Prod.fst).Nodup

theorem givenOnce_of_distinct (distinct : DistinctNames members) (name : String) :
    givenOnce members name = true := by
  have once := List.nodup_iff_count_le_one.1 distinct name
  rw [List.count, List.countP_map] at once
  exact decide_eq_true once

theorem record_object (once : ∀ name ∈ names, givenOnce members name = true) :
    record names build (.object members) = build (slotOfMembers members) := by
  rw [record, if_pos (List.all_eq_true.2 once)]

/-- A record is built from its fields, however they are given. -/
theorem fields_of_record {b : β} (decoded : record names build value = .ok b) :
    ∃ fields, build fields = .ok b := by
  unfold record at decoded
  split at decoded
  · split_ifs at decoded
    exact ⟨_, decoded⟩
  · obtain ⟨result, built, decoded⟩ := ok_of_bind decoded
    split_ifs at decoded
    obtain rfl := Except.ok.inj decoded
    exact ⟨_, built⟩
  · cases decoded
  · cases decoded

theorem slotOfMembers_of_mem (once : givenOnce members name = true)
    (mem : (name, value) ∈ members) : slotOfMembers members name = .given value := by
  have few : (members.filter fun member => member.1 == name).length ≤ 1 := by
    rw [← List.countP_eq_length_filter]
    exact of_decide_eq_true once
  have found : (name, value) ∈ members.filter fun member => member.1 == name :=
    List.mem_filter.2 ⟨mem, beq_self_eq_true name⟩
  have only : (members.filter fun member => member.1 == name) = [(name, value)] := by
    obtain ⟨member, only⟩ := List.length_eq_one_iff.1 (few.antisymm (List.length_pos_of_mem found))
    rw [only] at found ⊢
    rw [List.mem_singleton.1 found]
  rw [slotOfMembers, ← List.head?_filter, only, List.head?_cons]

theorem slotOfMembers_of_not_mem (absent : name ∉ members.map Prod.fst) :
    slotOfMembers members name = .omitted := by
  have none : members.find? (fun member => member.1 == name) = none := by
    refine List.find?_eq_none.2 fun member mem same => absent ?_
    rw [← eq_of_beq same]
    exact List.mem_map_of_mem mem
  rw [slotOfMembers, none]

/-- The decoder of a record sees each member in the slot of its name. -/
theorem record_of_members {b : β} (distinct : DistinctNames members)
    (built : ∀ slots : Fields, (∀ member ∈ members, slots member.1 = .given member.2) →
      build slots = .ok b) :
    record names build (.object members) = .ok b := by
  have once := givenOnce_of_distinct distinct
  rw [record_object fun name _ => once name]
  exact built _ fun member mem => slotOfMembers_of_mem (once member.1) mem

section

variable [FromJson β] {slots : Fields} {b : β}

theorem required_of_given (given : slots name = .given value) (decoded : fromJson value = .ok b) :
    slots.required name = .ok b := by
  rw [Fields.required, given]
  exact decoded

theorem withDefault_of_given {default : β} (given : slots name = .given value) :
    slots.withDefault name default = fromJson value := by
  rw [Fields.withDefault, given]

theorem nullable_of_given {b : Option β} (given : slots name = .given value)
    (decoded : fromJson value = .ok b) : slots.nullable name = .ok b := by
  rw [Fields.nullable, given]
  exact decoded

end

/-! ## Records without their absent fields -/

variable {fields : List (String × Option Json)}

/-- The slot of a field that is left out if it has no value. -/
def Slot.ofValue : Option Json → Slot
  | some value => .given value
  | none => .omitted

theorem mem_presentMembers :
    (name, value) ∈ presentMembers fields ↔ (name, some value) ∈ fields := by
  simp [presentMembers]

theorem map_fst_presentMembers_sublist (fields : List (String × Option Json)) :
    ((presentMembers fields).map Prod.fst).Sublist (fields.map Prod.fst) := by
  induction fields with
  | nil => exact List.Sublist.refl []
  | cons field fields ih =>
    obtain ⟨name, _ | value⟩ := field
    · exact ih.cons name
    · exact ih.cons_cons name

theorem slotOfMembers_presentMembers {value : Option Json} (distinct : (fields.map Prod.fst).Nodup)
    (mem : (name, value) ∈ fields) :
    slotOfMembers (presentMembers fields) name = .ofValue value := by
  cases value with
  | some value =>
    have kept : DistinctNames (presentMembers fields) :=
      distinct.sublist (map_fst_presentMembers_sublist fields)
    exact slotOfMembers_of_mem (givenOnce_of_distinct kept name) (mem_presentMembers.2 mem)
  | none =>
    refine slotOfMembers_of_not_mem fun present => ?_
    obtain ⟨⟨name, value⟩, given, rfl⟩ := List.mem_map.1 present
    have same := List.inj_on_of_nodup_map distinct mem (mem_presentMembers.1 given) rfl
    cases (Prod.mk.inj same).2

theorem record_of_presentMembers {b : β} (distinct : (fields.map Prod.fst).Nodup)
    (built : ∀ slots : Fields, (∀ field ∈ fields, slots field.1 = .ofValue field.2) →
      build slots = .ok b) :
    record names build (.object (presentMembers fields)) = .ok b := by
  have kept : DistinctNames (presentMembers fields) :=
    distinct.sublist (map_fst_presentMembers_sublist fields)
  rw [record_object fun name _ => givenOnce_of_distinct kept name]
  exact built _ fun (name, value) mem => slotOfMembers_presentMembers distinct mem

section

variable {slots : Fields}

/-- A field that is an option has its value if it is present, and is none by default. -/
theorem withDefault_of_ofValue [ToJson α] [FromJson β] {o : Option α} {decoded : α → Option β}
    (given : slots name = .ofValue (o.map toJson))
    (each : ∀ a ∈ o, fromJson (toJson a) = .ok (decoded a)) :
    slots.withDefault name none = .ok (o.bind decoded) := by
  rw [Fields.withDefault, given]
  cases o with
  | some a => exact each a rfl
  | none => rfl

theorem withDefault_word {o : Option UInt64} (given : slots name = .ofValue (o.map toJson)) :
    slots.withDefault name none = .ok o := by
  rw [withDefault_of_ofValue given fun n _ => fromJson_toJson_some_word n, Option.bind_fun_some]

theorem withDefault_float {o : Option Float} (given : slots name = .ofValue (o.map toJson)) :
    slots.withDefault name none = .ok (o.filter Float.isFinite) := by
  rw [withDefault_of_ofValue given fun x _ => fromJson_toJson_some_float x]
  cases o <;> rfl

end

theorem readable_presentMembers
    (each : ∀ field ∈ fields, ∀ value ∈ field.2, value.Readable) :
    (Json.object (presentMembers fields)).Readable :=
  .object fun (_, value) mem => each _ (mem_presentMembers.1 mem) value rfl

theorem readable_of_mem_map [ToJson α] [ReadableJson α] {o : Option α} :
    ∀ value ∈ o.map toJson, value.Readable := by
  intro value mem
  obtain ⟨a, -, rfl⟩ := Option.map_eq_some_iff.1 mem
  exact readable a

/-! ## Whatever is decoded -/

/-- Every decoded value has a property. -/
def Decodes [FromJson α] (P : α → Prop) : Prop :=
  ∀ ⦃value : Json⦄ ⦃a : α⦄, fromJson value = .ok a → P a

theorem Decodes.decode [FromJson α] {P : α → Prop} (all : Decodes P) {text : String} {a : α}
    (decoded : Json.decode text = .ok a) : P a := by
  unfold Json.decode at decoded
  split at decoded
  · exact all decoded
  · cases decoded

/-- No decoded number is infinite. -/
theorem decodes_float : Decodes fun x : Float => x.isFinite = true := by
  intro value x decoded
  cases value with
  | real y finite =>
    obtain rfl := Except.ok.inj decoded
    exact finite
  | integer n =>
    change (if _ then _ else _) = Except.ok x at decoded
    split_ifs at decoded with finite
    obtain rfl := Except.ok.inj decoded
    exact finite
  | _ => cases decoded

theorem Decodes.list [FromJson α] {P : α → Prop} (each : Decodes P) :
    Decodes fun items : List α => ∀ a ∈ items, P a := by
  intro value items decoded
  cases value with
  | array values =>
    change values.mapM fromJson = Except.ok items at decoded
    induction values generalizing items with
    | nil =>
      obtain rfl := Except.ok.inj decoded
      rintro a ⟨⟩
    | cons value values ih =>
      rw [List.mapM_cons] at decoded
      obtain ⟨a, head, decoded⟩ := ok_of_bind decoded
      obtain ⟨others, tail, decoded⟩ := ok_of_bind decoded
      obtain rfl := Except.ok.inj decoded
      exact List.forall_mem_cons.2 ⟨each head, ih tail⟩
  | _ => cases decoded

theorem Decodes.required [FromJson α] {P : α → Prop} (all : Decodes P) {fields : Fields} {a : α}
    (decoded : fields.required name = .ok a) : P a := by
  unfold Fields.required at decoded
  split at decoded
  · exact all decoded
  all_goals cases decoded

theorem Decodes.withDefault [FromJson α] {P : α → Prop} (all : Decodes P) {default : α}
    (ofDefault : P default) {fields : Fields} {a : α}
    (decoded : fields.withDefault name default = .ok a) : P a := by
  unfold Fields.withDefault at decoded
  split at decoded
  · exact all decoded
  all_goals
    obtain rfl := Except.ok.inj decoded
    exact ofDefault

end Json

end InlinePolicy
