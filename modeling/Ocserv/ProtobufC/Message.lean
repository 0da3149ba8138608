import Mathlib.Data.List.FinRange
import Ocserv.ProtobufC.Wire

/-!
# Protobuf-c: messages and how they are packed

The descriptors of `src/protobuf/protobuf-c/protobuf-c.h`, with the types and labels of the fields
of `src/ipc.proto`, and `protobuf_c_message_pack` with `protobuf_c_message_get_packed_size` of
`src/protobuf/protobuf-c/protobuf-c.c`.  The compiler of `src/ipc.proto` makes a structure for every
message: `Message` is that structure, and a `Member` cannot but have the type and the label of its
field.

* `setWireType_tagPack` : the tag with its wire type.
* `messagePack_size` : **what is packed has the size that was asked for.**
-/

namespace Ocserv

namespace ProtobufC

open Protobuf (encodeVarint encodeVarint_of_lt encodeVarint_of_le)

/-! ### Descriptors -/

/-- `ProtobufCType` -/
inductive FieldType where
  | uint32
  | uint64
  | bool
  | enum
  | string
  | bytes
  deriving DecidableEq, Repr

/-- `ProtobufCLabel` -/
inductive Label where
  | required
  | optional
  | repeated
  deriving DecidableEq, Repr

/-- `ProtobufCWireType` -/
def wireTypeVarint : UInt8 := 0
def wireType64bit : UInt8 := 1
def wireTypeLengthPrefixed : UInt8 := 2
def wireType32bit : UInt8 := 5

/-- A string: the bytes before the final `0`. -/
abbrev CString := { s : Bytes // 0 ∉ s }

/-- An element of an array. -/
abbrev FieldType.Elem : FieldType → Type
  | uint32 | enum => UInt32
  | uint64 => UInt64
  | bool => Bool
  | string => CString
  | bytes => Bytes

/-- What a member of a structure holds; a string may be `NULL`. -/
abbrev FieldType.Slot : FieldType → Type
  | uint32 | enum => UInt32
  | uint64 => UInt64
  | bool => Bool
  | string => Option CString
  | bytes => Bytes

/-- A member from an element. -/
def FieldType.slot : (t : FieldType) → t.Elem → t.Slot
  | uint32, v | uint64, v | bool, v | enum, v | bytes, v => v
  | string, v => some v

/-- `0` in memory. -/
def FieldType.zero : (t : FieldType) → t.Slot
  | uint32 | enum | uint64 => (0 : _)
  | bool => false
  | string => none
  | bytes => []

/-- `ProtobufCFieldDescriptor`; the quantifier of an `optional` field that is not a string is its
flag. -/
structure FieldDescriptor where
  id : UInt32
  label : Label
  type : FieldType
  defaultValue : Option type.Slot

/-- `ProtobufCIntRange` -/
structure IntRange where
  startValue : ℤ
  origIndex : ℕ
  deriving DecidableEq, Repr

/-- The range number `k`. -/
def rangeAt (ranges : List IntRange) (k : ℕ) : IntRange := ranges.getD k ⟨0, 0⟩

/-- The number of the fields of range number `k`. -/
def rangeSize (ranges : List IntRange) (k : ℕ) : ℕ :=
  (rangeAt ranges (k + 1)).origIndex - (rangeAt ranges k).origIndex

/-- The ranges of the numbers of the fields: each has a field for every number in it, they are in
order, and one behind the last tells the number of the fields. -/
structure RangesOk (fields : List FieldDescriptor) (ranges : List IntRange) : Prop where
  first : (rangeAt ranges 0).origIndex = 0
  last : (rangeAt ranges (ranges.length - 1)).origIndex = fields.length
  increasing : ∀ k < ranges.length - 1,
    (rangeAt ranges k).origIndex < (rangeAt ranges (k + 1)).origIndex
  numbers : ∀ k < ranges.length - 1, ∀ j < rangeSize ranges k,
    (fields[(rangeAt ranges k).origIndex + j]?).map (fun f => (f.id.toNat : ℤ)) =
      some ((rangeAt ranges k).startValue + j)
  apart : ∀ k < ranges.length - 2,
    (rangeAt ranges k).startValue + rangeSize ranges k ≤ (rangeAt ranges (k + 1)).startValue
  small : ∀ f ∈ fields, f.id.toNat < 2 ^ 31

/-- `ProtobufCMessageDescriptor` -/
structure MessageDescriptor where
  fields : List FieldDescriptor
  /-- With the one behind the last. -/
  fieldRanges : List IntRange
  rangesOk : RangesOk fields fieldRanges
  /-- The arrays of `src/ipc.proto` are of strings. -/
  repeatedOk : ∀ f ∈ fields, f.label = .repeated → f.type = .string ∨ f.type = .bytes

namespace MessageDescriptor

variable (desc : MessageDescriptor)

/-- The number of a field. -/
abbrev Index : Type := Fin desc.fields.length

def field (i : desc.Index) : FieldDescriptor := desc.fields.get i

end MessageDescriptor

/-- `sec_auth_init_msg` -/
def secAuthInitMsgDescriptor : MessageDescriptor where
  fields := [⟨2, .required, .bool, some false⟩, ⟨3, .required, .string, none⟩,
    ⟨4, .optional, .string, none⟩, ⟨5, .optional, .string, none⟩, ⟨6, .repeated, .string, none⟩,
    ⟨7, .optional, .string, none⟩, ⟨8, .required, .string, none⟩,
    ⟨9, .required, .uint32, some (0 : UInt32)⟩]
  fieldRanges := [⟨2, 0⟩, ⟨0, 8⟩]
  rangesOk := ⟨by decide, by decide, by decide, by decide, by decide, by decide⟩
  repeatedOk := by decide

/-- `cookie` -/
def cookieDescriptor : MessageDescriptor where
  fields := [⟨1, .required, .string, none⟩, ⟨2, .required, .string, none⟩,
    ⟨3, .required, .string, none⟩, ⟨4, .required, .string, none⟩, ⟨6, .required, .uint32, none⟩,
    ⟨7, .required, .uint32, none⟩, ⟨8, .required, .bytes, none⟩, ⟨9, .required, .bool, none⟩]
  fieldRanges := [⟨1, 0⟩, ⟨6, 4⟩, ⟨0, 8⟩]
  rangesOk := ⟨by decide, by decide, by decide, by decide, by decide, by decide⟩
  repeatedOk := by decide

/-- The largest messages have eight fields. -/
scoped instance neZero_eight : NeZero 8 := ⟨Nat.succ_ne_zero 7⟩

/-- What a structure has for a field. -/
inductive Member (t : FieldType) : Label → Type
  | required (value : t.Slot) : Member t .required
  | optional (has : Bool) (value : t.Slot) : Member t .optional
  | repeated (array : List t.Elem) : Member t .repeated

/-- `ProtobufCMessageUnknownField` -/
structure UnknownField where
  tag : UInt32
  wireType : UInt8
  data : Bytes
  deriving DecidableEq, Repr

/-- The structure of a message. -/
structure Message (desc : MessageDescriptor) where
  members : (i : desc.Index) → Member (desc.field i).type (desc.field i).label
  unknownFields : List UnknownField

/-! ### Sizes -/

/-- The length of a text with its length before it. -/
def prefixedSize (len : ℕ) : ℕ := uint32Size (UInt32.ofNat len) + len

/-- `required_field_get_packed_size` -/
def requiredFieldGetPackedSize (id : UInt32) : (t : FieldType) → t.Slot → ℕ
  | .uint32, v | .enum, v => getTagSize id + uint32Size v
  | .uint64, v => getTagSize id + uint64Size v
  | .bool, _ => getTagSize id + 1
  | .string, none => getTagSize id + prefixedSize 0
  | .string, some str => getTagSize id + prefixedSize str.1.length
  | .bytes, data => getTagSize id + prefixedSize data.length

/-- An `optional` member is there; a string is if it is not `NULL`. -/
def isSet (has : Bool) : (t : FieldType) → t.Slot → Bool
  | .string, str => str.isSome
  | .uint32, _ | .uint64, _ | .bool, _ | .enum, _ | .bytes, _ => has

/-- The loop of `repeated_field_get_packed_size`, for one element of an array that is not packed. -/
def elementSize : (t : FieldType) → t.Elem → ℕ
  | .uint32, v | .enum, v => uint32Size v
  | .uint64, v => uint64Size v
  | .bool, _ => 1
  | .string, str => prefixedSize str.1.length
  | .bytes, data => prefixedSize data.length

/-- `repeated_field_get_packed_size` -/
def repeatedFieldGetPackedSize (id : UInt32) (t : FieldType) (array : List t.Elem) : ℕ :=
  if array.length = 0 then 0
  else getTagSize id * array.length + (array.map (elementSize t)).sum

/-- The size of one field in `protobuf_c_message_get_packed_size`. -/
def Member.packedSize (id : UInt32) {t : FieldType} : {l : Label} → Member t l → ℕ
  | _, .required v => requiredFieldGetPackedSize id t v
  | _, .optional has v => if isSet has t v then requiredFieldGetPackedSize id t v else 0
  | _, .repeated array => repeatedFieldGetPackedSize id t array

/-- `unknown_field_get_packed_size` -/
def UnknownField.packedSize (u : UnknownField) : ℕ := getTagSize u.tag + u.data.length

/-- `protobuf_c_message_get_packed_size` -/
def messageGetPackedSize {desc : MessageDescriptor} (m : Message desc) : ℕ :=
  ((List.finRange _).map fun i => (m.members i).packedSize (desc.field i).id).sum +
    (m.unknownFields.map UnknownField.packedSize).sum

/-! ### Packing -/

/-- `out[0] |= wire_type` -/
def setWireType (wireType : UInt8) : Bytes → Bytes
  | [] => []
  | b :: bs => (b ||| wireType) :: bs

/-- `string_pack` and `binary_data_pack` -/
def binaryDataPack (data : Bytes) : Bytes := uint32Pack (UInt32.ofNat data.length) ++ data

/-- `required_field_pack` -/
def requiredFieldPack (id : UInt32) : (t : FieldType) → t.Slot → Bytes
  | .uint32, v | .enum, v => setWireType wireTypeVarint (tagPack id) ++ uint32Pack v
  | .uint64, v => setWireType wireTypeVarint (tagPack id) ++ uint64Pack v
  | .bool, v => setWireType wireTypeVarint (tagPack id) ++ [if v then 1 else 0]
  | .string, none => setWireType wireTypeLengthPrefixed (tagPack id) ++ [0]
  | .string, some str => setWireType wireTypeLengthPrefixed (tagPack id) ++ binaryDataPack str.1
  | .bytes, data => setWireType wireTypeLengthPrefixed (tagPack id) ++ binaryDataPack data

/-- `optional_field_pack`, `repeated_field_pack` for an array that is not packed, or
`required_field_pack`. -/
def Member.pack (id : UInt32) {t : FieldType} : {l : Label} → Member t l → Bytes
  | _, .required v => requiredFieldPack id t v
  | _, .optional has v => if isSet has t v then requiredFieldPack id t v else []
  | _, .repeated array => array.flatMap fun v => requiredFieldPack id t (t.slot v)

/-- `unknown_field_pack` -/
def UnknownField.pack (u : UnknownField) : Bytes := setWireType u.wireType (tagPack u.tag) ++ u.data

/-- `protobuf_c_message_pack` -/
def messagePack {desc : MessageDescriptor} (m : Message desc) : Bytes :=
  ((List.finRange _).flatMap fun i => (m.members i).pack (desc.field i).id) ++
    m.unknownFields.flatMap UnknownField.pack

/-! ### Tags -/

/-- **The tag of a field with its wire type.** -/
theorem setWireType_tagPack (id : UInt32) {w : UInt8} (hw : w.toNat < 2 ^ 3) :
    setWireType w (tagPack id) = encodeVarint (2 ^ 3 * id.toNat + w.toNat) := by
  have hor (a : ℕ) : 2 ^ 3 * a ||| w.toNat = 2 ^ 3 * a + w.toNat :=
    (Nat.two_pow_add_eq_or_of_lt hw a).symm
  have hlt := id.toNat_lt
  rw [tagPack_eq]
  by_cases hsmall : 2 ^ 3 * id.toNat < 2 ^ 7
  · have hbyte : UInt8.ofNat (2 ^ 3 * id.toNat) ||| w =
        UInt8.ofNat (2 ^ 3 * id.toNat + w.toNat) := by
      rw [← UInt8.toNat_inj, UInt8.toNat_or, UInt8.toNat_ofNat', UInt8.toNat_ofNat',
        Nat.mod_eq_of_lt (by omega), Nat.mod_eq_of_lt (by omega), hor]
    rw [encodeVarint_of_lt hsmall, encodeVarint_of_lt (by omega), setWireType, hbyte]
  · have hbyte : UInt8.ofNat (2 ^ 3 * id.toNat % 2 ^ 7 + 2 ^ 7) ||| w =
        UInt8.ofNat ((2 ^ 3 * id.toNat + w.toNat) % 2 ^ 7 + 2 ^ 7) := by
      have hhead : 2 ^ 3 * id.toNat % 2 ^ 7 + 2 ^ 7 = 2 ^ 3 * (id.toNat % 2 ^ 4 + 2 ^ 4) := by omega
      rw [← UInt8.toNat_inj, UInt8.toNat_or, toNat_ofNat_high, toNat_ofNat_high, hhead, hor]
      omega
    have hrest : 2 ^ 3 * id.toNat / 2 ^ 7 = (2 ^ 3 * id.toNat + w.toNat) / 2 ^ 7 := by omega
    have hle : 2 ^ 7 ≤ 2 ^ 3 * id.toNat + w.toNat := (not_lt.1 hsmall).trans (Nat.le_add_right _ _)
    rw [encodeVarint_of_le (not_lt.1 hsmall), encodeVarint_of_le hle, setWireType, hbyte, hrest]

theorem length_setWireType (w : UInt8) (bs : Bytes) : (setWireType w bs).length = bs.length := by
  cases bs <;> rfl

/-! ### The size is right -/

variable {t : FieldType} {l : Label}

theorem length_binaryDataPack (data : Bytes) :
    (binaryDataPack data).length = prefixedSize data.length := by
  rw [binaryDataPack, List.length_append, length_uint32Pack]
  rfl

theorem length_requiredFieldPack (id : UInt32) (v : t.Slot) :
    (requiredFieldPack id t v).length = requiredFieldGetPackedSize id t v := by
  cases t with
  | string =>
    cases v with
    | none =>
      rw [requiredFieldPack, requiredFieldGetPackedSize, List.length_append, length_setWireType,
        length_tagPack]
      rfl
    | some str =>
      rw [requiredFieldPack, requiredFieldGetPackedSize, List.length_append, length_setWireType,
        length_tagPack, length_binaryDataPack]
  | bool =>
    rw [requiredFieldPack, requiredFieldGetPackedSize, List.length_append, length_setWireType,
      length_tagPack]
    rfl
  | uint32 | uint64 | enum | bytes =>
    rw [requiredFieldPack, requiredFieldGetPackedSize, List.length_append, length_setWireType,
      length_tagPack]
    first
    | rw [length_uint32Pack]
    | rw [length_uint64Pack]
    | rw [length_binaryDataPack]

/-- An element is as long in an array as by itself. -/
theorem requiredFieldGetPackedSize_slot (id : UInt32) (v : t.Elem) :
    requiredFieldGetPackedSize id t (t.slot v) = getTagSize id + elementSize t v := by
  cases t <;> rfl

theorem Member.length_pack (id : UInt32) (m : Member t l) :
    (m.pack id).length = m.packedSize id := by
  cases m with
  | required v => exact length_requiredFieldPack id v
  | optional has v =>
    rw [Member.pack, Member.packedSize]
    split
    · exact length_requiredFieldPack id v
    · rfl
  | repeated array =>
    rw [Member.pack, Member.packedSize, repeatedFieldGetPackedSize]
    induction array with
    | nil => rfl
    | cons v array ih =>
      rw [List.flatMap_cons, List.length_append, length_requiredFieldPack,
        requiredFieldGetPackedSize_slot, ih,
        if_neg (List.length_cons.trans_ne (Nat.succ_ne_zero _)), List.map_cons, List.sum_cons,
        List.length_cons, Nat.mul_succ]
      split
      · rename_i hnil
        obtain rfl := List.length_eq_zero_iff.1 hnil
        simp
      · omega

theorem UnknownField.length_pack (u : UnknownField) : u.pack.length = u.packedSize := by
  rw [UnknownField.pack, UnknownField.packedSize, List.length_append, length_setWireType,
    length_tagPack]

/-- **A message is packed into as many bytes as `protobuf_c_message_get_packed_size` says**, which
is what its senders allocate. -/
theorem messagePack_size {desc : MessageDescriptor} (m : Message desc) :
    (messagePack m).length = messageGetPackedSize m := by
  rw [messagePack, messageGetPackedSize, List.length_append, List.length_flatMap,
    List.length_flatMap]
  simp only [Member.length_pack, UnknownField.length_pack]

end ProtobufC

end Ocserv
