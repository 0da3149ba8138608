import Mathlib.Data.List.TakeWhile
import Mathlib.Logic.Function.Basic
import Ocserv.ProtobufC.Message

/-!
# Protobuf-c: how messages are unpacked

`protobuf_c_message_unpack` of `src/protobuf/protobuf-c/protobuf-c.c` with the functions it calls,
for the types and labels of `src/ipc.proto`.  A first pass looks for the fields, in blocks that
grow, and counts them; then the arrays are allocated, and a second pass reads the fields.  A pointer
into the data is the data from there on; the allocator is that of `talloc`, which refuses large
sizes.
-/

namespace Ocserv

namespace ProtobufC

/-- What is done with memory that is not there. -/
inductive Fault where
  /-- A copy reads behind the data, or writes behind its block. -/
  | copy
  /-- An element is written behind its array. -/
  | array
  deriving DecidableEq, Repr

/-- `MAX_TALLOC_SIZE` -/
def maxTallocSize : ℕ := 0x7FFFFFFF

/-- `do_alloc` -/
def doAlloc (size : ℕ) : Bool := size < maxTallocSize

/-! ### Fields by their number -/

/-- The loop of `int_range_lookup`, and what follows it. -/
def intRangeLoop (ranges : List IntRange) (value : ℤ) : (fuel : ℕ) → (start n : ℕ) → Option ℤ
  | 0, _, _ => none
  | fuel + 1, start, n =>
    if n > 1 then
      let mid := start + n / 2
      let r := rangeAt ranges mid
      if value < r.startValue then intRangeLoop ranges value fuel start (mid - start)
      else if value ≥ r.startValue + rangeSize ranges mid then
        intRangeLoop ranges value fuel (mid + 1) (start + n - (mid + 1))
      else some (value - r.startValue + r.origIndex)
    else if n > 0 then
      let r := rangeAt ranges start
      if r.startValue ≤ value ∧ value < r.startValue + rangeSize ranges start then
        some (value - r.startValue + r.origIndex)
      else none
    else none

/-- `int_range_lookup`; there is one more range behind the last. -/
def intRangeLookup (ranges : List IntRange) (value : ℤ) : Option ℤ :=
  let nRanges := ranges.length - 1
  if nRanges = 0 then none else intRangeLoop ranges value (nRanges + 1) 0 nRanges

/-- An `int` from a tag. -/
def tagInt (tag : UInt32) : ℤ := if tag.toNat < 2 ^ 31 then tag.toNat else tag.toNat - 2 ^ 32

section

variable (desc : MessageDescriptor)

/-- `desc->fields + field_index` -/
def MessageDescriptor.fieldAt (index : ℤ) : Option desc.Index :=
  if h : index.toNat < desc.fields.length then some ⟨index.toNat, h⟩ else none

/-- The field for a tag, and the last field that was found, which is tried first. -/
def lookupField (lastField : Option desc.Index) (tag : UInt32) :
    Option desc.Index × Option desc.Index :=
  if lastField.any fun i => (desc.field i).id = tag then (lastField, lastField)
  else
    match (intRangeLookup desc.fieldRanges (tagInt tag)).bind desc.fieldAt with
    | none => (none, lastField)
    | some i => (some i, some i)

/-! ### The first pass -/

/-- `ScannedMember` -/
structure ScannedMember where
  tag : UInt32
  wireType : UInt8
  lengthPrefixLen : ℕ
  field : Option desc.Index
  len : ℕ
  /-- From the value of the field to the end. -/
  data : Bytes

/-- The `switch` over the wire type: the length of the value, and of the length before it. -/
def scanPayload (wireType : UInt8) (data : Bytes) : Option (ℕ × ℕ) :=
  if wireType = wireTypeVarint then (scanVarint 10 data).map (·, 0)
  else if wireType = wireType64bit then if data.length < 8 then none else some (8, 0)
  else if wireType = wireTypeLengthPrefixed then scanLengthPrefixedData data
  else if wireType = wireType32bit then if data.length < 4 then none else some (4, 0)
  else none

/-- `FIRST_SCANNED_MEMBER_SLAB_SIZE_LOG2` -/
def firstSlabSizeLog2 : ℕ := 4

/-- `MAX_SCANNED_MEMBER_SLAB`, with `BOUND_SIZEOF_SCANNED_MEMBER_LOG2`. -/
def maxScannedMemberSlab : ℕ := 32 - 1 - 5 - firstSlabSizeLog2

/-- `sizeof (ScannedMember)` -/
def sizeofScannedMember : ℕ := 32

/-- What the first pass has found. -/
structure Scan where
  lastField : Option desc.Index
  /-- `required_fields_bitmap` -/
  required : desc.Index → Bool
  nUnknown : ℕ
  /-- The quantifiers of the arrays. -/
  counts : desc.Index → ℕ
  /-- The slabs before the one that is being filled, and that one. -/
  fullSlabs : List (List (ScannedMember desc))
  slab : List (ScannedMember desc)

variable {desc}

/-- The first field, if there is one. -/
def Scan.start : Scan desc :=
  ⟨if h : 0 < desc.fields.length then some ⟨0, h⟩ else none, fun _ => false, 0, fun _ => 0, [], []⟩

/-- `scanned_member_slabs[which_slab][in_slab_index++] = tmp`, in a new slab if the last is full. -/
def Scan.push (s : Scan desc) (tmp : ScannedMember desc) : Option (Scan desc) :=
  let whichSlab := s.fullSlabs.length
  if s.slab.length = 2 ^ (whichSlab + firstSlabSizeLog2) then
    if whichSlab = maxScannedMemberSlab then none
    else if !doAlloc (sizeofScannedMember * 2 ^ (whichSlab + 1 + firstSlabSizeLog2)) then none
    else some { s with fullSlabs := s.fullSlabs ++ [s.slab], slab := [tmp] }
  else some { s with slab := s.slab ++ [tmp] }

/-- What is counted for a field that was found. -/
def Scan.count (s : Scan desc) (lastField field : Option desc.Index) : Scan desc :=
  match field with
  | none => { s with lastField := lastField, nUnknown := s.nUnknown + 1 }
  | some i =>
    { s with
      lastField := lastField
      required := if (desc.field i).label = .required then Function.update s.required i true
        else s.required
      counts := if (desc.field i).label = .repeated then
        Function.update s.counts i (s.counts i + 1) else s.counts }

/-- One round of the first pass: what was found, and the data behind it. -/
def Scan.next (s : Scan desc) (data : Bytes) : Option (Scan desc × Bytes) := do
  let (tag, wireType, used) ← parseTagAndWiretype data
  let (field, lastField) := lookupField desc s.lastField tag
  let data := data.drop used
  let (len, prefLen) ← scanPayload wireType data
  let s ← (s.count lastField field).push ⟨tag, wireType, prefLen, field, len, data⟩
  return (s, data.drop len)

/-- The first pass. -/
def Scan.loop : (fuel : ℕ) → Scan desc → Bytes → Option (Scan desc)
  | _, s, [] => some s
  | 0, _, _ :: _ => none
  | fuel + 1, s, b :: bs => (s.next (b :: bs)).bind fun p => Scan.loop fuel p.1 p.2

/-! ### The arrays -/

/-- `sizeof_elt_in_repeated_array` -/
def sizeofElt : FieldType → ℕ
  | .uint32 | .enum | .bool => 4
  | .uint64 => 8
  | .string => 8
  | .bytes => 16

/-- `sizeof (ProtobufCMessageUnknownField)` -/
def sizeofUnknownField : ℕ := 24

/-- The number of the elements of an array, an `unsigned`. -/
def Scan.capacity (s : Scan desc) (i : desc.Index) : ℕ := s.counts i % 2 ^ 32

/-- Between the passes: the array of a field is allocated; a `required` field is there. -/
def Scan.fieldReady (s : Scan desc) (i : desc.Index) : Bool :=
  match (desc.field i).label with
  | .repeated => s.counts i = 0 || doAlloc (sizeofElt (desc.field i).type * s.capacity i)
  | .required => (desc.field i).defaultValue.isSome || s.required i
  | .optional => true

/-- All fields are ready, and the array of the unknown ones. -/
def Scan.ready (s : Scan desc) : Bool :=
  (List.finRange _).all s.fieldReady &&
    (s.nUnknown = 0 || doAlloc (s.nUnknown * sizeofUnknownField))

/-! ### The second pass -/

/-- The memory for a string is given the bytes of `raw`, and a `0`. -/
def toCString (raw : Bytes) : CString :=
  ⟨raw.takeWhile (· ≠ 0), fun h => by simpa using List.mem_takeWhile_imp h⟩

/-- `len - pref_len`, an `unsigned`. -/
def ScannedMember.size (sm : ScannedMember desc) : UInt32 :=
  UInt32.ofNat sm.len - UInt32.ofNat sm.lengthPrefixLen

/-- `memcpy` of the value into a block. -/
def ScannedMember.copy (sm : ScannedMember desc) (block : ℕ) : Except Fault Bytes :=
  let src := sm.data.drop sm.lengthPrefixLen
  if block < sm.size.toNat ∨ src.length < sm.size.toNat then .error .copy
  else .ok (src.take sm.size.toNat)

/-- `parse_required_member`; `none` is `FALSE`. -/
def parseRequiredMember (sm : ScannedMember desc) : (t : FieldType) → Except Fault (Option t.Elem)
  | .uint32 | .enum =>
    if sm.wireType ≠ wireTypeVarint then .ok none else .ok (some (parseUint32 sm.len sm.data))
  | .uint64 =>
    if sm.wireType ≠ wireTypeVarint then .ok none else .ok (some (parseUint64 sm.len sm.data))
  | .bool => .ok (some (parseBoolean sm.len sm.data))
  | .string =>
    if sm.wireType ≠ wireTypeLengthPrefixed then .ok none
    else if !doAlloc (sm.size + 1).toNat then .ok none
    else (sm.copy (sm.size + 1).toNat).map fun raw => some (toCString raw)
  | .bytes =>
    if sm.wireType ≠ wireTypeLengthPrefixed then .ok none
    else if sm.size = 0 then .ok (some [])
    else if !doAlloc sm.size.toNat then .ok none
    else (sm.copy sm.size.toNat).map some

/-- `quantifier_offset` is not `0`. -/
def FieldType.hasQuantifier : FieldType → Bool
  | .string => false
  | .uint32 | .uint64 | .bool | .enum | .bytes => true

/-- `parse_required_member`, `parse_optional_member` or `parse_repeated_member`, for an array of
`capacity` elements. -/
def Member.parse (capacity : ℕ) (sm : ScannedMember desc) {t : FieldType} :
    {l : Label} → Member t l → Except Fault (Option (Member t l))
  | _, .required _ =>
    (parseRequiredMember sm t).map (Option.map fun v => .required (t.slot v))
  | _, .optional has _ =>
    (parseRequiredMember sm t).map
      (Option.map fun v => .optional (has || t.hasQuantifier) (t.slot v))
  | _, .repeated array =>
    match parseRequiredMember sm t with
    | .error f => .error f
    | .ok none => .ok none
    | .ok (some v) =>
      if capacity ≤ array.length then .error .array else .ok (some (.repeated (array ++ [v])))

/-- A member as `message_init` makes it. -/
def Member.init {t : FieldType} (defaultValue : Option t.Slot) : (l : Label) → Member t l
  | .required => .required (defaultValue.getD t.zero)
  | .optional => .optional false (defaultValue.getD t.zero)
  | .repeated => .repeated []

/-- `protobuf_c_message_init` -/
def Message.init : Message desc :=
  ⟨fun i => Member.init (desc.field i).defaultValue (desc.field i).label, []⟩

/-- `parse_member`; `none` is `FALSE`. -/
def Message.parseMember (s : Scan desc) (m : Message desc) (sm : ScannedMember desc) :
    Except Fault (Option (Message desc)) :=
  match sm.field with
  | none =>
    if s.nUnknown ≤ m.unknownFields.length then .error .array
    else if !doAlloc sm.len then .ok none
    else .ok (some { m with
      unknownFields := m.unknownFields ++ [⟨sm.tag, sm.wireType, sm.data.take sm.len⟩] })
  | some i =>
    ((m.members i).parse (s.capacity i) sm).map (Option.map fun x =>
      { m with members := Function.update m.members i x })

/-- The second pass. -/
def Message.parseAll (s : Scan desc) :
    Message desc → List (ScannedMember desc) → Except Fault (Option (Message desc))
  | m, [] => .ok (some m)
  | m, sm :: sms =>
    match m.parseMember s sm with
    | .error f => .error f
    | .ok none => .ok none
    | .ok (some m) => m.parseAll s sms

variable (desc)

/-- `protobuf_c_message_unpack`; `none` is `NULL`. -/
def messageUnpack (data : Bytes) : Except Fault (Option (Message desc)) :=
  match Scan.loop data.length (Scan.start : Scan desc) data with
  | none => .ok none
  | some s =>
    if !s.ready then .ok none
    else Message.parseAll s .init (s.fullSlabs.flatten ++ s.slab)

end

end ProtobufC

end Ocserv
