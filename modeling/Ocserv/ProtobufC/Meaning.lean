import Ocserv.ProtobufC.Unpack

/-!
# Protobuf-c: what unpacking means

`protobuf_c_message_unpack` looks the fields up in ranges of numbers, remembers the last one, keeps
what it finds in blocks and writes into arrays it has counted before.  What it means is simpler: the
data is a sequence of members, each field has the values of its members in their order, and of a
field that is no array the last one counts.

* `lookupField_eq` : the search in the ranges finds the field with the number.
* `scanLengthPrefixedData_wrap` : what keeps a length of `2 ^ 32 - 1` from doing harm.
* `messageUnpack_eq` : **the two passes have the plain meaning**, and all their copies stay within
  their memory.
-/

namespace Ocserv

namespace ProtobufC

/-! ### Fields by their number -/

section Ranges

variable {fields : List FieldDescriptor} {ranges : List IntRange} {value : ℤ}

/-- The number is in range number `k`. -/
def InRange (ranges : List IntRange) (value : ℤ) (k : ℕ) : Prop :=
  k < ranges.length - 1 ∧ (rangeAt ranges k).startValue ≤ value ∧
    value < (rangeAt ranges k).startValue + rangeSize ranges k

/-- The ranges are in order. -/
theorem RangesOk.start_le (h : RangesOk fields ranges) {k l : ℕ} (hkl : k < l)
    (hl : l < ranges.length - 1) :
    (rangeAt ranges k).startValue + rangeSize ranges k ≤ (rangeAt ranges l).startValue := by
  induction l with
  | zero => exact absurd hkl (Nat.not_lt_zero _)
  | succ l ih =>
    have hnext := h.apart l (by omega)
    obtain hlt | rfl := Nat.lt_succ_iff_lt_or_eq.1 hkl
    · have hprev := ih hlt (by omega)
      omega
    · exact hnext

theorem InRange.unique (h : RangesOk fields ranges) {k l : ℕ} (hk : InRange ranges value k)
    (hl : InRange ranges value l) : k = l := by
  obtain ⟨hk, hk₁, hk₂⟩ := hk
  obtain ⟨hl, hl₁, hl₂⟩ := hl
  obtain hlt | rfl | hlt := Nat.lt_trichotomy k l
  · have := h.start_le hlt hl
    omega
  · rfl
  · have := h.start_le hlt hk
    omega

/-- **The search in the ranges**, if the range that has the number is among those that are left. -/
theorem intRangeLoop_eq_some (h : RangesOk fields ranges) {fuel start n : ℕ} (hn : n < fuel)
    (hend : start + n ≤ ranges.length - 1)
    (hleft : ∀ k, InRange ranges value k → start ≤ k ∧ k < start + n) {j : ℤ} :
    intRangeLoop ranges value fuel start n = some j ↔ ∃ k, InRange ranges value k ∧
      j = value - (rangeAt ranges k).startValue + (rangeAt ranges k).origIndex := by
  have hhere {k : ℕ} (hk : InRange ranges value k) :
      some (value - (rangeAt ranges k).startValue + (rangeAt ranges k).origIndex) = some j ↔
        ∃ k, InRange ranges value k ∧
          j = value - (rangeAt ranges k).startValue + (rangeAt ranges k).origIndex := by
    rw [Option.some.injEq]
    constructor
    · exact fun hj => ⟨k, hk, hj.symm⟩
    · rintro ⟨l, hl, rfl⟩
      rw [hk.unique h hl]
  have hno (hno : ∀ k, ¬ InRange ranges value k) :
      none = some j ↔ ∃ k, InRange ranges value k ∧
        j = value - (rangeAt ranges k).startValue + (rangeAt ranges k).origIndex := by
    constructor
    · exact nofun
    · rintro ⟨k, hk, -⟩
      exact absurd hk (hno k)
  induction fuel generalizing start n with
  | zero => exact absurd hn (Nat.not_lt_zero _)
  | succ fuel ih =>
    rw [intRangeLoop]
    dsimp only
    split
    · have hmid : start + n / 2 < ranges.length - 1 := by omega
      split
      · rename_i hlow
        refine ih (by omega) (by omega) fun k hk => ?_
        obtain ⟨hstart, hlt⟩ := hleft k hk
        refine ⟨hstart, ?_⟩
        by_contra hge
        obtain heq | hgt := Nat.eq_or_lt_of_le (show start + n / 2 ≤ k by omega)
        · have := hk.2.1
          rw [← heq] at this
          omega
        · have := h.start_le hgt hk.1
          have := hk.2.1
          omega
      · split
        · rename_i hhigh
          refine ih (by omega) (by omega) fun k hk => ?_
          obtain ⟨hstart, hlt⟩ := hleft k hk
          refine ⟨?_, by omega⟩
          by_contra hge
          obtain heq | hgt := Nat.eq_or_lt_of_le (show k ≤ start + n / 2 by omega)
          · have := hk.2.2
            rw [heq] at this
            omega
          · have := h.start_le hgt hmid
            have := hk.2.2
            omega
        · exact hhere ⟨hmid, by omega, by omega⟩
    · split
      · split
        · rename_i hin
          exact hhere ⟨by omega, hin⟩
        · rename_i hout
          refine hno fun k hk => hout ?_
          obtain ⟨hstart, hlt⟩ := hleft k hk
          obtain rfl : k = start := by omega
          exact hk.2
      · refine hno fun k hk => ?_
        have := hleft k hk
        omega

theorem intRangeLookup_eq_some (h : RangesOk fields ranges) {j : ℤ} :
    intRangeLookup ranges value = some j ↔ ∃ k, InRange ranges value k ∧
      j = value - (rangeAt ranges k).startValue + (rangeAt ranges k).origIndex := by
  rw [intRangeLookup]
  split
  · rename_i hzero
    constructor
    · exact nofun
    · rintro ⟨k, ⟨hk, -⟩, -⟩
      omega
  · exact intRangeLoop_eq_some h (Nat.lt_succ_self _) (by omega)
      fun k hk => ⟨Nat.zero_le k, by rw [Nat.zero_add]; exact hk.1⟩

/-- Every field is in a range. -/
theorem RangesOk.exists_range (h : RangesOk fields ranges) {i : ℕ} (hi : i < fields.length) :
    ∃ k < ranges.length - 1, (rangeAt ranges k).origIndex ≤ i ∧
      i < (rangeAt ranges (k + 1)).origIndex := by
  have hex : ∃ l, i < (rangeAt ranges l).origIndex := ⟨_, h.last.symm ▸ hi⟩
  obtain ⟨hlt, hmin⟩ := And.intro (Nat.find_spec hex) fun l => Nat.find_min (m := l) hex
  have hpos : Nat.find hex ≠ 0 := by
    intro hzero
    rw [hzero, h.first] at hlt
    exact Nat.not_lt_zero _ hlt
  obtain ⟨k, hk⟩ := Nat.exists_eq_succ_of_ne_zero hpos
  have hle : Nat.find hex ≤ ranges.length - 1 := Nat.find_min' hex (h.last.symm ▸ hi)
  refine ⟨k, by omega, not_lt.1 (hmin k (by omega)), ?_⟩
  rw [← Nat.succ_eq_add_one, ← hk]
  exact hlt

end Ranges

variable {desc : MessageDescriptor}

theorem fieldAt_eq_some {j : ℤ} {i : desc.Index} : desc.fieldAt j = some i ↔ j.toNat = i := by
  rw [MessageDescriptor.fieldAt]
  split
  · rw [Option.some.injEq, Fin.ext_iff]
  · rename_i hlt
    constructor
    · exact nofun
    · intro heq
      exact absurd (heq ▸ i.isLt) hlt

/-- **The search in the ranges finds the field with the number.** -/
theorem intRangeLookup_bind_eq_some {tag : UInt32} {i : desc.Index} :
    (intRangeLookup desc.fieldRanges (tagInt tag)).bind desc.fieldAt = some i ↔
      (desc.field i).id = tag := by
  have hok := desc.rangesOk
  have hget (i : desc.Index) : desc.fields[i.val]? = some (desc.field i) :=
    List.getElem?_eq_getElem i.isLt
  have hsmall (i : desc.Index) : (desc.field i).id.toNat < 2 ^ 31 :=
    hok.small _ (List.get_mem ..)
  have hlt := tag.toNat_lt
  constructor
  · intro hlookup
    obtain ⟨j, hj, hi⟩ := Option.bind_eq_some_iff.1 hlookup
    obtain ⟨k, ⟨hk, hlow, hhigh⟩, rfl⟩ := (intRangeLookup_eq_some hok).1 hj
    have hnumber := hok.numbers k hk
      (tagInt tag - (rangeAt desc.fieldRanges k).startValue).toNat (by omega)
    have hi := fieldAt_eq_some.1 hi
    rw [show (rangeAt desc.fieldRanges k).origIndex +
      (tagInt tag - (rangeAt desc.fieldRanges k).startValue).toNat = i.val by omega, hget,
      Option.map_some, Option.some.injEq] at hnumber
    have hs := hsmall i
    rw [← UInt32.toNat_inj]
    rw [tagInt] at hnumber hlow
    split at hnumber <;> omega
  · rintro rfl
    have hs := hsmall i
    obtain ⟨k, hk, hle, hlt'⟩ := hok.exists_range i.isLt
    have hnumber := hok.numbers k hk (i.val - (rangeAt desc.fieldRanges k).origIndex)
      (by rw [rangeSize]; omega)
    rw [Nat.add_sub_cancel' hle, hget, Option.map_some, Option.some.injEq] at hnumber
    have htag : tagInt (desc.field i).id = (desc.field i).id.toNat := if_pos hs
    refine Option.bind_eq_some_iff.2 ⟨_, (intRangeLookup_eq_some hok).2
      ⟨k, ⟨hk, by omega, by rw [rangeSize]; omega⟩, rfl⟩, fieldAt_eq_some.2 ?_⟩
    omega

/-- The field with a number. -/
def MessageDescriptor.find (desc : MessageDescriptor) (tag : UInt32) : Option desc.Index :=
  (List.finRange _).find? fun i => (desc.field i).id = tag

/-- The numbers of the fields are different. -/
theorem field_id_inj {i j : desc.Index} (h : (desc.field i).id = (desc.field j).id) : i = j :=
  Option.some.inj ((intRangeLookup_bind_eq_some.2 h).symm.trans (intRangeLookup_bind_eq_some.2 rfl))

theorem find_eq_some {tag : UInt32} {i : desc.Index} :
    desc.find tag = some i ↔ (desc.field i).id = tag := by
  constructor
  · intro h
    simpa using List.find?_some h
  · rintro rfl
    cases hfind : desc.find (desc.field i).id with
    | none =>
      have := List.find?_eq_none.1 hfind i (List.mem_finRange i)
      simp at this
    | some j =>
      have hid : (desc.field j).id = (desc.field i).id := by simpa using List.find?_some hfind
      rw [field_id_inj hid]

theorem lookupField_eq (lastField : Option desc.Index) (tag : UInt32) :
    (lookupField desc lastField tag).1 = desc.find tag := by
  rw [lookupField]
  split
  · rename_i hlast
    obtain ⟨i, rfl, hi⟩ := Option.any_eq_true _ _ |>.1 hlast
    exact (find_eq_some.2 (by simpa using hi)).symm
  · cases h : (intRangeLookup desc.fieldRanges (tagInt tag)).bind desc.fieldAt with
    | none =>
      cases hfind : desc.find tag with
      | none => rfl
      | some i =>
        rw [intRangeLookup_bind_eq_some.2 (find_eq_some.1 hfind)] at h
        cases h
    | some i => exact (find_eq_some.2 (intRangeLookup_bind_eq_some.1 h)).symm

/-! ### The plain meaning -/

variable (desc) in
/-- One member, and the data behind it. -/
def readMember (data : Bytes) : Option (ScannedMember desc × Bytes) := do
  let (tag, wireType, used) ← parseTagAndWiretype data
  let (len, prefLen) ← scanPayload wireType (data.drop used)
  return (⟨tag, wireType, prefLen, desc.find tag, len, data.drop used⟩, (data.drop used).drop len)

variable (desc) in
/-- The members that data is made of. -/
def readMembers : (fuel : ℕ) → Bytes → Option (List (ScannedMember desc))
  | _, [] => some []
  | 0, _ :: _ => none
  | fuel + 1, b :: bs =>
    (readMember desc (b :: bs)).bind fun p => (readMembers fuel p.2).map (p.1 :: ·)

namespace ScannedMember

variable (sm : ScannedMember desc)

/-- The text behind its length, which is no more than 32 bits can hold. -/
def payload : Option Bytes :=
  if sm.wireType = wireTypeLengthPrefixed ∧ sm.lengthPrefixLen ≤ sm.len then
    some ((sm.data.take sm.len).drop sm.lengthPrefixLen)
  else none

/-- What a member says for a field of a type. -/
def value : (t : FieldType) → Option t.Elem
  | .uint32 | .enum =>
    if sm.wireType = wireTypeVarint then some (UInt32.ofNat (base128 (sm.data.take sm.len)))
    else none
  | .uint64 =>
    if sm.wireType = wireTypeVarint then some (UInt64.ofNat (base128 (sm.data.take sm.len)))
    else none
  | .bool => some (decide (base128 (sm.data.take sm.len) ≠ 0))
  | .string => sm.payload.map toCString
  | .bytes => sm.payload

/-- A member for no field, or one that its field can have. -/
def accepted : Bool := sm.field.all fun i => (sm.value (desc.field i).type).isSome

/-- What the unknown field keeps. -/
def unknown : Option UnknownField :=
  if sm.field = none then some ⟨sm.tag, sm.wireType, sm.data.take sm.len⟩ else none

end ScannedMember

/-- A member of a structure from the values that were found for it. -/
def Member.ofValues {t : FieldType} (defaultValue : Option t.Slot) (vs : List t.Elem) :
    (l : Label) → Member t l
  | .required => .required ((vs.getLast?.map t.slot).getD (defaultValue.getD t.zero))
  | .optional =>
    .optional (!vs.isEmpty && t.hasQuantifier)
      ((vs.getLast?.map t.slot).getD (defaultValue.getD t.zero))
  | .repeated => .repeated vs

/-- The values for a field. -/
def valuesOf (ms : List (ScannedMember desc)) (i : desc.Index) : List (desc.field i).type.Elem :=
  ms.filterMap fun sm => if sm.field = some i then sm.value (desc.field i).type else none

/-- The message that some members make. -/
def denote (ms : List (ScannedMember desc)) : Message desc where
  members i := Member.ofValues (desc.field i).defaultValue (valuesOf ms i) (desc.field i).label
  unknownFields := ms.filterMap ScannedMember.unknown

/-- Every `required` field without a default is there. -/
def complete (ms : List (ScannedMember desc)) : Bool :=
  (List.finRange _).all fun i =>
    (desc.field i).label != .required || (desc.field i).defaultValue.isSome ||
      ms.any fun sm => sm.field = some i

variable (desc) in
/-- What data means. -/
def meaning (data : Bytes) : Option (Message desc) :=
  (readMembers desc data.length data).bind fun ms =>
    if complete ms && ms.all ScannedMember.accepted then some (denote ms) else none

/-! ### What is read fits -/

/-- A member is within its data, and is not a text of `2 ^ 32 - 1` bytes. -/
structure ScannedMember.Fits (sm : ScannedMember desc) : Prop where
  pos : 0 < sm.len
  le : sm.len ≤ sm.data.length
  small : sm.data.length ≤ 2 ^ 25
  varint : sm.wireType = wireTypeVarint → sm.len ≤ 10
  lengthPrefixed : sm.wireType = wireTypeLengthPrefixed → sm.lengthPrefixLen ≤ 5
  noWrap : sm.wireType = wireTypeLengthPrefixed → sm.lengthPrefixLen ≠ sm.len + 1

theorem scanPayload_fits {wireType : UInt8} {data : Bytes} {len prefLen : ℕ}
    (h : scanPayload wireType data = some (len, prefLen)) :
    0 < len ∧ len ≤ data.length ∧ (wireType = wireTypeVarint → len ≤ 10) ∧
      (wireType = wireTypeLengthPrefixed → prefLen ≤ 5) := by
  rw [scanPayload] at h
  split at h
  · rename_i hwire
    obtain ⟨l, hl, heq⟩ := Option.map_eq_some_iff.1 h
    cases heq
    obtain ⟨hpos, hmax, hle⟩ := scanVarint_le hl
    exact ⟨hpos, hle, fun _ => hmax, fun hw => absurd (hwire.symm.trans hw) (by decide)⟩
  · rename_i hwire
    split at h
    · rename_i hwire₁
      split at h
      · cases h
      · cases h
        exact ⟨by decide, by omega, fun hw => absurd hw hwire,
          fun hw => absurd (hwire₁.symm.trans hw) (by decide)⟩
    · split at h
      · rw [scanLengthPrefixedData_eq] at h
        obtain ⟨l, hl, heq⟩ := Option.bind_eq_some_iff.1 h
        obtain ⟨-, hmax, -⟩ := scanVarint_le hl
        dsimp only at heq
        split at heq
        · cases heq
        · rename_i hlen
          obtain ⟨hle, hne⟩ := not_or.1 hlen
          cases heq
          refine ⟨Nat.pos_of_ne_zero fun hzero => hne ?_, not_lt.1 hle, fun hw => absurd hw hwire,
            fun _ => hmax⟩
          rw [← UInt32.toNat_inj, hzero]
          rfl
      · rename_i hwire₂
        split at h
        · split at h
          · cases h
          · cases h
            exact ⟨by decide, by omega, fun hw => absurd hw hwire, fun hw => absurd hw hwire₂⟩
        · cases h

theorem readMember_length_lt {data rest : Bytes} {sm : ScannedMember desc}
    (h : readMember desc data = some (sm, rest)) : rest.length < data.length := by
  obtain ⟨⟨tag, wireType, used⟩, -, h⟩ := Option.bind_eq_some_iff.1 h
  obtain ⟨⟨len, prefLen⟩, hscan, heq⟩ := Option.bind_eq_some_iff.1 h
  cases heq
  obtain ⟨hpos, hle, -⟩ := scanPayload_fits hscan
  rw [List.length_drop] at hle ⊢
  rw [List.length_drop]
  omega

/-- The wire type is in the first byte. -/
theorem parseTagAndWiretype_wireType {b : UInt8} {bs : Bytes} {p : UInt32 × UInt8 × ℕ}
    (h : parseTagAndWiretype (b :: bs) = some p) : p.2.1 = b &&& 7 := by
  rw [parseTagAndWiretype] at h
  split at h
  · cases h
    rfl
  · obtain ⟨q, -, rfl⟩ := Option.map_eq_some_iff.1 h
    rfl

/-- There is no wire type `7`. -/
theorem readMember_wireType_seven {b : UInt8} {bs : Bytes} (hb : b.toNat % 2 ^ 3 = 7) :
    readMember desc (b :: bs) = none := by
  have hseven : b &&& 7 = 7 := by
    rw [← UInt8.toNat_inj, toNat_and_7, hb]
    rfl
  rw [readMember]
  cases h : parseTagAndWiretype (b :: bs) with
  | none => rfl
  | some p =>
    have hwire := parseTagAndWiretype_wireType h
    obtain ⟨tag, wireType, used⟩ := p
    obtain rfl : wireType = 7 := hwire.trans hseven
    rfl

/-- **A text that says it is `2 ^ 32 - 1` bytes long** is taken for one of `4` bytes with its prefix
of `5`.  What follows is then the last byte of the prefix, which has four bits set, and this is no
tag. -/
theorem scanLengthPrefixedData_wrap {data : Bytes} {len : ℕ}
    (h : scanLengthPrefixedData data = some (len, len + 1)) :
    ∃ b bs, data.drop len = b :: bs ∧ b.toNat % 2 ^ 3 = 7 := by
  rw [scanLengthPrefixedData_eq] at h
  obtain ⟨l, hl, heq⟩ := Option.bind_eq_some_iff.1 h
  obtain ⟨-, hmax, hle⟩ := scanVarint_le hl
  dsimp only at heq
  split at heq
  · cases heq
  · rw [Option.some.injEq, Prod.mk.injEq] at heq
    obtain ⟨hlen, rfl⟩ := heq
    rw [UInt32.toNat_ofNat'] at hlen
    have hlt := base128_lt (data.take (len + 1))
    rw [List.length_take_of_le hle] at hlt
    have hfour : len = 4 := by
      by_contra hne
      have hpow : 2 ^ (7 * (len + 1)) ≤ 2 ^ 28 := Nat.pow_le_pow_right (by decide) (by omega)
      omega
    subst hfour
    have hlast := base128_take_succ (show 4 < data.length by omega)
    have hrest := base128_lt (data.take 4)
    rw [List.length_take_of_le (by omega)] at hrest
    refine ⟨data.getD 4 0, data.drop 5, ?_, by omega⟩
    rw [List.getD_eq_getElem?_getD, List.getElem?_eq_getElem (by omega), Option.getD_some,
      ← List.drop_eq_getElem_cons]

/-- A member that is followed by members. -/
theorem readMember_fits {data rest : Bytes} {sm : ScannedMember desc} {fuel : ℕ}
    {ms : List (ScannedMember desc)} (h : readMember desc data = some (sm, rest))
    (hrest : readMembers desc fuel rest = some ms) (hdata : data.length ≤ 2 ^ 25) : sm.Fits := by
  obtain ⟨⟨tag, wireType, used⟩, -, h⟩ := Option.bind_eq_some_iff.1 h
  obtain ⟨⟨len, prefLen⟩, hscan, heq⟩ := Option.bind_eq_some_iff.1 h
  cases heq
  obtain ⟨hpos, hle, hvarint, hprefed⟩ := scanPayload_fits hscan
  have hdrop : (data.drop used).length ≤ data.length := by
    rw [List.length_drop]
    exact Nat.sub_le ..
  refine ⟨hpos, hle, hdrop.trans hdata, hvarint, hprefed, fun hwire hwrap => ?_⟩
  dsimp only at hwire hwrap
  rw [hwire, hwrap] at hscan
  obtain ⟨b, bs, hcons, hb⟩ := scanLengthPrefixedData_wrap hscan
  rw [hcons] at hrest
  cases fuel with
  | zero => cases hrest
  | succ fuel =>
    rw [readMembers, readMember_wireType_seven hb] at hrest
    cases hrest

/-- There are no more members than bytes. -/
theorem readMembers_fits {fuel : ℕ} {data : Bytes} {ms : List (ScannedMember desc)}
    (h : readMembers desc fuel data = some ms) (hdata : data.length ≤ 2 ^ 25) :
    (∀ sm ∈ ms, sm.Fits) ∧ ms.length ≤ data.length := by
  induction fuel generalizing data ms with
  | zero =>
    cases data with
    | nil =>
      cases h
      exact ⟨nofun, Nat.le_refl 0⟩
    | cons b bs => cases h
  | succ fuel ih =>
    cases data with
    | nil =>
      cases h
      exact ⟨nofun, Nat.le_refl 0⟩
    | cons b bs =>
      obtain ⟨⟨sm, rest⟩, hread, h⟩ := Option.bind_eq_some_iff.1 h
      obtain ⟨sms, hsms, rfl⟩ := Option.map_eq_some_iff.1 h
      have hlt := readMember_length_lt hread
      obtain ⟨hall, hle⟩ := ih hsms (hlt.le.trans hdata)
      exact ⟨List.forall_mem_cons.2 ⟨readMember_fits hread hsms hdata, hall⟩,
        Nat.succ_le_of_lt (hle.trans_lt hlt)⟩

/-! ### The first pass -/

/-- What the first pass knows when it has found some members. -/
structure Scan.Sees (s : Scan desc) (ms : List (ScannedMember desc)) : Prop where
  members : s.fullSlabs.flatten ++ s.slab = ms
  full : s.fullSlabs.flatten.length + 2 ^ firstSlabSizeLog2 =
    2 ^ (s.fullSlabs.length + firstSlabSizeLog2)
  slab : s.slab.length ≤ 2 ^ (s.fullSlabs.length + firstSlabSizeLog2)
  required (i : desc.Index) : s.required i = true ↔
    (desc.field i).label = .required ∧ ∃ sm ∈ ms, sm.field = some i
  nUnknown : s.nUnknown = ms.countP fun sm => sm.field = none
  counts (i : desc.Index) : s.counts i =
    if (desc.field i).label = .repeated then ms.countP fun sm => sm.field = some i else 0

theorem Scan.sees_start : (Scan.start : Scan desc).Sees [] where
  members := rfl
  full := rfl
  slab := Nat.zero_le _
  required i := by simp [Scan.start]
  nUnknown := rfl
  counts i := by simp [Scan.start]

@[simp]
theorem Scan.count_fullSlabs (s : Scan desc) (lastField field : Option desc.Index) :
    (s.count lastField field).fullSlabs = s.fullSlabs := by
  cases field <;> rfl

@[simp]
theorem Scan.count_slab (s : Scan desc) (lastField field : Option desc.Index) :
    (s.count lastField field).slab = s.slab := by
  cases field <;> rfl

/-- There is a slab for one more member. -/
theorem Scan.Sees.exists_push {s s₁ : Scan desc} {ms : List (ScannedMember desc)} (hs : s.Sees ms)
    (hms : ms.length < 2 ^ 25) (hfull : s₁.fullSlabs = s.fullSlabs) (hslab : s₁.slab = s.slab)
    (tmp : ScannedMember desc) :
    ∃ fullSlabs slab, s₁.push tmp = some { s₁ with fullSlabs := fullSlabs, slab := slab } ∧
      fullSlabs.flatten ++ slab = ms ++ [tmp] ∧
      fullSlabs.flatten.length + 2 ^ firstSlabSizeLog2 =
        2 ^ (fullSlabs.length + firstSlabSizeLog2) ∧
      slab.length ≤ 2 ^ (fullSlabs.length + firstSlabSizeLog2) := by
  obtain ⟨hmembers, hlen, hle, -⟩ := hs
  have htotal := congrArg List.length hmembers
  rw [List.length_append] at htotal
  rw [Scan.push, hfull, hslab]
  split
  · rename_i hend
    -- The slabs are full, and there are fewer than `2 ^ 25` members: this is not the last slab.
    have hwhich : s.fullSlabs.length ≤ 20 := by
      by_contra hgt
      have hpow : 2 ^ (21 + firstSlabSizeLog2) ≤ 2 ^ (s.fullSlabs.length + firstSlabSizeLog2) :=
        Nat.pow_le_pow_right (by decide) (by omega)
      have hfirst : firstSlabSizeLog2 = 4 := rfl
      rw [hfirst] at hpow hlen hend
      omega
    have hmax : s.fullSlabs.length ≠ maxScannedMemberSlab := by
      have : maxScannedMemberSlab = 22 := rfl
      omega
    have halloc : doAlloc (sizeofScannedMember * 2 ^ (s.fullSlabs.length + 1 + firstSlabSizeLog2)) =
        true := by
      have hpow : 2 ^ (s.fullSlabs.length + 1 + firstSlabSizeLog2) ≤ 2 ^ 25 :=
        Nat.pow_le_pow_right (by decide) (by simp only [firstSlabSizeLog2]; omega)
      have hsizeof : sizeofScannedMember = 32 := rfl
      have hmax : maxTallocSize = 2 ^ 31 - 1 := rfl
      rw [doAlloc, decide_eq_true_iff, hsizeof, hmax]
      omega
    rw [if_neg hmax, halloc]
    refine ⟨s.fullSlabs ++ [s.slab], [tmp], rfl, ?_, ?_, ?_⟩
    · rw [← hmembers, List.flatten_append, List.flatten_singleton]
    · rw [List.flatten_append, List.flatten_singleton, List.length_append, List.length_append,
        List.length_singleton, hend, Nat.add_right_comm s.fullSlabs.length, pow_succ]
      omega
    · exact Nat.one_le_two_pow
  · refine ⟨s.fullSlabs, s.slab ++ [tmp], by rw [← hfull], ?_, hlen, ?_⟩
    · rw [← hmembers, List.append_assoc]
    · rw [List.length_append, List.length_singleton]
      omega

/-- One more member is kept and counted. -/
theorem Scan.Sees.push {s : Scan desc} {ms : List (ScannedMember desc)} (hs : s.Sees ms)
    (hms : ms.length < 2 ^ 25) (sm : ScannedMember desc) (lastField : Option desc.Index) :
    ∃ s', (s.count lastField sm.field).push sm = some s' ∧ s'.Sees (ms ++ [sm]) := by
  obtain ⟨fullSlabs, slab, hpush, hmembers, hfull, hslab⟩ := hs.exists_push hms
    (s.count_fullSlabs lastField sm.field) (s.count_slab lastField sm.field) sm
  refine ⟨_, hpush, hmembers, hfull, hslab, fun i => ?_, ?_, fun i => ?_⟩
  · show (s.count lastField sm.field).required i = true ↔ _
    have hold := hs.required i
    cases hfield : sm.field with
    | none =>
      refine hold.trans (and_congr_right fun _ => ?_)
      simp [hfield]
    | some j =>
      simp only [Scan.count]
      split
      · obtain rfl | hne := eq_or_ne j i
        · simp [*]
        · simp [Function.update_of_ne hne.symm, hold, hfield, hne]
      · rename_i hlabel
        refine hold.trans (and_congr_right fun hreq => ?_)
        have hne : j ≠ i := fun h => hlabel (h ▸ hreq)
        simp [hfield, hne]
  · show (s.count lastField sm.field).nUnknown = _
    cases hfield : sm.field with
    | none => simp [Scan.count, hs.nUnknown, hfield]
    | some j => simp [Scan.count, hs.nUnknown, hfield]
  · show (s.count lastField sm.field).counts i = _
    have hold := hs.counts i
    cases hfield : sm.field with
    | none => simp [Scan.count, hold, hfield]
    | some j =>
      simp only [Scan.count]
      split
      · obtain rfl | hne := eq_or_ne j i
        · simp [*]
        · simp [Function.update_of_ne hne.symm, hold, hfield, hne]
      · rename_i hlabel
        rw [hold]
        split
        · rename_i hrep
          have hne : j ≠ i := fun h => hlabel (h ▸ hrep)
          simp [hfield, hne]
        · rfl

/-- One round of the first pass reads one member. -/
theorem Scan.Sees.next {s : Scan desc} {ms : List (ScannedMember desc)} (hs : s.Sees ms)
    (hms : ms.length < 2 ^ 25) (data : Bytes) :
    match readMember desc data with
    | none => s.next data = none
    | some (sm, rest) => ∃ s', s.next data = some (s', rest) ∧ s'.Sees (ms ++ [sm]) := by
  rw [readMember, Scan.next]
  cases parseTagAndWiretype data with
  | none => rfl
  | some p =>
    obtain ⟨tag, wireType, used⟩ := p
    have hfield := lookupField_eq s.lastField tag
    cases hlookup : lookupField desc s.lastField tag with
    | mk field lastField =>
      rw [hlookup] at hfield
      simp only [Option.bind_eq_bind, Option.bind_some, hlookup]
      cases scanPayload wireType (data.drop used) with
      | none => rfl
      | some q =>
        obtain ⟨len, prefLen⟩ := q
        obtain rfl : field = desc.find tag := hfield
        obtain ⟨s', hpush, hs'⟩ := hs.push hms
          ⟨tag, wireType, prefLen, desc.find tag, len, data.drop used⟩ lastField
        exact ⟨s', by simp only [Option.bind_some, hpush]; rfl, hs'⟩

/-- The first pass reads the members. -/
theorem Scan.Sees.loop {s : Scan desc} {ms : List (ScannedMember desc)} (hs : s.Sees ms)
    (fuel : ℕ) {data : Bytes} (hms : ms.length + data.length ≤ 2 ^ 25) :
    match readMembers desc fuel data with
    | none => Scan.loop fuel s data = none
    | some ms' => ∃ s', Scan.loop fuel s data = some s' ∧ s'.Sees (ms ++ ms') := by
  induction fuel generalizing s ms data with
  | zero =>
    cases data with
    | nil => exact ⟨s, rfl, (List.append_nil ms).symm ▸ hs⟩
    | cons b bs => rfl
  | succ fuel ih =>
    cases data with
    | nil => exact ⟨s, rfl, (List.append_nil ms).symm ▸ hs⟩
    | cons b bs =>
      have hpos : (b :: bs).length = bs.length + 1 := rfl
      have hnext := hs.next (by omega) (b :: bs)
      rw [readMembers, Scan.loop]
      cases hread : readMember desc (b :: bs) with
      | none =>
        rw [hread] at hnext
        simp only at hnext
        simp only [Option.bind_none, hnext]
      | some p =>
        obtain ⟨sm, rest⟩ := p
        rw [hread] at hnext
        obtain ⟨s₁, hs₁, hsees⟩ := hnext
        have hlt := readMember_length_lt hread
        have hrest : (ms ++ [sm]).length + rest.length ≤ 2 ^ 25 := by
          rw [List.length_append, List.length_singleton]
          omega
        have hrest := ih hsees hrest
        rw [hs₁]
        simp only [Option.bind_some]
        cases hms' : readMembers desc fuel rest with
        | none =>
          rw [hms'] at hrest
          exact hrest
        | some ms' =>
          rw [hms'] at hrest
          obtain ⟨s', hloop, hs'⟩ := hrest
          rw [List.append_assoc, List.singleton_append] at hs'
          exact ⟨s', hloop, hs'⟩

/-- Between the passes there is memory, and the `required` fields are looked for. -/
theorem Scan.Sees.ready {s : Scan desc} {ms : List (ScannedMember desc)} (hs : s.Sees ms)
    (hms : ms.length ≤ 2 ^ 25) : s.ready = complete ms := by
  have hmax : maxTallocSize = 2 ^ 31 - 1 := rfl
  have hunknown : s.nUnknown ≤ 2 ^ 25 := by
    rw [hs.nUnknown]
    exact List.countP_le_length.trans hms
  have hcount (i : desc.Index) : s.counts i ≤ 2 ^ 25 := by
    rw [hs.counts]
    split
    · exact List.countP_le_length.trans hms
    · exact Nat.zero_le _
  have halloc : doAlloc (s.nUnknown * sizeofUnknownField) = true := by
    have hsizeof : sizeofUnknownField = 24 := rfl
    rw [doAlloc, decide_eq_true_iff, hsizeof]
    omega
  rw [Scan.ready, halloc, Bool.or_true, Bool.and_true, complete]
  congr 1
  funext i
  rw [Scan.fieldReady]
  cases hlabel : (desc.field i).label with
  | required =>
    have hreq : s.required i = ms.any fun sm => sm.field = some i := by
      rw [Bool.eq_iff_iff, hs.required, List.any_eq_true]
      simp [hlabel]
    rw [hreq]
    rfl
  | optional => rfl
  | repeated =>
    have hsize : sizeofElt (desc.field i).type ≤ 16 := by cases (desc.field i).type <;> decide
    have harray : doAlloc (sizeofElt (desc.field i).type * s.capacity i) = true := by
      have hcap : s.capacity i ≤ 2 ^ 25 := (Nat.mod_le _ _).trans (hcount i)
      have := Nat.mul_le_mul hsize hcap
      rw [doAlloc, decide_eq_true_iff]
      omega
    rw [harray, Bool.or_true]
    rfl

/-! ### The second pass -/

section Parse

variable {sm : ScannedMember desc}

theorem ScannedMember.Fits.size (h : sm.Fits) (hle : sm.lengthPrefixLen ≤ sm.len) :
    sm.size.toNat = sm.len - sm.lengthPrefixLen := by
  have hlen := h.le.trans h.small
  rw [ScannedMember.size, UInt32.toNat_sub, UInt32.toNat_ofNat', UInt32.toNat_ofNat']
  omega

/-- The size of a text whose length does not fit in 32 bits with the prefix. -/
theorem ScannedMember.Fits.size_wrap (h : sm.Fits) (hwire : sm.wireType = wireTypeLengthPrefixed)
    (hlt : sm.len < sm.lengthPrefixLen) :
    sm.size.toNat = 2 ^ 32 - (sm.lengthPrefixLen - sm.len) := by
  have hpref := h.lengthPrefixed hwire
  rw [ScannedMember.size, UInt32.toNat_sub, UInt32.toNat_ofNat', UInt32.toNat_ofNat']
  omega

theorem doAlloc_eq_true {size : ℕ} (h : size < 2 ^ 31 - 1) : doAlloc size = true :=
  decide_eq_true h

theorem doAlloc_eq_false {size : ℕ} (h : 2 ^ 31 - 1 ≤ size) : doAlloc size = false :=
  decide_eq_false (not_lt.2 h)

/-- The text of a member is in its data. -/
theorem ScannedMember.Fits.copy (h : sm.Fits) (hle : sm.lengthPrefixLen ≤ sm.len) {block : ℕ}
    (hblock : sm.size.toNat ≤ block) :
    sm.copy block = .ok ((sm.data.take sm.len).drop sm.lengthPrefixLen) := by
  have hsize := h.size hle
  have hsrc : (sm.data.drop sm.lengthPrefixLen).length = sm.data.length - sm.lengthPrefixLen :=
    List.length_drop
  have hfit := h.le
  rw [ScannedMember.copy, if_neg (by rw [hsrc]; omega), hsize, List.drop_take]

/-- **A value is read as it is meant.** -/
theorem parseRequiredMember_eq (h : sm.Fits) (t : FieldType) :
    parseRequiredMember sm t = .ok (sm.value t) := by
  have hfit := h.le.trans h.small
  cases t with
  | uint32 | enum =>
    rw [parseRequiredMember, ScannedMember.value]
    by_cases hwire : sm.wireType = wireTypeVarint
    · rw [if_neg (not_not.2 hwire), if_pos hwire, parseUint32_eq h.pos h.le]
    · rw [if_pos hwire, if_neg hwire]
  | uint64 =>
    rw [parseRequiredMember, ScannedMember.value]
    by_cases hwire : sm.wireType = wireTypeVarint
    · rw [if_neg (not_not.2 hwire), if_pos hwire, parseUint64_eq h.pos (h.varint hwire) h.le]
    · rw [if_pos hwire, if_neg hwire]
  | bool => rw [parseRequiredMember, ScannedMember.value, parseBoolean_eq]
  | string =>
    rw [parseRequiredMember, ScannedMember.value]
    by_cases hwire : sm.wireType = wireTypeLengthPrefixed
    · have hnowrap := h.noWrap hwire
      rw [if_neg (not_not.2 hwire)]
      by_cases hle : sm.lengthPrefixLen ≤ sm.len
      · have hsize := h.size hle
        have hsucc : (sm.size + 1).toNat = sm.size.toNat + 1 := by
          rw [UInt32.toNat_add, UInt32.toNat_one]
          omega
        have hpayload : sm.payload = some ((sm.data.take sm.len).drop sm.lengthPrefixLen) :=
          if_pos ⟨hwire, hle⟩
        rw [hsucc, doAlloc_eq_true (by omega), h.copy hle (Nat.le_succ _), hpayload]
        rfl
      · -- The size is too large to allocate, but it is not `2 ^ 32 - 1`.
        have hsize := h.size_wrap hwire (not_le.1 hle)
        have hpref := h.lengthPrefixed hwire
        have hpayload : sm.payload = none := if_neg fun hp => hle hp.2
        have hsucc : (sm.size + 1).toNat = sm.size.toNat + 1 := by
          rw [UInt32.toNat_add, UInt32.toNat_one]
          omega
        rw [hpayload, hsucc, doAlloc_eq_false (by omega)]
        rfl
    · have hpayload : sm.payload = none := if_neg fun hp => hwire hp.1
      rw [if_pos hwire, hpayload]
      rfl
  | bytes =>
    rw [parseRequiredMember, ScannedMember.value]
    by_cases hwire : sm.wireType = wireTypeLengthPrefixed
    · rw [if_neg (not_not.2 hwire)]
      by_cases hle : sm.lengthPrefixLen ≤ sm.len
      · have hsize := h.size hle
        have hpayload : sm.payload = some ((sm.data.take sm.len).drop sm.lengthPrefixLen) :=
          if_pos ⟨hwire, hle⟩
        rw [hpayload]
        split
        · rename_i hzero
          have hzero : sm.size.toNat = 0 := by rw [hzero]; rfl
          rw [List.drop_eq_nil_of_le ((List.length_take_le _ _).trans (by omega))]
        · rw [doAlloc_eq_true (by omega), h.copy hle le_rfl]
          rfl
      · have hsize := h.size_wrap hwire (not_le.1 hle)
        have hpref := h.lengthPrefixed hwire
        have hpayload : sm.payload = none := if_neg fun hp => hle hp.2
        have hne : sm.size ≠ 0 := by
          intro hzero
          rw [hzero] at hsize
          have : (0 : UInt32).toNat = 0 := rfl
          omega
        rw [hpayload, if_neg hne, doAlloc_eq_false (by omega)]
        rfl
    · have hpayload : sm.payload = none := if_neg fun hp => hwire hp.1
      rw [if_pos hwire, hpayload]

/-- One more value for a member whose array has room. -/
theorem Member.parse_ofValues (h : sm.Fits) {t : FieldType} {l : Label} {capacity : ℕ}
    (defaultValue : Option t.Slot) (vs : List t.Elem)
    (hroom : l = .repeated → vs.length < capacity) :
    (Member.ofValues defaultValue vs l).parse capacity sm =
      .ok ((sm.value t).map fun v => Member.ofValues defaultValue (vs ++ [v]) l) := by
  cases l with
  | required =>
    rw [Member.ofValues, Member.parse, parseRequiredMember_eq h]
    cases sm.value t with
    | none => rfl
    | some v => simp [Except.map, Member.ofValues]
  | optional =>
    rw [Member.ofValues, Member.parse, parseRequiredMember_eq h]
    cases sm.value t with
    | none => rfl
    | some v =>
      have hempty : (vs ++ [v]).isEmpty = false := by cases vs <;> rfl
      simp only [Except.map, Option.map_some, Member.ofValues, hempty, List.getLast?_concat,
        Option.getD_some, Bool.not_false, Bool.true_and]
      rw [Bool.or_eq_right_iff_imp.2 fun h => (Bool.and_eq_true_iff.1 h).2]
  | repeated =>
    rw [Member.ofValues, Member.parse, parseRequiredMember_eq h]
    cases sm.value t with
    | none => rfl
    | some v => exact if_neg (not_le.2 (hroom rfl))

end Parse

theorem valuesOf_append (ms ms' : List (ScannedMember desc)) (i : desc.Index) :
    valuesOf (ms ++ ms') i = valuesOf ms i ++ valuesOf ms' i := List.filterMap_append

/-- There are no more values than members for a field. -/
theorem length_valuesOf_le (ms : List (ScannedMember desc)) (i : desc.Index) :
    (valuesOf ms i).length ≤ ms.countP fun sm => sm.field = some i := by
  induction ms with
  | nil => exact Nat.le_refl 0
  | cons sm ms ih =>
    rw [valuesOf, List.filterMap_cons, List.countP_cons]
    split
    · exact ih.trans (Nat.le_add_right ..)
    · rename_i v hv
      rw [List.length_cons]
      split at hv
      · rename_i hfield
        simp only [hfield, decide_true, if_true]
        exact Nat.succ_le_succ ih
      · cases hv

theorem length_unknown_le (ms : List (ScannedMember desc)) :
    (ms.filterMap ScannedMember.unknown).length ≤ ms.countP fun sm => sm.field = none := by
  induction ms with
  | nil => exact Nat.le_refl 0
  | cons sm ms ih =>
    rw [List.filterMap_cons, List.countP_cons]
    split
    · exact ih.trans (Nat.le_add_right ..)
    · rename_i v hv
      rw [List.length_cons]
      rw [ScannedMember.unknown] at hv
      split at hv
      · rename_i hfield
        simp only [hfield, decide_true, if_true]
        exact Nat.succ_le_succ ih
      · cases hv

/-- One more member for a field. -/
theorem denote_append {ms : List (ScannedMember desc)} {sm : ScannedMember desc} {i : desc.Index}
    (hfield : sm.field = some i) {v : (desc.field i).type.Elem}
    (hvalue : sm.value (desc.field i).type = some v) :
    denote (ms ++ [sm]) = { denote ms with
      members := Function.update (denote ms).members i
        (Member.ofValues (desc.field i).defaultValue (valuesOf ms i ++ [v])
          (desc.field i).label) } := by
  have hmembers : (denote (ms ++ [sm])).members = Function.update (denote ms).members i
      (Member.ofValues (desc.field i).defaultValue (valuesOf ms i ++ [v])
        (desc.field i).label) := by
    funext j
    simp only [denote, valuesOf_append]
    obtain rfl | hne := eq_or_ne j i
    · have hlast : valuesOf [sm] j = [v] := by simp [valuesOf, hfield, hvalue]
      rw [Function.update_self, hlast]
    · have hlast : valuesOf [sm] j = [] := by simp [valuesOf, hfield, hne.symm]
      rw [Function.update_of_ne hne, hlast, List.append_nil]
  have hunknown : (denote (ms ++ [sm])).unknownFields = (denote ms).unknownFields := by
    simp [denote, ScannedMember.unknown, hfield]
  dsimp only
  rw [← hmembers, ← hunknown]

/-- One member of the second pass. -/
theorem Scan.Sees.parseMember {s : Scan desc} {ms ms' : List (ScannedMember desc)}
    {sm : ScannedMember desc} (hs : s.Sees (ms ++ sm :: ms'))
    (hms : (ms ++ sm :: ms').length ≤ 2 ^ 25) (hsm : sm.Fits) :
    (denote ms).parseMember s sm =
      .ok (if sm.accepted then some (denote (ms ++ [sm])) else none) := by
  rw [Message.parseMember]
  cases hfield : sm.field with
  | none =>
    have hroom : ¬ s.nUnknown ≤ (denote ms).unknownFields.length := by
      have hle : (denote ms).unknownFields.length ≤ _ := length_unknown_le ms
      rw [hs.nUnknown, List.countP_append, List.countP_cons]
      simp only [hfield, decide_true, if_true]
      omega
    have halloc : doAlloc sm.len = true :=
      doAlloc_eq_true ((hsm.le.trans hsm.small).trans_lt (by decide))
    have haccepted : sm.accepted = true := by rw [ScannedMember.accepted, hfield]; rfl
    rw [if_neg hroom, halloc, haccepted]
    simp only [denote, List.filterMap_append, valuesOf_append]
    simp [valuesOf, hfield, ScannedMember.unknown]
  | some i =>
    have hroom : (desc.field i).label = .repeated → (valuesOf ms i).length < s.capacity i := by
      intro hlabel
      have hcount : s.counts i = (ms ++ sm :: ms').countP fun sm => sm.field = some i := by
        rw [hs.counts, if_pos hlabel]
      have hle : s.counts i ≤ 2 ^ 25 := hcount.trans_le (List.countP_le_length.trans hms)
      have hvalues := length_valuesOf_le ms i
      rw [Scan.capacity, Nat.mod_eq_of_lt (by omega), hcount, List.countP_append, List.countP_cons]
      simp only [hfield, decide_true, if_true]
      omega
    have hparse := Member.parse_ofValues hsm (desc.field i).defaultValue (valuesOf ms i) hroom
    have hmember : (denote ms).members i = Member.ofValues (desc.field i).defaultValue
      (valuesOf ms i) (desc.field i).label := rfl
    have haccepted : sm.accepted = (sm.value (desc.field i).type).isSome := by
      rw [ScannedMember.accepted, hfield]
      rfl
    dsimp only
    rw [hmember, hparse, haccepted]
    cases hvalue : sm.value (desc.field i).type with
    | none => rfl
    | some v =>
      rw [denote_append hfield hvalue]
      rfl

/-- The second pass, behind members that were accepted. -/
theorem Scan.Sees.parseAll {s : Scan desc} {ms ms' : List (ScannedMember desc)}
    (hs : s.Sees (ms ++ ms')) (hms : (ms ++ ms').length ≤ 2 ^ 25) (hfits : ∀ sm ∈ ms', sm.Fits) :
    (denote ms).parseAll s ms' =
      .ok (if ms'.all ScannedMember.accepted then some (denote (ms ++ ms')) else none) := by
  induction ms' generalizing ms with
  | nil =>
    rw [List.append_nil]
    rfl
  | cons sm ms' ih =>
    rw [Message.parseAll, hs.parseMember hms (hfits sm List.mem_cons_self), List.all_cons]
    by_cases hsm : sm.accepted
    · rw [if_pos hsm, hsm, Bool.true_and]
      rw [List.append_cons] at hs hms
      rw [List.append_cons ms sm ms']
      exact ih hs hms fun sm h => hfits sm (List.mem_cons_of_mem _ h)
    · rw [if_neg hsm, Bool.eq_false_of_not_eq_true hsm]
      rfl

/-- A message without members. -/
theorem denote_nil : denote [] = (Message.init : Message desc) := rfl

section Passes

variable {data : Bytes} (h : data.length ≤ 2 ^ 25)

include h

/-- Data that is not a sequence of members is refused by the first pass. -/
theorem messageUnpack_of_none (hread : readMembers desc data.length data = none) :
    messageUnpack desc data = .ok none := by
  have hlen : ([] : List (ScannedMember desc)).length + data.length ≤ 2 ^ 25 := by
    rwa [List.length_nil, Nat.zero_add]
  have hloop := Scan.sees_start.loop data.length hlen
  rw [hread] at hloop
  rw [messageUnpack, show Scan.loop data.length Scan.start data = none from hloop]

/-- A sequence of members is read by both. -/
theorem messageUnpack_of_some {ms : List (ScannedMember desc)}
    (hread : readMembers desc data.length data = some ms) :
    messageUnpack desc data =
      .ok (if complete ms && ms.all ScannedMember.accepted then some (denote ms) else none) := by
  have hlen : ([] : List (ScannedMember desc)).length + data.length ≤ 2 ^ 25 := by
    rwa [List.length_nil, Nat.zero_add]
  have hloop := Scan.sees_start.loop data.length hlen
  rw [hread] at hloop
  obtain ⟨s, hs, hsees⟩ := hloop
  rw [List.nil_append] at hsees
  obtain ⟨hfits, hle⟩ := readMembers_fits hread h
  rw [messageUnpack, hs]
  dsimp only
  rw [hsees.ready (hle.trans h)]
  by_cases hcomplete : complete ms
  · rw [hcomplete, hsees.members, ← denote_nil, Bool.true_and]
    have hsees : s.Sees ([] ++ ms) := hsees
    exact hsees.parseAll (hle.trans h) hfits
  · rw [Bool.not_eq_true] at hcomplete
    rw [hcomplete]
    rfl

theorem messageUnpack_eq_some (m : Message desc) :
    messageUnpack desc data = .ok (some m) ↔ meaning desc data = some m := by
  rw [meaning]
  cases hread : readMembers desc data.length data with
  | none => simp [messageUnpack_of_none h hread]
  | some ms => simp [messageUnpack_of_some h hread]

end Passes

/-- **The two passes mean what they should**: the data is read as a sequence of members, every field
has the values that were sent for it in their order, the last one if it is no array, and the members
without a field are kept.  All of them must fit their fields, and the `required` ones be there.  The
search in the ranges, the field that is tried first, the slabs, the counts and the sizes that are
allocated make no difference, and **nothing is read or written out of bounds**: the sizes that do
not fit in 32 bits are refused. -/
theorem messageUnpack_eq (desc : MessageDescriptor) {data : Bytes} (h : data.length ≤ 2 ^ 25) :
    messageUnpack desc data = .ok (meaning desc data) := by
  rw [meaning]
  cases hread : readMembers desc data.length data with
  | none => exact messageUnpack_of_none h hread
  | some ms => exact messageUnpack_of_some h hread

/-- A user name of `2 ^ 32 - 1` bytes. -/
theorem messageUnpack_wrap :
    [0x1a, 0xff, 0xff, 0xff, 0xff, 0x0f].length ≤ 2 ^ 25 ∧
      messageUnpack secAuthInitMsgDescriptor [0x1a, 0xff, 0xff, 0xff, 0xff, 0x0f] =
        .ok (meaning secAuthInitMsgDescriptor [0x1a, 0xff, 0xff, 0xff, 0xff, 0x0f]) :=
  ⟨by decide, messageUnpack_eq _ (by decide)⟩

end ProtobufC

end Ocserv
