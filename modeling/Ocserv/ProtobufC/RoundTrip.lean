import Ocserv.ProtobufC.Meaning

/-!
# Protobuf-c: a message that is packed is unpacked again

* `messageUnpack_messagePack` : **the receiver of a message has the message**, but for what was not
  sent: a `NULL` that is a required string is an empty string, and an optional member that is not
  there has its default.
-/

namespace Ocserv

namespace ProtobufC

open Protobuf (encodeVarint encodeVarint_of_lt)

/-! ### What is sent and received -/

/-- The element that is sent for a member: a string that is `NULL` is sent as one without bytes. -/
def FieldType.elem : (t : FieldType) → t.Slot → t.Elem
  | uint32, v | uint64, v | bool, v | enum, v | bytes, v => v
  | string, v => v.getD ⟨[], List.not_mem_nil⟩

namespace Member

variable {t : FieldType}

/-- The values that are sent for a member. -/
def sent : {l : Label} → Member t l → List t.Slot
  | _, .required v => [v]
  | _, .optional has v => if isSet has t v then [v] else []
  | _, .repeated array => array.map t.slot

/-- The member that the receiver has. -/
def received (defaultValue : Option t.Slot) : {l : Label} → Member t l → Member t l
  | _, .required v => .required (t.slot (t.elem v))
  | _, .optional has v =>
    if isSet has t v then .optional t.hasQuantifier (t.slot (t.elem v))
    else .optional false (defaultValue.getD t.zero)
  | _, .repeated array => .repeated array

end Member

variable {desc : MessageDescriptor}

/-- The message that the receiver has. -/
def Message.received (m : Message desc) : Message desc :=
  ⟨fun i => (m.members i).received (desc.field i).defaultValue, []⟩

theorem FieldType.elem_slot (t : FieldType) (v : t.Elem) : t.elem (t.slot v) = v := by
  cases t <;> rfl

theorem Member.pack_eq (id : UInt32) {t : FieldType} {l : Label} (m : Member t l) :
    m.pack id = m.sent.flatMap (requiredFieldPack id t) := by
  cases m with
  | required v => rw [Member.pack, Member.sent, List.flatMap_singleton]
  | optional has v =>
    rw [Member.pack, Member.sent]
    split
    · rw [List.flatMap_singleton]
    · rfl
  | repeated array => rw [Member.pack, Member.sent, List.flatMap_map]

theorem Member.ofValues_sent {t : FieldType} {l : Label} (defaultValue : Option t.Slot)
    (m : Member t l) :
    Member.ofValues defaultValue (m.sent.map t.elem) l = m.received defaultValue := by
  cases m with
  | required v => rfl
  | optional has v =>
    rw [Member.sent, Member.received]
    split
    · simp [Member.ofValues]
    · rfl
  | repeated array =>
    rw [Member.sent, Member.received, Member.ofValues, List.map_map]
    congr 1
    exact (List.map_congr_left fun v _ => t.elem_slot v).trans (List.map_id array)

/-! ### Reading what was written -/

theorem take_encodeVarint (n : ℕ) (rest : Bytes) :
    (encodeVarint n ++ rest).take (encodeVarint n).length = encodeVarint n := List.take_left

theorem parseTagAndWiretype_setWireType (id : UInt32) {w : UInt8} (hw : w.toNat < 2 ^ 3)
    (rest : Bytes) :
    parseTagAndWiretype (setWireType w (tagPack id) ++ rest) =
      some (id, w, (setWireType w (tagPack id)).length) := by
  have hid := id.toNat_lt
  have hdiv : (2 ^ 3 * id.toNat + w.toNat) / 2 ^ 3 = id.toNat := by omega
  have hmod : (2 ^ 3 * id.toNat + w.toNat) % 2 ^ 3 = w.toNat := by omega
  rw [setWireType_tagPack id hw, parseTagAndWiretype_eq,
    scanVarint_encodeVarint (show _ < 2 ^ (7 * (4 + 1)) by omega), Option.map_some,
    take_encodeVarint, base128_encodeVarint, hdiv, hmod, UInt32.ofNat_toNat, UInt8.ofNat_toNat]

theorem scanPayload_varint {n : ℕ} (hn : n < 2 ^ 64) (rest : Bytes) :
    scanPayload wireTypeVarint (encodeVarint n ++ rest) = some ((encodeVarint n).length, 0) := by
  have hscan := scanVarint_encodeVarint (hn.trans (show 2 ^ 64 < 2 ^ (7 * (9 + 1)) by decide)) rest
  rw [scanPayload, if_pos rfl, hscan]
  rfl

theorem scanPayload_binaryDataPack {text : Bytes} (htext : text.length ≤ 2 ^ 25) (rest : Bytes) :
    scanPayload wireTypeLengthPrefixed (binaryDataPack text ++ rest) =
      some ((binaryDataPack text).length, (encodeVarint text.length).length) := by
  have hsize : (UInt32.ofNat text.length).toNat = text.length := by
    rw [UInt32.toNat_ofNat', Nat.mod_eq_of_lt (by omega)]
  have hscan := scanVarint_encodeVarint (show text.length < 2 ^ (7 * (4 + 1)) by omega)
    (text ++ rest)
  obtain ⟨hpos, hmax, -⟩ := scanVarint_le hscan
  rw [scanPayload, if_neg (by decide), if_neg (by decide), if_pos rfl, binaryDataPack,
    uint32Pack_eq, hsize, List.append_assoc, scanLengthPrefixedData_eq, hscan]
  generalize hl : (encodeVarint text.length).length = l at *
  have htake : (encodeVarint text.length ++ (text ++ rest)).take l = encodeVarint text.length := by
    rw [← hl, take_encodeVarint]
  have hlen : (UInt32.ofNat (l + text.length)).toNat = l + text.length := by
    rw [UInt32.toNat_ofNat', Nat.mod_eq_of_lt (by omega)]
  have hfit : ¬ ((encodeVarint text.length ++ (text ++ rest)).length < l + text.length ∨
      UInt32.ofNat (l + text.length) = 0) := by
    rw [List.length_append, List.length_append, hl, not_or]
    refine ⟨by omega, fun hzero => ?_⟩
    have hnat := congrArg UInt32.toNat hzero
    rw [hlen] at hnat
    have : (0 : UInt32).toNat = 0 := rfl
    omega
  rw [Option.bind_some, htake, base128_encodeVarint]
  dsimp only
  rw [hlen, if_neg hfit, List.length_append, hl]

/-- A member that was found carries a value for a field. -/
def ScannedMember.Carries (sm : ScannedMember desc) (i : desc.Index)
    (v : (desc.field i).type.Slot) : Prop :=
  sm.field = some i ∧ sm.value (desc.field i).type = some ((desc.field i).type.elem v)

/-- What is written of a value, behind its tag. -/
def valuePack : (t : FieldType) → t.Elem → Bytes
  | .uint32, v | .enum, v => uint32Pack v
  | .uint64, v => uint64Pack v
  | .bool, v => [if v then 1 else 0]
  | .string, str => binaryDataPack str.1
  | .bytes, data => binaryDataPack data

/-- The wire type of a value. -/
def FieldType.wireType : FieldType → UInt8
  | .uint32 | .enum | .uint64 | .bool => wireTypeVarint
  | .string | .bytes => wireTypeLengthPrefixed

theorem requiredFieldPack_eq (id : UInt32) (t : FieldType) (v : t.Slot) :
    requiredFieldPack id t v = setWireType t.wireType (tagPack id) ++ valuePack t (t.elem v) := by
  cases t with
  | string =>
    cases v with
    | none => rfl
    | some str => rfl
  | uint32 | uint64 | bool | enum | bytes => rfl

theorem toCString_val (str : CString) : toCString str.1 = str := by
  apply Subtype.ext
  refine List.takeWhile_eq_self_iff.2 fun b hb => ?_
  exact decide_eq_true fun hzero => str.2 (hzero ▸ hb)

theorem payload_binaryDataPack {sm : ScannedMember desc} {text rest : Bytes}
    (htext : text.length ≤ 2 ^ 25) (hwire : sm.wireType = wireTypeLengthPrefixed)
    (hlen : sm.len = (binaryDataPack text).length)
    (hpref : sm.lengthPrefixLen = (encodeVarint text.length).length)
    (hdata : sm.data = binaryDataPack text ++ rest) : sm.payload = some text := by
  have hpack : binaryDataPack text = encodeVarint text.length ++ text := by
    rw [binaryDataPack, uint32Pack_eq, UInt32.toNat_ofNat', Nat.mod_eq_of_lt (by omega)]
  have hle : sm.lengthPrefixLen ≤ sm.len := by
    rw [hpref, hlen, hpack, List.length_append]
    exact Nat.le_add_right ..
  rw [ScannedMember.payload, if_pos ⟨hwire, hle⟩, hdata, hlen, hpref, List.take_left, hpack,
    List.drop_left]

/-- A value is found behind its tag, and read. -/
theorem scanPayload_valuePack (desc : MessageDescriptor) {t : FieldType} {v : t.Elem} (rest : Bytes)
    (hsize : (valuePack t v).length ≤ 2 ^ 25) :
    ∃ prefLen, scanPayload t.wireType (valuePack t v ++ rest) =
        some ((valuePack t v).length, prefLen) ∧
      ∀ tag field, (⟨tag, t.wireType, prefLen, field, (valuePack t v).length,
        valuePack t v ++ rest⟩ : ScannedMember desc).value t = some v := by
  have hnumber {n : ℕ} : base128 ((encodeVarint n ++ rest).take (encodeVarint n).length) = n := by
    rw [take_encodeVarint, base128_encodeVarint]
  have htext {text : Bytes} (h : (binaryDataPack text).length ≤ 2 ^ 25) : text.length ≤ 2 ^ 25 := by
    rw [binaryDataPack, List.length_append] at h
    omega
  cases t with
  | uint32 | enum =>
    have hpack : uint32Pack v = encodeVarint v.toNat := uint32Pack_eq v
    refine ⟨0, ?_, fun tag field => ?_⟩
    · rw [valuePack, hpack]
      exact scanPayload_varint (v.toNat_lt.trans (by decide)) rest
    · simp only [valuePack, hpack, ScannedMember.value, hnumber, UInt32.ofNat_toNat]
      rfl
  | uint64 =>
    have hpack : uint64Pack v = encodeVarint v.toNat := uint64Pack_eq v
    refine ⟨0, ?_, fun tag field => ?_⟩
    · rw [valuePack, hpack]
      exact scanPayload_varint v.toNat_lt rest
    · simp only [valuePack, hpack, ScannedMember.value, hnumber, UInt64.ofNat_toNat]
      rfl
  | bool =>
    refine ⟨0, ?_, fun tag field => ?_⟩
    · have hzero := scanPayload_varint (n := 0) (by decide) rest
      have hone := scanPayload_varint (n := 1) (by decide) rest
      rw [encodeVarint_of_lt (by decide)] at hzero hone
      cases v with
      | false => exact hzero
      | true => exact hone
    · cases v <;> rfl
  | string =>
    refine ⟨_, scanPayload_binaryDataPack (htext hsize) rest, fun tag field => ?_⟩
    rw [ScannedMember.value, payload_binaryDataPack (htext hsize) rfl rfl rfl rfl, Option.map_some,
      toCString_val]
  | bytes =>
    refine ⟨_, scanPayload_binaryDataPack (htext hsize) rest, fun tag field => ?_⟩
    exact payload_binaryDataPack (htext hsize) rfl rfl rfl rfl

/-- **What is written for a member is read as that member.** -/
theorem readMember_requiredFieldPack {i : desc.Index} {v : (desc.field i).type.Slot} (rest : Bytes)
    (hsize : (requiredFieldPack (desc.field i).id (desc.field i).type v).length ≤ 2 ^ 25) :
    ∃ sm : ScannedMember desc, sm.Carries i v ∧
      readMember desc (requiredFieldPack (desc.field i).id (desc.field i).type v ++ rest) =
        some (sm, rest) := by
  have hwire : (desc.field i).type.wireType.toNat < 2 ^ 3 := by
    cases (desc.field i).type <;> decide
  rw [requiredFieldPack_eq] at hsize ⊢
  rw [List.length_append] at hsize
  obtain ⟨prefLen, hscan, hvalue⟩ := scanPayload_valuePack desc rest
    (show (valuePack _ ((desc.field i).type.elem v)).length ≤ 2 ^ 25 by omega)
  refine ⟨_, ⟨find_eq_some.2 rfl, hvalue (desc.field i).id _⟩, ?_⟩
  rw [readMember, List.append_assoc, parseTagAndWiretype_setWireType _ hwire]
  simp only [Option.bind_eq_bind, Option.bind_some, List.drop_left, hscan]
  rfl

/-! ### All members -/

/-- The data is a sequence of the members. -/
inductive Reads : Bytes → List (ScannedMember desc) → Prop
  | nil : Reads [] []
  | cons {data rest : Bytes} {sm : ScannedMember desc} {ms : List (ScannedMember desc)} :
    readMember desc data = some (sm, rest) → Reads rest ms → Reads data (sm :: ms)

theorem Reads.readMembers {data : Bytes} {ms : List (ScannedMember desc)} (h : Reads data ms)
    (hdata : data.length ≤ 2 ^ 25) {fuel : ℕ} (hfuel : data.length ≤ fuel) :
    readMembers desc fuel data = some ms := by
  induction h generalizing fuel with
  | nil => cases fuel <;> rfl
  | @cons data rest sm ms hread _ ih =>
    have hlt := readMember_length_lt hread
    cases data with
    | nil => cases hread
    | cons b bs =>
      cases fuel with
      | zero => exact absurd hfuel (Nat.not_succ_le_zero _)
      | succ fuel =>
        rw [ProtobufC.readMembers, hread, Option.bind_some, ih (by omega) (by omega)]
        rfl

/-- The values of one field, before others. -/
theorem reads_field {i : desc.Index} (vs : List (desc.field i).type.Slot) {rest : Bytes}
    {ms : List (ScannedMember desc)} (hrest : Reads rest ms)
    (hsize : (vs.flatMap (requiredFieldPack (desc.field i).id (desc.field i).type)).length ≤
      2 ^ 25) :
    ∃ ms' : List (ScannedMember desc),
      List.Forall₂ (fun sm v => sm.Carries i v) ms' vs ∧
        Reads (vs.flatMap (requiredFieldPack (desc.field i).id (desc.field i).type) ++ rest)
          (ms' ++ ms) := by
  induction vs with
  | nil => exact ⟨[], .nil, hrest⟩
  | cons v vs ih =>
    rw [List.flatMap_cons, List.length_append] at hsize
    obtain ⟨ms', hcarries, hreads⟩ := ih (by omega)
    obtain ⟨sm, hsm, hread⟩ := readMember_requiredFieldPack
      (vs.flatMap (requiredFieldPack (desc.field i).id (desc.field i).type) ++ rest)
      (show (requiredFieldPack _ _ v).length ≤ 2 ^ 25 by omega)
    refine ⟨sm :: ms', .cons hsm hcarries, ?_⟩
    rw [List.flatMap_cons, List.append_assoc]
    exact .cons hread hreads

section Carried

variable {i : desc.Index} {vs : List (desc.field i).type.Slot} {ms : List (ScannedMember desc)}

theorem valuesOf_carried (h : List.Forall₂ (fun sm v => ScannedMember.Carries sm i v) ms vs) :
    valuesOf ms i = vs.map (desc.field i).type.elem := by
  induction h with
  | nil => rfl
  | cons hsm _ ih =>
    rw [valuesOf] at ih ⊢
    rw [List.filterMap_cons, if_pos hsm.1, hsm.2, ih]
    rfl

theorem forall_carried (h : List.Forall₂ (fun sm v => ScannedMember.Carries sm i v) ms vs) :
    ∀ sm ∈ ms, sm.field = some i ∧ (sm.value (desc.field i).type).isSome := by
  induction h with
  | nil => exact fun _ h => absurd h List.not_mem_nil
  | cons hsm _ ih => exact List.forall_mem_cons.2 ⟨⟨hsm.1, by rw [hsm.2]; rfl⟩, ih⟩

end Carried

/-- What is read of the fields `is`. -/
structure Sent (m : Message desc) (is : List desc.Index) (ms : List (ScannedMember desc)) :
    Prop where
  values (i : desc.Index) : valuesOf ms i =
    if i ∈ is then (m.members i).sent.map (desc.field i).type.elem else []
  accepted : ∀ sm ∈ ms, sm.accepted = true
  known : ∀ sm ∈ ms, sm.field ≠ none

theorem reads_fields (m : Message desc) {is : List desc.Index} (hnodup : is.Nodup)
    (hsize : (is.flatMap fun i => (m.members i).pack (desc.field i).id).length ≤ 2 ^ 25) :
    ∃ ms, Sent m is ms ∧ Reads (is.flatMap fun i => (m.members i).pack (desc.field i).id) ms := by
  induction is with
  | nil =>
    exact ⟨[], ⟨fun i => rfl, fun _ h => absurd h List.not_mem_nil,
      fun _ h => absurd h List.not_mem_nil⟩, .nil⟩
  | cons i is ih =>
    obtain ⟨hnotin, hnodup⟩ := List.nodup_cons.1 hnodup
    rw [List.flatMap_cons, List.length_append, Member.pack_eq] at hsize
    obtain ⟨ms, hsent, hreads⟩ := ih hnodup (by omega)
    obtain ⟨ms', hcarries, hreads'⟩ := reads_field (m.members i).sent hreads (by omega)
    have hall := forall_carried hcarries
    refine ⟨ms' ++ ms, ⟨fun j => ?_, fun sm hsm => ?_, fun sm hsm => ?_⟩, ?_⟩
    · rw [valuesOf_append, hsent.values]
      obtain rfl | hne := eq_or_ne j i
      · rw [valuesOf_carried hcarries, if_neg hnotin, if_pos List.mem_cons_self, List.append_nil]
      · have hnil : valuesOf ms' j = [] :=
          List.filterMap_eq_nil_iff.2 fun sm hsm =>
            if_neg fun h => hne (Option.some.inj (h.symm.trans (hall sm hsm).1))
        rw [hnil, List.nil_append]
        simp [hne]
    · obtain hsm | hsm := List.mem_append.1 hsm
      · obtain ⟨hfield, hvalue⟩ := hall sm hsm
        rw [ScannedMember.accepted, hfield]
        exact hvalue
      · exact hsent.accepted sm hsm
    · obtain hsm | hsm := List.mem_append.1 hsm
      · rw [(hall sm hsm).1]
        exact Option.some_ne_none i
      · exact hsent.known sm hsm
    · rw [List.flatMap_cons, Member.pack_eq]
      exact hreads'

/-- What is packed means what was sent. -/
theorem meaning_messagePack (m : Message desc) (hunknown : m.unknownFields = [])
    (hsize : (messagePack m).length ≤ 2 ^ 25) :
    meaning desc (messagePack m) = some m.received := by
  have hpack : messagePack m =
      (List.finRange _).flatMap fun i => (m.members i).pack (desc.field i).id := by
    rw [messagePack, hunknown, List.flatMap_nil, List.append_nil]
  rw [meaning]
  rw [hpack] at hsize ⊢
  obtain ⟨ms, hsent, hreads⟩ := reads_fields m (List.nodup_finRange _) hsize
  have hvalues (i : desc.Index) :
      valuesOf ms i = (m.members i).sent.map (desc.field i).type.elem := by
    rw [hsent.values, if_pos (List.mem_finRange i)]
  have hcomplete : complete ms = true := by
    refine List.all_eq_true.2 fun i _ => ?_
    cases hlabel : (desc.field i).label with
    | required =>
      have hne : valuesOf ms i ≠ [] := by
        rw [hvalues]
        generalize m.members i = x
        revert x
        rw [hlabel]
        rintro ⟨v⟩
        exact List.cons_ne_nil _ _
      obtain ⟨v, hv⟩ := List.exists_mem_of_ne_nil _ hne
      obtain ⟨sm, hsm, hv⟩ := List.mem_filterMap.1 hv
      have hfield : sm.field = some i := by
        by_contra h
        rw [if_neg h] at hv
        cases hv
      have hany : (ms.any fun sm => sm.field = some i) = true :=
        List.any_eq_true.2 ⟨sm, hsm, decide_eq_true hfield⟩
      rw [hany, Bool.or_true]
    | optional => rfl
    | repeated => rfl
  have hall : ms.all ScannedMember.accepted = true := List.all_eq_true.2 hsent.accepted
  have hdenote : denote ms = m.received := by
    have hno : ms.filterMap ScannedMember.unknown = [] :=
      List.filterMap_eq_nil_iff.2 fun sm hsm => if_neg (hsent.known sm hsm)
    rw [denote, Message.received, hno]
    congr 1
    funext i
    rw [hvalues, Member.ofValues_sent]
  rw [hreads.readMembers hsize le_rfl, Option.bind_some, hcomplete, hall, hdenote]
  rfl

/-- **A message that is packed is unpacked into what was sent**, whatever its fields are: every
`required` member, every `optional` one that is there, and the arrays in their order. -/
theorem messageUnpack_messagePack (m : Message desc) (hunknown : m.unknownFields = [])
    (hsize : (messagePack m).length ≤ 2 ^ 25) :
    messageUnpack desc (messagePack m) = .ok (some m.received) :=
  (messageUnpack_eq_some hsize m.received).2 (meaning_messagePack m hunknown hsize)

/-- A client with two groups in its certificate, and no user name. -/
def Sample.secAuthInit : Message secAuthInitMsgDescriptor where
  members := fun (i : Fin 8) => match i with
    | 0 => .required true
    | 1 => .required none
    | 2 => .optional false none
    | 3 => .optional false (some ⟨[117], by decide⟩)
    | 4 => .repeated [⟨[103, 49], by decide⟩, ⟨[103, 50], by decide⟩]
    | 5 => .optional false none
    | 6 => .required (some ⟨[49], by decide⟩)
    | 7 => .required (300 : UInt32)
  unknownFields := []

theorem messageUnpack_secAuthInit :
    messageUnpack secAuthInitMsgDescriptor (messagePack Sample.secAuthInit) =
      .ok (some Sample.secAuthInit.received) :=
  messageUnpack_messagePack Sample.secAuthInit rfl (by decide)

end ProtobufC

end Ocserv
