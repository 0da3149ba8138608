import Ocserv.Protobuf
import Ocserv.SecMod.Entry

/-!
# The message with the configuration of a worker

`auth_reply_msg` of `src/ipc.proto`, by which main tells a worker its addresses and the options of
its session.

* `AuthReplyMsg.unpack_pack` : **the message is read back**, but for scalars without their flag.
-/

namespace Ocserv

namespace PerUser

open Protobuf
open SecMod (Bytes)

/-- `AuthReplyMsg` -/
structure AuthReplyMsg where
  reply : UInt32
  sessionId : Option Bytes
  vname : Option Bytes
  userName : Option Bytes
  msg : Option Bytes
  ipv4 : Option Bytes
  ipv6 : Option Bytes
  ipv4Local : Option Bytes
  ipv6Local : Option Bytes
  ipv4Netmask : Option Bytes
  ipv6Netmask : Option Bytes
  ipv6Prefix : Flagged UInt32
  rxPerSec : Flagged UInt32
  txPerSec : Flagged UInt32
  netPriority : Flagged UInt32
  routes : List Bytes
  dns : List Bytes
  nbns : List Bytes
  noUdp : Flagged Bool
  groupName : Option Bytes
  xmlConfigFile : Option Bytes
  ipv4Network : Option Bytes
  ipv6Network : Option Bytes
  noRoutes : List Bytes
  deriving DecidableEq, Repr

/-- `AUTH__REP__OK` and `AUTH__REP__FAILED`. -/
def authRepOk : UInt32 := 1
def authRepFailed : UInt32 := 3

namespace AuthReplyMsg

/-- `AUTH_REPLY_MSG__INIT` -/
def init : AuthReplyMsg where
  reply := authRepOk
  sessionId := none
  vname := none
  userName := none
  msg := none
  ipv4 := none
  ipv6 := none
  ipv4Local := none
  ipv6Local := none
  ipv4Netmask := none
  ipv6Netmask := none
  ipv6Prefix := ⟨false, 0⟩
  rxPerSec := ⟨false, 0⟩
  txPerSec := ⟨false, 0⟩
  netPriority := ⟨false, 0⟩
  routes := []
  dns := []
  nbns := []
  noUdp := ⟨false, false⟩
  groupName := none
  xmlConfigFile := none
  ipv4Network := none
  ipv6Network := none
  noRoutes := []

def uint32 (n : UInt32) : Value := .varint n.toNat

def bool (b : Bool) : Value := .varint (if b then 1 else 0)

/-- The fields that are written. -/
def fields (m : AuthReplyMsg) : List Field :=
  optional 1 uint32 (some m.reply) ++ (optional 3 .bytes m.sessionId ++
    (optional 4 .bytes m.vname ++ (optional 5 .bytes m.userName ++ (optional 6 .bytes m.msg ++
    (optional 7 .bytes m.ipv4 ++ (optional 8 .bytes m.ipv6 ++ (optional 9 .bytes m.ipv4Local ++
    (optional 10 .bytes m.ipv6Local ++ (optional 15 .bytes m.ipv4Netmask ++
    (optional 16 .bytes m.ipv6Netmask ++ (optional 17 uint32 m.ipv6Prefix.toOption ++
    (optional 18 uint32 m.rxPerSec.toOption ++ (optional 19 uint32 m.txPerSec.toOption ++
    (optional 20 uint32 m.netPriority.toOption ++ (repeated 21 .bytes m.routes ++
    (repeated 22 .bytes m.dns ++ (repeated 23 .bytes m.nbns ++
    (optional 24 bool m.noUdp.toOption ++ (optional 25 .bytes m.groupName ++
    (optional 26 .bytes m.xmlConfigFile ++ (optional 27 .bytes m.ipv4Network ++
    (optional 28 .bytes m.ipv6Network ++ repeated 29 .bytes m.noRoutes))))))))))))))))))))))

/-- `auth_reply_msg__pack` -/
def pack (m : AuthReplyMsg) : Bytes := encode m.fields

/-- A number is read into 32 bits. -/
def uint32? (v : Value) : Option UInt32 := v.varint?.map UInt32.ofNat

/-- A boolean may have any wire type. -/
def bool? : Value → Option Bool
  | .varint n => some (n ≠ 0)
  | .bytes data => some (data ≠ [])

/-- The numbers of strings, and of numbers of 32 bits. -/
def stringNumbers : List ℕ := [3, 4, 5, 6, 7, 8, 9, 10, 15, 16, 21, 22, 23, 25, 26, 27, 28, 29]
def uint32Numbers : List ℕ := [1, 17, 18, 19, 20]

/-- The field has the wire type of its number. -/
def wellTyped (f : Field) : Bool :=
  if f.number ∈ stringNumbers then f.value.bytes?.isSome
  else if f.number ∈ uint32Numbers then f.value.varint?.isSome
  else true

/-- `auth_reply_msg__unpack` -/
def unpack (bs : Bytes) : Option AuthReplyMsg := do
  let fs ← decode bs
  if fs.all wellTyped then
    let reply ← selectLast 1 uint32? fs
    some
      { reply := reply
        sessionId := selectLast 3 Value.bytes? fs
        vname := selectLast 4 Value.bytes? fs
        userName := selectLast 5 Value.bytes? fs
        msg := selectLast 6 Value.bytes? fs
        ipv4 := selectLast 7 Value.bytes? fs
        ipv6 := selectLast 8 Value.bytes? fs
        ipv4Local := selectLast 9 Value.bytes? fs
        ipv6Local := selectLast 10 Value.bytes? fs
        ipv4Netmask := selectLast 15 Value.bytes? fs
        ipv6Netmask := selectLast 16 Value.bytes? fs
        ipv6Prefix := .ofOption 0 (selectLast 17 uint32? fs)
        rxPerSec := .ofOption 0 (selectLast 18 uint32? fs)
        txPerSec := .ofOption 0 (selectLast 19 uint32? fs)
        netPriority := .ofOption 0 (selectLast 20 uint32? fs)
        routes := select 21 Value.bytes? fs
        dns := select 22 Value.bytes? fs
        nbns := select 23 Value.bytes? fs
        noUdp := .ofOption false (selectLast 24 bool? fs)
        groupName := selectLast 25 Value.bytes? fs
        xmlConfigFile := selectLast 26 Value.bytes? fs
        ipv4Network := selectLast 27 Value.bytes? fs
        ipv6Network := selectLast 28 Value.bytes? fs
        noRoutes := select 29 Value.bytes? fs }
  else none

/-- The message as it arrives: a scalar without its flag is not written. -/
def received (m : AuthReplyMsg) : AuthReplyMsg :=
  { m with
    ipv6Prefix := .ofOption 0 m.ipv6Prefix.toOption
    rxPerSec := .ofOption 0 m.rxPerSec.toOption
    txPerSec := .ofOption 0 m.txPerSec.toOption
    netPriority := .ofOption 0 m.netPriority.toOption
    noUdp := .ofOption false m.noUdp.toOption }

/-! ### Reading back -/

theorem uint32?_uint32 (k : UInt32) : uint32? (uint32 k) = some k := by
  rw [uint32?, uint32, Value.varint?, Option.map_some, UInt32.ofNat_toNat]

theorem bool?_bool (b : Bool) : bool? (bool b) = some b := by
  cases b <;> rfl

theorem select_optional_uint32 (n : ℕ) (k : Option UInt32) :
    select n uint32? (optional n uint32 k) = k.toList := by
  rw [select_optional uint32?_uint32, Option.map_id']

theorem select_optional_bool (n : ℕ) (b : Option Bool) :
    select n bool? (optional n bool b) = b.toList := by
  rw [select_optional bool?_bool, Option.map_id']

/-- The field fits the format, and has the wire type of its number. -/
def FieldOk (f : Field) : Prop :=
  (f.number < 2 ^ 29 ∧ ∀ n, f.value = .varint n → n < 2 ^ 64) ∧ wellTyped f = true

theorem fieldOk_string {k : ℕ} (hk : k ∈ stringNumbers) (data : Bytes) :
    FieldOk ⟨k, .bytes data⟩ := by
  have hlt : ∀ k ∈ stringNumbers, k < 2 ^ 29 := by decide
  refine ⟨⟨hlt k hk, nofun⟩, ?_⟩
  rw [wellTyped, if_pos hk]
  rfl

theorem fieldOk_uint32 {k : ℕ} (hk : k ∈ uint32Numbers) (n : UInt32) :
    FieldOk ⟨k, uint32 n⟩ := by
  have hlt : ∀ k ∈ uint32Numbers, k < 2 ^ 29 ∧ k ∉ stringNumbers := by decide
  refine ⟨⟨(hlt k hk).1, ?_⟩, ?_⟩
  · rintro _ ⟨⟩
    exact n.toNat_lt.trans (by decide)
  · rw [wellTyped, if_neg (hlt k hk).2, if_pos hk]
    rfl

theorem fieldOk_bool (b : Bool) : FieldOk ⟨24, bool b⟩ := by
  have hlt : 24 < 2 ^ 29 := by decide
  refine ⟨⟨hlt, ?_⟩, rfl⟩
  rintro _ ⟨⟩
  cases b <;> decide

theorem fields_ok (m : AuthReplyMsg) : ∀ f ∈ m.fields, FieldOk f := by
  have hstring : ∀ k ∈ stringNumbers, ∀ s, ∀ f ∈ optional k .bytes s, FieldOk f :=
    fun k hk => forall_optional (fieldOk_string hk)
  have hstrings : ∀ k ∈ stringNumbers, ∀ s, ∀ f ∈ repeated k .bytes s, FieldOk f :=
    fun k hk => forall_repeated (fieldOk_string hk)
  have huint32 : ∀ k ∈ uint32Numbers, ∀ n, ∀ f ∈ optional k uint32 n, FieldOk f :=
    fun k hk => forall_optional (fieldOk_uint32 hk)
  simp only [fields, List.forall_mem_append]
  exact ⟨huint32 1 (by decide) _, hstring 3 (by decide) _, hstring 4 (by decide) _,
    hstring 5 (by decide) _, hstring 6 (by decide) _, hstring 7 (by decide) _,
    hstring 8 (by decide) _, hstring 9 (by decide) _, hstring 10 (by decide) _,
    hstring 15 (by decide) _, hstring 16 (by decide) _, huint32 17 (by decide) _,
    huint32 18 (by decide) _, huint32 19 (by decide) _, huint32 20 (by decide) _,
    hstrings 21 (by decide) _, hstrings 22 (by decide) _, hstrings 23 (by decide) _,
    forall_optional fieldOk_bool _, hstring 25 (by decide) _, hstring 26 (by decide) _,
    hstring 27 (by decide) _, hstring 28 (by decide) _, hstrings 29 (by decide) _⟩

/-- **The message is read back**, but for scalars without their flag. -/
theorem unpack_pack (m : AuthReplyMsg) (h : m.pack.length < 2 ^ 32) :
    unpack m.pack = some m.received := by
  have hfits := fits_of_length h fun f hf => (fields_ok m f hf).1
  have htyped : m.fields.all wellTyped = true :=
    List.all_eq_true.2 fun f hf => (fields_ok m f hf).2
  rw [unpack, pack, decode_encode _ hfits]
  simp only [Option.bind_eq_bind, Option.bind_some]
  rw [if_pos htyped]
  -- each number selects its own fields
  simp (disch := decide) only [selectLast, fields, select_append, select_optional_of_ne,
    select_repeated_of_ne, select_optional_bytes, select_repeated_bytes, select_optional_uint32,
    select_optional_bool, List.nil_append, List.append_nil, getLast?_toList, Option.bind_some]
  rfl

end AuthReplyMsg

end PerUser

end Ocserv
