import Mathlib.Tactic.Ring
import Ocserv.Protobuf

/-!
# Protobuf-c: numbers on the wire

The functions of `src/protobuf/protobuf-c/protobuf-c.c` that write and read numbers in base 128, and
those that tell how long a number will be.

* `uint32Pack_eq`, `uint64Pack_eq` : what is written is `Protobuf.encodeVarint`.
* `scanVarint_encodeVarint`, `base128_encodeVarint` : a number is found and read again.
* `parseUint32_eq`, `parseUint64_eq` : the readers, for any bytes.
-/

namespace Ocserv

namespace ProtobufC

open Protobuf (encodeVarint encodeVarint_of_lt encodeVarint_of_le)

abbrev Bytes := List UInt8

/-! ### Sizes -/

/-- `get_tag_size` -/
def getTagSize (number : UInt32) : ℕ :=
  if number.toNat < 2 ^ 4 then 1
  else if number.toNat < 2 ^ 11 then 2
  else if number.toNat < 2 ^ 18 then 3
  else if number.toNat < 2 ^ 25 then 4
  else 5

/-- `uint32_size` -/
def uint32Size (v : UInt32) : ℕ :=
  if v.toNat < 2 ^ 7 then 1
  else if v.toNat < 2 ^ 14 then 2
  else if v.toNat < 2 ^ 21 then 3
  else if v.toNat < 2 ^ 28 then 4
  else 5

/-- `uint64_size` -/
def uint64Size (v : UInt64) : ℕ :=
  let upperV := (v >>> 32).toUInt32
  if upperV = 0 then uint32Size v.toUInt32
  else if upperV.toNat < 2 ^ 3 then 5
  else if upperV.toNat < 2 ^ 10 then 6
  else if upperV.toNat < 2 ^ 17 then 7
  else if upperV.toNat < 2 ^ 24 then 8
  else if upperV.toNat < 2 ^ 31 then 9
  else 10

/-! ### Writing -/

/-- The nested conditions of `uint32_pack`, and the loop of `uint64_pack`: at most `n` bytes, and
the last one. -/
def packDigits : (n : ℕ) → UInt32 → Bytes
  | 0, value => [value.toUInt8]
  | n + 1, value =>
    if 0x80 ≤ value then (value ||| 0x80).toUInt8 :: packDigits n (value >>> 7)
    else [value.toUInt8]

/-- `uint32_pack` -/
def uint32Pack (value : UInt32) : Bytes := packDigits 4 value

/-- `uint64_pack` -/
def uint64Pack (value : UInt64) : Bytes :=
  let hi := (value >>> 32).toUInt32
  let lo := value.toUInt32
  if hi = 0 then uint32Pack lo
  else
    (lo ||| 0x80).toUInt8 :: (lo >>> 7 ||| 0x80).toUInt8 :: (lo >>> 14 ||| 0x80).toUInt8 ::
      (lo >>> 21 ||| 0x80).toUInt8 ::
      if hi < 8 then [(hi <<< 4 ||| lo >>> 28).toUInt8]
      else ((hi &&& 7) <<< 4 ||| lo >>> 28 ||| 0x80).toUInt8 :: packDigits 4 (hi >>> 3)

/-- `tag_pack` -/
def tagPack (id : UInt32) : Bytes :=
  if id.toNat < 2 ^ 29 then uint32Pack (id <<< 3) else uint64Pack (id.toUInt64 <<< 3)

/-! ### Reading -/

/-- The loops that look for the end of a number: the length of a number of at most `max` bytes. -/
def scanVarint : (max : ℕ) → Bytes → Option ℕ
  | 0, _ | _ + 1, [] => none
  | max + 1, b :: bs => if b &&& 0x80 = 0 then some 1 else (scanVarint max bs).map (· + 1)

/-- The loop of `parse_tag_and_wiretype`: at most `n` more bytes. -/
def parseTagLoop : (n : ℕ) → (tag shift : UInt32) → Bytes → Option (UInt32 × ℕ)
  | 0, _, _, _ | _ + 1, _, _, [] => none
  | n + 1, tag, shift, b :: bs =>
    if b &&& 0x80 ≠ 0 then
      (parseTagLoop n (tag ||| (b &&& 0x7f).toUInt32 <<< shift) (shift + 7) bs).map fun p =>
        (p.1, p.2 + 1)
    else some (tag ||| b.toUInt32 <<< shift, 1)

/-- `parse_tag_and_wiretype`: the tag, the wire type and the number of bytes. -/
def parseTagAndWiretype : Bytes → Option (UInt32 × UInt8 × ℕ)
  | [] => none
  | b :: bs =>
    let tag := ((b &&& 0x7f) >>> 3).toUInt32
    if b &&& 0x80 = 0 then some (tag, b &&& 7, 1)
    else (parseTagLoop 4 tag 4 bs).map fun p => (p.1, b &&& 7, p.2 + 1)

/-- The loop of `scan_length_prefixed_data`: the length and the number of its bytes. -/
def scanLengthLoop : (n : ℕ) → (val shift : UInt32) → Bytes → Option (UInt32 × ℕ)
  | 0, _, _, _ | _ + 1, _, _, [] => none
  | n + 1, val, shift, b :: bs =>
    let val := val ||| (b &&& 0x7f).toUInt32 <<< shift
    if b &&& 0x80 = 0 then some (val, 1)
    else (scanLengthLoop n val (shift + 7) bs).map fun p => (p.1, p.2 + 1)

/-- `scan_length_prefixed_data`: the length with its prefix, and the length of the prefix.  The sum
has 32 bits; a sum of `0` is an error. -/
def scanLengthPrefixedData (data : Bytes) : Option (ℕ × ℕ) := do
  let (val, hdrLen) ← scanLengthLoop 5 0 0 data
  let len := UInt32.ofNat hdrLen + val
  if data.length < len.toNat ∨ len = 0 then none else some (len.toNat, hdrLen)

/-- A byte of a number, without its high bit. -/
def digit (data : Bytes) (i : ℕ) : UInt8 := data.getD i 0 &&& 0x7f

/-- `parse_uint32` -/
def parseUint32 (len : ℕ) (data : Bytes) : UInt32 :=
  let rv := (digit data 0).toUInt32
  if len > 1 then
    let rv := rv ||| (digit data 1).toUInt32 <<< 7
    if len > 2 then
      let rv := rv ||| (digit data 2).toUInt32 <<< 14
      if len > 3 then
        let rv := rv ||| (digit data 3).toUInt32 <<< 21
        if len > 4 then rv ||| (data.getD 4 0).toUInt32 <<< 28 else rv
      else rv
    else rv
  else rv

/-- The loop of `parse_uint64`, over the bytes from number `i` on. -/
def parseUint64Loop (data : Bytes) : (n i : ℕ) → (rv shift : UInt64) → UInt64
  | 0, _, rv, _ => rv
  | n + 1, i, rv, shift =>
    parseUint64Loop data n (i + 1) (rv ||| (digit data i).toUInt64 <<< shift) (shift + 7)

/-- `parse_uint64` -/
def parseUint64 (len : ℕ) (data : Bytes) : UInt64 :=
  if len < 5 then (parseUint32 len data).toUInt64
  else
    let rv := (digit data 0).toUInt64 ||| (digit data 1).toUInt64 <<< 7 |||
      (digit data 2).toUInt64 <<< 14 ||| (digit data 3).toUInt64 <<< 21
    parseUint64Loop data (len - 4) 4 rv 28

/-- `parse_boolean` -/
def parseBoolean (len : ℕ) (data : Bytes) : Bool := (data.take len).any fun b => b &&& 0x7f ≠ 0

/-! ### Bits -/

theorem or_128_mod (n : ℕ) : (n ||| 2 ^ 7) % 2 ^ 8 = n % 2 ^ 7 + 2 ^ 7 := by
  have hbyte : ∀ x : Fin 256, x.val ||| 2 ^ 7 = x.val % 2 ^ 7 + 2 ^ 7 := by decide +kernel
  have hmod : n % 2 ^ 8 % 2 ^ 7 = n % 2 ^ 7 := Nat.mod_mod_of_dvd _ (by decide)
  rw [Nat.or_mod_two_pow, ← hmod]
  exact hbyte ⟨n % 2 ^ 8, Nat.mod_lt _ (by decide)⟩

theorem toNat_or_0x80 (v : UInt32) : (v ||| 0x80).toUInt8.toNat = v.toNat % 2 ^ 7 + 2 ^ 7 := by
  rw [UInt32.toNat_toUInt8, UInt32.toNat_or]
  exact or_128_mod v.toNat

theorem toNat_and_0x7f (b : UInt8) : (b &&& 0x7f).toNat = b.toNat % 2 ^ 7 := by
  rw [UInt8.toNat_and]
  exact Nat.and_two_pow_sub_one_eq_mod b.toNat 7

theorem toNat_and_7 (b : UInt8) : (b &&& 7).toNat = b.toNat % 2 ^ 3 := by
  rw [UInt8.toNat_and]
  exact Nat.and_two_pow_sub_one_eq_mod b.toNat 3

/-- The high bit of a byte is clear. -/
theorem and_0x80_eq_zero (b : UInt8) : b &&& 0x80 = 0 ↔ b.toNat < 2 ^ 7 := by
  have hbyte : ∀ x : Fin 256, x.val &&& 2 ^ 7 = 0 ↔ x.val < 2 ^ 7 := by decide +kernel
  rw [← UInt8.toNat_inj, UInt8.toNat_and]
  exact hbyte ⟨b.toNat, b.toNat_lt⟩

theorem toNat_shiftRight (v : UInt32) {k : ℕ} (hk : k < 32) :
    (v >>> UInt32.ofNat k).toNat = v.toNat / 2 ^ k := by
  rw [UInt32.toNat_shiftRight, UInt32.toNat_ofNat', Nat.mod_mod_of_dvd _ (by decide),
    Nat.mod_eq_of_lt hk, Nat.shiftRight_eq_div_pow]

/-- Bits are put above those that are there. -/
theorem or_shiftLeft_mod {a d s m : ℕ} (ha : a < 2 ^ s) (hs : s ≤ m) :
    a ||| (d <<< s) % 2 ^ m = (a + d * 2 ^ s) % 2 ^ m := by
  have hlt : a < 2 ^ m := ha.trans_le (Nat.pow_le_pow_right (by decide) hs)
  have hor : d <<< s ||| a = d * 2 ^ s + a := by
    rw [← Nat.shiftLeft_add_eq_or_of_lt ha, Nat.shiftLeft_eq]
  calc a ||| (d <<< s) % 2 ^ m = a % 2 ^ m ||| (d <<< s) % 2 ^ m := by rw [Nat.mod_eq_of_lt hlt]
    _ = (a ||| d <<< s) % 2 ^ m := (Nat.or_mod_two_pow ..).symm
    _ = (a + d * 2 ^ s) % 2 ^ m := by rw [Nat.or_comm, hor, Nat.add_comm]

theorem toNat_or_shiftLeft {a d s : UInt32} (ha : a.toNat < 2 ^ s.toNat) (hs : s.toNat < 32) :
    (a ||| d <<< s).toNat = (a.toNat + d.toNat * 2 ^ s.toNat) % 2 ^ 32 := by
  rw [UInt32.toNat_or, UInt32.toNat_shiftLeft, Nat.mod_eq_of_lt hs]
  exact or_shiftLeft_mod ha hs.le

theorem toNat_or_shiftLeft64 {a d s : UInt64} (ha : a.toNat < 2 ^ s.toNat) (hs : s.toNat < 64) :
    (a ||| d <<< s).toNat = (a.toNat + d.toNat * 2 ^ s.toNat) % 2 ^ 64 := by
  rw [UInt64.toNat_or, UInt64.toNat_shiftLeft, Nat.mod_eq_of_lt hs]
  exact or_shiftLeft_mod ha hs.le

/-! ### Numbers in base 128 -/

/-- The number that the low bits of some bytes are in base 128. -/
def base128 : Bytes → ℕ
  | [] => 0
  | b :: bs => b.toNat % 2 ^ 7 + 2 ^ 7 * base128 bs

theorem base128_lt (bs : Bytes) : base128 bs < 2 ^ (7 * bs.length) := by
  induction bs with
  | nil => exact Nat.one_pos
  | cons b bs ih =>
    have hdigit : b.toNat % 2 ^ 7 < 2 ^ 7 := Nat.mod_lt _ (by decide)
    have hpow : 2 ^ (7 * (b :: bs).length) = 2 ^ 7 * 2 ^ (7 * bs.length) := by
      rw [← pow_add, List.length_cons]
      congr 1
      omega
    rw [base128, hpow]
    omega

theorem base128_append (as bs : Bytes) :
    base128 (as ++ bs) = base128 as + 2 ^ (7 * as.length) * base128 bs := by
  induction as with
  | nil => simp [base128]
  | cons a as ih =>
    rw [List.cons_append, base128, base128, ih, List.length_cons,
      show 7 * (as.length + 1) = 7 + 7 * as.length by omega, pow_add]
    ring

theorem base128_eq_zero {bs : Bytes} : base128 bs = 0 ↔ ∀ b ∈ bs, b.toNat % 2 ^ 7 = 0 := by
  induction bs with
  | nil => simp [base128]
  | cons b bs ih =>
    rw [base128, List.forall_mem_cons, ← ih]
    omega

theorem base128_take_succ {data : Bytes} {k : ℕ} (hk : k < data.length) :
    base128 (data.take (k + 1)) =
      base128 (data.take k) + (data.getD k 0).toNat % 2 ^ 7 * 2 ^ (7 * k) := by
  have hget : data[k]? = some (data.getD k 0) := by
    rw [List.getD_eq_getElem?_getD, List.getElem?_eq_getElem hk]
    rfl
  rw [List.take_add_one, hget, Option.toList_some, base128_append, List.length_take,
    Nat.min_eq_left hk.le, base128, base128]
  ring

/-- The higher digits are multiples of a power. -/
theorem base128_take_mod {data : Bytes} {k l : ℕ} (hk : k ≤ l) (hl : l ≤ data.length) :
    base128 (data.take l) % 2 ^ (7 * k) = base128 (data.take k) := by
  have hlen : (data.take k).length = k := List.length_take_of_le (hk.trans hl)
  have hsplit := List.take_append_drop k (data.take l)
  rw [List.take_take, Nat.min_eq_left hk] at hsplit
  have hlt := base128_lt (data.take k)
  rw [hlen] at hlt
  rw [← hsplit, base128_append, hlen, Nat.add_mul_mod_self_left, Nat.mod_eq_of_lt hlt]

theorem scanVarint_le {max l : ℕ} {data : Bytes} (h : scanVarint max data = some l) :
    0 < l ∧ l ≤ max ∧ l ≤ data.length := by
  induction max generalizing data l with
  | zero => cases data <;> cases h
  | succ max ih =>
    cases data with
    | nil => cases h
    | cons b bs =>
      rw [scanVarint] at h
      split at h
      · cases h
        exact ⟨Nat.one_pos, by omega, Nat.succ_le_succ (Nat.zero_le _)⟩
      · obtain ⟨k, hk, rfl⟩ := Option.map_eq_some_iff.1 h
        obtain ⟨-, hmax, hlen⟩ := ih hk
        exact ⟨Nat.succ_pos k, Nat.succ_le_succ hmax, Nat.succ_le_succ hlen⟩

/-- A number is found, whatever is behind it. -/
theorem scanVarint_encodeVarint {max n : ℕ} (h : n < 2 ^ (7 * (max + 1))) (rest : Bytes) :
    scanVarint (max + 1) (encodeVarint n ++ rest) = some (encodeVarint n).length := by
  induction max generalizing n with
  | zero =>
    have hbyte : (UInt8.ofNat n).toNat < 2 ^ 7 := by
      rw [UInt8.toNat_ofNat', Nat.mod_eq_of_lt (by omega)]
      exact h
    rw [encodeVarint_of_lt h, List.singleton_append, scanVarint,
      if_pos ((and_0x80_eq_zero _).2 hbyte)]
    rfl
  | succ max ih =>
    by_cases hlt : n < 2 ^ 7
    · have hbyte : (UInt8.ofNat n).toNat < 2 ^ 7 := by
        rw [UInt8.toNat_ofNat', Nat.mod_eq_of_lt (by omega)]
        exact hlt
      rw [encodeVarint_of_lt hlt, List.singleton_append, scanVarint,
        if_pos ((and_0x80_eq_zero _).2 hbyte)]
      rfl
    · have hbyte : ¬ (UInt8.ofNat (n % 2 ^ 7 + 2 ^ 7)).toNat < 2 ^ 7 := by
        rw [UInt8.toNat_ofNat', Nat.mod_eq_of_lt (by omega)]
        omega
      have hdiv : n / 2 ^ 7 < 2 ^ (7 * (max + 1)) := by
        apply Nat.div_lt_of_lt_mul
        rw [← pow_add, show 7 + 7 * (max + 1) = 7 * (max + 1 + 1) by omega]
        exact h
      rw [encodeVarint_of_le (not_lt.1 hlt), List.cons_append, scanVarint,
        if_neg (hbyte ∘ (and_0x80_eq_zero _).1), ih hdiv]
      rfl

theorem base128_encodeVarint (n : ℕ) : base128 (encodeVarint n) = n := by
  induction n using Nat.strongRecOn with
  | ind n ih =>
    by_cases hlt : n < 2 ^ 7
    · rw [encodeVarint_of_lt hlt, base128, base128, UInt8.toNat_ofNat']
      omega
    · rw [encodeVarint_of_le (not_lt.1 hlt), base128, ih (n / 2 ^ 7) (by omega),
        UInt8.toNat_ofNat']
      omega

/-! ### What is written -/

theorem toNat_ofNat_high (n : ℕ) :
    (UInt8.ofNat (n % 2 ^ 7 + 2 ^ 7)).toNat = n % 2 ^ 7 + 2 ^ 7 := by
  rw [UInt8.toNat_ofNat']
  omega

/-- The bytes of the nested conditions are those of the number. -/
theorem packDigits_eq {n : ℕ} {value : UInt32} (h : value.toNat < 2 ^ (7 * (n + 1))) :
    packDigits n value = encodeVarint value.toNat := by
  induction n generalizing value with
  | zero =>
    rw [packDigits, encodeVarint_of_lt h, UInt8.ofNat_uInt32ToNat]
  | succ n ih =>
    rw [packDigits]
    split
    · rename_i hle
      have hle : 2 ^ 7 ≤ value.toNat := UInt32.le_iff_toNat_le.1 hle
      have hshift : (value >>> 7).toNat = value.toNat / 2 ^ 7 :=
        toNat_shiftRight value (show 7 < 32 by decide)
      have hbyte : (value ||| 0x80).toUInt8 = UInt8.ofNat (value.toNat % 2 ^ 7 + 2 ^ 7) := by
        rw [← UInt8.toNat_inj, toNat_or_0x80, toNat_ofNat_high]
      have hdiv : (value >>> 7).toNat < 2 ^ (7 * (n + 1)) := by
        rw [hshift]
        apply Nat.div_lt_of_lt_mul
        rw [← pow_add, show 7 + 7 * (n + 1) = 7 * (n + 1 + 1) by omega]
        exact h
      rw [hbyte, ih hdiv, hshift, ← encodeVarint_of_le hle]
    · rename_i hlt
      have hlt : value.toNat < 2 ^ 7 := not_le.1 fun hle => hlt (UInt32.le_iff_toNat_le.2 hle)
      rw [encodeVarint_of_lt hlt, UInt8.ofNat_uInt32ToNat]

theorem uint32Pack_eq (value : UInt32) : uint32Pack value = encodeVarint value.toNat :=
  packDigits_eq (value.toNat_lt.trans (by decide))

/-- The bytes of a number in base 128: five low ones, and the rest. -/
theorem encodeVarint_five {n : ℕ} (h : 2 ^ 35 ≤ n) :
    encodeVarint n = UInt8.ofNat (n % 2 ^ 7 + 2 ^ 7) :: UInt8.ofNat (n / 2 ^ 7 % 2 ^ 7 + 2 ^ 7) ::
      UInt8.ofNat (n / 2 ^ 14 % 2 ^ 7 + 2 ^ 7) :: UInt8.ofNat (n / 2 ^ 21 % 2 ^ 7 + 2 ^ 7) ::
      UInt8.ofNat (n / 2 ^ 28 % 2 ^ 7 + 2 ^ 7) :: encodeVarint (n / 2 ^ 35) := by
  rw [encodeVarint_of_le (by omega), encodeVarint_of_le (by omega), encodeVarint_of_le (by omega),
    encodeVarint_of_le (by omega), encodeVarint_of_le (by omega)]
  simp only [Nat.div_div_eq_div_mul, ← pow_add]

theorem encodeVarint_four {n : ℕ} (h : 2 ^ 28 ≤ n) (hlt : n < 2 ^ 35) :
    encodeVarint n = UInt8.ofNat (n % 2 ^ 7 + 2 ^ 7) :: UInt8.ofNat (n / 2 ^ 7 % 2 ^ 7 + 2 ^ 7) ::
      UInt8.ofNat (n / 2 ^ 14 % 2 ^ 7 + 2 ^ 7) :: UInt8.ofNat (n / 2 ^ 21 % 2 ^ 7 + 2 ^ 7) ::
      [UInt8.ofNat (n / 2 ^ 28)] := by
  rw [encodeVarint_of_le (by omega), encodeVarint_of_le (by omega), encodeVarint_of_le (by omega),
    encodeVarint_of_le (by omega), encodeVarint_of_lt (by omega)]
  simp only [Nat.div_div_eq_div_mul, ← pow_add]

/-- The low bits of a byte of the lower half. -/
theorem lowByte_eq {value : UInt64} {lo v : UInt32} {k : ℕ} (hlo : lo = value.toUInt32)
    (hk : k + 7 ≤ 32) (hv : v.toNat = lo.toNat / 2 ^ k) :
    (v ||| 0x80).toUInt8 = UInt8.ofNat (value.toNat / 2 ^ k % 2 ^ 7 + 2 ^ 7) := by
  have hpow : 2 ^ 32 = 2 ^ k * 2 ^ (32 - k) := by
    rw [← pow_add]
    congr 1
    omega
  have hmod : lo.toNat / 2 ^ k % 2 ^ 7 = value.toNat / 2 ^ k % 2 ^ 7 := by
    rw [hlo, UInt64.toNat_toUInt32, hpow, Nat.mod_mul_right_div_self,
      Nat.mod_mod_of_dvd _ (pow_dvd_pow 2 (by omega))]
  rw [← UInt8.toNat_inj, toNat_or_0x80, toNat_ofNat_high, hv, hmod]

/-- The byte that has bits of both halves. -/
theorem toNat_middle {a lo : UInt32} (ha : a.toNat < 2 ^ 28) :
    (a <<< 4 ||| lo >>> 28).toNat = a.toNat * 2 ^ 4 + lo.toNat / 2 ^ 28 := by
  have hshift : (lo >>> 28).toNat = lo.toNat / 2 ^ 28 :=
    toNat_shiftRight lo (show 28 < 32 by decide)
  have hlt := lo.toNat_lt
  have hfour : (4 : UInt32).toNat = 4 := rfl
  rw [UInt32.or_comm, toNat_or_shiftLeft (by rw [hshift, hfour]; omega) (by decide), hshift, hfour]
  omega

theorem uint64Pack_eq (value : UInt64) : uint64Pack value = encodeVarint value.toNat := by
  have hlo : value.toUInt32.toNat = value.toNat % 2 ^ 32 := UInt64.toNat_toUInt32 value
  have hhi : (value >>> 32).toUInt32.toNat = value.toNat / 2 ^ 32 := by
    rw [UInt64.toNat_toUInt32, UInt64.toNat_shiftRight, Nat.shiftRight_eq_div_pow]
    have := value.toNat_lt
    show value.toNat / 2 ^ 32 % 2 ^ 32 = _
    omega
  have hlt := value.toNat_lt
  rw [uint64Pack]
  generalize hl : value.toUInt32 = lo at *
  generalize hh : (value >>> 32).toUInt32 = hi at *
  have h₀ : (lo ||| 0x80).toUInt8 = UInt8.ofNat (value.toNat / 2 ^ 0 % 2 ^ 7 + 2 ^ 7) :=
    lowByte_eq hl.symm (by decide) (Nat.div_one _).symm
  have h₁ : (lo >>> 7 ||| 0x80).toUInt8 = UInt8.ofNat (value.toNat / 2 ^ 7 % 2 ^ 7 + 2 ^ 7) :=
    lowByte_eq hl.symm (by decide) (toNat_shiftRight lo (by decide))
  have h₂ : (lo >>> 14 ||| 0x80).toUInt8 = UInt8.ofNat (value.toNat / 2 ^ 14 % 2 ^ 7 + 2 ^ 7) :=
    lowByte_eq hl.symm (by decide) (toNat_shiftRight lo (by decide))
  have h₃ : (lo >>> 21 ||| 0x80).toUInt8 = UInt8.ofNat (value.toNat / 2 ^ 21 % 2 ^ 7 + 2 ^ 7) :=
    lowByte_eq hl.symm (by decide) (toNat_shiftRight lo (by decide))
  split
  · rename_i hzero
    have hzero : hi.toNat = 0 := by rw [hzero]; rfl
    rw [uint32Pack_eq, hlo, Nat.mod_eq_of_lt (by omega)]
  · rename_i hne
    have hpos : hi.toNat ≠ 0 := fun h => hne (UInt32.toNat_inj.1 h)
    split
    · rename_i height
      have height : hi.toNat < 8 := UInt32.lt_iff_toNat_lt.1 height
      have hbyte : (hi <<< 4 ||| lo >>> 28).toUInt8 = UInt8.ofNat (value.toNat / 2 ^ 28) := by
        rw [← UInt8.ofNat_uInt32ToNat, toNat_middle (by omega)]
        congr 1
        omega
      rw [encodeVarint_four (by omega) (by omega), h₀, h₁, h₂, h₃, hbyte, pow_zero, Nat.div_one]
    · rename_i height
      have height : 8 ≤ hi.toNat := not_lt.1 fun h => height (UInt32.lt_iff_toNat_lt.2 h)
      have hand : (hi &&& 7).toNat = hi.toNat % 2 ^ 3 := by
        rw [UInt32.toNat_and]
        exact Nat.and_two_pow_sub_one_eq_mod hi.toNat 3
      have hbyte : ((hi &&& 7) <<< 4 ||| lo >>> 28 ||| 0x80).toUInt8 =
          UInt8.ofNat (value.toNat / 2 ^ 28 % 2 ^ 7 + 2 ^ 7) := by
        rw [← UInt8.toNat_inj, toNat_or_0x80, toNat_ofNat_high, toNat_middle (by omega), hand]
        omega
      have hshift : (hi >>> 3).toNat = hi.toNat / 2 ^ 3 :=
        toNat_shiftRight hi (show 3 < 32 by decide)
      have hrest : packDigits 4 (hi >>> 3) = encodeVarint (value.toNat / 2 ^ 35) := by
        rw [packDigits_eq ((hi >>> 3).toNat_lt.trans (by decide)), hshift]
        congr 1
        omega
      rw [encodeVarint_five (by omega), h₀, h₁, h₂, h₃, hbyte, hrest, pow_zero, Nat.div_one]

theorem tagPack_eq (id : UInt32) : tagPack id = encodeVarint (2 ^ 3 * id.toNat) := by
  have hlt := id.toNat_lt
  rw [tagPack]
  split
  · have hshift : (id <<< 3).toNat = 2 ^ 3 * id.toNat := by
      rw [UInt32.toNat_shiftLeft, Nat.shiftLeft_eq]
      show id.toNat * 2 ^ 3 % 2 ^ 32 = _
      omega
    rw [uint32Pack_eq, hshift]
  · have hshift : (id.toUInt64 <<< 3).toNat = 2 ^ 3 * id.toNat := by
      rw [UInt64.toNat_shiftLeft, UInt32.toNat_toUInt64, Nat.shiftLeft_eq]
      show id.toNat * 2 ^ 3 % 2 ^ 64 = _
      omega
    rw [uint64Pack_eq, hshift]

/-! ### Sizes agree with what is written -/

/-- A number of `k` bytes. -/
theorem length_encodeVarint_eq {n k : ℕ} (hk : 0 < k) (hlt : n < 2 ^ (7 * k))
    (hle : k = 1 ∨ 2 ^ (7 * (k - 1)) ≤ n) : (encodeVarint n).length = k := by
  induction k generalizing n with
  | zero => exact absurd hk (Nat.lt_irrefl 0)
  | succ k ih =>
    obtain rfl | hpos := Nat.eq_zero_or_pos k
    · rw [encodeVarint_of_lt hlt]
      rfl
    · rw [Nat.add_sub_cancel] at hle
      have hle : 2 ^ (7 * k) ≤ n := hle.resolve_left (by omega)
      have hpow : 2 ^ 7 ≤ 2 ^ (7 * k) := Nat.pow_le_pow_right (by decide) (by omega)
      rw [encodeVarint_of_le (hpow.trans hle), List.length_cons, ih hpos]
      · apply Nat.div_lt_of_lt_mul
        rw [← pow_add, show 7 + 7 * k = 7 * (k + 1) by omega]
        exact hlt
      · refine (Nat.eq_or_lt_of_le hpos).imp Eq.symm fun h => ?_
        rw [Nat.le_div_iff_mul_le (by decide), ← pow_add,
          show 7 * (k - 1) + 7 = 7 * k by omega]
        exact hle

theorem length_uint32Pack (v : UInt32) : (uint32Pack v).length = uint32Size v := by
  have hlt := v.toNat_lt
  rw [uint32Pack_eq, uint32Size]
  repeat' split
  all_goals exact length_encodeVarint_eq (by decide) (by omega) (by omega)

theorem length_uint64Pack (v : UInt64) : (uint64Pack v).length = uint64Size v := by
  have hlt := v.toNat_lt
  have hlo : v.toUInt32.toNat = v.toNat % 2 ^ 32 := UInt64.toNat_toUInt32 v
  have hhi : (v >>> 32).toUInt32.toNat = v.toNat / 2 ^ 32 := by
    rw [UInt64.toNat_toUInt32, UInt64.toNat_shiftRight, Nat.shiftRight_eq_div_pow]
    show v.toNat / 2 ^ 32 % 2 ^ 32 = _
    omega
  rw [uint64Pack_eq, uint64Size]
  generalize (v >>> 32).toUInt32 = hi at *
  split
  · rename_i hzero
    have hzero : hi.toNat = 0 := by rw [hzero]; rfl
    rw [← length_uint32Pack, uint32Pack_eq, hlo, Nat.mod_eq_of_lt (by omega)]
  · rename_i hne
    have hpos : hi.toNat ≠ 0 := fun h => hne (UInt32.toNat_inj.1 h)
    repeat' split
    all_goals exact length_encodeVarint_eq (by decide) (by omega) (by omega)

theorem length_tagPack (id : UInt32) : (tagPack id).length = getTagSize id := by
  have hlt := id.toNat_lt
  rw [tagPack_eq, getTagSize]
  repeat' split
  all_goals exact length_encodeVarint_eq (by decide) (by omega) (by omega)

/-! ### What is read -/

theorem parseTagLoop_eq {n : ℕ} {tag shift : UInt32} {bs : Bytes} :
    parseTagLoop n tag shift bs = scanLengthLoop n tag shift bs := by
  induction n generalizing tag shift bs with
  | zero => cases bs <;> rfl
  | succ n ih =>
    cases bs with
    | nil => rfl
    | cons b bs =>
      rw [parseTagLoop, scanLengthLoop]
      by_cases hb : b &&& 0x80 = 0
      · have hand : b &&& 0x7f = b := by
          rw [← UInt8.toNat_inj, toNat_and_0x7f, Nat.mod_eq_of_lt ((and_0x80_eq_zero b).1 hb)]
        rw [if_neg (not_not.2 hb), hand]
        exact (if_pos hb).symm
      · rw [if_pos hb, ih]
        exact (if_neg hb).symm

/-- The number that is read in a loop, in 32 bits. -/
theorem scanLengthLoop_eq {n : ℕ} {val shift : UInt32} {bs : Bytes}
    (hval : val.toNat < 2 ^ shift.toNat) (hshift : shift.toNat + 7 * n < 39) :
    scanLengthLoop n val shift bs = (scanVarint n bs).map fun l =>
      (UInt32.ofNat (val.toNat + base128 (bs.take l) * 2 ^ shift.toNat), l) := by
  induction n generalizing val shift bs with
  | zero => cases bs <;> rfl
  | succ n ih =>
    cases bs with
    | nil => rfl
    | cons b bs =>
      have hand : (b &&& 0x7f).toUInt32.toNat = b.toNat % 2 ^ 7 := by
        rw [UInt8.toNat_toUInt32, toNat_and_0x7f]
      have hdigit : b.toNat % 2 ^ 7 < 2 ^ 7 := Nat.mod_lt _ (by decide)
      have hor := toNat_or_shiftLeft (d := (b &&& 0x7f).toUInt32) hval (by omega)
      rw [hand] at hor
      rw [scanLengthLoop, scanVarint]
      split
      · rw [Option.map_some, List.take_succ_cons, List.take_zero, base128, base128]
        congr 2
        rw [← UInt32.toNat_inj, hor, UInt32.toNat_ofNat', Nat.mul_zero, Nat.add_zero]
      · have hseven : (shift + 7).toNat = shift.toNat + 7 := by
          rw [UInt32.toNat_add, Nat.mod_eq_of_lt]
          · rfl
          · show shift.toNat + 7 < _
            omega
        have hlt : (val ||| (b &&& 0x7f).toUInt32 <<< shift).toNat < 2 ^ (shift + 7).toNat := by
          rw [hor, hseven, pow_add]
          have hle : b.toNat % 2 ^ 7 * 2 ^ shift.toNat ≤ 127 * 2 ^ shift.toNat :=
            Nat.mul_le_mul_right _ (by omega)
          refine (Nat.mod_le _ _).trans_lt ?_
          omega
        rw [ih hlt (by omega), Option.map_map, Option.map_map]
        congr 1
        funext l
        rw [Function.comp_apply, Function.comp_apply, List.take_succ_cons, base128]
        congr 1
        rw [← UInt32.toNat_inj, UInt32.toNat_ofNat', UInt32.toNat_ofNat', hor, hseven,
          Nat.mod_add_mod, pow_add]
        congr 1
        ring

theorem parseTagAndWiretype_eq (data : Bytes) :
    parseTagAndWiretype data = (scanVarint 5 data).map fun l =>
      (UInt32.ofNat (base128 (data.take l) / 2 ^ 3),
        UInt8.ofNat (base128 (data.take l) % 2 ^ 3), l) := by
  cases data with
  | nil => rfl
  | cons b bs =>
    have htag : ((b &&& 0x7f) >>> 3).toUInt32.toNat = b.toNat % 2 ^ 7 / 2 ^ 3 := by
      rw [UInt8.toNat_toUInt32, UInt8.toNat_shiftRight, toNat_and_0x7f, Nat.shiftRight_eq_div_pow]
      rfl
    have hwire (v : ℕ) : b &&& 7 = UInt8.ofNat ((b.toNat % 2 ^ 7 + 2 ^ 7 * v) % 2 ^ 3) := by
      rw [← UInt8.toNat_inj, toNat_and_7, UInt8.toNat_ofNat']
      omega
    have hfour : (4 : UInt32).toNat = 4 := rfl
    rw [parseTagAndWiretype, scanVarint]
    split
    · rw [Option.map_some, List.take_succ_cons, List.take_zero, base128, base128, ← hwire,
        ← UInt32.ofNat_toNat (x := ((b &&& 0x7f) >>> 3).toUInt32), htag]
      rfl
    · rw [parseTagLoop_eq, scanLengthLoop_eq (by rw [htag, hfour]; omega) (by rw [hfour]; omega),
        Option.map_map, Option.map_map]
      congr 1
      funext l
      rw [Function.comp_apply, Function.comp_apply, List.take_succ_cons, base128, ← hwire, htag,
        hfour]
      have hdiv : b.toNat % 2 ^ 7 / 2 ^ 3 + base128 (bs.take l) * 2 ^ 4 =
          (b.toNat % 2 ^ 7 + 2 ^ 7 * base128 (bs.take l)) / 2 ^ 3 := by omega
      rw [hdiv]

theorem scanLengthPrefixedData_eq (data : Bytes) :
    scanLengthPrefixedData data = (scanVarint 5 data).bind fun l =>
      let len := UInt32.ofNat (l + base128 (data.take l))
      if data.length < len.toNat ∨ len = 0 then none else some (len.toNat, l) := by
  have hzero : (0 : UInt32).toNat = 0 := rfl
  rw [scanLengthPrefixedData, scanLengthLoop_eq (by rw [hzero]; decide) (by rw [hzero]; decide),
    Option.bind_eq_bind, Option.bind_map]
  congr 1
  funext l
  simp only [Function.comp_apply, hzero, pow_zero, Nat.mul_one, Nat.zero_add, UInt32.ofNat_add]

theorem toNat_digit (data : Bytes) (i : ℕ) :
    (digit data i).toNat = (data.getD i 0).toNat % 2 ^ 7 := toNat_and_0x7f _

/-- One more digit of 32 bits. -/
theorem or_digit {data : Bytes} {rv d s : UInt32} {k : ℕ} (hk : k < data.length)
    (hrv : rv.toNat = base128 (data.take k)) (hs : s.toNat = 7 * k) (hlt : 7 * k < 32)
    (hd : d.toNat % 2 ^ 7 = (data.getD k 0).toNat % 2 ^ 7) (hd' : k < 4 → d.toNat < 2 ^ 7) :
    (rv ||| d <<< s).toNat = base128 (data.take (k + 1)) % 2 ^ 32 := by
  have hval := base128_lt (data.take k)
  rw [List.length_take_of_le hk.le, ← hs, ← hrv] at hval
  rw [toNat_or_shiftLeft hval (hs ▸ hlt), hrv, hs, base128_take_succ hk, ← hd]
  obtain hk4 | hk4 := Nat.lt_or_ge k 4
  · rw [Nat.mod_eq_of_lt (hd' hk4)]
  · obtain rfl : k = 4 := by omega
    omega

/-- The number of a field that `parse_uint32` reads. -/
theorem parseUint32_eq {len : ℕ} {data : Bytes} (hpos : 0 < len) (hlen : len ≤ data.length) :
    parseUint32 len data = UInt32.ofNat (base128 (data.take len)) := by
  have hmask {k : ℕ} : (digit data k).toUInt32.toNat % 2 ^ 7 = (data.getD k 0).toNat % 2 ^ 7 ∧
      (digit data k).toUInt32.toNat < 2 ^ 7 := by
    rw [UInt8.toNat_toUInt32, toNat_digit]
    omega
  have hfull : (data.getD 4 0).toUInt32.toNat % 2 ^ 7 = (data.getD 4 0).toNat % 2 ^ 7 := rfl
  have hbound {k : ℕ} (hk : k ≤ 4) : base128 (data.take k) % 2 ^ 32 = base128 (data.take k) := by
    have hlt := base128_lt (data.take k)
    have hle : (data.take k).length ≤ 4 := (List.length_take_le _ _).trans hk
    refine Nat.mod_eq_of_lt (hlt.trans_le (Nat.pow_le_pow_right (by decide) (by omega)))
  have h₁ : (digit data 0).toUInt32.toNat = base128 (data.take 1) := by
    rw [base128_take_succ (by omega), UInt8.toNat_toUInt32, toNat_digit]
    simp [base128]
  rw [← UInt32.toNat_inj, UInt32.toNat_ofNat', parseUint32]
  split
  · have h₂ := or_digit (s := 7) (by omega) h₁ rfl (by decide) hmask.1 fun _ => hmask.2
    rw [hbound (by decide)] at h₂
    split
    · have h₃ := or_digit (s := 14) (by omega) h₂ rfl (by decide) hmask.1 fun _ => hmask.2
      rw [hbound (by decide)] at h₃
      split
      · have h₄ := or_digit (s := 21) (by omega) h₃ rfl (by decide) hmask.1 fun _ => hmask.2
        rw [hbound (by decide)] at h₄
        split
        · rename_i hgt
          rw [or_digit (s := 28) (by omega) h₄ rfl (by decide) hfull (absurd · (by decide)),
            ← base128_take_mod (show 4 + 1 ≤ len by omega) hlen]
          exact Nat.mod_mod_of_dvd _ (by decide)
        · obtain rfl : len = 4 := by omega
          rw [h₄, hbound (by decide)]
      · obtain rfl : len = 3 := by omega
        rw [h₃, hbound (by decide)]
    · obtain rfl : len = 2 := by omega
      rw [h₂, hbound (by decide)]
  · obtain rfl : len = 1 := by omega
    rw [h₁, hbound (by decide)]

/-- One more digit of 64 bits. -/
theorem or_digit64 {data : Bytes} {rv s : UInt64} {k : ℕ} (hk : k < data.length)
    (hrv : rv.toNat = base128 (data.take k)) (hs : s.toNat = 7 * k) (hlt : 7 * k < 64) :
    (rv ||| (digit data k).toUInt64 <<< s).toNat = base128 (data.take (k + 1)) % 2 ^ 64 := by
  have hval := base128_lt (data.take k)
  rw [List.length_take_of_le hk.le, ← hs, ← hrv] at hval
  rw [toNat_or_shiftLeft64 hval (hs ▸ hlt), hrv, hs, base128_take_succ hk, UInt8.toNat_toUInt64,
    toNat_digit]

/-- Up to nine digits fit. -/
theorem base128_take_lt {data : Bytes} {k : ℕ} (hk : k ≤ 9) :
    base128 (data.take k) % 2 ^ 64 = base128 (data.take k) := by
  have hle : (data.take k).length ≤ 9 := (List.length_take_le _ _).trans hk
  exact Nat.mod_eq_of_lt
    ((base128_lt _).trans_le (Nat.pow_le_pow_right (by decide) (by omega)))

theorem parseUint64Loop_eq {data : Bytes} {n i : ℕ} {rv shift : UInt64} (hi : i + n ≤ 10)
    (hlen : i + n ≤ data.length) (hrv : rv.toNat = base128 (data.take i) % 2 ^ 64)
    (hshift : shift.toNat = 7 * i) :
    (parseUint64Loop data n i rv shift).toNat = base128 (data.take (i + n)) % 2 ^ 64 := by
  induction n generalizing i rv shift with
  | zero => exact hrv
  | succ n ih =>
    have hseven : (shift + 7).toNat = 7 * (i + 1) := by
      rw [UInt64.toNat_add, hshift, Nat.mod_eq_of_lt]
      · rfl
      · show 7 * i + 7 < 2 ^ 64
        omega
    rw [base128_take_lt (by omega)] at hrv
    have hnext := or_digit64 (by omega) hrv hshift (by omega)
    rw [parseUint64Loop, ih (by omega) (by omega) hnext hseven]
    congr 3
    omega

/-- The number of a field that `parse_uint64` reads. -/
theorem parseUint64_eq {len : ℕ} {data : Bytes} (hpos : 0 < len) (hmax : len ≤ 10)
    (hlen : len ≤ data.length) :
    parseUint64 len data = UInt64.ofNat (base128 (data.take len)) := by
  rw [← UInt64.toNat_inj, UInt64.toNat_ofNat', parseUint64]
  split
  · rename_i hlt
    have hlt := base128_lt (data.take len)
    rw [List.length_take_of_le hlen] at hlt
    have hlt : base128 (data.take len) < 2 ^ 28 :=
      hlt.trans_le (Nat.pow_le_pow_right (by decide) (by omega))
    rw [UInt32.toNat_toUInt64, parseUint32_eq hpos hlen, UInt32.toNat_ofNat']
    omega
  · have h₁ : (digit data 0).toUInt64.toNat = base128 (data.take 1) := by
      rw [base128_take_succ (by omega), UInt8.toNat_toUInt64, toNat_digit]
      simp [base128]
    have h₂ := or_digit64 (s := 7) (by omega) h₁ rfl (by decide)
    rw [base128_take_lt (by decide)] at h₂
    have h₃ := or_digit64 (s := 14) (by omega) h₂ rfl (by decide)
    rw [base128_take_lt (by decide)] at h₃
    have h₄ := or_digit64 (s := 21) (by omega) h₃ rfl (by decide)
    dsimp only
    rw [parseUint64Loop_eq (by omega) (by omega) h₄ rfl]
    congr 3
    omega

theorem parseBoolean_eq (len : ℕ) (data : Bytes) :
    parseBoolean len data = decide (base128 (data.take len) ≠ 0) := by
  have hzero (b : UInt8) : b &&& 0x7f ≠ 0 ↔ b.toNat % 2 ^ 7 ≠ 0 := by
    rw [Ne, ← UInt8.toNat_inj, toNat_and_0x7f]
    rfl
  rw [parseBoolean, Bool.eq_iff_iff, decide_eq_true_iff, Ne, base128_eq_zero, List.any_eq_true]
  simp only [decide_eq_true_eq, hzero, not_forall, exists_prop]

end ProtobufC

end Ocserv
