import Ocserv.Lzs.Format
import Mathlib.Logic.Function.Basic

/-!
# `lzs_decompress`

The decoder of `src/lzs.c`, statement by statement: `getBits` is the macro `GET_BITS` with its
cursor (`src`, `bits_left`), `lzsDecompress` the function around it.  The output buffer is the
function from indices to bytes, so that what the caller left in it is part of the model.

`getBits_field` and `getBits_ok` say what the macro does in terms of the bits the cursor has not
consumed (`Reader.rest`); nothing after them looks at shifts and masks.
-/

namespace Ocserv

namespace Lzs

/-- `INT_MAX` of a 32-bit `int`. -/
def intMax : ℕ := 2 ^ 31 - 1

/-- A value stored in a `uint16_t`. -/
def u16 (n : ℕ) : ℕ := n % 2 ^ 16

/-- How a run fails: the two error codes, or a signed addition that leaves `int`. -/
inductive Err where
  | einval
  | efbig
  | overflow
  deriving DecidableEq, Repr

/-- The cursor of `GET_BITS`: the bytes from `*src` on and the bits left in the first of them. -/
structure Reader where
  src : List UInt8
  bitsLeft : ℕ
  deriving DecidableEq, Repr

/-- `GET_BITS(bits)`. -/
def getBits (bits : ℕ) (r : Reader) : Except Err (ℕ × Reader) :=
  if r.src.length < 2 then .error .einval
  else if bits ≥ 8 ∨ bits ≥ r.bitsLeft then
    -- all the bits left in the current byte
    let data := (r.src.headD 0).toNat <<< (bits - r.bitsLeft) &&& (1 <<< bits - 1)
    let src := r.src.tail
    let bitsLeft := r.bitsLeft + 8 - bits
    if bits > 8 ∨ bitsLeft < 8 then
      -- and some of the next one
      let data := data ||| (src.headD 0).toNat >>> bitsLeft
      if bits > 8 ∧ bitsLeft = 0 then .ok (data, ⟨src.tail, 8⟩) else .ok (data, ⟨src, bitsLeft⟩)
    else .ok (data, ⟨src, bitsLeft⟩)
  else .ok ((r.src.headD 0).toNat >>> (r.bitsLeft - bits) &&& (1 <<< bits - 1),
    ⟨r.src, r.bitsLeft - bits⟩)

/-- The bits the cursor has not consumed. -/
def Reader.rest (r : Reader) : List Bool :=
  match r.src with
  | [] => []
  | b :: bs => bitsOf r.bitsLeft b.toNat ++ bytesToBits bs

@[simp] theorem Reader.rest_eight (src : List UInt8) :
    Reader.rest ⟨src, 8⟩ = bytesToBits src := by
  cases src <;> rfl

/-- The cursor stands before a bit of its byte: `bits_left` is never `0`. -/
structure Reader.Ok (r : Reader) : Prop where
  pos : 1 ≤ r.bitsLeft
  le : r.bitsLeft ≤ 8

/-- A measure of what is left to read, for termination. -/
def Reader.left (r : Reader) : ℕ := 8 * r.src.length + r.bitsLeft

/-! ### `GET_BITS` reads a field -/

theorem bitsOf_mask (w n : ℕ) : bitsOf w (n &&& (1 <<< w - 1)) = bitsOf w n := by
  rw [Nat.one_shiftLeft, Nat.and_two_pow_sub_one_eq_mod, bitsOf_mod]

/-- A field that straddles two bytes: its high `j` bits end the byte `a`, its low `k` bits start
the byte `b`. -/
theorem bitsOf_straddle {j k b : ℕ} (a : ℕ) (hk : k ≤ 8) (hb : b < 2 ^ 8) :
    bitsOf (j + k) (a <<< k &&& (1 <<< (j + k) - 1) ||| b >>> (8 - k)) =
      bitsOf j a ++ bitsOf k (b >>> (8 - k)) := by
  have hlt : b >>> (8 - k) < 2 ^ k := by
    rw [Nat.shiftRight_eq_div_pow, Nat.div_lt_iff_lt_mul (Nat.two_pow_pos _), ← Nat.pow_add]
    rwa [Nat.add_sub_cancel' hk]
  rw [bitsOf_add]
  congr 1
  · refine bitsOf_congr ?_
    intro i hi
    have hz : (b >>> (8 - k)).testBit (k + i) = false :=
      Nat.testBit_lt_two_pow (hlt.trans_le (Nat.pow_le_pow_right (by omega) (by omega)))
    rw [Nat.one_shiftLeft, Nat.and_two_pow_sub_one_eq_mod]
    simp only [Nat.testBit_shiftRight, Nat.testBit_or, Nat.testBit_mod_two_pow,
      Nat.testBit_shiftLeft] at hz ⊢
    simp [hz, show k + i < j + k by omega]
  · refine bitsOf_congr ?_
    intro i hi
    rw [Nat.one_shiftLeft, Nat.and_two_pow_sub_one_eq_mod]
    simp [show ¬ k ≤ i by omega]

/-- `GET_BITS(bits)` takes a field of `bits` bits off the stream. -/
def Reader.Takes (r : Reader) (bits : ℕ) : Prop :=
  ∃ data r', getBits bits r = .ok (data, r') ∧ data < 2 ^ bits ∧ r'.Ok ∧
    r.rest = bitsOf bits data ++ r'.rest ∧ r'.left + bits = r.left

theorem and_mask_lt (n bits : ℕ) : n &&& (1 <<< bits - 1) < 2 ^ bits := by
  rw [Nat.one_shiftLeft, Nat.and_two_pow_sub_one_eq_mod]
  exact Nat.mod_lt _ (Nat.two_pow_pos _)

section Takes

variable (a b : UInt8) (tl : List UInt8)

/-- The field ends before the byte does. -/
theorem takes_within {bits j : ℕ} (hj : 1 ≤ j) (hle : bits + j ≤ 8) :
    Reader.Takes ⟨a :: b :: tl, bits + j⟩ bits := by
  have hlen : ¬ (a :: b :: tl).length < 2 := by simp
  have hmore : ¬ (bits ≥ 8 ∨ bits ≥ bits + j) := by omega
  have hsub : bits + j - bits = j := by omega
  refine ⟨_, ⟨a :: b :: tl, j⟩, ?_, and_mask_lt (a.toNat >>> j) bits, ⟨hj, by simp only; omega⟩,
    ?_, ?_⟩
  · simp only [getBits, hlen, hmore, if_false, List.headD_cons, hsub]
  · rw [bitsOf_mask]
    simp only [Reader.rest, bitsOf_add, List.append_assoc]
  · simp only [Reader.left, List.length_cons]
    omega

/-- The field is what is left of the byte. -/
theorem takes_whole {bl : ℕ} (hle : bl ≤ 8) : Reader.Takes ⟨a :: b :: tl, bl⟩ bl := by
  have hlen : ¬ (a :: b :: tl).length < 2 := by simp
  have hnext : ¬ (bl > 8 ∨ 8 < 8) := by omega
  have hleft : bl + 8 - bl = 8 := by omega
  refine ⟨_, ⟨b :: tl, 8⟩, ?_, and_mask_lt a.toNat bl, ⟨by simp, by simp⟩, ?_, ?_⟩
  · simp only [getBits, hlen, hnext, hleft, ge_iff_le, le_refl, or_true, if_true, if_false,
      Nat.sub_self, Nat.shiftLeft_zero, List.headD_cons, List.tail_cons]
  · rw [bitsOf_mask]
    simp only [Reader.rest, bytesToBits_cons]
  · simp only [Reader.left, List.length_cons]
    omega

/-- The field goes on in the next byte, with its low `k` bits. -/
theorem takes_straddle {bl k : ℕ} (hpos : 1 ≤ bl) (hle : bl ≤ 8) (hk₁ : 1 ≤ k) (hk : k ≤ 8)
    (h₉ : bl + k ≤ 9) : Reader.Takes ⟨a :: b :: tl, bl⟩ (bl + k) := by
  have hb : b.toNat < 2 ^ 8 := b.toNat_lt
  have hlen : ¬ (a :: b :: tl).length < 2 := by simp
  have hge : bl + k ≥ 8 ∨ bl + k ≥ bl := .inr (Nat.le_add_right _ _)
  have hsub : bl + k - bl = k := by omega
  have hbl : bl + 8 - (bl + k) = 8 - k := by omega
  have hnext : bl + k > 8 ∨ 8 - k < 8 := by omega
  have hlt : a.toNat <<< k &&& (1 <<< (bl + k) - 1) ||| b.toNat >>> (8 - k) < 2 ^ (bl + k) := by
    refine Nat.or_lt_two_pow (and_mask_lt _ _) ?_
    rw [Nat.shiftRight_eq_div_pow, Nat.div_lt_iff_lt_mul (Nat.two_pow_pos _), ← Nat.pow_add]
    exact hb.trans_le (Nat.pow_le_pow_right (by omega) (by omega))
  have hsplit : bitsOf 8 b.toNat = bitsOf k (b.toNat >>> (8 - k)) ++ bitsOf (8 - k) b.toNat := by
    rw [← bitsOf_add, Nat.add_sub_cancel' hk]
  unfold Reader.Takes
  simp only [getBits, hlen, hge, hnext, if_true, if_false, hsub, hbl, List.headD_cons,
    List.tail_cons]
  by_cases hend : bl + k > 8 ∧ 8 - k = 0
  · -- all of the next byte, and the cursor goes past it
    obtain rfl : k = 8 := by omega
    refine ⟨_, ⟨tl, 8⟩, by simp only [hend, and_self, if_true], hlt, ⟨by simp, by simp⟩, ?_, ?_⟩
    · rw [bitsOf_straddle _ hk hb, Reader.rest_eight]
      simp [Reader.rest]
    · simp only [Reader.left, List.length_cons]
      omega
  · refine ⟨_, ⟨b :: tl, 8 - k⟩, by simp only [hend, if_false], hlt,
      ⟨by simp only; omega, by simp only; omega⟩, ?_, ?_⟩
    · rw [bitsOf_straddle _ hk hb]
      simp only [Reader.rest, bytesToBits_cons, hsplit, List.append_assoc]
    · simp only [Reader.left, List.length_cons]
      omega

end Takes

/-- **`GET_BITS` takes the next field off the stream**, unless fewer than two bytes are left. -/
theorem getBits_spec {bits : ℕ} {r : Reader} (hr : r.Ok) (h₁ : 1 ≤ bits) (h₉ : bits ≤ 9)
    (hlen : 2 ≤ r.src.length) :
    ∃ data r', getBits bits r = .ok (data, r') ∧ data < 2 ^ bits ∧ r'.Ok ∧
      r.rest = bitsOf bits data ++ r'.rest ∧ r'.left + bits = r.left := by
  obtain ⟨src, bl⟩ := r
  obtain ⟨hpos, hle⟩ := hr
  simp only at hpos hle hlen
  match src, hlen with
  | a :: b :: tl, _ =>
    obtain hlt | rfl | hgt := Nat.lt_trichotomy bits bl
    · obtain ⟨j, rfl⟩ := Nat.exists_eq_add_of_lt hlt
      exact takes_within a b tl (Nat.le_add_left 1 j) hle
    · exact takes_whole a b tl hle
    · obtain ⟨k, rfl⟩ := Nat.exists_eq_add_of_lt hgt
      exact takes_straddle a b tl hpos hle (Nat.le_add_left 1 k) (by omega) h₉

theorem getBits_short {bits : ℕ} {r : Reader} (hlen : r.src.length < 2) :
    getBits bits r = .error .einval := by
  simp [getBits, hlen]

/-- Every read moves the cursor on. -/
theorem getBits_left {bits data : ℕ} {r r' : Reader} (h₁ : 1 ≤ bits)
    (h : getBits bits r = .ok (data, r')) : r'.left < r.left := by
  obtain ⟨src, bl⟩ := r
  by_cases hlen : src.length < 2
  · rw [getBits_short hlen] at h; cases h
  · match src, hlen with
    | a :: b :: tl, hlen =>
      simp only [getBits, hlen, if_false, List.headD_cons, List.tail_cons] at h
      split_ifs at h <;> cases h <;> simp only [Reader.left, List.length_cons] <;> omega

theorem Reader.two_le_length {r : Reader} (hr : r.Ok) (h : 9 ≤ r.rest.length) :
    2 ≤ r.src.length := by
  obtain ⟨src, bl⟩ := r
  have hle := hr.le
  match src with
  | [] => simp [Reader.rest] at h
  | [_] => simp only [Reader.rest, List.length_append, length_bitsOf, bytesToBits_nil,
      List.length_nil] at h hle; omega
  | _ :: _ :: _ => simp

/-- A field at the head of the stream is what `GET_BITS` returns, as long as nine bits are
left. -/
theorem getBits_field {bits n : ℕ} {r : Reader} {xs : List Bool} (hr : r.Ok) (h₁ : 1 ≤ bits)
    (h₉ : bits ≤ 9) (hn : n < 2 ^ bits) (hrest : r.rest = bitsOf bits n ++ xs)
    (hlen : 9 ≤ bits + xs.length) :
    ∃ r', getBits bits r = .ok (n, r') ∧ r'.Ok ∧ r'.rest = xs := by
  have h2 : 2 ≤ r.src.length := Reader.two_le_length hr (by simpa [hrest] using hlen)
  obtain ⟨data, r', hget, hdata, hr', hsplit, -⟩ := getBits_spec hr h₁ h₉ h2
  obtain ⟨rfl, rfl⟩ := bitsOf_append_inj hn hdata (hrest.symm.trans hsplit)
  exact ⟨r', hget, hr', rfl⟩

/-- Conversely, what `GET_BITS` returns was the field at the head of the stream. -/
theorem getBits_ok {bits data : ℕ} {r r' : Reader} (hr : r.Ok) (h₁ : 1 ≤ bits) (h₉ : bits ≤ 9)
    (h : getBits bits r = .ok (data, r')) :
    data < 2 ^ bits ∧ r'.Ok ∧ r.rest = bitsOf bits data ++ r'.rest := by
  by_cases hlen : r.src.length < 2
  · rw [getBits_short hlen] at h; cases h
  · obtain ⟨d, q, hget, hd, hq, hsplit, -⟩ := getBits_spec hr h₁ h₉ (by omega)
    rw [hget] at h
    cases h
    exact ⟨hd, hq, hsplit⟩

/-! ### The decoder -/

/-- The inner loop over the nibbles of a length. -/
def nibbleLoop (length : ℕ) (r : Reader) : Except Err (ℕ × Reader) :=
  match h : getBits 4 r with
  | .error e => .error e
  | .ok (data, r') =>
    if data ≠ 15 then .ok (u16 (length + data), r') else nibbleLoop (u16 (length + 15)) r'
termination_by r.left
decreasing_by exact getBits_left (by omega) h

/-- The length of a match. -/
def getLength (r : Reader) : Except Err (ℕ × Reader) :=
  match getBits 2 r with
  | .error e => .error e
  | .ok (data, r) =>
    if data ≠ 3 then .ok (u16 (data + 2), r)
    else
      match getBits 2 r with
      | .error e => .error e
      | .ok (data, r) => if data ≠ 3 then .ok (u16 (data + 5), r) else nibbleLoop 8 r

/-- The offset of a match whose first nine bits are `data`. -/
def getOffset (data : ℕ) (r : Reader) : Except Err (ℕ × Reader) :=
  let offset := data &&& 0x7f
  if data < 0x180 then
    match getBits 4 r with
    | .error e => .error e
    | .ok (data, r) => .ok (u16 (offset <<< 4 ||| data), r)
  else .ok (offset, r)

/-- The output: the buffer `dst` and the number `outlen` of bytes written to it. -/
structure Out where
  dst : ℕ → UInt8
  outlen : ℕ

/-- `dst[outlen++] = data`. -/
def Out.put (o : Out) (data : UInt8) : Out :=
  ⟨Function.update o.dst o.outlen data, o.outlen + 1⟩

/-- The copy loop of a match. -/
def Out.copy (offset : ℕ) : ℕ → Out → Out
  | 0, o => o
  | length + 1, o => Out.copy offset length (o.put (o.dst (o.outlen - offset)))

theorem nibbleLoop_left {length n : ℕ} {r r' : Reader} (h : nibbleLoop length r = .ok (n, r')) :
    r'.left < r.left := by
  fun_induction nibbleLoop length r with
  | case1 => cases h
  | case2 length r data q hget hne =>
    simp only [Except.ok.injEq, Prod.mk.injEq] at h
    exact h.2 ▸ getBits_left (by omega) hget
  | case3 length r data q hget hne ih => exact (ih h).trans (getBits_left (by omega) hget)

theorem getLength_left {n : ℕ} {r r' : Reader} (h : getLength r = .ok (n, r')) :
    r'.left < r.left := by
  unfold getLength at h
  split at h
  · cases h
  · rename_i data q hq
    have h1 := getBits_left (by omega) hq
    split at h
    · cases h; exact h1
    · split at h
      · cases h
      · rename_i data' q' hq'
        have h2 := getBits_left (by omega) hq'
        split at h
        · cases h; omega
        · exact (nibbleLoop_left h).trans (h2.trans h1)

theorem getOffset_left {data n : ℕ} {r r' : Reader} (h : getOffset data r = .ok (n, r')) :
    r'.left ≤ r.left := by
  unfold getOffset at h
  simp only at h
  split at h
  · split at h
    · cases h
    · rename_i hq; cases h; exact (getBits_left (by omega) hq).le
  · cases h; exact le_rfl

/-- The main loop of `lzs_decompress`, with what it has written so far.  The inner loop over
literals is the same iteration: it starts with the same `GET_BITS(9)`. -/
def decompressLoop (dstlen : ℕ) (r : Reader) (o : Out) : Except Err ℕ × (ℕ → UInt8) :=
  match _h : getBits 9 r with
  | .error e => (.error e, o.dst)
  | .ok (data, r₁) =>
    if data < 0x100 then
      if o.outlen = dstlen then (.error .efbig, o.dst)
      else decompressLoop dstlen r₁ (o.put (UInt8.ofNat data))
    else if data = 0x180 then (.ok o.outlen, o.dst)
    else
      match _h₂ : getOffset data r₁ with
      | .error e => (.error e, o.dst)
      | .ok (offset, r₂) =>
        match _h₃ : getLength r₂ with
        | .error e => (.error e, o.dst)
        | .ok (length, r₃) =>
          if offset > o.outlen then (.error .einval, o.dst)
          -- `length + outlen` is an addition of `int`s
          else if length + o.outlen > intMax then (.error .overflow, o.dst)
          else if length + o.outlen > dstlen then (.error .efbig, o.dst)
          else decompressLoop dstlen r₃ (o.copy offset length)
termination_by r.left
decreasing_by
  · exact getBits_left (by omega) _h
  · exact (getLength_left _h₃).trans_le
      ((getOffset_left _h₂).trans (getBits_left (by omega) _h).le)

/-- `lzs_decompress`: the value returned and the output buffer. -/
def lzsDecompress (dst : ℕ → UInt8) (dstlen : ℕ) (src : List UInt8) :
    Except Err ℕ × (ℕ → UInt8) :=
  decompressLoop dstlen ⟨src, 8⟩ ⟨dst, 0⟩

end Lzs

end Ocserv
