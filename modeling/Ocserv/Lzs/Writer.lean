import Ocserv.Lzs.Decompress

/-!
# `PUT_BITS`

The bit writer of `lzs_compress` and the codes of a match it emits.  `Writes` is the
specification they share: the writer appends a given list of bits, or the buffer is too small
for the bits written so far and these.  `Writes.bind` composes it.
-/

namespace Ocserv

namespace Lzs

/-- The variables `outbits` and `nr_outbits` and the bytes `dst[0..outpos)`. -/
structure Writer where
  outbits : ℕ
  nrOutbits : ℕ
  out : List UInt8
  deriving DecidableEq, Repr

/-- The statements of `PUT_BITS` that move eight bits to `dst`. -/
def flushByte (dstlen : ℕ) (w : Writer) : Except Err Writer :=
  let nrOutbits := w.nrOutbits - 8
  if w.out.length = dstlen then .error .efbig
  else .ok ⟨w.outbits, nrOutbits, w.out ++ [UInt8.ofNat (w.outbits >>> nrOutbits)]⟩

/-- `PUT_BITS(nr, bits)`; `outbits` is a `uint32_t`. -/
def putBits (dstlen nr bits : ℕ) (w : Writer) : Except Err Writer := do
  let w : Writer := ⟨(w.outbits <<< nr ||| bits) % 2 ^ 32, w.nrOutbits + nr, w.out⟩
  let w ← if nr > 8 then flushByte dstlen w else .ok w
  if w.nrOutbits ≥ 8 then flushByte dstlen w else .ok w

/-- The offset of a match. -/
def putOffset (dstlen offset : ℕ) (w : Writer) : Except Err Writer :=
  if offset < 0x80 then putBits dstlen 9 (0x180 ||| offset) w
  else putBits dstlen 13 (0x1000 ||| offset) w

/-- The length of a match from `1111` on, `length` being 7 more than the length. -/
def putLongLength (dstlen length : ℕ) (w : Writer) : Except Err Writer :=
  if length ≥ 30 then do
    let w ← putBits dstlen 8 0xff w
    putLongLength dstlen (length - 30) w
  else if length ≥ 15 then putBits dstlen 8 (0xf0 + length - 15) w
  else putBits dstlen 4 length w
termination_by length

/-- The length of a match. -/
def putLength (dstlen length : ℕ) (w : Writer) : Except Err Writer :=
  if length < 5 then putBits dstlen 2 (length - 2) w
  else if length < 8 then putBits dstlen 4 (length + 7) w
  else putLongLength dstlen (length + 7) w

/-! ### The bits written -/

/-- The bits written so far: those in `dst`, then the pending ones. -/
def Writer.bits (w : Writer) : List Bool := bytesToBits w.out ++ bitsOf w.nrOutbits w.outbits

/-- Fewer than eight bits are pending and `dst` has not overflown. -/
structure Writer.Ok (dstlen : ℕ) (w : Writer) : Prop where
  pending : w.nrOutbits < 8
  fits : w.out.length ≤ dstlen

/-- The result of writing the bits `xs` with the writer `w`. -/
def Writes (dstlen : ℕ) (w : Writer) (xs : List Bool) : Except Err Writer → Prop
  | .ok w' => w'.Ok dstlen ∧ w'.bits = w.bits ++ xs
  | .error e => e = .efbig ∧ 8 * dstlen + 8 ≤ w.bits.length + xs.length

theorem Writes.bind {dstlen : ℕ} {w : Writer} {xs ys : List Bool} {res : Except Err Writer}
    {f : Writer → Except Err Writer} (h : Writes dstlen w xs res)
    (hf : ∀ w', w'.Ok dstlen → Writes dstlen w' ys (f w')) :
    Writes dstlen w (xs ++ ys) (res >>= f) := by
  cases res with
  | error e => exact ⟨h.1, by rw [List.length_append]; have := h.2; omega⟩
  | ok w' =>
    obtain ⟨hok, hbits⟩ := h
    have hw' := hf w' hok
    change Writes dstlen w (xs ++ ys) (f w')
    cases hres : f w' with
    | error e =>
      rw [hres] at hw'
      refine ⟨hw'.1, ?_⟩
      have := hw'.2
      rw [hbits, List.length_append] at this
      rw [List.length_append]
      omega
    | ok w'' =>
      rw [hres] at hw'
      exact ⟨hw'.1, by rw [hw'.2, hbits, List.append_assoc]⟩

theorem length_bits (w : Writer) : w.bits.length = 8 * w.out.length + w.nrOutbits := by
  simp [Writer.bits]

/-- Moving eight bits to `dst` changes none of the bits written. -/
theorem flushByte_spec (dstlen : ℕ) {w : Writer} (hn : 8 ≤ w.nrOutbits)
    (hfit : w.out.length ≤ dstlen) :
    (∃ w', flushByte dstlen w = .ok w' ∧ w'.bits = w.bits ∧ w'.nrOutbits = w.nrOutbits - 8 ∧
      w'.out.length ≤ dstlen) ∨
    (flushByte dstlen w = .error .efbig ∧ 8 * dstlen + 8 ≤ w.bits.length) := by
  simp only [flushByte]
  split
  · exact .inr ⟨rfl, by rw [length_bits]; omega⟩
  · have hsplit : bitsOf w.nrOutbits w.outbits =
        bitsOf 8 (w.outbits >>> (w.nrOutbits - 8)) ++ bitsOf (w.nrOutbits - 8) w.outbits := by
      rw [← bitsOf_add, Nat.add_sub_cancel' hn]
    refine .inl ⟨_, rfl, ?_, rfl, by simp only [List.length_append, List.length_singleton]; omega⟩
    rw [Writer.bits, Writer.bits, hsplit, bytesToBits_append, bytesToBits_cons, bytesToBits_nil,
      UInt8.toNat_ofNat', bitsOf_mod, List.append_nil, List.append_assoc]

/-- The second flush of `PUT_BITS`, on a writer with at most fifteen pending bits. -/
theorem flush_writes {dstlen : ℕ} {w w₁ : Writer} {xs : List Bool} (hbits : w₁.bits = w.bits ++ xs)
    (hn : w₁.nrOutbits < 16) (hfit : w₁.out.length ≤ dstlen) :
    Writes dstlen w xs (if w₁.nrOutbits ≥ 8 then flushByte dstlen w₁ else .ok w₁) := by
  split
  · rename_i h8
    rcases flushByte_spec dstlen h8 hfit with ⟨w', hf, hb, hn', hfit'⟩ | ⟨hf, hlen⟩
    · rw [hf]
      exact ⟨⟨by omega, hfit'⟩, hb.trans hbits⟩
    · rw [hf]
      exact ⟨rfl, by rwa [hbits, List.length_append] at hlen⟩
  · exact ⟨⟨by omega, hfit⟩, hbits⟩

/-- **`PUT_BITS` appends a field.** -/
theorem putBits_writes {dstlen nr bits : ℕ} {w : Writer} (hw : w.Ok dstlen) (hnr : nr ≤ 16)
    (hbits : bits < 2 ^ nr) : Writes dstlen w (bitsOf nr bits) (putBits dstlen nr bits w) := by
  obtain ⟨hpend, hfit⟩ := hw
  have hhi : bitsOf w.nrOutbits (((w.outbits <<< nr ||| bits) % 2 ^ 32) >>> nr) =
      bitsOf w.nrOutbits w.outbits := bitsOf_congr fun i hi => by
    have hz : bits.testBit (nr + i) = false :=
      Nat.testBit_lt_two_pow (hbits.trans_le (Nat.pow_le_pow_right (by omega) (by omega)))
    rw [Nat.testBit_shiftRight, Nat.testBit_mod_two_pow, Nat.testBit_or, Nat.testBit_shiftLeft, hz]
    simp [show nr + i < 32 by omega]
  have hlo : bitsOf nr ((w.outbits <<< nr ||| bits) % 2 ^ 32) = bitsOf nr bits :=
    bitsOf_congr fun i hi => by
      rw [Nat.testBit_mod_two_pow, Nat.testBit_or, Nat.testBit_shiftLeft]
      simp [show i < 32 by omega, show ¬ nr ≤ i by omega]
  have hbits₁ : Writer.bits ⟨(w.outbits <<< nr ||| bits) % 2 ^ 32, w.nrOutbits + nr, w.out⟩ =
      w.bits ++ bitsOf nr bits := by
    rw [Writer.bits, bitsOf_add, hhi, hlo, ← List.append_assoc, Writer.bits]
  simp only [putBits]
  by_cases h8 : nr > 8
  · rw [if_pos h8]
    rcases flushByte_spec dstlen
      (w := ⟨(w.outbits <<< nr ||| bits) % 2 ^ 32, w.nrOutbits + nr, w.out⟩)
      (by simp only; omega) hfit with ⟨w', hf, hb, hn', hfit'⟩ | ⟨hf, hlen⟩
    · rw [hf]
      exact flush_writes (hb.trans hbits₁) (by rw [hn']; simp only; omega) hfit'
    · rw [hf]
      exact ⟨rfl, by rwa [hbits₁, List.length_append] at hlen⟩
  · rw [if_neg h8]
    exact flush_writes hbits₁ (by simp only; omega) hfit

/-! ### The codes of a match -/

theorem or_eq_add {a b : ℕ} (i : ℕ) (hb : b < 2 ^ i) : a <<< i ||| b = a * 2 ^ i + b := by
  rw [← Nat.shiftLeft_add_eq_or_of_lt hb, Nat.shiftLeft_eq]

theorem putOffset_writes {dstlen offset : ℕ} {w : Writer} (hw : w.Ok dstlen)
    (ho : offset < 0x800) :
    Writes dstlen w (offsetBits (decide (0x80 ≤ offset)) offset) (putOffset dstlen offset w) := by
  unfold putOffset
  split
  · rw [offsetBits, if_neg (by simpa using ‹offset < 0x80›),
      show 0x180 ||| offset = 0x180 + offset from or_eq_add (a := 3) 7 ‹_›]
    exact putBits_writes hw (by omega) (by omega)
  · rw [offsetBits, if_pos (by simpa using ‹¬ offset < 0x80›),
      show 0x1000 ||| offset = 0x1000 + offset from or_eq_add (a := 2) 11 ho]
    exact putBits_writes hw (by omega) (by omega)

theorem putLongLength_writes {dstlen length : ℕ} {w : Writer} (hw : w.Ok dstlen) :
    Writes dstlen w (nibbleBits length) (putLongLength dstlen length w) := by
  fun_induction putLongLength dstlen length w with
  | case1 length w hge ih =>
    rw [nibbleBits, if_neg (by omega), nibbleBits, if_neg (by omega), ← List.append_assoc,
      Nat.sub_sub]
    exact (putBits_writes hw (by omega) (by omega)).bind fun w' hw' => ih w' hw'
  | case2 length w hlt hge =>
    have hsplit : bitsOf 8 (0xf0 + length - 15) = bitsOf 4 15 ++ bitsOf 4 (length - 15) := by
      rw [show 8 = 4 + 4 from rfl, bitsOf_add, Nat.shiftRight_eq_div_pow,
        ← bitsOf_mod 4 (0xf0 + length - 15), show (0xf0 + length - 15) / 2 ^ 4 = 15 by omega,
        show (0xf0 + length - 15) % 2 ^ 4 = length - 15 by omega]
    rw [nibbleBits, if_neg (by omega), nibbleBits, if_pos (by omega), ← hsplit]
    exact putBits_writes hw (by omega) (by omega)
  | case3 length w hlt hlt' =>
    rw [nibbleBits, if_pos (by omega)]
    exact putBits_writes hw (by omega) (by omega)

theorem putLength_writes {dstlen length : ℕ} {w : Writer} (hw : w.Ok dstlen) (hl : 2 ≤ length) :
    Writes dstlen w (lengthBits length) (putLength dstlen length w) := by
  unfold putLength lengthBits
  split
  · exact putBits_writes hw (by omega) (by omega)
  · split
    · have hsplit : bitsOf 4 (length + 7) = bitsOf 2 3 ++ bitsOf 2 (length - 5) := by
        rw [show 4 = 2 + 2 from rfl, bitsOf_add, Nat.shiftRight_eq_div_pow,
          ← bitsOf_mod 2 (length + 7), show (length + 7) / 2 ^ 2 = 3 by omega,
          show (length + 7) % 2 ^ 2 = length - 5 by omega]
      rw [← hsplit]
      exact putBits_writes hw (by omega) (by omega)
    · have hnib : bitsOf 2 3 ++ bitsOf 2 3 ++ nibbleBits (length - 8) =
          nibbleBits (length + 7) := by
        rw [nibbleBits.eq_def (length + 7), if_neg (by omega),
          show length + 7 - 15 = length - 8 by omega]
        rfl
      rw [hnib]
      exact putLongLength_writes hw

end Lzs

end Ocserv
