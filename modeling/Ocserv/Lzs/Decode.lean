import Ocserv.Lzs.Decompress

/-!
# `lzs_decompress` against the format

On a stream that encodes tokens and the end marker the decoder does to its buffer what `exec`
does, one token after the other, whatever follows the end marker (`decompressLoop_tokens`);
conversely a run that succeeds has read an end marker at a token boundary
(`exists_tokens_of_ok`).  `exec` differs from the meaning `expand` of the tokens in one point:
the length of a match is a `uint16_t`.
-/

namespace Ocserv

namespace Lzs

/-! ### Reading one token -/

theorem u16_u16_add (a b : ℕ) : u16 (u16 a + b) = u16 (a + b) := by
  simp [u16]

theorem nibbleLoop_bits (n length : ℕ) {r : Reader} {xs : List Bool} (hr : r.Ok)
    (hrest : r.rest = nibbleBits n ++ xs) (hxs : 9 ≤ xs.length) :
    ∃ r', nibbleLoop length r = .ok (u16 (length + n), r') ∧ r'.Ok ∧ r'.rest = xs := by
  induction n using Nat.strong_induction_on generalizing length r with
  | _ n ih =>
    rw [nibbleBits] at hrest
    split at hrest
    · rename_i hn
      obtain ⟨r', hget, hr', hx⟩ := getBits_field hr (by omega) (by omega) (by omega) hrest
        (by omega)
      refine ⟨r', ?_, hr', hx⟩
      rw [nibbleLoop, hget]
      simp [show n ≠ 15 by omega]
    · rename_i hn
      rw [List.append_assoc] at hrest
      obtain ⟨r', hget, hr', hx⟩ := getBits_field hr (by omega) (by omega) (by omega) hrest
        (by simp; omega)
      obtain ⟨r'', hloop, hr'', hx'⟩ := ih (n - 15) (by omega) (u16 (length + 15)) hr' hx
      refine ⟨r'', ?_, hr'', hx'⟩
      rw [nibbleLoop, hget]
      simp only [ne_eq, not_true_eq_false, if_false, hloop, u16_u16_add]
      rw [Nat.add_assoc, Nat.add_sub_cancel' (by omega)]

theorem getLength_bits {length : ℕ} (hl : 2 ≤ length) {r : Reader} {xs : List Bool} (hr : r.Ok)
    (hrest : r.rest = lengthBits length ++ xs) (hxs : 9 ≤ xs.length) :
    ∃ r', getLength r = .ok (u16 length, r') ∧ r'.Ok ∧ r'.rest = xs := by
  unfold lengthBits at hrest
  split at hrest
  · obtain ⟨r', hget, hr', hx⟩ := getBits_field hr (by omega) (by omega) (by omega) hrest
      (by omega)
    refine ⟨r', ?_, hr', hx⟩
    simp [getLength, hget, show length - 2 ≠ 3 by omega, Nat.sub_add_cancel hl]
  · split at hrest
    · rw [List.append_assoc] at hrest
      obtain ⟨r₁, hget₁, hr₁, hx₁⟩ := getBits_field hr (by omega) (by omega) (by omega) hrest
        (by simp; omega)
      obtain ⟨r', hget, hr', hx⟩ := getBits_field hr₁ (by omega) (by omega) (by omega) hx₁
        (by omega)
      refine ⟨r', ?_, hr', hx⟩
      simp [getLength, hget₁, hget, show length - 5 ≠ 3 by omega,
        show length - 5 + 5 = length by omega]
    · rw [List.append_assoc, List.append_assoc] at hrest
      obtain ⟨r₁, hget₁, hr₁, hx₁⟩ := getBits_field hr (by omega) (by omega) (by omega) hrest
        (by simp; omega)
      obtain ⟨r₂, hget₂, hr₂, hx₂⟩ := getBits_field hr₁ (by omega) (by omega) (by omega) hx₁
        (by simp; omega)
      obtain ⟨r', hloop, hr', hx⟩ := nibbleLoop_bits (length - 8) 8 hr₂ hx₂ hxs
      refine ⟨r', ?_, hr', hx⟩
      simp [getLength, hget₁, hget₂, hloop, show 8 + (length - 8) = length by omega]

theorem and_0x7f (n : ℕ) : n &&& 0x7f = n % 128 := Nat.and_two_pow_sub_one_eq_mod n 7

/-- The nine bits that start a match, and its offset. -/
theorem getOffset_bits {long : Bool} {offset : ℕ}
    (ho : if long then offset < 0x800 else 0 < offset ∧ offset < 0x80) {r : Reader}
    {xs : List Bool} (hr : r.Ok) (hrest : r.rest = offsetBits long offset ++ xs)
    (hxs : 9 ≤ xs.length) :
    ∃ data r₁ r₂, getBits 9 r = .ok (data, r₁) ∧ 0x100 ≤ data ∧ data ≠ 0x180 ∧
      getOffset data r₁ = .ok (offset, r₂) ∧ r₂.Ok ∧ r₂.rest = xs := by
  cases long with
  | false =>
    simp only [Bool.false_eq_true, if_false] at ho
    simp only [offsetBits, Bool.false_eq_true, if_false] at hrest
    obtain ⟨r₁, hget, hr₁, hx⟩ := getBits_field hr (by omega) (by omega) (by omega) hrest (by omega)
    refine ⟨_, r₁, r₁, hget, by omega, by omega, ?_, hr₁, hx⟩
    simp only [getOffset, and_0x7f, show ¬ 0x180 + offset < 0x180 by omega, if_false]
    rw [show (0x180 + offset) % 128 = offset by omega]
  | true =>
    simp only [if_true] at ho
    simp only [offsetBits, if_true] at hrest
    rw [show 13 = 9 + 4 from rfl, bitsOf_add, ← bitsOf_mod 4, List.append_assoc] at hrest
    simp only [Nat.shiftRight_eq_div_pow] at hrest
    obtain ⟨r₁, hget₁, hr₁, hx₁⟩ := getBits_field hr (by omega) (by omega) (by omega) hrest
      (by simp)
    obtain ⟨r₂, hget₂, hr₂, hx₂⟩ := getBits_field hr₁ (by omega) (by omega) (by omega) hx₁
      (by omega)
    refine ⟨_, r₁, r₂, hget₁, by omega, by omega, ?_, hr₂, hx₂⟩
    simp only [getOffset, and_0x7f, hget₂, show (0x1000 + offset) / 2 ^ 4 < 0x180 by omega, if_true]
    have hhi : (0x1000 + offset) / 2 ^ 4 % 128 = offset / 16 := by omega
    have hlo : (0x1000 + offset) % 2 ^ 4 = offset % 16 := by omega
    rw [hhi, hlo, ← Nat.shiftLeft_add_eq_or_of_lt (show offset % 16 < 2 ^ 4 by omega),
      Nat.shiftLeft_eq, u16, show offset / 16 * 2 ^ 4 + offset % 16 = offset by omega,
      Nat.mod_eq_of_lt (by omega)]

/-! ### A run over tokens -/

/-- What the decoder does, token by token. -/
def exec (dstlen : ℕ) : Out → List Token → Except Err ℕ × (ℕ → UInt8)
  | o, [] => (.ok o.outlen, o.dst)
  | o, .lit b :: ts =>
    if o.outlen = dstlen then (.error .efbig, o.dst) else exec dstlen (o.put b) ts
  | o, .mtch _ offset length :: ts =>
    if offset > o.outlen then (.error .einval, o.dst)
    else if u16 length + o.outlen > intMax then (.error .overflow, o.dst)
    else if u16 length + o.outlen > dstlen then (.error .efbig, o.dst)
    else exec dstlen (o.copy offset (u16 length)) ts

/-- **The decoder on an encoding.**  On the encoding of well-formed tokens and the end marker the
main loop does what `exec` does, whatever follows. -/
theorem decompressLoop_tokens (dstlen : ℕ) {ts : List Token} (hts : ∀ t ∈ ts, t.Wf) {r : Reader}
    (hr : r.Ok) {tail : List Bool} (hrest : r.rest = tokenBits ts ++ (endMarker ++ tail))
    (o : Out) : decompressLoop dstlen r o = exec dstlen o ts := by
  have hend : ∀ us : List Token, 9 ≤ (tokenBits us ++ (endMarker ++ tail)).length := by
    intro us; simp [endMarker]; omega
  induction ts generalizing r o with
  | nil =>
    obtain ⟨r', hget, -, -⟩ := getBits_field hr (by omega) (by omega) (by omega) hrest (by omega)
    rw [decompressLoop, hget]
    simp [exec]
  | cons t ts ih =>
    have hts' : ∀ t ∈ ts, t.Wf := fun t h => hts t (List.mem_cons_of_mem _ h)
    rw [tokenBits_cons, List.append_assoc] at hrest
    cases t with
    | lit b =>
      have hb : b.toNat < 256 := b.toNat_lt
      obtain ⟨r', hget, hr', hx⟩ := getBits_field hr (by omega) (by omega) (by omega) hrest
        (by omega)
      rw [decompressLoop, hget]
      simp only [hb, if_true, exec, UInt8.ofNat_toNat]
      split
      · rfl
      · exact ih hts' hr' hx _
    | mtch long offset length =>
      obtain ⟨ho, hl⟩ := hts _ List.mem_cons_self
      rw [Token.bits, List.append_assoc] at hrest
      obtain ⟨data, r₁, r₂, hget, hge, hne, hoff, hr₂, hx₂⟩ := getOffset_bits ho hr hrest
        (by rw [List.length_append]; exact (hend ts).trans (Nat.le_add_left _ _))
      obtain ⟨r₃, hlen, hr₃, hx₃⟩ := getLength_bits hl hr₂ hx₂ (hend ts)
      rw [decompressLoop, hget]
      simp only [show ¬ data < 0x100 by omega, hne, if_false]
      rw [hoff]
      simp only
      rw [hlen]
      simp only [exec]
      split
      · rfl
      · split
        · rfl
        · split
          · rfl
          · exact ih hts' hr₃ hx₃ _

/-! ### What a successful run has read -/

theorem nibbleLoop_ok {length m : ℕ} {r r' : Reader} (hr : r.Ok)
    (h : nibbleLoop length r = .ok (m, r')) : r'.Ok ∧ ∃ n, r.rest = nibbleBits n ++ r'.rest := by
  fun_induction nibbleLoop length r with
  | case1 => cases h
  | case2 length r data q hget hne =>
    obtain ⟨hdata, hq, hsplit⟩ := getBits_ok hr (by omega) (by omega) hget
    cases h
    refine ⟨hq, data, ?_⟩
    rw [nibbleBits, if_pos (by omega)]
    exact hsplit
  | case3 length r data q hget hne ih =>
    obtain ⟨-, hq, hsplit⟩ := getBits_ok hr (by omega) (by omega) hget
    obtain ⟨hr', n, hn⟩ := ih hq h
    obtain rfl : data = 15 := not_not.1 hne
    refine ⟨hr', n + 15, ?_⟩
    rw [nibbleBits, if_neg (by omega), Nat.add_sub_cancel, List.append_assoc, ← hn]
    exact hsplit

theorem getLength_ok {m : ℕ} {r r' : Reader} (hr : r.Ok) (h : getLength r = .ok (m, r')) :
    r'.Ok ∧ ∃ length, 2 ≤ length ∧ r.rest = lengthBits length ++ r'.rest := by
  unfold getLength at h
  split at h
  · cases h
  · rename_i data q hget
    obtain ⟨hdata, hq, hsplit⟩ := getBits_ok hr (by omega) (by omega) hget
    split at h
    · cases h
      refine ⟨hq, data + 2, by omega, ?_⟩
      rw [lengthBits, if_pos (by omega), Nat.add_sub_cancel]
      exact hsplit
    · obtain rfl : data = 3 := by omega
      split at h
      · cases h
      · rename_i data' q' hget'
        obtain ⟨hdata', hq', hsplit'⟩ := getBits_ok hq (by omega) (by omega) hget'
        split at h
        · cases h
          refine ⟨hq', data' + 5, by omega, ?_⟩
          rw [lengthBits, if_neg (by omega), if_pos (by omega), Nat.add_sub_cancel,
            List.append_assoc, ← hsplit']
          exact hsplit
        · obtain rfl : data' = 3 := by omega
          obtain ⟨hr', n, hn⟩ := nibbleLoop_ok hq' h
          refine ⟨hr', n + 8, by omega, ?_⟩
          rw [lengthBits, if_neg (by omega), if_neg (by omega), Nat.add_sub_cancel,
            List.append_assoc, List.append_assoc, ← hn, ← hsplit']
          exact hsplit

theorem getOffset_ok {data offset : ℕ} {r r₁ r₂ : Reader} (hr : r.Ok)
    (hget : getBits 9 r = .ok (data, r₁)) (hge : 0x100 ≤ data) (hne : data ≠ 0x180)
    (h : getOffset data r₁ = .ok (offset, r₂)) :
    r₂.Ok ∧ ∃ long, (if long then offset < 0x800 else 0 < offset ∧ offset < 0x80) ∧
      r.rest = offsetBits long offset ++ r₂.rest := by
  obtain ⟨hdata, hr₁, hsplit⟩ := getBits_ok hr (by omega) (by omega) hget
  unfold getOffset at h
  simp only [and_0x7f] at h
  split at h
  · rename_i hlt
    split at h
    · cases h
    · rename_i lo q hget'
      obtain ⟨hlo, hq, hsplit'⟩ := getBits_ok hr₁ (by omega) (by omega) hget'
      cases h
      have hoff : u16 ((data % 128) <<< 4 ||| lo) = (data - 0x100) * 16 + lo := by
        rw [← Nat.shiftLeft_add_eq_or_of_lt hlo, Nat.shiftLeft_eq, u16]
        omega
      refine ⟨hq, true, by rw [hoff]; simp only [if_true]; omega, ?_⟩
      rw [hoff, offsetBits, if_pos rfl, show 13 = 9 + 4 from rfl, bitsOf_add,
        Nat.shiftRight_eq_div_pow, ← bitsOf_mod 4,
        show (0x1000 + ((data - 0x100) * 16 + lo)) / 2 ^ 4 = data by omega,
        show (0x1000 + ((data - 0x100) * 16 + lo)) % 2 ^ 4 = lo by omega, List.append_assoc,
        ← hsplit']
      exact hsplit
  · cases h
    refine ⟨hr₁, false, by simp only [Bool.false_eq_true, if_false]; omega, ?_⟩
    rw [offsetBits, if_neg (by simp), show 0x180 + data % 128 = data by omega]
    exact hsplit

/-- **A run that succeeds has read an end marker** at the end of a sequence of well-formed
tokens. -/
theorem exists_tokens_of_ok {dstlen n : ℕ} {r : Reader} {o : Out} {m : ℕ → UInt8} (hr : r.Ok)
    (h : decompressLoop dstlen r o = (.ok n, m)) :
    ∃ ts tail, (∀ t ∈ ts, t.Wf) ∧ r.rest = tokenBits ts ++ (endMarker ++ tail) := by
  fun_induction decompressLoop dstlen r o with
  | case1 => cases h
  | case2 => cases h
  | case3 r o data r₁ hget hlt hne ih =>
    obtain ⟨-, hr₁, hsplit⟩ := getBits_ok hr (by omega) (by omega) hget
    obtain ⟨ts, tail, hwf, hrest⟩ := ih hr₁ h
    refine ⟨.lit (UInt8.ofNat data) :: ts, tail, by simpa [Token.Wf] using hwf, ?_⟩
    rw [tokenBits_cons, List.append_assoc, ← hrest, Token.bits, UInt8.toNat_ofNat',
      Nat.mod_eq_of_lt hlt]
    exact hsplit
  | case4 r o r₁ hget hge =>
    obtain ⟨-, -, hsplit⟩ := getBits_ok hr (by omega) (by omega) hget
    exact ⟨[], r₁.rest, by simp, by rw [hsplit]; rfl⟩
  | case5 => cases h
  | case6 => cases h
  | case7 => cases h
  | case8 => cases h
  | case9 => cases h
  | case10 r o data r₁ hget hge hne offset r₂ hoff length r₃ hlen _ _ _ ih =>
    obtain ⟨hr₂, long, ho, hsplit⟩ := getOffset_ok hr hget (by omega) hne hoff
    obtain ⟨hr₃, len, hl, hsplit'⟩ := getLength_ok hr₂ hlen
    obtain ⟨ts, tail, hwf, hrest⟩ := ih hr₃ h
    refine ⟨.mtch long offset len :: ts, tail, ?_, ?_⟩
    · simp only [List.mem_cons, forall_eq_or_imp]
      exact ⟨⟨ho, hl⟩, hwf⟩
    · rw [tokenBits_cons, Token.bits, List.append_assoc, List.append_assoc, ← hrest, ← hsplit']
      exact hsplit

end Lzs

end Ocserv
