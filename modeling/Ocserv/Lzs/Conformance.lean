import Ocserv.Lzs.Decode

/-!
# What `lzs_decompress` computes of a valid stream

A valid stream stands for the bytes `expand [] ts`; the decoder should return them if they fit
the buffer and `-EFBIG` if they do not (`Decodes`).  It does so while the lengths of the matches
fit the `uint16_t` they are accumulated in (`exec_decodes`), and only then
(`exec_ne_efbig`): the length of a longer match is taken modulo `2 ^ 16`.
-/

namespace Ocserv

namespace Lzs

/-! ### The output buffer -/

/-- The bytes written so far are `out`. -/
structure Out.Holds (o : Out) (out : List UInt8) : Prop where
  outlen_eq : o.outlen = out.length
  dst_eq : ∀ i < out.length, o.dst i = out.getD i 0

theorem Out.Holds.nil (dst : ℕ → UInt8) : Out.Holds ⟨dst, 0⟩ [] :=
  ⟨rfl, by simp⟩

theorem Out.Holds.put {o : Out} {out : List UInt8} (h : o.Holds out) (b : UInt8) :
    (o.put b).Holds (out ++ [b]) := by
  obtain ⟨hlen, hdst⟩ := h
  refine ⟨by simp [Out.put, hlen], ?_⟩
  intro i hi
  rw [List.length_append, List.length_singleton] at hi
  simp only [Out.put]
  rcases Nat.lt_or_eq_of_le (Nat.le_of_lt_succ hi) with hlt | rfl
  · rw [Function.update_of_ne (by omega), hdst i hlt, List.getD_append _ _ _ _ hlt]
  · rw [hlen, Function.update_self, List.getD_append_right _ _ _ _ le_rfl]
    simp

theorem Out.Holds.copy {offset : ℕ} (h₁ : 1 ≤ offset) (n : ℕ) {o : Out} {out : List UInt8}
    (h : o.Holds out) (h₂ : offset ≤ out.length) :
    (o.copy offset n).Holds (copyBack offset n out) := by
  induction n generalizing o out with
  | zero => exact h
  | succ n ih =>
    have hb : o.dst (o.outlen - offset) = out.getD (out.length - offset) 0 := by
      rw [h.outlen_eq, h.dst_eq _ (by omega)]
    rw [Out.copy, copyBack, hb]
    exact ih (h.put _) (by rw [List.length_append]; omega)

@[simp] theorem Out.outlen_copy (offset n : ℕ) (o : Out) :
    (o.copy offset n).outlen = o.outlen + n := by
  induction n generalizing o with
  | zero => rfl
  | succ n ih => rw [Out.copy, ih, Out.put, Nat.add_assoc, Nat.add_comm 1]

/-! ### The specification -/

/-- The result of decoding into a buffer of `dstlen` bytes a stream that stands for `out`. -/
def Decodes (res : Except Err ℕ × (ℕ → UInt8)) (dstlen : ℕ) (out : List UInt8) : Prop :=
  if out.length ≤ dstlen then
    res.1 = .ok out.length ∧ ∀ i < out.length, res.2 i = out.getD i 0
  else res.1 = .error .efbig

/-- The length of every match fits a `uint16_t`. -/
def WordLengths (ts : List Token) : Prop :=
  ∀ long offset length, Token.mtch long offset length ∈ ts → length < 2 ^ 16

theorem WordLengths.tail {t : Token} {ts : List Token} (h : WordLengths (t :: ts)) :
    WordLengths ts :=
  fun long offset length hm => h long offset length (List.mem_cons_of_mem _ hm)

/-- The number of bytes the decoder writes for a token. -/
def Token.size16 : Token → ℕ
  | lit _ => 1
  | mtch _ _ length => u16 length

/-- The decoder writes byte number `intMax` before a literal, if `n` bytes are written. -/
def FullAtLit : ℕ → List Token → Prop
  | _, [] => False
  | n, .lit _ :: ts => n = intMax ∨ FullAtLit (n + 1) ts
  | n, .mtch _ offset length :: ts =>
    offset ≤ n ∧ u16 length + n ≤ intMax ∧ FullAtLit (n + u16 length) ts

/-- The streams that are decoded as they should be into every buffer: the lengths fit a
`uint16_t`; if the expansion is longer than any buffer, a literal is the token that does not
fit. -/
def DecodedRight (ts : List Token) : Prop :=
  if (expand [] ts).length ≤ intMax then WordLengths ts else FullAtLit 0 ts

theorem exec_decodes {dstlen : ℕ} {ts : List Token} {o : Out} {out : List UInt8}
    (ho : o.Holds out) (hv : Valid out.length ts) (hw : WordLengths ts)
    (hint : (expand out ts).length ≤ intMax) (hfit : out.length ≤ dstlen) :
    Decodes (exec dstlen o ts) dstlen (expand out ts) := by
  induction ts generalizing o out with
  | nil =>
    rw [expand_nil, exec, Decodes, if_pos hfit, ho.outlen_eq]
    exact ⟨rfl, ho.dst_eq⟩
  | cons t ts ih =>
    have hlen := length_expand out (t :: ts)
    rw [List.map_cons, List.sum_cons] at hlen
    rw [expand_cons] at hint hlen
    cases t with
    | lit b =>
      simp only [exec, ho.outlen_eq, Token.size] at hlen ⊢
      split
      · rw [expand_cons, Decodes, if_neg (by omega)]
      · refine ih (ho.put b) ?_ hw.tail hint ?_
        · rw [Token.length_apply]; exact hv.2
        · rw [Token.length_apply, Token.size]; omega
    | mtch long offset length =>
      obtain ⟨⟨-, h₁, h₂⟩, hv⟩ := hv
      have hl : u16 length = length :=
        Nat.mod_eq_of_lt (hw long offset length List.mem_cons_self)
      simp only [exec, ho.outlen_eq, hl, Token.size] at hlen ⊢
      rw [if_neg (by omega), if_neg (by omega)]
      split
      · rw [expand_cons, Decodes, if_neg (by omega)]
      · refine ih (ho.copy h₁ length h₂) ?_ hw.tail hint ?_
        · rw [Token.length_apply]; exact hv
        · rw [Token.length_apply, Token.size]; omega

/-- The buffer that holds what the decoder writes is never too small. -/
theorem exec_ne_efbig {dstlen : ℕ} {ts : List Token} {o : Out}
    (h : o.outlen + (ts.map Token.size16).sum ≤ dstlen) :
    (exec dstlen o ts).1 ≠ .error .efbig := by
  induction ts generalizing o with
  | nil => simp [exec]
  | cons t ts ih =>
    rw [List.map_cons, List.sum_cons] at h
    cases t with
    | lit b =>
      rw [Token.size16] at h
      rw [exec, if_neg (by omega)]
      exact ih (by rw [Out.put]; simp only; omega)
    | mtch long offset length =>
      rw [Token.size16] at h
      simp only [exec]
      split
      · simp
      · split
        · simp
        · rw [if_neg (by omega)]
          exact ih (by rw [Out.outlen_copy]; omega)

theorem sum_size16_le (ts : List Token) :
    (ts.map Token.size16).sum ≤ (ts.map Token.size).sum := by
  induction ts with
  | nil => simp
  | cons t ts ih =>
    have : t.size16 ≤ t.size := by
      cases t with
      | lit b => exact le_rfl
      | mtch long offset length => exact Nat.mod_le _ _
    simp only [List.map_cons, List.sum_cons]
    omega

theorem sum_size16_lt {ts : List Token} (h : ¬ WordLengths ts) :
    (ts.map Token.size16).sum < (ts.map Token.size).sum := by
  induction ts with
  | nil => exact absurd (by simp [WordLengths]) h
  | cons t ts ih =>
    have hle := sum_size16_le ts
    simp only [List.map_cons, List.sum_cons]
    cases t with
    | lit b =>
      have := ih fun hw => h (by simpa [WordLengths] using hw)
      simp only [Token.size16, Token.size]
      omega
    | mtch long offset length =>
      simp only [Token.size16, Token.size]
      have hmod : u16 length ≤ length := Nat.mod_le _ _
      by_cases hl : length < 2 ^ 16
      · have := ih fun hw => h fun long' offset' length' hm => by
          rcases List.mem_cons.1 hm with heq | hm
          · cases heq; exact hl
          · exact hw _ _ _ hm
        omega
      · have : u16 length < length := (Nat.mod_lt _ (by omega)).trans_le (by omega)
        omega

/-- A stream that is reported too big for the largest buffer crosses `intMax` with a literal. -/
theorem fullAtLit_of_exec {ts : List Token} {o : Out} (hn : o.outlen ≤ intMax)
    (h : (exec intMax o ts).1 = .error .efbig) : FullAtLit o.outlen ts := by
  induction ts generalizing o with
  | nil => simp [exec] at h
  | cons t ts ih =>
    cases t with
    | lit b =>
      rw [exec] at h
      split at h
      · exact .inl ‹_›
      · exact .inr (ih (o := o.put b) (by rw [Out.put]; simp only; omega) h)
    | mtch long offset length =>
      simp only [exec] at h
      split at h
      · simp at h
      · split at h
        · simp at h
        · have := ih (o := o.copy offset (u16 length)) (by rw [Out.outlen_copy]; omega) h
          rw [Out.outlen_copy] at this
          exact ⟨by omega, by omega, this⟩

/-- Conversely it is then reported too big for every buffer. -/
theorem exec_efbig {ts : List Token} {o : Out} (h : FullAtLit o.outlen ts) {dstlen : ℕ}
    (hle : o.outlen ≤ dstlen) (hint : dstlen ≤ intMax) :
    (exec dstlen o ts).1 = .error .efbig := by
  induction ts generalizing o with
  | nil => exact h.elim
  | cons t ts ih =>
    cases t with
    | lit b =>
      rw [exec]
      split
      · rfl
      · rcases h with h | h
        · omega
        · exact ih (o := o.put b) h (by rw [Out.put]; simp only; omega)
    | mtch long offset length =>
      obtain ⟨ho, hov, h⟩ := h
      simp only [exec]
      rw [if_neg (by omega), if_neg (by omega)]
      split
      · rfl
      · rw [← Nat.add_comm, Nat.add_comm, ← Out.outlen_copy offset] at h
        exact ih h (by rw [Out.outlen_copy]; omega)

/-! ### The decoder and the specification -/

/-- On the encoding of tokens `lzs_decompress` does what `exec` does. -/
theorem lzsDecompress_wf {ts : List Token} (hts : ∀ t ∈ ts, t.Wf) {src : List UInt8}
    {tail : List Bool} (hsrc : bytesToBits src = tokenBits ts ++ (endMarker ++ tail))
    (dst : ℕ → UInt8) (dstlen : ℕ) :
    lzsDecompress dst dstlen src = exec dstlen ⟨dst, 0⟩ ts :=
  decompressLoop_tokens dstlen hts ⟨by simp, by simp⟩ (by rw [Reader.rest_eight, hsrc]) _

theorem lzsDecompress_tokens {ts : List Token} (hv : Valid 0 ts) {src : List UInt8}
    {tail : List Bool} (hsrc : bytesToBits src = tokenBits ts ++ (endMarker ++ tail))
    (dst : ℕ → UInt8) (dstlen : ℕ) :
    lzsDecompress dst dstlen src = exec dstlen ⟨dst, 0⟩ ts :=
  lzsDecompress_wf hv.wf hsrc dst dstlen

theorem nibbleLoop_lt {length n : ℕ} {r r' : Reader} (h : nibbleLoop length r = .ok (n, r')) :
    n < 2 ^ 16 := by
  fun_induction nibbleLoop length r with
  | case1 => cases h
  | case2 => cases h; exact Nat.mod_lt _ (by omega)
  | case3 _ _ _ _ _ _ ih => exact ih h

theorem getLength_lt {n : ℕ} {r r' : Reader} (h : getLength r = .ok (n, r')) : n < 2 ^ 16 := by
  unfold getLength at h
  split at h
  · cases h
  · split at h
    · cases h; exact Nat.mod_lt _ (by omega)
    · split at h
      · cases h
      · split at h
        · cases h; exact Nat.mod_lt _ (by omega)
        · exact nibbleLoop_lt h

theorem getBits_error {bits : ℕ} {r : Reader} {e : Err} (h : getBits bits r = .error e) :
    e = .einval := by
  simp only [getBits] at h
  split_ifs at h
  cases h
  rfl

theorem nibbleLoop_error {length : ℕ} {r : Reader} {e : Err}
    (h : nibbleLoop length r = .error e) : e = .einval := by
  fun_induction nibbleLoop length r with
  | case1 _ _ _ hget => cases h; exact getBits_error hget
  | case2 => cases h
  | case3 _ _ _ _ _ _ ih => exact ih h

theorem getLength_error {r : Reader} {e : Err} (h : getLength r = .error e) : e = .einval := by
  unfold getLength at h
  split at h
  · cases h; exact getBits_error ‹_›
  · split at h
    · cases h
    · split at h
      · cases h; exact getBits_error ‹_›
      · split at h
        · cases h
        · exact nibbleLoop_error h

theorem getOffset_error {data : ℕ} {r : Reader} {e : Err} (h : getOffset data r = .error e) :
    e = .einval := by
  unfold getOffset at h
  simp only at h
  split at h
  · split at h
    · cases h; exact getBits_error ‹_›
    · cases h
  · cases h

/-- The decoder overflows `int` only with a buffer that ends within a word of `intMax`. -/
theorem decompressLoop_ne_overflow {dstlen : ℕ} (hd : dstlen + (2 ^ 16 - 1) ≤ intMax)
    {r : Reader} {o : Out} (ho : o.outlen ≤ dstlen) :
    (decompressLoop dstlen r o).1 ≠ .error .overflow := by
  fun_induction decompressLoop dstlen r o with
  | case1 _ _ e hget => simp [getBits_error hget]
  | case2 => simp
  | case3 r o data r₁ hget hlt hne ih =>
    exact ih (by rw [Out.put]; simp only; omega)
  | case4 => simp
  | case5 _ _ _ _ _ _ _ e hoff => simp [getOffset_error hoff]
  | case6 _ _ _ _ _ _ _ _ _ _ e hlen => simp [getLength_error hlen]
  | case7 => simp
  | case8 r o data r₁ hget hge hne offset r₂ hoff length r₃ hlen _ hov =>
    have := getLength_lt hlen
    omega
  | case9 => simp
  | case10 r o data r₁ hget hge hne offset r₂ hoff length r₃ hlen _ _ _ ih =>
    exact ih (by rw [Out.outlen_copy]; omega)

/-- **`lzs_decompress` against the format.**  Of a valid stream the decoder computes the
expansion, for every buffer, if and only if the stream is `DecodedRight`; every stream without
an end marker at a token boundary is refused. -/
theorem lzsDecompress_format (src : List UInt8) :
    (∀ ts tail, Valid 0 ts → bytesToBits src = tokenBits ts ++ (endMarker ++ tail) →
      ((∀ dst dstlen, dstlen ≤ intMax →
        Decodes (lzsDecompress dst dstlen src) dstlen (expand [] ts)) ↔ DecodedRight ts)) ∧
    ((¬ ∃ ts tail, (∀ t ∈ ts, t.Wf) ∧
        bytesToBits src = tokenBits ts ++ (endMarker ++ tail)) →
      ∀ dst dstlen, ∃ e, (lzsDecompress dst dstlen src).1 = .error e ∧
        (dstlen + (2 ^ 16 - 1) ≤ intMax → e ≠ .overflow)) := by
  refine ⟨fun ts tail hv hsrc => ?_, fun hno dst dstlen => ?_⟩
  · have hrun := lzsDecompress_tokens hv hsrc
    have hlen := length_expand [] ts
    rw [List.length_nil, Nat.zero_add] at hlen
    unfold DecodedRight
    split
    · rename_i hint
      constructor
      · intro h
        by_contra hw
        have hlt := sum_size16_lt hw
        have hd := h (fun _ => 0) (ts.map Token.size16).sum (by omega)
        rw [Decodes, if_neg (by omega), hrun] at hd
        exact exec_ne_efbig (by simp) hd
      · intro hw dst dstlen _
        rw [hrun]
        exact exec_decodes (.nil dst) hv hw hint (Nat.zero_le _)
    · rename_i hint
      constructor
      · intro h
        have hd := h (fun _ => 0) intMax le_rfl
        rw [Decodes, if_neg hint, hrun] at hd
        exact fullAtLit_of_exec (Nat.zero_le _) hd
      · intro h dst dstlen hle
        rw [Decodes, if_neg (by omega), hrun]
        exact exec_efbig h (Nat.zero_le _) hle
  · have hr : Reader.Ok ⟨src, 8⟩ := ⟨by simp, by simp⟩
    cases hres : lzsDecompress dst dstlen src with
    | mk res m =>
      cases res with
      | error e =>
        refine ⟨e, rfl, ?_⟩
        intro hd he
        refine decompressLoop_ne_overflow hd (r := ⟨src, 8⟩) (o := ⟨dst, 0⟩) (Nat.zero_le _) ?_
        rw [← he]
        exact congrArg Prod.fst hres
      | ok n =>
        obtain ⟨ts, tail, hwf, hrest⟩ := exists_tokens_of_ok hr hres
        exact absurd ⟨ts, tail, hwf, by rw [← hrest, Reader.rest_eight]⟩ hno

/-! ### A length of `2 ^ 16`

With one `0` and a match of length 65536 the decoder returns a single byte. -/

theorem nibbleBits_mul_add (k : ℕ) {n : ℕ} (hn : n < 15) :
    nibbleBits (15 * k + n) = List.replicate (4 * k) true ++ bitsOf 4 n := by
  induction k with
  | zero => rw [nibbleBits, if_pos (by omega)]; simp
  | succ k ih =>
    rw [nibbleBits, if_neg (by omega), show 15 * (k + 1) + n - 15 = 15 * k + n by omega, ih,
      Nat.mul_succ, Nat.add_comm (4 * k), List.replicate_add, List.append_assoc]
    rfl

theorem bytesToBits_replicate (k : ℕ) :
    bytesToBits (List.replicate k 0xff) = List.replicate (8 * k) true := by
  induction k with
  | zero => rfl
  | succ k ih =>
    rw [List.replicate_succ, bytesToBits_cons, ih, Nat.mul_succ, Nat.add_comm (8 * k),
      List.replicate_add]
    rfl

/-- A zero byte, repeated 65536 times. -/
def longMatch : List Token := [.lit 0, .mtch false 1 65536]

/-- The stream of `longMatch`. -/
def longMatchSrc : List UInt8 :=
  [0x00, 0x60, 0x7f] ++ (List.replicate 2183 0xff ++ [0xfe, 0x30, 0x00])

theorem bytesToBits_longMatchSrc :
    bytesToBits longMatchSrc = tokenBits longMatch ++ (endMarker ++ List.replicate 5 false) := by
  have hn : nibbleBits (65536 - 8) =
      [true, true] ++ (List.replicate 17464 true ++ [true, true, true, true, true, true]) ++
        bitsOf 4 8 := by
    rw [show 65536 - 8 = 15 * 4368 + 8 by rfl, nibbleBits_mul_add _ (by omega),
      show 4 * 4368 = 2 + (17464 + 6) by rfl, List.replicate_add, List.replicate_add]
    rfl
  have hlen : lengthBits 65536 = bitsOf 2 3 ++ bitsOf 2 3 ++ nibbleBits (65536 - 8) := by
    rw [lengthBits, if_neg (by omega), if_neg (by omega)]
  rw [longMatchSrc, bytesToBits_append, bytesToBits_append, bytesToBits_replicate, longMatch,
    tokenBits_cons, tokenBits_cons, Token.bits, Token.bits, hlen, hn]
  simp only [List.append_assoc, tokenBits_nil, List.nil_append, Nat.reduceMul]
  generalize List.replicate 17464 true = ones
  rfl

theorem lzsDecompress_longMatch :
    Valid 0 longMatch ∧
      bytesToBits longMatchSrc = tokenBits longMatch ++ (endMarker ++ List.replicate 5 false) ∧
      (lzsDecompress (fun _ => 0) 16384 longMatchSrc).1 = .ok 1 ∧
      ¬ Decodes (lzsDecompress (fun _ => 0) 16384 longMatchSrc) 16384 (expand [] longMatch) := by
  have hv : Valid 0 longMatch := by
    simp [longMatch, Valid, Token.Wf, Token.size]
  have hu : u16 65536 = 0 := by decide
  have hok : (lzsDecompress (fun _ => 0) 16384 longMatchSrc).1 = .ok 1 := by
    rw [lzsDecompress_tokens hv bytesToBits_longMatchSrc]
    simp [longMatch, exec, hu, Out.put, Out.copy, intMax]
  have hlen : ∀ n, (expand [] [.lit 0, .mtch false 1 n]).length = n + 1 := fun n => by
    rw [length_expand]; simp [Token.size, Nat.add_comm]
  refine ⟨hv, bytesToBits_longMatchSrc, hok, ?_⟩
  rw [Decodes, hok, longMatch, hlen, if_neg (by decide)]
  simp

end Lzs

end Ocserv
