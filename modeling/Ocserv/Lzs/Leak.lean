import Ocserv.Lzs.Conformance

/-!
# What `lzs_decompress` lets out of its buffer

The buffer the caller hands to `lzs_decompress` holds bytes of earlier packets.  Two runs on the
same stream, with two buffers, always return the same value (`lzsDecompress_fst`), and a copy
from at least one byte back reads only what the call has written itself (`Out.Agree.copy`).  But
`offset > outlen` is the only check on an offset, and the 11-bit form encodes an offset of `0`:
such a match copies `dst[outlen]` to itself, so that the old byte becomes a byte of the output.
`leakFree_iff` says that this is the only way.
-/

namespace Ocserv

namespace Lzs

/-- Whatever the buffer holds at first, `lzs_decompress` returns the same value and, if it
succeeds with `n`, the same first `n` bytes. -/
def LeakFree (dstlen : ℕ) (src : List UInt8) : Prop :=
  ∀ dst dst' : ℕ → UInt8,
    (lzsDecompress dst dstlen src).1 = (lzsDecompress dst' dstlen src).1 ∧
    ∀ n, (lzsDecompress dst dstlen src).1 = .ok n →
      ∀ i < n, (lzsDecompress dst dstlen src).2 i = (lzsDecompress dst' dstlen src).2 i

/-- The decoder accepts the tokens in a buffer of `dstlen` bytes of which `n` are written: every
offset stays inside what is written, every token fits. -/
def Accepts (dstlen : ℕ) : ℕ → List Token → Prop
  | _, [] => True
  | n, .lit _ :: ts => n ≠ dstlen ∧ Accepts dstlen (n + 1) ts
  | n, .mtch _ offset length :: ts =>
    (offset ≤ n ∧ u16 length + n ≤ intMax ∧ u16 length + n ≤ dstlen) ∧
      Accepts dstlen (n + u16 length) ts

/-- Some match repeats bytes from `0` back. -/
def RepeatsNothing (ts : List Token) : Prop :=
  ∃ long length, Token.mtch long 0 length ∈ ts ∧ u16 length ≠ 0

/-- The stream encodes tokens the decoder accepts, and one of them is a match of offset `0`. -/
def HasZeroOffset (dstlen : ℕ) (src : List UInt8) : Prop :=
  ∃ ts tail, (∀ t ∈ ts, t.Wf) ∧ bytesToBits src = tokenBits ts ++ (endMarker ++ tail) ∧
    Accepts dstlen 0 ts ∧ RepeatsNothing ts

/-! ### The value returned -/

theorem Out.outlen_put (o : Out) (b : UInt8) : (o.put b).outlen = o.outlen + 1 := rfl

/-- The iteration of the main loop that has read a match. -/
theorem decompressLoop_mtch {r r₁ r₂ r₃ : Reader} {data offset length : ℕ}
    (hget : getBits 9 r = .ok (data, r₁)) (hge : ¬ data < 0x100) (hne : data ≠ 0x180)
    (hoff : getOffset data r₁ = .ok (offset, r₂)) (hlen : getLength r₂ = .ok (length, r₃))
    (dstlen : ℕ) (o : Out) :
    decompressLoop dstlen r o =
      if offset > o.outlen then (.error .einval, o.dst)
      else if length + o.outlen > intMax then (.error .overflow, o.dst)
      else if length + o.outlen > dstlen then (.error .efbig, o.dst)
      else decompressLoop dstlen r₃ (o.copy offset length) := by
  rw [decompressLoop, hget]
  simp only [hge, hne, if_false]
  rw [hoff]
  simp only
  rw [hlen]

/-- The value returned depends on the buffer only through the number of bytes written. -/
theorem decompressLoop_fst {dstlen : ℕ} {r : Reader} {o o' : Out} (h : o.outlen = o'.outlen) :
    (decompressLoop dstlen r o).1 = (decompressLoop dstlen r o').1 := by
  fun_induction decompressLoop dstlen r o generalizing o' with
  | case1 r o e hget => rw [decompressLoop, hget]
  | case2 r o data r₁ hget hlt heq =>
    rw [decompressLoop, hget]
    simp [hlt, ← h, heq]
  | case3 r o data r₁ hget hlt hne ih =>
    rw [decompressLoop.eq_def dstlen r o', hget]
    simp only [hlt, ← h, hne, if_true, if_false]
    exact ih (by rw [Out.outlen_put, Out.outlen_put, h])
  | case4 r o r₁ hget hge =>
    rw [decompressLoop, hget]
    simp [h]
  | case5 r o data r₁ hget hge hne e hoff =>
    rw [decompressLoop, hget]
    simp only [hge, hne, if_false]
    rw [hoff]
  | case6 r o data r₁ hget hge hne offset r₂ hoff e hlen =>
    rw [decompressLoop, hget]
    simp only [hge, hne, if_false]
    rw [hoff]
    simp only
    rw [hlen]
  | case7 r o data r₁ hget hge hne offset r₂ hoff length r₃ hlen hbig =>
    rw [decompressLoop_mtch hget hge hne hoff hlen, ← h, if_pos hbig]
  | case8 r o data r₁ hget hge hne offset r₂ hoff length r₃ hlen hin hov =>
    rw [decompressLoop_mtch hget hge hne hoff hlen, ← h, if_neg hin, if_pos hov]
  | case9 r o data r₁ hget hge hne offset r₂ hoff length r₃ hlen hin hov hbig =>
    rw [decompressLoop_mtch hget hge hne hoff hlen, ← h, if_neg hin, if_neg hov, if_pos hbig]
  | case10 r o data r₁ hget hge hne offset r₂ hoff length r₃ hlen hin hov hfit ih =>
    rw [decompressLoop_mtch hget hge hne hoff hlen, ← h, if_neg hin, if_neg hov, if_neg hfit]
    exact ih (by rw [Out.outlen_copy, Out.outlen_copy, h])

/-- **The value returned says nothing about the buffer.** -/
theorem lzsDecompress_fst (dst dst' : ℕ → UInt8) (dstlen : ℕ) (src : List UInt8) :
    (lzsDecompress dst dstlen src).1 = (lzsDecompress dst' dstlen src).1 :=
  decompressLoop_fst rfl

/-! ### Accepted tokens -/

theorem exec_of_accepts {dstlen : ℕ} {ts : List Token} {o : Out}
    (h : Accepts dstlen o.outlen ts) :
    (exec dstlen o ts).1 = .ok (o.outlen + (ts.map Token.size16).sum) := by
  induction ts generalizing o with
  | nil => simp [exec]
  | cons t ts ih =>
    rw [List.map_cons, List.sum_cons, ← Nat.add_assoc]
    cases t with
    | lit b =>
      obtain ⟨hne, h⟩ := h
      rw [exec, if_neg hne]
      exact ih (o := o.put b) h
    | mtch long offset length =>
      obtain ⟨⟨hin, hov, hfit⟩, h⟩ := h
      have h' : Accepts dstlen (o.copy offset (u16 length)).outlen ts := by
        rwa [Out.outlen_copy]
      simp only [exec]
      rw [if_neg (by omega), if_neg (by omega), if_neg (by omega), ih h', Out.outlen_copy]
      rfl

theorem accepts_of_exec {dstlen n : ℕ} {ts : List Token} {o : Out}
    (h : (exec dstlen o ts).1 = .ok n) : Accepts dstlen o.outlen ts := by
  induction ts generalizing o with
  | nil => trivial
  | cons t ts ih =>
    cases t with
    | lit b =>
      rw [exec] at h
      split at h
      · simp at h
      · exact ⟨‹_›, ih (o := o.put b) h⟩
    | mtch long offset length =>
      simp only [exec] at h
      split at h
      · simp at h
      · split at h
        · simp at h
        · split at h
          · simp at h
          · have hrest := ih h
            rw [Out.outlen_copy] at hrest
            exact ⟨⟨by omega, by omega, by omega⟩, hrest⟩

/-! ### What does not leak -/

/-- Two runs have written the same bytes. -/
structure Out.Agree (o o' : Out) : Prop where
  outlen_eq : o.outlen = o'.outlen
  dst_eq : ∀ i < o.outlen, o.dst i = o'.dst i

theorem Out.Agree.put {o o' : Out} (h : o.Agree o') (b : UInt8) : (o.put b).Agree (o'.put b) := by
  obtain ⟨hlen, hdst⟩ := h
  refine ⟨by rw [Out.outlen_put, Out.outlen_put, hlen], ?_⟩
  intro i hi
  rw [Out.outlen_put] at hi
  simp only [Out.put, ← hlen]
  rcases Nat.lt_or_eq_of_le (Nat.le_of_lt_succ hi) with hlt | rfl
  · rw [Function.update_of_ne hlt.ne, Function.update_of_ne hlt.ne, hdst i hlt]
  · rw [Function.update_self, Function.update_self]

/-- **A copy from at least one byte back reads only what was written.** -/
theorem Out.Agree.copy {offset : ℕ} (h₁ : 1 ≤ offset) (n : ℕ) {o o' : Out} (h : o.Agree o')
    (h₂ : offset ≤ o.outlen) : (o.copy offset n).Agree (o'.copy offset n) := by
  induction n generalizing o o' with
  | zero => exact h
  | succ n ih =>
    have hb : o.dst (o.outlen - offset) = o'.dst (o'.outlen - offset) := by
      rw [← h.outlen_eq]
      exact h.dst_eq _ (by omega)
    rw [Out.copy, Out.copy, hb]
    exact ih (h.put _) (by rw [Out.outlen_put]; omega)

theorem Out.copy_u16_zero {length : ℕ} (h : u16 length = 0) (offset : ℕ) (o : Out) :
    o.copy offset (u16 length) = o := by
  rw [h, Out.copy]

theorem exec_agree {dstlen : ℕ} {ts : List Token} {o o' : Out} (h : o.Agree o')
    (hacc : Accepts dstlen o.outlen ts) (hz : ¬ RepeatsNothing ts) :
    ∀ i < o.outlen + (ts.map Token.size16).sum,
      (exec dstlen o ts).2 i = (exec dstlen o' ts).2 i := by
  induction ts generalizing o o' with
  | nil => exact fun i hi => h.dst_eq i hi
  | cons t ts ih =>
    have hz' : ¬ RepeatsNothing ts := fun ⟨long, length, hm, hl⟩ =>
      hz ⟨long, length, List.mem_cons_of_mem _ hm, hl⟩
    rw [List.map_cons, List.sum_cons, ← Nat.add_assoc]
    cases t with
    | lit b =>
      obtain ⟨hne, hacc⟩ := hacc
      rw [exec, exec, if_neg hne, if_neg (h.outlen_eq ▸ hne)]
      exact ih (h.put b) hacc hz'
    | mtch long offset length =>
      obtain ⟨⟨hin, hov, hfit⟩, hacc⟩ := hacc
      have hagree : (o.copy offset (u16 length)).Agree (o'.copy offset (u16 length)) := by
        rcases Nat.eq_zero_or_pos offset with rfl | hpos
        · have hl : u16 length = 0 := by
            by_contra hl
            exact hz ⟨long, length, List.mem_cons_self, hl⟩
          rw [Out.copy_u16_zero hl, Out.copy_u16_zero hl]
          exact h
        · exact h.copy hpos _ hin
      simp only [exec, ← h.outlen_eq]
      rw [if_neg (by omega), if_neg (by omega), if_neg (by omega), if_neg (by omega),
        if_neg (by omega), if_neg (by omega)]
      have := ih hagree (by rwa [Out.outlen_copy]) hz'
      rwa [Out.outlen_copy] at this

/-! ### What leaks -/

/-- The part of the buffer that is not written holds the byte `c`. -/
def Out.Fresh (c : UInt8) (o : Out) : Prop := ∀ i, o.outlen ≤ i → o.dst i = c

theorem Out.Fresh.put {c : UInt8} {o : Out} (h : o.Fresh c) (b : UInt8) : (o.put b).Fresh c := by
  intro i hi
  rw [Out.outlen_put] at hi
  simp only [Out.put]
  rw [Function.update_of_ne (by omega)]
  exact h i (by omega)

theorem Out.Fresh.copy {c : UInt8} (offset n : ℕ) {o : Out} (h : o.Fresh c) :
    (o.copy offset n).Fresh c := by
  induction n generalizing o with
  | zero => exact h
  | succ n ih => exact ih (h.put _)

theorem Out.copy_below {i : ℕ} (offset n : ℕ) {o : Out} (hi : i < o.outlen) :
    (o.copy offset n).dst i = o.dst i := by
  induction n generalizing o with
  | zero => rfl
  | succ n ih =>
    rw [Out.copy, ih (by rw [Out.outlen_put]; omega)]
    simp only [Out.put]
    rw [Function.update_of_ne (by omega)]

/-- What is written stays. -/
theorem exec_below {dstlen i : ℕ} {ts : List Token} {o : Out} (hi : i < o.outlen) :
    (exec dstlen o ts).2 i = o.dst i := by
  induction ts generalizing o with
  | nil => rfl
  | cons t ts ih =>
    cases t with
    | lit b =>
      rw [exec]
      split
      · rfl
      · rw [ih (by rw [Out.outlen_put]; omega)]
        simp only [Out.put]
        rw [Function.update_of_ne (by omega)]
    | mtch long offset length =>
      simp only [exec]
      split
      · rfl
      · split
        · rfl
        · split
          · rfl
          · rw [ih (by rw [Out.outlen_copy]; omega), Out.copy_below _ _ hi]

/-- A match of offset `0` makes the next byte of the buffer a byte of the output. -/
theorem Out.Fresh.copy_zero {c : UInt8} {n : ℕ} {o : Out} (h : o.Fresh c) (hn : n ≠ 0) :
    (o.copy 0 n).dst o.outlen = c := by
  obtain ⟨m, rfl⟩ := Nat.exists_eq_succ_of_ne_zero hn
  rw [Out.copy, Out.copy_below _ _ (by rw [Out.outlen_put]; omega)]
  simp only [Out.put]
  rw [Function.update_self, Nat.sub_zero]
  exact h _ le_rfl

/-- **A match of offset `0` leaks.**  With two different bytes in the buffer the outputs
differ. -/
theorem exec_leaks {dstlen : ℕ} {c c' : UInt8} (hc : c ≠ c') {ts : List Token} {o o' : Out}
    (hlen : o.outlen = o'.outlen) (ho : o.Fresh c) (ho' : o'.Fresh c')
    (hacc : Accepts dstlen o.outlen ts) (hz : RepeatsNothing ts) :
    ∃ i < o.outlen + (ts.map Token.size16).sum,
      (exec dstlen o ts).2 i ≠ (exec dstlen o' ts).2 i := by
  induction ts generalizing o o' with
  | nil =>
    obtain ⟨long, length, hm, -⟩ := hz
    simp at hm
  | cons t ts ih =>
    obtain ⟨long₀, length₀, hm, hl⟩ := hz
    rw [List.map_cons, List.sum_cons, ← Nat.add_assoc]
    cases t with
    | lit b =>
      obtain ⟨hne, hacc⟩ := hacc
      have hm' : Token.mtch long₀ 0 length₀ ∈ ts := by simpa using hm
      rw [exec, exec, if_neg hne, if_neg (hlen ▸ hne)]
      exact @ih (o.put b) (o'.put b) (by rw [Out.outlen_put, Out.outlen_put, hlen])
        (ho.put b) (ho'.put b) hacc ⟨long₀, length₀, hm', hl⟩
    | mtch long offset length =>
      obtain ⟨⟨hin, hov, hfit⟩, hacc⟩ := hacc
      have hcopy : (o.copy offset (u16 length)).outlen = (o'.copy offset (u16 length)).outlen := by
        rw [Out.outlen_copy, Out.outlen_copy, hlen]
      simp only [exec, ← hlen]
      rw [if_neg (by omega), if_neg (by omega), if_neg (by omega), if_neg (by omega),
        if_neg (by omega), if_neg (by omega)]
      rcases List.mem_cons.1 hm with heq | hm
      · -- this is the match: its first byte is the old one in each run
        cases heq
        refine ⟨o.outlen, ?_, ?_⟩
        · simp only [Token.size16]
          omega
        · rw [exec_below (by rw [Out.outlen_copy]; omega),
            exec_below (by rw [Out.outlen_copy]; omega), ho.copy_zero hl, hlen, ho'.copy_zero hl]
          exact hc
      · have := ih hcopy (ho.copy offset _) (ho'.copy offset _) (by rwa [Out.outlen_copy])
          ⟨long₀, length₀, hm, hl⟩
        rwa [Out.outlen_copy] at this

/-! ### The law -/

/-- **The output says nothing about the buffer** if and only if no match of offset `0` is among
the tokens that are accepted. -/
theorem leakFree_iff (dstlen : ℕ) (src : List UInt8) :
    LeakFree dstlen src ↔ ¬ HasZeroOffset dstlen src := by
  constructor
  · rintro h ⟨ts, tail, hwf, hsrc, hacc, hz⟩
    obtain ⟨-, hout⟩ := h (fun _ => 0) (fun _ => 1)
    rw [lzsDecompress_wf hwf hsrc, lzsDecompress_wf hwf hsrc] at hout
    obtain ⟨i, hi, hne⟩ := @exec_leaks dstlen 0 1 (by decide) ts ⟨fun _ => 0, 0⟩ ⟨fun _ => 1, 0⟩ rfl
      (fun _ _ => rfl) (fun _ _ => rfl) hacc hz
    exact hne (hout _ (exec_of_accepts hacc) i hi)
  · intro h dst dst'
    refine ⟨lzsDecompress_fst dst dst' dstlen src, ?_⟩
    intro n hn
    have hr : Reader.Ok ⟨src, 8⟩ := ⟨by simp, by simp⟩
    obtain ⟨ts, tail, hwf, hrest⟩ := exists_tokens_of_ok hr (Prod.ext hn rfl)
    have hsrc : bytesToBits src = tokenBits ts ++ (endMarker ++ tail) := by
      rw [← hrest, Reader.rest_eight]
    rw [lzsDecompress_wf hwf hsrc] at hn ⊢
    rw [lzsDecompress_wf hwf hsrc]
    have hacc := accepts_of_exec hn
    rw [exec_of_accepts hacc] at hn
    cases hn
    exact exec_agree ⟨rfl, fun i hi => absurd hi (Nat.not_lt_zero i)⟩ hacc
      fun hz => h ⟨ts, tail, hwf, hsrc, hacc, hz⟩

/-- A match of offset `0` and length `2`, and the end marker. -/
def zeroOffsetSrc : List UInt8 := [0x80, 0x01, 0x80]

/-- The first two bytes of the buffer come out unchanged. -/
theorem not_leakFree_zeroOffset : ¬ LeakFree 16 zeroOffsetSrc := by
  have hsrc : bytesToBits zeroOffsetSrc =
      tokenBits [.mtch true 0 2] ++ (endMarker ++ []) := by decide
  have hwf : ∀ t ∈ [Token.mtch true 0 2], t.Wf := by decide
  intro h
  obtain ⟨-, hout⟩ := h (fun _ => 0) (fun _ => 1)
  rw [lzsDecompress_wf hwf hsrc, lzsDecompress_wf hwf hsrc] at hout
  exact absurd (hout 2 rfl 0 (by omega)) (by decide)

end Lzs

end Ocserv
