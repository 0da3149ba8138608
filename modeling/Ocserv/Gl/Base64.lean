import Ocserv.Base64

/-!
# Base64 of the portability library

`gl/base64.c`: `base64_encode`, with its fast path, and `base64_decode`, which is
`base64_decode_ctx` without a context.  The buffer that is written has a size, and what does not fit
is dropped.

* `base64Encode_eq` : **both paths write the text and its terminator**, as far as there is room.
* `base64Decode_eq` : **what is accepted is what has bytes**, and these are written as far as there
  is room; the second try of a block never succeeds, so that the loop ends.
-/

namespace Ocserv

namespace Gl

open Base64 (pad digit value firstByte secondByte thirdByte quad encode decode)

/-- `b64c` -/
def b64c (i : UInt8) : UInt8 := digit i.toNat

/-- `b64`; `none` is `-1`. -/
def b64 (ch : UInt8) : Option UInt8 := (value ch).map UInt8.ofNat

/-! ### Encoding -/

/-- `base64_encode_fast`; `none` is a read behind the input. -/
def base64EncodeFast : List UInt8 → Option (List UInt8)
  | [] => some []
  | a :: b :: c :: inp =>
    (base64EncodeFast inp).map fun out =>
      b64c (a >>> 2) :: b64c (((a <<< 4) + (b >>> 4)) &&& 0x3f) ::
        b64c (((b <<< 2) + (c >>> 6)) &&& 0x3f) :: b64c (c &&& 0x3f) :: out
  | _ => none

/-- Some characters are written, each if there was room left for it; `next` is what follows. -/
def store : List UInt8 → ℕ → (ℕ → List UInt8) → List UInt8
  | [], outlen, next => next outlen
  | c :: cs, outlen, next => c :: if outlen - 1 = 0 then [] else store cs (outlen - 1) next

/-- The loop of `base64_encode`, with the terminator behind it. -/
def base64EncodeLoop : List UInt8 → ℕ → List UInt8
  | [], outlen => if outlen ≠ 0 then [0] else []
  | [a], outlen =>
    if outlen = 0 then []
    else
      store [b64c (a >>> 2), b64c (((a <<< 4) + 0) &&& 0x3f), pad, pad] outlen
        (base64EncodeLoop [])
  | [a, b], outlen =>
    if outlen = 0 then []
    else
      store [b64c (a >>> 2), b64c (((a <<< 4) + (b >>> 4)) &&& 0x3f),
        b64c (((b <<< 2) + 0) &&& 0x3f), pad] outlen (base64EncodeLoop [])
  | a :: b :: c :: inp, outlen =>
    if outlen = 0 then []
    else
      store [b64c (a >>> 2), b64c (((a <<< 4) + (b >>> 4)) &&& 0x3f),
        b64c (((b <<< 2) + (c >>> 6)) &&& 0x3f), b64c (c &&& 0x3f)] outlen (base64EncodeLoop inp)

/-- `base64_encode`: what is written to a buffer of a size. -/
def base64Encode (inp : List UInt8) (outlen : ℕ) : Option (List UInt8) :=
  if outlen % 4 = 0 ∧ inp.length = outlen / 4 * 3 then base64EncodeFast inp
  else some (base64EncodeLoop inp outlen)

/-! ### Decoding -/

/-- A byte is written, if there is room. -/
def put (outleft : ℕ) (b : UInt8) : List UInt8 := if outleft ≠ 0 then [b] else []

/-- `decode_4`: whether it succeeds, and what it writes. -/
def decode4 (inp : List UInt8) (outleft : ℕ) : Bool × List UInt8 :=
  match inp with
  | c₀ :: c₁ :: inp =>
    match b64 c₀, b64 c₁ with
    | some x, some y =>
      let out := put outleft ((x <<< 2) ||| (y >>> 4))
      match inp with
      | [] => (false, out)
      | c₂ :: inp =>
        if c₂ = pad then (decide (inp = [pad]), out)
        else
          match b64 c₂ with
          | none => (false, out)
          | some z =>
            let out :=
              out ++ put (outleft - out.length) (((y <<< 4) &&& (0xf0 : UInt8)) ||| (z >>> 2))
            match inp with
            | [] => (false, out)
            | c₃ :: inp =>
              if c₃ = pad then (inp.isEmpty, out)
              else
                match b64 c₃ with
                | none => (false, out)
                | some w =>
                  (true, out ++ put (outleft - out.length) (((z <<< 6) &&& (0xc0 : UInt8)) ||| w))
    | _, _ => (false, [])
  | _ => (false, [])

/-- The inner loop of `base64_decode_ctx`: what is left before the block that `decode_4` refuses,
and what was written.  It refuses blocks that are shorter than four characters. -/
def decodeBlocks : List UInt8 → ℕ → List UInt8 × List UInt8
  | c₀ :: c₁ :: c₂ :: c₃ :: inp, outleft =>
    match decode4 (c₀ :: c₁ :: c₂ :: c₃ :: inp) outleft with
    | (false, _) => (c₀ :: c₁ :: c₂ :: c₃ :: inp, [])
    | (true, out) =>
      let (left, more) := decodeBlocks inp (outleft - out.length)
      (left, out ++ more)
  | inp, _ => (inp, [])

/-- `base64_decode`: whether it succeeds, and what it writes to a buffer of a size.  The block that
was refused is tried again; `none` would be a loop without end. -/
def base64Decode (inp : List UInt8) (outlen : ℕ) : Option (Bool × List UInt8) :=
  let (left, out) := decodeBlocks inp outlen
  if left.length = 0 then some (true, out)
  else
    match decode4 left (outlen - out.length) with
    | (false, more) => some (false, out ++ more)
    | (true, _) => none

/-! ### The words -/

theorem toNat_and_0x3f (x : UInt8) : (x &&& 0x3f).toNat = x.toNat % 64 := by
  rw [UInt8.toNat_and]
  exact Nat.and_two_pow_sub_one_eq_mod x.toNat 6

theorem toNat_shiftRight_2 (a : UInt8) : (a >>> 2).toNat = a.toNat / 4 := by
  rw [UInt8.toNat_shiftRight]
  exact Nat.shiftRight_eq_div_pow ..

theorem toNat_second (a b : UInt8) :
    (((a <<< 4) + (b >>> 4)) &&& 0x3f).toNat = a.toNat % 4 * 16 + b.toNat / 16 := by
  have hb := b.toNat_lt
  rw [toNat_and_0x3f, UInt8.toNat_add, UInt8.toNat_shiftLeft, UInt8.toNat_shiftRight]
  show (a.toNat <<< 4 % 2 ^ 8 + b.toNat >>> 4) % 2 ^ 8 % 64 = _
  rw [Nat.shiftLeft_eq, Nat.shiftRight_eq_div_pow]
  omega

theorem toNat_third (b c : UInt8) :
    (((b <<< 2) + (c >>> 6)) &&& 0x3f).toNat = b.toNat % 16 * 4 + c.toNat / 64 := by
  have hc := c.toNat_lt
  rw [toNat_and_0x3f, UInt8.toNat_add, UInt8.toNat_shiftLeft, UInt8.toNat_shiftRight]
  show (b.toNat <<< 2 % 2 ^ 8 + c.toNat >>> 6) % 2 ^ 8 % 64 = _
  rw [Nat.shiftLeft_eq, Nat.shiftRight_eq_div_pow]
  omega

theorem byte_first {x y : ℕ} (hx : x < 64) (hy : y < 64) :
    (UInt8.ofNat x <<< 2) ||| (UInt8.ofNat y >>> 4) = firstByte x y := by
  have hall : ∀ x y : Fin 64,
      (UInt8.ofNat x <<< 2) ||| (UInt8.ofNat y >>> 4) = firstByte x y := by decide +kernel
  exact hall ⟨x, hx⟩ ⟨y, hy⟩

theorem byte_second {y z : ℕ} (hy : y < 64) (hz : z < 64) :
    ((UInt8.ofNat y <<< 4) &&& (0xf0 : UInt8)) ||| (UInt8.ofNat z >>> 2) = secondByte y z := by
  have hall : ∀ y z : Fin 64,
      ((UInt8.ofNat y <<< 4) &&& (0xf0 : UInt8)) ||| (UInt8.ofNat z >>> 2) = secondByte y z := by
    decide +kernel
  exact hall ⟨y, hy⟩ ⟨z, hz⟩

theorem byte_third {z w : ℕ} (hz : z < 64) (hw : w < 64) :
    ((UInt8.ofNat z <<< 6) &&& (0xc0 : UInt8)) ||| UInt8.ofNat w = thirdByte z w := by
  have hall : ∀ z w : Fin 64,
      ((UInt8.ofNat z <<< 6) &&& (0xc0 : UInt8)) ||| UInt8.ofNat w = thirdByte z w := by
    decide +kernel
  exact hall ⟨z, hz⟩ ⟨w, hw⟩

/-! ### Encoding writes the text -/

theorem base64EncodeFast_eq {inp : List UInt8} (h : inp.length % 3 = 0) :
    base64EncodeFast inp = some (encode inp) := by
  induction inp using base64EncodeFast.induct with
  | case1 => rfl
  | case2 a b c inp ih =>
    have hlen : inp.length % 3 = 0 := by
      simp only [List.length_cons] at h
      omega
    rw [base64EncodeFast, ih hlen, Option.map_some, encode]
    simp only [b64c, toNat_shiftRight_2, toNat_second, toNat_third, toNat_and_0x3f c]
  | case3 inp hnil hcons =>
    rcases inp with _ | ⟨a, _ | ⟨b, _ | ⟨c, inp⟩⟩⟩
    · exact absurd rfl hnil
    · cases h
    · cases h
    · exact absurd rfl (hcons a b c inp)

/-- What is written is what fits. -/
theorem store_eq {cs text : List UInt8} {next : ℕ → List UInt8}
    (hnext : ∀ n ≠ 0, next n = text.take n) {outlen : ℕ} (h : outlen ≠ 0) :
    store cs outlen next = (cs ++ text).take outlen := by
  induction cs generalizing outlen with
  | nil => exact hnext outlen h
  | cons c cs ih =>
    obtain ⟨n, rfl⟩ := Nat.exists_eq_succ_of_ne_zero h
    rw [store, Nat.succ_sub_one, List.cons_append, List.take_succ_cons]
    split
    · rename_i hzero
      rw [hzero, List.take_zero]
    · rename_i hne
      rw [ih hne]

theorem base64EncodeLoop_eq (inp : List UInt8) (outlen : ℕ) :
    base64EncodeLoop inp outlen = (encode inp ++ [0]).take outlen := by
  have hempty (n : ℕ) : base64EncodeLoop [] n = [0].take n := by
    cases n with
    | zero => rfl
    | succ n => simp [base64EncodeLoop]
  have hfour (a : UInt8) : (a <<< 4) + (0 : UInt8) = (a <<< 4) + ((0 : UInt8) >>> 4) := rfl
  have hsix (b : UInt8) : (b <<< 2) + (0 : UInt8) = (b <<< 2) + ((0 : UInt8) >>> 6) := rfl
  induction inp using Base64.encode.induct generalizing outlen with
  | case1 => exact hempty outlen
  | case2 a =>
    rw [base64EncodeLoop]
    split
    · rename_i hzero
      rw [hzero, List.take_zero]
    · rename_i hne
      rw [store_eq (fun n _ => hempty n) hne, hfour]
      simp only [b64c, toNat_shiftRight_2, toNat_second, encode]
      rfl
  | case3 a b =>
    rw [base64EncodeLoop]
    split
    · rename_i hzero
      rw [hzero, List.take_zero]
    · rename_i hne
      rw [store_eq (fun n _ => hempty n) hne, hsix]
      simp only [b64c, toNat_shiftRight_2, toNat_second, toNat_third, encode]
      rfl
  | case4 a b c inp ih =>
    rw [base64EncodeLoop]
    split
    · rename_i hzero
      rw [hzero, List.take_zero]
    · rename_i hne
      rw [store_eq (fun n _ => ih n) hne]
      simp only [b64c, toNat_shiftRight_2, toNat_second, toNat_third, toNat_and_0x3f c, encode]
      rfl

/-- **`base64_encode` writes the text and its terminator**, as far as there is room.  The fast path
is for a buffer that the text fills, and makes no difference. -/
theorem base64Encode_eq (inp : List UInt8) (outlen : ℕ) :
    base64Encode inp outlen = some ((encode inp ++ [0]).take outlen) := by
  rw [base64Encode]
  split
  · rename_i hfast
    obtain ⟨hfour, hlen⟩ := hfast
    have hfull : (encode inp).length = outlen := by
      rw [Base64.length_encode]
      omega
    rw [base64EncodeFast_eq (by omega), ← hfull, List.take_left]
  · rw [base64EncodeLoop_eq]

/-! ### What is decoded -/

theorem put_eq (b : UInt8) (n : ℕ) : put n b = [b].take n := by
  cases n <;> simp [put]

theorem take_append_take (bytes more : List UInt8) (n : ℕ) :
    bytes.take n ++ more.take (n - (bytes.take n).length) = (bytes ++ more).take n := by
  rw [List.take_append, List.length_take]
  obtain hle | hlt := Nat.le_total n bytes.length
  · rw [Nat.min_eq_left hle, Nat.sub_self, Nat.sub_eq_zero_of_le hle]
  · rw [Nat.min_eq_right hlt]

/-- **A block of four characters.** -/
theorem decode4_eq (c₀ c₁ c₂ c₃ : UInt8) (inp : List UInt8) (outleft : ℕ) :
    match quad inp.isEmpty c₀ c₁ c₂ c₃ with
    | some bytes => decode4 (c₀ :: c₁ :: c₂ :: c₃ :: inp) outleft = (true, bytes.take outleft)
    | none => (decode4 (c₀ :: c₁ :: c₂ :: c₃ :: inp) outleft).1 = false := by
  rw [quad, decode4, b64, b64]
  cases hx : value c₀ with
  | none => rfl
  | some x =>
    cases hy : value c₁ with
    | none => rfl
    | some y =>
      have hx := Base64.value_lt hx
      have hy := Base64.value_lt hy
      simp only [Option.map_some, Option.bind_some, byte_first hx hy, put_eq]
      by_cases hpad : c₂ = pad
      · -- One byte, if the text ends here.
        subst hpad
        cases inp with
        | nil => by_cases hlast : c₃ = pad <;> simp [hlast]
        | cons => simp [Base64.value_pad]
      · rw [if_neg fun h => hpad h.2, if_neg hpad, b64]
        cases hz : value c₂ with
        | none => rfl
        | some z =>
          have hz := Base64.value_lt hz
          simp only [Option.map_some, Option.bind_some, byte_second hy hz, take_append_take]
          by_cases hlast : c₃ = pad
          · -- Two bytes, if the text ends here.
            subst hlast
            cases inp with
            | nil => simp
            | cons => simp [Base64.value_pad]
          · rw [if_neg fun h => hlast h.2, if_neg hlast, b64]
            cases hw : value c₃ with
            | none => rfl
            | some w =>
              have hw := Base64.value_lt hw
              simp only [Option.map_some, byte_third hz hw]
              rfl

theorem decode4_short {inp : List UInt8} (h : inp.length < 4) (outleft : ℕ) :
    (decode4 inp outleft).1 = false := by
  match inp, h with
  | [], _ | [_], _ => rfl
  | [c₀, c₁], _ =>
    rw [decode4]
    cases b64 c₀ <;> cases b64 c₁ <;> rfl
  | [c₀, c₁, c₂], _ =>
    rw [decode4]
    cases b64 c₀ with
    | none => rfl
    | some x =>
      cases b64 c₁ with
      | none => rfl
      | some y =>
        by_cases hpad : c₂ = pad
        · simp [hpad]
        · cases hz : b64 c₂ <;> simp [hpad, hz]

/-- **The blocks**: the text is accepted if nothing is left. -/
theorem decodeBlocks_eq (inp : List UInt8) (outleft : ℕ) :
    let (left, out) := decodeBlocks inp outleft
    (decode4 left (outleft - out.length)).1 = false ∧
      match decode inp with
      | some bytes => left = [] ∧ out = bytes.take outleft
      | none => left ≠ [] := by
  induction inp using Base64.decode.induct generalizing outleft with
  | case1 => exact ⟨rfl, rfl, List.take_nil.symm⟩
  | case2 c₀ c₁ c₂ c₃ inp ih =>
    have hblock := decode4_eq c₀ c₁ c₂ c₃ inp outleft
    rw [decodeBlocks, decode]
    cases hquad : quad inp.isEmpty c₀ c₁ c₂ c₃ with
    | none =>
      rw [hquad] at hblock
      dsimp only at hblock
      cases hfour : decode4 (c₀ :: c₁ :: c₂ :: c₃ :: inp) outleft with
      | mk ok out =>
        rw [hfour] at hblock
        obtain rfl : ok = false := hblock
        exact ⟨by simp [hfour], List.cons_ne_nil _ _⟩
    | some bytes =>
      rw [hquad] at hblock
      dsimp only at hblock
      have ih := ih (outleft - (bytes.take outleft).length)
      rw [hblock]
      dsimp only
      generalize decodeBlocks inp (outleft - (bytes.take outleft).length) = blocks at ih ⊢
      obtain ⟨left, more⟩ := blocks
      obtain ⟨hstop, hdecode⟩ := ih
      dsimp only at hstop hdecode ⊢
      refine ⟨by rwa [List.length_append, ← Nat.sub_sub], ?_⟩
      cases hrest : decode inp with
      | none =>
        rw [hrest] at hdecode
        exact hdecode
      | some rest =>
        rw [hrest] at hdecode
        obtain ⟨hleft, hmore⟩ := hdecode
        exact ⟨hleft, by rw [hmore, take_append_take]⟩
  | case3 inp hnil hcons =>
    rcases inp with _ | ⟨c₀, _ | ⟨c₁, _ | ⟨c₂, _ | ⟨c₃, inp⟩⟩⟩⟩
    · exact absurd rfl hnil
    · exact ⟨decode4_short (by simp) _, hnil⟩
    · exact ⟨decode4_short (by simp) _, hnil⟩
    · exact ⟨decode4_short (by simp) _, hnil⟩
    · exact absurd rfl (hcons c₀ c₁ c₂ c₃ inp)

/-- A text that has bytes is accepted. -/
theorem base64Decode_of_some {inp bytes : List UInt8} (h : decode inp = some bytes) (outlen : ℕ) :
    base64Decode inp outlen = some (true, bytes.take outlen) := by
  have hblocks := decodeBlocks_eq inp outlen
  rw [h] at hblocks
  rw [base64Decode]
  generalize decodeBlocks inp outlen = blocks at hblocks ⊢
  obtain ⟨left, out⟩ := blocks
  obtain ⟨-, rfl, rfl⟩ := hblocks
  rfl

/-- A text that has none is refused, after its last block was tried again. -/
theorem base64Decode_of_none {inp : List UInt8} (h : decode inp = none) (outlen : ℕ) :
    ∃ out, base64Decode inp outlen = some (false, out) := by
  have hblocks := decodeBlocks_eq inp outlen
  rw [h] at hblocks
  rw [base64Decode]
  generalize decodeBlocks inp outlen = blocks at hblocks ⊢
  obtain ⟨left, out⟩ := blocks
  obtain ⟨hstop, hleft⟩ := hblocks
  dsimp only at hstop hleft ⊢
  rw [if_neg fun hlen => hleft (List.length_eq_zero_iff.1 hlen)]
  generalize decode4 left (outlen - out.length) = four at hstop
  obtain ⟨ok, more⟩ := four
  obtain rfl : ok = false := hstop
  exact ⟨out ++ more, rfl⟩

/-- **`base64_decode`** always returns; it accepts a text that has bytes, and then they are what is
written, as far as there is room. -/
theorem base64Decode_eq (inp : List UInt8) (outlen : ℕ) :
    ∃ out, base64Decode inp outlen = some ((decode inp).isSome, out) ∧
      ∀ bytes, decode inp = some bytes → out = bytes.take outlen := by
  cases hbytes : decode inp with
  | some bytes =>
    exact ⟨_, base64Decode_of_some hbytes outlen, fun bytes' h => by rw [Option.some.inj h]⟩
  | none =>
    obtain ⟨out, hout⟩ := base64Decode_of_none hbytes outlen
    exact ⟨out, hout, fun _ h => by cases h⟩

end Gl

end Ocserv
