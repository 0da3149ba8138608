import Ocserv.Bits

/-!
# The LZS bit stream

What an LZS stream means, independent of the code that packs and unpacks it.  A stream is a
sequence of tokens followed by the end marker `110000000`:

* `0bbbbbbbb` : a literal byte;
* `11bbbbbbb` + length : repeat bytes from a 7-bit offset back;
* `10bbbbbbbbbbb` + length : repeat bytes from an 11-bit offset back.

Lengths 2, 3, 4 are `00`, `01`, `10`; lengths 5, 6, 7 are `1100`, `1101`, `1110`; a longer length
is `1111`, then `1111` for every further 15 bytes, then a final nibble for the rest.

* `Token.bits` is the encoding of a token, `tokenBits` of a sequence.
* `expand out ts` is the byte string after the tokens `ts`, if `out` was produced before.
* `Token.Wf` says that the fields of a token fit their widths, `Valid n ts` that moreover every
  offset points into the bytes produced so far.
* `tokenBits_inj` : a stream has only one sequence of tokens.
-/

namespace Ocserv

namespace Lzs

/-- A token of the stream; `mtch long offset length` has an 11-bit offset if `long`. -/
inductive Token where
  | lit (b : UInt8)
  | mtch (long : Bool) (offset length : ℕ)
  deriving DecidableEq, Repr

/-- The nibbles after `1111` of a length `8 + n`. -/
def nibbleBits (n : ℕ) : List Bool :=
  if n < 15 then bitsOf 4 n else bitsOf 4 15 ++ nibbleBits (n - 15)

/-- The length code. -/
def lengthBits (length : ℕ) : List Bool :=
  if length < 5 then bitsOf 2 (length - 2)
  else if length < 8 then bitsOf 2 3 ++ bitsOf 2 (length - 5)
  else bitsOf 2 3 ++ bitsOf 2 3 ++ nibbleBits (length - 8)

/-- The offset code. -/
def offsetBits (long : Bool) (offset : ℕ) : List Bool :=
  if long then bitsOf 13 (0x1000 + offset) else bitsOf 9 (0x180 + offset)

namespace Token

/-- The encoding of a token. -/
def bits : Token → List Bool
  | lit b => bitsOf 9 b.toNat
  | mtch long offset length => offsetBits long offset ++ lengthBits length

/-- The fields of the token fit their widths.  A 7-bit offset of `0` is the end marker. -/
def Wf : Token → Prop
  | lit _ => True
  | mtch long offset length =>
    (if long then offset < 0x800 else 0 < offset ∧ offset < 0x80) ∧ 2 ≤ length

instance : DecidablePred Wf := fun t => by
  cases t <;> unfold Wf <;> infer_instance

/-- The number of bytes the token stands for. -/
def size : Token → ℕ
  | lit _ => 1
  | mtch _ _ length => length

end Token

/-- The encoding of a sequence of tokens. -/
def tokenBits (ts : List Token) : List Bool := ts.flatMap Token.bits

/-- The end marker. -/
def endMarker : List Bool := bitsOf 9 0x180

/-- Repeat `n` bytes from `offset` back, one at a time, so that the copy may overlap itself. -/
def copyBack (offset : ℕ) : ℕ → List UInt8 → List UInt8
  | 0, out => out
  | n + 1, out => copyBack offset n (out ++ [out.getD (out.length - offset) 0])

/-- The bytes after a token. -/
def Token.apply (out : List UInt8) : Token → List UInt8
  | lit b => out ++ [b]
  | mtch _ offset length => copyBack offset length out

/-- The bytes after a sequence of tokens. -/
def expand (out : List UInt8) (ts : List Token) : List UInt8 := ts.foldl Token.apply out

/-- The tokens are well formed and every offset points into the bytes produced so far, of which
there are `n` at the start. -/
def Valid : ℕ → List Token → Prop
  | _, [] => True
  | n, t :: ts =>
    (t.Wf ∧ match t with
      | .lit _ => True
      | .mtch _ offset _ => 1 ≤ offset ∧ offset ≤ n) ∧ Valid (n + t.size) ts

@[simp] theorem tokenBits_nil : tokenBits [] = [] := rfl

@[simp] theorem tokenBits_cons (t : Token) (ts : List Token) :
    tokenBits (t :: ts) = t.bits ++ tokenBits ts := rfl

@[simp] theorem tokenBits_append (ts us : List Token) :
    tokenBits (ts ++ us) = tokenBits ts ++ tokenBits us := by
  simp [tokenBits]

@[simp] theorem length_copyBack (offset n : ℕ) (out : List UInt8) :
    (copyBack offset n out).length = out.length + n := by
  induction n generalizing out with
  | zero => rfl
  | succ n ih => simp [copyBack, ih]; omega

@[simp] theorem Token.length_apply (out : List UInt8) (t : Token) :
    (t.apply out).length = out.length + t.size := by
  cases t <;> simp [Token.apply, Token.size]

@[simp] theorem expand_nil (out : List UInt8) : expand out [] = out := rfl

@[simp] theorem expand_cons (out : List UInt8) (t : Token) (ts : List Token) :
    expand out (t :: ts) = expand (t.apply out) ts := rfl

theorem expand_append (out : List UInt8) (ts us : List Token) :
    expand out (ts ++ us) = expand (expand out ts) us := by
  simp [expand]

theorem length_expand (out : List UInt8) (ts : List Token) :
    (expand out ts).length = out.length + (ts.map Token.size).sum := by
  induction ts generalizing out with
  | nil => simp
  | cons t ts ih => simp [ih, Nat.add_assoc]

theorem Valid.wf {n : ℕ} {ts : List Token} (h : Valid n ts) : ∀ t ∈ ts, t.Wf := by
  induction ts generalizing n with
  | nil => simp
  | cons t ts ih =>
    obtain ⟨⟨hw, -⟩, hts⟩ := h
    simp only [List.mem_cons, forall_eq_or_imp]
    exact ⟨hw, ih hts⟩

theorem valid_append {n : ℕ} {ts us : List Token} :
    Valid n (ts ++ us) ↔ Valid n ts ∧ Valid (n + (ts.map Token.size).sum) us := by
  induction ts generalizing n with
  | nil => simp [Valid]
  | cons t ts ih => simp only [List.cons_append, Valid, ih, List.map_cons, List.sum_cons,
      Nat.add_assoc, and_assoc]

/-- A copy reproduces the bytes `offset` back of the position it writes. -/
theorem copyBack_eq_take {src : List UInt8} {offset pos : ℕ} (h₁ : 1 ≤ offset)
    (h₂ : offset ≤ pos) (n : ℕ) (hn : pos + n ≤ src.length)
    (heq : ∀ k < n, src.getD (pos - offset + k) 0 = src.getD (pos + k) 0) :
    copyBack offset n (src.take pos) = src.take (pos + n) := by
  induction n generalizing pos with
  | zero => rfl
  | succ n ih =>
    have hlen : (src.take pos).length = pos := by rw [List.length_take]; omega
    have hget : (src.take pos).getD (pos - offset) 0 = src.getD pos 0 := by
      have hk := heq 0 (by omega)
      rw [Nat.add_zero, Nat.add_zero] at hk
      rw [← hk]
      simp only [List.getD_eq_getElem?_getD,
        List.getElem?_take_of_lt (show pos - offset < pos by omega)]
    have hsnoc : src.take pos ++ [src.getD pos 0] = src.take (pos + 1) := by
      rw [List.getD_eq_getElem _ _ (by omega), List.take_append_getElem]
    rw [copyBack, hlen, hget, hsnoc, ih (by omega) (by omega), Nat.add_right_comm, Nat.add_assoc]
    intro k hk
    have := heq (k + 1) (by omega)
    rwa [show pos + 1 - offset + k = pos - offset + (k + 1) by omega, Nat.add_right_comm pos 1 k]

/-! ### The size of an encoding -/

theorem length_nibbleBits (n : ℕ) : (nibbleBits n).length ≤ 4 * (n / 15) + 4 := by
  induction n using Nat.strong_induction_on with
  | _ n ih =>
    unfold nibbleBits
    split
    · simp
    · have := ih (n - 15) (by omega)
      simp only [List.length_append, length_bitsOf]
      omega

/-- **No token is longer than its bytes as literals.** -/
theorem Token.length_bits_le {t : Token} (h : t.Wf) : t.bits.length ≤ 9 * t.size := by
  cases t with
  | lit b => simp [Token.bits, Token.size]
  | mtch long offset length =>
    have hl : 2 ≤ length := h.2
    have ho : (offsetBits long offset).length ≤ 13 := by
      cases long <;> simp [offsetBits]
    have hlen : (lengthBits length).length + 13 ≤ 9 * length := by
      unfold lengthBits
      split
      · rw [length_bitsOf]; omega
      · split
        · simp only [List.length_append, length_bitsOf]; omega
        · have := length_nibbleBits (length - 8)
          simp only [List.length_append, length_bitsOf]
          omega
    simp only [Token.bits, Token.size, List.length_append]
    omega

/-! ### A stream has one sequence of tokens -/

theorem nibbleBits_of_lt {n : ℕ} (h : n < 15) : nibbleBits n = bitsOf 4 n := by
  rw [nibbleBits, if_pos h]

theorem nibbleBits_of_le {n : ℕ} (h : 15 ≤ n) :
    nibbleBits n = bitsOf 4 15 ++ nibbleBits (n - 15) := by
  rw [nibbleBits, if_neg (by omega)]

theorem nibbleBits_inj {m n : ℕ} {xs ys : List Bool}
    (h : nibbleBits m ++ xs = nibbleBits n ++ ys) : m = n ∧ xs = ys := by
  induction m using Nat.strong_induction_on generalizing n with
  | _ m ih =>
    by_cases hm : m < 15
    · by_cases hn : n < 15
      · rw [nibbleBits_of_lt hm, nibbleBits_of_lt hn] at h
        exact bitsOf_append_inj (by omega) (by omega) h
      · rw [nibbleBits_of_lt hm, nibbleBits_of_le (by omega), List.append_assoc] at h
        have := (bitsOf_append_inj (by omega) (by omega) h).1
        omega
    · by_cases hn : n < 15
      · rw [nibbleBits_of_le (by omega), nibbleBits_of_lt hn, List.append_assoc] at h
        have := (bitsOf_append_inj (by omega) (by omega) h).1
        omega
      · rw [nibbleBits_of_le (by omega), nibbleBits_of_le (by omega : 15 ≤ n), List.append_assoc,
          List.append_assoc] at h
        obtain ⟨heq, hrest⟩ := ih (m - 15) (by omega) (List.append_cancel_left h)
        exact ⟨by omega, hrest⟩

/-- The two fields of the length code: the second one is used from 5 on, and the nibbles follow
from 8 on. -/
theorem lengthBits_eq (length : ℕ) : lengthBits length =
    bitsOf 2 (if length < 5 then length - 2 else 3) ++
      if length < 5 then []
      else bitsOf 2 (if length < 8 then length - 5 else 3) ++
        if length < 8 then [] else nibbleBits (length - 8) := by
  rw [lengthBits]
  by_cases h5 : length < 5
  · simp [h5]
  · by_cases h8 : length < 8 <;> simp [h5, h8]

theorem lengthBits_inj {m n : ℕ} {xs ys : List Bool} (hm : 2 ≤ m) (hn : 2 ≤ n)
    (h : lengthBits m ++ xs = lengthBits n ++ ys) : m = n ∧ xs = ys := by
  rw [lengthBits_eq, lengthBits_eq, List.append_assoc, List.append_assoc] at h
  obtain ⟨hfirst, h⟩ := bitsOf_append_inj (by split <;> omega) (by split <;> omega) h
  by_cases hm5 : m < 5
  · rw [if_pos hm5] at hfirst h
    by_cases hn5 : n < 5
    · rw [if_pos hn5] at hfirst h
      exact ⟨by omega, h⟩
    · rw [if_neg hn5] at hfirst
      omega
  · rw [if_neg hm5] at hfirst h
    by_cases hn5 : n < 5
    · rw [if_pos hn5] at hfirst
      omega
    · rw [if_neg hn5, List.append_assoc, List.append_assoc] at h
      obtain ⟨hsecond, h⟩ := bitsOf_append_inj (by split <;> omega) (by split <;> omega) h
      by_cases hm8 : m < 8
      · rw [if_pos hm8] at hsecond h
        by_cases hn8 : n < 8
        · rw [if_pos hn8] at hsecond h
          exact ⟨by omega, h⟩
        · rw [if_neg hn8] at hsecond
          omega
      · rw [if_neg hm8] at hsecond h
        by_cases hn8 : n < 8
        · rw [if_pos hn8] at hsecond
          omega
        · rw [if_neg hn8] at h
          obtain ⟨heq, h⟩ := nibbleBits_inj h
          exact ⟨by omega, h⟩

theorem offsetBits_inj {long : Bool} {m n : ℕ} {xs ys : List Bool}
    (hm : if long then m < 0x800 else 0 < m ∧ m < 0x80)
    (hn : if long then n < 0x800 else 0 < n ∧ n < 0x80)
    (h : offsetBits long m ++ xs = offsetBits long n ++ ys) : m = n ∧ xs = ys := by
  rw [offsetBits, offsetBits] at h
  cases long with
  | false =>
    rw [if_neg Bool.false_ne_true] at hm hn
    obtain ⟨heq, hrest⟩ := bitsOf_append_inj (by omega) (by omega) h
    exact ⟨by omega, hrest⟩
  | true =>
    rw [if_pos rfl] at hm hn
    obtain ⟨heq, hrest⟩ := bitsOf_append_inj (by omega) (by omega) h
    exact ⟨by omega, hrest⟩

/-- The number in the first nine bits of a token. -/
def Token.head : Token → ℕ
  | lit b => b.toNat
  | mtch long offset _ => if long then 0x100 + offset / 16 else 0x180 + offset

theorem Token.bits_take {t : Token} (ht : t.Wf) (xs : List Bool) :
    (t.bits ++ xs).take 9 = bitsOf 9 t.head := by
  cases t with
  | lit b => rw [Token.bits, List.take_left' (length_bitsOf 9 _), Token.head]
  | mtch long offset length =>
    cases long with
    | false => rw [Token.bits, offsetBits, List.append_assoc, if_neg Bool.false_ne_true,
        List.take_left' (length_bitsOf 9 _), Token.head, if_neg Bool.false_ne_true]
    | true =>
      have hhead : (0x1000 + offset) >>> 4 = 0x100 + offset / 16 := by
        rw [Nat.shiftRight_eq_div_pow]
        omega
      rw [Token.bits, offsetBits, if_pos rfl, bitsOf_add 9 4, List.append_assoc, List.append_assoc,
        List.take_left' (length_bitsOf 9 _), Token.head, if_pos rfl, hhead]

/-- The first nine bits tell literals, long and short offsets and the end marker apart. -/
theorem Token.head_spec {t : Token} (ht : t.Wf) :
    t.head < 2 ^ 9 ∧ t.head ≠ 0x180 ∧
      match t with
      | .lit _ => t.head < 0x100
      | .mtch long _ _ => 0x100 ≤ t.head ∧ (long = true ↔ t.head < 0x180) := by
  cases t with
  | lit b =>
    have := b.toNat_lt
    simp only [Token.head]
    omega
  | mtch long offset length =>
    obtain ⟨hoff, -⟩ := ht
    cases long with
    | false => simp [Token.head] at hoff ⊢; omega
    | true => simp [Token.head] at hoff ⊢; omega

/-- **Unique decoding.** -/
theorem tokenBits_inj {ts us : List Token} (hts : ∀ t ∈ ts, t.Wf) (hus : ∀ u ∈ us, u.Wf)
    {xs ys : List Bool}
    (h : tokenBits ts ++ (endMarker ++ xs) = tokenBits us ++ (endMarker ++ ys)) :
    ts = us := by
  -- the first nine bits of what is left
  have hend (xs : List Bool) : (endMarker ++ xs).take 9 = bitsOf 9 0x180 := by
    rw [endMarker, List.take_left' (length_bitsOf 9 _)]
  induction ts generalizing us with
  | nil =>
    cases us with
    | nil => rfl
    | cons u us =>
      obtain ⟨hlt, hne, -⟩ := Token.head_spec (hus u List.mem_cons_self)
      have htake := congrArg (List.take 9) h
      rw [tokenBits_nil, List.nil_append, tokenBits_cons, List.append_assoc, hend,
        Token.bits_take (hus u List.mem_cons_self)] at htake
      exact absurd (bitsOf_inj (by decide) hlt htake).symm hne
  | cons t ts ih =>
    have ht := hts t List.mem_cons_self
    obtain ⟨hlt, hne, hkind⟩ := Token.head_spec ht
    cases us with
    | nil =>
      have htake := congrArg (List.take 9) h
      rw [tokenBits_nil, List.nil_append, tokenBits_cons, List.append_assoc, hend,
        Token.bits_take ht] at htake
      exact absurd (bitsOf_inj hlt (by decide) htake) hne
    | cons u us =>
      have hu := hus u List.mem_cons_self
      obtain ⟨hlt', -, hkind'⟩ := Token.head_spec hu
      rw [tokenBits_cons, tokenBits_cons, List.append_assoc, List.append_assoc] at h
      have hhead : t.head = u.head := by
        have htake := congrArg (List.take 9) h
        rw [Token.bits_take ht, Token.bits_take hu] at htake
        exact bitsOf_inj hlt hlt' htake
      obtain ⟨rfl, hrest⟩ : t = u ∧ tokenBits ts ++ (endMarker ++ xs) =
          tokenBits us ++ (endMarker ++ ys) := by
        cases t with
        | lit b =>
          cases u with
          | lit c =>
            obtain ⟨heq, hrest⟩ := bitsOf_append_inj hlt hlt' h
            exact ⟨congrArg Token.lit (UInt8.toNat.inj heq), hrest⟩
          | mtch long offset length => omega
        | mtch long offset length =>
          cases u with
          | lit c => omega
          | mtch long' offset' length' =>
            obtain rfl : long = long' := by
              rw [Bool.eq_iff_iff, hkind.2, hkind'.2, hhead]
            rw [Token.bits, Token.bits, List.append_assoc, List.append_assoc] at h
            obtain ⟨heq, h⟩ := offsetBits_inj ht.1 hu.1 h
            obtain ⟨hlen, hrest⟩ := lengthBits_inj ht.2 hu.2 h
            exact ⟨by rw [heq, hlen], hrest⟩
      rw [ih (fun t ht => hts t (List.mem_cons_of_mem _ ht))
        (fun u hu => hus u (List.mem_cons_of_mem _ hu)) hrest]

end Lzs

end Ocserv
