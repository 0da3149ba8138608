import Mathlib.Data.List.Basic

/-!
# Base64

A text of base64 has four characters for every three bytes, and `=` in the place of what is missing
at its end.

* `decode_encode` : what was written is read again.
* `length_encode` : how long a text is.
-/

namespace Ocserv

namespace Base64

/-- The digits. -/
def alphabet : List UInt8 :=
  "ABCDEFGHIJKLMNOPQRSTUVWXYZabcdefghijklmnopqrstuvwxyz0123456789+/".toList.map fun c =>
    UInt8.ofNat c.toNat

/-- `=` -/
def pad : UInt8 := 61

/-- The digit for six bits. -/
def digit (n : ℕ) : UInt8 := alphabet.getD n pad

/-- The six bits of a digit. -/
def value (c : UInt8) : Option ℕ := alphabet.idxOf? c

/-! ### Texts -/

/-- The text of some bytes. -/
def encode : List UInt8 → List UInt8
  | [] => []
  | [a] => [digit (a.toNat / 4), digit (a.toNat % 4 * 16), pad, pad]
  | [a, b] =>
    [digit (a.toNat / 4), digit (a.toNat % 4 * 16 + b.toNat / 16), digit (b.toNat % 16 * 4), pad]
  | a :: b :: c :: bytes =>
    digit (a.toNat / 4) :: digit (a.toNat % 4 * 16 + b.toNat / 16) ::
      digit (b.toNat % 16 * 4 + c.toNat / 64) :: digit (c.toNat % 64) :: encode bytes

/-- The bytes of two, three or four digits. -/
def firstByte (x y : ℕ) : UInt8 := UInt8.ofNat (x * 4 + y / 16)

def secondByte (y z : ℕ) : UInt8 := UInt8.ofNat (y % 16 * 16 + z / 4)

def thirdByte (z w : ℕ) : UInt8 := UInt8.ofNat (z % 4 * 64 + w)

/-- Four characters that are the end of the text, or not. -/
def quad (last : Bool) (c₀ c₁ c₂ c₃ : UInt8) : Option (List UInt8) :=
  (value c₀).bind fun x => (value c₁).bind fun y =>
    if last ∧ c₂ = pad then if c₃ = pad then some [firstByte x y] else none
    else
      (value c₂).bind fun z =>
        if last ∧ c₃ = pad then some [firstByte x y, secondByte y z]
        else (value c₃).map fun w => [firstByte x y, secondByte y z, thirdByte z w]

/-- The bytes of a text.  The bits behind the last byte do not matter. -/
def decode : List UInt8 → Option (List UInt8)
  | [] => some []
  | c₀ :: c₁ :: c₂ :: c₃ :: text =>
    (quad text.isEmpty c₀ c₁ c₂ c₃).bind fun bytes => (decode text).map (bytes ++ ·)
  | _ => none

/-! ### Digits -/

theorem length_alphabet : alphabet.length = 64 := by decide

theorem value_digit {n : ℕ} (h : n < 64) : value (digit n) = some n := by
  have hall : ∀ n : Fin 64, value (digit n) = some n.val := by decide +kernel
  exact hall ⟨n, h⟩

theorem value_lt {c : UInt8} {n : ℕ} (h : value c = some n) : n < 64 := by
  have hlt := (List.idxOf?_eq_some_iff.1 h).1
  rwa [length_alphabet] at hlt

theorem value_pad : value pad = none := by decide

theorem digit_ne_pad {n : ℕ} (h : n < 64) : digit n ≠ pad := by
  intro hpad
  have hvalue := value_digit h
  rw [hpad, value_pad] at hvalue
  cases hvalue

/-- The characters of a text. -/
theorem mem_encode {bytes : List UInt8} {c : UInt8} (h : c ∈ encode bytes) :
    c ∈ alphabet ∨ c = pad := by
  have hdigit (n : ℕ) : digit n ∈ alphabet ∨ digit n = pad := by
    rw [digit, List.getD_eq_getElem?_getD]
    cases hget : alphabet[n]? with
    | none => exact .inr rfl
    | some d => exact .inl (List.mem_of_getElem? hget)
  induction bytes using encode.induct with
  | case1 => cases h
  | case2 a | case3 a b =>
    simp only [encode, List.mem_cons, List.not_mem_nil, or_false] at h
    obtain rfl | rfl | rfl | rfl := h
    all_goals first | exact hdigit _ | exact .inr rfl
  | case4 a b c₀ bytes ih =>
    simp only [encode, List.mem_cons] at h
    obtain rfl | rfl | rfl | rfl | h := h
    all_goals first | exact hdigit _ | exact ih h

/-- The length of a text. -/
theorem length_encode (bytes : List UInt8) :
    (encode bytes).length = (bytes.length + 2) / 3 * 4 := by
  induction bytes using encode.induct with
  | case1 => rfl
  | case2 a => simp [encode]
  | case3 a b => simp [encode]
  | case4 a b c bytes ih =>
    simp only [encode, List.length_cons, ih]
    omega

/-! ### Reading what was written -/

theorem firstByte_eq {a n : ℕ} (hn : n < 16) :
    firstByte (a / 4) (a % 4 * 16 + n) = UInt8.ofNat a := by
  rw [firstByte]
  congr 1
  omega

theorem secondByte_eq {b m n : ℕ} (h : b < 256) (hn : n < 4) :
    secondByte (m * 16 + b / 16) (b % 16 * 4 + n) = UInt8.ofNat b := by
  rw [secondByte]
  congr 1
  omega

theorem thirdByte_eq {c m : ℕ} (h : c < 256) :
    thirdByte (m * 4 + c / 64) (c % 64) = UInt8.ofNat c := by
  rw [thirdByte]
  congr 1
  omega

/-- **What was written is read again.** -/
theorem decode_encode (bytes : List UInt8) : decode (encode bytes) = some bytes := by
  induction bytes using encode.induct with
  | case1 => rfl
  | case2 a =>
    have ha := a.toNat_lt
    have hfirst := @firstByte_eq a.toNat 0 (by decide)
    rw [Nat.add_zero] at hfirst
    simp [encode, decode, quad, value_digit (show a.toNat / 4 < 64 by omega),
      value_digit (show a.toNat % 4 * 16 < 64 by omega), hfirst]
  | case3 a b =>
    have ha := a.toNat_lt
    have hb := b.toNat_lt
    have hsecond := @secondByte_eq b.toNat (a.toNat % 4) 0 hb (by decide)
    rw [Nat.add_zero] at hsecond
    have hz : b.toNat % 16 * 4 < 64 := by omega
    simp [encode, decode, quad, value_digit (show a.toNat / 4 < 64 by omega),
      value_digit (show a.toNat % 4 * 16 + b.toNat / 16 < 64 by omega), value_digit hz,
      digit_ne_pad hz, firstByte_eq (show b.toNat / 16 < 16 by omega), hsecond]
  | case4 a b c bytes ih =>
    have ha := a.toNat_lt
    have hb := b.toNat_lt
    have hc := c.toNat_lt
    have hz : b.toNat % 16 * 4 + c.toNat / 64 < 64 := by omega
    have hw : c.toNat % 64 < 64 := by omega
    simp [encode, decode, quad, ih, value_digit (show a.toNat / 4 < 64 by omega),
      value_digit (show a.toNat % 4 * 16 + b.toNat / 16 < 64 by omega), value_digit hz,
      value_digit hw, digit_ne_pad hz, digit_ne_pad hw,
      firstByte_eq (show b.toNat / 16 < 16 by omega),
      secondByte_eq hb (show c.toNat / 64 < 4 by omega), thirdByte_eq hc]

end Base64

end Ocserv
