import Mathlib.Algebra.GroupWithZero.Nat
import Mathlib.Data.Nat.Bitwise
import Mathlib.Data.List.Basic

/-!
# Bit streams, most significant bit first

A byte string read most significant bit first is a list of bits.  This file is the vocabulary in
which bit-packed formats are specified, independent of how a program shifts and masks:

* `bitsOf w n` : the low `w` bits of `n`;
* `bytesToBits bs` : the bits of a byte string.

The two rules the proofs about packing and unpacking programs use are `bitsOf_add`, which cuts a
field in two, and `bitsOf_congr`, which compares fields bit by bit.
-/

namespace Ocserv

/-- The low `w` bits of `n`, most significant first. -/
def bitsOf : ℕ → ℕ → List Bool
  | 0, _ => []
  | w + 1, n => n.testBit w :: bitsOf w n

/-- The bits of a byte string. -/
def bytesToBits (bs : List UInt8) : List Bool := bs.flatMap fun b => bitsOf 8 b.toNat

@[simp] theorem length_bitsOf (w n : ℕ) : (bitsOf w n).length = w := by
  induction w with
  | zero => rfl
  | succ w ih => simp [bitsOf, ih]

/-- Fields of width `w` are determined by the bits below `w`. -/
theorem bitsOf_congr {w m n : ℕ} (h : ∀ i < w, m.testBit i = n.testBit i) :
    bitsOf w m = bitsOf w n := by
  induction w with
  | zero => rfl
  | succ w ih => rw [bitsOf, bitsOf, h w (by omega), ih fun i hi => h i (by omega)]

/-- A field of width `j + k` is its high `j` bits followed by its low `k` bits. -/
theorem bitsOf_add (j k n : ℕ) : bitsOf (j + k) n = bitsOf j (n >>> k) ++ bitsOf k n := by
  induction j with
  | zero => simp [bitsOf]
  | succ j ih =>
    rw [Nat.add_right_comm, bitsOf, ih, bitsOf, Nat.testBit_shiftRight, List.cons_append,
      Nat.add_comm k j]

theorem testBit_eq_of_bitsOf_eq {w m n : ℕ} (h : bitsOf w m = bitsOf w n) :
    ∀ i < w, m.testBit i = n.testBit i := by
  induction w with
  | zero => intro i hi; omega
  | succ w ih =>
    simp only [bitsOf, List.cons.injEq] at h
    intro i hi
    rcases Nat.lt_or_eq_of_le (Nat.le_of_lt_succ hi) with hlt | rfl
    · exact ih h.2 i hlt
    · exact h.1

/-- A field determines the number it holds, if that fits the field. -/
theorem bitsOf_inj {w m n : ℕ} (hm : m < 2 ^ w) (hn : n < 2 ^ w)
    (h : bitsOf w m = bitsOf w n) : m = n := by
  refine Nat.eq_of_testBit_eq ?_
  intro i
  by_cases hi : i < w
  · exact testBit_eq_of_bitsOf_eq h i hi
  · have hle : 2 ^ w ≤ 2 ^ i := Nat.pow_le_pow_right (by omega) (by omega)
    rw [Nat.testBit_lt_two_pow (hm.trans_le hle), Nat.testBit_lt_two_pow (hn.trans_le hle)]

theorem bitsOf_mod (w n : ℕ) : bitsOf w (n % 2 ^ w) = bitsOf w n :=
  bitsOf_congr fun i hi => by simp [hi]

/-- Two fields at the head of the same stream hold the same number. -/
theorem bitsOf_append_inj {w m n : ℕ} {xs ys : List Bool} (hm : m < 2 ^ w) (hn : n < 2 ^ w)
    (h : bitsOf w m ++ xs = bitsOf w n ++ ys) : m = n ∧ xs = ys := by
  obtain ⟨h1, h2⟩ := List.append_inj h (by simp)
  exact ⟨bitsOf_inj hm hn h1, h2⟩

@[simp] theorem bytesToBits_nil : bytesToBits [] = [] := rfl

@[simp] theorem bytesToBits_cons (b : UInt8) (bs : List UInt8) :
    bytesToBits (b :: bs) = bitsOf 8 b.toNat ++ bytesToBits bs := rfl

@[simp] theorem bytesToBits_append (as bs : List UInt8) :
    bytesToBits (as ++ bs) = bytesToBits as ++ bytesToBits bs := by
  simp [bytesToBits]

@[simp] theorem length_bytesToBits (bs : List UInt8) :
    (bytesToBits bs).length = 8 * bs.length := by
  induction bs with
  | nil => rfl
  | cons b bs ih => simp [ih]; omega

end Ocserv
