import Ocserv.Ccan.HtableInv

/-!
# The hash table: the operations

`Live` is the invariant of a table with memory: its entries are at home, its counters bound what is
in the slots, so that a slot is empty (`Live.exists_empty`) and every search ends, and its pointers
have a bit that the slots keep, so that no entry looks empty or deleted.

The last is not so for every set of pointers.  What the slots keep is the highest bit of the first
pointer, and the bits in which pointers that were added later differ from it: the pointers have to
be `Apart` for every one of them to have such a bit.

Every operation keeps the invariant: `double_table`, `rehash_table` and `update_common` do not
change what the table has; `htable_add` and `htable_delval` add and delete one pointer.
-/

namespace Ocserv

namespace Ccan

open Probing

variable {w : ℕ} {ht ht' : Htable w} {i j s : ℕ} {e p q h x m : BitVec w}
  {S : Set (BitVec w)} {hash hash' rehash : BitVec w → BitVec w}

/-! ### Pointers that the slots tell apart from deleted ones -/

/-- Every pointer has a bit, other than the lowest, that another pointer has only as its highest
one. -/
def Apart (S : Set (BitVec w)) : Prop :=
  ∀ p ∈ S, ∀ q ∈ S, entryIsValid (p &&& ~~~(q &&& ~~~revealedBit q)) = true

/-- The slots keep the highest bit of some pointer, and the bits in which the others differ from
it. -/
def Htable.Revealed (S : Set (BitVec w)) (ht : Htable w) : Prop :=
  (ht.commonMask = BitVec.allOnes w ∧ ht.commonBits = 0 ∧ ht.elems = 0) ∨
    ∃ q ∈ S, q &&& ht.commonMask = ht.commonBits ∧ revealedBit q &&& ht.commonMask = 0

theorem Apart.valid (hS : Apart S) (hp : p ∈ S) : entryIsValid p = true :=
  valid_of_le (hS p hp p hp) (BitVec.le_def.2 (BitVec.toNat_and _ _ ▸ Nat.and_le_left))

theorem Apart.pos (hS : Apart S) (hp : p ∈ S) : 0 < w := by
  rcases Nat.eq_zero_or_pos w with rfl | hw
  · have := hS.valid hp
    rw [BitVec.eq_nil p] at this
    exact absurd this (by decide)
  · exact hw

theorem Htable.Revealed.fits (hr : ht.Revealed S) (hS : Apart S) (hp : p ∈ S)
    (hcommon : p &&& ht.commonMask = ht.commonBits) : ht.Fits p := by
  refine ⟨hcommon, ?_⟩
  obtain ⟨hmask, hbits, -⟩ | ⟨q, hq, hqc, hqr⟩ := hr
  · rw [hmask, hbits, BitVec.and_allOnes] at hcommon
    exact absurd hcommon (ne_zero_of_valid (hS.valid hp))
  · refine valid_of_le (hS p hp q hq) (le_of_and_eq ?_)
    ext i hi
    have h₁ := congrArg (·.getLsbD i) (hcommon.trans hqc.symm)
    have h₂ := congrArg (·.getLsbD i) hqr
    simp [hi] at h₁ h₂ ⊢
    grind

/-- A word with one bit. -/
theorem and_one_shiftLeft (x : BitVec w) (i : ℕ) :
    x &&& (1 : BitVec w) <<< i = 0 ∨ x &&& (1 : BitVec w) <<< i = (1 : BitVec w) <<< i := by
  cases hx : x.getLsbD i with
  | false =>
    left
    ext j hj
    simp only [BitVec.getElem_and, BitVec.getElem_shiftLeft, BitVec.ofNat_eq_ofNat,
      BitVec.getElem_zero]
    rcases Nat.lt_trichotomy j i with hlt | rfl | hgt
    · simp [hlt]
    · rw [BitVec.getLsbD_eq_getElem hj] at hx
      simp [hx]
    · simp [Nat.sub_ne_zero_of_lt hgt]
  | true =>
    right
    ext j hj
    simp only [BitVec.getElem_and, BitVec.getElem_shiftLeft, BitVec.ofNat_eq_ofNat]
    rcases Nat.lt_trichotomy j i with hlt | rfl | hgt
    · simp [hlt]
    · rw [BitVec.getLsbD_eq_getElem hj] at hx
      simp [hx]
    · simp [Nat.sub_ne_zero_of_lt hgt]

/-! ### The invariant -/

/-- A table with memory. -/
structure Htable.Live (S : Set (BitVec w)) (hash : BitVec w → BitVec w) (ht : Htable w) : Prop
    extends ht.Good S hash where
  revealed : ht.Revealed S
  bits_pos : 1 ≤ ht.bits
  bits_le : ht.bits ≤ 30
  max_eq : ht.max = 3 * ht.size / 4
  maxWithDeleted_eq : ht.maxWithDeleted = 9 * ht.size / 10
  elems_eq : (ht.elementsFrom 0).length = ht.elems
  deleted_le : ht.countDeleted ≤ ht.deleted
  room : ht.elems + ht.deleted ≤ ht.maxWithDeleted

theorem size_pos (ht : Htable w) : 0 < ht.size := Nat.two_pow_pos _

theorem length_elementsFrom (ht : Htable w) (s : ℕ) :
    (ht.elementsFrom s).length =
      (List.range ht.size).countP fun i => entryIsValid (ht.slot i) := by
  rw [Htable.elementsFrom, ((ring_perm ht.size s).filterMap ht.entry).length_eq,
    List.length_filterMap_eq_countP]
  refine List.countP_congr fun i _ => ?_
  rw [Htable.entry]
  split <;> simp_all

/-- A slot has no entry if there are more slots than pointers. -/
theorem exists_free (h : (ht.elementsFrom s).length < ht.size) :
    ∃ i < ht.size, entryIsValid (ht.slot i) = false := by
  by_contra hnot
  have hall : ∀ i ∈ List.range ht.size, entryIsValid (ht.slot i) = true := by
    intro i hi
    by_contra hv
    exact hnot ⟨i, List.mem_range.1 hi, Bool.eq_false_iff.2 hv⟩
  rw [length_elementsFrom, List.countP_eq_length.2 hall, List.length_range] at h
  exact Nat.lt_irrefl _ h

/-- **A slot is empty.** -/
theorem Htable.Live.exists_empty (hl : ht.Live S hash) : ∃ i < ht.size, ht.slot i = 0 := by
  by_contra hnot
  have hall : ∀ i ∈ List.range ht.size,
      (¬ entryIsValid (ht.slot i) = true ↔ decide (ht.slot i = htableDeleted) = true) := by
    intro i hi
    rw [Bool.not_eq_true, entryIsValid_eq_false, decide_eq_true_iff]
    exact or_iff_right fun h => hnot ⟨i, List.mem_range.1 hi, h⟩
  have hlen := List.length_eq_countP_add_countP (fun i => entryIsValid (ht.slot i))
    (l := List.range ht.size)
  have hdel : ht.countDeleted = (List.range ht.size).countP
      fun i => decide ¬ entryIsValid (ht.slot i) = true :=
    List.countP_congr fun i hi => by rw [decide_eq_true_iff (p := ¬ _), hall i hi]
  rw [List.length_range, ← length_elementsFrom ht 0, hl.elems_eq, ← hdel] at hlen
  have hroom := hl.room
  have hdeleted := hl.deleted_le
  have hsize := size_pos ht
  rw [hl.maxWithDeleted_eq] at hroom
  omega

/-- The pointers of a table are not `NULL`. -/
theorem Htable.Good.ptr_ne_zero (hg : ht.Good S hash) (hS : Apart S) (hi : i < ht.size)
    (hv : entryIsValid (ht.slot i) = true) : ht.ptr i ≠ 0 :=
  ne_zero_of_valid (hS.valid (hg.mem i hi hv))

/-- What else is put into the table makes no difference to where its entries are. -/
theorem Htable.Good.congr (hg : ht.Good S hash) (h : ∀ p ∈ ht.elementsFrom s, hash' p = hash p) :
    ht.Good S hash' := by
  refine ⟨hg.allocated, hg.masks, fun i hi hv => ?_, hg.mem⟩
  have heq := h _ (mem_elementsFrom.2 ⟨i, hi, hv, rfl⟩)
  have hhome := hg.home i hi hv
  exact ⟨by rw [heq]; exact hhome.extra, by rw [heq]; exact hhome.reaches⟩

theorem Htable.Good.mem_of_mem (hg : ht.Good S hash) (hp : p ∈ ht.elementsFrom s) : p ∈ S := by
  obtain ⟨i, hi, hv, rfl⟩ := mem_elementsFrom.1 hp
  exact hg.mem i hi hv

/-! ### Update_common -/

section UpdateCommon

/-- The bits in which a pointer differs from those the table has in common. -/
def Htable.maskdiff (ht : Htable w) (p : BitVec w) : BitVec w :=
  ht.commonBits ^^^ (p &&& ht.commonMask)

/-- What `update_common` makes of a slot. -/
def Htable.updateSlot (ht : Htable w) (p e : BitVec w) : BitVec w :=
  if entryIsValid e then (e &&& ~~~ht.maskdiff p) ||| (ht.commonBits &&& ht.maskdiff p) else e

theorem Htable.Masks.maskdiff_and_not (hm : ht.Masks) (p : BitVec w) :
    ht.maskdiff p &&& ~~~ht.commonMask = 0 := by
  rw [and_not_eq_zero]
  intro i hi
  have := and_not_eq_zero.1 hm.common i hi
  simp only [Htable.maskdiff, BitVec.getElem_xor, BitVec.getElem_and]
  grind

/-- The perfect bit stays as it is, or is lost. -/
theorem Htable.Masks.perfect_cases (hm : ht.Masks) (p : BitVec w) :
    ht.perfectBit &&& ~~~ht.maskdiff p = ht.perfectBit ∨
      ht.perfectBit &&& ~~~ht.maskdiff p = 0 := by
  obtain h | h := hm.single (ht.maskdiff p)
  · left
    ext i hi
    have := congrArg (·.getLsbD i) h
    simp [hi] at this ⊢
    grind
  · right
    ext i hi
    have := congrArg (·.getLsbD i) h
    simp [hi] at this ⊢
    grind

variable (hne : ht.elems ≠ 0)
include hne

theorem updateCommon_eq (p : BitVec w) : ht.updateCommon p =
    { ht with
      commonMask := ht.commonMask &&& ~~~ht.maskdiff p
      commonBits := ht.commonBits &&& ~~~ht.maskdiff p
      perfectBit := ht.perfectBit &&& ~~~ht.maskdiff p
      table := ht.table.map fun table => table.map (ht.updateSlot p) } := by
  rw [Htable.updateCommon, if_neg hne]
  rfl

theorem updateCommon_size (p : BitVec w) : (ht.updateCommon p).size = ht.size := by
  rw [updateCommon_eq hne]
  rfl

theorem updateCommon_slot (ha : ht.Allocated) (p : BitVec w) (i : ℕ) :
    (ht.updateCommon p).slot i = ht.updateSlot p (ht.slot i) := by
  obtain ⟨table, htable, -⟩ := ha
  have hzero : ht.updateSlot p 0 = 0 := by
    rw [Htable.updateSlot, if_neg]
    rw [entryIsValid_eq_false.2 (.inl rfl)]
    exact Bool.false_ne_true
  rw [updateCommon_eq hne, Htable.slot, Htable.slot, htable]
  simp only [Option.map_some, List.getD_eq_getElem?_getD, List.getElem?_map]
  cases table[i]? with
  | none => exact hzero.symm
  | some e => rfl

theorem updateCommon_masks (hm : ht.Masks) (p : BitVec w) : (ht.updateCommon p).Masks := by
  have hc := and_not_eq_zero.1 hm.common
  have hp := and_not_eq_zero.1 hm.perfect
  rw [updateCommon_eq hne]
  refine ⟨?_, ?_, ?_⟩
  · rw [and_not_eq_zero]
    intro i hi
    have := hc i hi
    simp only [BitVec.getElem_and]
    grind
  · rw [and_not_eq_zero]
    intro i hi
    have := hp i hi
    simp only [BitVec.getElem_and]
    grind
  · dsimp only
    intro x
    obtain h | h := hm.perfect_cases p
    · rw [h]
      exact hm.single x
    · rw [h]
      exact .inl BitVec.and_zero

/-- `update_common` does not change the pointer of an entry. -/
theorem updateCommon_getRawPtr (hm : ht.Masks) (he : entryIsValid e = true) (p : BitVec w) :
    (ht.updateCommon p).getRawPtr (ht.updateSlot p e) = ht.getRawPtr e := by
  have hd := and_not_eq_zero.1 (hm.maskdiff_and_not p)
  have hc := and_not_eq_zero.1 hm.common
  rw [updateCommon_eq hne, Htable.updateSlot, if_pos he]
  unfold Htable.getRawPtr
  ext i hi
  have := hd i hi
  have := hc i hi
  simp only [BitVec.getElem_and, BitVec.getElem_or, BitVec.getElem_not]
  grind

omit hne in
/-- An entry stays one. -/
theorem updateSlot_valid (hm : ht.Masks) (he : entryIsValid e = true) 
    (hf : ht.Fits (ht.getRawPtr e)) (p : BitVec w) : entryIsValid (ht.updateSlot p e) = true := by
  have hd := and_not_eq_zero.1 (hm.maskdiff_and_not p)
  have hc := and_not_eq_zero.1 hm.common
  refine valid_of_le hf.revealed (le_of_and_eq ?_)
  rw [Htable.updateSlot, if_pos he, Htable.getRawPtr]
  ext i hi
  have := hd i hi
  have := hc i hi
  simp only [BitVec.getElem_and, BitVec.getElem_or, BitVec.getElem_not]
  grind

/-- The bits an entry has beside its pointer are those of the hash that are left. -/
theorem updateCommon_tag (hm : ht.Masks) (p h : BitVec w) (i : ℕ) :
    (ht.updateCommon p).tag h i = ht.tag h i &&& ~~~ht.maskdiff p := by
  have hp := and_not_eq_zero.1 hm.perfect
  rw [updateCommon_eq hne]
  unfold Htable.tag Htable.getHashPtrBits Htable.hashBucket
  dsimp only
  ext j hj
  have := hp j hj
  split <;> simp only [BitVec.getElem_and, BitVec.getElem_or, BitVec.getElem_not,
    BitVec.getElem_xor, BitVec.ofNat_eq_ofNat, BitVec.getElem_zero] <;> grind

theorem updateCommon_extra (he : entryIsValid e = true) (p : BitVec w) :
    (ht.updateCommon p).getExtraPtrBits (ht.updateSlot p e) =
      ht.getExtraPtrBits e &&& ~~~ht.maskdiff p := by
  rw [updateCommon_eq hne, Htable.updateSlot, if_pos he]
  unfold Htable.getExtraPtrBits
  ext i hi
  simp only [BitVec.getElem_and, BitVec.getElem_or, BitVec.getElem_not]
  grind

omit hne in
theorem updateSlot_of_not_valid (he : entryIsValid e = false) (p : BitVec w) :
    ht.updateSlot p e = e := by
  rw [Htable.updateSlot, if_neg (by rw [he]; exact Bool.false_ne_true)]

/-- What `update_common` leaves of a table that is not empty. -/
theorem updateCommon_slots (hg : ht.Good S hash)
    (hfits : ∀ i < ht.size, entryIsValid (ht.slot i) = true → ht.Fits (ht.ptr i)) (p : BitVec w)
    (hi : i < ht.size) :
    entryIsValid ((ht.updateCommon p).slot i) = entryIsValid (ht.slot i) ∧
      (entryIsValid (ht.slot i) = true → (ht.updateCommon p).ptr i = ht.ptr i) ∧
      (entryIsValid (ht.slot i) = false → (ht.updateCommon p).slot i = ht.slot i) := by
  rw [Htable.ptr, updateCommon_slot hne hg.allocated]
  cases hv : entryIsValid (ht.slot i) with
  | true =>
    exact ⟨updateSlot_valid hg.masks hv (hfits i hi hv) p,
      fun _ => updateCommon_getRawPtr hne hg.masks hv p, fun h => absurd h.symm Bool.false_ne_true⟩
  | false =>
    rw [updateSlot_of_not_valid hv]
    exact ⟨hv, fun h => absurd h Bool.false_ne_true, fun _ => rfl⟩

end UpdateCommon

/-- What an operation does that does not change what a table has. -/
structure Htable.Keeps (S : Set (BitVec w)) (hash : BitVec w → BitVec w) (ht ht' : Htable w) :
    Prop where
  live : ht'.Live S hash
  perm : (ht'.elementsFrom 0).Perm (ht.elementsFrom 0)
  elems : ht'.elems = ht.elems

/-- Two tables of the same size, of which every slot has the same pointer or none. -/
structure Htable.SameEntries (ht ht' : Htable w) : Prop where
  size : ht'.size = ht.size
  valid : ∀ i < ht.size, entryIsValid (ht'.slot i) = entryIsValid (ht.slot i)
  ptr : ∀ i < ht.size, entryIsValid (ht.slot i) = true → ht'.ptr i = ht.ptr i
  other : ∀ i < ht.size, entryIsValid (ht.slot i) = false → ht'.slot i = ht.slot i

namespace Htable.SameEntries

variable (hs : ht.SameEntries ht')
include hs

theorem elementsFrom (s : ℕ) : ht'.elementsFrom s = ht.elementsFrom s := by
  unfold Htable.elementsFrom
  rw [hs.size]
  refine List.filterMap_congr fun i hi => ?_
  have hi := mem_ring.1 hi
  rw [Htable.entry, hs.valid i hi, Htable.entry]
  split
  · rw [hs.ptr i hi ‹_›]
  · rfl

theorem countDeleted : ht'.countDeleted = ht.countDeleted := by
  unfold Htable.countDeleted
  rw [hs.size]
  refine List.countP_congr fun i hi => ?_
  have hi := List.mem_range.1 hi
  rw [decide_eq_true_iff, decide_eq_true_iff]
  cases hv : entryIsValid (ht.slot i) with
  | false => rw [hs.other i hi hv]
  | true => exact iff_of_false (ne_deleted_of_valid (hs.valid i hi ▸ hv)) (ne_deleted_of_valid hv)

theorem busy (hi : i < ht.size) (h : ht.Busy i) : ht'.Busy i := by
  cases hv : entryIsValid (ht.slot i) with
  | false => rwa [Htable.Busy, hs.other i hi hv]
  | true => exact ne_zero_of_valid (hs.valid i hi ▸ hv)

end Htable.SameEntries

/-- Two tables with the same counters. -/
structure Htable.SameCounters (ht ht' : Htable w) : Prop where
  bits : ht'.bits = ht.bits
  max : ht'.max = ht.max
  maxWithDeleted : ht'.maxWithDeleted = ht.maxWithDeleted
  elems : ht'.elems = ht.elems
  deleted : ht'.deleted = ht.deleted

theorem Htable.Live.keeps (hl : ht.Live S hash) (hs : ht.SameEntries ht') (hg : ht'.Good S hash)
    (hr : ht'.Revealed S) (hc : ht.SameCounters ht') : ht.Keeps S hash ht' where
  live :=
    { hg with
      revealed := hr
      bits_pos := hc.bits ▸ hl.bits_pos
      bits_le := hc.bits ▸ hl.bits_le
      max_eq := by rw [hc.max, hl.max_eq, hs.size]
      maxWithDeleted_eq := by rw [hc.maxWithDeleted, hl.maxWithDeleted_eq, hs.size]
      elems_eq := by rw [hs.elementsFrom, hl.elems_eq, hc.elems]
      deleted_le := by rw [hs.countDeleted, hc.deleted]; exact hl.deleted_le
      room := by rw [hc.elems, hc.deleted, hc.maxWithDeleted]; exact hl.room }
  perm := by rw [hs.elementsFrom]
  elems := hc.elems

/-- A search looks at slots of the table only. -/
theorem reaches_congr {n b : ℕ} {busy busy' : ℕ → Prop} (h : Reaches n busy b i)
    (hb : ∀ j < n, busy j → busy' j) : Reaches n busy' b i := by
  obtain ⟨d, hd, hi, hbusy⟩ := h
  exact ⟨d, hd, hi, fun e he => hb _ (Nat.mod_lt _ (Nat.zero_lt_of_lt hd)) (hbusy e he)⟩

/-- The bit that is revealed first is not the lowest. -/
theorem one_and_revealedBit (h : entryIsValid (p &&& revealedBit p) = true) :
    (1 : BitVec w) &&& revealedBit p = 0 := by
  unfold revealedBit at *
  cases hk : highestBit p (w - 1) with
  | zero =>
    rw [hk] at h
    refine absurd h (Bool.eq_false_iff.1 (entryIsValid_eq_false.2 ?_))
    have := and_one_shiftLeft p 0
    rwa [BitVec.shiftLeft_zero] at *
  | succ k =>
    ext i hi
    simp only [BitVec.getElem_and, BitVec.getElem_shiftLeft, BitVec.ofNat_eq_ofNat,
      BitVec.getElem_zero, BitVec.getElem_one]
    rcases Nat.eq_zero_or_pos i with rfl | hpos
    · simp
    · simp [Nat.ne_of_gt hpos]

/-- The table is empty: the first pointer decides which bits the slots keep. -/
theorem updateCommon_of_empty (hl : ht.Live S hash) (hS : Apart S) (hp : p ∈ S)
    (he : ht.elems = 0) :
    ht.Keeps S hash (ht.updateCommon p) ∧ (ht.updateCommon p).Fits p := by
  have hnone : ∀ i < ht.size, entryIsValid (ht.slot i) = false := by
    intro i hi
    by_contra hv
    have hmem := mem_elementsFrom (s := 0).2 ⟨i, hi, eq_true_of_ne_false hv, rfl⟩
    rw [List.length_eq_zero_iff.1 (hl.elems_eq.trans he)] at hmem
    exact List.not_mem_nil hmem
  have heq : ht.updateCommon p = { ht with
      commonMask := ~~~revealedBit p
      commonBits := p &&& ~~~revealedBit p
      perfectBit := 1 } := by
    rw [Htable.updateCommon, if_pos he]
  have hslot (i : ℕ) : (ht.updateCommon p).slot i = ht.slot i := by
    obtain ⟨table, htable, -⟩ := hl.allocated
    rw [heq, Htable.slot, Htable.slot, htable]
  have hsize : (ht.updateCommon p).size = ht.size := by rw [heq]; rfl
  have hsame : ht.SameEntries (ht.updateCommon p) :=
    ⟨hsize, fun i _ => by rw [hslot], fun i hi hv => (by rw [hnone i hi] at hv; cases hv),
      fun i _ _ => hslot i⟩
  have hrevealed : entryIsValid (p &&& revealedBit p) = true := by
    refine valid_of_le (hS p hp p hp) (le_of_and_eq ?_)
    ext i hi
    simp only [BitVec.getElem_and, BitVec.getElem_not]
    grind
  have hnot : ~~~~~~revealedBit p = revealedBit p := BitVec.not_not
  have hr : (ht.updateCommon p).Revealed S := by
    refine .inr ⟨p, hp, ?_, ?_⟩
    · rw [heq]
    · rw [heq]
      exact BitVec.and_not_self _
  have hcommon : p &&& (ht.updateCommon p).commonMask = (ht.updateCommon p).commonBits := by
    rw [heq]
  have hmasks : (ht.updateCommon p).Masks := by
    rw [heq]
    refine ⟨?_, ?_, ?_⟩
    · dsimp only
      rw [hnot, BitVec.and_assoc, BitVec.and_comm (~~~_), BitVec.and_not_self]
      exact BitVec.and_zero
    · dsimp only
      rw [hnot, one_and_revealedBit hrevealed]
    · have := and_one_shiftLeft (w := w) (i := 0)
      rwa [BitVec.shiftLeft_zero] at this
  have hgood : (ht.updateCommon p).Good S hash := by
    refine ⟨?_, hmasks, fun i hi hv => ?_, fun i hi hv => ?_⟩
    · rw [heq]
      exact hl.allocated
    · rw [hslot, hnone i (hsize ▸ hi)] at hv
      cases hv
    · rw [hslot, hnone i (hsize ▸ hi)] at hv
      cases hv
  exact ⟨hl.keeps hsame hgood hr (by rw [heq]; exact ⟨rfl, rfl, rfl, rfl, rfl⟩),
    hr.fits hS hp hcommon⟩

/-- **What `update_common` keeps.** -/
theorem updateCommon_of_ne (hl : ht.Live S hash) (hS : Apart S) (hp : p ∈ S)
    (hne : ht.elems ≠ 0) :
    ht.Keeps S hash (ht.updateCommon p) ∧ (ht.updateCommon p).Fits p := by
  have hfits : ∀ i < ht.size, entryIsValid (ht.slot i) = true → ht.Fits (ht.ptr i) :=
    fun i hi hv => hl.revealed.fits hS (hl.mem i hi hv) (hl.masks.ptr_and _)
  have hslots {i : ℕ} (hi : i < ht.size) := updateCommon_slots hne hl.toGood hfits p hi
  have heq := updateCommon_eq hne p
  have hsize := updateCommon_size hne p
  have hsame : ht.SameEntries (ht.updateCommon p) :=
    ⟨hsize, fun i hi => (hslots hi).1, fun i hi => (hslots hi).2.1, fun i hi => (hslots hi).2.2⟩
  have hmasks := updateCommon_masks hne hl.masks p
  have hr : (ht.updateCommon p).Revealed S := by
    obtain ⟨-, -, h⟩ | ⟨q, hq, hqc, hqr⟩ := hl.revealed
    · exact absurd h hne
    · refine .inr ⟨q, hq, ?_, ?_⟩
      · rw [heq]
        dsimp only
        rw [← BitVec.and_assoc, hqc]
      · rw [heq]
        dsimp only
        rw [← BitVec.and_assoc, hqr]
        exact BitVec.zero_and
  have hcommon : p &&& (ht.updateCommon p).commonMask = (ht.updateCommon p).commonBits := by
    rw [heq]
    unfold Htable.maskdiff
    ext i hi
    simp only [BitVec.getElem_and, BitVec.getElem_not, BitVec.getElem_xor]
    grind
  have hbucket (h : BitVec w) : (ht.updateCommon p).hashBucket h = ht.hashBucket h := by
    rw [heq]; rfl
  have hgood : (ht.updateCommon p).Good S hash := by
    refine ⟨?_, hmasks, fun i hi hv => ?_, fun i hi hv => ?_⟩
    · obtain ⟨table, htable, hlen⟩ := hl.allocated
      refine ⟨table.map (ht.updateSlot p), by rw [heq, htable]; rfl, ?_⟩
      rw [List.length_map, hlen, hsize]
    · rw [hsize] at hi
      rw [(hslots hi).1] at hv
      have hhome := hl.home i hi hv
      have hptr := (hslots hi).2.1 hv
      refine ⟨?_, ?_⟩
      · rw [hptr, updateCommon_tag hne hl.masks, ← hhome.extra, updateCommon_slot hne hl.allocated,
          updateCommon_extra hne hv]
      · rw [hptr, hbucket, hsize]
        exact reaches_congr hhome.reaches fun j hj => hsame.busy hj
    · rw [hsize] at hi
      rw [(hslots hi).1] at hv
      rw [(hslots hi).2.1 hv]
      exact hl.mem i hi hv
  exact ⟨hl.keeps hsame hgood hr (by rw [heq]; exact ⟨rfl, rfl, rfl, rfl, rfl⟩),
    hr.fits hS hp hcommon⟩

end Ccan

end Ocserv
