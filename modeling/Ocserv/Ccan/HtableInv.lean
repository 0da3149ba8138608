import Ocserv.Ccan.Htable
import Ocserv.Probing

/-!
# The hash table: where entries are

What a slot says about its entry, and the searches for a slot.

* `Home` : the entry of a slot has the bits of its hash, and a search from the slot its hash asks
  for comes to it;
* `Good` : all entries of a table are at home;
* `Added` : what `ht_add` does (`exists_added`), and that it leaves a `Good` table (`Added.good`);
* `forVal_eq` : the loop over the candidates for a hash goes over the slots that `match` it, in
  the order in which the search passes them.
-/

namespace Ocserv

namespace Ccan

open Probing

variable {w : ℕ} {ht ht' : Htable w} {i j : ℕ} {e p q h t m cb x y : BitVec w}
  {S : Set (BitVec w)} {hash : BitVec w → BitVec w}

/-! ### Words -/

theorem le_of_and_eq (h : x &&& y = x) : x ≤ y := by
  rw [← h, BitVec.le_def, BitVec.toNat_and]
  exact Nat.and_le_right

theorem or_left_le : x ≤ x ||| y := by
  rw [BitVec.le_def, BitVec.toNat_or]
  exact Nat.left_le_or

/-- A word has no bits outside of a mask. -/
theorem and_not_eq_zero : x &&& ~~~m = 0 ↔ ∀ i (_ : i < w), x[i] = true → m[i] = true := by
  constructor
  · intro h i hi hx
    have hi₀ := congrArg (·.getLsbD i) h
    simpa [hi, hx] using hi₀
  · intro h
    ext i hi
    have := h i hi
    simp only [BitVec.getElem_and, BitVec.getElem_not, BitVec.ofNat_eq_ofNat, BitVec.getElem_zero]
    grind

theorem entryIsValid_eq_false : entryIsValid e = false ↔ e = 0 ∨ e = htableDeleted := by
  unfold entryIsValid htableDeleted
  rw [decide_eq_false_iff_not, BitVec.lt_def, ← BitVec.toNat_inj, ← BitVec.toNat_inj]
  simp only [BitVec.ofNat_eq_ofNat, BitVec.toNat_ofNat, Nat.zero_mod]
  have : 1 % 2 ^ w ≤ 1 := Nat.mod_le _ _
  omega

theorem ne_zero_of_valid (h : entryIsValid e = true) : e ≠ 0 := by
  rintro rfl
  rw [entryIsValid_eq_false.2 (.inl rfl)] at h
  cases h

theorem ne_deleted_of_valid (h : entryIsValid e = true) : e ≠ htableDeleted := by
  rintro rfl
  rw [entryIsValid_eq_false.2 (.inr rfl)] at h
  cases h

theorem valid_of_le (h : entryIsValid x = true) (hle : x ≤ y) : entryIsValid y = true := by
  unfold entryIsValid at *
  rw [decide_eq_true_eq] at *
  exact Nat.lt_of_lt_of_le h hle

/-! ### The bits of an entry -/

/-- The bits of the words of a table: which ones all pointers share, and that one of them is the
perfect bit, if there is one. -/
structure Htable.Masks (ht : Htable w) : Prop where
  common : ht.commonBits &&& ~~~ht.commonMask = 0
  perfect : ht.perfectBit &&& ~~~ht.commonMask = 0
  single : ∀ x, x &&& ht.perfectBit = 0 ∨ x &&& ht.perfectBit = ht.perfectBit

/-- The pointer of the entry of a slot. -/
def Htable.ptr (ht : Htable w) (i : ℕ) : BitVec w := ht.getRawPtr (ht.slot i)

/-- The bits an entry has beside its pointer, in the slot `i`. -/
def Htable.tag (ht : Htable w) (h : BitVec w) (i : ℕ) : BitVec w :=
  ht.getHashPtrBits h ||| if i = ht.hashBucket h then ht.perfectBit else 0

theorem getHashPtrBits_and_not (ht : Htable w) (h : BitVec w) :
    ht.getHashPtrBits h &&& ~~~ht.commonMask = 0 := by
  rw [and_not_eq_zero]
  intro i hi
  simp only [Htable.getHashPtrBits, BitVec.getElem_and]
  grind

theorem Htable.Masks.tag_and_not (hm : ht.Masks) (h : BitVec w) (i : ℕ) :
    ht.tag h i &&& ~~~ht.commonMask = 0 := by
  have hhash := and_not_eq_zero.1 (getHashPtrBits_and_not ht h)
  have hperfect := and_not_eq_zero.1 hm.perfect
  rw [and_not_eq_zero]
  intro j hj
  unfold Htable.tag
  have := hhash j hj
  have := hperfect j hj
  split <;> simp only [BitVec.getElem_or, BitVec.ofNat_eq_ofNat, BitVec.getElem_zero] <;> grind

/-- An entry has the pointer it was made of. -/
theorem getRawPtr_makeHval (hp : p &&& ht.commonMask = ht.commonBits)
    (ht₀ : t &&& ~~~ht.commonMask = 0) : ht.getRawPtr (ht.makeHval p t) = p := by
  unfold Htable.getRawPtr Htable.makeHval
  rw [← hp]
  ext i hi
  have := and_not_eq_zero.1 ht₀ i hi
  simp only [BitVec.getElem_or, BitVec.getElem_and, BitVec.getElem_not]
  grind

/-- An entry has the bits it was made of. -/
theorem getExtraPtrBits_makeHval (ht₀ : t &&& ~~~ht.commonMask = 0) :
    ht.getExtraPtrBits (ht.makeHval p t) = t := by
  unfold Htable.getExtraPtrBits Htable.makeHval
  ext i hi
  have := and_not_eq_zero.1 ht₀ i hi
  simp only [BitVec.getElem_or, BitVec.getElem_and, BitVec.getElem_not]
  grind

theorem Htable.Masks.ptr_and (hm : ht.Masks) (e : BitVec w) :
    ht.getRawPtr e &&& ht.commonMask = ht.commonBits := by
  unfold Htable.getRawPtr
  ext i hi
  have := and_not_eq_zero.1 hm.common i hi
  simp only [BitVec.getElem_or, BitVec.getElem_and, BitVec.getElem_not]
  grind

theorem makeHval_valid (hp : entryIsValid (p &&& ~~~ht.commonMask) = true) :
    entryIsValid (ht.makeHval p t) = true :=
  valid_of_le hp or_left_le

/-! ### Slots -/

theorem hashBucket_lt (ht : Htable w) (h : BitVec w) : ht.hashBucket h < ht.size := by
  unfold Htable.hashBucket Htable.size
  rw [Nat.and_two_pow_sub_one_eq_mod]
  exact Nat.mod_lt _ (Nat.two_pow_pos _)

/-- A search is at the slot its hash asks for only at first. -/
theorem hashBucket_add_eq {d : ℕ} (hd : d < ht.size) :
    (ht.hashBucket h + d) % ht.size = ht.hashBucket h ↔ d = 0 := by
  have hb := Nat.mod_eq_of_lt (hashBucket_lt ht h)
  constructor
  · intro heq
    refine offset_inj (s := ht.hashBucket h) hd (Nat.zero_lt_of_lt hd) ?_
    rw [heq, Nat.add_zero, hb]
  · rintro rfl
    rw [Nat.add_zero, hb]

theorem succ_eq (ht : Htable w) (i : ℕ) : ht.succ i = (i + 1) % ht.size :=
  Nat.and_two_pow_sub_one_eq_mod _ _

/-- The table has memory of its own. -/
def Htable.Allocated (ht : Htable w) : Prop :=
  ∃ table, ht.table = some table ∧ table.length = ht.size

/-- Two tables that differ in their slots and counters only. -/
structure Htable.Frame (ht ht' : Htable w) : Prop where
  bits : ht'.bits = ht.bits
  commonMask : ht'.commonMask = ht.commonMask
  commonBits : ht'.commonBits = ht.commonBits
  perfectBit : ht'.perfectBit = ht.perfectBit
  max : ht'.max = ht.max
  maxWithDeleted : ht'.maxWithDeleted = ht.maxWithDeleted
  elems : ht'.elems = ht.elems
  deleted : ht'.deleted = ht.deleted

namespace Htable.Frame

theorem refl (ht : Htable w) : ht.Frame ht := ⟨rfl, rfl, rfl, rfl, rfl, rfl, rfl, rfl⟩

theorem trans {ht'' : Htable w} (h : ht.Frame ht') (h' : ht'.Frame ht'') : ht.Frame ht'' :=
  ⟨h'.1.trans h.1, h'.2.trans h.2, h'.3.trans h.3, h'.4.trans h.4, h'.5.trans h.5,
    h'.6.trans h.6, h'.7.trans h.7, h'.8.trans h.8⟩

variable (hf : ht.Frame ht')
include hf

theorem size : ht'.size = ht.size := by rw [Htable.size, hf.bits, Htable.size]

theorem getRawPtr (e : BitVec w) : ht'.getRawPtr e = ht.getRawPtr e := by
  rw [Htable.getRawPtr, hf.commonMask, hf.commonBits, Htable.getRawPtr]

theorem getExtraPtrBits (e : BitVec w) : ht'.getExtraPtrBits e = ht.getExtraPtrBits e := by
  rw [Htable.getExtraPtrBits, hf.commonMask, Htable.getExtraPtrBits]

theorem hashBucket (h : BitVec w) : ht'.hashBucket h = ht.hashBucket h := by
  rw [Htable.hashBucket, hf.bits, Htable.hashBucket]

theorem tag (h : BitVec w) (i : ℕ) : ht'.tag h i = ht.tag h i := by
  rw [Htable.tag, hf.hashBucket, hf.perfectBit, Htable.getHashPtrBits, hf.bits, hf.commonMask,
    hf.perfectBit, Htable.tag, Htable.getHashPtrBits]

theorem masks (hm : ht.Masks) : ht'.Masks := by
  refine ⟨?_, ?_, ?_⟩
  · rw [hf.commonBits, hf.commonMask, hm.common]
  · rw [hf.perfectBit, hf.commonMask, hm.perfect]
  · rw [hf.perfectBit]
    exact hm.single

end Htable.Frame

/-- A slot of a table is written. -/
structure Htable.Written (ht ht' : Htable w) (i : ℕ) (e : BitVec w) : Prop where
  frame : ht.Frame ht'
  allocated : ht'.Allocated
  self : ht'.slot i = e
  other : ∀ j ≠ i, ht'.slot j = ht.slot j

theorem written (ha : ht.Allocated) (hi : i < ht.size) (e : BitVec w) :
    ht.Written (ht.write i e) i e := by
  obtain ⟨table, htable, hlen⟩ := ha
  have hwrite : ht.write i e = { ht with table := some (table.set i e) } := by
    rw [Htable.write, htable]
  rw [hwrite]
  refine ⟨⟨rfl, rfl, rfl, rfl, rfl, rfl, rfl, rfl⟩, ⟨_, rfl, ?_⟩, ?_, fun j hj => ?_⟩
  · rw [List.length_set, hlen]
    rfl
  · show (table.set i e).getD i 0 = e
    rw [List.getD_eq_getElem?_getD, List.getElem?_set_self (hlen ▸ hi), Option.getD_some]
  · show (table.set i e).getD j 0 = ht.slot j
    rw [Htable.slot, htable, List.getD_eq_getElem?_getD, List.getElem?_set_ne hj.symm,
      ← List.getD_eq_getElem?_getD]

/-! ### Entries -/

/-- A slot that a search goes on from. -/
def Htable.Busy (ht : Htable w) (i : ℕ) : Prop := ht.slot i ≠ 0

/-- The entry of a slot has the bits of its hash, and a search for the hash comes to it. -/
structure Htable.Home (ht : Htable w) (hash : BitVec w → BitVec w) (i : ℕ) : Prop where
  extra : ht.getExtraPtrBits (ht.slot i) = ht.tag (hash (ht.ptr i)) i
  reaches : Reaches ht.size ht.Busy (ht.hashBucket (hash (ht.ptr i))) i

/-- A slot that is not written stays as it is. -/
theorem Htable.Home.frame (hh : ht.Home hash i) (hf : ht.Frame ht') (hi : ht'.slot i = ht.slot i)
    (hbusy : ∀ j, ht.Busy j → ht'.Busy j) : ht'.Home hash i := by
  have hptr : ht'.ptr i = ht.ptr i := by rw [Htable.ptr, hf.getRawPtr, hi, Htable.ptr]
  refine ⟨?_, ?_⟩
  · rw [hf.getExtraPtrBits, hi, hptr, hf.tag, hh.extra]
  · rw [hptr, hf.hashBucket, hf.size]
    exact hh.reaches.mono hbusy

/-- Every entry is at home. -/
structure Htable.Good (S : Set (BitVec w)) (hash : BitVec w → BitVec w) (ht : Htable w) : Prop where
  allocated : ht.Allocated
  masks : ht.Masks
  home : ∀ i < ht.size, entryIsValid (ht.slot i) = true → ht.Home hash i
  mem : ∀ i < ht.size, entryIsValid (ht.slot i) = true → ht.ptr i ∈ S

/-! ### What the table has -/

/-- What a slot has. -/
def Htable.entry (ht : Htable w) (i : ℕ) : Option (BitVec w) :=
  if entryIsValid (ht.slot i) then some (ht.ptr i) else none

/-- The pointers of a table, in the order of the slots from `s`. -/
def Htable.elementsFrom (ht : Htable w) (s : ℕ) : List (BitVec w) :=
  (ring ht.size s).filterMap ht.entry

/-- The number of slots whose entry was deleted. -/
def Htable.countDeleted (ht : Htable w) : ℕ :=
  (List.range ht.size).countP fun i => decide (ht.slot i = htableDeleted)

theorem entry_eq_some : ht.entry i = some p ↔ entryIsValid (ht.slot i) = true ∧ ht.ptr i = p := by
  rw [Htable.entry, Option.ite_none_right_eq_some, Option.some.injEq]

theorem entry_eq_none : ht.entry i = none ↔ entryIsValid (ht.slot i) = false := by
  rw [Htable.entry, ite_eq_right_iff, ← Bool.not_eq_true]
  simp

theorem Htable.Frame.entry (hf : ht.Frame ht') (hi : ht'.slot i = ht.slot i) :
    ht'.entry i = ht.entry i := by
  rw [Htable.entry, Htable.ptr, hi, hf.getRawPtr, Htable.entry, Htable.ptr]

theorem elementsFrom_perm (ht : Htable w) (s s' : ℕ) :
    (ht.elementsFrom s).Perm (ht.elementsFrom s') :=
  ((ring_perm _ s).trans (ring_perm _ s').symm).filterMap _

theorem mem_elementsFrom {s : ℕ} :
    p ∈ ht.elementsFrom s ↔ ∃ i < ht.size, entryIsValid (ht.slot i) = true ∧ ht.ptr i = p := by
  simp only [Htable.elementsFrom, List.mem_filterMap, mem_ring, entry_eq_some]

theorem Htable.Written.entry_of_ne (hw : ht.Written ht' i e) (j : ℕ) (hj : j ≠ i) :
    ht'.entry j = ht.entry j :=
  hw.frame.entry (hw.other j hj)

/-- An entry was put into a slot that had none. -/
theorem Htable.Written.perm_cons (hw : ht.Written ht' i e) (hi : i < ht.size)
    (hfree : entryIsValid (ht.slot i) = false) (he : entryIsValid e = true) (s s' : ℕ) :
    (ht'.elementsFrom s').Perm (ht'.getRawPtr e :: ht.elementsFrom s) := by
  refine (elementsFrom_perm ht' s' s).trans ?_
  unfold Htable.elementsFrom
  rw [hw.frame.size]
  obtain ⟨x, y, hx, hy⟩ :=
    exists_filterMap_split (nodup_ring (n := ht.size) (s := s)) (mem_ring.2 hi) hw.entry_of_ne
  have hself : ht'.entry i = some (ht'.getRawPtr e) :=
    entry_eq_some.2 ⟨hw.self.symm ▸ he, by rw [Htable.ptr, hw.self]⟩
  rw [entry_eq_none.2 hfree, Option.toList_none, List.append_nil] at hx
  rw [hself, Option.toList_some] at hy
  rw [hx, hy, List.append_assoc]
  exact List.perm_middle

/-- An entry was taken out of its slot. -/
theorem Htable.Written.cons_perm (hw : ht.Written ht' i e) (hi : i < ht.size)
    (hvalid : entryIsValid (ht.slot i) = true) (he : entryIsValid e = false) (s s' : ℕ) :
    (ht.elementsFrom s).Perm (ht.ptr i :: ht'.elementsFrom s') := by
  refine List.Perm.trans ?_ (List.Perm.cons _ (elementsFrom_perm ht' s s'))
  unfold Htable.elementsFrom
  rw [hw.frame.size]
  obtain ⟨x, y, hx, hy⟩ :=
    exists_filterMap_split (nodup_ring (n := ht.size) (s := s)) (mem_ring.2 hi) hw.entry_of_ne
  rw [entry_eq_some.2 ⟨hvalid, rfl⟩, Option.toList_some] at hx
  rw [entry_eq_none.2 (hw.self.symm ▸ he), Option.toList_none, List.append_nil] at hy
  rw [hx, hy, List.append_assoc]
  exact List.perm_middle

/-- The order of the other pointers stays. -/
theorem Htable.Written.erase (hw : ht.Written ht' i e) (hi : i < ht.size)
    (hvalid : entryIsValid (ht.slot i) = true) (he : entryIsValid e = false) {s : ℕ}
    (hnodup : (ht.elementsFrom s).Nodup) :
    ht'.elementsFrom s = (ht.elementsFrom s).erase (ht.ptr i) := by
  unfold Htable.elementsFrom at *
  rw [hw.frame.size]
  obtain ⟨x, y, hx, hy⟩ :=
    exists_filterMap_split (nodup_ring (n := ht.size) (s := s)) (mem_ring.2 hi) hw.entry_of_ne
  have hself : ht'.entry i = none := entry_eq_none.2 (hw.self.symm ▸ he)
  rw [entry_eq_some.2 ⟨hvalid, rfl⟩, Option.toList_some] at hx
  rw [hself, Option.toList_none, List.append_nil] at hy
  have hnot : ht.ptr i ∉ x := by
    rw [hx, List.append_assoc] at hnodup
    intro hmem
    exact (List.nodup_append.1 hnodup).2.2 _ hmem _ List.mem_cons_self rfl
  rw [hx, hy, List.append_assoc, List.erase_append_right _ hnot]
  simp

/-! ### Adding to a slot -/

/-- What `ht_add` does: `p` is put into the slot `i`, the first that has no entry from the one the
hash asks for. -/
structure Htable.Added (ht ht' : Htable w) (p h : BitVec w) (i : ℕ) : Prop where
  lt : i < ht.size
  free : entryIsValid (ht.slot i) = false
  reaches : Reaches ht.size (fun j => entryIsValid (ht.slot j) = true) (ht.hashBucket h) i
  eq : ht' = ht.write i (ht.makeHval p (ht.tag h i))

/-- The loop of `ht_add`. -/
theorem findFree_eq {b d fuel : ℕ} {perfect : BitVec w} (hd : d < fuel)
    (hbusy : ∀ k < d, entryIsValid (ht.slot ((b + k) % ht.size)) = true)
    (hfree : entryIsValid (ht.slot ((b + d) % ht.size)) = false) :
    ht.findFree fuel (b % ht.size) perfect =
      some ((b + d) % ht.size, if d = 0 then perfect else 0) := by
  induction d generalizing b fuel perfect with
  | zero =>
    obtain ⟨fuel, rfl⟩ := Nat.exists_eq_succ_of_ne_zero (Nat.ne_zero_of_lt hd)
    rw [Nat.add_zero] at hfree ⊢
    rw [Htable.findFree, if_neg (by rw [hfree]; exact Bool.false_ne_true), if_pos rfl]
  | succ d ih =>
    obtain ⟨fuel, rfl⟩ := Nat.exists_eq_succ_of_ne_zero (Nat.ne_zero_of_lt hd)
    have hb := hbusy 0 (Nat.succ_pos d)
    rw [Nat.add_zero] at hb
    rw [Htable.findFree, if_pos hb, succ_eq, Nat.mod_add_mod]
    have hshift (k : ℕ) : b + 1 + k = b + (k + 1) := by omega
    rw [ih (b := b + 1) (by omega) (fun k hk => hshift k ▸ hbusy (k + 1) (by omega))
      (hshift d ▸ hfree), hshift, if_neg (Nat.succ_ne_zero d)]
    split <;> rfl

/-- `ht_add` ends if a slot has no entry. -/
theorem exists_added {s : ℕ} (hs : s < ht.size) (hfree : entryIsValid (ht.slot s) = false)
    (p h : BitVec w) : ∃ i ht', ht.htAdd p h = some ht' ∧ ht.Added ht' p h i := by
  have hb := hashBucket_lt ht h
  obtain ⟨m, hm⟩ : ∃ m, Stops ht.size (fun j => entryIsValid (ht.slot j) = true)
      (ht.hashBucket h) m :=
    exists_stops hs (by rw [hfree]; exact Bool.false_ne_true) _
  have hfree' := Bool.eq_false_iff.2 hm.free
  have hloop : ht.findFree ht.size (ht.hashBucket h % ht.size) ht.perfectBit = _ :=
    findFree_eq hm.lt hm.passes hfree'
  rw [Nat.mod_eq_of_lt hb] at hloop
  refine ⟨_, _, by rw [Htable.htAdd, hloop]; rfl, ⟨Nat.mod_lt _ (Nat.zero_lt_of_lt hs), hfree',
    ⟨m, hm.lt, rfl, hm.passes⟩, ?_⟩⟩
  simp only [Htable.tag, hashBucket_add_eq hm.lt]

variable {i : ℕ}

/-- What has to be known of a pointer to put it into a table. -/
structure Htable.Fits (ht : Htable w) (p : BitVec w) : Prop where
  common : p &&& ht.commonMask = ht.commonBits
  revealed : entryIsValid (p &&& ~~~ht.commonMask) = true

theorem Htable.Added.written (hadd : ht.Added ht' p h i) (ha : ht.Allocated) :
    ht.Written ht' i (ht.makeHval p (ht.tag h i)) :=
  hadd.eq ▸ Ccan.written ha hadd.lt _

/-- The new entry is at home. -/
theorem Htable.Added.home (hadd : ht.Added ht' p (hash p) i) (ha : ht.Allocated) (hm : ht.Masks)
    (hp : ht.Fits p) : ht'.ptr i = p ∧ ht'.Home hash i := by
  have hw := hadd.written ha
  have hptr : ht'.ptr i = p := by
    rw [Htable.ptr, hw.frame.getRawPtr, hw.self, getRawPtr_makeHval hp.common (hm.tag_and_not _ i)]
  refine ⟨hptr, ?_, ?_⟩
  · rw [hptr, hw.frame.getExtraPtrBits, hw.self, getExtraPtrBits_makeHval (hm.tag_and_not _ i),
      hw.frame.tag]
  · rw [hptr, hw.frame.size, hw.frame.hashBucket]
    refine hadd.reaches.mono fun j hj => ?_
    have hne : j ≠ i := by
      rintro rfl
      rw [hadd.free] at hj
      cases hj
    rw [Htable.Busy, hw.other j hne]
    exact ne_zero_of_valid hj

/-- **What `ht_add` keeps**: all entries stay at home. -/
theorem Htable.Added.good (hadd : ht.Added ht' p (hash p) i) (hg : ht.Good S hash)
    (hp : ht.Fits p) (hS : p ∈ S) : ht'.Good S hash := by
  have hw := hadd.written hg.allocated
  have hhome := hadd.home hg.allocated hg.masks hp
  have hbusy (j : ℕ) (hj : ht.Busy j) : ht'.Busy j := by
    rw [Htable.Busy]
    rcases eq_or_ne j i with rfl | hne
    · rw [hw.self]
      exact ne_zero_of_valid (makeHval_valid hp.revealed)
    · rwa [hw.other j hne]
  refine ⟨hw.allocated, hw.frame.masks hg.masks, fun j hj hv => ?_, fun j hj hv => ?_⟩
  · rcases eq_or_ne j i with rfl | hne
    · exact hhome.2
    · rw [hw.other j hne] at hv
      exact (hg.home j (hw.frame.size ▸ hj) hv).frame hw.frame (hw.other j hne) hbusy
  · rcases eq_or_ne j i with rfl | hne
    · exact hhome.1.symm ▸ hS
    · rw [hw.other j hne] at hv
      rw [Htable.ptr, hw.frame.getRawPtr, hw.other j hne]
      exact hg.mem j (hw.frame.size ▸ hj) hv

/-- `ht_add` adds one pointer. -/
theorem Htable.Added.perm (hadd : ht.Added ht' p h i) (ha : ht.Allocated) (hm : ht.Masks)
    (hp : ht.Fits p) (s s' : ℕ) : (ht'.elementsFrom s').Perm (p :: ht.elementsFrom s) := by
  have hw := hadd.written ha
  have := hw.perm_cons hadd.lt hadd.free (makeHval_valid hp.revealed) s s'
  rwa [hw.frame.getRawPtr, getRawPtr_makeHval hp.common (hm.tag_and_not _ i)] at this

/-- No deleted slot appears. -/
theorem Htable.Added.deleted (hadd : ht.Added ht' p h i) (ha : ht.Allocated) (hp : ht.Fits p)
    (hj : ht'.slot j = htableDeleted) : j ≠ i ∧ ht.slot j = htableDeleted := by
  have hw := hadd.written ha
  rcases eq_or_ne j i with rfl | hne
  · rw [hw.self] at hj
    exact absurd hj (ne_deleted_of_valid (makeHval_valid hp.revealed))
  · exact ⟨hne, hw.other j hne ▸ hj⟩

/-! ### Lookups -/

/-- The slot a search for a hash comes to after passing `d` slots. -/
def Htable.place (ht : Htable w) (h : BitVec w) (d : ℕ) : ℕ := (ht.hashBucket h + d) % ht.size

/-- The bits a search for a hash asks for there. -/
def Htable.wanted (ht : Htable w) (h : BitVec w) (d : ℕ) : BitVec w :=
  ht.getHashPtrBits h ||| if d = 0 then ht.perfectBit else 0

/-- The slot has an entry with these bits. -/
def Htable.Matches (ht : Htable w) (h : BitVec w) (d : ℕ) : Prop :=
  entryIsValid (ht.slot (ht.place h d)) = true ∧
    ht.getExtraPtrBits (ht.slot (ht.place h d)) = ht.wanted h d

instance (h : BitVec w) : DecidablePred (ht.Matches h) :=
  fun _ => inferInstanceAs (Decidable (_ ∧ _))

/-- What a lookup that stops after `m` slots returns for the first slot that matches. -/
def Htable.result (ht : Htable w) (h : BitVec w) (m : ℕ) : Option ℕ → ℕ × BitVec w
  | some d => (ht.place h d, ht.ptr (ht.place h d))
  | none => (ht.place h m, 0)

theorem succ_place (ht : Htable w) (h : BitVec w) (d : ℕ) :
    ht.succ (ht.place h d) = ht.place h (d + 1) := by
  rw [succ_eq, Htable.place, Nat.mod_add_mod, Nat.add_assoc, Htable.place]

theorem place_zero (ht : Htable w) (h : BitVec w) : ht.place h 0 = ht.hashBucket h := by
  rw [Htable.place, Nat.add_zero, Nat.mod_eq_of_lt (hashBucket_lt ht h)]

theorem matches_iff {d : ℕ} (hbusy : ht.Busy (ht.place h d)) :
    ht.slot (ht.place h d) ≠ htableDeleted ∧
      ht.getExtraPtrBits (ht.slot (ht.place h d)) = ht.wanted h d ↔ ht.Matches h d := by
  refine and_congr_left fun _ => ?_
  rw [← Bool.not_eq_false, entryIsValid_eq_false, not_or]
  exact ⟨fun hd => ⟨hbusy, hd⟩, And.right⟩

/-- The bits that are asked for once the perfect bit is taken away. -/
theorem wanted_and_not (ht : Htable w) (h : BitVec w) (d : ℕ) :
    ht.wanted h d &&& ~~~ht.perfectBit = ht.wanted h (d + 1) := by
  unfold Htable.wanted Htable.getHashPtrBits
  rw [if_neg (Nat.succ_ne_zero d)]
  ext i hi
  split <;> simp only [BitVec.getElem_and, BitVec.getElem_or, BitVec.getElem_not,
    BitVec.ofNat_eq_ofNat, BitVec.getElem_zero] <;> grind

theorem wanted_succ (ht : Htable w) (h : BitVec w) (d : ℕ) :
    ht.wanted h (d + 1) = ht.getHashPtrBits h := by
  rw [Htable.wanted, if_neg (Nat.succ_ne_zero d)]
  exact BitVec.or_zero

/-- The loop of `htable_val` stops at the first slot that matches. -/
theorem htableVal_eq {m k r fuel : ℕ} {perfect : BitVec w}
    (hm : Stops ht.size ht.Busy (ht.hashBucket h) m) (hk : k + r = m) (hfuel : r < fuel)
    (hperfect : ∀ d, k ≤ d → ht.wanted h d &&& ~~~perfect = ht.wanted h (d + 1)) :
    ht.htableVal perfect fuel (ht.place h k) (ht.wanted h k) =
      some (ht.result h m ((List.range' k r).find? fun d => decide (ht.Matches h d))) := by
  induction r generalizing k fuel with
  | zero =>
    obtain ⟨fuel, rfl⟩ := Nat.exists_eq_succ_of_ne_zero (Nat.ne_zero_of_lt hfuel)
    obtain rfl : k = m := hk
    have hfree : ht.slot (ht.place h k) = 0 := not_not.1 hm.free
    rw [Htable.htableVal, if_pos hfree]
    rfl
  | succ r ih =>
    obtain ⟨fuel, rfl⟩ := Nat.exists_eq_succ_of_ne_zero (Nat.ne_zero_of_lt hfuel)
    have hbusy : ht.Busy (ht.place h k) := hm.passes k (by omega)
    rw [Htable.htableVal, if_neg hbusy, List.range'_succ, List.find?_cons]
    by_cases hmatch : ht.Matches h k
    · rw [if_pos ((matches_iff hbusy).2 hmatch), decide_eq_true hmatch]
      rfl
    · rw [if_neg (mt (matches_iff hbusy).1 hmatch), decide_eq_false hmatch, succ_place,
        hperfect k le_rfl]
      exact ih (by omega) (by omega) fun d hd => hperfect d (by omega)

/-- The slots of the candidates for a hash, if a search for it stops after `m` slots. -/
def Htable.candidates (ht : Htable w) (h : BitVec w) (m : ℕ) : List ℕ :=
  ((List.range m).filter fun d => decide (ht.Matches h d)).map (ht.place h)

/-- **The loop over the candidates for a hash** goes over the slots that match. -/
theorem forVal_eq {β : Type*} {m : ℕ} (hm : Stops ht.size ht.Busy (ht.hashBucket h) m)
    (hptr : ∀ d < m, ht.Matches h d → ht.ptr (ht.place h d) ≠ 0) (body : ℕ → BitVec w → Option β) :
    ht.forVal h body (ht.size + 1) (ht.htableFirstval h) =
      some ((ht.candidates h m).findSome? fun i => body i (ht.ptr i)) := by
  have hloop (r : ℕ) : ∀ k fuel, k + r = m → r < fuel →
      ht.forVal h body fuel (some (ht.result h m ((List.range' k r).find? fun d =>
          decide (ht.Matches h d)))) =
        some ((((List.range' k r).filter fun d => decide (ht.Matches h d)).map
          (ht.place h)).findSome? fun i => body i (ht.ptr i)) := by
    induction r with
    | zero =>
      intro k fuel _ hfuel
      obtain ⟨fuel, rfl⟩ := Nat.exists_eq_succ_of_ne_zero (Nat.ne_zero_of_lt hfuel)
      rfl
    | succ r ih =>
      intro k fuel hk hfuel
      obtain ⟨fuel, rfl⟩ := Nat.exists_eq_succ_of_ne_zero (Nat.ne_zero_of_lt hfuel)
      rw [List.range'_succ, List.find?_cons, List.filter_cons]
      by_cases hmatch : ht.Matches h k
      · rw [decide_eq_true hmatch, if_pos rfl, List.map_cons, List.findSome?_cons]
        change ht.forVal h body (fuel + 1) (some (ht.place h k, ht.ptr (ht.place h k))) = _
        rw [Htable.forVal, if_neg (hptr k (by omega) hmatch)]
        cases body (ht.place h k) (ht.ptr (ht.place h k)) with
        | some ret => rfl
        | none =>
          have hnext : ht.htableNextval (ht.place h k) h = some (ht.result h m
              ((List.range' (k + 1) r).find? fun d => decide (ht.Matches h d))) := by
            rw [Htable.htableNextval, succ_place,
              show ht.getHashPtrBits h ||| 0 = ht.wanted h (k + 1) by
                rw [wanted_succ]; exact BitVec.or_zero]
            refine htableVal_eq hm (by omega) (by have := hm.lt; omega) fun d hd => ?_
            obtain ⟨d, rfl⟩ := Nat.exists_eq_succ_of_ne_zero (n := d) (by omega)
            rw [wanted_succ, wanted_succ, BitVec.ofNat_eq_ofNat, BitVec.not_zero,
              BitVec.and_allOnes]
          rw [hnext]
          exact ih (k + 1) fuel (by omega) (by omega)
      · rw [decide_eq_false hmatch, if_neg Bool.false_ne_true]
        exact ih (k + 1) (fuel + 1) (by omega) (by omega)
  have hfirst : ht.htableFirstval h = some (ht.result h m
      ((List.range' 0 m).find? fun d => decide (ht.Matches h d))) := by
    rw [Htable.htableFirstval, ← place_zero]
    have hwanted : ht.getHashPtrBits h ||| ht.perfectBit = ht.wanted h 0 := by
      rw [Htable.wanted, if_pos rfl]
    rw [hwanted]
    exact htableVal_eq hm (Nat.zero_add m) hm.lt fun d _ => wanted_and_not ht h d
  rw [hfirst, hloop m 0 (ht.size + 1) (Nat.zero_add m) (by have := hm.lt; omega),
    Htable.candidates, List.range_eq_range']

/-! ### What a lookup visits -/

/-- The candidates for a hash, in the order in which a lookup comes to them. -/
structure Htable.Visits (ht : Htable w) (hash : BitVec w → BitVec w) (s : ℕ) (h : BitVec w)
    (is : List ℕ) : Prop where
  /-- They have entries. -/
  valid : ∀ i ∈ is, i < ht.size ∧ entryIsValid (ht.slot i) = true
  /-- They are in the order of the table. -/
  sublist : (is.map ht.ptr).Sublist (ht.elementsFrom s)
  /-- The pointers with the hash are among them. -/
  complete : ∀ p ∈ ht.elementsFrom s, hash p = h → p ∈ is.map ht.ptr

theorem visits_candidates {s m : ℕ} (hg : ht.Good S hash) (hs : s < ht.size)
    (hempty : ht.slot s = 0) (hm : Stops ht.size ht.Busy (ht.hashBucket h) m) :
    ht.Visits hash s h (ht.candidates h m) := by
  have hvalid : ∀ i ∈ ht.candidates h m, i < ht.size ∧ entryIsValid (ht.slot i) = true := by
    intro i hi
    obtain ⟨d, hd, rfl⟩ := List.mem_map.1 hi
    exact ⟨Nat.mod_lt _ (Nat.zero_lt_of_lt hs), (of_decide_eq_true (List.mem_filter.1 hd).2).1⟩
  have hfree : ¬ ht.Busy s := not_not.2 hempty
  refine ⟨hvalid, ?_, fun p hp hph => ?_⟩
  · have hmap : (ht.candidates h m).map ht.ptr = (ht.candidates h m).filterMap ht.entry := by
      rw [← List.filterMap_eq_map]
      exact List.filterMap_congr fun i hi => (entry_eq_some.2 ⟨(hvalid i hi).2, rfl⟩).symm
    have hpassed : (ht.candidates h m).Sublist (passed ht.size (ht.hashBucket h) m) :=
      List.filter_sublist.map _
    rw [hmap]
    exact (hpassed.trans (passed_sublist hs hfree (hashBucket_lt ht h) hm)).filterMap _
  · obtain ⟨i, hi, hv, rfl⟩ := mem_elementsFrom.1 hp
    have hmem := (mem_passed hm).2 ⟨hph ▸ (hg.home i hi hv).reaches, ne_zero_of_valid hv⟩
    obtain ⟨d, hd, rfl⟩ := List.mem_map.1 hmem
    have hd := List.mem_range.1 hd
    refine List.mem_map.2 ⟨_, List.mem_map.2 ⟨d, List.mem_filter.2
      ⟨List.mem_range.2 hd, decide_eq_true ⟨hv, ?_⟩⟩, rfl⟩, rfl⟩
    have hextra := (hg.home _ hi hv).extra
    rw [hph, Htable.tag] at hextra
    simp only [hashBucket_add_eq (hd.trans hm.lt)] at hextra
    exact hextra

/-- **The loop over the candidates for a hash** visits the pointers with the hash, in the order of
the table, and maybe others. -/
theorem exists_visits {s : ℕ} (hg : ht.Good S hash) (hs : s < ht.size) (hempty : ht.slot s = 0)
    (hptr : ∀ i < ht.size, entryIsValid (ht.slot i) = true → ht.ptr i ≠ 0) (h : BitVec w) :
    ∃ is, ht.Visits hash s h is ∧ ∀ (β : Type) (body : ℕ → BitVec w → Option β),
      ht.forVal h body (ht.size + 1) (ht.htableFirstval h) =
        some (is.findSome? fun i => body i (ht.ptr i)) := by
  obtain ⟨m, hm⟩ : ∃ m, Stops ht.size ht.Busy (ht.hashBucket h) m :=
    exists_stops hs (not_not.2 hempty) _
  refine ⟨ht.candidates h m, visits_candidates hg hs hempty hm, fun β body => ?_⟩
  refine forVal_eq hm (fun d hd hmatch => ?_) body
  exact hptr _ (Nat.mod_lt _ (Nat.zero_lt_of_lt hs)) hmatch.1

end Ccan

end Ocserv
