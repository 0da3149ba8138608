import Ocserv.Ccan.HtableOps

/-!
# The hash table: doubling and rehashing

`double_table` puts the pointers into a new table (`doubleTable_eq`).  `rehash_table` puts them
again into the table they are in: it starts at an empty slot, from which the ring is a line, and
after it has gone over the first slots of the line, the entries there are at home and none of these
slots is deleted (`Rehashed`).  An entry that is put again comes to a slot that was gone over, since
its own has become free (`Rehashed.move`).
-/

namespace Ocserv

namespace Ccan

open Probing

variable {w : ℕ} {ht ht₀ ht₁ ht' : Htable w} {i j k s : ℕ} {e p q h x m : BitVec w}
  {S : Set (BitVec w)} {hash rehash : BitVec w → BitVec w}

theorem Htable.Frame.fits (hf : ht.Frame ht') (hp : ht.Fits p) : ht'.Fits p := by
  refine ⟨?_, ?_⟩
  · rw [hf.commonMask, hf.commonBits, hp.common]
  · rw [hf.commonMask, hp.revealed]

/-- Where the entries are does not depend on the counters. -/
theorem Htable.Good.counters (hg : ht.Good S hash) (elems deleted : ℕ) :
    Htable.Good S hash { ht with elems := elems, deleted := deleted } :=
  ⟨hg.allocated, ⟨hg.masks.common, hg.masks.perfect, hg.masks.single⟩,
    fun i hi hv => ⟨(hg.home i hi hv).extra, (hg.home i hi hv).reaches⟩, hg.mem⟩

/-! ### Double_table -/

/-- Pointers that are put into a table one after the other. -/
theorem foldlM_htAdd (hg : ht.Good S hash) (hclean : ∀ i < ht.size, ht.slot i ≠ htableDeleted)
    {es : List (BitVec w)} (hes : ∀ e ∈ es, ht.Fits (ht.getRawPtr e) ∧ ht.getRawPtr e ∈ S ∧
      rehash (ht.getRawPtr e) = hash (ht.getRawPtr e))
    (hroom : es.length + (ht.elementsFrom 0).length ≤ ht.size) :
    ∃ ht', es.foldlM (fun (ht : Htable w) e =>
        ht.htAdd (ht.getRawPtr e) (rehash (ht.getRawPtr e))) ht = some ht' ∧
      ht.Frame ht' ∧ ht'.Good S hash ∧ (∀ i < ht'.size, ht'.slot i ≠ htableDeleted) ∧
      (ht'.elementsFrom 0).Perm (es.map ht.getRawPtr ++ ht.elementsFrom 0) := by
  induction es generalizing ht with
  | nil => exact ⟨ht, rfl, .refl ht, hg, hclean, .refl _⟩
  | cons e es ih =>
    obtain ⟨hfits, hS, hhash⟩ := hes e List.mem_cons_self
    rw [List.length_cons] at hroom
    obtain ⟨f, hf, hfree⟩ := exists_free (show (ht.elementsFrom 0).length < ht.size by omega)
    obtain ⟨i, ht₁, hadd, hadded⟩ :=
      exists_added hf hfree (ht.getRawPtr e) (rehash (ht.getRawPtr e))
    have hw := hadded.written hg.allocated
    have hperm := hadded.perm hg.allocated hg.masks hfits 0 0
    have hclean₁ : ∀ i < ht₁.size, ht₁.slot i ≠ htableDeleted := fun i hi hd =>
      hclean i (hw.frame.size ▸ hi) (hadded.deleted hg.allocated hfits hd).2
    rw [hhash] at hadded
    have hes₁ : ∀ e ∈ es, ht₁.Fits (ht₁.getRawPtr e) ∧ ht₁.getRawPtr e ∈ S ∧
        rehash (ht₁.getRawPtr e) = hash (ht₁.getRawPtr e) := by
      intro e' he'
      rw [hw.frame.getRawPtr]
      obtain ⟨hfits', hrest⟩ := hes e' (List.mem_cons_of_mem _ he')
      exact ⟨hw.frame.fits hfits', hrest⟩
    have hlen := hperm.length_eq
    rw [List.length_cons] at hlen
    obtain ⟨ht', hrun, hframe, hgood', hclean', hperm'⟩ :=
      ih (hadded.good hg hfits hS) hclean₁ hes₁ (by rw [hw.frame.size]; omega)
    refine ⟨ht', ?_, hw.frame.trans hframe, hgood', hclean', hperm'.trans ?_⟩
    · rw [List.foldlM_cons, hadd]
      exact hrun
    · have hmap : es.map ht₁.getRawPtr = es.map ht.getRawPtr :=
        List.map_congr_left fun e _ => hw.frame.getRawPtr e
      rw [hmap, List.map_cons, List.cons_append]
      exact (List.Perm.append_left _ hperm).trans List.perm_middle

/-- The pointers of the old table. -/
theorem oldEntries_perm (ha : ht.Allocated) :
    (ht.oldEntries.map ht.getRawPtr).Perm (ht.elementsFrom 0) := by
  obtain ⟨table, htable, hlen⟩ := ha
  have hslots : table = (List.range ht.size).map ht.slot := by
    refine List.ext_getElem (by simp [hlen]) fun i h₁ h₂ => ?_
    simp [Htable.slot, htable, h₁]
  have hentries : (table.filter entryIsValid).map ht.getRawPtr =
      (List.range ht.size).filterMap ht.entry := by
    conv_lhs => rw [hslots]
    rw [List.filter_map, List.map_map, ← List.filterMap_eq_map, ← List.filterMap_eq_filter,
      List.filterMap_filterMap]
    refine List.filterMap_congr fun i _ => ?_
    simp only [Option.guard, Function.comp, Htable.entry, Htable.ptr]
    split <;> simp_all
  rw [Htable.oldEntries, htable, Option.getD_some, hentries]
  exact ((ring_perm _ 0).filterMap _).symm

theorem doubled_size (ht : Htable w) : ht.doubled.size = 2 * ht.size := Nat.pow_succ'

theorem doubled_slot (ht : Htable w) (i : ℕ) : ht.doubled.slot i = 0 := by
  show (List.replicate (2 ^ (ht.bits + 1)) (0 : BitVec w)).getD i 0 = 0
  rw [List.getD_eq_getElem?_getD, List.getElem?_replicate]
  split <;> rfl

/-- The perfect bit stays, or is the lowest bit of the mask. -/
theorem doubled_perfectBit (ht : Htable w) : ht.doubled.perfectBit = ht.perfectBit ∨
    ∃ i, ht.commonMask.getLsbD i = true ∧ ht.doubled.perfectBit = (1 : BitVec w) <<< i := by
  unfold Htable.doubled
  dsimp only
  split
  · cases hi : ht.lowestCommon with
    | none => exact .inl rfl
    | some i => exact .inr ⟨i, List.find?_some hi, rfl⟩
  · exact .inl rfl

theorem doubled_masks (hm : ht.Masks) : ht.doubled.Masks := by
  obtain h | ⟨i, hbit, h⟩ := doubled_perfectBit ht
  · exact ⟨hm.common, by rw [h]; exact hm.perfect, by rw [h]; exact hm.single⟩
  · refine ⟨hm.common, ?_, by rw [h]; exact fun x => and_one_shiftLeft x i⟩
    rw [h, and_not_eq_zero]
    intro j hj hone
    simp only [BitVec.getElem_shiftLeft, BitVec.ofNat_eq_ofNat, BitVec.getElem_one,
      Bool.and_eq_true, Bool.not_eq_true', decide_eq_false_iff_not, decide_eq_true_eq] at hone
    obtain rfl : j = i := by omega
    rwa [BitVec.getLsbD_eq_getElem hj] at hbit

/-- The table `double_table` starts with. -/
theorem doubled_good (hm : ht.Masks) : ht.doubled.Good S hash := by
  have hnone (i : ℕ) (hv : entryIsValid (ht.doubled.slot i) = true) : False :=
    absurd (doubled_slot ht i) (ne_zero_of_valid hv)
  exact ⟨⟨_, rfl, List.length_replicate⟩, doubled_masks hm, fun i _ hv => (hnone i hv).elim,
    fun i _ hv => (hnone i hv).elim⟩

theorem doubled_elementsFrom (ht : Htable w) (s : ℕ) : ht.doubled.elementsFrom s = [] := by
  refine List.filterMap_eq_nil_iff.2 fun i _ => entry_eq_none.2 ?_
  rw [doubled_slot]
  exact entryIsValid_eq_false.2 (.inl rfl)

/-- **What `double_table` keeps.** -/
theorem doubleTable_eq (hS : Apart S) (hw : 0 < w) (hm : ht.Masks) (hr : ht.Revealed S)
    (hold : (ht.oldEntries.map ht.getRawPtr).Perm (ht.elementsFrom 0))
    (hmem : ∀ p ∈ ht.elementsFrom 0, p ∈ S ∧ rehash p = hash p)
    (helems : (ht.elementsFrom 0).length = ht.elems)
    (hroom : ht.elems + 1 ≤ 3 * (2 * ht.size) / 4) (calloc : Bool) :
    ht.doubleTable calloc rehash = some (false, ht) ∧ (calloc = false ∨ 30 ≤ ht.bits) ∨
      ∃ ht', ht.doubleTable calloc rehash = some (true, ht') ∧ ht.Keeps S hash ht' ∧
        ht'.elems + 1 ≤ ht'.max := by
  unfold Htable.doubleTable
  split
  · rename_i hcalloc
    rw [Bool.or_eq_true, decide_eq_true_eq, Bool.not_eq_true'] at hcalloc
    exact .inl ⟨rfl, hcalloc.imp_right fun h => by omega⟩
  · rename_i hcalloc
    rw [Bool.or_eq_true, decide_eq_true_eq, not_or] at hcalloc
    have hsize := doubled_size ht
    have hclean : ∀ i < ht.doubled.size, ht.doubled.slot i ≠ htableDeleted := by
      intro i _ hd
      rw [doubled_slot, htableDeleted, ← BitVec.toNat_inj] at hd
      simp only [BitVec.ofNat_eq_ofNat, BitVec.toNat_ofNat, Nat.zero_mod] at hd
      rw [Nat.mod_eq_of_lt (Nat.one_lt_two_pow hw.ne')] at hd
      cases hd
    have hes : ∀ e ∈ ht.oldEntries, ht.doubled.Fits (ht.doubled.getRawPtr e) ∧
        ht.doubled.getRawPtr e ∈ S ∧
        rehash (ht.doubled.getRawPtr e) = hash (ht.doubled.getRawPtr e) := by
      intro e he
      have hp := hmem _ (hold.mem_iff.1 (List.mem_map.2 ⟨e, he, rfl⟩))
      have hfits := hr.fits hS hp.1 (hm.ptr_and e)
      exact ⟨⟨hfits.common, hfits.revealed⟩, hp⟩
    have hlen := hold.length_eq
    rw [List.length_map, helems] at hlen
    obtain ⟨ht', hrun, hframe, hgood, hclean', hperm⟩ := foldlM_htAdd (doubled_good hm) hclean hes
      (by rw [doubled_elementsFrom, hsize, hlen, List.length_nil]; omega)
    rw [doubled_elementsFrom, List.append_nil] at hperm
    have hperm := hperm.trans hold
    have hsize' : ht'.size = 2 * ht.size := hframe.size.trans hsize
    have helems' : ht'.elems = ht.elems := hframe.elems
    have hmax : ht'.max = 3 * (2 * ht.size) / 4 := by
      rw [hframe.max, ← hsize]
      rfl
    have hmwd : ht'.maxWithDeleted = 9 * (2 * ht.size) / 10 := by
      rw [hframe.maxWithDeleted, ← hsize]
      rfl
    have hrevealed : ht'.Revealed S := by
      obtain ⟨h₁, h₂, h₃⟩ | ⟨q, hq, h₁, h₂⟩ := hr
      · exact .inl ⟨hframe.commonMask.trans h₁, hframe.commonBits.trans h₂, helems'.trans h₃⟩
      · exact .inr ⟨q, hq, by rw [hframe.commonMask, hframe.commonBits]; exact h₁,
          by rw [hframe.commonMask]; exact h₂⟩
    right
    refine ⟨{ ht' with deleted := 0 }, by rw [hrun]; rfl, ⟨?_, hperm, helems'⟩, ?_⟩
    · exact
        { hgood.counters ht'.elems 0 with
          revealed := hrevealed
          bits_pos := by
            show 1 ≤ ht'.bits
            rw [hframe.bits]
            exact Nat.le_add_left 1 ht.bits
          bits_le := by
            show ht'.bits ≤ 30
            rw [hframe.bits]
            exact Nat.le_of_lt_succ (Nat.not_le.1 hcalloc.2)
          max_eq := hmax.trans (by rw [← hsize']; rfl)
          maxWithDeleted_eq := hmwd.trans (by rw [← hsize']; rfl)
          elems_eq := hperm.length_eq.trans (helems.trans helems'.symm)
          deleted_le := by
            show ht'.countDeleted ≤ 0
            rw [Htable.countDeleted, Nat.le_zero, List.countP_eq_zero]
            intro i hi
            rw [decide_eq_true_iff]
            exact hclean' i (List.mem_range.1 hi)
          room := by
            show ht'.elems + 0 ≤ ht'.maxWithDeleted
            rw [helems', hmwd]
            omega }
    · show ht'.elems + 1 ≤ ht'.max
      rw [helems', hmax]
      exact hroom

/-! ### Rehash_table -/

/-- `rehash_table` has gone over the first `k` slots from the empty slot `s`. -/
structure Htable.Rehashed (S : Set (BitVec w)) (hash : BitVec w → BitVec w) (ht₀ ht : Htable w)
    (s k : ℕ) : Prop where
  frame : ht₀.Frame ht
  allocated : ht.Allocated
  empty : ht.slot s = 0
  rest : ∀ o, k ≤ o → o < ht₀.size → ht.slot ((s + o) % ht₀.size) = ht₀.slot ((s + o) % ht₀.size)
  home : ∀ o < k, entryIsValid (ht.slot ((s + o) % ht₀.size)) = true →
    ht.Home hash ((s + o) % ht₀.size)
  clean : ∀ o < k, ht.slot ((s + o) % ht₀.size) ≠ htableDeleted
  perm : (ht.elementsFrom 0).Perm (ht₀.elementsFrom 0)

/-- An entry stays at home if the slots of the line before it stay busy. -/
theorem Htable.Home.line {o : ℕ} (hh : ht.Home hash ((s + o) % ht.size)) (hs : s < ht.size)
    (hempty : ht.slot s = 0) (ho : o < ht.size)
    (hv : entryIsValid (ht.slot ((s + o) % ht.size)) = true) (hf : ht.Frame ht')
    (hsame : ht'.slot ((s + o) % ht.size) = ht.slot ((s + o) % ht.size))
    (hbusy : ∀ e < o, ht.Busy ((s + e) % ht.size) → ht'.Busy ((s + e) % ht.size)) :
    ht'.Home hash ((s + o) % ht.size) := by
  have hptr : ht'.ptr ((s + o) % ht.size) = ht.ptr ((s + o) % ht.size) := by
    rw [Htable.ptr, hf.getRawPtr, hsame, Htable.ptr]
  refine ⟨?_, ?_⟩
  · rw [hf.getExtraPtrBits, hsame, hptr, hf.tag, hh.extra]
  · rw [hptr, hf.hashBucket, hf.size]
    have hreach := hh.reaches
    obtain ⟨b, hb, hbeq⟩ := exists_offset s (hashBucket_lt ht (hash (ht.ptr ((s + o) % ht.size))))
    rw [← hbeq] at hreach ⊢
    obtain ⟨hbo, hpath⟩ := hreach.offset hb ho hs (not_not.2 hempty) (ne_zero_of_valid hv)
    exact reaches_offset hbo ho fun e he heo => hbusy e heo (hpath e he heo)

/-- An entry with the perfect bit is in the slot its hash asks for. -/
theorem Htable.Home.perfect (hh : ht.Home hash i) (hm : ht.Masks)
    (hp : ht.slot i &&& ht.perfectBit ≠ 0) : i = ht.hashBucket (hash (ht.ptr i)) := by
  by_contra hne
  refine hp ?_
  have hextra := hh.extra
  rw [Htable.tag, if_neg hne, Htable.getExtraPtrBits, Htable.getHashPtrBits] at hextra
  have hin := and_not_eq_zero.1 hm.perfect
  ext j hj
  have := hin j hj
  have hbit := congrArg (·.getLsbD j) hextra
  simp [hj] at hbit ⊢
  grind

/-- The slot a search starts at. -/
theorem reaches_self {n : ℕ} {busy : ℕ → Prop} (hi : i < n) : Reaches n busy i i :=
  ⟨0, Nat.zero_lt_of_lt hi, by rw [Nat.add_zero, Nat.mod_eq_of_lt hi], fun _ he => by omega⟩

/-- An entry with the perfect bit does not have to be put again. -/
theorem Htable.Home.of_perfect (hh : ht.Home hash i) (hm : ht.Masks) (hi : i < ht.size)
    (hp : ht.slot i &&& ht.perfectBit ≠ 0) (hf : ht.Frame ht') (hsame : ht'.slot i = ht.slot i) :
    ht'.Home hash i := by
  have hptr : ht'.ptr i = ht.ptr i := by rw [Htable.ptr, hf.getRawPtr, hsame, Htable.ptr]
  refine ⟨?_, ?_⟩
  · rw [hf.getExtraPtrBits, hsame, hptr, hf.tag, hh.extra]
  · rw [hptr, hf.hashBucket, hf.size, ← hh.perfect hm hp]
    exact reaches_self hi

namespace Htable.Rehashed

variable (hr : ht₀.Rehashed S hash ht s k) (hk : k < ht₀.size)
include hr hk

/-- There is nothing to do with the slot. -/
theorem skip (hhome : entryIsValid (ht₀.slot ((s + k) % ht₀.size)) = true →
      ht.Home hash ((s + k) % ht₀.size))
    (hclean : ht₀.slot ((s + k) % ht₀.size) ≠ htableDeleted) :
    ht₀.Rehashed S hash ht s (k + 1) := by
  have hslot := hr.rest k le_rfl hk
  refine { hr with
    rest := fun o ho => hr.rest o (by omega)
    home := fun o ho hv => ?_
    clean := fun o ho => ?_ }
  · rcases Nat.lt_succ_iff_lt_or_eq.1 ho with hlt | rfl
    · exact hr.home o hlt hv
    · exact hhome (hslot ▸ hv)
  · rcases Nat.lt_succ_iff_lt_or_eq.1 ho with hlt | rfl
    · exact hr.clean o hlt
    · rwa [hslot]

variable (hs : s < ht₀.size)
include hs

/-- The entries of the slots that were gone over stay at home if these slots stay busy. -/
theorem home_frame (hf : ht.Frame ht') {o : ℕ} (ho : o < k)
    (hv : entryIsValid (ht.slot ((s + o) % ht₀.size)) = true)
    (hsame : ht'.slot ((s + o) % ht₀.size) = ht.slot ((s + o) % ht₀.size))
    (hbusy : ∀ e < k, ht.Busy ((s + e) % ht₀.size) → ht'.Busy ((s + e) % ht₀.size)) :
    ht'.Home hash ((s + o) % ht₀.size) := by
  have hhome := hr.home o ho hv
  have hempty := hr.empty
  rw [← hr.frame.size] at *
  exact hhome.line hs hempty (by omega) hv hf hsame fun e he => hbusy e (he.trans ho)

omit hr hs in
/-- The slots of the line are different. -/
theorem ne_of_lt {o : ℕ} (ho : o < k) : (s + o) % ht₀.size ≠ (s + k) % ht₀.size :=
  fun h => ho.ne (offset_inj (ho.trans hk) hk h)

omit hs in
/-- A slot that is not empty is not the one the line starts at. -/
theorem ne_empty (hbusy : ht₀.slot ((s + k) % ht₀.size) ≠ 0) : s ≠ (s + k) % ht₀.size := by
  intro h
  rw [← hr.rest k le_rfl hk, ← h, hr.empty] at hbusy
  exact hbusy rfl

omit hk hs in
/-- The slot that is gone over next. -/
theorem lt_size : (s + k) % ht₀.size < ht.size := by
  rw [hr.frame.size]
  exact Nat.mod_lt _ (size_pos ht₀)

variable (hzero : (0 : BitVec w) ≠ htableDeleted)
include hzero

/-- The slot is deleted. -/
theorem unmark (hdel : ht₀.slot ((s + k) % ht₀.size) = htableDeleted) :
    ht₀.Rehashed S hash (ht.write ((s + k) % ht₀.size) 0) s (k + 1) := by
  have hw := written hr.allocated hr.lt_size 0
  have hslot := hr.rest k le_rfl hk
  have hother {o : ℕ} (ho : o < k) := hw.other _ (ne_of_lt hk ho)
  have hne := hr.ne_empty hk (by rw [hdel]; exact hzero.symm)
  refine ⟨hr.frame.trans hw.frame, hw.allocated, ?_, fun o ho hlt => ?_, fun o ho hv => ?_,
    fun o ho => ?_, ?_⟩
  · rw [hw.other s hne, hr.empty]
  · rw [hw.other _ fun h => absurd (offset_inj hlt hk h) (by omega)]
    exact hr.rest o (by omega) hlt
  · rcases Nat.lt_succ_iff_lt_or_eq.1 ho with hlt | rfl
    · rw [hother hlt] at hv
      exact hr.home_frame hk hs hw.frame hlt hv (hother hlt) fun e he hb => by
        rwa [Htable.Busy, hother he]
    · rw [hw.self, entryIsValid_eq_false.2 (.inl rfl)] at hv
      cases hv
  · rcases Nat.lt_succ_iff_lt_or_eq.1 ho with hlt | rfl
    · rw [hother hlt]
      exact hr.clean o hlt
    · rwa [hw.self]
  · refine List.Perm.trans (List.Perm.of_eq ?_) hr.perm
    unfold Htable.elementsFrom
    rw [hw.frame.size]
    refine List.filterMap_congr fun j _ => ?_
    by_cases hj : j = (s + k) % ht₀.size
    · rw [hj, entry_eq_none.2 (by rw [hw.self]; exact entryIsValid_eq_false.2 (.inl rfl)),
        entry_eq_none.2 (by rw [hslot, hdel]; exact entryIsValid_eq_false.2 (.inr rfl))]
    · exact hw.frame.entry (hw.other j hj)

omit hzero in
/-- Once its slot is free, an entry comes to a slot that was gone over. -/
theorem exists_offset_le {ht₁ : Htable w} (hg : ht₀.Good S hash) (hempty : ht₀.slot s = 0)
    (hv : entryIsValid (ht₀.slot ((s + k) % ht₀.size)) = true) (hf₁ : ht₀.Frame ht₁)
    (hfree : entryIsValid (ht₁.slot ((s + k) % ht₀.size)) = false)
    (hadd : ht₁.Added ht' p (hash (ht₀.ptr ((s + k) % ht₀.size))) i) :
    ∃ g ≤ k, i = (s + g) % ht₀.size ∧ s ≠ i := by
  have hi₀ : (s + k) % ht₀.size < ht₀.size := Nat.mod_lt _ (size_pos ht₀)
  obtain ⟨b, hb, hbeq⟩ := exists_offset s (hashBucket_lt ht₀ (hash (ht₀.ptr ((s + k) % ht₀.size))))
  have hreach := (hg.home _ hi₀ hv).reaches
  rw [← hbeq] at hreach
  obtain ⟨hbk, hpath⟩ := hreach.offset hb hk hs (not_not.2 hempty) (ne_zero_of_valid hv)
  obtain ⟨d, hd, hdi, hpass⟩ := hadd.reaches
  rw [hf₁.size, hf₁.hashBucket, ← hbeq, Nat.mod_add_mod, Nat.add_assoc] at hdi
  have hle : b + d ≤ k := by
    by_contra hlt
    have hbusy := hpass (k - b) (by omega)
    rw [hf₁.size, hf₁.hashBucket, ← hbeq, Nat.mod_add_mod, Nat.add_assoc,
      Nat.add_sub_cancel' hbk, hfree] at hbusy
    cases hbusy
  refine ⟨b + d, hle, hdi.symm, fun hsi => ?_⟩
  -- a search from the empty slot does not leave it
  have hzero : b + d = 0 := by
    refine offset_inj (s := s) (by omega) (size_pos ht₀) ?_
    rw [hdi, ← hsi, Nat.add_zero, Nat.mod_eq_of_lt hs]
  have hne := hr.ne_empty hk (ne_zero_of_valid hv)
  rcases Nat.eq_zero_or_pos k with rfl | hpos
  · exact hne (by rw [Nat.add_zero, Nat.mod_eq_of_lt hs])
  · have hbusy := hpath 0 (by omega) hpos
    rw [Nat.add_zero, Nat.mod_eq_of_lt hs] at hbusy
    exact hbusy hempty

/-- The entry of the slot is put again. -/
theorem move (hg : ht₀.Good S hash) (hempty : ht₀.slot s = 0)
    (hv : entryIsValid (ht₀.slot ((s + k) % ht₀.size)) = true)
    (hp : ht₀.ptr ((s + k) % ht₀.size) = p) (hfits : ht₀.Fits p) (hrehash : rehash p = hash p) :
    ∃ ht', (ht.write ((s + k) % ht₀.size) 0).htAdd p (rehash p) = some ht' ∧
      ht₀.Rehashed S hash ht' s (k + 1) := by
  have hw := written hr.allocated hr.lt_size 0
  have hslot := hr.rest k le_rfl hk
  have hlt := hr.lt_size
  generalize ht.write ((s + k) % ht₀.size) 0 = ht₁ at hw
  have hf₁ := hr.frame.trans hw.frame
  have hfree : entryIsValid (ht₁.slot ((s + k) % ht₀.size)) = false := by
    rw [hw.self]
    exact entryIsValid_eq_false.2 (.inl rfl)
  obtain ⟨i, ht', hadd, hadded⟩ :=
    exists_added (by rw [hw.frame.size]; exact hlt) hfree p (rehash p)
  refine ⟨ht', hadd, ?_⟩
  rw [hrehash] at hadded
  obtain ⟨g, hgk, hig, hsi⟩ :=
    hr.exists_offset_le hk hs hg hempty hv hf₁ hfree (hp.symm ▸ hadded)
  have hfits₁ := hf₁.fits hfits
  have hm₁ := hf₁.masks hg.masks
  have hw' := hadded.written hw.allocated
  have hbusy' : ht'.Busy i := by
    rw [Htable.Busy, hw'.self]
    exact ne_zero_of_valid (makeHval_valid hfits₁.revealed)
  have hother {o : ℕ} (ho : o < k) (hoi : (s + o) % ht₀.size ≠ i) :
      ht'.slot ((s + o) % ht₀.size) = ht.slot ((s + o) % ht₀.size) := by
    rw [hw'.other _ hoi, hw.other _ (ne_of_lt hk ho)]
  refine ⟨hf₁.trans hw'.frame, hw'.allocated, ?_, fun o ho hlt => ?_, fun o ho hv' => ?_,
    fun o ho hd => ?_, ?_⟩
  · rw [hw'.other s hsi, hw.other s (hr.ne_empty hk (ne_zero_of_valid hv)), hr.empty]
  · rw [hw'.other _ (hig ▸ fun h => absurd (offset_inj hlt (by omega) h) (by omega)),
      hw.other _ fun h => absurd (offset_inj hlt hk h) (by omega)]
    exact hr.rest o (by omega) hlt
  · by_cases hoi : (s + o) % ht₀.size = i
    · rw [hoi]
      exact (hadded.home hw.allocated hm₁ hfits₁).2
    · rcases Nat.lt_succ_iff_lt_or_eq.1 ho with hok | rfl
      · rw [hother hok hoi] at hv'
        refine hr.home_frame hk hs (hw.frame.trans hw'.frame) hok hv' (hother hok hoi)
          fun e he hb => ?_
        by_cases hei : (s + e) % ht₀.size = i
        · rwa [hei]
        · rwa [Htable.Busy, hother he hei]
      · rw [hw'.other _ hoi, hfree] at hv'
        cases hv'
  · obtain ⟨hoi, hd⟩ := hadded.deleted hw.allocated hfits₁ hd
    rcases Nat.lt_succ_iff_lt_or_eq.1 ho with hok | rfl
    · rw [hw.other _ (ne_of_lt hk hok)] at hd
      exact hr.clean o hok hd
    · rw [hw.self] at hd
      exact hzero hd
  · have hout := hw.cons_perm hlt (hslot ▸ hv) (hw.self ▸ hfree) 0 0
    rw [Htable.ptr, hslot, hr.frame.getRawPtr, ← Htable.ptr, hp] at hout
    exact ((hadded.perm hw.allocated hm₁ hfits₁ 0 0).trans hout.symm).trans hr.perm

/-- **What `rehash_table` does with one slot.** -/
theorem step (hg : ht₀.Good S hash) (hempty : ht₀.slot s = 0)
    (hfits : ∀ p ∈ ht₀.elementsFrom 0, ht₀.Fits p ∧ rehash p = hash p) :
    ∃ ht', ht.rehashSlot rehash s k = some ht' ∧ ht₀.Rehashed S hash ht' s (k + 1) := by
  have hslot := hr.rest k le_rfl hk
  have hindex : (k + s) &&& (2 ^ ht.bits - 1) = (s + k) % ht₀.size := by
    rw [Nat.and_two_pow_sub_one_eq_mod, hr.frame.bits, Nat.add_comm]
    rfl
  have hlt : (s + k) % ht₀.size < ht₀.size := Nat.mod_lt _ (size_pos ht₀)
  unfold Htable.rehashSlot
  rw [hindex]
  dsimp only
  rw [hslot]
  split
  · rename_i hz
    refine ⟨ht, rfl, hr.skip hk (fun hv => absurd hz (ne_zero_of_valid hv)) ?_⟩
    rwa [hz]
  · split
    · rename_i hd
      exact ⟨_, rfl, hr.unmark hk hs hzero hd⟩
    · rename_i hz hd
      have hv : entryIsValid (ht₀.slot ((s + k) % ht₀.size)) = true := by
        rw [← Bool.not_eq_false, entryIsValid_eq_false, not_or]
        exact ⟨hz, hd⟩
      split
      · have hp := hfits _ (mem_elementsFrom.2 ⟨_, hlt, hv, rfl⟩)
        rw [hr.frame.getRawPtr]
        exact hr.move hk hs hzero hg hempty hv rfl hp.1 hp.2
      · rename_i hperfect
        rw [hr.frame.perfectBit] at hperfect
        refine ⟨ht, rfl, hr.skip hk (fun hv => ?_) hd⟩
        exact (hg.home _ hlt hv).of_perfect hg.masks hlt hperfect hr.frame hslot

end Htable.Rehashed

/-- The loop of `rehash_table`. -/
theorem foldlM_rehashSlot (hg : ht₀.Good S hash) (hs : s < ht₀.size) (hempty : ht₀.slot s = 0)
    (hzero : (0 : BitVec w) ≠ htableDeleted)
    (hfits : ∀ p ∈ ht₀.elementsFrom 0, ht₀.Fits p ∧ rehash p = hash p) (hk : k ≤ ht₀.size) :
    ∃ ht', (List.range k).foldlM (fun (ht : Htable w) i => ht.rehashSlot rehash s i) ht₀ =
      some ht' ∧ ht₀.Rehashed S hash ht' s k := by
  induction k with
  | zero =>
    exact ⟨ht₀, rfl, .refl ht₀, hg.allocated, hempty, fun _ _ _ => rfl,
      fun o ho => absurd ho (Nat.not_lt_zero o), fun o ho => absurd ho (Nat.not_lt_zero o), .refl _⟩
  | succ k ih =>
    obtain ⟨ht, hrun, hr⟩ := ih (by omega)
    obtain ⟨ht', hstep, hr'⟩ := hr.step hk hs hzero hg hempty hfits
    refine ⟨ht', ?_, hr'⟩
    rw [List.range_succ, List.foldlM_append, hrun]
    simp [hstep]

/-- **What `rehash_table` keeps.** -/
theorem rehashTable_eq (hl : ht.Live S hash) (hS : Apart S) (hw : 0 < w)
    (hrehash : ∀ p ∈ ht.elementsFrom 0, rehash p = hash p) :
    ∃ ht', ht.rehashTable rehash = some ht' ∧ ht.Keeps S hash ht' ∧ ht'.deleted = 0 ∧
      ht'.max = ht.max := by
  have hzero : (0 : BitVec w) ≠ htableDeleted := by
    rw [htableDeleted, Ne, ← BitVec.toNat_inj]
    simp only [BitVec.ofNat_eq_ofNat, BitVec.toNat_ofNat, Nat.zero_mod]
    rw [Nat.mod_eq_of_lt (Nat.one_lt_two_pow hw.ne')]
    exact Nat.zero_ne_one
  obtain ⟨i, hi, hempty⟩ := hl.exists_empty
  obtain ⟨s, hfirst⟩ : ∃ s, ht.firstEmpty = some s := by
    refine Option.isSome_iff_exists.1 (List.find?_isSome.2 ⟨i, List.mem_range.2 hi, ?_⟩)
    rw [decide_eq_true_eq, hempty]
  have hs := List.mem_range.1 (List.mem_of_find?_eq_some hfirst)
  have hsempty : ht.slot s = 0 := by
    have := List.find?_some hfirst
    rwa [decide_eq_true_eq] at this
  have hfits : ∀ p ∈ ht.elementsFrom 0, ht.Fits p ∧ rehash p = hash p := by
    intro p hp
    refine ⟨?_, hrehash p hp⟩
    obtain ⟨i, hi, hv, rfl⟩ := mem_elementsFrom.1 hp
    exact hl.revealed.fits hS (hl.mem i hi hv) (hl.masks.ptr_and _)
  obtain ⟨ht', hrun, hr⟩ := foldlM_rehashSlot hl.toGood hs hsempty hzero hfits le_rfl
  have hall {P : ℕ → Prop} (h : ∀ o < ht.size, P ((s + o) % ht.size)) (i : ℕ) (hi : i < ht.size) :
      P i := by
    obtain ⟨o, ho, rfl⟩ := exists_offset s hi
    exact h o ho
  have hsize := hr.frame.size
  have hgood : ht'.Good S hash := by
    refine ⟨hr.allocated, hr.frame.masks hl.masks, ?_, fun i hi hv => ?_⟩
    · rw [hsize]
      exact hall hr.home
    · exact hl.mem_of_mem (hr.perm.mem_iff.1 (mem_elementsFrom.2 ⟨i, hi, hv, rfl⟩))
  have hclean : ht'.countDeleted = 0 := by
    rw [Htable.countDeleted, List.countP_eq_zero, hsize]
    intro i hi
    rw [decide_eq_true_iff]
    exact hall (P := fun i => ht'.slot i ≠ htableDeleted) hr.clean i (List.mem_range.1 hi)
  have hroom := hl.room
  refine ⟨{ ht' with deleted := 0 }, ?_, ⟨?_, hr.perm, hr.frame.elems⟩, rfl, hr.frame.max⟩
  · simp only [Htable.rehashTable, hfirst, Option.bind_eq_bind, Option.bind_some, hrun]
    rfl
  · exact
      { hgood.counters ht'.elems 0 with
        revealed := by
          show (ht'.commonMask = _ ∧ ht'.commonBits = 0 ∧ ht'.elems = 0) ∨
            ∃ q ∈ S, q &&& ht'.commonMask = ht'.commonBits ∧ revealedBit q &&& ht'.commonMask = 0
          rw [hr.frame.commonMask, hr.frame.commonBits, hr.frame.elems]
          exact hl.revealed
        bits_pos := by show 1 ≤ ht'.bits; rw [hr.frame.bits]; exact hl.bits_pos
        bits_le := by show ht'.bits ≤ 30; rw [hr.frame.bits]; exact hl.bits_le
        max_eq := by
          show ht'.max = 3 * ht'.size / 4
          rw [hr.frame.max, hsize, hl.max_eq]
        maxWithDeleted_eq := by
          show ht'.maxWithDeleted = 9 * ht'.size / 10
          rw [hr.frame.maxWithDeleted, hsize, hl.maxWithDeleted_eq]
        elems_eq := by
          show (ht'.elementsFrom 0).length = ht'.elems
          rw [hr.perm.length_eq, hl.elems_eq, hr.frame.elems]
        deleted_le := by
          show ht'.countDeleted ≤ 0
          rw [hclean]
        room := by
          show ht'.elems + 0 ≤ ht'.maxWithDeleted
          rw [hr.frame.elems, hr.frame.maxWithDeleted]
          omega }

end Ccan

end Ocserv
