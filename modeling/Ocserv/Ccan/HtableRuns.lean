import Ocserv.Ccan.HtableGrow
import Ocserv.HTable
import Ocserv.Machine

/-!
# The hash table: what it is for

The rest of the development sees a hash table as the list of its pointers in the order in which
lookups visit them (`Ocserv.HTable`).  This is what `htable.c` computes: `elements` is the list, and
over every run of additions and deletions

* `htable_add` adds one pointer, unless there is no memory, and `htable_del` takes it out;
* the candidates for a hash are those `HTable.visited` says;
* a loop over the table that deletes what it is at comes to every pointer once (`sweep`).

No loop of the table goes on forever.  What is asked of the caller is that the pointers are `Apart`,
that none is added twice or deleted with another hash than the one it was put under, and that the
hash of a pointer in the table does not change.
-/

namespace Ocserv

namespace Ccan

open Probing

variable {w : ℕ} {ht ht' : Htable w} {i j s : ℕ} {e p q h x : BitVec w}
  {S : Set (BitVec w)} {hash rehash : BitVec w → BitVec w}

/-- The pointers of a table, in the order of the slots from the first empty one. -/
def Htable.elements (ht : Htable w) : List (BitVec w) := ht.elementsFrom (ht.firstEmpty.getD 0)

/-- A table of which only the invariant is known. -/
def Htable.Inv (S : Set (BitVec w)) (hash : BitVec w → BitVec w) (ht : Htable w) : Prop :=
  ht = htableInit ∨ ht.Live S hash

/-- The first empty slot. -/
theorem Htable.Live.firstEmpty (hl : ht.Live S hash) :
    ∃ s < ht.size, ht.firstEmpty = some s ∧ ht.slot s = 0 := by
  obtain ⟨i, hi, hempty⟩ := hl.exists_empty
  obtain ⟨s, hfirst⟩ : ∃ s, ht.firstEmpty = some s := by
    refine Option.isSome_iff_exists.1 (List.find?_isSome.2 ⟨i, List.mem_range.2 hi, ?_⟩)
    rw [decide_eq_true_eq, hempty]
  have hslot := List.find?_some hfirst
  rw [decide_eq_true_eq] at hslot
  exact ⟨s, List.mem_range.1 (List.mem_of_find?_eq_some hfirst), hfirst, hslot⟩

theorem elements_perm (ht : Htable w) (s : ℕ) : ht.elements.Perm (ht.elementsFrom s) :=
  elementsFrom_perm ht _ s

/-! ### Deletions -/

theorem delval_eq (ha : ht.Allocated) (i : ℕ) : ht.htableDelval i =
    { ht.write i htableDeleted with elems := ht.elems - 1, deleted := ht.deleted + 1 } := by
  obtain ⟨table, htable, -⟩ := ha
  simp only [Htable.htableDelval, Htable.write, htable]

/-- The deleted slot counts. -/
theorem Htable.Written.countDeleted (hw : ht.Written ht' i htableDeleted) (hi : i < ht.size) :
    ht'.countDeleted ≤ ht.countDeleted + 1 := by
  have hcount (ht : Htable w) : ht.countDeleted = ((List.range ht.size).filterMap fun j =>
      if ht.slot j = htableDeleted then some () else none).length := by
    rw [List.length_filterMap_eq_countP]
    refine List.countP_congr fun j _ => ?_
    split <;> simp_all
  rw [hcount, hcount, hw.frame.size]
  have hother : ∀ j ≠ i, (if ht'.slot j = htableDeleted then some () else none) =
      if ht.slot j = htableDeleted then some () else none := fun j hj => by rw [hw.other j hj]
  obtain ⟨x, y, hx, hy⟩ :=
    exists_filterMap_split (List.nodup_range (n := ht.size)) (List.mem_range.2 hi) hother
  rw [hx, hy, if_pos hw.self]
  simp only [List.length_append, Option.toList_some, List.length_singleton]
  omega

/-- **What `htable_delval` does.** -/
theorem delval_live (hl : ht.Live S hash) (hzero : (0 : BitVec w) ≠ htableDeleted)
    (hi : i < ht.size) (hv : entryIsValid (ht.slot i) = true) :
    (ht.htableDelval i).Live S hash ∧
      ((ht.elements.Nodup → (ht.htableDelval i).elements = ht.elements.erase (ht.ptr i))) := by
  have hw := written hl.allocated hi htableDeleted
  have hdel := delval_eq hl.allocated i
  generalize ht.write i htableDeleted = ht₁ at hw hdel
  have hsize : (ht.htableDelval i).size = ht.size := by rw [hdel]; exact hw.frame.size
  have hslot (j : ℕ) : (ht.htableDelval i).slot j = ht₁.slot j := by rw [hdel]; rfl
  have helems (s : ℕ) : (ht.htableDelval i).elementsFrom s = ht₁.elementsFrom s := by
    rw [hdel]; rfl
  have hnot : entryIsValid (htableDeleted : BitVec w) = false := entryIsValid_eq_false.2 (.inr rfl)
  have hperm := hw.cons_perm hi hv hnot 0 0
  have hlen := hperm.length_eq
  rw [hl.elems_eq, List.length_cons] at hlen
  have hbusy (j : ℕ) (hj : ht.Busy j) : ht₁.Busy j := by
    rcases eq_or_ne j i with rfl | hne
    · rw [Htable.Busy, hw.self]
      exact hzero.symm
    · rwa [Htable.Busy, hw.other j hne]
  have hgood : ht₁.Good S hash := by
    refine ⟨hw.allocated, hw.frame.masks hl.masks, fun j hj hv' => ?_, fun j hj hv' => ?_⟩
    all_goals
      have hne : j ≠ i := by
        rintro rfl
        rw [hw.self, hnot] at hv'
        cases hv'
      rw [hw.frame.size] at hj
      rw [hw.other j hne] at hv'
    · exact (hl.home j hj hv').frame hw.frame (hw.other j hne) hbusy
    · rw [Htable.ptr, hw.frame.getRawPtr, hw.other j hne]
      exact hl.mem j hj hv'
  have hrevealed : ∃ q ∈ S, q &&& ht.commonMask = ht.commonBits ∧
      revealedBit q &&& ht.commonMask = 0 := by
    obtain ⟨-, -, h⟩ | h := hl.revealed
    · omega
    · exact h
  refine ⟨?_, fun hnodup => ?_⟩
  · have hlive : Htable.Live S hash
        { ht₁ with elems := ht.elems - 1, deleted := ht.deleted + 1 } :=
      { hgood.counters (ht.elems - 1) (ht.deleted + 1) with
        revealed := by
          obtain ⟨q, hq, h₁, h₂⟩ := hrevealed
          refine .inr ⟨q, hq, ?_, ?_⟩
          · show q &&& ht₁.commonMask = ht₁.commonBits
            rw [hw.frame.commonMask, hw.frame.commonBits, h₁]
          · show revealedBit q &&& ht₁.commonMask = 0
            rw [hw.frame.commonMask, h₂]
        bits_pos := by show 1 ≤ ht₁.bits; rw [hw.frame.bits]; exact hl.bits_pos
        bits_le := by show ht₁.bits ≤ 30; rw [hw.frame.bits]; exact hl.bits_le
        max_eq := by
          show ht₁.max = 3 * ht₁.size / 4
          rw [hw.frame.max, hw.frame.size, hl.max_eq]
        maxWithDeleted_eq := by
          show ht₁.maxWithDeleted = 9 * ht₁.size / 10
          rw [hw.frame.maxWithDeleted, hw.frame.size, hl.maxWithDeleted_eq]
        elems_eq := by
          show (ht₁.elementsFrom 0).length = ht.elems - 1
          omega
        deleted_le := by
          have := hw.countDeleted hi
          have := hl.deleted_le
          show ht₁.countDeleted ≤ ht.deleted + 1
          omega
        room := by
          have := hl.room
          show ht.elems - 1 + (ht.deleted + 1) ≤ ht₁.maxWithDeleted
          rw [hw.frame.maxWithDeleted]
          omega }
    rwa [← hdel] at hlive
  · have hfirst : (ht.htableDelval i).firstEmpty = ht.firstEmpty := by
      unfold Htable.firstEmpty
      rw [hsize]
      refine List.find?_congr fun j _ => ?_
      rw [hslot]
      rcases eq_or_ne j i with rfl | hne
      · rw [hw.self, decide_eq_false hzero.symm, decide_eq_false (ne_zero_of_valid hv)]
      · rw [hw.other j hne]
    unfold Htable.elements at *
    rw [hfirst, helems]
    exact hw.erase hi hv hnot hnodup

/-! ### Additions -/

theorem init_elementsFrom (s : ℕ) : (htableInit : Htable w).elementsFrom s = [] := by
  refine List.filterMap_eq_nil_iff.2 fun i _ => entry_eq_none.2 ?_
  exact entryIsValid_eq_false.2 (.inl rfl)

theorem init_masks : (htableInit : Htable w).Masks := by
  refine ⟨BitVec.zero_and, BitVec.zero_and, fun x => .inl BitVec.and_zero⟩

theorem init_revealed : (htableInit : Htable w).Revealed S :=
  .inl ⟨BitVec.neg_one_eq_allOnes, rfl, rfl⟩

theorem grow_eq (hinv : ht.Inv S hash) (hS : Apart S) (hw : 0 < w)
    (hrehash : ∀ q ∈ ht.elementsFrom 0, rehash q = hash q) (calloc : Bool) :
    ht.grow calloc rehash = some (false, ht) ∧ (calloc = false ∨ 30 ≤ ht.bits) ∨
      ∃ ht', ht.grow calloc rehash = some (true, ht') ∧ ht.Keeps S hash ht' ∧
        ht'.elems + 1 ≤ ht'.max := by
  unfold Htable.grow
  split
  · obtain rfl | hl := hinv
    · exact doubleTable_eq hS hw init_masks init_revealed
        (.of_eq (init_elementsFrom 0).symm) (fun q hq => by rw [init_elementsFrom] at hq; cases hq)
        (by rw [init_elementsFrom]; rfl) (by show 0 + 1 ≤ 3 * (2 * 2 ^ 0) / 4; decide) calloc
    · have hroom := hl.room
      have hpos := Nat.pow_le_pow_right (Nat.zero_lt_two) hl.bits_pos
      rw [← Htable.size, pow_one] at hpos
      rw [hl.maxWithDeleted_eq] at hroom
      exact doubleTable_eq hS hw hl.masks hl.revealed
        (oldEntries_perm hl.allocated) (fun q hq => ⟨hl.mem_of_mem hq, hrehash q hq⟩) hl.elems_eq
        (by omega) calloc
  · rename_i hmax
    obtain rfl | hl := hinv
    · exact absurd Nat.one_pos hmax
    · exact .inr ⟨ht, rfl, ⟨hl, .refl _, rfl⟩, Nat.not_lt.1 hmax⟩

theorem tidy_eq (hl : ht.Live S hash) (hS : Apart S) (hw : 0 < w)
    (hrehash : ∀ q ∈ ht.elementsFrom 0, rehash q = hash q) (hmax : ht.elems + 1 ≤ ht.max) :
    ∃ ht', ht.tidy rehash = some ht' ∧ ht.Keeps S hash ht' ∧
      ht'.elems + 1 + ht'.deleted ≤ ht'.maxWithDeleted := by
  unfold Htable.tidy
  split
  · obtain ⟨ht', hrun, hkeeps, hdeleted, hmax'⟩ := rehashTable_eq hl hS hw hrehash
    refine ⟨ht', hrun, hkeeps, ?_⟩
    have h₁ := hkeeps.live.max_eq
    have h₂ := hkeeps.live.maxWithDeleted_eq
    rw [hdeleted, hkeeps.elems]
    omega
  · exact ⟨ht, rfl, ⟨hl, .refl _, rfl⟩, Nat.not_lt.1 ‹_›⟩

theorem fit_eq (hl : ht.Live S hash) (hS : Apart S) (hp : p ∈ S) :
    ht.Keeps S hash (ht.fit p) ∧ (ht.fit p).Fits p ∧ (ht.fit p).deleted = ht.deleted ∧
      (ht.fit p).maxWithDeleted = ht.maxWithDeleted := by
  unfold Htable.fit
  split
  · by_cases hne : ht.elems = 0
    · obtain ⟨hkeeps, hfits⟩ := updateCommon_of_empty hl hS hp hne
      refine ⟨hkeeps, hfits, ?_⟩
      rw [Htable.updateCommon, if_pos hne]
      exact ⟨rfl, rfl⟩
    · obtain ⟨hkeeps, hfits⟩ := updateCommon_of_ne hl hS hp hne
      refine ⟨hkeeps, hfits, ?_⟩
      rw [updateCommon_eq hne]
      exact ⟨rfl, rfl⟩
  · exact ⟨⟨hl, .refl _, rfl⟩, hl.revealed.fits hS hp (not_not.1 ‹_›), rfl, rfl⟩

/-- The last part of `htable_add` puts the pointer into a slot. -/
theorem put_eq (hl : ht.Live S hash) (hp : p ∈ S) (hfits : ht.Fits p)
    (hroom : ht.elems + 1 + ht.deleted ≤ ht.maxWithDeleted) :
    ∃ ht', ht.htAdd p (hash p) = some ht' ∧
      Htable.Live S hash { ht' with elems := ht'.elems + 1 } ∧
      (ht'.elementsFrom 0).Perm (p :: ht.elementsFrom 0) := by
  obtain ⟨i, hi, hempty⟩ := hl.exists_empty
  obtain ⟨j, ht', hadd, hadded⟩ :=
    exists_added hi (entryIsValid_eq_false.2 (.inl hempty)) p (hash p)
  have hw := hadded.written hl.allocated
  have hperm := hadded.perm hl.allocated hl.masks hfits 0 0
  have hgood := hadded.good hl.toGood hfits hp
  have hlen := hperm.length_eq
  rw [List.length_cons, hl.elems_eq] at hlen
  have hdeleted : ht'.countDeleted ≤ ht.countDeleted := by
    unfold Htable.countDeleted
    rw [hw.frame.size]
    refine List.countP_mono_left fun k _ hk => ?_
    rw [decide_eq_true_iff] at *
    exact (hadded.deleted hl.allocated hfits hk).2
  refine ⟨ht', hadd, ?_, hperm⟩
  exact
    { hgood.counters (ht'.elems + 1) ht'.deleted with
      revealed := by
        obtain ⟨hmask, hbits, -⟩ | ⟨q, hq, h₁, h₂⟩ := hl.revealed
        · have hcommon := hfits.common
          have hrev := hfits.revealed
          rw [hmask, BitVec.not_allOnes] at hrev
          rw [BitVec.and_zero] at hrev
          exact absurd rfl (ne_zero_of_valid hrev)
        · refine .inr ⟨q, hq, ?_, ?_⟩
          · show q &&& ht'.commonMask = ht'.commonBits
            rw [hw.frame.commonMask, hw.frame.commonBits, h₁]
          · show revealedBit q &&& ht'.commonMask = 0
            rw [hw.frame.commonMask, h₂]
      bits_pos := by show 1 ≤ ht'.bits; rw [hw.frame.bits]; exact hl.bits_pos
      bits_le := by show ht'.bits ≤ 30; rw [hw.frame.bits]; exact hl.bits_le
      max_eq := by
        show ht'.max = 3 * ht'.size / 4
        rw [hw.frame.max, hw.frame.size, hl.max_eq]
      maxWithDeleted_eq := by
        show ht'.maxWithDeleted = 9 * ht'.size / 10
        rw [hw.frame.maxWithDeleted, hw.frame.size, hl.maxWithDeleted_eq]
      elems_eq := by
        show (ht'.elementsFrom 0).length = ht'.elems + 1
        rw [hlen, hw.frame.elems]
      deleted_le := by
        show ht'.countDeleted ≤ ht'.deleted
        rw [hw.frame.deleted]
        exact hdeleted.trans hl.deleted_le
      room := by
        show ht'.elems + 1 + ht'.deleted ≤ ht'.maxWithDeleted
        rw [hw.frame.elems, hw.frame.deleted, hw.frame.maxWithDeleted]
        exact hroom }

/-- The invariant depends on the hashes of the pointers in the table only. -/
theorem Htable.Inv.congr {hash' : BitVec w → BitVec w} (hinv : ht.Inv S hash)
    (hh : ∀ q ∈ ht.elementsFrom 0, hash' q = hash q) : ht.Inv S hash' :=
  hinv.imp_right fun hl =>
    { hl.toGood.congr hh with
      revealed := hl.revealed
      bits_pos := hl.bits_pos
      bits_le := hl.bits_le
      max_eq := hl.max_eq
      maxWithDeleted_eq := hl.maxWithDeleted_eq
      elems_eq := hl.elems_eq
      deleted_le := hl.deleted_le
      room := hl.room }

/-- **What `htable_add` does.**  It fails only if there is no memory for a larger table. -/
theorem htableAdd_eq (hinv : ht.Inv S hash) (hS : Apart S) (hp : p ∈ S)
    (hfresh : p ∉ ht.elements) (hrehash : ∀ q ∈ ht.elements, rehash q = hash q) (calloc : Bool)
    (h : BitVec w) :
    (ht.htableAdd calloc rehash h p = some (false, ht) ∧ (calloc = false ∨ 30 ≤ ht.bits)) ∨
      ∃ ht', ht.htableAdd calloc rehash h p = some (true, ht') ∧
        ht'.Live S (Function.update hash p h) ∧ ht'.elements.Perm (p :: ht.elements) := by
  have hmem {q : BitVec w} (hq : q ∈ ht.elementsFrom 0) : q ∈ ht.elements :=
    (elements_perm ht 0).mem_iff.2 hq
  have hupdate : ∀ q ∈ ht.elementsFrom 0, Function.update hash p h q = hash q :=
    fun q hq => Function.update_of_ne (ne_of_mem_of_not_mem (hmem hq) hfresh) _ _
  have hrehash' : ∀ q ∈ ht.elementsFrom 0, rehash q = Function.update hash p h q :=
    fun q hq => (hrehash q (hmem hq)).trans (hupdate q hq).symm
  have hw := hS.pos hp
  unfold Htable.htableAdd
  obtain ⟨hgrow, hno⟩ | ⟨ht₁, hgrow, hk₁, hmax₁⟩ :=
    grow_eq (hinv.congr hupdate) hS hw hrehash' calloc
  · left
    rw [hgrow]
    exact ⟨rfl, hno⟩
  · right
    obtain ⟨ht₂, htidy, hk₂, hroom₂⟩ := tidy_eq hk₁.live hS hw
      (fun q hq => hrehash' q (hk₁.perm.mem_iff.1 hq)) hmax₁
    obtain ⟨hk₃, hfits, hdeleted, hmwd⟩ := fit_eq hk₂.live hS hp
    obtain ⟨ht', hadd, hl', hperm⟩ := put_eq hk₃.live hp hfits
      (by rw [hk₃.elems, hdeleted, hmwd]; exact hroom₂)
    rw [Function.update_self] at hadd
    refine ⟨{ ht' with elems := ht'.elems + 1 }, ?_, hl', ?_⟩
    · rw [hgrow, Option.bind_some]
      dsimp only
      rw [if_neg (by decide), htidy, Option.bind_some, hadd]
      rfl
    · have hold := (hk₃.perm.trans hk₂.perm).trans hk₁.perm
      refine (elements_perm _ 0).trans (hperm.trans (List.Perm.cons p ?_))
      exact hold.trans (elements_perm ht 0).symm

/-! ### Lookups -/

/-- Part of a list without repetitions is what a filter leaves of it. -/
theorem filter_mem_eq_self {α : Type*} [DecidableEq α] {l t : List α} (hs : l.Sublist t)
    (ht : t.Nodup) : (t.filter fun a => decide (a ∈ l)) = l := by
  induction hs with
  | slnil => rfl
  | @cons l t a hs ih =>
    obtain ⟨ha, ht⟩ := List.nodup_cons.1 ht
    rw [List.filter_cons_of_neg (by simpa using fun h => ha (hs.subset h)), ih ht]
  | @cons_cons l t a hs ih =>
    obtain ⟨ha, ht⟩ := List.nodup_cons.1 ht
    rw [List.filter_cons_of_pos (by simp)]
    refine congrArg (a :: ·) (Eq.trans (List.filter_congr fun b hb => ?_) (ih ht))
    have hne : b ≠ a := ne_of_mem_of_not_mem hb ha
    simp [hne]

/-- The hashes of the pointers of a table. -/
def hashes (hash : BitVec w → BitVec w) (p : BitVec w) : ℕ := (hash p).toNat

/-- The slots of the candidates for a hash, as `HTable` sees them. -/
structure Htable.Candidates (ht : Htable w) (hash : BitVec w → BitVec w) (h : BitVec w)
    (is : List ℕ) : Prop where
  valid : ∀ i ∈ is, i < ht.size ∧ entryIsValid (ht.slot i) = true
  visited : ∃ shares, is.map ht.ptr = HTable.visited (hashes hash) ht.elements shares h.toNat
  complete : ∀ p ∈ ht.elements, hash p = h → p ∈ is.map ht.ptr
  loop : ∀ (β : Type) (body : ℕ → BitVec w → Option β),
    ht.forVal h body (ht.size + 1) (ht.htableFirstval h) =
      some (is.findSome? fun i => body i (ht.ptr i))

theorem init_elements : (htableInit : Htable w).elements = [] := init_elementsFrom _

/-- **The candidates for a hash.** -/
theorem exists_candidates (hinv : ht.Inv S hash) (hS : Apart S) (hnodup : ht.elements.Nodup)
    (h : BitVec w) : ∃ is, ht.Candidates hash h is := by
  obtain rfl | hl := hinv
  · refine ⟨[], fun _ hi => absurd hi List.not_mem_nil, ⟨fun _ => false, ?_⟩, fun p hp => ?_,
      fun β body => ?_⟩
    · rw [init_elements]
      rfl
    · rw [init_elements] at hp
      cases hp
    · have hsize : (htableInit : Htable w).size = 1 := rfl
      have hzero (i : ℕ) : (htableInit : Htable w).slot i = 0 := rfl
      rw [Htable.htableFirstval, hsize, Htable.htableVal, if_pos (hzero _), Htable.forVal,
        if_pos rfl]
      rfl
  · obtain ⟨s, hs, hfirst, hempty⟩ := hl.firstEmpty
    obtain ⟨is, hv, hloop⟩ :=
      exists_visits hl.toGood hs hempty (fun i hi hv => hl.ptr_ne_zero hS hi hv) h
    have helements : ht.elements = ht.elementsFrom s := by
      rw [Htable.elements, hfirst, Option.getD_some]
    refine ⟨is, hv.valid, ⟨fun p => decide (p ∈ is.map ht.ptr), ?_⟩, ?_, hloop⟩
    · rw [helements] at hnodup ⊢
      rw [HTable.visited]
      conv_lhs => rw [← filter_mem_eq_self hv.sublist hnodup]
      refine List.filter_congr fun p hp => ?_
      cases hmem : decide (p ∈ is.map ht.ptr) with
      | true => rw [Bool.or_true]
      | false =>
        rw [decide_eq_false_iff_not] at hmem
        rw [Bool.or_false, eq_comm, decide_eq_false_iff_not]
        exact fun hh => hmem (hv.complete p hp (BitVec.eq_of_toNat_eq hh))
    · rw [helements]
      exact hv.complete

/-- **`htable_get`** is the first pointer of those the lookup visits that the comparison accepts. -/
theorem htableGet_eq (hinv : ht.Inv S hash) (hS : Apart S) (hnodup : ht.elements.Nodup)
    (h : BitVec w) : ∃ shares, ∀ cmp, ht.htableGet h cmp =
      some (HTable.get (HTable.visited (hashes hash) ht.elements shares h.toNat) cmp) := by
  obtain ⟨is, hc⟩ := exists_candidates hinv hS hnodup h
  obtain ⟨shares, hshares⟩ := hc.visited
  refine ⟨shares, fun cmp => ?_⟩
  rw [Htable.htableGet, hc.loop, ← hshares, HTable.get, List.find?_eq_findSome?_guard,
    List.findSome?_map]
  rfl

/-- **What `htable_del` does**, with the hash the pointer was put under. -/
theorem htableDel_eq (hinv : ht.Inv S hash) (hS : Apart S) (hzero : (0 : BitVec w) ≠ htableDeleted)
    (hnodup : ht.elements.Nodup) (hh : p ∈ ht.elements → hash p = h) :
    ∃ ht', ht.htableDel h p = some (decide (p ∈ ht.elements), ht') ∧ ht'.Inv S hash ∧
      ht'.elements = ht.elements.erase p := by
  obtain ⟨is, hc⟩ := exists_candidates hinv hS hnodup h
  rw [Htable.htableDel, hc.loop]
  by_cases hp : p ∈ ht.elements
  · obtain ⟨j, hj, hjp⟩ := List.mem_map.1 (hc.complete p hp (hh hp))
    cases hfind : is.findSome? fun i => if ht.ptr i = p then some i else none with
    | none =>
      have := List.findSome?_eq_none_iff.1 hfind j hj
      rw [if_pos hjp] at this
      cases this
    | some i =>
      obtain ⟨k, hk, hki⟩ := List.exists_of_findSome?_eq_some hfind
      obtain ⟨hkp, hki⟩ := Option.ite_none_right_eq_some.1 hki
      obtain rfl := Option.some.inj hki
      obtain ⟨hlt, hv⟩ := hc.valid k hk
      obtain rfl | hl := hinv
      · rw [init_elements] at hp
        cases hp
      · obtain ⟨hlive, helements⟩ := delval_live hl hzero hlt hv
        refine ⟨ht.htableDelval k, ?_, .inr hlive, ?_⟩
        · rw [decide_eq_true hp]
          rfl
        · rw [helements hnodup, hkp]
  · have hnone : (is.findSome? fun i => if ht.ptr i = p then some i else none) = none := by
      refine List.findSome?_eq_none_iff.2 fun i hi => if_neg ?_
      rintro rfl
      obtain ⟨hlt, hv⟩ := hc.valid i hi
      exact hp ((elements_perm ht 0).mem_iff.2 (mem_elementsFrom.2 ⟨i, hlt, hv, rfl⟩))
    refine ⟨ht, ?_, hinv, (List.erase_of_not_mem hp).symm⟩
    rw [hnone, decide_eq_false hp]
    rfl

/-! ### Loops over the table -/

/-- The pointers of the slots from `off` on. -/
def Htable.remaining (ht : Htable w) (off left : ℕ) : List (BitVec w) :=
  (List.range' off left).filterMap ht.entry

theorem delval_slot (ha : ht.Allocated) (hi : i < ht.size) :
    (ht.htableDelval i).size = ht.size ∧
      ∀ j ≠ i, (ht.htableDelval i).entry j = ht.entry j := by
  have hw := written ha hi htableDeleted
  rw [delval_eq ha i]
  exact ⟨hw.frame.size, fun j hj => hw.frame.entry (hw.other j hj)⟩

theorem remaining_sublist {off left : ℕ} (h : off + left ≤ ht.size) :
    (ht.remaining off left).Sublist (ht.elementsFrom 0) := by
  have hring : ring ht.size 0 = List.range' 0 ht.size := by
    rw [ring, List.range_eq_range']
    refine (List.map_congr_left fun o ho => ?_).trans (List.map_id _)
    rw [Nat.zero_add, Nat.mod_eq_of_lt (by simpa using ho)]
    rfl
  unfold Htable.remaining Htable.elementsFrom
  rw [hring]
  refine List.Sublist.filterMap _ ?_
  obtain ⟨r, hr⟩ := Nat.exists_eq_add_of_le h
  rw [hr, ← List.range'_append_1, ← List.range'_append_1, Nat.zero_add]
  exact (List.sublist_append_right _ _).trans (List.sublist_append_left _ _)

theorem remaining_succ (ht : Htable w) (off left : ℕ) :
    ht.remaining off (left + 1) = (ht.entry off).toList ++ ht.remaining (off + 1) left := by
  rw [Htable.remaining, List.range'_succ]
  cases h : ht.entry off with
  | none => rw [List.filterMap_cons_none h]; rfl
  | some p => rw [List.filterMap_cons_some h]; rfl

/-- A loop over the slots that are left. -/
theorem forEach_eq {σ : Type*} (body : σ → BitVec w → σ × Bool) (hS : Apart S)
    (hzero : (0 : BitVec w) ≠ htableDeleted) {left off fuel : ℕ} (hl : ht.Live S hash)
    (hnodup : ht.elements.Nodup) (hoff : off + left = ht.size) (hfuel : left < fuel) (s : σ) :
    ∃ ht', ht.forEach body fuel (ht.scan left off) s =
        (ht', (HTable.sweep body (ht.remaining off left) s).2) ∧ ht'.Live S hash ∧
      ht'.elements = ht.elements.filter fun p => decide (p ∈ ht.remaining off left →
        p ∈ (HTable.sweep body (ht.remaining off left) s).1) := by
  induction left generalizing ht off fuel s with
  | zero =>
    obtain ⟨fuel, rfl⟩ := Nat.exists_eq_succ_of_ne_zero (Nat.ne_zero_of_lt hfuel)
    refine ⟨ht, ?_, hl, (List.filter_eq_self.2 fun p _ => ?_).symm⟩
    · rw [Htable.scan, Htable.forEach, if_pos rfl]
      rfl
    · exact decide_eq_true fun h => absurd h List.not_mem_nil
  | succ left ih =>
    obtain ⟨fuel, rfl⟩ := Nat.exists_eq_succ_of_ne_zero (Nat.ne_zero_of_lt hfuel)
    have hlt : off < ht.size := by omega
    rw [remaining_succ]
    cases hv : entryIsValid (ht.slot off) with
    | false =>
      have hscan : ht.scan (left + 1) off = ht.scan left (off + 1) := by
        rw [Htable.scan, hv, if_neg Bool.false_ne_true]
      rw [hscan, entry_eq_none.2 hv]
      exact ih hl hnodup (by omega) (show left < fuel + 1 by omega) s
    | true =>
      have hscan : ht.scan (left + 1) off = (off, ht.ptr off) := by
        rw [Htable.scan, hv, if_pos rfl]
        rfl
      have hleft : ht.size - (off + 1) = left := by omega
      have hrest : (ht.remaining off (left + 1)).Nodup :=
        (remaining_sublist (by omega)).nodup ((elements_perm ht 0).nodup_iff.1 hnodup)
      rw [remaining_succ, entry_eq_some.2 ⟨hv, rfl⟩] at hrest
      have hnot : ht.ptr off ∉ ht.remaining (off + 1) left := (List.nodup_cons.1 hrest).1
      have hsub := HTable.sweep_sublist body (ht.remaining (off + 1) left) (body s (ht.ptr off)).1
      rw [hscan, entry_eq_some.2 ⟨hv, rfl⟩, Htable.forEach, if_neg (hl.ptr_ne_zero hS hlt hv)]
      simp only [Option.toList_some, List.singleton_append, HTable.sweep]
      cases hdel : (body s (ht.ptr off)).2 with
      | true =>
        obtain ⟨hlive, helements⟩ := delval_live hl hzero hlt hv
        have helements := helements hnodup
        obtain ⟨hsize, hentry⟩ := delval_slot hl.allocated hlt
        have hremaining : (ht.htableDelval off).remaining (off + 1) left =
            ht.remaining (off + 1) left :=
          List.filterMap_congr fun j hj => hentry j (by
            have := List.mem_range'_1.1 hj
            omega)
        have hnext : (ht.htableDelval off).htableNext off =
            (ht.htableDelval off).scan left (off + 1) := by
          rw [Htable.htableNext, hsize, hleft]
        obtain ⟨ht', hrun, hlive', hel'⟩ := ih hlive
          (by rw [helements]; exact hnodup.erase _)
          (show off + 1 + left = (ht.htableDelval off).size by rw [hsize]; omega)
          (show left < fuel by omega)
          (body s (ht.ptr off)).1
        rw [hremaining] at hrun hel'
        refine ⟨ht', by rw [if_pos rfl, hnext, hrun], hlive', ?_⟩
        rw [hel', helements, hnodup.erase_eq_filter, List.filter_filter]
        refine List.filter_congr fun p _ => ?_
        rw [if_pos rfl]
        by_cases hp : p = ht.ptr off
        · subst hp
          simpa using fun h => hnot (hsub.subset h)
        · simp [hp]
      | false =>
        have hnext : ht.htableNext off = ht.scan left (off + 1) := by
          rw [Htable.htableNext, hleft]
        obtain ⟨ht', hrun, hlive', hel'⟩ := ih hl hnodup
          (show off + 1 + left = ht.size by omega) (show left < fuel by omega)
          (body s (ht.ptr off)).1
        refine ⟨ht', by rw [if_neg Bool.false_ne_true, hnext, hrun], hlive', ?_⟩
        rw [hel']
        refine List.filter_congr fun p _ => ?_
        rw [if_neg Bool.false_ne_true]
        by_cases hp : p = ht.ptr off
        · subst hp
          simp [hnot]
        · simp [hp]

/-- **A loop over a table** that deletes what it is at comes to every pointer once. -/
theorem forEach_first_eq {σ : Type*} (body : σ → BitVec w → σ × Bool) (hS : Apart S)
    (hzero : (0 : BitVec w) ≠ htableDeleted) (hinv : ht.Inv S hash) (hnodup : ht.elements.Nodup)
    (s : σ) :
    ∃ order ht', order.Perm ht.elements ∧
      ht.forEach body (ht.size + 1) ht.htableFirst s = (ht', (HTable.sweep body order s).2) ∧
      ht'.Inv S hash ∧
      ht'.elements = ht.elements.filter fun p => decide (p ∈ (HTable.sweep body order s).1) := by
  obtain rfl | hl := hinv
  · refine ⟨[], htableInit, by rw [init_elements], ?_, .inl rfl, by rw [init_elements]; rfl⟩
    have hfirst : (htableInit : Htable w).htableFirst = (1, 0) := by
      have hnot : ¬ entryIsValid ((htableInit : Htable w).slot 0) = true :=
        Bool.eq_false_iff.1 (entryIsValid_eq_false.2 (.inl rfl))
      have hsize : (htableInit : Htable w).size = 1 := rfl
      rw [Htable.htableFirst, hsize, Htable.scan, if_neg hnot]
      rfl
    rw [hfirst, Htable.forEach, if_pos rfl]
    rfl
  · obtain ⟨ht', hrun, hlive, hel⟩ :=
      forEach_eq body hS hzero hl hnodup (Nat.zero_add ht.size) (Nat.lt_succ_self _) s
    have hperm : (ht.remaining 0 ht.size).Perm ht.elements := by
      have hsub := remaining_sublist (show 0 + ht.size ≤ ht.size by omega)
      have hlen : (ht.remaining 0 ht.size).length = (ht.elementsFrom 0).length := by
        rw [Htable.remaining, Htable.elementsFrom, ← List.range_eq_range',
          ((ring_perm ht.size 0).filterMap ht.entry).length_eq]
      rw [hsub.eq_of_length hlen]
      exact (elements_perm ht 0).symm
    refine ⟨_, ht', hperm, hrun, .inr hlive, hel.trans (List.filter_congr fun p hp => ?_)⟩
    simp [hperm.mem_iff.2 hp]

/-! ### Runs -/

/-- What a program does with a table. -/
inductive TableOp (w : ℕ) where
  | add (calloc : Bool) (rehash : BitVec w → BitVec w) (h p : BitVec w)
  | del (h p : BitVec w)
  /-- A loop that deletes what has expired. -/
  | cleanup (expired : BitVec w → Bool)
  | clear

/-- A table, and what its user knows of it: the list that `HTable` speaks of, and the hash each
pointer was put under. -/
structure TableSt (w : ℕ) where
  ht : Htable w
  list : List (BitVec w)
  hash : BitVec w → BitVec w

/-- The operations on the table, and what they do to the list. -/
def tableMachine : Machine (TableSt w) (TableOp w) where
  step s
    | .add calloc rehash h p => (s.ht.htableAdd calloc rehash h p).map fun (ok, ht) =>
        if ok then ⟨ht, HTable.add ht.elements s.list p, Function.update s.hash p h⟩
        else ⟨ht, s.list, s.hash⟩
    | .del h p => (s.ht.htableDel h p).map fun (_, ht) => ⟨ht, HTable.del s.list p, s.hash⟩
    | .cleanup expired =>
      let ret := s.ht.forEach (fun (_ : Unit) p => ((), expired p)) (s.ht.size + 1)
        s.ht.htableFirst ()
      some ⟨ret.1, s.list.filter fun p => !expired p, s.hash⟩
    | .clear => some ⟨htableClear s.ht, [], s.hash⟩

/-- What is asked of the user of a table whose pointers are from `S`. -/
def Asked (S : Set (BitVec w)) (s : TableSt w) : TableOp w → Prop
  | .add _ rehash _ p => p ∈ S ∧ p ∉ s.list ∧ HTable.Placed (hashes rehash) (hashes s.hash) s.list
  | .del h p => p ∈ s.list → s.hash p = h
  | .cleanup _ | .clear => True

/-- What the user of a table may rely on. -/
structure Refines (S : Set (BitVec w)) (s : TableSt w) : Prop where
  list : s.ht.elements = s.list
  nodup : s.list.Nodup
  elems : s.ht.elems = s.list.length
  get : ∀ h, ∃ shares, ∀ cmp, s.ht.htableGet h cmp =
    some (HTable.get (HTable.visited (hashes s.hash) s.list shares h.toNat) cmp)
  add : ∀ calloc rehash h p, Asked S s (.add calloc rehash h p) →
    ∃ ok ht, s.ht.htableAdd calloc rehash h p = some (ok, ht) ∧
      (ok = false → ht = s.ht ∧ (calloc = false ∨ 30 ≤ s.ht.bits))
  del : ∀ h p, Asked S s (.del h p) →
    ∃ ht, s.ht.htableDel h p = some (decide (p ∈ s.list), ht)
  loop : ∀ (σ : Type) (body : σ → BitVec w → σ × Bool) x, ∃ order ht, order.Perm s.list ∧
    s.ht.forEach body (s.ht.size + 1) s.ht.htableFirst x = (ht, (HTable.sweep body order x).2) ∧
      ht.elements = s.list.filter fun p => decide (p ∈ (HTable.sweep body order x).1)

/-- The invariant of a run. -/
structure TableInv (S : Set (BitVec w)) (s : TableSt w) : Prop where
  inv : s.ht.Inv S s.hash
  list : s.ht.elements = s.list
  nodup : s.list.Nodup

theorem zero_ne_deleted (hw : 0 < w) : (0 : BitVec w) ≠ htableDeleted := by
  rw [htableDeleted, Ne, ← BitVec.toNat_inj]
  simp only [BitVec.ofNat_eq_ofNat, BitVec.toNat_ofNat, Nat.zero_mod]
  rw [Nat.mod_eq_of_lt (Nat.one_lt_two_pow hw.ne')]
  exact Nat.zero_ne_one

/-- The hash of a pointer in the table has not changed. -/
theorem placed_iff {l : List (BitVec w)} :
    HTable.Placed (hashes rehash) (hashes hash) l ↔ ∀ q ∈ l, rehash q = hash q :=
  forall₂_congr fun _ _ => BitVec.toNat_inj.trans eq_comm

section Runs

variable {st st' : TableSt w} {op : TableOp w} (hS : Apart S) (hw : 0 < w)
include hS hw

/-- **What one operation does.** -/
theorem TableInv.step (hinv : TableInv S st) (hop : Asked S st op) :
    ∃ st', tableMachine.step st op = some st' ∧ TableInv S st' := by
  obtain ⟨ht, list, hash⟩ := st
  obtain ⟨hinv, hlist, hnodup⟩ := hinv
  dsimp only at hinv hlist hnodup
  subst hlist
  cases op with
  | add calloc rehash h p =>
    obtain ⟨hp, hfresh, hplaced⟩ := hop
    obtain ⟨hadd, -⟩ | ⟨ht', hadd, hlive, hperm⟩ :=
      htableAdd_eq hinv hS hp hfresh (placed_iff.1 hplaced) calloc h
    · exact ⟨⟨ht, ht.elements, hash⟩, by simp only [tableMachine, hadd]; rfl, hinv, rfl, hnodup⟩
    · refine ⟨⟨ht', ht'.elements, Function.update hash p h⟩, ?_, .inr hlive, rfl, ?_⟩
      · simp only [tableMachine, hadd, Option.map_some, if_true, HTable.add, if_pos hperm]
      · exact hperm.nodup_iff.2 (List.nodup_cons.2 ⟨hfresh, hnodup⟩)
  | del h p =>
    obtain ⟨ht', hdel, hinv', helements⟩ :=
      htableDel_eq hinv hS (zero_ne_deleted hw) hnodup hop
    refine ⟨⟨ht', ht.elements.erase p, hash⟩, ?_, hinv', helements, hnodup.erase p⟩
    simp only [tableMachine, hdel, Option.map_some]
    rfl
  | cleanup expired =>
    obtain ⟨order, ht', hperm, hrun, hinv', helements⟩ :=
      forEach_first_eq (fun (_ : Unit) p => ((), expired p)) hS (zero_ne_deleted hw) hinv
        hnodup ()
    refine ⟨⟨ht', ht.elements.filter fun p => !expired p, hash⟩, ?_, hinv', ?_, hnodup.filter _⟩
    · simp only [tableMachine, hrun]
    · rw [helements, HTable.sweep_filter]
      refine List.filter_congr fun p hp => ?_
      simp [hperm.mem_iff.2 hp]
  | clear => exact ⟨⟨htableInit, [], hash⟩, rfl, .inl rfl, init_elements, .nil⟩

theorem TableInv.refines (hinv : TableInv S st) : Refines S st where
  list := hinv.list
  nodup := hinv.nodup
  elems := by
    rw [← hinv.list]
    obtain h | hl := hinv.inv
    · rw [h, init_elements]
      rfl
    · rw [(elements_perm st.ht 0).length_eq, hl.elems_eq]
  get h := by
    rw [← hinv.list]
    exact htableGet_eq hinv.inv hS (hinv.list.symm ▸ hinv.nodup) h
  add calloc rehash h p hop := by
    obtain ⟨hp, hfresh, hplaced⟩ := hop
    rw [← hinv.list] at hfresh hplaced
    obtain ⟨hadd, hno⟩ | ⟨ht', hadd, -⟩ :=
      htableAdd_eq hinv.inv hS hp hfresh (placed_iff.1 hplaced) calloc h
    · exact ⟨false, st.ht, hadd, fun _ => ⟨rfl, hno⟩⟩
    · exact ⟨true, ht', hadd, fun h => absurd h.symm Bool.false_ne_true⟩
  del h p hop := by
    rw [Asked, ← hinv.list] at hop
    rw [← hinv.list]
    obtain ⟨ht', hdel, -⟩ := htableDel_eq hinv.inv hS (zero_ne_deleted hw)
      (hinv.list.symm ▸ hinv.nodup) hop
    exact ⟨ht', hdel⟩
  loop σ body x := by
    rw [← hinv.list]
    obtain ⟨order, ht', hperm, hrun, -, helements⟩ := forEach_first_eq body hS
      (zero_ne_deleted hw) hinv.inv (hinv.list.symm ▸ hinv.nodup) x
    exact ⟨order, ht', hperm, hrun, helements⟩

/-- A table when it is made. -/
def tableStart (w : ℕ) : TableSt w := ⟨htableInit, [], fun _ => 0⟩

/-- **The hash table does what is asked of it.**  In every run of operations whose user keeps to
what is asked of him, no operation goes on forever or is stuck; and in every state of the run the
table has the pointers of the list `HTable` speaks of, in its order: its counter is their number, a
lookup visits those `HTable` says, an addition fails only if there is no memory, a deletion tells
whether the pointer was there, and a loop comes to every pointer once. -/
theorem htable_refines {ops : List (TableOp w)}
    (hops : tableMachine.Meets (Asked S) (tableStart w) ops) :
    (∃ st, tableMachine.run (tableStart w) ops = some st) ∧
      tableMachine.Always (Refines S) (tableStart w) ops := by
  have hstart : TableInv S (tableStart w) := ⟨.inl rfl, init_elements, .nil⟩
  constructor
  · generalize tableStart w = st at *
    induction ops generalizing st with
    | nil => exact ⟨st, rfl⟩
    | cons op ops ih =>
      obtain ⟨st', hstep, hinv⟩ := hstart.step hS hw hops.1
      obtain ⟨st'', hrun⟩ := ih st' (hops.2 st' hstep) hinv
      exact ⟨st'', Machine.run_cons_eq_some.2 ⟨st', hstep, hrun⟩⟩
  · refine (Machine.always_of_step (fun s op s' hs hop hstep => ?_) hstart hops).imp
      fun s hs => hs.refines hS hw
    obtain ⟨s'', hs'', hinv⟩ := hs.step hS hw hop
    rw [hstep] at hs''
    exact Option.some.inj hs'' ▸ hinv

end Runs

/-! ### The addresses of a process -/

theorem highestBit_eq {k n : ℕ} (hk : p.getLsbD k = true)
    (habove : ∀ i, k < i → p.getLsbD i = false) (hn : k ≤ n) : highestBit p n = k := by
  induction n with
  | zero => exact (Nat.le_zero.1 hn).symm
  | succ n ih =>
    rw [highestBit]
    rcases Nat.lt_or_eq_of_le hn with hlt | rfl
    · rw [habove (n + 1) hlt, if_neg Bool.false_ne_true]
      exact ih (Nat.le_of_lt_succ hlt)
    · rw [hk, if_pos rfl]

/-- Addresses with the same highest bit. -/
def addresses (w k : ℕ) : Set (BitVec w) := {p | 2 ^ k ≤ p.toNat ∧ p.toNat < 2 ^ (k + 1)}

instance (w k : ℕ) : DecidablePred fun p => p ∈ addresses w k :=
  fun p => inferInstanceAs (Decidable (2 ^ k ≤ p.toNat ∧ p.toNat < 2 ^ (k + 1)))

/-- Such addresses can be told apart from empty and deleted slots. -/
theorem apart_addresses {k : ℕ} (hk : 1 ≤ k) : Apart (addresses w k) := by
  have hbit {p : BitVec w} (hp : p ∈ addresses w k) :
      p.getLsbD k = true ∧ ∀ i, k < i → p.getLsbD i = false := by
    refine ⟨?_, fun i hi => ?_⟩
    · rw [← BitVec.testBit_toNat]
      exact Nat.testBit_of_two_pow_le_and_two_pow_add_one_gt hp.1 hp.2
    · rw [← BitVec.testBit_toNat]
      exact Nat.testBit_lt_two_pow (hp.2.trans_le (Nat.pow_le_pow_right Nat.zero_lt_two hi))
  intro p hp q hq
  have hkw : k < w := by
    by_contra hlt
    have := (hbit hp).1
    rw [BitVec.getLsbD_of_ge p k (Nat.not_lt.1 hlt)] at this
    cases this
  have htop : highestBit q (w - 1) = k :=
    highestBit_eq (hbit hq).1 (hbit hq).2 (by omega)
  have hset : (p &&& ~~~(q &&& ~~~revealedBit q)).getLsbD k = true := by
    have := (hbit hp).1
    simp [revealedBit, htop, this, hkw]
  have hge : 2 ^ k ≤ (p &&& ~~~(q &&& ~~~revealedBit q)).toNat := by
    rw [← BitVec.testBit_toNat] at hset
    exact Nat.ge_two_pow_of_testBit hset
  have hpow := Nat.pow_le_pow_right Nat.zero_lt_two hk
  unfold entryIsValid htableDeleted
  rw [decide_eq_true_eq, BitVec.lt_def, BitVec.ofNat_eq_ofNat, BitVec.toNat_ofNat]
  have hone : 1 < (p &&& ~~~(q &&& ~~~revealedBit q)).toNat :=
    (Nat.lt_of_lt_of_le Nat.one_lt_two hpow).trans_le hge
  exact (Nat.mod_le _ _).trans_lt hone

instance {S : Set (BitVec w)} [DecidablePred fun p => p ∈ S] (s : TableSt w) :
    ∀ op, Decidable (Asked S s op)
  | .add _ rehash _ p => inferInstanceAs (Decidable (p ∈ S ∧ p ∉ s.list ∧
      ∀ a ∈ s.list, hashes s.hash a = hashes rehash a))
  | .del h p => inferInstanceAs (Decidable (p ∈ s.list → s.hash p = h))
  | .cleanup _ => .isTrue trivial
  | .clear => .isTrue trivial

/-- Small addresses. -/
def sampleOps : List (TableOp 8) :=
  [.add true (· >>> 4) 5 0x50, .add true (· >>> 4) 5 0x58, .del 5 0x50]

theorem htable_refines_addresses :
    (∃ st, tableMachine.run (tableStart 8) sampleOps = some st ∧ st.list = [0x58]) ∧
    tableMachine.Always (Refines (addresses 8 6)) (tableStart 8) sampleOps := by
  obtain ⟨⟨st, hrun⟩, halways⟩ :=
    htable_refines (apart_addresses (k := 6) (by decide)) (by decide)
      (show tableMachine.Meets _ (tableStart 8) sampleOps by decide)
  have hlist : (tableMachine.run (tableStart 8) sampleOps).map TableSt.list = some [0x58] := by
    decide
  rw [hrun] at hlist
  exact ⟨⟨st, hrun, Option.some.inj hlist⟩, halways⟩

/-- Two pointers that are not apart: the second is put into a slot that still looks empty. -/
example : ((htableInit : Htable 8).htableAdd true (fun _ => 0) 0 0x30).bind
    (fun r => (r.2.htableAdd true (fun _ => 0) 0 0x10).bind fun r =>
      r.2.htableGet 0 fun p => p = 0x10) = some none := by
  decide

end Ccan

end Ocserv
