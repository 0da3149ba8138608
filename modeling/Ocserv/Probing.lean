import Mathlib.Data.List.Nodup
import Mathlib.Data.List.Perm.Basic
import Mathlib.Data.Nat.Find
import Mathlib.Data.Nat.ModEq

/-!
# Linear probing

A ring of `n` slots, some of which are `busy`.  A search starts at a slot and goes on to the next
one while the slots are busy.

* `Reaches n busy b i` : a search from `b` comes to `i`;
* `Stops n busy b m` : a search from `b` passes `m` slots and stops at the next one;
* `ring n s` : the slots in the order of the ring, from `s`.

If there is a slot that is not busy, every search stops (`exists_stops`).  From such a slot on, the
ring is a line: no search wraps around it (`Reaches.offset`), and every search passes its slots in
the order of that line (`passed_sublist`).
-/

namespace Ocserv

namespace Probing

variable {n : ℕ} {busy busy' : ℕ → Prop} {s b i m : ℕ}

/-- A search from `b` comes to the slot `i`. -/
def Reaches (n : ℕ) (busy : ℕ → Prop) (b i : ℕ) : Prop :=
  ∃ d < n, (b + d) % n = i ∧ ∀ e < d, busy ((b + e) % n)

/-- A search from `b` passes `m` slots. -/
structure Stops (n : ℕ) (busy : ℕ → Prop) (b m : ℕ) : Prop where
  lt : m < n
  passes : ∀ d < m, busy ((b + d) % n)
  free : ¬ busy ((b + m) % n)

/-- The slots in the order of the ring, from `s`. -/
def ring (n s : ℕ) : List ℕ := (List.range n).map fun o => (s + o) % n

/-- The slots a search from `b` passes. -/
def passed (n b m : ℕ) : List ℕ := (List.range m).map fun d => (b + d) % n

/-! ### The ring -/

/-- Every slot is at an offset from every other. -/
theorem exists_offset (s : ℕ) (hi : i < n) : ∃ o < n, (s + o) % n = i := by
  have hn : 0 < n := Nat.zero_lt_of_lt hi
  refine ⟨(i + (n - s % n)) % n, Nat.mod_lt _ hn, ?_⟩
  have hs := Nat.mod_lt s hn
  calc (s + (i + (n - s % n)) % n) % n
      = (s % n + (i + (n - s % n))) % n := by rw [Nat.add_mod_mod, Nat.mod_add_mod]
    _ = (i + n) % n := by congr 1; omega
    _ = i := by rw [Nat.add_mod_right, Nat.mod_eq_of_lt hi]

/-- The offset of a slot is unique. -/
theorem offset_inj {o o' : ℕ} (ho : o < n) (ho' : o' < n) (h : (s + o) % n = (s + o') % n) :
    o = o' := by
  have h : o ≡ o' [MOD n] := Nat.ModEq.add_left_cancel' s h
  rwa [Nat.ModEq, Nat.mod_eq_of_lt ho, Nat.mod_eq_of_lt ho'] at h

theorem nodup_ring : (ring n s).Nodup :=
  (List.nodup_map_iff_inj_on List.nodup_range).2 fun _ ho _ ho' h =>
    offset_inj (List.mem_range.1 ho) (List.mem_range.1 ho') h

theorem mem_ring : i ∈ ring n s ↔ i < n := by
  simp only [ring, List.mem_map, List.mem_range]
  constructor
  · rintro ⟨o, ho, rfl⟩
    exact Nat.mod_lt _ (Nat.zero_lt_of_lt ho)
  · exact exists_offset s

theorem ring_perm (n s : ℕ) : (ring n s).Perm (List.range n) :=
  (List.perm_ext_iff_of_nodup nodup_ring List.nodup_range).2 fun i => by
    rw [mem_ring, List.mem_range]

/-! ### Searches -/

theorem Reaches.mono (h : Reaches n busy b i) (hb : ∀ j, busy j → busy' j) :
    Reaches n busy' b i := by
  obtain ⟨d, hd, hi, hbusy⟩ := h
  exact ⟨d, hd, hi, fun e he => hb _ (hbusy e he)⟩

/-- A search stops if there is a slot that is not busy. -/
theorem exists_stops (hs : s < n) (hfree : ¬ busy s) (b : ℕ) : ∃ m, Stops n busy b m := by
  classical
  have hex : ∃ d, ¬ busy ((b + d) % n) := by
    obtain ⟨d, -, hd⟩ := exists_offset b hs
    exact ⟨d, hd.symm ▸ hfree⟩
  refine ⟨Nat.find hex, ?_, fun d hd => not_not.1 (Nat.find_min hex hd), Nat.find_spec hex⟩
  obtain ⟨d, hdn, hd⟩ := exists_offset b hs
  exact (Nat.find_min' hex (hd.symm ▸ hfree)).trans_lt hdn

/-- The slots a search passes are the busy ones it comes to. -/
theorem mem_passed (h : Stops n busy b m) : i ∈ passed n b m ↔ Reaches n busy b i ∧ busy i := by
  simp only [passed, List.mem_map, List.mem_range]
  constructor
  · rintro ⟨d, hd, rfl⟩
    exact ⟨⟨d, hd.trans h.lt, rfl, fun e he => h.passes e (he.trans hd)⟩, h.passes d hd⟩
  · rintro ⟨⟨d, -, rfl, hbusy⟩, hi⟩
    rcases Nat.lt_trichotomy d m with hlt | rfl | hgt
    · exact ⟨d, hlt, rfl⟩
    · exact absurd hi h.free
    · exact absurd (hbusy m hgt) h.free

/-- From a slot that is not busy, no search wraps around. -/
theorem Stops.offset_add_le {o : ℕ} (h : Stops n busy ((s + o) % n) m) (ho : o < n)
    (hs : s < n) (hfree : ¬ busy s) : o + m ≤ n := by
  by_contra hlt
  have hm := h.lt
  have hbusy := h.passes (n - o) (by omega)
  rw [Nat.mod_add_mod, Nat.add_assoc, Nat.add_sub_cancel' ho.le, Nat.add_mod_right,
    Nat.mod_eq_of_lt hs] at hbusy
  exact hfree hbusy

/-- **The order of the slots.**  Every search passes its slots in the order of the ring from a slot
that is not busy. -/
theorem passed_sublist (hs : s < n) (hfree : ¬ busy s) (hb : b < n) (h : Stops n busy b m) :
    (passed n b m).Sublist (ring n s) := by
  obtain ⟨o, ho, rfl⟩ := exists_offset s hb
  have hle := h.offset_add_le ho hs hfree
  have hpassed : passed n ((s + o) % n) m = (List.range' o m).map fun o => (s + o) % n := by
    rw [passed, List.range'_eq_map_range, List.map_map]
    refine List.map_congr_left fun d _ => ?_
    rw [Function.comp, Nat.mod_add_mod, Nat.add_assoc]
  rw [hpassed, ring]
  refine List.Sublist.map _ ?_
  have hsplit : List.range n =
      List.range' 0 o ++ (List.range' o m ++ List.range' (o + m) (n - (o + m))) := by
    have happend : List.range' 0 o ++ List.range' o (n - o) = List.range' 0 n := by
      simpa [Nat.add_sub_cancel' ho.le] using List.range'_append_1 (s := 0) (m := o) (n := n - o)
    rw [List.range'_append_1, List.range_eq_range', show m + (n - (o + m)) = n - o by omega,
      happend]
  rw [hsplit]
  exact (List.sublist_append_left _ _).trans (List.sublist_append_right _ _)

/-- A search comes to a busy slot without wrapping around a slot that is not busy. -/
theorem Reaches.offset {o o' : ℕ} (h : Reaches n busy ((s + o) % n) ((s + o') % n)) (ho : o < n)
    (ho' : o' < n) (hs : s < n) (hfree : ¬ busy s) (hi : busy ((s + o') % n)) :
    o ≤ o' ∧ ∀ e, o ≤ e → e < o' → busy ((s + e) % n) := by
  obtain ⟨m, hm⟩ := exists_stops hs hfree ((s + o) % n)
  have hle := hm.offset_add_le ho hs hfree
  obtain ⟨d, hd, heq⟩ := List.mem_map.1 ((mem_passed hm).2 ⟨h, hi⟩)
  have hd := List.mem_range.1 hd
  rw [Nat.mod_add_mod, Nat.add_assoc] at heq
  obtain rfl := offset_inj (by omega) ho' heq
  refine ⟨Nat.le_add_right o d, fun e he he' => ?_⟩
  have hbusy := hm.passes (e - o) (by omega)
  rwa [Nat.mod_add_mod, Nat.add_assoc, Nat.add_sub_cancel' he] at hbusy

/-- On the line from `s`, a search comes to what is behind busy slots. -/
theorem reaches_offset {o o' : ℕ} (ho : o ≤ o') (ho' : o' < n)
    (h : ∀ e, o ≤ e → e < o' → busy ((s + e) % n)) :
    Reaches n busy ((s + o) % n) ((s + o') % n) := by
  refine ⟨o' - o, by omega, ?_, fun e he => ?_⟩
  · rw [Nat.mod_add_mod, Nat.add_assoc, Nat.add_sub_cancel' ho]
  · rw [Nat.mod_add_mod, Nat.add_assoc]
    exact h _ (by omega) (by omega)

/-! ### One slot is written -/

section Write

variable {α β : Type*} {l : List α} {a : α} {f f' : α → Option β}

/-- What a list of slots holds, before and after one of them is written. -/
theorem exists_filterMap_split (hl : l.Nodup) (ha : a ∈ l) (hf : ∀ b ≠ a, f' b = f b) :
    ∃ x y, l.filterMap f = x ++ (f a).toList ++ y ∧ l.filterMap f' = x ++ (f' a).toList ++ y := by
  obtain ⟨x, y, rfl⟩ := List.append_of_mem ha
  obtain ⟨hx, -, hdis⟩ := List.nodup_append.1 hl
  have hy : a ∉ y := (List.nodup_cons.1 (List.nodup_append.1 hl).2.1).1
  have hsame {z : List α} (hz : a ∉ z) : z.filterMap f' = z.filterMap f :=
    List.filterMap_congr fun b hb => hf b fun h => hz (h ▸ hb)
  have hax : a ∉ x := fun h => hdis a h a List.mem_cons_self rfl
  have hcons (g : α → Option β) (z : List α) :
      (a :: z).filterMap g = (g a).toList ++ z.filterMap g := by
    cases h : g a <;> simp [h]
  refine ⟨x.filterMap f, y.filterMap f, ?_, ?_⟩
  · rw [List.filterMap_append, hcons, List.append_assoc]
  · rw [List.filterMap_append, hcons, hsame hax, hsame hy, List.append_assoc]

end Write

end Probing

end Ocserv
