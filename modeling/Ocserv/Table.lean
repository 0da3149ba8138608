import Mathlib.Data.List.Nodup
import Mathlib.Data.List.Perm.Basic

/-!
# Tables with keys

A collection of records that are identified by a key, as the list of its records: `update` writes
a record in place of the one with its key, `others` is the rest of the table.  Structures of a
program that are linked through pointers are such a table, the key being the identity of the
structure.
-/

namespace Ocserv

namespace Table

variable {α κ β : Type*} [DecidableEq κ] (key : α → κ)

/-- Write `a` in place of the record with its key. -/
def update (t : List α) (a : α) : List α := t.map fun x => if key x = key a then a else x

/-- The record with a key. -/
def find? (t : List α) (k : κ) : Option α := t.find? fun x => key x = k

/-- The records with another key. -/
def others (t : List α) (k : κ) : List α := t.filter fun x => key x ≠ k

variable {key} {t : List α} {a x y : α} {k : κ}

theorem mem_others : x ∈ others key t k ↔ x ∈ t ∧ key x ≠ k := by
  simp [others]

theorem mem_of_find? (h : find? key t k = some a) : a ∈ t ∧ key a = k :=
  ⟨List.mem_of_find?_eq_some h, by simpa using List.find?_some h⟩

theorem mem_update (h : x ∈ update key t a) : x = a ∨ x ∈ t ∧ key x ≠ key a := by
  obtain ⟨y, hy, rfl⟩ := List.mem_map.1 h
  by_cases hk : key y = key a
  · rw [if_pos hk]
    exact .inl rfl
  · rw [if_neg hk]
    exact .inr ⟨hy, hk⟩

theorem mem_update_of_ne (hx : x ∈ t) (h : key x ≠ key a) : x ∈ update key t a :=
  List.mem_map.2 ⟨x, hx, if_neg h⟩

theorem mem_update_self (hx : x ∈ t) (h : key x = key a) : a ∈ update key t a :=
  List.mem_map.2 ⟨x, hx, if_pos h⟩

/-- A field that the new record shares with the one it replaces is the same all over the table. -/
theorem map_update (f : α → β) (hf : ∀ x ∈ t, key x = key a → f a = f x) :
    (update key t a).map f = t.map f := by
  rw [update, List.map_map]
  refine List.map_congr_left ?_
  intro x hx
  by_cases hk : key x = key a
  · simp [hk, hf x hx hk]
  · simp [hk]

theorem keys_update : (update key t a).map key = t.map key :=
  map_update key fun _ _ h => h.symm

omit [DecidableEq κ] in
/-- The record with a key is unique. -/
theorem eq_of_key_eq (ht : (t.map key).Nodup) (hx : x ∈ t) (hy : y ∈ t) (h : key x = key y) :
    x = y :=
  List.inj_on_of_nodup_map ht hx hy h

theorem find?_eq_some (ht : (t.map key).Nodup) (ha : a ∈ t) : find? key t (key a) = some a := by
  cases h : find? key t (key a) with
  | none =>
    have := List.find?_eq_none.1 h a ha
    simp at this
  | some x =>
    obtain ⟨hx, hk⟩ := mem_of_find? h
    rw [eq_of_key_eq ht hx ha hk]

/-- The table is the record with a key and the others. -/
theorem perm_cons_others (ht : (t.map key).Nodup) (ha : a ∈ t) :
    t.Perm (a :: others key t (key a)) := by
  have hsplit := (List.filter_append_perm (fun x => decide (key x = key a)) t).symm
  have hself : t.filter (fun x => decide (key x = key a)) = [a] := by
    induction t with
    | nil => cases ha
    | cons x t ih =>
      obtain ⟨hx, ht⟩ := List.nodup_cons.1 ht
      rcases List.mem_cons.1 ha with rfl | ha
      · rw [List.filter_cons_of_pos (by simp)]
        refine congrArg _ (List.filter_eq_nil_iff.2 fun y hy => ?_)
        simp only [decide_eq_true_eq]
        exact fun h => hx (List.mem_map.2 ⟨y, hy, h⟩)
      · rw [List.filter_cons_of_neg ?_]
        · exact ih ht ha (List.filter_append_perm _ t).symm
        · simp only [decide_eq_true_eq]
          exact fun h => hx (List.mem_map.2 ⟨a, ha, h.symm⟩)
  rw [hself] at hsplit
  simpa [others] using hsplit

theorem others_update : others key (update key t a) (key a) = others key t (key a) := by
  induction t with
  | nil => rfl
  | cons x t ih =>
    by_cases hk : key x = key a
    · simpa [others, update, hk] using ih
    · simpa [others, update, hk] using ih

theorem others_update_of_ne (h : key a ≠ k) :
    others key (update key t a) k = update key (others key t k) a := by
  induction t with
  | nil => rfl
  | cons x t ih =>
    by_cases hk : key x = key a
    · simpa [others, update, hk, h] using ih
    · by_cases hx : key x = k
      · simpa [others, update, hk, hx, h.symm] using ih
      · simpa [others, update, hk, hx] using ih

/-- Writing a record leaves the others in place. -/
theorem update_perm (ht : (t.map key).Nodup) (h : key a ∈ t.map key) :
    (update key t a).Perm (a :: others key t (key a)) := by
  obtain ⟨x, hx, hk⟩ := List.mem_map.1 h
  have := perm_cons_others (t := update key t a) (by rwa [keys_update]) (mem_update_self hx hk)
  rwa [others_update] at this

/-- Taking records out by their keys and writing one commute. -/
theorem filter_update (p : κ → Bool) (t : List α) (a : α) :
    (update key t a).filter (fun x => p (key x)) = update key (t.filter fun x => p (key x)) a := by
  induction t with
  | nil => rfl
  | cons x t ih =>
    have hkey : key (if key x = key a then a else x) = key x := by
      split
      · exact Eq.symm ‹_›
      · rfl
    simp only [update] at ih ⊢
    rw [List.map_cons, List.filter_cons, List.filter_cons, hkey, ih]
    split <;> rfl

/-- Nothing is written if there is no record with the key. -/
theorem update_of_not_mem (h : ∀ x ∈ t, key x ≠ key a) : update key t a = t :=
  (List.map_congr_left fun x hx => if_neg (h x hx)).trans (List.map_id t)

/-- Writing the record that is there changes nothing. -/
theorem update_self (ht : (t.map key).Nodup) (ha : a ∈ t) : update key t a = t := by
  refine (List.map_congr_left fun x hx => ?_).trans (List.map_id t)
  split
  · rename_i hk
    exact (eq_of_key_eq ht hx ha hk).symm
  · rfl

theorem find?_update_self (ha : key a ∈ t.map key) :
    find? key (update key t a) (key a) = some a := by
  induction t with
  | nil => cases ha
  | cons x t ih =>
    by_cases hk : key x = key a
    · simp [find?, update, hk]
    · simpa [find?, update, hk] using ih ((List.mem_cons.1 ha).resolve_left (Ne.symm hk))

/-- A record is written at its key only. -/
theorem find?_update_of_ne (h : k ≠ key a) : find? key (update key t a) k = find? key t k := by
  induction t with
  | nil => rfl
  | cons x t ih =>
    simp only [find?, update, List.map_cons, List.find?_cons] at ih ⊢
    rw [ih]
    by_cases hk : key x = key a
    · rw [if_pos hk, hk, decide_eq_false h.symm]
    · rw [if_neg hk]

/-! ### A table as a finite map -/

omit [DecidableEq κ] in
theorem nodup_keys_of_perm {u : List α} (h : t.Perm u) (ht : (t.map key).Nodup) :
    (u.map key).Nodup :=
  (h.map key).nodup_iff.1 ht

theorem find?_eq_none : find? key t k = none ↔ ∀ x ∈ t, key x ≠ k := by
  simp [find?]

/-- The order of the records does not matter. -/
theorem find?_of_perm {u : List α} (ht : (t.map key).Nodup) (h : t.Perm u) (k : κ) :
    find? key u k = find? key t k := by
  cases hf : find? key t k with
  | none => exact find?_eq_none.2 fun x hx => find?_eq_none.1 hf x (h.mem_iff.2 hx)
  | some a =>
    obtain ⟨ha, rfl⟩ := mem_of_find? hf
    exact find?_eq_some (nodup_keys_of_perm h ht) (h.mem_iff.1 ha)

theorem find?_cons (a : α) (t : List α) (k : κ) :
    find? key (a :: t) k = if k = key a then some a else find? key t k := by
  rw [find?, List.find?_cons]
  by_cases hk : k = key a
  · rw [if_pos hk, decide_eq_true hk.symm]
  · rw [if_neg hk, decide_eq_false fun h => hk h.symm]
    rfl

/-- A search for a record with a key and more. -/
theorem find?_and (ht : (t.map key).Nodup) (k : κ) (q : α → Bool) :
    (t.find? fun x => decide (key x = k) && q x) = (find? key t k).filter q := by
  cases hf : find? key t k with
  | none =>
    refine List.find?_eq_none.2 fun x hx => ?_
    rw [decide_eq_false (find?_eq_none.1 hf x hx)]
    exact Bool.false_ne_true
  | some a =>
    obtain ⟨ha, rfl⟩ := mem_of_find? hf
    cases hq : q a with
    | true =>
      rw [Option.filter_some, if_pos hq]
      cases hx : t.find? fun x => decide (key x = key a) && q x with
      | none =>
        have := List.find?_eq_none.1 hx a ha
        rw [decide_eq_true rfl, hq] at this
        exact absurd rfl this
      | some x =>
        have hand := List.find?_some hx
        rw [Bool.and_eq_true, decide_eq_true_eq] at hand
        rw [eq_of_key_eq ht (List.mem_of_find?_eq_some hx) ha hand.1]
    | false =>
      rw [Option.filter_some, if_neg (by rw [hq]; exact Bool.false_ne_true)]
      refine List.find?_eq_none.2 fun x hx hand => ?_
      rw [Bool.and_eq_true, decide_eq_true_eq] at hand
      rw [eq_of_key_eq ht hx ha hand.1, hq] at hand
      exact Bool.false_ne_true hand.2

/-- Records are taken out of the map with their keys. -/
theorem find?_filter (ht : (t.map key).Nodup) (q : α → Bool) (k : κ) :
    find? key (t.filter q) k = (find? key t k).filter q := by
  rw [← find?_and ht, find?, List.find?_filter]
  congr 1
  funext x
  simp [Bool.and_comm]

/-- Taking out the first record with a key takes out the key. -/
theorem eraseP_eq_others (ht : (t.map key).Nodup) (k : κ) :
    t.eraseP (fun x => decide (key x = k)) = others key t k := by
  induction t with
  | nil => rfl
  | cons x t ih =>
    obtain ⟨hx, ht⟩ := List.nodup_cons.1 ht
    by_cases hk : key x = k
    · rw [List.eraseP_cons_of_pos (by simpa using hk), others, List.filter_cons_of_neg (by simpa)]
      refine (List.filter_eq_self.2 fun y hy => ?_).symm
      rw [decide_eq_true_eq]
      exact fun h => hx (List.mem_map.2 ⟨y, hy, h.trans hk.symm⟩)
    · rw [List.eraseP_cons_of_neg (by simpa using hk), ih ht, others, others,
        List.filter_cons_of_pos (by simpa using hk)]

theorem find?_others (ht : (t.map key).Nodup) (k k' : κ) :
    find? key (others key t k) k' = if k' = k then none else find? key t k' := by
  rw [others, find?_filter ht]
  cases hf : find? key t k' with
  | none => rw [Option.filter_none, ite_self]
  | some a =>
    obtain ⟨-, rfl⟩ := mem_of_find? hf
    rw [Option.filter_some]
    by_cases hk : key a = k
    · rw [if_pos hk, if_neg (by simpa using hk)]
    · rw [if_neg hk, if_pos (by simpa using hk)]

end Table

end Ocserv
