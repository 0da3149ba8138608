import Mathlib.Data.List.Find
import Mathlib.Data.List.Perm.Basic

/-!
# Hash tables, as their lookups see them

A table with open addressing (`src/ccan/htable`) is the list of its elements in the order in
which the lookups visit them.  Only the order of elements with the same hash matters: a lookup
visits those with its hash in this order, and its comparison accepts no others.

Where an element is added depends on the slots that are free, and an addition may also double or
rehash the table.  So the order of the elements after an addition is given from outside; it is an
order of the same elements (`add_perm`).

An element is found under the hash it was put under, which `hash` remembers beside the table.  The
elements of a table are `Placed` if this is the hash they have now.
-/

namespace Ocserv

namespace HTable

variable {α : Type*}

section

variable [DecidableEq α]

/-- `htable_add`: the elements are visited in the order `order` from now on. -/
def add (order t : List α) (a : α) : List α := if order.Perm (a :: t) then order else a :: t

/-- `htable_del`. -/
def del (t : List α) (a : α) : List α := t.erase a

variable {order t : List α} {a b : α}

theorem add_perm : (add order t a).Perm (a :: t) := by
  unfold add
  split
  · assumption
  · exact .refl _

theorem mem_add : b ∈ add order t a ↔ b = a ∨ b ∈ t := by
  rw [add_perm.mem_iff, List.mem_cons]

theorem nodup_add (h : a ∉ t) (ht : t.Nodup) : (add order t a).Nodup :=
  add_perm.nodup_iff.2 (List.nodup_cons.2 ⟨h, ht⟩)

end

/-- `htable_get`: the first element the comparison accepts. -/
def get (t : List α) (cmp : α → Bool) : Option α := t.find? cmp

variable {t : List α} {a : α} {cmp : α → Bool}

theorem mem_of_get (h : get t cmp = some a) : a ∈ t ∧ cmp a = true :=
  ⟨List.mem_of_find?_eq_some h, List.find?_some h⟩

theorem get_eq_some : get t cmp = some a ↔ cmp a = true ∧
    ∃ before after, t = before ++ a :: after ∧ ∀ b ∈ before, cmp b = false := by
  simp only [get, List.find?_eq_some_iff_append, Bool.not_eq_true']

theorem get_eq_none : get t cmp = none ↔ ∀ a ∈ t, cmp a = false := by
  simp [get]

/-- `htable_get` with a comparison that changes what its argument points to. -/
def getWith {σ : Type*} (cmp : α → σ → Bool × σ) : List α → σ → Option α × σ
  | [], s => (none, s)
  | a :: t, s =>
    match cmp a s with
    | (true, s) => (some a, s)
    | (false, s) => getWith cmp t s

/-! ### Sweeping -/

/-- A loop over a table that deletes the elements `body` says, in the order `t`: the elements that
are left, and the state. -/
def sweep {σ : Type*} (body : σ → α → σ × Bool) : List α → σ → List α × σ
  | [], s => ([], s)
  | a :: t, s =>
    let ret := body s a
    let rest := sweep body t ret.1
    (if ret.2 then rest.1 else a :: rest.1, rest.2)

theorem sweep_sublist {σ : Type*} (body : σ → α → σ × Bool) (t : List α) (s : σ) :
    (sweep body t s).1.Sublist t := by
  induction t generalizing s with
  | nil => exact .slnil
  | cons a t ih =>
    simp only [sweep]
    split
    · exact (ih _).cons a
    · exact (ih _).cons_cons a

/-- A loop that deletes the elements with a property. -/
theorem sweep_filter (expired : α → Bool) (t : List α) :
    (sweep (fun (_ : Unit) a => ((), expired a)) t ()).1 = t.filter fun a => !expired a := by
  induction t with
  | nil => rfl
  | cons a t ih =>
    simp only [sweep, List.filter_cons]
    rw [ih]
    cases expired a <;> rfl

/-! ### Hashes -/

section Hash

variable [DecidableEq α] {hash rehash : α → ℕ} {h : ℕ} {order moved : List α}

/-- The hashes after an addition: those of `moved` were put again. -/
def addHash (rehash : α → ℕ) (moved : List α) (hash : α → ℕ) (h : ℕ) (a : α) : α → ℕ :=
  fun b => if b = a then h else if b ∈ moved then rehash b else hash b

/-- `htable_del` of an element with a hash. -/
def delHash (hash : α → ℕ) (t : List α) (h : ℕ) (a : α) : List α :=
  if hash a = h then del t a else t

/-- `htable_get` with a hash. -/
def getHash (hash : α → ℕ) (t : List α) (h : ℕ) (cmp : α → Bool) : Option α :=
  get t fun a => decide (hash a = h) && cmp a

/-- What a lookup visits for a hash: the elements put under it, and those of other hashes that the
bits which are kept in the slots do not tell apart (`shares`). -/
def visited (hash : α → ℕ) (t : List α) (shares : α → Bool) (h : ℕ) : List α :=
  t.filter fun a => decide (hash a = h) || shares a

/-- Every element was put under the hash it has. -/
def Placed (rehash hash : α → ℕ) (t : List α) : Prop := ∀ a ∈ t, hash a = rehash a

omit [DecidableEq α] in
/-- A search with the hash that the accepted elements have. -/
theorem Placed.getHash_eq (hp : Placed rehash hash t)
    (hcmp : ∀ a ∈ t, cmp a = true → rehash a = h) : getHash hash t h cmp = get t cmp := by
  refine List.find?_congr fun a ha => ?_
  cases hc : cmp a with
  | false => exact Bool.and_false _
  | true => rw [hp a ha, hcmp a ha hc, decide_eq_true rfl, Bool.true_and]

omit [DecidableEq α] in
/-- What else a lookup visits makes no difference to a comparison that accepts only elements with
the hash. -/
theorem Placed.find?_visited (hp : Placed rehash hash t) (shares : α → Bool)
    (hcmp : ∀ a ∈ t, cmp a = true → rehash a = h) :
    (visited hash t shares h).find? cmp = t.find? cmp := by
  rw [visited, List.find?_filter]
  refine List.find?_congr fun a ha => ?_
  cases hc : cmp a with
  | false => simp
  | true => simp [hp a ha, hcmp a ha hc]

theorem Placed.add (hp : Placed rehash hash t) :
    Placed rehash (addHash rehash moved hash (rehash a) a) (add order t a) := by
  intro b hb
  unfold addHash
  by_cases hba : b = a
  · rw [if_pos hba, hba]
  · rw [if_neg hba]
    split
    · rfl
    · exact hp b ((mem_add.1 hb).resolve_left hba)

theorem delHash_eq (h' : a ∈ t → hash a = h) : delHash hash t h a = del t a := by
  unfold delHash
  by_cases ha : a ∈ t
  · rw [if_pos (h' ha)]
  · rw [del, List.erase_of_not_mem ha, ite_self]

end Hash

end HTable

end Ocserv
