import Mathlib.Algebra.Group.Defs
import Mathlib.Data.List.Infix

/-!
# Deterministic labelled machines

The processes of the server are single-threaded: what one of them does next is a function of its
state and of what it is given (a message, the results of the system calls it makes, the time).
A `Machine` is such a function; the nondeterminism of the environment is in the labels, and
`none` means that the label is not possible in the state.

## Main definitions

* `Machine.run` : perform a list of labels.
* `Machine.Meets C s ls` : every step of the run of `ls` from `s` satisfies the condition `C` on
  the state before the step and the label.
* `Machine.Always P s ls` : `P` holds in every state the run of `ls` from `s` visits.
* `Machine.observed` : the machine with a record of its run.
* `Machine.total` : the sum of what the steps of a run give.

The rule `Machine.always_of_step` is the one every run result uses: a predicate that the steps
meeting `C` preserve holds along every run that meets `C`.
-/

namespace Ocserv

/-- A machine with states `σ` and labels `ι`. -/
structure Machine (σ ι : Type*) where
  /-- `step s i` : the state after performing `i` in `s`, if `i` is possible there. -/
  step : σ → ι → Option σ

namespace Machine

variable {σ ι : Type*} (M : Machine σ ι)

/-- Perform the labels of a list in order. -/
def run : σ → List ι → Option σ
  | s, [] => some s
  | s, i :: is => (M.step s i).bind fun s' => run s' is

/-- Every step of the run satisfies `C`. -/
def Meets (C : σ → ι → Prop) : σ → List ι → Prop
  | _, [] => True
  | s, i :: is => C s i ∧ ∀ s', M.step s i = some s' → Meets C s' is

/-- Every state visited by the run satisfies `P`. -/
def Always (P : σ → Prop) : σ → List ι → Prop
  | s, [] => P s
  | s, i :: is => P s ∧ ∀ s', M.step s i = some s' → Always P s' is

variable {M}

theorem run_cons (s : σ) (i : ι) (is : List ι) :
    M.run s (i :: is) = (M.step s i).bind fun s' => M.run s' is := rfl

theorem run_cons_eq_some {s s' : σ} {i : ι} {is : List ι} :
    M.run s (i :: is) = some s' ↔ ∃ t, M.step s i = some t ∧ M.run t is = some s' := by
  rw [run_cons, Option.bind_eq_some_iff]

theorem run_append_eq_some {s s' : σ} {is js : List ι} :
    M.run s (is ++ js) = some s' ↔ ∃ t, M.run s is = some t ∧ M.run t js = some s' := by
  induction is generalizing s with
  | nil => exact ⟨fun h => ⟨s, rfl, h⟩, fun ⟨t, ht, h⟩ => Option.some.inj ht ▸ h⟩
  | cons i is ih =>
    rw [List.cons_append, run_cons_eq_some]
    constructor
    · rintro ⟨t, ht, h⟩
      obtain ⟨u, hu, h⟩ := ih.1 h
      exact ⟨u, run_cons_eq_some.2 ⟨t, ht, hu⟩, h⟩
    · rintro ⟨u, hu, h⟩
      obtain ⟨t, ht, hu⟩ := run_cons_eq_some.1 hu
      exact ⟨t, ht, ih.2 ⟨u, hu, h⟩⟩

theorem Meets.left_of_append {C : σ → ι → Prop} {s : σ} {is js : List ι}
    (h : M.Meets C s (is ++ js)) : M.Meets C s is := by
  induction is generalizing s with
  | nil => trivial
  | cons i is ih => exact ⟨h.1, fun t ht => ih (h.2 t ht)⟩

/-- The steps after a part of a run meet the condition in the states there. -/
theorem Meets.right_of_append {C : σ → ι → Prop} {s t : σ} {is js : List ι}
    (h : M.Meets C s (is ++ js)) (hr : M.run s is = some t) : M.Meets C t js := by
  induction is generalizing s with
  | nil =>
    cases hr
    exact h
  | cons i is ih =>
    obtain ⟨s', hs', hr⟩ := run_cons_eq_some.1 hr
    exact ih (h.2 s' hs') hr

theorem Meets.append {C : σ → ι → Prop} {s : σ} {is js : List ι} (his : M.Meets C s is)
    (hjs : ∀ t, M.run s is = some t → M.Meets C t js) : M.Meets C s (is ++ js) := by
  induction is generalizing s with
  | nil => exact hjs s rfl
  | cons i is ih =>
    refine ⟨his.1, fun t ht => ih (his.2 t ht) fun u hu => ?_⟩
    exact hjs u (run_cons_eq_some.2 ⟨t, ht, hu⟩)

/-! ### Invariants along a run -/

theorem Always.head {P : σ → Prop} {s : σ} {is : List ι} (h : M.Always P s is) : P s := by
  cases is with
  | nil => exact h
  | cons i is => exact h.1

theorem Always.last {P : σ → Prop} {s s' : σ} {is : List ι} (h : M.Always P s is)
    (hr : M.run s is = some s') : P s' := by
  induction is generalizing s with
  | nil => cases hr; exact h
  | cons i is ih =>
    obtain ⟨t, ht, hr⟩ := run_cons_eq_some.1 hr
    exact ih (h.2 t ht) hr

theorem Always.imp {P Q : σ → Prop} (hPQ : ∀ s, P s → Q s) {s : σ} {is : List ι}
    (h : M.Always P s is) : M.Always Q s is := by
  induction is generalizing s with
  | nil => exact hPQ s h
  | cons i is ih => exact ⟨hPQ s h.1, fun t ht => ih (h.2 t ht)⟩

theorem Meets.imp {C D : σ → ι → Prop} (hCD : ∀ s i, C s i → D s i) {s : σ} {is : List ι}
    (h : M.Meets C s is) : M.Meets D s is := by
  induction is generalizing s with
  | nil => trivial
  | cons i is ih => exact ⟨hCD s i h.1, fun t ht => ih (h.2 t ht)⟩

/-- **The run rule.**  A predicate that every step meeting `C` preserves holds in every state of
a run whose steps meet `C`. -/
theorem always_of_step {C : σ → ι → Prop} {P : σ → Prop}
    (hstep : ∀ s i s', P s → C s i → M.step s i = some s' → P s') {s : σ} {is : List ι}
    (h₀ : P s) (hC : M.Meets C s is) : M.Always P s is := by
  induction is generalizing s with
  | nil => exact h₀
  | cons i is ih => exact ⟨h₀, fun t ht => ih (hstep s i t h₀ hC.1 ht) (hC.2 t ht)⟩

/-- **The exact run rule.**  If steps that meet `C` keep an invariant and a step that does not
meets a state without `P`, then `P` holds along exactly the runs that meet `C`. -/
theorem always_iff_meets {C : σ → ι → Prop} {P I : σ → Prop} (hI : ∀ s, I s → P s)
    (hkeep : ∀ s i s', I s → C s i → M.step s i = some s' → I s')
    (hbreak : ∀ s i, I s → ¬ C s i → ∃ s', M.step s i = some s' ∧ ¬ P s') {s : σ} {is : List ι}
    (h₀ : I s) : M.Always P s is ↔ M.Meets C s is := by
  constructor
  · intro h
    induction is generalizing s with
    | nil => trivial
    | cons i is ih =>
      by_cases hC : C s i
      · exact ⟨hC, fun t ht => ih (hkeep s i t h₀ hC ht) (h.2 t ht)⟩
      · obtain ⟨t, ht, hP⟩ := hbreak s i h₀ hC
        exact absurd (h.2 t ht).head hP
  · intro h
    exact (always_of_step (fun s i s' hs hC ht => hkeep s i s' hs hC ht) h₀ h).imp hI

/-- Two conditions that are the same where an invariant holds, which the steps that meet them
keep. -/
theorem meets_congr {C D : σ → ι → Prop} (I : σ → Prop) (hCD : ∀ s i, I s → (C s i ↔ D s i))
    (hkeep : ∀ s i s', I s → D s i → M.step s i = some s' → I s') {s : σ} {is : List ι}
    (h₀ : I s) : M.Meets C s is ↔ M.Meets D s is := by
  induction is generalizing s with
  | nil => exact Iff.rfl
  | cons i is ih =>
    rw [Meets, Meets, hCD s i h₀]
    exact and_congr_right fun hD => forall₂_congr fun t ht => ih (hkeep s i t h₀ hD ht)

theorem meets_true (s : σ) (is : List ι) : M.Meets (fun _ _ => True) s is := by
  induction is generalizing s with
  | nil => trivial
  | cons i is ih => exact ⟨trivial, fun t _ => ih t⟩

/-- What holds of a step because of an invariant holds of every step of the run. -/
theorem Always.meets {P : σ → Prop} {Q : σ → ι → Prop} (hPQ : ∀ s i, P s → Q s i) {s : σ}
    {is : List ι} (h : M.Always P s is) : M.Meets Q s is := by
  induction is generalizing s with
  | nil => trivial
  | cons i is ih => exact ⟨hPQ s i h.1, fun t ht => ih (h.2 t ht)⟩

theorem Meets.and {C D : σ → ι → Prop} {s : σ} {is : List ι} (hC : M.Meets C s is)
    (hD : M.Meets D s is) : M.Meets (fun s i => C s i ∧ D s i) s is := by
  induction is generalizing s with
  | nil => trivial
  | cons i is ih => exact ⟨⟨hC.1, hD.1⟩, fun t ht => ih (hC.2 t ht) (hD.2 t ht)⟩

/-! ### Observing a run -/

section Observed

variable {γ : Type*}

/-- The machine on labels that say more than it reads. -/
def relabel {κ : Type*} (M : Machine σ ι) (f : κ → ι) : Machine σ κ where
  step s k := M.step s (f k)

/-- The machine together with a record of what it did.  No step depends on the record. -/
def observed (M : Machine σ ι) (record : γ → σ → ι → σ → γ) : Machine (σ × γ) ι where
  step s i := (M.step s.1 i).map fun t => (t, record s.2 s.1 i t)

variable {record : γ → σ → ι → σ → γ}

theorem step_observed {s t : σ × γ} {i : ι} (h : (M.observed record).step s i = some t) :
    M.step s.1 i = some t.1 ∧ t.2 = record s.2 s.1 i t.1 := by
  obtain ⟨u, hu, rfl⟩ := Option.map_eq_some_iff.1 h
  exact ⟨hu, rfl⟩

/-- Observing a run does not change it. -/
theorem run_observed (s : σ) (g : γ) (is : List ι) :
    ((M.observed record).run (s, g) is).map Prod.fst = M.run s is := by
  induction is generalizing s g with
  | nil => rfl
  | cons i is ih =>
    rw [run_cons, run_cons]
    cases hs : M.step s i with
    | none => simp [observed, hs]
    | some t =>
      have hstep : (M.observed record).step (s, g) i = some (t, record g s i t) := by
        simp [observed, hs]
      rw [hstep]
      exact ih t _

end Observed

/-! ### Sums over a run -/

section Total

variable {α : Type*} [AddMonoid α]

/-- The sum of what the steps of a run give. -/
def total (M : Machine σ ι) (f : σ → ι → α) : σ → List ι → α
  | _, [] => 0
  | s, i :: is => f s i + (M.step s i).elim 0 fun t => M.total f t is

/-- **The rule of sums.**  A predicate on what was given before, which every step meeting `C` keeps
when it adds what it gives, holds at the end of a run whose steps meet `C`. -/
theorem total_of_step {C : σ → ι → Prop} {f : σ → ι → α} {P : α → σ → Prop}
    (hstep : ∀ n s i s', P n s → C s i → M.step s i = some s' → P (n + f s i) s') {n : α}
    {s s' : σ} {is : List ι} (h₀ : P n s) (hC : M.Meets C s is) (hr : M.run s is = some s') :
    P (n + M.total f s is) s' := by
  induction is generalizing s n with
  | nil =>
    cases hr
    rwa [total, add_zero]
  | cons i is ih =>
    obtain ⟨t, ht, hr⟩ := run_cons_eq_some.1 hr
    rw [total, ht, Option.elim_some, ← add_assoc]
    exact ih (hstep n s i t h₀ hC.1 ht) (hC.2 t ht) hr

end Total

/-- Whether a run meets a condition can be evaluated. -/
instance Meets.decidable (C : σ → ι → Prop) [∀ s i, Decidable (C s i)] :
    ∀ s is, Decidable (M.Meets C s is)
  | _, [] => .isTrue trivial
  | s, i :: is =>
    match h : M.step s i with
    | none => decidable_of_iff (C s i) (by simp [Meets, h])
    | some t =>
      have := Meets.decidable C t is
      decidable_of_iff (C s i ∧ M.Meets C t is) (by simp [Meets, h])

end Machine

end Ocserv
