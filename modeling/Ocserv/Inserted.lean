import Ocserv.Machine
import Mathlib.Order.Defs.PartialOrder

/-!
# Steps that nobody notices

A process cleans up now and then.  Whether it does is invisible if the run with the cleanups
simulates the run without: a relation between the states of the two runs that a step taken by
both keeps, and that a step only one of them takes keeps too.  The relation may speak of the time,
which goes on between the steps: a label starts at `now` and is over at `done`.

## Main definitions

* `Inserted p is js` : `js` is `is` with labels that satisfy `p` inserted.
* `Machine.Invisible` : the relation is kept by common steps and by inserted ones.

The rules are `Machine.Invisible.run` and, for two runs from one state,
`Machine.Invisible.run_self`.
-/

namespace Ocserv

variable {σ ι τ : Type*}

/-- `js` is `is` with labels that satisfy `p` inserted anywhere. -/
inductive Inserted (p : ι → Prop) : List ι → List ι → Prop where
  | nil : Inserted p [] []
  | keep {i : ι} {is js : List ι} : Inserted p is js → Inserted p (i :: is) (i :: js)
  | insert {i : ι} {is js : List ι} : p i → Inserted p is js → Inserted p is (i :: js)

theorem Inserted.refl {p : ι → Prop} : ∀ is : List ι, Inserted p is is
  | [] => .nil
  | _ :: is => (Inserted.refl is).keep

namespace Machine

variable [Preorder τ]

/-- The relation `R` between the states of a run and of one with labels that satisfy `p` inserted
is kept, where the steps of the first run meet `C` and so start from states that satisfy `A`. -/
structure Invisible (M : Machine σ ι) (now done : ι → τ) (p : ι → Prop) (C : σ → ι → Prop)
    (A : σ → Prop) (R : τ → σ → σ → Prop) : Prop where
  alive : ∀ {i s s'}, C s i → M.step s i = some s' → A s
  /-- Time passes. -/
  mono : ∀ {c c' s t}, R c s t → c ≤ c' → R c' s t
  /-- A step of both runs. -/
  keep : ∀ {i s t s'}, R (now i) s t → now i ≤ done i → C s i → M.step s i = some s' →
    ∃ t', M.step t i = some t' ∧ R (done i) s' t'
  /-- An inserted step. -/
  insert : ∀ {i s t}, p i → A s → R (now i) s t → now i ≤ done i →
    ∃ t', M.step t i = some t' ∧ R (done i) s t'

/-- The clock does not go back along the labels. -/
structure Clocked (now done : ι → τ) (is : List ι) : Prop where
  pairwise : is.Pairwise fun i j => done i ≤ now j
  le_done : ∀ i ∈ is, now i ≤ done i

variable {M : Machine σ ι} {now done : ι → τ} {p : ι → Prop} {C : σ → ι → Prop}
  {A : σ → Prop} {R : τ → σ → σ → Prop} {is js : List ι} {i : ι} {s s' t : σ} {c : τ}

theorem Clocked.tail (h : Clocked now done (i :: is)) : Clocked now done is :=
  ⟨(List.pairwise_cons.1 h.pairwise).2, fun j hj => h.le_done j (List.mem_cons_of_mem _ hj)⟩

theorem Clocked.head_le (h : Clocked now done (i :: is)) : ∀ j ∈ is, done i ≤ now j :=
  (List.pairwise_cons.1 h.pairwise).1

theorem Clocked.of_append (h : Clocked now done (is ++ js)) : Clocked now done is :=
  ⟨(List.pairwise_append.1 h.pairwise).1, fun j hj => h.le_done j (List.mem_append_left _ hj)⟩

/-- A run that has come to a state that satisfies `A` started at one. -/
theorem Invisible.alive_of_run (h : M.Invisible now done p C A R) (hC : M.Meets C s is)
    (hrun : M.run s is = some s') (hA : A s') : A s := by
  cases is with
  | nil =>
    cases hrun
    exact hA
  | cons i is =>
    obtain ⟨_, hs, -⟩ := run_cons_eq_some.1 hrun
    exact h.alive hC.1 hs

/-- **The run with the inserted steps simulates the run without them.** -/
theorem Invisible.run (h : M.Invisible now done p C A R) (hins : Inserted p is js)
    (hclock : Clocked now done js) (hR : R c s t) (hc : ∀ j ∈ js, c ≤ now j)
    (hC : M.Meets C s is) (hrun : M.run s is = some s') (hA : A s') :
    ∃ t', M.run t js = some t' ∧
      ∀ c', c ≤ c' → (∀ j ∈ js, done j ≤ c') → R c' s' t' := by
  induction hins generalizing s t c with
  | nil =>
    cases hrun
    exact ⟨t, rfl, fun c' hle _ => h.mono hR hle⟩
  | @keep i is js _ ih =>
    have hle : now i ≤ done i := hclock.le_done i List.mem_cons_self
    obtain ⟨s₁, hs₁, hrun⟩ := run_cons_eq_some.1 hrun
    obtain ⟨t₁, ht₁, hR₁⟩ := h.keep (h.mono hR (hc i List.mem_cons_self)) hle hC.1 hs₁
    obtain ⟨t', ht', hend⟩ := ih hclock.tail hR₁ hclock.head_le (hC.2 s₁ hs₁) hrun
    exact ⟨t', run_cons_eq_some.2 ⟨t₁, ht₁, ht'⟩, fun c' _ hlast =>
      hend c' (hlast i List.mem_cons_self) fun j hj => hlast j (List.mem_cons_of_mem _ hj)⟩
  | @insert i is js hp _ ih =>
    have hle : now i ≤ done i := hclock.le_done i List.mem_cons_self
    obtain ⟨t₁, ht₁, hR₁⟩ :=
      h.insert hp (h.alive_of_run hC hrun hA) (h.mono hR (hc i List.mem_cons_self)) hle
    obtain ⟨t', ht', hend⟩ := ih hclock.tail hR₁ hclock.head_le hC hrun
    exact ⟨t', run_cons_eq_some.2 ⟨t₁, ht₁, ht'⟩, fun c' _ hlast =>
      hend c' (hlast i List.mem_cons_self) fun j hj => hlast j (List.mem_cons_of_mem _ hj)⟩

/-- The rule for two runs from one state. -/
theorem Invisible.run_self (h : M.Invisible now done p C A R) (hins : Inserted p is js)
    (hclock : Clocked now done js) (hR : ∀ c, R c s s) (hC : M.Meets C s is)
    (hrun : M.run s is = some s') (hA : A s') :
    ∃ t', M.run s js = some t' ∧ ∀ c', (∀ j ∈ js, done j ≤ c') → R c' s' t' := by
  cases js with
  | nil =>
    cases hins
    cases hrun
    exact ⟨s, rfl, fun c' _ => hR c'⟩
  | cons j js =>
    have hj : now j ≤ done j := hclock.le_done j List.mem_cons_self
    have hle : ∀ i ∈ j :: js, now j ≤ now i := by
      intro i hi
      rcases List.mem_cons.1 hi with rfl | hi
      · exact le_rfl
      · exact hj.trans (hclock.head_le i hi)
    obtain ⟨t', ht', hend⟩ := h.run hins hclock (hR (now j)) hle hC hrun hA
    exact ⟨t', ht', fun c' hlast => hend c' (hj.trans (hlast j List.mem_cons_self)) hlast⟩

end Machine

end Ocserv
