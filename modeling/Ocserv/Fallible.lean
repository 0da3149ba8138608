import Mathlib.Data.List.Basic

/-!
# Steps that may fail

A function of the source that can end the program is a step with a result in `Except`.  These are
the rules for steps one after the other: what it means that all of them succeed, and what a run of
the same step for a list of inputs preserves.

* `bind_eq_ok_iff` : both steps succeed.
* `foldlM_invariant` : what one step preserves, a run preserves.
-/

namespace Ocserv

namespace Fallible

universe u

variable {ε ι : Type*} {α β σ : Type u}

theorem bind_eq_ok_iff {x : Except ε α} {f : α → Except ε β} {b : β} :
    (x >>= f) = .ok b ↔ ∃ a, x = .ok a ∧ f a = .ok b := by
  constructor
  · intro h
    cases x with
    | error e => cases h
    | ok a => exact ⟨a, rfl, h⟩
  · rintro ⟨a, rfl, h⟩
    exact h

theorem isOk_iff_exists {x : Except ε α} : x.isOk = true ↔ ∃ a, x = .ok a := by
  cases x with
  | error e => exact ⟨nofun, nofun⟩
  | ok a => exact ⟨fun _ => ⟨a, rfl⟩, fun _ => rfl⟩

theorem ite_error_eq_ok_iff {p : Prop} [Decidable p] {e : ε} {x : Except ε α} {a : α} :
    (if p then .error e else x) = .ok a ↔ ¬ p ∧ x = .ok a := by
  split_ifs with hp
  · exact ⟨nofun, fun h => absurd hp h.1⟩
  · exact ⟨fun h => ⟨hp, h⟩, fun h => h.2⟩

variable {step : σ → ι → Except ε σ} {inputs : List ι} {s s' : σ}

theorem foldlM_cons_eq_ok_iff {i : ι} :
    (i :: inputs).foldlM step s = .ok s' ↔
      ∃ t, step s i = .ok t ∧ inputs.foldlM step t = .ok s' := by
  rw [List.foldlM_cons, bind_eq_ok_iff]

/-- An invariant of the step holds after every run. -/
theorem foldlM_invariant {P : σ → Prop} (hstep : ∀ s i s', P s → step s i = .ok s' → P s')
    (h : P s) (hrun : inputs.foldlM step s = .ok s') : P s' := by
  induction inputs generalizing s with
  | nil =>
    cases hrun
    exact h
  | cons i inputs ih =>
    obtain ⟨t, ht, hrun⟩ := foldlM_cons_eq_ok_iff.1 hrun
    exact ih (hstep s i t h ht) hrun

/-- What every step establishes holds after every run that has a step. -/
theorem foldlM_established {P : σ → Prop} (hstep : ∀ s i s', step s i = .ok s' → P s')
    (hne : inputs ≠ []) (hrun : inputs.foldlM step s = .ok s') : P s' := by
  obtain ⟨i, rest, rfl⟩ := List.exists_cons_of_ne_nil hne
  obtain ⟨t, ht, hrun⟩ := foldlM_cons_eq_ok_iff.1 hrun
  exact foldlM_invariant (fun s i s' _ h => hstep s i s' h) (hstep s i t ht) hrun

end Fallible

end Ocserv
