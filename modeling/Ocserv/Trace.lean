import Mathlib.Data.List.Basic

/-!
# Traces

The events of a run, in order.  What must have happened before an event is a condition on the
trace so far: `Guarded P past t` says that every event of `t` meets `P` with what came before it,
`past` included.  A trace that grows event by event stays guarded (`Guarded.append`).

Where the events are about something, `history` is what happened to one of these things.
-/

namespace Ocserv

namespace Trace

variable {ε κ : Type*} {P : List ε → ε → Prop} {past t u : List ε} {ev : ε}

/-- Every event of the trace meets `P` with what came before it. -/
def Guarded (P : List ε → ε → Prop) : List ε → List ε → Prop
  | _, [] => True
  | past, ev :: t => P past ev ∧ Guarded P (past ++ [ev]) t

theorem guarded_append :
    Guarded P past (t ++ u) ↔ Guarded P past t ∧ Guarded P (past ++ t) u := by
  induction t generalizing past with
  | nil => simp [Guarded]
  | cons ev t ih => simp [Guarded, ih, and_assoc]

theorem Guarded.append (ht : Guarded P past t) (hu : Guarded P (past ++ t) u) :
    Guarded P past (t ++ u) := guarded_append.2 ⟨ht, hu⟩

/-- Events that need nothing. -/
theorem guarded_of_all (h : ∀ past, ∀ ev ∈ t, P past ev) : Guarded P past t := by
  induction t generalizing past with
  | nil => trivial
  | cons ev t ih =>
    exact ⟨h past ev List.mem_cons_self, ih fun past e he => h past e (List.mem_cons_of_mem _ he)⟩

/-- Whether a trace is guarded can be evaluated. -/
instance Guarded.decidable (P : List ε → ε → Prop) [∀ past ev, Decidable (P past ev)] :
    ∀ past t, Decidable (Guarded P past t)
  | _, [] => .isTrue trivial
  | past, ev :: t =>
    have := Guarded.decidable P (past ++ [ev]) t
    inferInstanceAs (Decidable (P past ev ∧ Guarded P (past ++ [ev]) t))

/-! ### Histories -/

section

variable [DecidableEq κ] {key : ε → Option κ} {k : κ}

/-- The events about `k`. -/
def history (key : ε → Option κ) (k : κ) (t : List ε) : List ε := t.filter fun ev => key ev = some k

theorem mem_history : ev ∈ history key k t ↔ ev ∈ t ∧ key ev = some k := by
  simp [history]

theorem history_append : history key k (t ++ u) = history key k t ++ history key k u :=
  List.filter_append ..

theorem history_of_all (h : ∀ ev ∈ t, key ev = some k) : history key k t = t := by
  simpa [history] using h

theorem history_of_none (h : ∀ ev ∈ t, key ev ≠ some k) : history key k t = [] := by
  simpa [history] using h

/-- What happens to others is no part of the history. -/
theorem history_append_of_none (h : ∀ ev ∈ u, key ev ≠ some k) :
    history key k (t ++ u) = history key k t := by
  rw [history_append, history_of_none h, List.append_nil]

end

end Trace

end Ocserv
