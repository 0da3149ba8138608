import Mathlib.Data.List.TakeWhile

/-!
# Texts and their lines

A text is a list of lines, each ended by a separator but perhaps the last one.

* `lines sep` : the lines of a text, with their separators.
* `joined sep` : the text of a list of lines, of which it is said whether they are ended.

`lines_joined` says that `lines` finds the lines of a text that was put together from them.
-/

namespace Ocserv

namespace Lines

variable {α : Type*} [DecidableEq α] (sep : α)

/-- The lines of a text, each with the separator that ends it. -/
def lines : List α → List (List α)
  | [] => []
  | a :: s =>
    if a = sep then [a] :: lines s
    else
      match lines s with
      | [] => [[a]]
      | l :: ls => (a :: l) :: ls

/-- A line, ended or not. -/
def ended (l : List α × Bool) : List α := l.1 ++ if l.2 then [sep] else []

/-- The text of a list of lines. -/
def joined (ls : List (List α × Bool)) : List α := ls.flatMap (ended sep)

/-- No line has a separator or is empty, and only the last one may not be ended. -/
structure Proper (ls : List (List α × Bool)) : Prop where
  notMem : ∀ l ∈ ls, sep ∉ l.1
  ne_nil : ∀ l ∈ ls, l.1 ≠ []
  ended : ls.Pairwise fun l _ => l.2 = true

variable {sep}

theorem lines_append_sep {l : List α} (h : sep ∉ l) (s : List α) :
    lines sep (l ++ sep :: s) = (l ++ [sep]) :: lines sep s := by
  induction l with
  | nil => simp [lines]
  | cons a l ih =>
    have ha : a ≠ sep := fun hc => h (hc ▸ List.mem_cons_self)
    have hl : sep ∉ l := fun hc => h (List.mem_cons_of_mem _ hc)
    simp [lines, ha, ih hl]

theorem lines_of_notMem {l : List α} (h : sep ∉ l) (hne : l ≠ []) : lines sep l = [l] := by
  induction l with
  | nil => exact absurd rfl hne
  | cons a l ih =>
    have ha : a ≠ sep := fun hc => h (hc ▸ List.mem_cons_self)
    have hl : sep ∉ l := fun hc => h (List.mem_cons_of_mem _ hc)
    cases l with
    | nil => simp [lines, ha]
    | cons b l => rw [lines, if_neg ha, ih hl (List.cons_ne_nil b l)]

/-- What stands before the first separator. -/
theorem takeWhile_append_sep {l : List α} (h : sep ∉ l) (s : List α) :
    (l ++ sep :: s).takeWhile (· ≠ sep) = l := by
  have hall : ∀ a ∈ l, decide (a ≠ sep) = true := fun a ha =>
    decide_eq_true fun hc => h (hc ▸ ha)
  rw [List.takeWhile_append_of_pos hall]
  simp

theorem dropWhile_append_sep {l : List α} (h : sep ∉ l) (s : List α) :
    (l ++ sep :: s).dropWhile (· ≠ sep) = sep :: s := by
  have hall : ∀ a ∈ l, decide (a ≠ sep) = true := fun a ha =>
    decide_eq_true fun hc => h (hc ▸ ha)
  rw [List.dropWhile_append_of_pos hall]
  simp

theorem takeWhile_of_notMem {l : List α} (h : sep ∉ l) : l.takeWhile (· ≠ sep) = l :=
  List.takeWhile_eq_self_iff.2 fun _ ha => decide_eq_true fun hc => h (hc ▸ ha)

theorem dropWhile_of_notMem {l : List α} (h : sep ∉ l) : l.dropWhile (· ≠ sep) = [] :=
  List.dropWhile_eq_nil_iff.2 fun _ ha => decide_eq_true fun hc => h (hc ▸ ha)

/-- **The lines of a text** that was put together from lines. -/
theorem lines_joined {ls : List (List α × Bool)} (h : Proper sep ls) :
    lines sep (joined sep ls) = ls.map (ended sep) := by
  induction ls with
  | nil => rfl
  | cons l ls ih =>
    obtain ⟨hended, hrest⟩ := List.pairwise_cons.1 h.ended
    have hproper : Proper sep ls :=
      ⟨fun x hx => h.notMem x (List.mem_cons_of_mem _ hx),
        fun x hx => h.ne_nil x (List.mem_cons_of_mem _ hx), hrest⟩
    have hnot := h.notMem l List.mem_cons_self
    obtain ⟨t, b⟩ := l
    cases b with
    | true =>
      have htext : joined sep ((t, true) :: ls) = t ++ sep :: joined sep ls := by
        simp [joined, ended]
      rw [htext, lines_append_sep hnot, ih hproper]
      simp [ended]
    | false =>
      cases ls with
      | nil =>
        have htext : joined sep [(t, false)] = t := by simp [joined, ended]
        rw [htext, lines_of_notMem hnot (h.ne_nil _ List.mem_cons_self)]
        simp [ended]
      | cons x ls => exact absurd (hended x List.mem_cons_self) Bool.false_ne_true

end Lines

end Ocserv
