import Mathlib.Data.List.Infix
import Mathlib.Data.Nat.Find
import Ocserv.Lines

/-!
# The first occurrence of a pattern

`search` finds the first place of a list where another list stands, as `memmem` and `strcasestr` do.

* `search_eq_some_iff`, `search_eq_none_iff` : what it finds.
* `search_append` : what stands before a place where the pattern cannot begin is skipped.
* `search_separator` : a pattern with a separator at its end only is found before one.
* `segments` : the parts of a text between the occurrences that a pass from left to right finds.
-/

namespace Ocserv

namespace Search

variable {α : Type*} [DecidableEq α]

/-- The first place of `needle`. -/
def search (needle : List α) : List α → Option ℕ
  | [] => if needle = [] then some 0 else none
  | a :: s => if needle <+: a :: s then some 0 else (search needle s).map (· + 1)

variable {needle l s : List α} {i : ℕ}

theorem search_here (h : needle <+: s) : search needle s = some 0 := by
  cases s with
  | nil => rw [search, if_pos (List.prefix_nil.1 h)]
  | cons a s => rw [search, if_pos h]

theorem search_next {a : α} (h : ¬ needle <+: a :: s) :
    search needle (a :: s) = (search needle s).map (· + 1) := by
  rw [search, if_neg h]

theorem search_eq_some_iff : search needle s = some i ↔
    i ≤ s.length ∧ needle <+: s.drop i ∧ ∀ j < i, ¬ needle <+: s.drop j := by
  induction s generalizing i with
  | nil =>
    rw [search]
    split_ifs with h
    · subst h
      simp only [Option.some.injEq, List.length_nil, List.drop_nil, List.nil_prefix]
      exact ⟨fun h => h ▸ ⟨le_refl _, trivial, fun j hj => absurd hj (Nat.not_lt_zero j)⟩,
        fun h => (Nat.le_zero.1 h.1).symm⟩
    · refine iff_of_false (by simp) fun hi => h ?_
      rw [List.drop_nil] at hi
      exact List.prefix_nil.1 hi.2.1
  | cons a s ih =>
    by_cases h : needle <+: a :: s
    · rw [search_here h, Option.some.injEq]
      constructor
      · rintro rfl
        exact ⟨Nat.zero_le _, h, fun j hj => absurd hj (Nat.not_lt_zero j)⟩
      · intro hi
        by_contra hne
        exact hi.2.2 0 (by omega) h
    · rw [search_next h, Option.map_eq_some_iff]
      constructor
      · rintro ⟨i, hi, rfl⟩
        obtain ⟨hle, hhere, hbefore⟩ := ih.1 hi
        refine ⟨by rw [List.length_cons]; omega, hhere, fun j hj => ?_⟩
        cases j with
        | zero => exact h
        | succ j => exact hbefore j (by omega)
      · rintro ⟨hle, hhere, hbefore⟩
        cases i with
        | zero => exact absurd hhere h
        | succ i =>
          rw [List.length_cons] at hle
          exact ⟨i, ih.2 ⟨by omega, hhere, fun j hj => hbefore (j + 1) (by omega)⟩, rfl⟩

theorem search_eq_none_iff : search needle s = none ↔
    ∀ j ≤ s.length, ¬ needle <+: s.drop j := by
  constructor
  · intro h j hj hprefix
    classical
    have hex : ∃ j, j ≤ s.length ∧ needle <+: s.drop j := ⟨j, hj, hprefix⟩
    have hfirst := search_eq_some_iff.2 ⟨(Nat.find_spec hex).1, (Nat.find_spec hex).2,
      fun k hk hprefix => Nat.find_min hex hk ⟨hk.le.trans (Nat.find_spec hex).1, hprefix⟩⟩
    rw [h] at hfirst
    cases hfirst
  · intro h
    cases hs : search needle s with
    | none => rfl
    | some i =>
      obtain ⟨hle, hhere, -⟩ := search_eq_some_iff.1 hs
      exact absurd hhere (h i hle)

/-- What stands before a place where the pattern cannot begin is skipped. -/
theorem search_append (h : ∀ i < l.length, ¬ needle <+: (l ++ s).drop i) :
    search needle (l ++ s) = (search needle s).map (· + l.length) := by
  induction l with
  | nil => simp
  | cons a l ih =>
    have ih := ih fun i hi => h (i + 1) (Nat.succ_lt_succ hi)
    have hstep : search needle (a :: (l ++ s)) = (search needle (l ++ s)).map (· + 1) :=
      search_next (h 0 (Nat.succ_pos _))
    rw [List.cons_append, hstep, ih, Option.map_map]
    rfl

section Separator

variable {sep : α} {n k t : List α}

omit [DecidableEq α] in
/-- A pattern ends before an element that it does not have. -/
theorem prefix_of_notMem {b : α} (hb : b ∉ needle) (h : needle <+: l ++ b :: t) :
    needle <+: l := by
  by_cases hlen : needle.length ≤ l.length
  · exact List.prefix_of_prefix_length_le h (List.prefix_append _ _) hlen
  · have hpre : l ++ [b] <+: needle :=
      List.prefix_of_prefix_length_le ⟨t, by simp⟩ h (by
        rw [List.length_append, List.length_singleton]
        omega)
    exact absurd (hpre.subset (by simp)) hb

omit [DecidableEq α] in
/-- A pattern cannot begin within a text that a separator ends, if the pattern has neither. -/
theorem not_prefix_of_notMem {b : α} (hb : b ∉ needle) {c : α} (hc : c ∈ needle) (hk : c ∉ k)
    (hi : i ≤ k.length) : ¬ needle <+: (k ++ b :: t).drop i := by
  intro h
  rw [List.drop_append_of_le_length hi] at h
  exact hk ((List.drop_sublist i k).mem ((prefix_of_notMem hb h).subset hc))

/-- A pattern that ends with its only separator stands before the next separator of the text, or
behind it. -/
theorem search_separator (hn : sep ∉ n) (hk : sep ∉ k) :
    search (n ++ [sep]) (k ++ sep :: t) =
      if n <:+ k then some (k.length - n.length)
      else (search (n ++ [sep]) t).map (· + (k.length + 1)) := by
  -- an occurrence that begins before the separator ends with it
  have hends {i : ℕ} (hi : i ≤ k.length) (h : n ++ [sep] <+: (k ++ sep :: t).drop i) :
      n = k.drop i := by
    obtain ⟨r, hr⟩ := h
    have hdrop : sep ∉ k.drop i := fun hmem => hk ((List.drop_sublist i k).mem hmem)
    rw [List.drop_append_of_le_length hi, List.append_assoc, List.singleton_append] at hr
    have htake := congrArg (List.takeWhile (· ≠ sep)) hr
    rwa [Lines.takeWhile_append_sep hn, Lines.takeWhile_append_sep hdrop] at htake
  split_ifs with hsuffix
  · have hle := hsuffix.length_le
    have hdrop : k.drop (k.length - n.length) = n := (List.suffix_iff_eq_drop.1 hsuffix).symm
    refine search_eq_some_iff.2 ⟨by rw [List.length_append]; omega, ?_, fun j hj h => ?_⟩
    · rw [List.drop_append_of_le_length (Nat.sub_le _ _), hdrop]
      exact ⟨t, by simp⟩
    · have hlen := congrArg List.length (hends (by omega) h)
      rw [List.length_drop] at hlen
      omega
  · have hsplit : k ++ sep :: t = (k ++ [sep]) ++ t := by simp
    have hlen : (k ++ [sep]).length = k.length + 1 := List.length_append
    rw [hsplit, search_append, hlen]
    rw [hlen, ← hsplit]
    intro i hi h
    have hi : i ≤ k.length := by omega
    exact hsuffix (hends hi h ▸ List.drop_suffix i k)

/-- A text that lacks a part of the pattern is skipped with its end. -/
theorem search_skip {b c : α} (hb : b ∉ needle) (hc : c ∈ needle) (hk : c ∉ k) :
    search needle (k ++ b :: t) = (search needle t).map (· + (k.length + 1)) := by
  have hsplit : k ++ b :: t = (k ++ [b]) ++ t := by simp
  have hlen : (k ++ [b]).length = k.length + 1 := List.length_append
  rw [hsplit, search_append, hlen]
  rw [hlen, ← hsplit]
  exact fun i hi => not_prefix_of_notMem hb hc hk (by omega)

theorem search_of_notMem {c : α} (hc : c ∈ needle) (hs : c ∉ s) : search needle s = none :=
  search_eq_none_iff.2 fun _ _ h =>
    hs ((List.drop_sublist _ s).mem (h.subset hc))

end Separator

/-! ### A pass from left to right -/

/-- The parts of a text between the occurrences that a pass finds; `fuel` bounds their number. -/
def segmentsFrom (needle : List α) : ℕ → List α → List (List α)
  | 0, s => [s]
  | fuel + 1, s =>
    match search needle s with
    | none => [s]
    | some p => s.take p :: segmentsFrom needle fuel (s.drop (p + needle.length))

/-- The parts of a text between the occurrences of a pattern. -/
def segments (needle s : List α) : List (List α) := segmentsFrom needle s.length s

/-- The pattern is found after each part but the last, and not in the last. -/
def Segmented (needle : List α) : List (List α) → Prop
  | [] => False
  | [u] => search needle u = none
  | u :: v :: rest => search needle (needle.intercalate (u :: v :: rest)) = some u.length ∧
      Segmented needle (v :: rest)

/-- The text around an occurrence. -/
theorem split_of_search (h : search needle s = some i) :
    s.take i ++ needle ++ s.drop (i + needle.length) = s := by
  obtain ⟨-, ⟨t, ht⟩, -⟩ := search_eq_some_iff.1 h
  have hdrop : s.drop (i + needle.length) = t := by rw [← List.drop_drop, ← ht, List.drop_left]
  rw [hdrop, List.append_assoc, ht, List.take_append_drop]

theorem length_take_of_search (h : search needle s = some i) : (s.take i).length = i :=
  List.length_take_of_le (search_eq_some_iff.1 h).1

theorem segmentsFrom_spec (hneedle : needle ≠ []) {fuel : ℕ} (hfuel : s.length ≤ fuel) :
    needle.intercalate (segmentsFrom needle fuel s) = s ∧
      Segmented needle (segmentsFrom needle fuel s) := by
  induction fuel generalizing s with
  | zero =>
    obtain rfl : s = [] := List.length_eq_zero_iff.1 (Nat.le_zero.1 hfuel)
    exact ⟨List.intercalate_singleton, if_neg hneedle⟩
  | succ fuel ih =>
    rw [segmentsFrom]
    cases hs : search needle s with
    | none => exact ⟨List.intercalate_singleton, hs⟩
    | some p =>
      have hsplit := split_of_search hs
      have hpos := List.length_pos_iff.2 hneedle
      obtain ⟨hcat, hseg⟩ := ih (s := s.drop (p + needle.length)) (by
        rw [List.length_drop]
        omega)
      cases hrest : segmentsFrom needle fuel (s.drop (p + needle.length)) with
      | nil =>
        rw [hrest] at hseg
        exact hseg.elim
      | cons v rest =>
        rw [hrest] at hcat hseg
        have hall : needle.intercalate (s.take p :: v :: rest) = s := by
          rw [List.intercalate_cons_cons, hcat, hsplit]
        have hfirst : search needle (needle.intercalate (s.take p :: v :: rest)) =
            some (s.take p).length := by
          rw [hall, hs, length_take_of_search hs]
        simp only [hrest]
        exact ⟨hall, hfirst, hseg⟩

theorem intercalate_segments (hneedle : needle ≠ []) :
    needle.intercalate (segments needle s) = s := (segmentsFrom_spec hneedle (le_refl _)).1

theorem segmented_segments (hneedle : needle ≠ []) : Segmented needle (segments needle s) :=
  (segmentsFrom_spec hneedle (le_refl _)).2

end Search

end Ocserv
