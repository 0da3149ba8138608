import Mathlib.Data.List.Basic

/-!
# Byte streams cut into segments

A stream socket delivers the bytes of the other side in order, but a read returns only what has
arrived: the stream is a list of segments, and one read sees one segment.

* `Segments.readSome n` : one read of at most `n` bytes;
* `Segments.readExact n` : read until there are `n` bytes, `none` if the stream ends before.

`readExact_eq` says that `readExact` does not depend on the segments; `readSome` does.
-/

namespace Ocserv

/-- A stream, cut into segments. -/
abbrev Segments (α : Type*) := List (List α)

namespace Segments

variable {α : Type*}

/-- One read of at most `n` elements. -/
def readSome (n : ℕ) : Segments α → Option (List α × Segments α)
  | [] => none
  | seg :: segs => some (seg.take n, if seg.length ≤ n then segs else seg.drop n :: segs)

/-- Read until there are `n` elements. -/
def readExact : ℕ → Segments α → Option (List α × Segments α)
  | 0, segs => some ([], segs)
  | _ + 1, [] => none
  | n + 1, seg :: segs =>
    if seg.length ≤ n + 1 then
      (readExact (n + 1 - seg.length) segs).map fun (data, segs) => (seg ++ data, segs)
    else some (seg.take (n + 1), seg.drop (n + 1) :: segs)

theorem flatten_readSome (n : ℕ) (seg : List α) (segs : Segments α) :
    (if seg.length ≤ n then segs else seg.drop n :: segs).flatten =
      (seg :: segs).flatten.drop (min n seg.length) := by
  split
  · rename_i h
    rw [Nat.min_eq_right h, List.flatten_cons, List.drop_left]
  · rename_i h
    rw [Nat.min_eq_left (by omega), List.flatten_cons, List.flatten_cons,
      List.drop_append_of_le_length (by omega)]

/-- **`readExact` takes a prefix of the stream**, however it is cut. -/
theorem readExact_eq {n : ℕ} {segs : Segments α} (h : n ≤ segs.flatten.length) :
    ∃ segs', readExact n segs = some (segs.flatten.take n, segs') ∧
      segs'.flatten = segs.flatten.drop n := by
  induction segs generalizing n with
  | nil =>
    obtain rfl : n = 0 := by simpa using h
    exact ⟨[], rfl, rfl⟩
  | cons seg segs ih =>
    match n with
    | 0 => exact ⟨seg :: segs, by simp [readExact], rfl⟩
    | n + 1 =>
      rw [readExact, List.flatten_cons]
      rw [List.flatten_cons, List.length_append] at h
      split
      · rename_i hle
        obtain ⟨segs', hrun, hdrop⟩ := ih (n := n + 1 - seg.length) (by omega)
        refine ⟨segs', ?_, ?_⟩
        · rw [hrun, Option.map_some, List.take_append, List.take_of_length_le hle]
        · rw [hdrop, List.drop_append, List.drop_of_length_le hle, List.nil_append]
      · refine ⟨seg.drop (n + 1) :: segs, ?_, ?_⟩
        · rw [List.take_append_of_le_length (by omega)]
        · rw [List.flatten_cons, List.drop_append_of_le_length (by omega)]

theorem readExact_none {n : ℕ} {segs : Segments α} (h : segs.flatten.length < n) :
    readExact n segs = none := by
  induction segs generalizing n with
  | nil =>
    obtain ⟨n, rfl⟩ : ∃ m, n = m + 1 := ⟨n - 1, by simp at h; omega⟩
    rfl
  | cons seg segs ih =>
    rw [List.flatten_cons, List.length_append] at h
    obtain ⟨n, rfl⟩ : ∃ m, n = m + 1 := ⟨n - 1, by omega⟩
    rw [readExact, if_pos (by omega), ih (by omega)]
    rfl

end Segments

end Ocserv
