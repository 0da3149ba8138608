import Ocserv.Lzs.Compress
import Ocserv.Lzs.Format
import Mathlib.Data.List.Pairwise

/-!
# The match that `lzs_compress` takes

The walk along the hash chain follows the links of the ring buffer from one position with the hash
of the current bytes to the one before.

* `chainWalk_eq` : it visits the positions of the window at which the same two bytes stand, from
  the nearest to the farthest, and no other: a link that was overwritten is never followed;
* `findMatch_longest` : so the match that is taken is the longest of the window, and the nearest
  one of that length.
-/

namespace Ocserv

namespace Lzs

variable {src : List UInt8}

/-! ### The longest match -/

/-- The `len` bytes at `inpos` also stand at `ofs`, inside the window. -/
structure IsMatch (src : List UInt8) (inpos len ofs : ℕ) : Prop where
  lt : ofs < inpos
  window : inpos < ofs + maxHistory
  two_le : 2 ≤ len
  fits : inpos + len ≤ src.length
  eq : ∀ k < len, src.getD (ofs + k) 0 = src.getD (inpos + k) 0

/-- Positions with one hash have the same two bytes. -/
theorem eq_of_hashAt_eq {p q : ℕ} (h : hashAt src p = hashAt src q) :
    src.getD p 0 = src.getD q 0 ∧ src.getD (p + 1) 0 = src.getD (q + 1) 0 := by
  have h₁ := (src.getD p 0).toNat_lt
  have h₂ := (src.getD q 0).toNat_lt
  unfold hashAt at h
  exact ⟨UInt8.toNat.inj (by omega), UInt8.toNat.inj (by omega)⟩

theorem extendMatch_spec {hofs inpos : ℕ} (hpos : 1 ≤ inpos) (hsrc : src.length ≤ 2 ^ 16) :
    ∀ fuel len, src.length ≤ len + inpos + fuel → len + inpos < src.length →
      (∀ k < len + 1, src.getD (hofs + k) 0 = src.getD (inpos + k) 0) →
      ∃ len' stop, extendMatch src hofs inpos fuel len = some (len', stop) ∧ len < len' ∧
        inpos + len' ≤ src.length ∧ (stop = true ↔ inpos + len' = src.length) ∧
        (stop = false → src.getD (hofs + len') 0 ≠ src.getD (inpos + len') 0) ∧
        ∀ k < len', src.getD (hofs + k) 0 = src.getD (inpos + k) 0 := by
  intro fuel
  induction fuel with
  | zero => intro len _ _; omega
  | succ fuel ih =>
    intro len hfuel hlt heq
    have hu : u16 (len + 1) = len + 1 := Nat.mod_eq_of_lt (by omega)
    rw [extendMatch]
    simp only [hu]
    split
    · exact ⟨len + 1, true, rfl, by omega, by omega, by simp; omega, nofun, heq⟩
    · split
      · rename_i hnext
        obtain ⟨len', stop, hrun, hlt', hrest⟩ := ih (len + 1) (by omega) (by omega)
          fun k hk => by
            rcases Nat.lt_or_eq_of_le (Nat.le_of_lt_succ hk) with hk | rfl
            · exact heq k hk
            · rw [Nat.add_comm hofs, Nat.add_comm inpos]
              exact hnext.symm
        exact ⟨len', stop, hrun, by omega, hrest⟩
      · rename_i hnext
        refine ⟨len + 1, false, rfl, by omega, by omega, by simp; omega, ?_, heq⟩
        intro _ hsame
        rw [Nat.add_comm hofs, Nat.add_comm inpos] at hsame
        exact hnext hsame.symm

/-- A match of two bytes: the positions have one hash. -/
theorem isMatch_two_iff {inpos ofs : ℕ} (hfits : inpos + 2 ≤ src.length) :
    IsMatch src inpos 2 ofs ↔
      ofs < inpos ∧ inpos < ofs + maxHistory ∧ hashAt src ofs = hashAt src inpos := by
  constructor
  · intro h
    have h0 := h.eq 0 (by omega)
    have h1 := h.eq 1 (by omega)
    rw [Nat.add_zero, Nat.add_zero] at h0
    exact ⟨h.lt, h.window, by rw [hashAt, hashAt, h0, h1]⟩
  · rintro ⟨hlt, hwin, hhash⟩
    refine ⟨hlt, hwin, le_rfl, hfits, ?_⟩
    intro k hk
    match k with
    | 0 => exact (eq_of_hashAt_eq hhash).1
    | 1 => exact (eq_of_hashAt_eq hhash).2

theorem IsMatch.shorten {inpos len len' ofs : ℕ} (h : IsMatch src inpos len ofs) (h2 : 2 ≤ len')
    (hle : len' ≤ len) : IsMatch src inpos len' ofs :=
  ⟨h.lt, h.window, h2, by have := h.fits; omega, fun k hk => h.eq k (by omega)⟩

/-! ### The walk along the chain -/

/-- The positions the walk visits from `hofs` on. -/
def chainWalk (chain : ℕ → ℕ) (inpos : ℕ) : ℕ → ℕ → List ℕ
  | 0, _ => []
  | fuel + 1, hofs =>
    if hofs ≠ invalidOfs ∧ hofs + maxHistory > inpos then
      hofs :: chainWalk chain inpos fuel (chain (hofs &&& (maxHistory - 1)))
    else []

/-- The positions below `n` in the window of `inpos` with the two bytes that stand there, the
nearest first. -/
def candidates (src : List UInt8) (inpos n : ℕ) : List ℕ :=
  (List.range n).reverse.filter fun p =>
    inpos < p + maxHistory ∧ hashAt src p = hashAt src inpos

theorem mem_candidates {inpos n p : ℕ} : p ∈ candidates src inpos n ↔
    p < n ∧ inpos < p + maxHistory ∧ hashAt src p = hashAt src inpos := by
  simp [candidates]

theorem candidates_pairwise (src : List UInt8) (inpos n : ℕ) :
    (candidates src inpos n).Pairwise (· > ·) :=
  (List.pairwise_reverse.2 List.pairwise_lt_range).filter _

/-- The nearest candidate is the last occurrence, and the others are the candidates before it. -/
theorem candidates_eq {inpos n : ℕ} (hn : n ≤ invalidOfs) :
    candidates src inpos n =
      let hofs := lastOcc src (hashAt src inpos) n
      if hofs ≠ invalidOfs ∧ hofs + maxHistory > inpos then hofs :: candidates src inpos hofs
      else [] := by
  induction n with
  | zero => simp [candidates, lastOcc]
  | succ n ih =>
    have ih := ih (by omega)
    have hsucc : candidates src inpos (n + 1) =
        if inpos < n + maxHistory ∧ hashAt src n = hashAt src inpos then n :: candidates src inpos n
        else candidates src inpos n := by
      simp only [candidates, List.range_succ, List.reverse_append, List.reverse_singleton,
        List.singleton_append, List.filter_cons, decide_eq_true_eq]
    rw [hsucc, lastOcc]
    by_cases hhash : hashAt src n = hashAt src inpos
    · by_cases hwin : inpos < n + maxHistory
      · have hne : n ≠ invalidOfs := by omega
        simp [hhash, hwin, hne]
      · -- nothing before `n` is in the window either
        have hout : candidates src inpos n = [] := by
          rw [List.eq_nil_iff_forall_not_mem]
          intro p hp
          have := mem_candidates.1 hp
          omega
        simp [hhash, hwin, hout]
    · simp only [hhash, and_false, if_false]
      exact ih

/-- **The walk visits exactly the candidates.**  Every link it follows was entered with the position
it leaves and has not been overwritten. -/
theorem chainWalk_eq {hist : Hist} {inpos : ℕ} (hex : hist.Exact src (inpos + 1))
    (hinpos : inpos ≤ invalidOfs) :
    ∀ (fuel n : ℕ), 1 ≤ fuel → n ≤ inpos →
      (lastOcc src (hashAt src inpos) n = invalidOfs ∨
        lastOcc src (hashAt src inpos) n + maxHistory < inpos + fuel) →
      chainWalk hist.chain inpos fuel (lastOcc src (hashAt src inpos) n) =
        candidates src inpos n ∧ (candidates src inpos n).length < fuel := by
  intro fuel
  induction fuel with
  | zero => intro n h; omega
  | succ fuel ih =>
    intro n _ hn hfuel
    rw [candidates_eq (by omega), chainWalk]
    dsimp only
    split
    · rename_i hin
      obtain ⟨hlt, hhash⟩ := (lastOcc_spec src (hashAt src inpos) n).resolve_left hin.1
      have hlink := hex.chain_eq (lastOcc src (hashAt src inpos) n) (by omega) (by omega)
      rw [hhash] at hlink
      have hfuel := hfuel.resolve_left hin.1
      have hnext := (lastOcc_spec src (hashAt src inpos)
        (lastOcc src (hashAt src inpos) n)).imp_right fun h => (by omega :
          lastOcc src (hashAt src inpos) (lastOcc src (hashAt src inpos) n) + maxHistory <
            inpos + fuel)
      obtain ⟨hwalk, hlen⟩ := ih (lastOcc src (hashAt src inpos) n) (by omega) (by omega) hnext
      rw [hlink, hwalk]
      exact ⟨rfl, by rw [List.length_cons]; omega⟩
    · exact ⟨rfl, by rw [List.length_nil]; omega⟩

/-! ### The longest match -/

/-- The body of the walk over a list of positions. -/
def scan (src : List UInt8) (inpos : ℕ) : List ℕ → ℕ × ℕ → Option (ℕ × ℕ)
  | [], best => some best
  | hofs :: rest, (len, ofs) =>
    if ∀ k < len - 1, src.getD (hofs + 2 + k) 0 = src.getD (inpos + 2 + k) 0 then
      match extendMatch src hofs inpos src.length len with
      | none => none
      | some (len, true) => some (len, hofs)
      | some (len, false) => scan src inpos rest (len, hofs)
    else scan src inpos rest (len, ofs)

theorem findMatch_eq_scan (chain : ℕ → ℕ) (inpos : ℕ) :
    ∀ (fuel hofs : ℕ) (best : ℕ × ℕ), (chainWalk chain inpos fuel hofs).length < fuel →
      findMatch src chain inpos fuel hofs best =
        scan src inpos (chainWalk chain inpos fuel hofs) best := by
  intro fuel
  induction fuel with
  | zero => intro hofs best h; omega
  | succ fuel ih =>
    rintro hofs ⟨len, ofs⟩ hlen
    rw [chainWalk] at hlen ⊢
    rw [findMatch]
    split
    · rename_i hin
      rw [if_pos hin, List.length_cons] at hlen
      have ih := fun best => ih (chain (hofs &&& (maxHistory - 1))) best (by omega)
      rw [scan]
      dsimp only
      split
      · obtain _ | ⟨len, _ | _⟩ := extendMatch src hofs inpos src.length len
        · rfl
        · exact ih (len, hofs)
        · rfl
      · exact ih (len, ofs)
    · rfl

/-- The match at `ofs` is at least as good as every match at `ofs'`: longer, or as long and not
farther. -/
def Beats (src : List UInt8) (inpos len ofs ofs' : ℕ) : Prop :=
  ∀ len', IsMatch src inpos len' ofs' → len' < len ∨ len' = len ∧ ofs' ≤ ofs

/-- A longest match of the window, and the nearest one of its length. -/
structure Longest (src : List UInt8) (inpos len ofs : ℕ) : Prop where
  isMatch : IsMatch src inpos len ofs
  beats : ∀ ofs', Beats src inpos len ofs ofs'

/-- **The scan keeps the best.**  `l` are the positions still to come, the nearest first. -/
theorem scan_longest {inpos : ℕ} (hsrc : src.length ≤ 2 ^ 16) :
    ∀ (l : List ℕ) {len ofs : ℕ}, IsMatch src inpos len ofs → inpos + len < src.length →
      l.Pairwise (· > ·) → (∀ p ∈ l, p ≤ ofs ∧ IsMatch src inpos 2 p) →
      (∀ ofs', ofs' ∉ l → Beats src inpos len ofs ofs') →
      ∃ len' ofs', scan src inpos l (len, ofs) = some (len', ofs') ∧
        Longest src inpos len' ofs' := by
  intro l
  induction l with
  | nil =>
    intro len ofs hm _ _ _ hbeats
    exact ⟨len, ofs, rfl, hm, fun ofs' => hbeats ofs' List.not_mem_nil⟩
  | cons hofs l ih =>
    intro len ofs hm hlt hsorted hmem hbeats
    obtain ⟨hnear, hsorted⟩ := List.pairwise_cons.1 hsorted
    obtain ⟨hle, hm2⟩ := hmem hofs List.mem_cons_self
    have hrest := fun p hp => hmem p (List.mem_cons_of_mem _ hp)
    have h2 := hm.two_le
    rw [scan]
    split
    · rename_i hcmp
      have hpre : ∀ k < len + 1, src.getD (hofs + k) 0 = src.getD (inpos + k) 0 := by
        intro k hk
        match k with
        | 0 => exact hm2.eq 0 (by omega)
        | 1 => exact hm2.eq 1 (by omega)
        | k + 2 =>
          have := hcmp k (by omega)
          rwa [Nat.add_right_comm, Nat.add_right_comm inpos] at this
      have hlt2 := hm2.lt
      obtain ⟨len', stop, hrun, hlen', hfits, hstop, hdiff, heq⟩ :=
        extendMatch_spec (by omega) hsrc src.length len (by omega) (by omega) hpre
      have hm' : IsMatch src inpos len' hofs := ⟨hlt2, hm2.window, by omega, hfits, heq⟩
      -- a position that was beaten is beaten by the longer match
      have hold : ∀ ofs', ofs' ∉ hofs :: l → Beats src inpos len' hofs ofs' := by
        intro ofs' hofs' k hk
        have := hbeats ofs' hofs' k hk
        omega
      rw [hrun]
      cases stop with
      | true =>
        refine ⟨len', hofs, rfl, hm', ?_⟩
        intro ofs'
        by_cases hofs' : ofs' ∈ hofs :: l
        · intro k hk
          have hend := hstop.1 rfl
          have hkfits := hk.fits
          have hnot : ofs' ≤ hofs := by
            obtain rfl | hin := List.mem_cons.1 hofs'
            · exact le_rfl
            · exact (hnear ofs' hin).le
          omega
        · exact hold ofs' hofs'
      | false =>
        have hne : inpos + len' ≠ src.length := fun h => by simp [h] at hstop
        refine ih hm' (by omega) hsorted (fun p hp => ⟨(hnear p hp).le, (hrest p hp).2⟩) ?_
        intro ofs' hofs'
        by_cases hself : ofs' = hofs
        · subst hself
          intro k hk
          by_contra hlong
          exact hdiff rfl (hk.eq len' (by omega))
        · exact hold ofs' (by simp [hself, hofs'])
    · rename_i hcmp
      simp only [not_forall] at hcmp
      obtain ⟨k, hk, hdiff⟩ := hcmp
      refine ih hm hlt hsorted hrest ?_
      intro ofs' hofs'
      by_cases hself : ofs' = hofs
      · subst hself
        intro len' hm'
        have hshort : len' ≤ len := by
          by_contra hlong
          refine hdiff ?_
          have := hm'.eq (k + 2) (by omega)
          rwa [← Nat.add_assoc, ← Nat.add_assoc, Nat.add_right_comm, Nat.add_right_comm inpos]
            at this
        omega
      · exact hbeats ofs' (by simp [hself, hofs'])

/-- **The walk finds the longest match**, whatever the ring buffer held at first. -/
theorem findMatch_longest {hist : Hist} {inpos : ℕ} (hsrc : src.length ≤ 2 ^ 16)
    (hlt : inpos + 2 < src.length) (hex : hist.Exact src (inpos + 1))
    (hin : ¬ (lastOcc src (hashAt src inpos) inpos = invalidOfs ∨
      lastOcc src (hashAt src inpos) inpos + maxHistory ≤ inpos)) :
    ∃ len ofs, findMatch src hist.chain inpos maxHistory (lastOcc src (hashAt src inpos) inpos)
        (2, lastOcc src (hashAt src inpos) inpos) = some (len, ofs) ∧
      Longest src inpos len ofs := by
  have hinv : inpos ≤ invalidOfs := by
    have : invalidOfs = 65535 := rfl
    omega
  obtain ⟨hne, hwin⟩ := not_or.1 hin
  obtain ⟨hofs, hhash⟩ := (lastOcc_spec src _ _).resolve_left hne
  obtain ⟨hwalk, hlen⟩ := chainWalk_eq hex hinv maxHistory inpos (by decide) le_rfl
    (.inr (by omega))
  rw [findMatch_eq_scan _ _ _ _ _ (hwalk ▸ hlen), hwalk]
  refine scan_longest hsrc _ ((isMatch_two_iff (by omega)).2 ⟨hofs, by omega, hhash⟩) (by omega)
    (candidates_pairwise src inpos inpos) ?_ ?_
  · intro p hp
    obtain ⟨hp1, hp2, hp3⟩ := mem_candidates.1 hp
    refine ⟨?_, (isMatch_two_iff (by omega)).2 ⟨hp1, hp2, hp3⟩⟩
    have hc : candidates src inpos inpos = _ := candidates_eq hinv
    have hsorted := candidates_pairwise src inpos inpos
    rw [hc] at hp hsorted
    dsimp only at hp hsorted
    rw [if_pos ⟨hne, by omega⟩] at hp hsorted
    obtain rfl | hp := List.mem_cons.1 hp
    · exact le_rfl
    · exact ((List.pairwise_cons.1 hsorted).1 p hp).le
  · intro ofs' hnot len' hm'
    have h2 := (isMatch_two_iff (by omega)).1 (hm'.shorten le_rfl hm'.two_le)
    exact absurd (mem_candidates.2 h2) hnot

/-! ### Greedy tokens -/

/-- The token is what a greedy encoder emits at `pos`: the nearest of the longest matches, or a
literal if there is no match. -/
def Token.GreedyAt (src : List UInt8) (pos : ℕ) : Token → Prop
  | .lit b => pos < src.length ∧ b = src.getD pos 0 ∧ ∀ ofs, ¬ IsMatch src pos 2 ofs
  | .mtch long offset length =>
    long = decide (0x80 ≤ offset) ∧ offset ≤ pos ∧ Longest src pos length (pos - offset)

/-- Every token is what a greedy encoder emits at its position. -/
def Greedy (src : List UInt8) : ℕ → List Token → Prop
  | _, [] => True
  | pos, t :: ts => t.GreedyAt src pos ∧ Greedy src (pos + t.size) ts

theorem greedy_append {pos : ℕ} {ts us : List Token} :
    Greedy src pos (ts ++ us) ↔
      Greedy src pos ts ∧ Greedy src (pos + (ts.map Token.size).sum) us := by
  induction ts generalizing pos with
  | nil => simp [Greedy]
  | cons t ts ih =>
    simp only [List.cons_append, Greedy, ih, List.map_cons, List.sum_cons, Nat.add_assoc, and_assoc]

theorem greedy_singleton {pos : ℕ} {t : Token} : Greedy src pos [t] ↔ t.GreedyAt src pos :=
  and_iff_left trivial

theorem Longest.greedyAt {pos len ofs : ℕ} (h : Longest src pos len ofs) :
    Token.GreedyAt src pos (.mtch (decide (0x80 ≤ pos - ofs)) (pos - ofs) len) := by
  refine ⟨rfl, Nat.sub_le _ _, ?_⟩
  rw [Nat.sub_sub_self h.isMatch.lt.le]
  exact h

end Lzs

end Ocserv
