import Ocserv.Lzs.RoundTrip

/-!
# LZS greedy parsing

Which tokens `lzs_compress` emits.  In its main loop every token is greedy (`compressLoop_step`).
After a match that ends two bytes before the end of the input the tables are not brought up to
date, although the special case at the end looks the last two bytes up in them.

* `lzsCompress_greedy_iff` : **all tokens are greedy exactly if the greedy parse does not end with
  a match inside which the last two bytes occur**;
* `not_greedy_abcdabcbc` : an input of nine bytes for which they are not.
-/

namespace Ocserv

namespace Lzs

variable {src : List UInt8}

/-- The bytes are the encoding of the tokens. -/
def Encodes (out : List UInt8) (ts : List Token) : Prop :=
  (∀ t ∈ ts, t.Wf) ∧ ∃ tail, bytesToBits out = tokenBits ts ++ (endMarker ++ tail)

/-- The greedy parse has a match that ends two bytes before the end of the input, and the last two
bytes also stand at a position `p` after its first byte. -/
def Skipped (src : List UInt8) : Prop :=
  ∃ ts long offset length p, Greedy src 0 (ts ++ [.mtch long offset length]) ∧
    (ts.map Token.size).sum + length + 2 = src.length ∧ (ts.map Token.size).sum < p ∧
      IsMatch src ((ts.map Token.size).sum + length) 2 p

theorem Encodes.unique {out : List UInt8} {ts us : List Token} (hts : Encodes out ts)
    (hus : Encodes out us) : us = ts := by
  obtain ⟨hwf, tail, hbits⟩ := hts
  obtain ⟨hwf', tail', hbits'⟩ := hus
  exact tokenBits_inj hwf' hwf (hbits'.symm.trans hbits)

/-! ### A greedy parse is determined by the input -/

theorem Token.GreedyAt.unique {pos : ℕ} {t u : Token} (ht : t.GreedyAt src pos)
    (hu : u.GreedyAt src pos) : t = u := by
  cases t with
  | lit b =>
    obtain ⟨-, hb, hno⟩ := ht
    cases u with
    | lit c => rw [hb, hu.2.1]
    | mtch long offset length =>
      have hm := hu.2.2.isMatch
      exact absurd (hm.shorten le_rfl hm.two_le) (hno _)
  | mtch long offset length =>
    obtain ⟨hlong, hle, hm⟩ := ht
    cases u with
    | lit c => exact absurd (hm.isMatch.shorten le_rfl hm.isMatch.two_le) (hu.2.2 _)
    | mtch long' offset' length' =>
      obtain ⟨hlong', hle', hm'⟩ := hu
      have h₁ := hm.beats _ _ hm'.isMatch
      have h₂ := hm'.beats _ _ hm.isMatch
      obtain rfl : length = length' := by omega
      obtain rfl : offset = offset' := by omega
      rw [hlong, hlong']

theorem Token.GreedyAt.size_pos {pos : ℕ} {t : Token} (ht : t.GreedyAt src pos) : 0 < t.size := by
  cases t with
  | lit b => exact Nat.one_pos
  | mtch long offset length =>
    have := ht.2.2.isMatch.two_le
    simp only [Token.size]
    omega

/-- Of two greedy parses from one position the shorter is the beginning of the longer. -/
theorem Greedy.isPrefix {pos : ℕ} {ts us : List Token} (hts : Greedy src pos ts)
    (hus : Greedy src pos us) (hle : (ts.map Token.size).sum ≤ (us.map Token.size).sum) :
    ∃ vs, us = ts ++ vs := by
  induction ts generalizing pos us with
  | nil => exact ⟨us, rfl⟩
  | cons t ts ih =>
    rw [List.map_cons, List.sum_cons] at hle
    cases us with
    | nil =>
      have := hts.1.size_pos
      rw [List.map_nil, List.sum_nil] at hle
      omega
    | cons u us =>
      obtain rfl := hts.1.unique hus.1
      rw [List.map_cons, List.sum_cons] at hle
      obtain ⟨vs, rfl⟩ := ih hts.2 hus.2 (by omega)
      exact ⟨vs, rfl⟩

/-! ### The main loop -/

/-- Every token starts more than two bytes before the end of the input. -/
def StartsEarly (src : List UInt8) (ts : List Token) : Prop :=
  ∀ us t vs, ts = us ++ t :: vs → (us.map Token.size).sum + 2 < src.length

/-- A match at the end of the tokens ends more than two bytes before the end of the input. -/
def EndsEarly (src : List UInt8) (ts : List Token) : Prop :=
  ∀ us long offset length, ts = us ++ [.mtch long offset length] →
    (us.map Token.size).sum + length + 2 < src.length

theorem StartsEarly.append {ts : List Token} (h : StartsEarly src ts)
    (hlt : (ts.map Token.size).sum + 2 < src.length) (t : Token) : StartsEarly src (ts ++ [t]) := by
  intro us u vs heq
  obtain rfl | ⟨ws, v, rfl⟩ := vs.eq_nil_or_concat'
  · obtain ⟨rfl, -⟩ := List.append_inj' heq rfl
    exact hlt
  · rw [← List.cons_append, ← List.append_assoc] at heq
    exact h us u ws (List.append_inj' heq rfl).1

/-- How the main loop ends. -/
structure LoopEnds (dstlen : ℕ) (src : List UInt8) (hist : Hist) (w : Writer) (inpos : ℕ)
    (ts : List Token) : Prop where
  near : src.length ≤ inpos + 2
  emitted : Emitted dstlen src inpos w ts
  greedy : Greedy src 0 ts
  early : StartsEarly src ts
  tables : hist.Exact src inpos ∧ EndsEarly src ts ∨
    ∃ us long offset length, ts = us ++ [.mtch long offset length] ∧
      hist.Exact src ((us.map Token.size).sum + 1)

theorem compressLoop_greedy {dstlen : ℕ} (hsrc : src.length ≤ 2 ^ 16) :
    ∀ (fuel : ℕ) {inpos : ℕ} {hist : Hist} {w : Writer} {ts : List Token}
      {hist' : Hist} {w' : Writer} {inpos' : ℕ},
      src.length < inpos + fuel → hist.Exact src inpos → Emitted dstlen src inpos w ts →
      Greedy src 0 ts → StartsEarly src ts → EndsEarly src ts →
      compressLoop dstlen src fuel hist w inpos = some (.ok (hist', w', inpos')) →
      ∃ ts', LoopEnds dstlen src hist' w' inpos' ts' := by
  intro fuel
  induction fuel with
  | zero => intro inpos hist w ts hist' w' inpos' hfuel _ hemit; have := hemit.le; omega
  | succ fuel ih =>
    intro inpos hist w ts hist' w' inpos' hfuel hex hemit hgreedy hstarts hends hrun
    have hsum := hemit.sum_size
    by_cases hlt : inpos + 2 < src.length
    · have hstep : LoopStep dstlen src fuel inpos ts _ := compressLoop_step hsrc hlt hex hemit
      have hearly := fun t => hstarts.append (hsum ▸ hlt) t
      have happend (t : Token) (ht : t.GreedyAt src inpos) : Greedy src 0 (ts ++ [t]) := by
        rw [greedy_append, greedy_singleton, Nat.zero_add, hsum]
        exact ⟨hgreedy, ht⟩
      generalize hres : compressLoop dstlen src (fuel + 1) hist w inpos = res at hstep
      rw [hres] at hrun
      cases hstep with
      | full hlen => cases hrun
      | next ht hpos hgo hex' hemit' =>
        refine ih (by omega) hex' hemit' (happend _ ht) (hearly _) ?_ hrun
        intro us long offset length heq
        obtain ⟨rfl, hlast⟩ := List.append_inj' heq rfl
        obtain rfl := List.singleton_inj.1 hlast
        have := ht.2.2.isMatch.two_le
        simp only [Token.size] at hgo
        omega
      | last ht hpos hend hex' hemit' =>
        cases hrun
        exact ⟨_, hend, hemit', happend _ ht, hearly _, .inr ⟨ts, _, _, _, rfl, hsum ▸ hex'⟩⟩
    · rw [compressLoop, if_neg hlt] at hrun
      cases hrun
      exact ⟨ts, by omega, hemit, hgreedy, hstarts, .inl ⟨hex, hends⟩⟩

/-! ### The special cases at the end -/

/-- The last occurrence is at or after every occurrence. -/
theorem le_lastOcc {h n p : ℕ} (hn : n ≤ invalidOfs) (hp : p < n) (hhash : hashAt src p = h) :
    lastOcc src h n ≠ invalidOfs ∧ p ≤ lastOcc src h n := by
  induction n with
  | zero => omega
  | succ n ih =>
    rw [lastOcc]
    split
    · omega
    · rename_i hne
      have hpn : p ≠ n := by
        rintro rfl
        exact hne hhash
      exact ih (by omega) (by omega)

/-- With tables that have the positions before `n` the tokens at the end are greedy, if the last two
bytes do not stand at a later one. -/
theorem greedy_tailTokens {inpos n : ℕ} (hsrc : src.length ≤ 2 ^ 16) (hn : n ≤ inpos)
    (hno : ∀ p, n ≤ p → ¬ IsMatch src inpos 2 p) :
    Greedy src inpos (tailTokens src (lastOcc src (hashAt src inpos) n) inpos) := by
  -- every match is one the tables have
  have hfound : ∀ p, IsMatch src inpos 2 p →
      lastOcc src (hashAt src inpos) n ≠ invalidOfs ∧ p ≤ lastOcc src (hashAt src inpos) n := by
    intro p hp
    have hpn : p < n := by
      by_contra hle
      exact hno p (by omega) hp
    have hinv : invalidOfs = 65535 := rfl
    have hfits := hp.fits
    exact le_lastOcc (by omega) hpn ((isMatch_two_iff hp.fits).1 hp).2.2
  -- there are no two bytes at the last position
  have hlast : ∀ ofs, inpos + 2 ≠ src.length → src.length ≤ inpos + 2 →
      ¬ IsMatch src inpos 2 ofs := by
    intro ofs hne hle hm
    have := hm.fits
    omega
  rw [tailTokens]
  split
  · rename_i hend
    split
    · rename_i hin
      have hm := isMatch_lastOcc hn hend.le hin.1 hin.2
      rw [greedy_singleton]
      refine Longest.greedyAt ⟨hm, ?_⟩
      intro ofs' len' hm'
      have := hm'.fits
      have := (hfound ofs' (hm'.shorten le_rfl hm'.two_le)).2
      omega
    · rename_i hin
      refine ⟨⟨by omega, rfl, ?_⟩, ⟨⟨by simp only [Token.size]; omega, rfl, ?_⟩, trivial⟩⟩
      · intro ofs hm
        obtain ⟨hne, hle⟩ := hfound ofs hm
        have := hm.window
        exact hin ⟨hne, by omega⟩
      · intro ofs hm
        have := hm.fits
        simp only [Token.size] at this
        omega
  · split
    · rename_i hne hend
      exact ⟨⟨by omega, rfl, fun ofs => hlast ofs hne (by omega)⟩, trivial⟩
    · trivial

/-- If they do, the tokens at the end are not greedy. -/
theorem not_greedy_tailTokens {inpos n p : ℕ} (hend : inpos + 2 = src.length) (hnp : n ≤ p)
    (hm : IsMatch src inpos 2 p) :
    ¬ Greedy src inpos (tailTokens src (lastOcc src (hashAt src inpos) n) inpos) := by
  rw [tailTokens, if_pos hend]
  split
  · rename_i hin
    rintro ⟨⟨-, hle, hlongest⟩, -⟩
    have hlt := ((lastOcc_spec src (hashAt src inpos) n).resolve_left hin.1).1
    have := hm.lt
    have := hlongest.beats p 2 hm
    omega
  · rintro ⟨⟨-, -, hno⟩, -⟩
    exact hno p hm

/-! ### All tokens -/

/-- The tokens `lzs_compress` emits: those of the main loop and those of the special cases, for
which the tables have the positions before `n`. -/
structure Parse (src : List UInt8) (ts : List Token) (inpos n : ℕ) : Prop where
  near : src.length ≤ inpos + 2
  le : src.length ≤ 2 ^ 16 ∧ n ≤ inpos
  sum : (ts.map Token.size).sum = inpos
  greedy : Greedy src 0 ts
  early : StartsEarly src ts
  tables : n = inpos ∧ EndsEarly src ts ∨
    ∃ us long offset length, ts = us ++ [.mtch long offset length] ∧
      n = (us.map Token.size).sum + 1

/-- If the greedy parse is not `Skipped`, the last two bytes stand at no position the tables
lack. -/
theorem Parse.greedy_of_not_skipped {ts : List Token} {inpos n : ℕ} (h : Parse src ts inpos n)
    (hno : ¬ Skipped src) :
    Greedy src 0 (ts ++ tailTokens src (lastOcc src (hashAt src inpos) n) inpos) := by
  rw [greedy_append, Nat.zero_add, h.sum]
  refine ⟨h.greedy, greedy_tailTokens h.le.1 h.le.2 ?_⟩
  intro p hp hm
  obtain ⟨rfl, -⟩ | ⟨us, long, offset, length, rfl, rfl⟩ := h.tables
  · exact absurd hm.lt (by omega)
  · have hsum := h.sum
    simp only [List.map_append, List.sum_append, List.map_cons, List.map_nil, List.sum_cons,
      List.sum_nil, Token.size] at hsum
    obtain rfl : (us.map Token.size).sum + length = inpos := by omega
    have hfits := hm.fits
    have hnear := h.near
    exact hno ⟨us, long, offset, length, p, h.greedy, by omega, by omega, hm⟩

theorem Parse.not_skipped_of_greedy {ts : List Token} {inpos n : ℕ} (h : Parse src ts inpos n)
    (hgreedy : Greedy src 0 (ts ++ tailTokens src (lastOcc src (hashAt src inpos) n) inpos)) :
    ¬ Skipped src := by
  rintro ⟨us, long, offset, length, p, hus, hend, hp, hm⟩
  have hsize : ((us ++ [Token.mtch long offset length]).map Token.size).sum =
      (us.map Token.size).sum + length := by simp [Token.size]
  have hnear := h.near
  -- the match is in the tokens of the main loop, and the last of them
  obtain ⟨vs, hvs⟩ := hus.isPrefix h.greedy (by rw [hsize, h.sum]; omega)
  obtain rfl : vs = [] := by
    cases vs with
    | nil => rfl
    | cons v vs =>
      have := h.early _ v vs hvs
      omega
  rw [List.append_nil] at hvs
  have hinpos : (us.map Token.size).sum + length = inpos := by rw [← hsize, ← hvs, h.sum]
  rw [hinpos] at hend hm
  rw [greedy_append, Nat.zero_add, h.sum] at hgreedy
  obtain ⟨-, hearly⟩ | ⟨us', long', offset', length', heq, rfl⟩ := h.tables
  · have := hearly _ _ _ _ hvs
    omega
  · obtain ⟨rfl, -⟩ := List.append_inj' (hvs.symm.trans heq) rfl
    exact not_greedy_tailTokens hend (by omega) hm hgreedy.2

theorem LoopEnds.parse {dstlen : ℕ} {hist : Hist} {w : Writer} {inpos : ℕ} {ts : List Token}
    (hsrc : src.length ≤ 2 ^ 16) (h : LoopEnds dstlen src hist w inpos ts) :
    ∃ n, Parse src ts inpos n ∧ hist.Exact src n := by
  have hsum := h.emitted.sum_size
  obtain ⟨hex, hearly⟩ | ⟨us, long, offset, length, heq, hex⟩ := h.tables
  · exact ⟨inpos, ⟨h.near, ⟨hsrc, le_rfl⟩, hsum, h.greedy, h.early, .inl ⟨rfl, hearly⟩⟩, hex⟩
  · have hlen : (us.map Token.size).sum + 1 ≤ inpos := by
      have hgreedy := h.greedy
      rw [heq, greedy_append, greedy_singleton] at hgreedy
      have := hgreedy.2.size_pos
      simp only [heq, List.map_append, List.sum_append, List.map_cons, List.map_nil,
        List.sum_cons, List.sum_nil] at hsum
      omega
    exact ⟨_, ⟨h.near, ⟨hsrc, hlen⟩, hsum, h.greedy, h.early,
      .inr ⟨us, long, offset, length, heq, rfl⟩⟩, hex⟩

/-- What `lzs_compress` writes is the encoding of such tokens. -/
theorem lzsCompress_parse {dstlen : ℕ} {chain₀ : ℕ → ℕ} {out : List UInt8}
    (h : lzsCompress dstlen src chain₀ = some (.ok out)) :
    ∃ ts inpos n, Parse src ts inpos n ∧
      Encodes out (ts ++ tailTokens src (lastOcc src (hashAt src inpos) n) inpos) := by
  rw [lzsCompress] at h
  split at h
  · cases h
  · rename_i hlen
    have hsrc : src.length ≤ 2 ^ 16 := by
      have hinv : invalidOfs = 65535 := rfl
      omega
    have hinit : Emitted dstlen src 0 ⟨0, 0, []⟩ [] :=
      ⟨⟨by simp, Nat.zero_le _⟩, rfl, Nat.zero_le _, trivial, by simp [WordLengths], rfl⟩
    have hstarts : StartsEarly src [] := fun us t vs heq => by simp at heq
    have hends : EndsEarly src [] := fun us _ _ _ heq => by simp at heq
    split at h
    · cases h
    · cases h
    · rename_i hist w inpos hloop
      obtain ⟨ts, hts⟩ := compressLoop_greedy hsrc (src.length + 1) (by omega) (.nil src chain₀)
        hinit trivial hstarts hends hloop
      obtain ⟨n, hparse, hex⟩ := hts.parse hsrc
      refine ⟨ts, inpos, n, hparse, ?_⟩
      rcases compressTail_spec hsrc hparse.near hparse.le.2 hex hts.emitted with
        ⟨hrun, -⟩ | ⟨w', hrun, hemit⟩
      · simp only [hrun] at h
        cases h
      · rw [hrun, show (Except.ok w' >>= putBits dstlen 16 0xc000) =
          putBits dstlen 16 0xc000 w' from rfl] at h
        rcases hemit.finish with ⟨hend, -⟩ | ⟨w'', tail, hend, -, hbits⟩
        · simp only [hend] at h
          cases h
        · simp only [hend] at h
          cases h
          exact ⟨hemit.valid.wf, tail, hbits⟩

/-- **LZS greedy parsing.**  For every input, buffer and initial content of the ring buffer: what
`lzs_compress` writes encodes one sequence of tokens, and every match among them is the nearest of
the longest of its window and every literal stands where there is no match, if and only if the
input is not `Skipped`. -/
theorem lzsCompress_greedy_iff (src : List UInt8) (dstlen : ℕ) (chain₀ : ℕ → ℕ) (out : List UInt8)
    (h : lzsCompress dstlen src chain₀ = some (.ok out)) :
    ∃ ts, Encodes out ts ∧ (∀ us, Encodes out us → us = ts) ∧
      (Greedy src 0 ts ↔ ¬ Skipped src) := by
  obtain ⟨ts, inpos, n, hparse, hencodes⟩ := lzsCompress_parse h
  exact ⟨_, hencodes, fun us hus => hencodes.unique hus,
    hparse.not_skipped_of_greedy, hparse.greedy_of_not_skipped⟩

theorem lzsCompress_greedy_iff_aaaa :
    ∃ ts, Encodes [48, 224, 92, 0] ts ∧ (∀ us, Encodes [48, 224, 92, 0] us → us = ts) ∧
      (Greedy [97, 97, 97, 97] 0 ts ↔ ¬ Skipped [97, 97, 97, 97]) :=
  lzsCompress_greedy_iff [97, 97, 97, 97] 8 (fun _ => 5) _ rfl

/-- The input `abcdabcbc`: the bytes `abc` at 4 are a match, inside which `bc` stands at 5. -/
def abcdabcbc : List UInt8 := [97, 98, 99, 100, 97, 98, 99, 98, 99]

/-- For the last two bytes `bc` the match at 1 is taken, six bytes back, and not the one at 5. -/
theorem not_greedy_abcdabcbc :
    ∃ out ts, lzsCompress 32 abcdabcbc (fun _ => 0) = some (.ok out) ∧ Encodes out ts ∧
      ¬ Greedy abcdabcbc 0 ts := by
  refine ⟨[48, 152, 140, 102, 76, 35, 134, 48, 0],
    [.lit 97, .lit 98, .lit 99, .lit 100, .mtch false 4 3, .mtch false 6 2], by decide,
    ⟨by decide, [false, false, false, false, false], by decide⟩, ?_⟩
  rintro ⟨-, -, -, -, -, ⟨-, -, hlongest⟩, -⟩
  have hm : IsMatch abcdabcbc 7 2 5 := ⟨by decide, by decide, by decide, by decide, by decide⟩
  exact absurd (hlongest.beats 5 2 hm) (by decide)

end Lzs

end Ocserv
