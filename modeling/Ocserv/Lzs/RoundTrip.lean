import Ocserv.Lzs.Walk
import Ocserv.Lzs.Conformance

/-!
# LZS round trip

`lzs_compress` emits the encoding of valid tokens that expand to its input
(`lzsCompress_emits`), so `lzs_decompress` gives the input back.  A match found by the walk along
the hash chain (`IsMatch`) is a copy from inside the window; the tables give it because they are
exact (`Hist.Exact`).  `compressLoop_step` says what one turn of the main loop does.
-/

namespace Ocserv

namespace Lzs

variable {src : List UInt8}

/-! ### The tokens emitted -/

/-- The bits written are those of tokens that stand for the first `inpos` bytes. -/
structure Emitted (dstlen : ℕ) (src : List UInt8) (inpos : ℕ) (w : Writer) (ts : List Token) :
    Prop where
  ok : w.Ok dstlen
  bits : w.bits = tokenBits ts
  le : inpos ≤ src.length
  valid : Valid 0 ts
  words : WordLengths ts
  expand : expand [] ts = src.take inpos

theorem Emitted.sum_size {dstlen inpos : ℕ} {w : Writer} {ts : List Token}
    (h : Emitted dstlen src inpos w ts) : (ts.map Token.size).sum = inpos := by
  have hlen := length_expand [] ts
  rw [h.expand, List.length_take, Nat.min_eq_left h.le] at hlen
  simpa using hlen.symm

theorem length_tokenBits_le {ts : List Token} (h : ∀ t ∈ ts, t.Wf) :
    (tokenBits ts).length ≤ 9 * (ts.map Token.size).sum := by
  induction ts with
  | nil => simp
  | cons t ts ih =>
    have h₁ := Token.length_bits_le (h t List.mem_cons_self)
    have h₂ := ih fun t ht => h t (List.mem_cons_of_mem _ ht)
    simp only [tokenBits_cons, List.length_append, List.map_cons, List.sum_cons]
    omega

/-- The result of emitting the token that takes the input from `inpos` to `inpos'`. -/
theorem Emitted.token {dstlen inpos : ℕ} {w : Writer} {ts : List Token}
    (h : Emitted dstlen src inpos w ts) {t : Token} (hv : Valid inpos [t])
    (hw : WordLengths [t]) (hle : inpos + t.size ≤ src.length)
    (hexp : t.apply (src.take inpos) = src.take (inpos + t.size)) {res : Except Err Writer}
    (hres : Writes dstlen w t.bits res) :
    (res = .error .efbig ∧ 8 * dstlen + 8 ≤ 9 * src.length) ∨
    ∃ w', res = .ok w' ∧ Emitted dstlen src (inpos + t.size) w' (ts ++ [t]) := by
  cases res with
  | error e =>
    obtain ⟨rfl, hlen⟩ := hres
    have h₁ := length_tokenBits_le h.valid.wf
    have h₂ := Token.length_bits_le (hv.wf t List.mem_cons_self)
    rw [h.sum_size] at h₁
    rw [h.bits] at hlen
    exact .inl ⟨rfl, by omega⟩
  | ok w' =>
    obtain ⟨hok, hbits⟩ := hres
    refine .inr ⟨w', rfl, hok, ?_, hle, ?_, ?_, ?_⟩
    · rw [hbits, h.bits, tokenBits_append, tokenBits_cons, tokenBits_nil, List.append_nil]
    · rw [valid_append, h.sum_size, Nat.zero_add]
      exact ⟨h.valid, hv⟩
    · intro long offset length hm
      rcases List.mem_append.1 hm with hm | hm
      · exact h.words _ _ _ hm
      · exact hw _ _ _ hm
    · rw [expand_append, h.expand, expand_cons, expand_nil, hexp]

theorem Emitted.lit {dstlen inpos : ℕ} {w : Writer} {ts : List Token}
    (h : Emitted dstlen src inpos w ts) (hlt : inpos < src.length) :
    (putBits dstlen 9 (src.getD inpos 0).toNat w = .error .efbig ∧
      8 * dstlen + 8 ≤ 9 * src.length) ∨
    ∃ w', putBits dstlen 9 (src.getD inpos 0).toNat w = .ok w' ∧
      Emitted dstlen src (inpos + 1) w' (ts ++ [.lit (src.getD inpos 0)]) := by
  have hb := (src.getD inpos 0).toNat_lt
  refine h.token (t := .lit (src.getD inpos 0)) (by simp [Valid, Token.Wf])
    (by simp [WordLengths]) hlt ?_ (putBits_writes h.ok (by omega) (by omega))
  rw [Token.apply, Token.size, List.getD_eq_getElem _ _ hlt, List.take_append_getElem]

theorem Emitted.mtch {dstlen inpos len ofs : ℕ} {w : Writer} {ts : List Token}
    (hsrc : src.length ≤ 2 ^ 16) (h : Emitted dstlen src inpos w ts)
    (hm : IsMatch src inpos len ofs) {res : Except Err Writer}
    (hres : Writes dstlen w (offsetBits (decide (0x80 ≤ inpos - ofs)) (inpos - ofs) ++
      lengthBits len) res) :
    (res = .error .efbig ∧ 8 * dstlen + 8 ≤ 9 * src.length) ∨
    ∃ w', res = .ok w' ∧ Emitted dstlen src (inpos + len) w'
      (ts ++ [.mtch (decide (0x80 ≤ inpos - ofs)) (inpos - ofs) len]) := by
  obtain ⟨hlt, hwin, h2, hfits, heq⟩ := hm
  simp only [show maxHistory = 2048 from rfl] at hwin
  refine h.token (t := .mtch (decide (0x80 ≤ inpos - ofs)) (inpos - ofs) len) ?_ ?_ hfits ?_ hres
  · refine ⟨⟨⟨?_, h2⟩, by omega, by omega⟩, trivial⟩
    by_cases hlong : 0x80 ≤ inpos - ofs
    · simp only [hlong, decide_true, if_true]; omega
    · simp only [hlong, decide_false, Bool.false_eq_true, if_false]; omega
  · intro long offset length hm
    simp only [List.mem_singleton, Token.mtch.injEq] at hm
    omega
  · refine copyBack_eq_take (by omega) (by omega) len hfits ?_
    intro k hk
    rw [Nat.sub_sub_self hlt.le]
    exact heq k hk

/-! ### The main loop -/

/-- What one turn of the main loop does in a state where `ts` was emitted: the buffer is too small;
or it emits a greedy token and goes on, with tables that have all positions up to the end of the
token; or the token is a match that leaves at most two bytes, and the loop ends with tables that
have only the first position of the match. -/
inductive LoopStep (dstlen : ℕ) (src : List UInt8) (fuel inpos : ℕ) (ts : List Token) :
    Option (Except Err (Hist × Writer × ℕ)) → Prop
  | full (hlen : 8 * dstlen + 8 ≤ 9 * src.length) :
      LoopStep dstlen src fuel inpos ts (some (.error .efbig))
  | next {t : Token} {hist : Hist} {w : Writer} (ht : t.GreedyAt src inpos) (hpos : 1 ≤ t.size)
      (hgo : t.size = 1 ∨ inpos + t.size + 2 < src.length) (hex : hist.Exact src (inpos + t.size))
      (hemit : Emitted dstlen src (inpos + t.size) w (ts ++ [t])) :
      LoopStep dstlen src fuel inpos ts (compressLoop dstlen src fuel hist w (inpos + t.size))
  | last {long : Bool} {offset length : ℕ} {hist : Hist} {w : Writer}
      (ht : Token.GreedyAt src inpos (.mtch long offset length)) (hpos : 1 ≤ length)
      (hend : src.length ≤ inpos + length + 2) (hex : hist.Exact src (inpos + 1))
      (hemit : Emitted dstlen src (inpos + length) w (ts ++ [.mtch long offset length])) :
      LoopStep dstlen src fuel inpos ts (some (.ok (hist, w, inpos + length)))

/-- The last position with the two bytes at `inpos`, if it is in the window, is a match. -/
theorem isMatch_lastOcc {inpos n : ℕ} (hn : n ≤ inpos) (hfits : inpos + 2 ≤ src.length)
    (hne : lastOcc src (hashAt src inpos) n ≠ invalidOfs)
    (hwin : lastOcc src (hashAt src inpos) n + maxHistory > inpos) :
    IsMatch src inpos 2 (lastOcc src (hashAt src inpos) n) := by
  obtain ⟨hlt, hhash⟩ := (lastOcc_spec src _ _).resolve_left hne
  exact (isMatch_two_iff hfits).2 ⟨by omega, hwin, hhash⟩

/-- Where the last occurrence is not in the window there is no match. -/
theorem not_isMatch_of_lastOcc {inpos : ℕ} (hinpos : inpos ≤ invalidOfs)
    (h : lastOcc src (hashAt src inpos) inpos = invalidOfs ∨
      lastOcc src (hashAt src inpos) inpos + maxHistory ≤ inpos) (ofs : ℕ) :
    ¬ IsMatch src inpos 2 ofs := by
  intro hm
  have hmem := mem_candidates.2 ((isMatch_two_iff hm.fits).1 hm)
  rw [candidates_eq hinpos] at hmem
  dsimp only at hmem
  rw [if_neg (by omega)] at hmem
  exact List.not_mem_nil hmem

theorem compressLoop_step {dstlen fuel inpos : ℕ} {hist : Hist} {w : Writer} {ts : List Token}
    (hsrc : src.length ≤ 2 ^ 16) (hlt : inpos + 2 < src.length) (hex : hist.Exact src inpos)
    (hemit : Emitted dstlen src inpos w ts) :
    LoopStep dstlen src fuel inpos ts (compressLoop dstlen src (fuel + 1) hist w inpos) := by
  have hinv : inpos ≤ invalidOfs := by
    have : invalidOfs = 65535 := rfl
    omega
  have hex' := hex.enter (by omega)
  rw [compressLoop, if_pos hlt]
  simp only [hex.table_eq (hashAt src inpos)]
  by_cases hin : lastOcc src (hashAt src inpos) inpos = invalidOfs ∨
    lastOcc src (hashAt src inpos) inpos + maxHistory ≤ inpos
  · rw [if_pos hin]
    rcases hemit.lit (by omega) with ⟨hrun, hlen⟩ | ⟨w', hrun, hemit'⟩
    · rw [hrun]
      exact .full hlen
    · rw [hrun]
      have ht : Token.GreedyAt src inpos (.lit (src.getD inpos 0)) :=
        ⟨by omega, rfl, not_isMatch_of_lastOcc hinv hin⟩
      exact .next ht le_rfl (.inl rfl) hex' hemit'
  · rw [if_neg hin]
    obtain ⟨len, ofs, hfind, hlongest⟩ := findMatch_longest hsrc hlt hex' hin
    have hm := hlongest.isMatch
    have h2 := hm.two_le
    have hfits := hm.fits
    have hofs_lt : inpos - ofs < 0x800 := by
      have := hm.window
      simp only [show maxHistory = 2048 from rfl] at this
      omega
    rw [hfind]
    dsimp only
    rcases hemit.mtch hsrc hm ((putOffset_writes hemit.ok hofs_lt).bind
      fun w' hw' => putLength_writes hw' h2) with ⟨hrun, hlen⟩ | ⟨w', hrun, hemit'⟩
    · rw [hrun]
      exact .full hlen
    · rw [hrun]
      dsimp only
      split
      · exact .last hlongest.greedyAt (by omega) (by omega) hex' hemit'
      · have hpos : inpos + 1 + (len - 1) = inpos + len := by omega
        have hrange := hex'.enterRange (len - 1) (by omega)
        rw [hpos] at hrange ⊢
        exact .next hlongest.greedyAt (by simp only [Token.size]; omega)
          (.inr (by simp only [Token.size]; omega)) hrange hemit'

/-- A result of the main loop: too small a buffer, or everything but at most two bytes is
emitted and the tables hold positions emitted. -/
def LoopDone (dstlen : ℕ) (src : List UInt8) : Except Err (Hist × Writer × ℕ) → Prop
  | .error e => e = .efbig ∧ 8 * dstlen + 8 ≤ 9 * src.length
  | .ok (hist, w, inpos) => src.length ≤ inpos + 2 ∧ (∃ n ≤ inpos, hist.Exact src n) ∧
      ∃ ts, Emitted dstlen src inpos w ts

theorem compressLoop_spec {dstlen : ℕ} (hsrc : src.length ≤ 2 ^ 16) :
    ∀ (fuel : ℕ) {inpos : ℕ} {hist : Hist} {w : Writer} {ts : List Token},
      src.length < inpos + fuel → hist.Exact src inpos → Emitted dstlen src inpos w ts →
      ∃ res, compressLoop dstlen src fuel hist w inpos = some res ∧ LoopDone dstlen src res := by
  intro fuel
  induction fuel with
  | zero => intro inpos hist w ts hfuel _ hemit; have := hemit.le; omega
  | succ fuel ih =>
    intro inpos hist w ts hfuel hex hemit
    by_cases hlt : inpos + 2 < src.length
    · have hstep : LoopStep dstlen src fuel inpos ts _ := compressLoop_step hsrc hlt hex hemit
      generalize compressLoop dstlen src (fuel + 1) hist w inpos = res at hstep
      cases hstep with
      | full hlen => exact ⟨_, rfl, rfl, hlen⟩
      | next ht hpos hgo hex' hemit' => exact ih (by omega) hex' hemit'
      | last ht hpos hend hex' hemit' =>
        exact ⟨_, rfl, by omega, ⟨inpos + 1, by omega, hex'⟩, _, hemit'⟩
    · rw [compressLoop, if_neg hlt]
      exact ⟨_, rfl, by omega, ⟨inpos, le_rfl, hex⟩, ts, hemit⟩

/-- The tokens of the special cases at the end, if the hash table has `hofs` for the last two
bytes. -/
def tailTokens (src : List UInt8) (hofs inpos : ℕ) : List Token :=
  if inpos + 2 = src.length then
    if hofs ≠ invalidOfs ∧ hofs + maxHistory > inpos then
      [.mtch (decide (0x80 ≤ inpos - hofs)) (inpos - hofs) 2]
    else [.lit (src.getD inpos 0), .lit (src.getD (inpos + 1) 0)]
  else if inpos + 1 = src.length then [.lit (src.getD inpos 0)]
  else []

theorem compressTail_spec {dstlen inpos n : ℕ} {hist : Hist} {w : Writer} {ts : List Token}
    (hsrc : src.length ≤ 2 ^ 16) (hle : src.length ≤ inpos + 2) (hn : n ≤ inpos)
    (hex : hist.Exact src n) (hemit : Emitted dstlen src inpos w ts) :
    (compressTail dstlen src hist w inpos = .error .efbig ∧ 8 * dstlen + 8 ≤ 9 * src.length) ∨
    ∃ w', compressTail dstlen src hist w inpos = .ok w' ∧
      Emitted dstlen src src.length w'
        (ts ++ tailTokens src (lastOcc src (hashAt src inpos) n) inpos) := by
  rw [compressTail, tailTokens]
  split
  · rename_i heq
    have hofs := hex.table_eq (hashAt src inpos)
    simp only [hofs]
    split
    · rename_i hin
      have hm := isMatch_lastOcc hn heq.le hin.1 hin.2
      have hofs_lt : inpos - lastOcc src (hashAt src inpos) n < 0x800 := by
        have := hm.window
        simp only [show maxHistory = 2048 from rfl] at this
        omega
      have hres := hemit.mtch hsrc hm ((putOffset_writes hemit.ok hofs_lt).bind
        fun w' hw' => putBits_writes hw' (by omega) (by omega))
      rwa [heq] at hres
    · rcases hemit.lit (by omega) with ⟨hrun, hlen⟩ | ⟨w', hrun, hemit'⟩
      · rw [hrun]
        exact .inl ⟨rfl, hlen⟩
      · rw [hrun]
        have hres := hemit'.lit (by omega)
        rwa [show inpos + 1 + 1 = src.length by omega, List.append_assoc] at hres
  · split
    · rename_i heq
      have hres := hemit.lit (by omega)
      rwa [heq] at hres
    · obtain rfl : inpos = src.length := by have := hemit.le; omega
      exact .inr ⟨w, rfl, by rwa [List.append_nil]⟩

/-! ### The encoder -/

/-- The end marker: the bits that stay pending after it are zeros of its padding. -/
theorem Emitted.finish {dstlen : ℕ} {w : Writer} {ts : List Token}
    (h : Emitted dstlen src src.length w ts) :
    (putBits dstlen 16 0xc000 w = .error .efbig ∧ 8 * dstlen < 9 * src.length + 9) ∨
    ∃ w' tail, putBits dstlen 16 0xc000 w = .ok w' ∧ w'.out.length ≤ dstlen ∧
      bytesToBits w'.out = tokenBits ts ++ (endMarker ++ tail) := by
  have hlen := length_tokenBits_le h.valid.wf
  rw [h.sum_size] at hlen
  have hw : Writes dstlen w (bitsOf 16 0xc000) (putBits dstlen 16 0xc000 w) :=
    putBits_writes h.ok (by omega) (by omega)
  cases hrun : putBits dstlen 16 0xc000 w with
  | error e =>
    rw [hrun] at hw
    obtain ⟨rfl, hbig⟩ := hw
    rw [h.bits, length_bitsOf] at hbig
    exact .inl ⟨rfl, by omega⟩
  | ok w' =>
    rw [hrun] at hw
    obtain ⟨⟨hpend, hfit⟩, hbits⟩ := hw
    have hmark : bitsOf 16 0xc000 = endMarker ++ bitsOf 7 0 := rfl
    rw [h.bits, hmark, Writer.bits, ← List.append_assoc (tokenBits ts)] at hbits
    -- at most seven bits are pending, so they are a part of the seven zeros
    obtain ⟨tail, htail, hpad⟩ | ⟨tail, htail, -⟩ := List.append_eq_append_iff.1 hbits
    · have hnil : tail = [] := by
        have := congrArg List.length hpad
        rw [List.length_append, length_bitsOf, length_bitsOf] at this
        exact List.length_eq_zero_iff.1 (by omega)
      exact .inr ⟨w', [], rfl, hfit, by rw [← List.append_assoc, List.append_nil, htail, hnil,
        List.append_nil]⟩
    · exact .inr ⟨w', tail, rfl, hfit, by rw [htail, List.append_assoc]⟩

/-- **What `lzs_compress` writes.**  The encoder ends; it fails only with a buffer that does not
hold the input as literals and an end marker; otherwise it writes the encoding of valid tokens
that stand for the input. -/
theorem lzsCompress_emits (hsrc : src.length ≤ 2 ^ 16) (dstlen : ℕ) (chain₀ : ℕ → ℕ) :
    (lzsCompress dstlen src chain₀ = some (.error .efbig) ∧ 8 * dstlen < 9 * src.length + 9) ∨
    ∃ out ts tail, lzsCompress dstlen src chain₀ = some (.ok out) ∧ out.length ≤ dstlen ∧
      bytesToBits out = tokenBits ts ++ (endMarker ++ tail) ∧ Valid 0 ts ∧ WordLengths ts ∧
      expand [] ts = src := by
  have hinit : Emitted dstlen src 0 ⟨0, 0, []⟩ [] :=
    ⟨⟨by simp, Nat.zero_le _⟩, rfl, Nat.zero_le _, trivial, by simp [WordLengths], rfl⟩
  obtain ⟨res, hloop, hdone⟩ := compressLoop_spec hsrc (src.length + 1) (by omega)
    (.nil src chain₀) hinit
  rw [lzsCompress, if_neg (by simp only [invalidOfs]; omega), hloop]
  cases res with
  | error e =>
    obtain ⟨rfl, hlen⟩ := hdone
    exact .inl ⟨rfl, by omega⟩
  | ok res =>
    obtain ⟨hist, w, inpos⟩ := res
    obtain ⟨hle, ⟨n, hn, hex⟩, ts, hemit⟩ := hdone
    simp only
    rcases compressTail_spec hsrc hle hn hex hemit with ⟨hrun, hlen⟩ | ⟨w', hrun, hemit'⟩
    · rw [hrun]
      exact .inl ⟨rfl, by omega⟩
    · rw [hrun]
      rw [show (Except.ok w' >>= putBits dstlen 16 0xc000) = putBits dstlen 16 0xc000 w' from rfl]
      rcases hemit'.finish with ⟨hend, hlen⟩ | ⟨w'', tail, hend, hfit, hbits⟩
      · rw [hend]
        exact .inl ⟨rfl, hlen⟩
      · rw [hend]
        exact .inr ⟨w''.out, _, tail, rfl, hfit, hbits, hemit'.valid, hemit'.words,
          by rw [hemit'.expand, List.take_length]⟩

/-- **LZS round trip.**  Of an input of at most 65536 bytes `lzs_compress` writes at most
`dstlen` bytes, which `lzs_decompress` turns back into the input in every buffer large enough;
or it reports that the buffer is too small, and then the buffer does not hold the input as
literals and an end marker. -/
theorem lzsDecompress_lzsCompress (src : List UInt8) (hsrc : src.length ≤ 65536) (dstlen : ℕ)
    (chain₀ : ℕ → ℕ) :
    (lzsCompress dstlen src chain₀ = some (.error .efbig) ∧ 8 * dstlen < 9 * src.length + 9) ∨
    ∃ out, lzsCompress dstlen src chain₀ = some (.ok out) ∧ out.length ≤ dstlen ∧
      ∀ dst dstlen', src.length ≤ dstlen' →
        (lzsDecompress dst dstlen' out).1 = .ok src.length ∧
        ∀ i < src.length, (lzsDecompress dst dstlen' out).2 i = src.getD i 0 := by
  refine (lzsCompress_emits hsrc dstlen chain₀).imp_right ?_
  rintro ⟨out, ts, tail, hrun, hfit, hbits, hv, hw, hexp⟩
  refine ⟨out, hrun, hfit, ?_⟩
  intro dst dstlen' hle
  have hdec : Decodes (exec dstlen' ⟨dst, 0⟩ ts) dstlen' (expand [] ts) :=
    exec_decodes (.nil dst) hv hw (by rw [hexp, intMax]; omega) (Nat.zero_le _)
  rwa [← lzsDecompress_tokens hv hbits, hexp, Decodes, if_pos hle] at hdec

theorem lzsDecompress_lzsCompress_aaaa :
    (lzsCompress 8 [97, 97, 97, 97] (fun _ => 5) = some (.error .efbig) ∧ 8 * 8 < 9 * 4 + 9) ∨
    ∃ out, lzsCompress 8 [97, 97, 97, 97] (fun _ => 5) = some (.ok out) ∧ out.length ≤ 8 ∧
      ∀ dst dstlen', 4 ≤ dstlen' →
        (lzsDecompress dst dstlen' out).1 = .ok 4 ∧
        ∀ i < 4, (lzsDecompress dst dstlen' out).2 i = [97, 97, 97, 97].getD i 0 :=
  lzsDecompress_lzsCompress [97, 97, 97, 97] (by decide) 8 _

end Lzs

end Ocserv
