import Ocserv.Lzs.Writer

/-!
# `lzs_compress`

The encoder of `src/lzs.c`.  A loop of the source whose end is not evident from its text takes a
fuel argument and is `none` without fuel; the invariants below show that the fuel given is
enough.  The initial contents of `hash_chain`, which the source leaves uninitialised, are an
argument.

The invariant of the history is `Hist.Exact`: the hash table holds the last position of every
pair of bytes, and the ring buffer the position before of every pair it has not overwritten.
-/

namespace Ocserv

namespace Lzs

/-- `INVALID_OFS`. -/
def invalidOfs : ℕ := 0xffff

/-- `MAX_HISTORY`. -/
def maxHistory : ℕ := 1 <<< 11

/-- `HASH(src + pos)`, read as a little-endian `uint16_t`. -/
def hashAt (src : List UInt8) (pos : ℕ) : ℕ :=
  (src.getD pos 0).toNat + 256 * (src.getD (pos + 1) 0).toNat

/-- `hash_table` and `hash_chain`. -/
structure Hist where
  table : ℕ → ℕ
  chain : ℕ → ℕ

/-- Enter the position `pos` in the tables. -/
def Hist.enter (src : List UInt8) (pos : ℕ) (hist : Hist) : Hist :=
  let hash := hashAt src pos
  ⟨Function.update hist.table hash (u16 pos),
    Function.update hist.chain (pos &&& (maxHistory - 1)) (hist.table hash)⟩

/-- Enter the `n` positions from `pos` on. -/
def Hist.enterRange (src : List UInt8) : ℕ → ℕ → Hist → Hist
  | _, 0, hist => hist
  | pos, n + 1, hist => Hist.enterRange src (pos + 1) n (hist.enter src pos)

/-- The `do` loop that makes a match of `len` bytes longer; the flag says that it left by
`goto got_match`. -/
def extendMatch (src : List UInt8) (hofs inpos : ℕ) : ℕ → ℕ → Option (ℕ × Bool)
  | 0, _ => none
  | fuel + 1, len =>
    let len := u16 (len + 1)
    if len + inpos = src.length then some (len, true)
    else if src.getD (len + inpos) 0 = src.getD (len + hofs) 0 then
      extendMatch src hofs inpos fuel len
    else some (len, false)

/-- The walk along the hash chain from `hofs`, with the longest match so far. -/
def findMatch (src : List UInt8) (chain : ℕ → ℕ) (inpos : ℕ) :
    ℕ → ℕ → ℕ × ℕ → Option (ℕ × ℕ)
  | 0, _, _ => none
  | fuel + 1, hofs, (len, ofs) =>
    if hofs ≠ invalidOfs ∧ hofs + maxHistory > inpos then
      let next := chain (hofs &&& (maxHistory - 1))
      -- `memcmp` of `len - 1` bytes
      if ∀ k < len - 1, src.getD (hofs + 2 + k) 0 = src.getD (inpos + 2 + k) 0 then
        match extendMatch src hofs inpos src.length len with
        | none => none
        | some (len, true) => some (len, hofs)
        | some (len, false) => findMatch src chain inpos fuel next (len, hofs)
      else findMatch src chain inpos fuel next (len, ofs)
    else some (len, ofs)

/-- The main loop of `lzs_compress`, up to the special cases at the end. -/
def compressLoop (dstlen : ℕ) (src : List UInt8) :
    ℕ → Hist → Writer → ℕ → Option (Except Err (Hist × Writer × ℕ))
  | 0, _, _, _ => none
  | fuel + 1, hist, w, inpos =>
    if inpos + 2 < src.length then
      let hofs := hist.table (hashAt src inpos)
      let hist := hist.enter src inpos
      if hofs = invalidOfs ∨ hofs + maxHistory ≤ inpos then
        match putBits dstlen 9 (src.getD inpos 0).toNat w with
        | .error e => some (.error e)
        | .ok w => compressLoop dstlen src fuel hist w (inpos + 1)
      else
        match findMatch src hist.chain inpos maxHistory hofs (2, hofs) with
        | none => none
        | some (len, ofs) =>
          match putOffset dstlen (inpos - ofs) w >>= putLength dstlen len with
          | .error e => some (.error e)
          | .ok w =>
            if inpos + len + 2 ≥ src.length then some (.ok (hist, w, inpos + len))
            else compressLoop dstlen src fuel (hist.enterRange src (inpos + 1) (len - 1)) w
              (inpos + 1 + (len - 1))
    else some (.ok (hist, w, inpos))

/-- The special cases at the end, when fewer than three bytes are left. -/
def compressTail (dstlen : ℕ) (src : List UInt8) (hist : Hist) (w : Writer) (inpos : ℕ) :
    Except Err Writer :=
  if inpos + 2 = src.length then
    let hofs := hist.table (hashAt src inpos)
    if hofs ≠ invalidOfs ∧ hofs + maxHistory > inpos then
      -- the length is 2 bytes
      putOffset dstlen (inpos - hofs) w >>= putBits dstlen 2 0
    else
      putBits dstlen 9 (src.getD inpos 0).toNat w >>=
        putBits dstlen 9 (src.getD (inpos + 1) 0).toNat
  else if inpos + 1 = src.length then putBits dstlen 9 (src.getD inpos 0).toNat w
  else .ok w

/-- `lzs_compress`: an error, or the bytes written to `dst`, whose number is returned. -/
def lzsCompress (dstlen : ℕ) (src : List UInt8) (chain₀ : ℕ → ℕ) :
    Option (Except Err (List UInt8)) :=
  if src.length > invalidOfs + 1 then some (.error .efbig)
  else
    match compressLoop dstlen src (src.length + 1) ⟨fun _ => 0xffff, chain₀⟩ ⟨0, 0, []⟩ 0 with
    | none => none
    | some (.error e) => some (.error e)
    | some (.ok (hist, w, inpos)) =>
      -- the end marker, with seven trailing zero bits
      match compressTail dstlen src hist w inpos >>= putBits dstlen 16 0xc000 with
      | .error e => some (.error e)
      | .ok w => some (.ok w.out)

/-! ### The history -/

/-- The last position before `n` with hash `h`, or `invalidOfs`. -/
def lastOcc (src : List UInt8) (h : ℕ) : ℕ → ℕ
  | 0 => invalidOfs
  | n + 1 => if hashAt src n = h then n else lastOcc src h n

theorem lastOcc_spec (src : List UInt8) (h n : ℕ) :
    lastOcc src h n = invalidOfs ∨ (lastOcc src h n < n ∧ hashAt src (lastOcc src h n) = h) := by
  induction n with
  | zero => exact .inl rfl
  | succ n ih =>
    rw [lastOcc]
    split
    · exact .inr ⟨n.lt_succ_self, ‹_›⟩
    · exact ih.imp_right fun h => ⟨h.1.trans n.lt_succ_self, h.2⟩

/-- The tables after the positions before `n` have been entered. -/
structure Hist.Exact (src : List UInt8) (n : ℕ) (hist : Hist) : Prop where
  table_eq : ∀ h, hist.table h = lastOcc src h n
  chain_eq : ∀ p < n, n ≤ p + maxHistory →
    hist.chain (p &&& (maxHistory - 1)) = lastOcc src (hashAt src p) p

theorem Hist.Exact.nil (src : List UInt8) (chain₀ : ℕ → ℕ) :
    Hist.Exact src 0 ⟨fun _ => 0xffff, chain₀⟩ :=
  ⟨fun _ => rfl, by simp⟩

theorem and_history (p : ℕ) : p &&& (maxHistory - 1) = p % maxHistory := by
  rw [maxHistory, Nat.one_shiftLeft, Nat.and_two_pow_sub_one_eq_mod]

/-- The slots of the last `maxHistory` positions are different. -/
theorem Hist.Exact.enter {src : List UInt8} {n : ℕ} {hist : Hist} (h : hist.Exact src n)
    (hn : n < 2 ^ 16) : (hist.enter src n).Exact src (n + 1) := by
  refine ⟨fun x => ?_, fun p hp hnp => ?_⟩
  · simp only [Hist.enter, lastOcc, u16, Nat.mod_eq_of_lt hn]
    split
    · rename_i heq
      rw [← heq, Function.update_self]
    · rw [Function.update_of_ne (Ne.symm ‹_›), h.table_eq]
  · simp only [Hist.enter]
    rcases Nat.lt_or_eq_of_le (Nat.le_of_lt_succ hp) with hlt | rfl
    · rw [Function.update_of_ne, h.chain_eq p hlt (by omega)]
      rw [and_history, and_history]
      simp only [show maxHistory = 2048 from rfl] at hnp ⊢
      omega
    · rw [Function.update_self, h.table_eq]

theorem Hist.Exact.enterRange {src : List UInt8} (k : ℕ) {n : ℕ} {hist : Hist}
    (h : hist.Exact src n) (hn : n + k ≤ 2 ^ 16) :
    (hist.enterRange src n k).Exact src (n + k) := by
  induction k generalizing n hist with
  | zero => exact h
  | succ k ih =>
    rw [Hist.enterRange, ← Nat.add_assoc, Nat.add_right_comm]
    exact ih (h.enter (by omega)) (by omega)

end Lzs

end Ocserv
