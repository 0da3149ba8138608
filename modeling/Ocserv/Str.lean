import Mathlib.Data.List.TakeDrop
import Mathlib.Tactic.Ring
import Ocserv.Machine

/-!
# String buffers

`src/str.c` and `src/str.h`: the buffer `str_st` and the functions that append to it.  Pointers are
`none` for `NULL` and offsets into the allocated block; `talloc` refuses a size of zero (which
frees) and sizes from `MAX_TALLOC_SIZE` on.

* `strAppendData_holds` : what an append does to a buffer that holds a text.
* `represents_iff` : **along a run the buffer holds what was appended exactly if no empty text is
  appended before the first allocation, and no size makes the buffer smaller than its text.**
-/

namespace Ocserv

namespace Str

/-! ### The functions of the source -/

/-- `size_t` arithmetic. -/
def sizeT (n : ℕ) : ℕ := n % 2 ^ 64

/-- A `size_t` as an `int`. -/
def toInt (n : ℕ) : ℤ := if n % 2 ^ 32 < 2 ^ 31 then (n % 2 ^ 32 : ℕ) else (n % 2 ^ 32 : ℕ) - 2 ^ 32

/-- `ERR_MEM`. -/
def errMem : ℤ := -6

/-- `MIN_CHUNK`. -/
def minChunk : ℕ := 64

/-- An access through `NULL`, or outside of the block. -/
inductive Failure where
  | null
  | outside
  deriving DecidableEq, Repr

/-- `str_st`, without its pool. -/
structure StrSt where
  /-- The bytes of the block. -/
  allocd : Option (List UInt8)
  /-- An offset in the block. -/
  data : Option ℕ
  maxLength : ℕ
  length : ℕ
  deriving DecidableEq, Repr

/-- `talloc_realloc_size`; new bytes are those of `fresh`. -/
def tallocRealloc (fresh : ℕ → UInt8) (ptr : Option (List UInt8)) (size : ℕ) :
    Option (List UInt8) :=
  if size = 0 ∨ 0x7FFFFFFF ≤ size then none
  else some ((ptr.getD []).take size ++ (List.range (size - (ptr.getD []).length)).map fresh)

/-- `memcpy` of `bytes` to the offset `pos` of the data. -/
def poke (dest : StrSt) (pos : ℕ) (bytes : List UInt8) : Except Failure StrSt :=
  if bytes = [] then .ok dest
  else
    match dest.data, dest.allocd with
    | none, _ => .error .null
    | some _, none => .error .outside
    | some d, some block =>
      if d + pos + bytes.length ≤ block.length then
        .ok { dest with
          allocd := some (block.take (d + pos) ++ bytes ++ block.drop (d + pos + bytes.length)) }
      else .error .outside

/-- The text of the buffer is moved to the start of its block. -/
def moveFront (dest : StrSt) : Except Failure StrSt :=
  match dest.data, dest.allocd with
  | some d, some block =>
    if dest.length = 0 then .ok { dest with data := some 0 }
    else if d + dest.length ≤ block.length then
      .ok { dest with
        allocd := some ((block.drop d).take dest.length ++ block.drop dest.length)
        data := some 0 }
    else .error .outside
  | _, block => .ok { dest with data := block.map fun _ => 0 }

/-- `str_init`. -/
def strInit : StrSt := ⟨none, none, 0, 0⟩

/-- `str_reset`. -/
def strReset (buf : StrSt) : StrSt := { buf with data := buf.allocd.map fun _ => 0, length := 0 }

/-- `str_clear`. -/
def strClear (str : StrSt) : StrSt := if str.allocd = none then str else strInit

/-- `new_len` of `str_append_size`. -/
def newLen (dest : StrSt) (dataSize : ℕ) : ℕ :=
  sizeT (max dataSize minChunk + max dest.maxLength minChunk)

/-- `str_append_size`: the buffer and the result. -/
def strAppendSize (fresh : ℕ → UInt8) (dest : StrSt) (dataSize : ℕ) :
    Except Failure (StrSt × ℤ) :=
  let totLen := sizeT (dataSize + dest.length)
  let unused := dest.data.getD 0
  if dataSize = 0 then .ok (dest, 0)
  else if sizeT (totLen + 1) ≤ dest.maxLength then
    if sizeT (dest.maxLength + 2 ^ 64 - unused) ≤ totLen then do
      let dest ← moveFront dest
      return (dest, toInt totLen)
    else .ok (dest, toInt totLen)
  else
    match tallocRealloc fresh dest.allocd (sizeT (newLen dest dataSize + 1)) with
    | none => .ok ({ dest with allocd := none }, errMem)
    | some block => do
      let dest ← moveFront { dest with
        allocd := some block, data := some unused, maxLength := newLen dest dataSize }
      return (dest, toInt totLen)

/-- `str_append_data`. -/
def strAppendData (fresh : ℕ → UInt8) (dest : StrSt) (data : List UInt8) :
    Except Failure (StrSt × ℤ) := do
  let (dest, ret) ← strAppendSize fresh dest data.length
  if ret < 0 then return (dest, ret)
  let dest ← poke dest dest.length data
  let dest := { dest with length := sizeT (data.length + dest.length) }
  let dest ← poke dest dest.length [0]
  return (dest, 0)

/-- `str_append_str`. -/
def strAppendStr (fresh : ℕ → UInt8) (dest : StrSt) (src : List UInt8) :
    Except Failure (StrSt × ℤ) := do
  let (dest, ret) ← strAppendData fresh dest (src ++ [0])
  if 0 ≤ ret then return ({ dest with length := sizeT (dest.length + 2 ^ 64 - 1) }, ret)
  return (dest, ret)

/-- `str_append_printf`, on the string that `vasprintf` makes. -/
def strAppendPrintf (fresh : ℕ → UInt8) (dest : StrSt) (str : Option (List UInt8)) :
    Except Failure (StrSt × ℤ) :=
  match str with
  | none => .ok (dest, -1)
  | some str => strAppendStr fresh dest str

/-! ### Buffers that hold a text -/

/-- The bytes before `length`. -/
def StrSt.text (s : StrSt) : List UInt8 :=
  s.data.elim [] fun d => ((s.allocd.getD []).drop d).take s.length

/-- The byte at `data + length`. -/
def StrSt.byteAtEnd (s : StrSt) : Option UInt8 :=
  s.data.bind fun d => (s.allocd.getD [])[d + s.length]?

/-- The buffer holds the text: at the start of a block of `max_length + 1` bytes, or without a
block. -/
structure Holds (s : StrSt) (text : List UInt8) : Prop where
  block : (s.allocd = none ∧ s.data = none ∧ s.maxLength = 0) ∨
    ∃ block, s.allocd = some block ∧ s.data = some 0 ∧ block.length = s.maxLength + 1 ∧
      s.maxLength + 1 < 0x7FFFFFFF
  length_le : s.length ≤ s.maxLength
  eq : text = (s.allocd.getD []).take s.length

/-- An append of `n` bytes makes the block larger. -/
def Grows (s : StrSt) (n : ℕ) : Prop := n ≠ 0 ∧ s.maxLength < sizeT (sizeT (n + s.length) + 1)

instance (s : StrSt) (n : ℕ) : Decidable (Grows s n) := inferInstanceAs (Decidable (_ ∧ _))

/-- The allocation for `n` more bytes succeeds. -/
def Granted (s : StrSt) (n : ℕ) : Prop :=
  Grows s n → 0 < sizeT (newLen s n + 1) ∧ sizeT (newLen s n + 1) < 0x7FFFFFFF

instance (s : StrSt) (n : ℕ) : Decidable (Granted s n) := inferInstanceAs (Decidable (_ → _))

variable {fresh : ℕ → UInt8} {s s' : StrSt} {text data : List UInt8} {n : ℕ} {ret : ℤ}

namespace Holds

theorem length_eq (h : Holds s text) : text.length = s.length := by
  rw [h.eq, List.length_take]
  rcases h.block with ⟨hnone, -, hmax⟩ | ⟨block, hblock, -, hlen, -⟩
  · have hle := h.length_le
    rw [hnone]
    simp
    omega
  · have hle := h.length_le
    rw [hblock, Option.getD_some, hlen]
    omega

theorem text_eq (h : Holds s text) : s.text = text := by
  rw [h.eq, StrSt.text]
  rcases h.block with ⟨hnone, hdata, -⟩ | ⟨block, hblock, hdata, -, -⟩
  · rw [hnone, hdata]
    simp
  · rw [hblock, hdata]
    rfl

theorem maxLength_lt (h : Holds s text) : s.maxLength < 0x7FFFFFFF := by
  rcases h.block with ⟨-, -, hmax⟩ | ⟨-, -, -, -, hmax⟩ <;> omega

theorem init : Holds strInit [] := ⟨.inl ⟨rfl, rfl, rfl⟩, le_refl _, rfl⟩

theorem reset (h : Holds s text) : Holds (strReset s) [] := by
  refine ⟨?_, Nat.zero_le _, by simp [strReset]⟩
  rcases h.block with ⟨hnone, -, hmax⟩ | ⟨block, hblock, -, hlen, hmax⟩
  · exact .inl ⟨hnone, by rw [strReset, hnone]; rfl, hmax⟩
  · exact .inr ⟨block, hblock, by rw [strReset, hblock]; rfl, hlen, hmax⟩

theorem clear (h : Holds s text) : Holds (strClear s) [] := by
  rw [strClear]
  split_ifs with hnone
  · have heq : text = [] := by
      rw [h.eq, hnone]
      simp
    exact heq ▸ h
  · exact init

/-- A buffer with a block, as a record. -/
theorem exists_block (h : Holds s text) (hsome : s.allocd ≠ none) :
    ∃ block, s = ⟨some block, some 0, s.maxLength, s.length⟩ ∧ block.length = s.maxLength + 1 ∧
      s.maxLength + 1 < 0x7FFFFFFF ∧ text = block.take s.length := by
  rcases h.block with ⟨hnone, -, -⟩ | ⟨block, hblock, hdata, hlen, hmax⟩
  · exact absurd hnone hsome
  · refine ⟨block, ?_, hlen, hmax, by rw [h.eq, hblock, Option.getD_some]⟩
    rw [← hblock, ← hdata]

/-- A shorter length cuts the text. -/
theorem cut (h : Holds s text) {l : ℕ} (hl : l ≤ s.length) :
    Holds { s with length := l } (text.take l) :=
  ⟨h.block, hl.trans h.length_le, by rw [h.eq, List.take_take, Nat.min_eq_left hl]⟩

end Holds

/-! ### Growth -/

/-- A text at the start of its block stays there. -/
theorem moveFront_zero {block : List UInt8} {m l : ℕ} (hl : l ≤ block.length) :
    moveFront ⟨some block, some 0, m, l⟩ = .ok ⟨some block, some 0, m, l⟩ := by
  simp only [moveFront, List.drop_zero, Nat.zero_add, List.take_append_drop]
  split_ifs <;> rfl

theorem length_tallocRealloc {ptr : Option (List UInt8)} {size : ℕ} {block : List UInt8}
    (h : tallocRealloc fresh ptr size = some block) : block.length = size := by
  rw [tallocRealloc] at h
  split_ifs at h
  cases h
  simp only [List.length_append, List.length_take, List.length_map, List.length_range]
  omega

theorem take_tallocRealloc {ptr : Option (List UInt8)} {size l : ℕ} {block : List UInt8}
    (h : tallocRealloc fresh ptr size = some block) (hl : l ≤ size)
    (hptr : l ≤ (ptr.getD []).length) : block.take l = (ptr.getD []).take l := by
  rw [tallocRealloc] at h
  split_ifs at h
  cases h
  rw [List.take_append_of_le_length (by rw [List.length_take]; omega), List.take_take,
    Nat.min_eq_left hl]

/-- The block, if there is one, is larger than the text. -/
theorem Holds.length_le_block (h : Holds s text) : s.length ≤ (s.allocd.getD []).length := by
  have hle := h.length_le
  rcases h.block with ⟨hnone, -, hmax⟩ | ⟨block, hblock, -, hlen, -⟩
  · omega
  · rw [hblock, Option.getD_some]
    omega

theorem Holds.moveFront (h : Holds s text) : moveFront s = .ok s := by
  have hle := h.length_le_block
  obtain ⟨allocd, data, m, l⟩ := s
  rcases h.block with ⟨hnone, hdata, -⟩ | ⟨block, hblock, hdata, -, -⟩
  · cases hnone
    cases hdata
    rfl
  · cases hblock
    cases hdata
    exact moveFront_zero hle

theorem Holds.unused (h : Holds s text) : s.data.getD 0 = 0 := by
  rcases h.block with ⟨-, hdata, -⟩ | ⟨-, -, hdata, -, -⟩ <;> rw [hdata] <;> rfl

variable (fresh) in
/-- The allocation succeeds. -/
theorem Granted.exists_block (h : Granted s n) (hgrows : Grows s n) :
    ∃ block, tallocRealloc fresh s.allocd (sizeT (newLen s n + 1)) = some block := by
  obtain ⟨hpos, hlt⟩ := h hgrows
  rw [tallocRealloc, if_neg (by omega)]
  exact ⟨_, rfl⟩

variable (fresh) in
/-- **What `str_append_size` does** where the allocation succeeds. -/
theorem strAppendSize_holds (h : Holds s text) (hgranted : Granted s n)
    (hfits : Grows s n → s.length ≤ newLen s n) :
    ∃ s', strAppendSize fresh s n = .ok (s', if n = 0 then 0 else toInt (sizeT (n + s.length))) ∧
      Holds s' text ∧ s'.length = s.length ∧
      s'.maxLength = (if Grows s n then newLen s n else s.maxLength) ∧ (n = 0 → s' = s) := by
  have hle := h.length_le
  have hmax := h.maxLength_lt
  by_cases hn : n = 0
  · refine ⟨s, ?_, h, rfl, ?_, fun _ => rfl⟩
    · rw [strAppendSize, if_pos hn, if_pos hn]
    · rw [if_neg fun hgrows => hgrows.1 hn]
  · by_cases hgrows : Grows s n
    · obtain ⟨hpos, hlt⟩ := hgranted hgrows
      have hfits := hfits hgrows
      have hsize : sizeT (newLen s n + 1) = newLen s n + 1 := by
        have hnew : newLen s n < 2 ^ 64 := Nat.mod_lt _ (by decide)
        rw [sizeT] at hpos ⊢
        omega
      obtain ⟨block, hblock⟩ := hgranted.exists_block fresh hgrows
      have hlen := length_tallocRealloc hblock
      rw [hsize] at hlen
      refine ⟨⟨some block, some 0, newLen s n, s.length⟩, ?_, ⟨.inr ⟨block, rfl, rfl, hlen, ?_⟩,
        hfits, ?_⟩, rfl, (if_pos hgrows).symm, fun hzero => absurd hzero hn⟩
      · have hgrow : ¬ sizeT (sizeT (n + s.length) + 1) ≤ s.maxLength := not_le.2 hgrows.2
        simp only [strAppendSize, if_neg hn, if_neg hgrow, hblock, h.unused]
        rw [moveFront_zero (by omega)]
        rfl
      · rwa [hsize] at hlt
      · rw [h.eq, Option.getD_some]
        exact (take_tallocRealloc hblock (by omega) h.length_le_block).symm
    · have hroom : sizeT (sizeT (n + s.length) + 1) ≤ s.maxLength := by
        by_contra hlt
        exact hgrows ⟨hn, by omega⟩
      refine ⟨s, ?_, h, rfl, (if_neg hgrows).symm, fun _ => rfl⟩
      simp only [strAppendSize, if_neg hn, if_pos hroom, h.moveFront]
      split_ifs <;> rfl

/-- An allocation that is refused. -/
theorem strAppendSize_refused (hrefused : ¬ Granted s n) :
    strAppendSize fresh s n = .ok ({ s with allocd := none }, errMem) := by
  obtain ⟨hgrows, hsize⟩ := Classical.not_imp.1 hrefused
  have hgrow : ¬ sizeT (sizeT (n + s.length) + 1) ≤ s.maxLength := not_le.2 hgrows.2
  have hnone : tallocRealloc fresh s.allocd (sizeT (newLen s n + 1)) = none := by
    rw [tallocRealloc, if_pos (by omega)]
  simp only [strAppendSize, if_neg hgrows.1, if_neg hgrow, hnone]

variable (fresh) in
/-- A size that wraps leaves a block that is smaller than the text. -/
theorem strAppendSize_shrinks (h : Holds s text) (hgranted : Granted s n) (hgrows : Grows s n)
    (hshort : newLen s n < s.length) :
    strAppendSize fresh s n = .error .outside ∨
      ∃ s' ret, strAppendSize fresh s n = .ok (s', ret) ∧ s'.maxLength < s'.length := by
  obtain ⟨block, hblock⟩ := hgranted.exists_block fresh hgrows
  have hgrow : ¬ sizeT (sizeT (n + s.length) + 1) ≤ s.maxLength := not_le.2 hgrows.2
  have hlength : ¬ s.length = 0 := by omega
  simp only [strAppendSize, if_neg hgrows.1, if_neg hgrow, hblock, h.unused, moveFront,
    if_neg hlength]
  by_cases hinside : 0 + s.length ≤ block.length
  · rw [if_pos hinside]
    exact .inr ⟨_, _, rfl, hshort⟩
  · rw [if_neg hinside]
    exact .inl rfl

/-- An object is not large enough for a size to wrap. -/
theorem room_of_object (h : Holds s text) (hn : n < 2 ^ 63) (hgranted : Granted s n) :
    (Grows s n → s.length ≤ newLen s n) ∧
      s.length + n ≤ (if Grows s n then newLen s n else s.maxLength) ∧
        s.length + n < 0x7FFFFFFF := by
  have hle := h.length_le
  have hmax := h.maxLength_lt
  by_cases hgrows : Grows s n
  · obtain ⟨hpos, hlt⟩ := hgranted hgrows
    have hnew : newLen s n = max n minChunk + max s.maxLength minChunk := by
      rw [newLen, sizeT]
      exact Nat.mod_eq_of_lt (by simp only [minChunk]; omega)
    have hsize : sizeT (newLen s n + 1) = newLen s n + 1 := by
      rw [hnew, sizeT]
      exact Nat.mod_eq_of_lt (by simp only [minChunk]; omega)
    rw [if_pos hgrows, hnew]
    omega
  · rw [if_neg hgrows]
    refine ⟨fun h => absurd h hgrows, ?_⟩
    by_cases hzero : n = 0
    · omega
    · have hroom : ¬ s.maxLength < sizeT (sizeT (n + s.length) + 1) := fun h => hgrows ⟨hzero, h⟩
      rw [sizeT, sizeT, Nat.mod_eq_of_lt (by omega), Nat.mod_eq_of_lt (by omega)] at hroom
      omega

/-! ### Appends -/

/-- Bytes that are written within the block. -/
theorem poke_block (block bytes : List UInt8) (m l pos : ℕ)
    (hfits : pos + bytes.length ≤ block.length) :
    ∃ block', poke ⟨some block, some 0, m, l⟩ pos bytes = .ok ⟨some block', some 0, m, l⟩ ∧
      block'.length = block.length ∧
      block'.take (pos + bytes.length) = block.take pos ++ bytes := by
  by_cases hnil : bytes = []
  · subst hnil
    exact ⟨block, by simp [poke], rfl, by simp⟩
  · have hlen : (block.take pos).length = pos := List.length_take_of_le (by omega)
    refine ⟨block.take pos ++ bytes ++ block.drop (pos + bytes.length), ?_, ?_, ?_⟩
    · simp only [poke, if_neg hnil, Nat.zero_add, if_pos hfits]
    · simp only [List.length_append, hlen, List.length_drop]
      omega
    · have hfirst : (block.take pos ++ bytes).length = pos + bytes.length := by
        rw [List.length_append, hlen]
      rw [← hfirst, List.take_left]

/-- The second part of `str_append_data`, where there is room: the text, then the terminator. -/
theorem Holds.write (h : Holds s text) (hsome : s.allocd ≠ none)
    (hroom : s.length + data.length ≤ s.maxLength) :
    ∃ s', (do
        let dest ← poke s s.length data
        let dest := { dest with length := sizeT (data.length + dest.length) }
        let dest ← poke dest dest.length [0]
        return (dest, (0 : ℤ))) = Except.ok (s', 0) ∧
      Holds s' (text ++ data) ∧ s'.byteAtEnd = some 0 ∧ s'.allocd ≠ none ∧
      s'.maxLength = s.maxLength := by
  obtain ⟨block, hs, hblen, hbmax, heq⟩ := h.exists_block hsome
  obtain ⟨block₁, hpoke₁, hlenb₁, htake₁⟩ := poke_block block data s.maxLength s.length s.length
    (by omega)
  obtain ⟨block₂, hpoke₂, hlenb₂, htake₂⟩ := poke_block block₁ [0] s.maxLength
    (data.length + s.length) (data.length + s.length) (by
      rw [List.length_singleton]
      omega)
  have hlength : sizeT (data.length + s.length) = data.length + s.length :=
    Nat.mod_eq_of_lt (by omega)
  have htext : block₂.take (data.length + s.length) = text ++ data := by
    have h := congrArg (List.take (data.length + s.length)) htake₂
    rw [List.take_take, List.take_append_of_le_length (by rw [List.length_take]; omega),
      List.take_take] at h
    rw [Nat.min_eq_left (Nat.le_add_right _ _), Nat.min_self] at h
    rw [h, Nat.add_comm, htake₁, heq]
  have hlenb : block₂.length = s.maxLength + 1 := by rw [hlenb₂, hlenb₁, hblen]
  have hroom' : data.length + s.length ≤ s.maxLength := by omega
  refine ⟨⟨some block₂, some 0, s.maxLength, data.length + s.length⟩, ?_,
    ⟨.inr ⟨block₂, rfl, rfl, hlenb, hbmax⟩, hroom', htext.symm⟩, ?_, Option.some_ne_none _, rfl⟩
  · rw [hs]
    change (poke ⟨some block, some 0, s.maxLength, s.length⟩ s.length data >>= _) = _
    rw [hpoke₁]
    change (poke ⟨some block₁, some 0, s.maxLength, sizeT (data.length + s.length)⟩
      (sizeT (data.length + s.length)) [0] >>= _) = _
    rw [hlength, hpoke₂]
    rfl
  · have hlast := congrArg (·[data.length + s.length]?) htake₂
    have hpos : (block₁.take (data.length + s.length)).length = data.length + s.length :=
      List.length_take_of_le (by omega)
    simp only [List.length_singleton] at hlast
    rw [List.getElem?_take_of_lt (Nat.lt_succ_self _),
      List.getElem?_append_right (by omega), hpos, Nat.sub_self] at hlast
    simp only [StrSt.byteAtEnd, Option.bind_some, Option.getD_some, Nat.zero_add]
    exact hlast

variable (fresh) in
/-- **What `str_append_data` does** to a buffer that holds a text. -/
theorem strAppendData_holds (h : Holds s text) (hsize : data.length < 2 ^ 63)
    (hgranted : Granted s data.length) (hdata : data = [] → s.allocd ≠ none) :
    ∃ s', strAppendData fresh s data = .ok (s', 0) ∧ Holds s' (text ++ data) ∧
      s'.byteAtEnd = some 0 ∧ s'.allocd ≠ none ∧
      s'.maxLength = (if Grows s data.length then newLen s data.length else s.maxLength) := by
  obtain ⟨hfits, hroom, hlt⟩ := room_of_object h hsize hgranted
  obtain ⟨s₁, hcall, h₁, hlen₁, hmax₁, hsame⟩ := strAppendSize_holds fresh h hgranted hfits
  rw [← hmax₁, ← hlen₁] at hroom
  have hret : ¬ (if data.length = 0 then (0 : ℤ)
      else toInt (sizeT (data.length + s.length))) < 0 := by
    split_ifs
    · decide
    · rw [sizeT, Nat.mod_eq_of_lt (by omega), toInt, Nat.mod_eq_of_lt (by omega), if_pos (by omega)]
      omega
  have hsome : s₁.allocd ≠ none := by
    by_cases hzero : data.length = 0
    · rw [hsame hzero]
      exact hdata (List.length_eq_zero_iff.1 hzero)
    · intro hnone
      rcases h₁.block with ⟨-, -, hmax⟩ | ⟨block, hblock, -, -, -⟩
      · omega
      · rw [hnone] at hblock
        cases hblock
  obtain ⟨s', hwrite, h', hend, hsome', hmax'⟩ := h₁.write hsome hroom
  refine ⟨s', ?_, h', hend, hsome', hmax'.trans hmax₁⟩
  rw [strAppendData, hcall, ← hwrite]
  exact if_neg hret

variable (fresh) in
/-- An empty append to a buffer without a block writes its terminator through `NULL`. -/
theorem strAppendData_null (h : Holds s text) (hnone : s.allocd = none) :
    strAppendData fresh s [] = .error .null := by
  have hdata : s.data = none := by
    rcases h.block with ⟨-, hdata, -⟩ | ⟨block, hblock, -⟩
    · exact hdata
    · rw [hnone] at hblock
      cases hblock
  obtain ⟨allocd, d, m, l⟩ := s
  cases hnone
  cases hdata
  rfl

theorem strAppendData_refused (hrefused : ¬ Granted s data.length) :
    strAppendData fresh s data = .ok ({ s with allocd := none }, errMem) := by
  rw [strAppendData, strAppendSize_refused hrefused]
  rfl

theorem strAppendStr_refused (hrefused : ¬ Granted s (data.length + 1)) :
    strAppendStr fresh s data = .ok ({ s with allocd := none }, errMem) := by
  have hlen : (data ++ [0]).length = data.length + 1 := List.length_append
  rw [strAppendStr, strAppendData_refused (by rwa [hlen])]
  rfl

variable (fresh) in
/-- **What `str_append_str` does**: the terminator is appended, but not counted. -/
theorem strAppendStr_holds (h : Holds s text) (hsize : data.length + 1 < 2 ^ 63)
    (hgranted : Granted s (data.length + 1)) :
    ∃ s', strAppendStr fresh s data = .ok (s', 0) ∧ Holds s' (text ++ data) ∧
      s'.byteAtEnd = some 0 ∧ s'.allocd ≠ none ∧ s'.maxLength =
        (if Grows s (data.length + 1) then newLen s (data.length + 1) else s.maxLength) := by
  have hlen : (data ++ [0]).length = data.length + 1 := List.length_append
  have hsize : (data ++ [0]).length < 2 ^ 63 := by omega
  obtain ⟨s₁, hcall, h₁, -, hsome, hmax⟩ := strAppendData_holds fresh h hsize
    (by rwa [hlen]) fun h => by simp at h
  have hlen₁ : s₁.length = (text ++ data).length + 1 := by
    rw [← h₁.length_eq]
    simp
    omega
  have hmax₁ := h₁.maxLength_lt
  have hle := h₁.length_le
  have hminus : sizeT (s₁.length + 2 ^ 64 - 1) = (text ++ data).length := by
    rw [sizeT, hlen₁]
    omega
  obtain ⟨block, hs, -, -, heq⟩ := h₁.exists_block hsome
  have hcut := h₁.cut (l := (text ++ data).length) (by omega)
  rw [← List.append_assoc, List.take_left] at hcut
  rw [hlen] at hmax
  refine ⟨{ s₁ with length := (text ++ data).length }, ?_, hcut, ?_, hsome, hmax⟩
  · rw [strAppendStr, hcall, ← hminus]
    rfl
  · have hlast := congrArg (·[(text ++ data).length]?) heq
    simp only [← List.append_assoc, hlen₁, List.getElem?_take_of_lt (Nat.lt_succ_self _),
      List.getElem?_append_right (le_refl _), Nat.sub_self] at hlast
    rw [hs]
    simp only [StrSt.byteAtEnd, Option.bind_some, Option.getD_some, Nat.zero_add]
    exact hlast.symm

/-! ### Runs -/

/-- The bytes of an object: no object has `2 ^ 63` bytes. -/
abbrev Object := { data : List UInt8 // data.length < 2 ^ 63 }

/-- The result of a formatted print: a string whose length is an `int`. -/
abbrev Printed := { str : List UInt8 // 0 ∉ str ∧ str.length < 2 ^ 31 }

/-- What a caller does with a buffer; `fresh` is what new memory holds. -/
inductive Op where
  | init
  | appendData (fresh : ℕ → UInt8) (data : Object)
  | appendSize (fresh : ℕ → UInt8) (dataSize : UInt64)
  | appendPrintf (fresh : ℕ → UInt8) (str : Printed)
  | reset
  | clear

/-- A buffer in a run, with what was appended since the last reset. -/
structure Use where
  st : StrSt
  failure : Option Failure
  contents : List UInt8
  /-- The last call was an append. -/
  afterAppend : Bool

namespace Use

/-- After `str_init`. -/
def start : Use := ⟨strInit, none, [], false⟩

/-- The buffer after a call that ended with `result`. -/
def after (u : Use) (result : Except Failure (StrSt × ℤ)) (contents : List UInt8)
    (afterAppend : Bool) : Use :=
  match result with
  | .error e => { u with failure := some e }
  | .ok (st, _) => ⟨st, none, contents, afterAppend⟩

end Use

/-- The calls of a program, as long as the allocations succeed. -/
def strMachine : Machine Use Op where
  step u op :=
    if u.failure.isSome then none
    else
      match op with
      | .init => some .start
      | .appendData fresh data =>
        if Granted u.st data.1.length then
          some (u.after (strAppendData fresh u.st data.1) (u.contents ++ data.1) true)
        else none
      | .appendSize fresh dataSize =>
        if Granted u.st dataSize.toNat then
          some (u.after (strAppendSize fresh u.st dataSize.toNat) u.contents false)
        else none
      | .appendPrintf fresh str =>
        if Granted u.st (str.1.length + 1) then
          some (u.after (strAppendPrintf fresh u.st (some str.1)) (u.contents ++ str.1) true)
        else none
      | .reset => some ⟨strReset u.st, none, [], false⟩
      | .clear => some ⟨strClear u.st, none, [], false⟩

/-- What is asked of a buffer after a call. -/
structure Represents (u : Use) : Prop where
  /-- Nothing was accessed through `NULL` or outside of the block. -/
  alive : u.failure = none
  length_le : u.st.length ≤ u.st.maxLength
  text : u.st.text = u.contents
  length : u.st.length = u.contents.length
  terminator : u.afterAppend = true → u.st.byteAtEnd = some 0

/-- An empty text is appended to a block only, and a size does not make the block smaller than its
text. -/
def StepOk (u : Use) : Op → Prop
  | .appendData _ data => data.1 = [] → u.st.allocd ≠ none
  | .appendSize _ dataSize => Granted u.st dataSize.toNat → Grows u.st dataSize.toNat →
      u.st.length ≤ newLen u.st dataSize.toNat
  | _ => True

/-- The invariant of the runs. -/
structure Valid (u : Use) : Prop where
  alive : u.failure = none
  holds : Holds u.st u.contents
  terminator : u.afterAppend = true → u.st.byteAtEnd = some 0

theorem Valid.represents {u : Use} (h : Valid u) : Represents u :=
  ⟨h.alive, h.holds.length_le, h.holds.text_eq, h.holds.length_eq.symm, h.terminator⟩

theorem Valid.step {u u' : Use} {op : Op} (h : Valid u) (hok : StepOk u op)
    (hstep : strMachine.step u op = some u') : Valid u' := by
  have halive : ¬ u.failure.isSome = true := by
    rw [h.alive]
    simp
  simp only [strMachine, if_neg halive] at hstep
  cases op with
  | init =>
    cases hstep
    exact ⟨rfl, Holds.init, fun h => absurd h Bool.false_ne_true⟩
  | reset =>
    cases hstep
    exact ⟨rfl, h.holds.reset, fun h => absurd h Bool.false_ne_true⟩
  | clear =>
    cases hstep
    exact ⟨rfl, h.holds.clear, fun h => absurd h Bool.false_ne_true⟩
  | appendData fresh data =>
    simp only at hstep
    split_ifs at hstep with hgranted
    obtain ⟨s', hcall, hholds, hend, -⟩ := strAppendData_holds fresh h.holds data.2
      hgranted hok
    cases hstep
    rw [hcall]
    exact ⟨rfl, hholds, fun _ => hend⟩
  | appendPrintf fresh str =>
    simp only at hstep
    split_ifs at hstep with hgranted
    obtain ⟨s', hcall, hholds, hend, -⟩ := strAppendStr_holds fresh h.holds
      (lt_of_le_of_lt str.2.2 (by decide)) hgranted
    cases hstep
    rw [strAppendPrintf, hcall]
    exact ⟨rfl, hholds, fun _ => hend⟩
  | appendSize fresh dataSize =>
    simp only at hstep
    split_ifs at hstep with hgranted
    obtain ⟨s', hcall, hholds, -⟩ := strAppendSize_holds fresh h.holds hgranted
      (hok hgranted)
    cases hstep
    rw [hcall]
    exact ⟨rfl, hholds, fun h => absurd h Bool.false_ne_true⟩

/-- A step that does not meet the condition leaves a buffer that is not as it should be. -/
theorem Valid.step_broken {u : Use} {op : Op} (h : Valid u) (hok : ¬ StepOk u op) :
    ∃ u', strMachine.step u op = some u' ∧ ¬ Represents u' := by
  have halive : ¬ u.failure.isSome = true := by
    rw [h.alive]
    simp
  simp only [strMachine, if_neg halive]
  cases op with
  | appendData fresh data =>
    simp only [StepOk, Classical.not_imp, ne_eq, not_not] at hok
    have hgranted : Granted u.st data.1.length := fun hgrows =>
      absurd (by rw [hok.1]; rfl) hgrows.1
    refine ⟨_, if_pos hgranted, fun hrep => ?_⟩
    have hnull := strAppendData_null fresh h.holds hok.2
    have halive := hrep.alive
    rw [hok.1, hnull] at halive
    cases halive
  | appendSize fresh dataSize =>
    simp only [StepOk, Classical.not_imp, not_le] at hok
    refine ⟨_, if_pos hok.1, fun hrep => ?_⟩
    rcases strAppendSize_shrinks fresh h.holds hok.1 hok.2.1 hok.2.2 with
      hcall | ⟨s', ret, hcall, hlt⟩
    · have halive := hrep.alive
      rw [hcall] at halive
      cases halive
    · have hle := hrep.length_le
      rw [hcall] at hle
      exact absurd hle (not_le.2 hlt)
  | init => exact absurd trivial hok
  | appendPrintf fresh str => exact absurd trivial hok
  | reset => exact absurd trivial hok
  | clear => exact absurd trivial hok

/-- **Main result.** Along a run the buffer is what it should be exactly if every step meets the
condition. -/
theorem represents_iff (ops : List Op) :
    strMachine.Always Represents .start ops ↔ strMachine.Meets StepOk .start ops :=
  Machine.always_iff_meets (I := Valid) (fun _ h => h.represents)
    (fun _ _ _ h hok hstep => h.step hok hstep) (fun _ _ h hok => h.step_broken hok)
    ⟨rfl, Holds.init, fun h => absurd h Bool.false_ne_true⟩

/-- An empty text as the first one. -/
theorem not_represents_empty : ¬ ∀ ops, strMachine.Always Represents .start ops := by
  intro h
  have hrep := (h [.appendData (fun _ => 0) ⟨[], by decide⟩]).2 _ rfl
  exact absurd (Machine.Always.head hrep).alive (by decide)

end Str

end Ocserv
