import Mathlib.Data.Nat.Digits.Defs
import Mathlib.Data.List.GetD
import Mathlib.Data.List.TakeWhile
import Ocserv.Fallible

/-!
# Worker: URL escapes

`src/html.c`: `escape_url` and `unescape_url`.  A text in memory is a function from offsets to
bytes; the number of bytes the caller means is passed beside it, as in the source.

* `escapeUrl_eq_ok_iff` : what `escape_url` leaves in its buffer.
* `escapeUrl_meets_iff` : **the escaping is faithful exactly on texts of ASCII letters**.  The
  `snprintf` of a triple has room for two characters and the terminator, so the second hexadecimal
  digit is never written.
-/

namespace Ocserv

namespace Html

open Fallible (bind_eq_ok_iff)

/-! ### The C library -/

/-- The characters `sscanf` skips before a conversion. -/
def isSpace (c : UInt8) : Bool := c = 32 || (9 ≤ c && c ≤ 13)

/-- The value of a hexadecimal digit. -/
def hexValue (c : UInt8) : Option ℕ :=
  if 48 ≤ c ∧ c ≤ 57 then some (c.toNat - 48)
  else if 65 ≤ c ∧ c ≤ 70 then some (c.toNat - 55)
  else if 97 ≤ c ∧ c ≤ 102 then some (c.toNat - 87)
  else none

/-- The digit `printf` writes for a value below 16. -/
def hexDigit (d : ℕ) : UInt8 := UInt8.ofNat (if d < 10 then 48 + d else 87 + d)

/-- The text of `u` under `%02x`. -/
def printfHex (u : ℕ) : List UInt8 := ((Nat.digits 16 u).reverse.leftpad 2 0).map hexDigit

/-- The bytes `snprintf` writes of `text` into a buffer of `size` bytes. -/
def snprintf (size : ℕ) (text : List UInt8) : List UInt8 :=
  if size = 0 then [] else text.take (size - 1) ++ [0]

/-- The value `%02x` reads from a string, `none` when nothing matches: white space, then at most two
characters of an optional sign, an optional `0x` and the digits. -/
def scanfHex (b : List UInt8) : Option ℕ :=
  let t := (b.dropWhile isSpace).take 2
  -- the prefix takes the whole width, and its `0` is the number
  if t = [48, 120] ∨ t = [48, 88] then some 0
  else
    let neg := t.head? = some 45
    let t := if t.head? = some 45 ∨ t.head? = some 43 then t.tail else t
    match (t.map hexValue).takeWhile Option.isSome with
    | [] => none
    | ds =>
      let u := ds.foldl (fun u d => 16 * u + d.getD 0) 0
      some (if neg then (2 ^ 32 - u) % 2 ^ 32 else u)

/-- The string that starts in `mem`, if it ends within `n` bytes. -/
def cText (mem : ℕ → UInt8) (n : ℕ) : List UInt8 :=
  ((List.range n).map mem).takeWhile (· ≠ 0)

/-! ### The functions of the source -/

/-- How a call ends without a text: `NULL`, or a write past the end of the buffer. -/
inductive Failure
  | null
  | overrun
  deriving DecidableEq, Repr

/-- `talloc_size`: the size is refused from `MAX_TALLOC_SIZE` on. -/
def tallocSize (size : ℕ) : Except Failure ℕ :=
  if size < 0x7FFFFFFF then .ok size else .error .null

/-- A memory with the bytes `bs` at offset `pos`. -/
def overlay (msg : ℕ → UInt8) (pos : ℕ) (bs : List UInt8) : ℕ → UInt8 := fun i =>
  if pos ≤ i ∧ i < pos + bs.length then bs.getD (i - pos) 0 else msg i

/-- The bytes `bs` written at offset `pos` of a buffer of `size` bytes. -/
def poke (size : ℕ) (msg : ℕ → UInt8) (pos : ℕ) (bs : List UInt8) : Except Failure (ℕ → UInt8) :=
  if pos + bs.length ≤ size then .ok (overlay msg pos bs) else .error .overrun

/-- `c_isalpha`, of a `char` that is negative from 128 on. -/
def cIsalpha (c : UInt8) : Bool := (65 ≤ c && c ≤ 90) || (97 ≤ c && c ≤ 122)

/-- `(unsigned)url[i]`: the `char` is sign extended. -/
def charToUnsigned (c : UInt8) : ℕ := if c < 128 then c.toNat else 2 ^ 32 - 256 + c.toNat

/-- The loop of `escape_url` over the bytes that are left. -/
def escapeUrl.loop (size : ℕ) :
    List UInt8 → (ℕ → UInt8) → ℕ → Except Failure ((ℕ → UInt8) × ℕ)
  | [], msg, pos => .ok (msg, pos)
  | c :: url, msg, pos =>
    if cIsalpha c then do
      let msg ← poke size msg pos [c]
      loop size url msg (pos + 1)
    else do
      let msg ← poke size msg pos (snprintf 3 (37 :: printfHex (charToUnsigned c)))
      loop size url msg (pos + 3)

/-- `escape_url`: the buffer and `*out_len`.  The buffer's memory holds `fresh` before. -/
def escapeUrl (fresh : ℕ → UInt8) (url : List UInt8) : Except Failure ((ℕ → UInt8) × ℕ) := do
  let size ← tallocSize ((3 * url.length + 1) % 2 ^ 32)
  let (msg, pos) ← escapeUrl.loop size url fresh 0
  let msg ← poke size msg pos [0]
  return (msg, pos)

/-- One byte after the bytes written so far, in a buffer of `size` bytes. -/
def push (size : ℕ) (msg : List UInt8) (c : UInt8) : Except Failure (List UInt8) :=
  if msg.length < size then .ok (msg ++ [c]) else .error .overrun

/-- The loop of `unescape_url` from offset `i`; `fuel` bounds its rounds. -/
def unescapeUrl.loop (size : ℕ) (url : ℕ → UInt8) (len : ℕ) :
    ℕ → ℕ → List UInt8 → Except Failure (List UInt8)
  | 0, _, msg => .ok msg
  | fuel + 1, i, msg =>
    if i < len then
      if url i = 37 then
        match scanfHex ([url (i + 1), url (i + 2)].takeWhile (· ≠ 0)) with
        | none => .error .null
        | some u => push size msg (UInt8.ofNat u) >>= loop size url len fuel (i + 3)
      else push size msg (url i) >>= loop size url len fuel (i + 1)
    else .ok msg

/-- `unescape_url`: the `*out_len` bytes of the result, which a terminator follows.  Every round
reads at least one byte, so `len` rounds are enough. -/
def unescapeUrl (url : ℕ → UInt8) (len : ℕ) : Except Failure (List UInt8) := do
  let size ← tallocSize ((len + 1) % 2 ^ 32)
  let msg ← unescapeUrl.loop size url len len 0 []
  let _ ← push size msg 0
  return msg

/-! ### What the loops do -/

/-- The hexadecimal digit `escape_url` leaves of a byte: the first one of the sign extended
value. -/
def highDigit (c : UInt8) : ℕ := if c < 128 then c.toNat / 16 else 15

theorem highDigit_lt (c : UInt8) : highDigit c < 16 := by
  have hc := c.toNat_lt
  rw [highDigit]
  split <;> omega

/-- The bytes `escape_url` writes for one byte. -/
def escaped (c : UInt8) : List UInt8 :=
  if cIsalpha c then [c] else [37, hexDigit (highDigit c), 0]

theorem length_escaped_pos (c : UInt8) : 0 < (escaped c).length := by
  rw [escaped]
  split <;> simp

/-- The byte `unescape_url` reads back for it. -/
def readBack (c : UInt8) : UInt8 := if cIsalpha c then c else UInt8.ofNat (highDigit c)

theorem snprintf_triple (c : UInt8) :
    snprintf 3 (37 :: printfHex (charToUnsigned c)) = [37, hexDigit (highDigit c), 0] := by
  have hall : ∀ n : Fin 256, snprintf 3 (37 :: printfHex (charToUnsigned (UInt8.ofNat n))) =
      [37, hexDigit (highDigit (UInt8.ofNat n)), 0] := by
    decide +kernel
  simpa using hall ⟨c.toNat, c.toNat_lt⟩

theorem hexDigit_ne_zero {d : ℕ} (hd : d < 16) : hexDigit d ≠ 0 := by
  have hall : ∀ d : Fin 16, hexDigit d ≠ 0 := by decide
  exact hall ⟨d, hd⟩

theorem scanfHex_hexDigit {d : ℕ} (hd : d < 16) : scanfHex [hexDigit d] = some d := by
  have hall : ∀ d : Fin 16, scanfHex [hexDigit d] = some d.1 := by decide
  exact hall ⟨d, hd⟩

theorem overlay_overlay (msg : ℕ → UInt8) (pos : ℕ) (a b : List UInt8) :
    overlay (overlay msg pos a) (pos + a.length) b = overlay msg pos (a ++ b) := by
  funext i
  simp only [overlay, List.length_append]
  by_cases hb : pos + a.length ≤ i ∧ i < pos + a.length + b.length
  · rw [if_pos hb, if_pos (by omega), List.getD_append_right _ _ _ _ (by omega)]
    congr 1
    omega
  · rw [if_neg hb]
    by_cases ha : pos ≤ i ∧ i < pos + a.length
    · rw [if_pos ha, if_pos (by omega), List.getD_append _ _ _ _ (by omega)]
    · rw [if_neg ha, if_neg (by omega)]

/-- The loop writes the escapes one after the other, if they fit. -/
theorem escapeUrl_loop (size : ℕ) (url : List UInt8) (msg : ℕ → UInt8) (pos : ℕ)
    (hpos : pos ≤ size) :
    escapeUrl.loop size url msg pos =
      if pos + (url.flatMap escaped).length ≤ size then
        .ok (overlay msg pos (url.flatMap escaped), pos + (url.flatMap escaped).length)
      else .error .overrun := by
  induction url generalizing msg pos with
  | nil =>
    have hnil : overlay msg pos [] = msg := by
      funext i
      rw [overlay, if_neg (by simp)]
    simp [escapeUrl.loop, hpos, hnil]
  | cons c url ih =>
    have hstep : escapeUrl.loop size (c :: url) msg pos =
        poke size msg pos (escaped c) >>=
          fun msg => escapeUrl.loop size url msg (pos + (escaped c).length) := by
      rw [escapeUrl.loop, escaped, snprintf_triple]
      split <;> rfl
    rw [hstep, List.flatMap_cons, List.length_append, poke]
    by_cases hc : pos + (escaped c).length ≤ size
    · rw [if_pos hc]
      change escapeUrl.loop size url (overlay msg pos (escaped c)) (pos + (escaped c).length) = _
      rw [ih _ _ hc, overlay_overlay, Nat.add_assoc]
    · rw [if_neg hc, if_neg (by omega)]
      rfl

theorem tallocSize_eq_ok_iff {size n : ℕ} :
    tallocSize size = .ok n ↔ size < 0x7FFFFFFF ∧ n = size := by
  rw [tallocSize]
  split <;> simp_all [eq_comm]

theorem poke_eq_ok_iff {size pos : ℕ} {msg msg' : ℕ → UInt8} {bs : List UInt8} :
    poke size msg pos bs = .ok msg' ↔ pos + bs.length ≤ size ∧ msg' = overlay msg pos bs := by
  rw [poke]
  split <;> simp_all [eq_comm]

/-- What `escape_url` leaves: the escapes and a terminator, when the buffer is granted and holds
them. -/
theorem escapeUrl_eq_ok_iff (fresh : ℕ → UInt8) (url : List UInt8) (msg : ℕ → UInt8) (n : ℕ) :
    escapeUrl fresh url = .ok (msg, n) ↔
      ((3 * url.length + 1) % 2 ^ 32 < 0x7FFFFFFF ∧
        (url.flatMap escaped).length + 1 ≤ (3 * url.length + 1) % 2 ^ 32) ∧
      msg = overlay fresh 0 (url.flatMap escaped ++ [0]) ∧ n = (url.flatMap escaped).length := by
  have happend : overlay (overlay fresh 0 (url.flatMap escaped)) (url.flatMap escaped).length [0] =
      overlay fresh 0 (url.flatMap escaped ++ [0]) := by
    have h := overlay_overlay fresh 0 (url.flatMap escaped) [0]
    rwa [Nat.zero_add] at h
  rw [escapeUrl, bind_eq_ok_iff]
  constructor
  · rintro ⟨size, hsize, h⟩
    obtain ⟨hlt, rfl⟩ := tallocSize_eq_ok_iff.1 hsize
    obtain ⟨⟨msg₁, pos⟩, hloop, h⟩ := bind_eq_ok_iff.1 h
    obtain ⟨msg₂, hpoke, h⟩ := bind_eq_ok_iff.1 h
    obtain ⟨hfit, rfl⟩ := poke_eq_ok_iff.1 hpoke
    rw [escapeUrl_loop _ _ _ _ (Nat.zero_le _), Nat.zero_add] at hloop
    split at hloop
    · cases hloop
      cases h
      exact ⟨⟨hlt, hfit⟩, happend, rfl⟩
    · cases hloop
  · rintro ⟨⟨hlt, hfit⟩, rfl, rfl⟩
    have hloop : escapeUrl.loop ((3 * url.length + 1) % 2 ^ 32) url fresh 0 =
        .ok (overlay fresh 0 (url.flatMap escaped), (url.flatMap escaped).length) := by
      rw [escapeUrl_loop _ _ _ _ (Nat.zero_le _), Nat.zero_add, if_pos (by omega)]
    have hpoke := poke_eq_ok_iff.2 ⟨hfit, happend.symm⟩
    exact ⟨_, tallocSize_eq_ok_iff.2 ⟨hlt, rfl⟩,
      bind_eq_ok_iff.2 ⟨_, hloop, bind_eq_ok_iff.2 ⟨_, hpoke, rfl⟩⟩⟩

theorem push_of_lt {size : ℕ} {msg : List UInt8} (c : UInt8) (h : msg.length < size) :
    push size msg c = .ok (msg ++ [c]) := by
  rw [push, if_pos h]

/-- The loop of `unescape_url` over a text of escapes reads back one byte for each. -/
theorem unescapeUrl_loop_escaped (size : ℕ) (url : ℕ → UInt8) (s : List UInt8) (i fuel : ℕ)
    (msg : List UInt8) (hfuel : (s.flatMap escaped).length ≤ fuel)
    (hsize : msg.length + s.length ≤ size)
    (hmem : ∀ j < (s.flatMap escaped).length, url (i + j) = (s.flatMap escaped).getD j 0) :
    unescapeUrl.loop size url (i + (s.flatMap escaped).length) fuel i msg =
      .ok (msg ++ s.map readBack) := by
  induction s generalizing i fuel msg with
  | nil => cases fuel <;> simp [unescapeUrl.loop]
  | cons c s ih =>
    have hpos := length_escaped_pos c
    simp only [List.flatMap_cons, List.length_append, List.length_cons] at hfuel hmem hsize ⊢
    have hrest : ∀ j < (s.flatMap escaped).length,
        url (i + (escaped c).length + j) = (s.flatMap escaped).getD j 0 := by
      intro j hj
      rw [Nat.add_assoc, hmem _ (by omega), List.getD_append_right _ _ _ _ (by omega),
        Nat.add_sub_cancel_left]
    have hhead : ∀ j < (escaped c).length, url (i + j) = (escaped c).getD j 0 := by
      intro j hj
      rw [hmem _ (by omega), List.getD_append _ _ _ _ hj]
    obtain ⟨fuel, rfl⟩ : ∃ k, fuel = k + 1 := ⟨fuel - 1, by omega⟩
    have hstep : unescapeUrl.loop size url (i + ((escaped c).length + (s.flatMap escaped).length))
        (fuel + 1) i msg =
        push size msg (readBack c) >>= unescapeUrl.loop size url
          (i + ((escaped c).length + (s.flatMap escaped).length)) fuel
            (i + (escaped c).length) := by
      rw [unescapeUrl.loop]
      by_cases hc : cIsalpha c
      · have he : escaped c = [c] := by rw [escaped, if_pos hc]
        have hi : url i = c := by simpa [he] using hhead 0
        have hne : c ≠ 37 := by
          rintro rfl
          exact absurd hc (by decide)
        rw [if_pos (by simp [he]), hi, if_neg hne, readBack, if_pos hc, he]
        rfl
      · have he : escaped c = [37, hexDigit (highDigit c), 0] := by rw [escaped, if_neg hc]
        have h0 : url i = 37 := by simpa [he] using hhead 0
        have h1 : url (i + 1) = hexDigit (highDigit c) := by simpa [he] using hhead 1
        have h2 : url (i + 2) = 0 := by simpa [he] using hhead 2
        have hd := hexDigit_ne_zero (highDigit_lt c)
        have htake : [hexDigit (highDigit c), 0].takeWhile (· ≠ 0) = [hexDigit (highDigit c)] := by
          simp [List.takeWhile, hd]
        rw [if_pos (by simp [he]), if_pos h0, h1, h2, htake,
          scanfHex_hexDigit (highDigit_lt c), readBack, if_neg hc, he]
        rfl
    rw [hstep, push_of_lt _ (by omega)]
    change unescapeUrl.loop size url _ fuel (i + (escaped c).length) (msg ++ [readBack c]) = _
    rw [← Nat.add_assoc, ih _ _ _ ?_ ?_ hrest, List.append_assoc]
    · rfl
    · omega
    · simp
      omega

theorem overlay_apply {fresh : ℕ → UInt8} {bs : List UInt8} {j : ℕ} (h : j < bs.length) :
    overlay fresh 0 bs j = bs.getD j 0 := by
  rw [overlay, if_pos ⟨Nat.zero_le _, by omega⟩, Nat.sub_zero]

theorem length_le_escaped (s : List UInt8) : s.length ≤ (s.flatMap escaped).length := by
  induction s with
  | nil => simp
  | cons c s ih =>
    have := length_escaped_pos c
    simp only [List.flatMap_cons, List.length_append, List.length_cons]
    omega

/-- `unescape_url` of what `escape_url` left: one byte for each, the letters as they were. -/
theorem unescapeUrl_escaped (fresh : ℕ → UInt8) (s : List UInt8)
    (h : (s.flatMap escaped).length + 1 < 0x7FFFFFFF) :
    unescapeUrl (overlay fresh 0 (s.flatMap escaped ++ [0])) (s.flatMap escaped).length =
      .ok (s.map readBack) := by
  have hlen := length_le_escaped s
  have hloop := unescapeUrl_loop_escaped ((s.flatMap escaped).length + 1)
    (overlay fresh 0 (s.flatMap escaped ++ [0])) s 0 (s.flatMap escaped).length [] le_rfl
    (by rw [List.length_nil]; omega) fun j hj => by
      rw [Nat.zero_add, overlay_apply (by rw [List.length_append]; omega),
        List.getD_append _ _ _ _ hj]
  rw [Nat.zero_add, List.nil_append] at hloop
  rw [unescapeUrl, Nat.mod_eq_of_lt (by omega), tallocSize, if_pos h]
  change (unescapeUrl.loop _ _ _ _ 0 [] >>= _) = _
  rw [hloop]
  change (push _ (s.map readBack) 0 >>= _) = _
  rw [push_of_lt _ (by rw [List.length_map]; omega)]
  rfl

/-! ### The law of the escaping -/

/-- The unreserved characters of a URL: letters, digits and `-`, `.`, `_`, `~`. -/
def unreserved (c : UInt8) : Bool :=
  cIsalpha c || (48 ≤ c && c ≤ 57) || c = 45 || c = 46 || c = 95 || c = 126

/-- Texts of unreserved characters and of triples of `%` and two hexadecimal digits. -/
inductive UrlText : List UInt8 → Prop
  | nil : UrlText []
  | char {c : UInt8} {t : List UInt8} (hc : unreserved c) (ht : UrlText t) : UrlText (c :: t)
  | triple {a b : UInt8} {t : List UInt8} (ha : (hexValue a).isSome) (hb : (hexValue b).isSome)
      (ht : UrlText t) : UrlText (37 :: a :: b :: t)

/-- `unescape_url` of the escaped text is the text again. -/
def RoundTrip (fresh : ℕ → UInt8) (s : List UInt8) : Prop :=
  ∃ msg n, escapeUrl fresh s = .ok (msg, n) ∧ unescapeUrl msg n = .ok s

/-- The escaped text comes back as it was, is a text of unreserved characters and triples, and has
the length that is reported. -/
def Faithful (fresh : ℕ → UInt8) (s : List UInt8) : Prop :=
  ∃ msg n, escapeUrl fresh s = .ok (msg, n) ∧ unescapeUrl msg n = .ok s ∧
    UrlText (cText msg n) ∧ n = (cText msg n).length

theorem cIsalpha_of_readBack {c : UInt8} (h0 : c ≠ 0) (h : readBack c = c) : cIsalpha c := by
  by_contra hc
  rw [readBack, if_neg hc] at h
  have hn : highDigit c = c.toNat := by
    have hlt := highDigit_lt c
    have := congrArg UInt8.toNat h
    rwa [UInt8.toNat_ofNat', Nat.mod_eq_of_lt (by omega)] at this
  have hpos : c.toNat ≠ 0 := fun h => h0 (UInt8.toNat.inj h)
  rw [highDigit] at hn
  split at hn
  · omega
  · rename_i hge
    rw [UInt8.lt_iff_toNat_lt] at hge
    have : (128 : UInt8).toNat = 128 := rfl
    omega

theorem flatMap_escaped_of_alpha {s : List UInt8} (h : ∀ c ∈ s, cIsalpha c) :
    s.flatMap escaped = s := by
  induction s with
  | nil => rfl
  | cons c s ih =>
    rw [List.flatMap_cons, escaped, if_pos (h c (by simp)), ih fun d hd => h d (by simp [hd])]
    rfl

/-- The size of the buffer does not wrap when the letters fit it. -/
theorem size_of_fits {n : ℕ} (hlt : (3 * n + 1) % 2 ^ 32 < 0x7FFFFFFF)
    (hfit : n + 1 ≤ (3 * n + 1) % 2 ^ 32) : 3 * n + 1 < 0x7FFFFFFF := by
  rcases Nat.eq_zero_or_pos ((3 * n + 1) / 2 ^ 32) with hq | hq <;> omega

theorem map_readBack_iff {s : List UInt8} :
    s.map readBack = s ↔ ∀ c ∈ s, readBack c = c := by
  have h : s.map readBack = s.map id ↔ _ := List.map_inj_left
  rwa [List.map_id] at h

/-- A text without `NUL` comes back exactly if it consists of ASCII letters (and `escape_url` gets
its buffer). -/
theorem roundTrip_iff (fresh : ℕ → UInt8) {s : List UInt8} (h0 : (0 : UInt8) ∉ s) :
    RoundTrip fresh s ↔ (∀ c ∈ s, cIsalpha c) ∧ 3 * s.length + 1 < 0x7FFFFFFF := by
  constructor
  · rintro ⟨msg, n, hesc, hback⟩
    obtain ⟨⟨hlt, hfit⟩, rfl, rfl⟩ := (escapeUrl_eq_ok_iff _ _ _ _).1 hesc
    rw [unescapeUrl_escaped _ _ (by omega)] at hback
    have hmap : s.map readBack = s := by simpa using hback
    have halpha : ∀ c ∈ s, cIsalpha c := by
      intro c hc
      refine cIsalpha_of_readBack (fun h => h0 (h ▸ hc)) ?_
      exact map_readBack_iff.1 hmap c hc
    rw [flatMap_escaped_of_alpha halpha] at hfit
    exact ⟨halpha, size_of_fits hlt hfit⟩
  · rintro ⟨halpha, hsize⟩
    have hflat := flatMap_escaped_of_alpha halpha
    have hmod : (3 * s.length + 1) % 2 ^ 32 = 3 * s.length + 1 := Nat.mod_eq_of_lt (by omega)
    refine ⟨_, _, (escapeUrl_eq_ok_iff _ _ _ _).2 ⟨⟨?_, ?_⟩, rfl, rfl⟩, ?_⟩
    · rw [hmod]
      exact hsize
    · rw [hflat, hmod]
      omega
    · rw [unescapeUrl_escaped _ _ (by rw [hflat]; omega)]
      congr 1
      refine map_readBack_iff.2 fun c hc => ?_
      rw [readBack, if_pos (halpha c hc)]

theorem urlText_of_alpha {s : List UInt8} (h : ∀ c ∈ s, cIsalpha c) : UrlText s := by
  induction s with
  | nil => exact .nil
  | cons c s ih =>
    exact .char (by simp [unreserved, h c (by simp)]) (ih fun d hd => h d (by simp [hd]))

theorem cText_overlay (fresh : ℕ → UInt8) {s : List UInt8} (h0 : (0 : UInt8) ∉ s) :
    cText (overlay fresh 0 (s ++ [0])) s.length = s := by
  have hmap : (List.range s.length).map (overlay fresh 0 (s ++ [0])) = s := by
    refine List.ext_getElem (by simp) fun j h₁ h₂ => ?_
    rw [List.getElem_map, List.getElem_range, overlay_apply (by simp; omega),
      List.getD_append _ _ _ _ h₂, List.getD_eq_getElem _ _ h₂]
  rw [cText, hmap, List.takeWhile_eq_self_iff]
  intro c hc
  have hne : c ≠ 0 := by
    rintro rfl
    exact h0 hc
  simpa using hne

/-- **Main result.**  The escaping of a text without `NUL` is faithful exactly if the text consists
of ASCII letters, and is not longer than a buffer for it may be. -/
theorem escapeUrl_faithful_iff (fresh : ℕ → UInt8) (s : List UInt8) (h0 : (0 : UInt8) ∉ s) :
    Faithful fresh s ↔ (∀ c ∈ s, cIsalpha c) ∧ 3 * s.length + 1 < 0x7FFFFFFF := by
  constructor
  · rintro ⟨msg, n, hesc, hback, -, -⟩
    exact (roundTrip_iff fresh h0).1 ⟨msg, n, hesc, hback⟩
  · intro h
    have hflat := flatMap_escaped_of_alpha h.1
    obtain ⟨msg, n, hesc, hback⟩ := (roundTrip_iff fresh h0).2 h
    obtain ⟨-, rfl, rfl⟩ := (escapeUrl_eq_ok_iff _ _ _ _).1 hesc
    refine ⟨_, _, hesc, hback, ?_, ?_⟩
    · rw [hflat, cText_overlay fresh h0]
      exact urlText_of_alpha h.1
    · rw [hflat, cText_overlay fresh h0]

/-- The theorem at the text `ab`. -/
theorem escapeUrl_faithful_letters :
    Faithful (fun _ => 7) [97, 98] ↔
      (∀ c ∈ ([97, 98] : List UInt8), cIsalpha c) ∧ 3 * [97, 98].length + 1 < 0x7FFFFFFF :=
  escapeUrl_faithful_iff (fun _ => 7) [97, 98] (by decide)

/-- The text `a b` does not come back: its escape is the three characters `a%2`, reported as five
bytes, which read back as `a`, the byte 2 and `b`. -/
theorem not_faithful_space :
    ¬ ∀ s : List UInt8, (0 : UInt8) ∉ s → ∀ fresh, Faithful fresh s := by
  intro h
  obtain ⟨msg, n, hesc, hback, -⟩ := h [97, 32, 98] (by decide) fun _ => 0
  obtain ⟨-, rfl, rfl⟩ := (escapeUrl_eq_ok_iff _ _ _ _).1 hesc
  rw [unescapeUrl_escaped _ _ (by decide)] at hback
  exact absurd hback (by decide)

end Html

end Ocserv
