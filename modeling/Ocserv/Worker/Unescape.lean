import Mathlib.Data.Set.Insert
import Ocserv.Worker.Headers
import Ocserv.Worker.Html

/-!
# Worker: what the decoding of a form reads

`unescape_url` and `unescape_html` of `src/html.c`, with the bytes they read.  `syslog` prints the
text of a failed call as a string, so it reads up to the terminator.

* `unescapeUrl_exact_iff` : the texts on which `unescape_url` reads nothing else, and accepts
  exactly the escapes.
* `unescapeHtml_inside_iff` : the texts on which `unescape_html` reads nothing else.
-/

namespace Ocserv

namespace Html

open Worker (ascii cTolower)

/-! ### The functions of the source -/

/-- The entities `unescape_html` knows, in the order in which they are tried. -/
def entities : List (List UInt8 × UInt8) :=
  [(ascii "&lt;", 60), (ascii "&gt;", 62), (ascii "&nbsp;", 32), (ascii "&quot;", 34),
    (ascii "&amp;", 38), (ascii "&apos;", 39)]

/-- The first `n` bytes from offset `i` on are those of `s`, but for the case. -/
def agreesUpTo (mem : ℕ → UInt8) (i : ℕ) (s : List UInt8) (n : ℕ) : Prop :=
  ∀ k < n, cTolower (mem (i + k)) = s.getD k 0

instance (mem : ℕ → UInt8) (i : ℕ) (s : List UInt8) (n : ℕ) : Decidable (agreesUpTo mem i s n) :=
  inferInstanceAs (Decidable (∀ k < n, _))

/-- The loop of `unescape_html` from offset `i`; `fuel` bounds its rounds. -/
def unescapeHtml.loop (size : ℕ) (html : ℕ → UInt8) (len : ℕ) :
    ℕ → ℕ → List UInt8 → Except Failure (List UInt8)
  | 0, _, msg => .ok msg
  | fuel + 1, i, msg =>
    if i < len then
      if html i = 38 then
        -- `c_strncasecmp` for the length of the entity
        match entities.find? fun e => agreesUpTo html i e.1 e.1.length with
        | some e => push size msg e.2 >>= loop size html len fuel (i + e.1.length)
        | none => push size msg (html i) >>= loop size html len fuel (i + 1)
      else push size msg (html i) >>= loop size html len fuel (i + 1)
    else .ok msg

/-- `unescape_html`: the `*out_len` bytes of the result, which a terminator follows. -/
def unescapeHtml (html : ℕ → UInt8) (len : ℕ) : Except Failure (List UInt8) := do
  let size ← tallocSize ((len + 1) % 2 ^ 32)
  let msg ← unescapeHtml.loop size html len len 0 []
  let _ ← push size msg 0
  return msg

/-! ### What they read -/

/-- The string at the start of a memory, with its terminator. -/
def stringReads (mem : ℕ → UInt8) : Set ℕ := {j | ∀ k < j, mem k ≠ 0}

/-- `c_strncasecmp` reads up to the first difference. -/
def compareReads (mem : ℕ → UInt8) (i : ℕ) (s : List UInt8) : Set ℕ :=
  {j | ∃ k < s.length, j = i + k ∧ agreesUpTo mem i s k}

/-- The comparisons with the entities, up to the first that is there. -/
def entityReads (html : ℕ → UInt8) (i : ℕ) : List (List UInt8 × UInt8) → Set ℕ
  | [] => ∅
  | e :: es => compareReads html i e.1 ∪
      if agreesUpTo html i e.1 e.1.length then ∅ else entityReads html i es

/-- The offsets that the loop of `unescape_url` reads; `pos` bytes have been written. -/
def unescapeUrl.reads (size : ℕ) (url : ℕ → UInt8) (len : ℕ) : ℕ → ℕ → ℕ → Set ℕ
  | 0, _, _ => ∅
  | fuel + 1, i, pos =>
    if i < len then
      if url i = 37 then
        {i, i + 1, i + 2} ∪
          match scanfHex ([url (i + 1), url (i + 2)].takeWhile (· ≠ 0)) with
          | none => stringReads url
          | some _ => if pos < size then reads size url len fuel (i + 3) (pos + 1) else ∅
      else {i} ∪ if pos < size then reads size url len fuel (i + 1) (pos + 1) else ∅
    else ∅

/-- The offsets that `unescape_url` reads. -/
def unescapeUrlReads (url : ℕ → UInt8) (len : ℕ) : Set ℕ :=
  match tallocSize ((len + 1) % 2 ^ 32) with
  | .error _ => ∅
  | .ok size => unescapeUrl.reads size url len len 0 0

/-- The offsets that the loop of `unescape_html` reads; `pos` bytes have been written. -/
def unescapeHtml.reads (size : ℕ) (html : ℕ → UInt8) (len : ℕ) : ℕ → ℕ → ℕ → Set ℕ
  | 0, _, _ => ∅
  | fuel + 1, i, pos =>
    if i < len then
      if html i = 38 then
        {i} ∪ entityReads html i entities ∪
          match entities.find? fun e => agreesUpTo html i e.1 e.1.length with
          | some e => if pos < size then reads size html len fuel (i + e.1.length) (pos + 1) else ∅
          | none => if pos < size then reads size html len fuel (i + 1) (pos + 1) else ∅
      else {i} ∪ if pos < size then reads size html len fuel (i + 1) (pos + 1) else ∅
    else ∅

/-- The offsets that `unescape_html` reads. -/
def unescapeHtmlReads (html : ℕ → UInt8) (len : ℕ) : Set ℕ :=
  match tallocSize ((len + 1) % 2 ^ 32) with
  | .error _ => ∅
  | .ok size => unescapeHtml.reads size html len len 0 0

/-! ### What is asked of them -/

/-- `n` bytes of a memory. -/
def bytesAt (mem : ℕ → UInt8) (i n : ℕ) : List UInt8 := (List.range' i n).map mem

/-- The text that the escapes of `text` stand for. -/
def decode : List UInt8 → Option (List UInt8)
  | [] => some []
  | c :: t =>
    if c = 37 then
      match t with
      | a :: b :: t => do
        let u ← hexValue a
        let v ← hexValue b
        let msg ← decode t
        return UInt8.ofNat (16 * u + v) :: msg
      | _ => none
    else (decode t).map (c :: ·)

/-- `unescape_url` reads only the bytes it is given, depends on nothing else and returns what they
stand for. -/
structure UrlExact (url : ℕ → UInt8) (len : ℕ) : Prop where
  reads : ∀ i ∈ unescapeUrlReads url len, i < len
  agree : ∀ url', (∀ i < len, url' i = url i) → unescapeUrl url' len = unescapeUrl url len
  result : unescapeUrl url len = (decode (bytesAt url 0 len)).elim (.error .null) .ok

/-- `unescape_html` reads only the bytes it is given, depends on nothing else and writes only to
its buffer. -/
structure HtmlInside (html : ℕ → UInt8) (len : ℕ) : Prop where
  reads : ∀ i ∈ unescapeHtmlReads html len, i < len
  agree : ∀ html', (∀ i < len, html' i = html i) → unescapeHtml html' len = unescapeHtml html len
  inBuffer : unescapeHtml html len ≠ .error .overrun

/-- `sscanf` refuses the escape at the start of a text. -/
def refusedHere : List UInt8 → Bool
  | c :: a :: b :: _ => c = 37 && scanfHex ([a, b].takeWhile (· ≠ 0)) = none
  | _ => false

/-- `sscanf` refuses an escape of the text, and accepts those before it. -/
def refused : List UInt8 → Bool
  | [] => false
  | c :: t =>
    if c = 37 then
      match t with
      | a :: b :: t => scanfHex ([a, b].takeWhile (· ≠ 0)) = none || refused t
      | _ => false
    else refused t

/-- The texts for `unescape_url`: with a buffer, those of complete escapes, and those with an escape
that `sscanf` refuses and a terminator; without one, those that have no meaning.  The buffer for
`UINT_MAX` bytes has none. -/
def ReadableUrl (text : List UInt8) : Prop :=
  if text.length + 1 < 0x7FFFFFFF then (decode text).isSome ∨ (refused text ∧ 0 ∈ text)
  else if text.length + 1 < 2 ^ 32 then decode text = none
  else refusedHere text ∧ 0 ∈ text

instance (text : List UInt8) : Decidable (ReadableUrl text) :=
  inferInstanceAs (Decidable (ite _ _ _))

/-- The text ends within an entity: its last bytes begin one of them, but for the case. -/
def CutEntity (html : ℕ → UInt8) (len : ℕ) : Prop :=
  ∃ i < len, ∃ e ∈ entities, len - i < e.1.length ∧ agreesUpTo html i e.1 (len - i)

/-- The texts for `unescape_html`: with a buffer, none that ends within an entity. -/
def ReadableHtml (html : ℕ → UInt8) (len : ℕ) : Prop :=
  len + 1 < 2 ^ 32 ∧ (len + 1 < 0x7FFFFFFF → ¬ CutEntity html len)

/-! ### Writing -/

section Push

variable {size : ℕ} {msg : List UInt8} {f g : List UInt8 → Except Failure (List UInt8)}

theorem push_bind (h : msg.length < size) (c : UInt8) : push size msg c >>= f = f (msg ++ [c]) := by
  rw [push_of_lt c h]
  rfl

theorem push_bind_overrun (h : ¬ msg.length < size) (c : UInt8) :
    push size msg c >>= f = .error .overrun := by
  rw [push, if_neg h]
  rfl

theorem push_bind_congr (c : UInt8) (h : msg.length < size → f (msg ++ [c]) = g (msg ++ [c])) :
    push size msg c >>= f = push size msg c >>= g := by
  by_cases hlen : msg.length < size
  · rw [push_bind hlen, push_bind hlen, h hlen]
  · rw [push_bind_overrun hlen, push_bind_overrun hlen]

end Push

/-! ### URL escapes -/

section Url

variable {size len fuel i : ℕ} {url url' : ℕ → UInt8} {msg : List UInt8}

/-- The loop depends on nothing but the bytes it reads. -/
theorem unescapeUrl_loop_congr
    (h : ∀ j ∈ unescapeUrl.reads size url len fuel i msg.length, url' j = url j) :
    unescapeUrl.loop size url' len fuel i msg = unescapeUrl.loop size url len fuel i msg := by
  induction fuel generalizing i msg with
  | zero => rfl
  | succ fuel ih =>
    rw [unescapeUrl.reads] at h
    rw [unescapeUrl.loop, unescapeUrl.loop]
    by_cases hi : i < len
    · rw [if_pos hi] at h
      rw [if_pos hi, if_pos hi]
      by_cases hpercent : url i = 37
      · rw [if_pos hpercent] at h
        have h0 : url' i = 37 := (h i (.inl (by simp))).trans hpercent
        have h1 : url' (i + 1) = url (i + 1) := h (i + 1) (.inl (by simp))
        have h2 : url' (i + 2) = url (i + 2) := h (i + 2) (.inl (by simp))
        rw [if_pos h0, if_pos hpercent, h1, h2]
        cases hscan : scanfHex ([url (i + 1), url (i + 2)].takeWhile (· ≠ 0)) with
        | none => rfl
        | some u =>
          refine push_bind_congr _ fun hlen => ih fun j hj => h j (.inr ?_)
          rw [List.length_append, List.length_singleton] at hj
          rw [hscan]
          simpa only [if_pos hlen] using hj
      · rw [if_neg hpercent] at h
        have h0 : url' i = url i := h i (.inl rfl)
        rw [if_neg (h0 ▸ hpercent), if_neg hpercent, h0]
        refine push_bind_congr _ fun hlen => ih fun j hj => h j (.inr ?_)
        rw [List.length_append, List.length_singleton] at hj
        rwa [if_pos hlen]
    · rw [if_neg hi, if_neg hi]

theorem unescapeUrl_congr (h : ∀ j ∈ unescapeUrlReads url len, url' j = url j) :
    unescapeUrl url' len = unescapeUrl url len := by
  rw [unescapeUrlReads] at h
  rw [unescapeUrl, unescapeUrl]
  cases hsize : tallocSize ((len + 1) % 2 ^ 32) with
  | error e => rfl
  | ok size =>
    rw [hsize] at h
    change (unescapeUrl.loop size url' len len 0 [] >>= _) =
      (unescapeUrl.loop size url len len 0 [] >>= _)
    rw [unescapeUrl_loop_congr h]

/-- How the walk over a text ends: with the bytes to write, at an escape that is refused, or at one
that is cut off. -/
inductive Walk where
  | done (msg : List UInt8)
  | refused
  | cut

/-- One byte before the others. -/
def Walk.cons (c : UInt8) : Walk → Walk
  | done msg => done (c :: msg)
  | refused => refused
  | cut => cut

/-- The walk of `unescape_url` over a text. -/
def walk : List UInt8 → Walk
  | [] => .done []
  | c :: t =>
    if c = 37 then
      match t with
      | a :: b :: t =>
        match scanfHex ([a, b].takeWhile (· ≠ 0)) with
        | none => .refused
        | some u => (walk t).cons (UInt8.ofNat u)
      | _ => .cut
    else (walk t).cons c

theorem bytesAt_succ (mem : ℕ → UInt8) (i n : ℕ) :
    bytesAt mem i (n + 1) = mem i :: bytesAt mem (i + 1) n := by
  rw [bytesAt, List.range'_succ, List.map_cons]
  rfl

theorem walk_char {c : UInt8} (hc : c ≠ 37) (t : List UInt8) :
    walk (c :: t) = (walk t).cons c := by
  rw [walk.eq_def]
  simp only [if_neg hc]

theorem walk_refused {a b : UInt8} (h : scanfHex ([a, b].takeWhile (· ≠ 0)) = none)
    (t : List UInt8) : walk (37 :: a :: b :: t) = .refused := by
  rw [walk.eq_def]
  simp only [if_true, h]

theorem walk_escape {a b : UInt8} {u : ℕ} (h : scanfHex ([a, b].takeWhile (· ≠ 0)) = some u)
    (t : List UInt8) : walk (37 :: a :: b :: t) = (walk t).cons (UInt8.ofNat u) := by
  rw [walk.eq_def]
  simp only [if_true, h]

theorem walk_cut {t : List UInt8} (h : t.length < 2) : walk (37 :: t) = .cut := by
  match t, h with
  | [], _ => rfl
  | [a], _ => rfl

theorem Walk.cons_eq_done {w : Walk} {c : UInt8} {d : List UInt8} (h : w.cons c = done d) :
    ∃ d', w = done d' ∧ d = c :: d' := by
  cases w with
  | done d' =>
    cases h
    exact ⟨d', rfl, rfl⟩
  | refused => cases h
  | cut => cases h

/-- The cases of a text: none, a character, an escape, or one that is cut off. -/
theorem text_induction {P : List UInt8 → Prop} (nil : P [])
    (char : ∀ c t, c ≠ 37 → P t → P (c :: t)) (escape : ∀ a b t, P t → P (37 :: a :: b :: t))
    (cut : ∀ t : List UInt8, t.length < 2 → P (37 :: t)) : ∀ text, P text
  | [] => nil
  | c :: t => by
    by_cases hc : c = 37
    · subst hc
      match t with
      | [] => exact cut [] (by decide)
      | [a] => exact cut [a] (by simp)
      | a :: b :: t => exact escape a b t (text_induction nil char escape cut t)
    · exact char c t hc (text_induction nil char escape cut t)

/-- No byte that is written comes from less than one of the text. -/
theorem walk_length_le {text d : List UInt8} (h : walk text = .done d) :
    d.length ≤ text.length := by
  induction text using text_induction generalizing d with
  | nil =>
    cases h
    exact le_refl 0
  | char c t hc ih =>
    rw [walk_char hc] at h
    obtain ⟨d', hd, rfl⟩ := Walk.cons_eq_done h
    have hle := ih hd
    simp only [List.length_cons]
    omega
  | escape a b t ih =>
    cases hscan : scanfHex ([a, b].takeWhile (· ≠ 0)) with
    | none =>
      rw [walk_refused hscan] at h
      cases h
    | some u =>
      rw [walk_escape hscan] at h
      obtain ⟨d', hd, rfl⟩ := Walk.cons_eq_done h
      have hle := ih hd
      simp only [List.length_cons]
      omega
  | cut t ht =>
    rw [walk_cut ht] at h
    cases h

/-- The result and the reads of the loop, as a walk tells them; the text ends at `stop`. -/
def Walk.Tells (url : ℕ → UInt8) (stop : ℕ) (msg : List UInt8)
    (result : Except Failure (List UInt8)) (reads : Set ℕ) : Walk → Prop
  | done d => result = .ok (msg ++ d) ∧ ∀ j ∈ reads, j < stop
  | refused => result = .error .null ∧ stringReads url ⊆ reads ∧
      ∀ j ∈ reads, j < stop ∨ j ∈ stringReads url
  | cut => ∃ j ∈ reads, stop ≤ j

theorem Walk.Tells.cons {stop : ℕ} {c : UInt8} {result : Except Failure (List UInt8)}
    {first rest : Set ℕ} {w : Walk} (h : w.Tells url stop (msg ++ [c]) result rest)
    (hfirst : ∀ j ∈ first, j < stop) : (w.cons c).Tells url stop msg result (first ∪ rest) := by
  cases w with
  | done d =>
    refine ⟨by rw [h.1, List.append_assoc, List.singleton_append], fun j hj => ?_⟩
    exact hj.elim (hfirst j) (h.2 j)
  | refused =>
    refine ⟨h.1, fun j hj => .inr (h.2.1 hj), fun j hj => ?_⟩
    exact hj.elim (fun hj => .inl (hfirst j hj)) (h.2.2 j)
  | cut =>
    obtain ⟨j, hj, hstop⟩ := h
    exact ⟨j, .inr hj, hstop⟩

variable (url) in
/-- **The loop of `unescape_url`** by the walk over the bytes that are left. -/
theorem unescapeUrl_loop_walk {n : ℕ} (hfuel : n ≤ fuel) (hroom : msg.length + n < size) :
    (walk (bytesAt url i n)).Tells url (i + n) msg (unescapeUrl.loop size url (i + n) fuel i msg)
      (unescapeUrl.reads size url (i + n) fuel i msg.length) := by
  induction fuel generalizing i n msg with
  | zero =>
    obtain rfl : n = 0 := by omega
    exact ⟨by simp [unescapeUrl.loop], fun j hj => hj.elim⟩
  | succ fuel ih =>
    rw [unescapeUrl.loop, unescapeUrl.reads]
    by_cases hi : i < i + n
    · obtain ⟨n, rfl⟩ : ∃ k, n = k + 1 := ⟨n - 1, by omega⟩
      have hlen : msg.length < size := by omega
      have hmore (k : ℕ) (c : UInt8) (hk : k < n + 1) :
          (walk (bytesAt url (i + (k + 1)) (n - k))).Tells url (i + (n + 1)) (msg ++ [c])
            (unescapeUrl.loop size url (i + (n + 1)) fuel (i + (k + 1)) (msg ++ [c]))
            (unescapeUrl.reads size url (i + (n + 1)) fuel (i + (k + 1)) (msg.length + 1)) := by
        have hroom : (msg ++ [c]).length + (n - k) < size := by
          rw [List.length_append, List.length_singleton]
          omega
        have h := ih (i := i + (k + 1)) (n := n - k) (by omega) hroom
        rwa [show i + (k + 1) + (n - k) = i + (n + 1) by omega, List.length_append,
          List.length_singleton] at h
      rw [if_pos hi, if_pos hi, bytesAt_succ]
      by_cases hpercent : url i = 37
      · rw [if_pos hpercent, if_pos hpercent, hpercent]
        by_cases hn : n < 2
        · rw [walk_cut (by simpa [bytesAt] using hn)]
          exact ⟨i + 2, .inl (by simp), by omega⟩
        · obtain ⟨m, rfl⟩ : ∃ m, n = m + 2 := ⟨n - 2, by omega⟩
          have hfirst : ∀ j ∈ ({i, i + 1, i + 2} : Set ℕ), j < i + (m + 2 + 1) := by
            rintro j (rfl | rfl | rfl) <;> omega
          rw [bytesAt_succ, bytesAt_succ]
          cases hscan : scanfHex ([url (i + 1), url (i + 2)].takeWhile (· ≠ 0)) with
          | none =>
            rw [walk_refused hscan]
            exact ⟨rfl, fun j hj => .inr hj, fun j hj => hj.imp (hfirst j) id⟩
          | some u =>
            rw [walk_escape hscan]
            simp only [push_bind hlen, if_pos hlen]
            exact (hmore 2 (UInt8.ofNat u) (by omega)).cons hfirst
      · rw [if_neg hpercent, if_neg hpercent, walk_char hpercent, push_bind hlen, if_pos hlen]
        exact (hmore 0 (url i) (by omega)).cons fun j hj => by
          rw [Set.mem_singleton_iff.1 hj]
          exact hi
    · obtain rfl : n = 0 := by omega
      rw [if_neg hi, if_neg hi]
      exact ⟨by simp, fun j hj => hj.elim⟩

/-! ### The escapes of a text -/

theorem scanfHex_digits {a b : UInt8} {u v : ℕ} (ha : hexValue a = some u)
    (hb : hexValue b = some v) :
    scanfHex ([a, b].takeWhile (· ≠ 0)) = some (16 * u + v) := by
  have hne {c : UInt8} {w : ℕ} (h : hexValue c = some w) (c' : UInt8) (hc' : hexValue c' = none) :
      c ≠ c' := fun heq => by rw [heq, hc'] at h; cases h
  have hspace : isSpace a = false := by
    have hall : ∀ n : Fin 256, (hexValue (UInt8.ofNat n)).isSome →
        isSpace (UInt8.ofNat n) = false := by decide +kernel
    simpa [ha] using hall ⟨a.toNat, a.toNat_lt⟩
  have ha0 := hne ha 0 (by decide)
  have hb0 := hne hb 0 (by decide)
  have h45 := hne ha 45 (by decide)
  have h43 := hne ha 43 (by decide)
  have h120 := hne hb 120 (by decide)
  have h88 := hne hb 88 (by decide)
  simp [scanfHex, hspace, ha, hb, ha0, hb0, h45, h43, h120, h88]

theorem decode_char {c : UInt8} (hc : c ≠ 37) (t : List UInt8) :
    decode (c :: t) = (decode t).map (c :: ·) := by
  rw [decode.eq_def]
  simp only [if_neg hc]

theorem decode_escape (a b : UInt8) (t : List UInt8) :
    decode (37 :: a :: b :: t) = (hexValue a).bind fun u => (hexValue b).bind fun v =>
      (decode t).bind fun msg => some (UInt8.ofNat (16 * u + v) :: msg) := by
  rw [decode.eq_def]
  simp only [if_true]
  rfl

theorem decode_cut {t : List UInt8} (h : t.length < 2) : decode (37 :: t) = none := by
  match t, h with
  | [], _ => rfl
  | [a], _ => rfl

/-- A text has a meaning if every percent sign is followed by two hexadecimal digits. -/
theorem decode_isSome_iff (text : List UInt8) : (decode text).isSome ↔
    ∀ pre rest, text = pre ++ 37 :: rest →
      ∃ a b t, rest = a :: b :: t ∧ (hexValue a).isSome ∧ (hexValue b).isSome := by
  induction text using text_induction with
  | nil => simp [decode]
  | char c t hc ih =>
    rw [decode_char hc, Option.isSome_map, ih]
    constructor
    · rintro h (_ | ⟨c', pre⟩) rest heq
      · exact absurd (List.cons.inj heq).1 hc
      · exact h pre rest (List.cons.inj heq).2
    · exact fun h pre rest heq => h (c :: pre) rest (congrArg (c :: ·) heq)
  | escape a b t ih =>
    have hsplit : (decode (37 :: a :: b :: t)).isSome ↔
        (hexValue a).isSome ∧ (hexValue b).isSome ∧ (decode t).isSome := by
      rw [decode_escape]
      cases hexValue a <;> cases hexValue b <;> cases decode t <;> simp
    have hpercent {c : UInt8} (hc : (hexValue c).isSome) : c ≠ 37 := by
      rintro rfl
      exact absurd hc (by decide)
    rw [hsplit, ih]
    constructor
    · rintro ⟨ha, hb, ht⟩ (_ | ⟨_, _ | ⟨_, _ | ⟨_, pre⟩⟩⟩) rest heq
      · cases heq
        exact ⟨a, b, t, rfl, ha, hb⟩
      · exact absurd (List.cons.inj (List.cons.inj heq).2).1 (hpercent ha)
      · exact absurd (List.cons.inj (List.cons.inj (List.cons.inj heq).2).2).1 (hpercent hb)
      · exact ht pre rest (List.cons.inj (List.cons.inj (List.cons.inj heq).2).2).2
    · intro h
      obtain ⟨a', b', t', heq, ha, hb⟩ := h [] (a :: b :: t) rfl
      cases heq
      exact ⟨ha, hb, fun pre rest heq => h (37 :: a :: b :: pre) rest (by rw [heq]; rfl)⟩
  | cut t ht =>
    rw [decode_cut ht]
    refine iff_of_false Bool.false_ne_true fun h => ?_
    obtain ⟨a, b, t', rfl, -⟩ := h [] t rfl
    simp only [List.length_cons] at ht
    omega

/-- A walk over a text that has a meaning writes it. -/
theorem walk_of_decode {text d : List UInt8} (h : decode text = some d) : walk text = .done d := by
  induction text using text_induction generalizing d with
  | nil =>
    cases h
    rfl
  | char c t hc ih =>
    rw [decode_char hc] at h
    obtain ⟨d', hd, rfl⟩ := Option.map_eq_some_iff.1 h
    rw [walk_char hc, ih hd]
    rfl
  | escape a b t ih =>
    rw [decode_escape] at h
    obtain ⟨u, hu, h⟩ := Option.bind_eq_some_iff.1 h
    obtain ⟨v, hv, h⟩ := Option.bind_eq_some_iff.1 h
    obtain ⟨d', hd, h⟩ := Option.bind_eq_some_iff.1 h
    cases h
    rw [walk_escape (scanfHex_digits hu hv), ih hd]
    rfl
  | cut t ht =>
    rw [decode_cut ht] at h
    cases h

theorem Walk.cons_eq_refused {w : Walk} {c : UInt8} : w.cons c = refused ↔ w = refused := by
  cases w <;> simp [Walk.cons]

theorem refused_iff (text : List UInt8) : refused text = true ↔ walk text = .refused := by
  induction text using text_induction with
  | nil => simp [refused, walk]
  | char c t hc ih =>
    rw [walk_char hc, Walk.cons_eq_refused, ← ih, refused.eq_def]
    simp only [if_neg hc]
  | escape a b t ih =>
    rw [refused.eq_def]
    simp only [if_true, Bool.or_eq_true, decide_eq_true_eq]
    cases hscan : scanfHex ([a, b].takeWhile (· ≠ 0)) with
    | none => simp [walk_refused hscan]
    | some u => simp [walk_escape hscan, Walk.cons_eq_refused, ← ih]
  | cut t ht =>
    rw [walk_cut ht]
    match t, ht with
    | [], _ => simp [refused]
    | [a], _ => simp [refused]

theorem mem_bytesAt {mem : ℕ → UInt8} {n : ℕ} {c : UInt8} :
    c ∈ bytesAt mem 0 n ↔ ∃ k < n, mem k = c := by
  simp [bytesAt, List.mem_range'_1]

/-- The string ends within the text exactly if the text has a terminator. -/
theorem stringReads_inside {mem : ℕ → UInt8} {n : ℕ} :
    (∀ j ∈ stringReads mem, j < n) ↔ 0 ∈ bytesAt mem 0 n := by
  rw [mem_bytesAt]
  constructor
  · intro h
    by_contra hno
    push Not at hno
    exact lt_irrefl n (h n hno)
  · rintro ⟨k, hk, h0⟩ j hj
    by_contra hle
    exact hj k (by omega) h0

theorem urlExact_iff : UrlExact url len ↔ (∀ i ∈ unescapeUrlReads url len, i < len) ∧
    unescapeUrl url len = (decode (bytesAt url 0 len)).elim (.error .null) .ok :=
  ⟨fun h => ⟨h.reads, h.result⟩, fun h =>
    ⟨h.1, fun _ hagree => unescapeUrl_congr fun j hj => hagree j (h.1 j hj), h.2⟩⟩

theorem length_bytesAt (mem : ℕ → UInt8) (i n : ℕ) : (bytesAt mem i n).length = n := by
  simp [bytesAt]

/-- With a buffer for the text and its terminator. -/
theorem unescapeUrl_exact_granted (hsize : len + 1 < 0x7FFFFFFF) :
    UrlExact url len ↔ (decode (bytesAt url 0 len)).isSome ∨
      (refused (bytesAt url 0 len) ∧ 0 ∈ bytesAt url 0 len) := by
  have htalloc : tallocSize ((len + 1) % 2 ^ 32) = .ok (len + 1) := by
    rw [Nat.mod_eq_of_lt (by omega), tallocSize, if_pos hsize]
  have hreads : unescapeUrlReads url len = unescapeUrl.reads (len + 1) url len len 0 0 := by
    rw [unescapeUrlReads, htalloc]
  have hcall : unescapeUrl url len = (unescapeUrl.loop (len + 1) url len len 0 [] >>= fun msg =>
      push (len + 1) msg 0 >>= fun _ => .ok msg) := by
    rw [unescapeUrl, htalloc]
    rfl
  have hroom : ([] : List UInt8).length + len < len + 1 := by
    rw [List.length_nil]
    omega
  have hwalk := unescapeUrl_loop_walk url (i := 0) (le_refl len) hroom
  rw [Nat.zero_add, List.length_nil] at hwalk
  have hdecode {d : List UInt8} (h : decode (bytesAt url 0 len) = some d) := walk_of_decode h
  rw [urlExact_iff, refused_iff, hreads, hcall]
  cases hw : walk (bytesAt url 0 len) with
  | done d =>
    rw [hw] at hwalk
    have hle := walk_length_le hw
    rw [length_bytesAt] at hle
    rw [hwalk.1, List.nil_append]
    change (_ ∧ (push (len + 1) d 0 >>= fun _ => Except.ok d) = _) ↔ _
    rw [push_bind (by omega)]
    cases hd : decode (bytesAt url 0 len) with
    | none => simp
    | some d' =>
      rw [hdecode hd] at hw
      cases hw
      simpa using hwalk.2
  | refused =>
    rw [hw] at hwalk
    have hnone : decode (bytesAt url 0 len) = none := by
      by_contra h
      obtain ⟨d, hd⟩ := Option.ne_none_iff_exists'.1 h
      rw [hdecode hd] at hw
      cases hw
    rw [hwalk.1, hnone, ← stringReads_inside]
    simp only [Option.isSome_none, Bool.false_eq_true, false_or, true_and]
    exact ⟨fun h j hj => h.1 j (hwalk.2.1 hj), fun h =>
      ⟨fun j hj => (hwalk.2.2 j hj).elim id (h j), rfl⟩⟩
  | cut =>
    rw [hw] at hwalk
    obtain ⟨j, hj, hle⟩ := hwalk
    have hnone : decode (bytesAt url 0 len) = none := by
      by_contra h
      obtain ⟨d, hd⟩ := Option.ne_none_iff_exists'.1 h
      rw [hdecode hd] at hw
      cases hw
    refine iff_of_false (fun h => absurd (h.1 j hj) (by omega)) ?_
    simp [hnone]

/-- A buffer of no bytes. -/
theorem unescapeUrl_exact_empty (hsize : len + 1 = 2 ^ 32) :
    UrlExact url len ↔ refusedHere (bytesAt url 0 len) ∧ 0 ∈ bytesAt url 0 len := by
  have htalloc : tallocSize ((len + 1) % 2 ^ 32) = .ok 0 := by
    rw [hsize]
    rfl
  obtain ⟨n, rfl⟩ : ∃ n, len = n + 3 := ⟨len - 3, by omega⟩
  have hreads : unescapeUrlReads url (n + 3) =
      unescapeUrl.reads 0 url (n + 3) (n + 3) 0 0 := by
    rw [unescapeUrlReads, htalloc]
  have hcall : unescapeUrl url (n + 3) =
      (unescapeUrl.loop 0 url (n + 3) (n + 3) 0 [] >>= fun msg =>
        push 0 msg 0 >>= fun _ => .ok msg) := by
    rw [unescapeUrl, htalloc]
    rfl
  have htext : bytesAt url 0 (n + 3) = url 0 :: url 1 :: url 2 :: bytesAt url 3 n := by
    rw [bytesAt_succ, bytesAt_succ, bytesAt_succ]
  have hoverrun (f g : List UInt8 → Except Failure (List UInt8)) (c : UInt8)
      (d : Option (List UInt8)) : ¬ (push 0 [] c >>= f) >>= g = d.elim (.error .null) .ok := by
    rw [push_bind_overrun (by simp)]
    cases d <;> exact fun h => by cases h
  rw [unescapeUrl.reads, if_pos (Nat.succ_pos _)] at hreads
  rw [unescapeUrl.loop, if_pos (Nat.succ_pos _)] at hcall
  rw [urlExact_iff, hreads, hcall, htext, refusedHere]
  by_cases hpercent : url 0 = 37
  · rw [if_pos hpercent, if_pos hpercent]
    simp only [Nat.zero_add, hpercent, decide_true, Bool.true_and, decide_eq_true_eq]
    cases hscan : scanfHex ([url 1, url 2].takeWhile (· ≠ 0)) with
    | none =>
      have hnone : decode (37 :: url 1 :: url 2 :: bytesAt url 3 n) = none := by
        by_contra h
        obtain ⟨d, hd⟩ := Option.ne_none_iff_exists'.1 h
        have hwalk := walk_of_decode hd
        rw [walk_refused hscan] at hwalk
        cases hwalk
      rw [hnone, ← hpercent, ← htext, ← stringReads_inside, and_iff_right rfl]
      refine ⟨fun h j hj => h.1 j (.inr hj), fun h => ⟨fun j hj => hj.elim ?_ (h j), rfl⟩⟩
      rintro (rfl | rfl | rfl) <;> omega
    | some u => exact iff_of_false (fun h => hoverrun _ _ (UInt8.ofNat u) _ h.2) (by simp)
  · rw [if_neg hpercent, if_neg hpercent]
    refine iff_of_false (fun h => hoverrun _ _ (url 0) _ h.2) ?_
    simp [hpercent]

/-- **Main result.** The texts on which `unescape_url` reads only its bytes and accepts exactly the
escapes. -/
theorem unescapeUrl_exact_iff (url : ℕ → UInt8) {len : ℕ} (hlen : len < 2 ^ 32) :
    UrlExact url len ↔ ReadableUrl (bytesAt url 0 len) := by
  rw [ReadableUrl, length_bytesAt]
  split_ifs with hgranted hrefused
  · exact unescapeUrl_exact_granted hgranted
  · have htalloc : tallocSize ((len + 1) % 2 ^ 32) = .error .null := by
      rw [Nat.mod_eq_of_lt hrefused, tallocSize, if_neg hgranted]
    have hreads : unescapeUrlReads url len = ∅ := by
      rw [unescapeUrlReads, htalloc]
    have hcall : unescapeUrl url len = .error .null := by
      rw [unescapeUrl, htalloc]
      rfl
    rw [urlExact_iff, hreads, hcall]
    cases decode (bytesAt url 0 len) <;> simp
  · exact unescapeUrl_exact_empty (by omega)

end Url

/-! ### HTML entities -/

section Html

variable {size len fuel i : ℕ} {html html' : ℕ → UInt8} {msg : List UInt8}

theorem agreesUpTo.mono {s : List UInt8} {m n : ℕ} (h : agreesUpTo html i s n) (hle : m ≤ n) :
    agreesUpTo html i s m := fun k hk => h k (hk.trans_le hle)

/-- A comparison depends on nothing but the bytes it reads. -/
theorem agreesUpTo_congr {s : List UInt8} (h : ∀ j ∈ compareReads html i s, html' j = html j)
    {n : ℕ} (hn : n ≤ s.length) : agreesUpTo html' i s n ↔ agreesUpTo html i s n := by
  induction n with
  | zero => exact ⟨fun _ k hk => absurd hk (Nat.not_lt_zero k), fun _ k hk =>
      absurd hk (Nat.not_lt_zero k)⟩
  | succ n ih =>
    have hsplit (mem : ℕ → UInt8) : agreesUpTo mem i s (n + 1) ↔
        agreesUpTo mem i s n ∧ cTolower (mem (i + n)) = s.getD n 0 := by
      simp only [agreesUpTo, Nat.lt_succ_iff_lt_or_eq, or_imp, forall_and, forall_eq]
    rw [hsplit, hsplit, ih (by omega)]
    refine and_congr_right fun hagree => ?_
    rw [h (i + n) ⟨n, by omega, rfl, hagree⟩]

theorem find?_entity_congr {es : List (List UInt8 × UInt8)}
    (h : ∀ j ∈ entityReads html i es, html' j = html j) :
    (es.find? fun e => agreesUpTo html' i e.1 e.1.length) =
      es.find? fun e => agreesUpTo html i e.1 e.1.length := by
  induction es with
  | nil => rfl
  | cons e es ih =>
    have hcompare := agreesUpTo_congr (fun j hj => h j (.inl hj)) (le_refl e.1.length)
    by_cases he : agreesUpTo html i e.1 e.1.length
    · rw [List.find?_cons_of_pos (by simpa using hcompare.2 he),
        List.find?_cons_of_pos (by simpa using he)]
    · rw [List.find?_cons_of_neg (by simpa [hcompare] using he),
        List.find?_cons_of_neg (by simpa using he)]
      refine ih fun j hj => h j (.inr ?_)
      rwa [if_neg he]

/-- The loop depends on nothing but the bytes it reads. -/
theorem unescapeHtml_loop_congr
    (h : ∀ j ∈ unescapeHtml.reads size html len fuel i msg.length, html' j = html j) :
    unescapeHtml.loop size html' len fuel i msg = unescapeHtml.loop size html len fuel i msg := by
  induction fuel generalizing i msg with
  | zero => rfl
  | succ fuel ih =>
    rw [unescapeHtml.reads] at h
    rw [unescapeHtml.loop, unescapeHtml.loop]
    by_cases hi : i < len
    · have hnext (k : ℕ) (c : UInt8) (hlen : msg.length < size)
          (hk : ∀ j ∈ unescapeHtml.reads size html len fuel k (msg.length + 1),
            html' j = html j) :
          unescapeHtml.loop size html' len fuel k (msg ++ [c]) =
            unescapeHtml.loop size html len fuel k (msg ++ [c]) := by
        refine ih fun j hj => hk j ?_
        rwa [List.length_append, List.length_singleton] at hj
      rw [if_pos hi] at h
      rw [if_pos hi, if_pos hi]
      by_cases hamp : html i = 38
      · rw [if_pos hamp] at h
        have h0 : html' i = html i := h i (.inl (.inl rfl))
        rw [h0, if_pos hamp, if_pos hamp,
          find?_entity_congr fun j hj => h j (.inl (.inr hj))]
        cases hfind : entities.find? fun e => agreesUpTo html i e.1 e.1.length with
        | none =>
          refine push_bind_congr _ fun hlen => hnext _ _ hlen fun j hj => h j (.inr ?_)
          rw [hfind]
          simpa only [if_pos hlen] using hj
        | some e =>
          refine push_bind_congr _ fun hlen => hnext _ _ hlen fun j hj => h j (.inr ?_)
          rw [hfind]
          simpa only [if_pos hlen] using hj
      · rw [if_neg hamp] at h
        have h0 : html' i = html i := h i (.inl rfl)
        rw [h0, if_neg hamp, if_neg hamp]
        refine push_bind_congr _ fun hlen => hnext _ _ hlen fun j hj => h j (.inr ?_)
        rwa [if_pos hlen]
    · rw [if_neg hi, if_neg hi]

theorem unescapeHtml_congr (h : ∀ j ∈ unescapeHtmlReads html len, html' j = html j) :
    unescapeHtml html' len = unescapeHtml html len := by
  rw [unescapeHtmlReads] at h
  rw [unescapeHtml, unescapeHtml]
  cases hsize : tallocSize ((len + 1) % 2 ^ 32) with
  | error e => rfl
  | ok size =>
    rw [hsize] at h
    change (unescapeHtml.loop size html' len len 0 [] >>= _) =
      (unescapeHtml.loop size html len len 0 [] >>= _)
    rw [unescapeHtml_loop_congr h]

theorem entity_pos {e : List UInt8 × UInt8} (h : e ∈ entities) : 0 < e.1.length := by
  have hall : ∀ e ∈ entities, 0 < e.1.length := by decide
  exact hall e h

variable (html) in
/-- The loop writes one byte for one byte or more. -/
theorem unescapeHtml_loop_fits (hfuel : len - i ≤ fuel) (hroom : msg.length + (len - i) < size) :
    ∃ d, unescapeHtml.loop size html len fuel i msg = .ok d ∧ d.length < size := by
  induction fuel generalizing i msg with
  | zero => exact ⟨msg, rfl, by omega⟩
  | succ fuel ih =>
    rw [unescapeHtml.loop]
    by_cases hi : i < len
    · have hnext (k : ℕ) (hk : 0 < k) (c : UInt8) :
          ∃ d, push size msg c >>= unescapeHtml.loop size html len fuel (i + k) = .ok d ∧
            d.length < size := by
        rw [push_bind (by omega)]
        exact ih (by omega) (by rw [List.length_append, List.length_singleton]; omega)
      rw [if_pos hi]
      split_ifs
      · cases hfind : entities.find? fun e => agreesUpTo html i e.1 e.1.length with
        | none => exact hnext 1 Nat.one_pos _
        | some e => exact hnext _ (entity_pos (List.mem_of_find?_eq_some hfind)) _
      · exact hnext 1 Nat.one_pos _
    · rw [if_neg hi]
      exact ⟨msg, rfl, by omega⟩

/-- Where no entity is cut off, the comparisons stay in the text. -/
theorem entityReads_inside (h : ¬ CutEntity html len) (hi : i < len)
    {es : List (List UInt8 × UInt8)} (hes : es ⊆ entities) :
    ∀ j ∈ entityReads html i es, j < len := by
  induction es with
  | nil => exact fun j hj => hj.elim
  | cons e es ih =>
    rintro j (⟨k, hk, rfl, hagree⟩ | hj)
    · by_contra hle
      exact h ⟨i, hi, e, hes List.mem_cons_self, by omega, hagree.mono (by omega)⟩
    · split_ifs at hj
      · exact hj.elim
      · exact ih (fun e he => hes (List.mem_cons_of_mem _ he)) j hj

theorem unescapeHtml_reads_inside (h : ¬ CutEntity html len) {pos : ℕ} :
    ∀ j ∈ unescapeHtml.reads size html len fuel i pos, j < len := by
  induction fuel generalizing i pos with
  | zero => exact fun j hj => hj.elim
  | succ fuel ih =>
    intro j hj
    have hnext {k : ℕ} (hj : j ∈ if pos < size then
        unescapeHtml.reads size html len fuel k (pos + 1) else ∅) : j < len := by
      split_ifs at hj
      · exact ih j hj
      · exact hj.elim
    rw [unescapeHtml.reads] at hj
    by_cases hi : i < len
    · rw [if_pos hi] at hj
      by_cases hamp : html i = 38
      · rw [if_pos hamp] at hj
        rcases hj with (rfl | hj) | hj
        · exact hi
        · exact entityReads_inside h hi (List.Subset.refl _) j hj
        · cases hfind : entities.find? fun e => agreesUpTo html i e.1 e.1.length with
          | none =>
            rw [hfind] at hj
            exact hnext hj
          | some e =>
            rw [hfind] at hj
            exact hnext hj
      · rw [if_neg hamp] at hj
        rcases hj with rfl | hj
        · exact hi
        · exact hnext hj
    · rw [if_neg hi] at hj
      exact hj.elim

/-- No entity begins with another. -/
theorem entity_not_prefix {e e' : List UInt8 × UInt8} (he : e ∈ entities) (he' : e' ∈ entities)
    (hlt : e'.1.length < e.1.length) : ∃ k < e'.1.length, e'.1.getD k 0 ≠ e.1.getD k 0 := by
  have hall : ∀ e ∈ entities, ∀ e' ∈ entities, e'.1.length < e.1.length →
      ∃ k < e'.1.length, e'.1.getD k 0 ≠ e.1.getD k 0 := by decide
  exact hall e he e' he' hlt

/-- An ampersand stands at the start of every entity, and nowhere else in one. -/
theorem entity_ampersand {e : List UInt8 × UInt8} (he : e ∈ entities) {k : ℕ}
    (hk : k < e.1.length) : e.1.getD k 0 = 38 ↔ k = 0 := by
  have hall : ∀ e ∈ entities, ∀ k < e.1.length, e.1.getD k 0 = 38 ↔ k = 0 := by decide
  exact hall e he k hk

theorem cTolower_ampersand {c : UInt8} (h : cTolower c = 38) : c = 38 := by
  have hall : ∀ n : Fin 256, cTolower (UInt8.ofNat n) = 38 → UInt8.ofNat n = 38 := by
    decide +kernel
  have hc := hall ⟨c.toNat, c.toNat_lt⟩
  simp only [UInt8.ofNat_toNat] at hc
  exact hc h

/-- An entity that is cut off at the end of the text is compared beyond it. -/
theorem entityReads_cut {e : List UInt8 × UInt8} (he : e ∈ entities) (hi : i < len)
    (hlt : len - i < e.1.length) (hagree : agreesUpTo html i e.1 (len - i))
    {es : List (List UInt8 × UInt8)} (hes : es ⊆ entities) (hmem : e ∈ es) :
    ∃ j ∈ entityReads html i es, len ≤ j := by
  have hbeyond {s : List UInt8} (hs : len - i < s.length) (hagree : agreesUpTo html i s (len - i)) :
      len ∈ compareReads html i s := ⟨len - i, hs, by omega, hagree⟩
  induction es with
  | nil => cases hmem
  | cons e' es ih =>
    rcases List.mem_cons.1 hmem with rfl | hmem
    · exact ⟨len, .inl (hbeyond hlt hagree), le_refl _⟩
    · by_cases he' : agreesUpTo html i e'.1 e'.1.length
      · by_cases hshort : len - i < e'.1.length
        · exact ⟨len, .inl (hbeyond hshort (he'.mono hshort.le)), le_refl _⟩
        · obtain ⟨k, hk, hne⟩ := entity_not_prefix he (hes List.mem_cons_self) (by omega)
          exact absurd ((he' k hk).symm.trans (hagree k (by omega))) hne
      · obtain ⟨j, hj, hle⟩ := ih (fun e he => hes (List.mem_cons_of_mem _ he)) hmem
        refine ⟨j, .inr ?_, hle⟩
        rwa [if_neg he']

/-- The loop gets to every ampersand. -/
theorem unescapeHtml_reads_cut {pos k : ℕ} {e : List UInt8 × UInt8} (hik : i ≤ k) (hk : k < len)
    (he : e ∈ entities) (hlt : len - k < e.1.length) (hagree : agreesUpTo html k e.1 (len - k))
    (hfuel : len - i ≤ fuel) (hroom : pos + (len - i) ≤ size) :
    ∃ j ∈ unescapeHtml.reads size html len fuel i pos, len ≤ j := by
  have hhead : cTolower (html k) = 38 :=
    (hagree 0 (by omega)).trans ((entity_ampersand he (entity_pos he)).2 rfl)
  induction fuel generalizing i pos with
  | zero => omega
  | succ fuel ih =>
    have hnext {i' : ℕ} (hi' : i < i') (hik' : i' ≤ k) :
        ∃ j ∈ if pos < size then unescapeHtml.reads size html len fuel i' (pos + 1) else ∅,
          len ≤ j := by
      rw [if_pos (by omega)]
      exact ih hik' (by omega) (by omega)
    rw [unescapeHtml.reads, if_pos (by omega)]
    rcases hik.eq_or_lt with rfl | hlt'
    · rw [if_pos (cTolower_ampersand hhead)]
      obtain ⟨j, hj, hle⟩ := entityReads_cut he hk hlt hagree (List.Subset.refl _) he
      exact ⟨j, .inl (.inr hj), hle⟩
    · by_cases hamp : html i = 38
      · rw [if_pos hamp]
        cases hfind : entities.find? fun e => agreesUpTo html i e.1 e.1.length with
        | none =>
          obtain ⟨j, hj, hle⟩ := hnext (Nat.lt_succ_self i) hlt'
          exact ⟨j, .inr hj, hle⟩
        | some e' =>
          have hmem := List.mem_of_find?_eq_some hfind
          have he' : agreesUpTo html i e'.1 e'.1.length := by
            simpa using List.find?_some hfind
          -- the ampersand at `k` does not stand within the entity at `i`
          have hpast : i + e'.1.length ≤ k := by
            by_contra hinside
            have hin := he' (k - i) (by omega)
            rw [show i + (k - i) = k by omega, hhead] at hin
            have hzero := (entity_ampersand hmem (by omega)).1 hin.symm
            omega
          obtain ⟨j, hj, hle⟩ := hnext (Nat.lt_add_of_pos_right (entity_pos hmem)) hpast
          exact ⟨j, .inr hj, hle⟩
      · rw [if_neg hamp]
        obtain ⟨j, hj, hle⟩ := hnext (Nat.lt_succ_self i) hlt'
        exact ⟨j, .inr hj, hle⟩

/-- With a buffer for the text and its terminator. -/
theorem unescapeHtml_inside_granted (html : ℕ → UInt8) (hgranted : len + 1 < 0x7FFFFFFF) :
    HtmlInside html len ↔ ReadableHtml html len := by
  have htalloc : tallocSize ((len + 1) % 2 ^ 32) = .ok (len + 1) := by
    rw [Nat.mod_eq_of_lt (by omega), tallocSize, if_pos hgranted]
  have hreads : unescapeHtmlReads html len = unescapeHtml.reads (len + 1) html len len 0 0 := by
    rw [unescapeHtmlReads, htalloc]
  have hroom : ([] : List UInt8).length + (len - 0) < len + 1 := by
    rw [List.length_nil]
    omega
  obtain ⟨d, hd, hlt⟩ := unescapeHtml_loop_fits html (Nat.sub_le len 0) hroom
  have hcall : unescapeHtml html len = .ok d := by
    rw [unescapeHtml, htalloc]
    change (unescapeHtml.loop (len + 1) html len len 0 [] >>= _) = _
    rw [hd]
    exact push_bind hlt 0
  rw [ReadableHtml]
  constructor
  · intro h
    refine ⟨by omega, fun _ hcut => ?_⟩
    obtain ⟨k, hk, e, he, hlt, hagree⟩ := hcut
    have hroom : 0 + (len - 0) ≤ len + 1 := by omega
    obtain ⟨j, hj, hle⟩ := unescapeHtml_reads_cut (Nat.zero_le k) hk he hlt hagree
      (Nat.sub_le len 0) hroom
    exact absurd (h.reads j (hreads ▸ hj)) (by omega)
  · rintro ⟨-, h⟩
    have hinside : ∀ j ∈ unescapeHtmlReads html len, j < len := by
      rw [hreads]
      exact unescapeHtml_reads_inside (h hgranted)
    refine ⟨hinside, fun _ hagree => unescapeHtml_congr fun j hj => hagree j (hinside j hj), ?_⟩
    rw [hcall]
    exact fun h => by cases h

/-- A buffer that is refused: nothing is read. -/
theorem unescapeHtml_inside_refused (html : ℕ → UInt8) (hgranted : ¬ len + 1 < 0x7FFFFFFF)
    (hlen : len + 1 < 2 ^ 32) : HtmlInside html len := by
  have htalloc : tallocSize ((len + 1) % 2 ^ 32) = .error .null := by
    rw [Nat.mod_eq_of_lt hlen, tallocSize, if_neg hgranted]
  have hcall (mem : ℕ → UInt8) : unescapeHtml mem len = .error .null := by
    rw [unescapeHtml, htalloc]
    rfl
  refine ⟨fun j hj => ?_, fun _ _ => by rw [hcall, hcall], ?_⟩
  · rw [unescapeHtmlReads, htalloc] at hj
    exact hj.elim
  · rw [hcall]
    exact fun h => by cases h

/-- A buffer whose size wraps to zero. -/
theorem unescapeHtml_overrun (html : ℕ → UInt8) (hlen : len + 1 = 2 ^ 32) :
    unescapeHtml html len = .error .overrun := by
  have htalloc : tallocSize ((len + 1) % 2 ^ 32) = .ok 0 := by
    rw [hlen]
    rfl
  obtain ⟨n, rfl⟩ : ∃ n, len = n + 1 := ⟨len - 1, by omega⟩
  rw [unescapeHtml, htalloc]
  change (unescapeHtml.loop 0 html (n + 1) (n + 1) 0 [] >>= _) = _
  rw [unescapeHtml.loop, if_pos (Nat.succ_pos n)]
  split_ifs
  · cases entities.find? fun e => agreesUpTo html 0 e.1 e.1.length <;> rfl
  · rfl

/-- **Main result.** The texts on which `unescape_html` reads only its bytes. -/
theorem unescapeHtml_inside_iff (html : ℕ → UInt8) {len : ℕ} (hlen : len < 2 ^ 32) :
    HtmlInside html len ↔ ReadableHtml html len := by
  by_cases hgranted : len + 1 < 0x7FFFFFFF
  · exact unescapeHtml_inside_granted html hgranted
  · by_cases hrefused : len + 1 < 2 ^ 32
    · exact iff_of_true (unescapeHtml_inside_refused html hgranted hrefused)
        ⟨hrefused, fun h => absurd h hgranted⟩
    · exact iff_of_false (fun h => h.inBuffer (unescapeHtml_overrun html (by omega)))
        fun h => hrefused h.1

end Html

/-- **Main result.** Both functions stay within a text and accept exactly the escapes, just for the
readable texts. -/
theorem unescape_iff (text : ℕ → UInt8) (len : UInt32) :
    (UrlExact text len.toNat ↔ ReadableUrl (bytesAt text 0 len.toNat)) ∧
      (HtmlInside text len.toNat ↔ ReadableHtml text len.toNat) :=
  ⟨unescapeUrl_exact_iff text len.toNat_lt, unescapeHtml_inside_iff text len.toNat_lt⟩

/-- The value `%4` in the form `username=%4&password=x`: the ampersand is read as the second
digit. -/
theorem not_unescape_cut :
    ¬ ∀ (text : ℕ → UInt8) (len : UInt32), UrlExact text len.toNat ∧ HtmlInside text len.toNat := by
  intro h
  have hexact := (h (fun i => (ascii "%4&password=x").getD i 0) 2).1
  exact absurd ((unescapeUrl_exact_iff _ (by decide)).1 hexact) (by decide)

end Html

end Ocserv
