import Mathlib.Algebra.GroupWithZero.Nat
import Mathlib.Data.List.Range
import Mathlib.Algebra.Order.Group.Int

/-!
# Worker: sending a buffer

`cstp_send` and `dtls_send` of `src/tlslib.c` and `force_write` of `src/common.c` send a buffer
with a primitive that may take a part of it, or nothing.  All three are one loop (`sendLoop`);
what differs is how many bytes from `p` on a call offers the primitive: `force_write` offers what
is left, the loops around `gnutls_record_send` offer `data_size` bytes every time.

* `Run.Exact` : the primitive took the bytes of the buffer, once each and in order, and was
  never offered a byte behind it.
* `send_exact_iff` : when a buffer is sent that way, for each kind of session.
-/

namespace Ocserv

namespace Worker

namespace Transmit

/-- What one call of the primitive returns: `EAGAIN` and `EINTR` of `write`, and
`GNUTLS_E_AGAIN` and `GNUTLS_E_INTERRUPTED` of `gnutls_record_send`, leave the buffer alone. -/
inductive Ret where
  | bytes (n : ℕ)
  | again
  | interrupted
  | error (code : ℤ)
  deriving DecidableEq, Repr

/-- The number of bytes the call took. -/
def Ret.taken : Ret → ℕ
  | bytes n => n
  | again | interrupted | error _ => 0

/-- A call of the primitive: it is offered `count` bytes from position `pos` of the buffer on and
takes the first `taken` of them. -/
structure Call where
  pos : ℕ
  count : ℕ
  taken : ℕ
  deriving DecidableEq, Repr

/-- A run of a loop: its calls, and the value it returns.  `none` while it still calls. -/
structure Run where
  calls : List Call
  ret : Option ℤ
  deriving DecidableEq, Repr

/-- One call more, before the others. -/
def Run.push (c : Call) (r : Run) : Run := ⟨c :: r.calls, r.ret⟩

/-- A `size_t` stored in an `int`. -/
def asInt (n : ℕ) : ℤ := ((n + 2 ^ 31) % 2 ^ 32 : ℕ) - 2 ^ 31

/-- `while (left > 0)`, with the results of the primitive one after the other; `count left` bytes
are offered from `p` on. -/
def sendLoop (count : ℤ → ℕ) (dataSize : ℕ) : List Ret → ℤ → ℕ → Run
  | [], left, _ => ⟨[], if left > 0 then none else some dataSize⟩
  | r :: rs, left, p =>
    if left > 0 then
      match r with
      | .bytes n => (sendLoop count dataSize rs (left - n) (p + n)).push ⟨p, count left, n⟩
      -- `ms_sleep`, and once more
      | .again | .interrupted => (sendLoop count dataSize rs left p).push ⟨p, count left, 0⟩
      | .error code => ⟨[⟨p, count left, 0⟩], some code⟩
    else ⟨[], some dataSize⟩

/-- `force_write`. -/
def forceWrite (len : ℕ) (rs : List Ret) : Run := sendLoop Int.toNat len rs (asInt len) 0

/-- `cstp_send`; `session` if the connection has a TLS session. -/
def cstpSend (session : Bool) (dataSize : ℕ) (rs : List Ret) : Run :=
  if session then sendLoop (fun _ => dataSize) dataSize rs (asInt dataSize) 0
  else forceWrite dataSize rs

/-- `dtls_send`. -/
def dtlsSend (dataSize : ℕ) (rs : List Ret) : Run :=
  sendLoop (fun _ => dataSize) dataSize rs (asInt dataSize) 0

/-- The ways a worker sends. -/
inductive Kind where
  | tls
  | plain
  | dtls
  deriving DecidableEq, Repr

/-- The function that sends. -/
def send : Kind → ℕ → List Ret → Run
  | .tls => cstpSend true
  | .plain => cstpSend false
  | .dtls => dtlsSend

/-- The positions the primitive took, in the order it did. -/
def Run.consumed (r : Run) : List ℕ := r.calls.flatMap fun c => List.range' c.pos c.taken

/-- The bytes delivered, where `mem` is the memory from the start of the buffer on. -/
def Run.stream (mem : ℕ → UInt8) (r : Run) : List UInt8 := r.consumed.map mem

/-- The buffer of `size` bytes was transmitted: every byte once and in order, and the primitive
was never offered a byte behind them. -/
structure Run.Exact (size : ℕ) (r : Run) : Prop where
  ret : r.ret = some (size : ℤ)
  consumed : r.consumed = List.range size
  inside : ∀ c ∈ r.calls, c.pos + c.count ≤ size

/-- The primitive does not fail and in the end accepts `size` bytes.  It takes no more than it is
offered, and never more than an `int` can say. -/
structure Accepts (k : Kind) (size : ℕ) (rs : List Ret) : Prop where
  noError : ∀ code, Ret.error code ∉ rs
  bounded : ∀ r ∈ rs, r.taken < 2 ^ 31
  offered : ∀ c ∈ (send k size rs).calls, c.taken ≤ c.count
  all : size ≤ (rs.map Ret.taken).sum

/-- The bytes the first call takes that takes any. -/
def firstTaken : List Ret → ℕ
  | [] => 0
  | r :: rs => if r.taken = 0 then firstTaken rs else r.taken

/-- `force_write` needs a length that is not negative as an `int`; the other loops need a
primitive that takes the buffer in one go. -/
def Fits : Kind → ℕ → List Ret → Prop
  | .plain, size, _ => size < 2 ^ 31
  | .tls, size, rs | .dtls, size, rs => size = 0 ∨ firstTaken rs = size

/-! ### One call -/

section Loop

variable {count : ℤ → ℕ} {size p : ℕ} {r : Ret} {rs : List Ret} {left : ℤ}

@[simp] theorem Run.consumed_push (c : Call) (r : Run) :
    (r.push c).consumed = List.range' c.pos c.taken ++ r.consumed := rfl

@[simp] theorem Run.calls_push (c : Call) (r : Run) : (r.push c).calls = c :: r.calls := rfl

theorem sendLoop_done (h : left ≤ 0) : sendLoop count size rs left p = ⟨[], some size⟩ := by
  have hle : ¬ left > 0 := Int.not_lt.2 h
  cases rs <;> simp only [sendLoop, hle, if_false]

theorem sendLoop_call (h : 0 < left) (hr : ∀ code, r ≠ .error code) :
    sendLoop count size (r :: rs) left p =
      (sendLoop count size rs (left - r.taken) (p + r.taken)).push
        ⟨p, count left, r.taken⟩ := by
  cases r with
  | bytes n => rw [sendLoop, if_pos h]; rfl
  | again => rw [sendLoop, if_pos h]; simp [Ret.taken]
  | interrupted => rw [sendLoop, if_pos h]; simp [Ret.taken]
  | error code => exact absurd rfl (hr code)

/-- **The pointer moves by what the primitive took**, so that the positions it takes follow one
another, whatever it is offered. -/
theorem consumed_sendLoop (count : ℤ → ℕ) (size : ℕ) (rs : List Ret) (left : ℤ) (p : ℕ) :
    ∃ n, (sendLoop count size rs left p).consumed = List.range' p n := by
  induction rs generalizing left p with
  | nil => exact ⟨0, rfl⟩
  | cons r rs ih =>
    by_cases hpos : 0 < left
    · by_cases herr : ∃ code, r = .error code
      · obtain ⟨code, rfl⟩ := herr
        refine ⟨0, ?_⟩
        rw [sendLoop, if_pos hpos]
        rfl
      · rw [sendLoop_call hpos fun code h => herr ⟨code, h⟩]
        obtain ⟨n, hn⟩ := ih (left - r.taken) (p + r.taken)
        refine ⟨r.taken + n, ?_⟩
        rw [Run.consumed_push, hn, List.range'_append_1]
    · rw [sendLoop_done (Int.not_lt.1 hpos)]
      exact ⟨0, rfl⟩

/-! ### `force_write` -/

/-- Offered what is left, the primitive takes exactly that. -/
theorem sendLoop_toNat (herr : ∀ code, Ret.error code ∉ rs)
    (hoff : ∀ c ∈ (sendLoop Int.toNat size rs left p).calls, c.taken ≤ c.count)
    (hsum : left ≤ ((rs.map Ret.taken).sum : ℕ)) :
    (sendLoop Int.toNat size rs left p).ret = some (size : ℤ) ∧
      (sendLoop Int.toNat size rs left p).consumed = List.range' p left.toNat ∧
      ∀ c ∈ (sendLoop Int.toNat size rs left p).calls, c.pos + c.count ≤ p + left.toNat := by
  induction rs generalizing left p with
  | nil =>
    have hle : left ≤ 0 := by simpa using hsum
    rw [sendLoop_done hle]
    refine ⟨rfl, ?_, by simp⟩
    rw [Int.toNat_of_nonpos hle]
    rfl
  | cons r rs ih =>
    by_cases hpos : 0 < left
    · have hr : ∀ code, r ≠ .error code := fun code h => herr code (h ▸ List.mem_cons_self)
      rw [sendLoop_call hpos hr] at hoff ⊢
      simp only [Run.calls_push, List.mem_cons, forall_eq_or_imp] at hoff
      obtain ⟨htaken, hoff⟩ := hoff
      simp only [List.map_cons, List.sum_cons] at hsum
      obtain ⟨hret, hcons, hin⟩ :=
        ih (fun code h => herr code (List.mem_cons_of_mem _ h)) hoff (by omega)
      have hsplit : r.taken + (left - r.taken).toNat = left.toNat := by omega
      refine ⟨hret, ?_, ?_⟩
      · rw [Run.consumed_push, hcons, List.range'_append_1, hsplit]
      · simp only [Run.calls_push, List.mem_cons, forall_eq_or_imp, le_refl, true_and]
        intro c hc
        have := hin c hc
        omega
    · rw [sendLoop_done (Int.not_lt.1 hpos)]
      refine ⟨rfl, ?_, by simp⟩
      rw [Int.toNat_of_nonpos (Int.not_lt.1 hpos)]
      rfl

/-! ### The loops around `gnutls_record_send` -/

theorem Run.Exact.length {r : Run} (h : r.Exact size) : r.consumed.length = size := by
  rw [h.consumed, List.length_range]

/-- A call behind the start of the buffer is offered bytes behind its end. -/
theorem not_exact_of_part {n : ℕ} (hn : 0 < n) (hlt : n < size)
    (herr : ∀ code, Ret.error code ∉ rs) (hsum : size ≤ n + (rs.map Ret.taken).sum) :
    ¬ ((sendLoop (fun _ => size) size rs left n).push ⟨0, size, n⟩).Exact size := by
  intro h
  by_cases hpos : 0 < left
  · cases rs with
    | nil => simp at hsum; omega
    | cons r rs =>
      have hr : ∀ code, r ≠ .error code := fun code h => herr code (h ▸ List.mem_cons_self)
      rw [sendLoop_call hpos hr] at h
      have : n + size ≤ size := h.inside ⟨n, size, r.taken⟩ (by simp)
      omega
  · have hlen := h.length
    rw [sendLoop_done (Int.not_lt.1 hpos), Run.consumed_push] at hlen
    simp [Run.consumed] at hlen
    omega

/-- A call that takes nothing changes nothing. -/
theorem exact_push_zero {r : Run} : (r.push ⟨0, size, 0⟩).Exact size ↔ r.Exact size := by
  constructor
  · rintro ⟨hret, hcons, hin⟩
    exact ⟨hret, hcons, fun c hc => hin c (List.mem_cons_of_mem _ hc)⟩
  · rintro ⟨hret, hcons, hin⟩
    refine ⟨hret, hcons, ?_⟩
    simpa using hin

theorem sendLoop_const_exact (hpos : 0 < left) (hleft : size < 2 ^ 31 → left = size)
    (hsize : 0 < size) (herr : ∀ code, Ret.error code ∉ rs) (hb : ∀ r ∈ rs, r.taken < 2 ^ 31)
    (hoff : ∀ c ∈ (sendLoop (fun _ => size) size rs left 0).calls, c.taken ≤ c.count)
    (hsum : size ≤ (rs.map Ret.taken).sum) :
    (sendLoop (fun _ => size) size rs left 0).Exact size ↔ firstTaken rs = size := by
  induction rs with
  | nil => simp at hsum; omega
  | cons r rs ih =>
    have hr : ∀ code, r ≠ .error code := fun code h => herr code (h ▸ List.mem_cons_self)
    have herr' : ∀ code, Ret.error code ∉ rs := fun code h =>
      herr code (List.mem_cons_of_mem _ h)
    rw [sendLoop_call hpos hr] at hoff ⊢
    simp only [Run.calls_push, List.mem_cons, forall_eq_or_imp] at hoff
    simp only [List.map_cons, List.sum_cons] at hsum
    simp only [Nat.zero_add] at hoff ⊢
    rw [firstTaken]
    split
    · rename_i hzero
      simp only [hzero, Int.natCast_zero, Int.sub_zero] at hoff hsum ⊢
      rw [exact_push_zero]
      exact ih herr' (fun r h => hb r (List.mem_cons_of_mem _ h)) hoff.2 (by omega)
    · rename_i htaken
      rcases Nat.lt_or_eq_of_le hoff.1 with hlt | heq
      · exact iff_of_false (not_exact_of_part (by omega) hlt herr' hsum) hlt.ne
      · have hleft' : left = size := hleft (heq ▸ hb r List.mem_cons_self)
        refine iff_of_true ?_ heq
        rw [sendLoop_done (by omega), heq]
        refine ⟨rfl, ?_, by simp [Run.push]⟩
        simp [Run.consumed, List.range_eq_range']

end Loop

/-! ### The three functions -/

theorem asInt_of_lt {n : ℕ} (h : n < 2 ^ 31) : asInt n = n := by
  unfold asInt
  omega

theorem asInt_le (n : ℕ) : asInt n ≤ n := by
  unfold asInt
  omega

theorem asInt_lt (n : ℕ) : asInt n < 2 ^ 31 := by
  unfold asInt
  omega

theorem asInt_zero : asInt 0 = 0 := rfl

theorem firstTaken_mem {rs : List Ret} (h : firstTaken rs ≠ 0) :
    ∃ r ∈ rs, r.taken = firstTaken rs := by
  induction rs with
  | nil => exact absurd rfl h
  | cons r rs ih =>
    rw [firstTaken] at h ⊢
    split at h
    · rename_i hz
      obtain ⟨r', hm, hr'⟩ := ih h
      exact ⟨r', List.mem_cons_of_mem _ hm, by rw [if_pos hz, hr']⟩
    · rename_i hz
      exact ⟨r, List.mem_cons_self, by rw [if_neg hz]⟩

section Functions

variable {size : ℕ} {rs : List Ret}

theorem forceWrite_exact_iff (h : Accepts .plain size rs) :
    (forceWrite size rs).Exact size ↔ size < 2 ^ 31 := by
  have hle := asInt_le size
  have hall := h.all
  obtain ⟨hret, hcons, hin⟩ := sendLoop_toNat (p := 0) h.noError h.offered (by omega)
  constructor
  · intro hex
    have hlen : (forceWrite size rs).consumed.length = size := hex.length
    rw [forceWrite, hcons, List.length_range'] at hlen
    have hlt := asInt_lt size
    omega
  · intro hlt
    have hsize : (asInt size).toNat = size := by rw [asInt_of_lt hlt, Int.toNat_natCast]
    rw [hsize] at hcons hin
    refine ⟨hret, ?_, ?_⟩
    · rw [forceWrite, hcons, List.range_eq_range']
    · intro c hc
      have := hin c hc
      omega

/-- The loop of `dtls_send`, which is that of `cstp_send` too. -/
theorem dtlsSend_exact_iff (herr : ∀ code, Ret.error code ∉ rs)
    (hb : ∀ r ∈ rs, r.taken < 2 ^ 31) (hoff : ∀ c ∈ (dtlsSend size rs).calls, c.taken ≤ c.count)
    (hsum : size ≤ (rs.map Ret.taken).sum) :
    (dtlsSend size rs).Exact size ↔ size = 0 ∨ firstTaken rs = size := by
  rcases Nat.eq_zero_or_pos size with rfl | hsize
  · refine iff_of_true ?_ (.inl rfl)
    rw [dtlsSend, asInt_zero, sendLoop_done le_rfl]
    exact ⟨rfl, rfl, by simp⟩
  · rw [or_iff_right hsize.ne']
    by_cases hpos : 0 < asInt size
    · exact sendLoop_const_exact hpos asInt_of_lt hsize herr hb hoff hsum
    · -- the length is not positive as an `int`, and nothing is sent
      have hbig : ¬ size < 2 ^ 31 := fun hlt => hpos (by rw [asInt_of_lt hlt]; omega)
      refine iff_of_false (fun hex => ?_) fun hfirst => ?_
      · have hlen := hex.length
        rw [dtlsSend, sendLoop_done (Int.not_lt.1 hpos)] at hlen
        exact hsize.ne hlen
      · have hne : firstTaken rs ≠ 0 := by omega
        obtain ⟨r, hm, hr⟩ := firstTaken_mem hne
        exact hbig (by rw [← hfirst, ← hr]; exact hb r hm)

/-- **When a buffer is transmitted exactly**, by each of the functions. -/
theorem send_exact_iff {k : Kind} (h : Accepts k size rs) :
    (send k size rs).Exact size ↔ Fits k size rs := by
  cases k with
  | tls => exact dtlsSend_exact_iff h.noError h.bounded h.offered h.all
  | plain => exact forceWrite_exact_iff h
  | dtls => exact dtlsSend_exact_iff h.noError h.bounded h.offered h.all

end Functions

/-- **Transmission of a buffer.**  For every size, kind of session and sequence of results the
buffer is transmitted exactly if and only if it `Fits`; and where it does, over TLS and over the
plain socket, both deliver its bytes. -/
theorem transmission (size : ℕ) :
    (∀ k rs, Accepts k size rs → ((send k size rs).Exact size ↔ Fits k size rs)) ∧
    ∀ rs rs', Accepts .tls size rs → Accepts .plain size rs' → Fits .tls size rs →
      Fits .plain size rs' → ∀ mem,
        (send .tls size rs).stream mem = (List.range size).map mem ∧
        (send .plain size rs').stream mem = (send .tls size rs).stream mem := by
  refine ⟨fun k rs h => send_exact_iff h, ?_⟩
  intro rs rs' h h' hf hf' mem
  have htls := ((send_exact_iff h).2 hf).consumed
  have hplain := ((send_exact_iff h').2 hf').consumed
  exact ⟨by rw [Run.stream, htls], by rw [Run.stream, Run.stream, htls, hplain]⟩

/-- Three bytes, over TLS after a `GNUTLS_E_AGAIN` and over a socket in two parts. -/
theorem transmission_three :
    (send .tls 3 [.again, .bytes 3]).Exact 3 ∧
      (send .plain 3 [.bytes 1, .interrupted, .bytes 2]).Exact 3 ∧
      (send .plain 3 [.bytes 1, .interrupted, .bytes 2]).stream UInt8.ofNat =
        (send .tls 3 [.again, .bytes 3]).stream UInt8.ofNat := by
  have htls : Accepts .tls 3 [.again, .bytes 3] :=
    ⟨by simp, by decide, by decide, by decide⟩
  have hplain : Accepts .plain 3 [.bytes 1, .interrupted, .bytes 2] :=
    ⟨by simp, by decide, by decide, by decide⟩
  have ftls : Fits .tls 3 [.again, .bytes 3] := .inr rfl
  have fplain : Fits .plain 3 [.bytes 1, .interrupted, .bytes 2] := by
    unfold Fits
    decide
  exact ⟨((transmission 3).1 _ _ htls).2 ftls, ((transmission 3).1 _ _ hplain).2 fplain,
    ((transmission 3).2 _ _ htls hplain ftls fplain UInt8.ofNat).2⟩

/-- 20000 bytes over TLS, in records of at most 16384: the second call is offered 20000 bytes
from position 16384 on, and takes 12768 that are behind the buffer. -/
theorem not_transmission_twoRecords :
    Accepts .tls 20000 [.bytes 16384, .bytes 16384] ∧
      (send .tls 20000 [.bytes 16384, .bytes 16384]).calls =
        [⟨0, 20000, 16384⟩, ⟨16384, 20000, 16384⟩] ∧
      ¬ (send .tls 20000 [.bytes 16384, .bytes 16384]).Exact 20000 := by
  have hcalls : (send .tls 20000 [.bytes 16384, .bytes 16384]).calls =
      [⟨0, 20000, 16384⟩, ⟨16384, 20000, 16384⟩] := by decide
  refine ⟨⟨by simp, by decide, by rw [hcalls]; decide, by decide⟩, hcalls, ?_⟩
  intro h
  have : 16384 + 20000 ≤ 20000 := h.inside ⟨16384, 20000, 16384⟩ (by rw [hcalls]; decide)
  omega

end Transmit

end Worker

end Ocserv
