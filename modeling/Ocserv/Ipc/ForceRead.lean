import Ocserv.Ipc.Framing
import Ocserv.Worker.Transmit

/-!
# Blocking reads

`force_read` of `src/common.c` reads until it has the bytes it was asked for, and
`recv_socket_msg` reads the body of a message with it.  A socket is the list of what its reads
find: the bytes of the peer in any fragmentation, delays, failures; behind the last of them the
peer has closed the connection, and `read` returns 0 there every time.

* `Served` : the bytes arrive before the peer closes, or a read fails.
* `force_read_ends_iff` : exactly then `force_read` ends, and `recv_socket_msg` ends exactly when
  the body it comes to read is `Served`.

The loop of `force_read` looks at `ret == -1` and `ret > 0` only: once the peer has closed it
calls `read` for ever.
-/

namespace Ocserv

namespace Ipc

namespace ForceRead

open Worker.Transmit (asInt)

/-- What a read finds. -/
inductive Arrival where
  | data (bytes : List UInt8)
  /-- `EAGAIN` -/
  | again
  /-- `EINTR` -/
  | interrupted
  | failed (errno : ℕ)
  deriving DecidableEq, Repr

/-- What the reads of a socket find, one after the other; then the peer has closed. -/
abbrev Socket := List Arrival

/-- The result of `read`: bytes (none of them at the end of file) or `errno`. -/
inductive ReadRet where
  | bytes (data : List UInt8)
  | again
  | interrupted
  | error (errno : ℕ)
  deriving DecidableEq, Repr

/-- `read` of at most `n` bytes. -/
def read (n : ℕ) : Socket → ReadRet × Socket
  | [] => (.bytes [], [])
  | .data bytes :: s =>
    (.bytes (bytes.take n), if bytes.length ≤ n then s else .data (bytes.drop n) :: s)
  | .again :: s => (.again, s)
  | .interrupted :: s => (.interrupted, s)
  | .failed errno :: s => (.error errno, s)

/-- `while (left > 0)` of `force_read`; `none` if it still runs after `fuel` turns. -/
def forceReadLoop : ℕ → ℤ → List UInt8 → Socket → Option (Except ℕ (List UInt8) × Socket)
  | 0, _, _, _ => none
  | fuel + 1, left, buf, s =>
    if left > 0 then
      match read left.toNat s with
      | (.error errno, s) => some (.error errno, s)
      | (.again, s) | (.interrupted, s) => forceReadLoop fuel left buf s
      | (.bytes data, s) =>
        if data.length > 0 then forceReadLoop fuel (left - data.length) (buf ++ data) s
        else forceReadLoop fuel left buf s
    else some (.ok buf, s)

/-- `force_read`, with the bytes it stored. -/
def forceRead (fuel len : ℕ) (s : Socket) : Option (Except ℕ (List UInt8) × Socket) :=
  forceReadLoop fuel (asInt len) [] s

/-- The loop around `recvmsg` in `recv_socket_msg`; `none` is a failure other than `EINTR`. -/
def recvmsg : Socket → Option (List UInt8) × Socket
  | .interrupted :: s => recvmsg s
  | .again :: s | .failed _ :: s => (none, s)
  | .data bytes :: s =>
    (some (bytes.take 3), if bytes.length ≤ 3 then s else .data (bytes.drop 3) :: s)
  | [] => (some [], [])

/-- The control message that came with the header. -/
inductive Control where
  | absent
  /-- `SCM_RIGHTS` with a descriptor. -/
  | rights (fd : ℤ)
  /-- Another type of the same length. -/
  | other
  deriving DecidableEq, Repr

/-- The outcome of `recv_socket_msg`: the code or the value stored to `*msg`, what was stored to
`*socketfd`, and the descriptor it closed. -/
structure Outcome (M : Type*) where
  ret : Except RecvErr (Option M)
  socketfd : Option ℤ
  closed : Option ℤ

variable {M : Type*}

/-- `cleanup` of `recv_socket_msg`. -/
def cleanup (ret : Except RecvErr (Option M)) (socketfd : Option ℤ) : Outcome M where
  ret := ret
  socketfd := socketfd
  closed := match ret with
    | .error _ => socketfd.filter (· ≠ -1)
    | .ok _ => none

/-- `recv_socket_msg` where it comes to the body: its outcome if there is none or no memory for
it, or the length to read, what is in `*socketfd`, and the socket. -/
def enterBody (mem : Bool) (length : ℕ) (s : Socket) (socketfd : Option ℤ) :
    (Outcome M × Socket) ⊕ (ℕ × Option ℤ × Socket) :=
  if length > 0 then
    if !mem then .inl (cleanup (.error .mem) socketfd, s) else .inr (length, socketfd, s)
  else .inl (cleanup (.ok none) socketfd, s)

/-- `recv_socket_msg` up to the body; `control` is `none` where `socketfd` is `NULL`. -/
def recvHeader (mem : Bool) (cmd : UInt8) (junk : UInt8 × UInt8) (control : Option Control)
    (s : Socket) : (Outcome M × Socket) ⊕ (ℕ × Option ℤ × Socket) :=
  match recvmsg s with
  | (none, s) => .inl (⟨.error .badCommand, none, none⟩, s)
  | (some [], s) => .inl (⟨.error .peerTerminated, none, none⟩, s)
  | (some (rcmd :: header), s) =>
    let length := lengthRead (rcmd :: header) junk
    if rcmd ≠ cmd then .inl (⟨.error .badCommand, none, none⟩, s)
    else
      match control with
      | none => enterBody mem length s none
      | some .absent => enterBody mem length s (some (-1))
      | some (.rights fd) => enterBody mem length s (some fd)
      | some .other => .inl (⟨.error .badCommand, none, none⟩, s)

/-- `recv_socket_msg`, and `recv_msg` where `control` is `none`. -/
def recvSocketMsg (c : Codec M) (mem : Bool) (cmd : UInt8) (junk : UInt8 × UInt8)
    (control : Option Control) (fuel : ℕ) (s : Socket) : Option (Outcome M × Socket) :=
  match recvHeader mem cmd junk control s with
  | .inl out => some out
  | .inr (length, socketfd, s) =>
    (forceRead fuel length s).map fun
      | (.error _, s) => (cleanup (.error .badCommand) socketfd, s)
      | (.ok data, s) =>
        match c.unpack data with
        | none => (cleanup (.error .mem) socketfd, s)
        | some m => (cleanup (.ok (some m)) socketfd, s)

/-! ### When a read is served -/

/-- The bytes that arrive before a read fails or the peer closes. -/
def arriving : Socket → List UInt8
  | [] | .failed _ :: _ => []
  | .data bytes :: s => bytes ++ arriving s
  | .again :: s | .interrupted :: s => arriving s

/-- A read fails before the peer closes. -/
def fails : Socket → Bool
  | [] => false
  | .failed _ :: _ => true
  | .data _ :: s | .again :: s | .interrupted :: s => fails s

/-- All the bytes arrive (and their number is an `int`), or a read fails before they do. -/
def Served (len : ℕ) (s : Socket) : Prop :=
  (asInt len = len ∧ len ≤ (arriving s).length) ∨
    (((arriving s).length : ℤ) < asInt len ∧ fails s = true)

instance (len : ℕ) (s : Socket) : Decidable (Served len s) :=
  inferInstanceAs (Decidable (_ ∨ _))

/-- `force_read` returns, with the first `len` bytes or with an error. -/
def Ends (len : ℕ) (s : Socket) : Prop :=
  ∃ fuel r s', forceRead fuel len s = some (r, s') ∧
    ∀ data, r = .ok data → data.length = len ∧ data = (arriving s).take len

/-! ### The loop -/

variable {n len : ℕ} {left : ℤ} {buf : List UInt8} {s s' : Socket}

theorem read_bytes {data : List UInt8} (h : read n s = (.bytes data, s')) :
    arriving s = data ++ arriving s' ∧ fails s' = fails s ∧ data.length ≤ n := by
  cases s with
  | nil =>
    cases h
    exact ⟨rfl, rfl, Nat.zero_le n⟩
  | cons a s =>
    cases a with
    | data bytes =>
      obtain ⟨rfl, rfl⟩ := by simpa [read] using h
      refine ⟨?_, ?_, List.length_take_le n bytes⟩
      · split_ifs with hle
        · rw [List.take_of_length_le hle, arriving]
        · rw [arriving, arriving, ← List.append_assoc, List.take_append_drop]
      · split_ifs <;> rfl
    | again => cases h
    | interrupted => cases h
    | failed errno => cases h

theorem read_retry (h : read n s = (.again, s') ∨ read n s = (.interrupted, s')) :
    arriving s = arriving s' ∧ fails s' = fails s := by
  cases s with
  | nil => rcases h with h | h <;> cases h
  | cons a s =>
    cases a <;> rcases h with h | h <;> cases h
    all_goals exact ⟨rfl, rfl⟩

theorem read_error {errno : ℕ} (h : read n s = (.error errno, s')) :
    arriving s = [] ∧ fails s = true := by
  cases s with
  | nil => cases h
  | cons a s =>
    cases a <;> cases h
    exact ⟨rfl, rfl⟩

/-- **What `force_read` returns**: the bytes, all of which arrived, or an error before they did. -/
theorem forceReadLoop_spec {fuel : ℕ} {r : Except ℕ (List UInt8)}
    (h : forceReadLoop fuel left buf s = some (r, s')) :
    (left ≤ (arriving s).length ∧ r = .ok (buf ++ (arriving s).take left.toNat)) ∨
      (((arriving s).length : ℤ) < left ∧ fails s = true ∧ ∃ errno, r = .error errno) := by
  induction fuel generalizing left buf s with
  | zero => cases h
  | succ fuel ih =>
    rw [forceReadLoop] at h
    split at h
    · rename_i hleft
      split at h
      · rename_i errno s₁ hread
        cases h
        obtain ⟨harr, hfails⟩ := read_error hread
        exact Or.inr ⟨by rw [harr]; exact hleft, hfails, errno, rfl⟩
      · rename_i s₁ hread
        obtain ⟨harr, hfails⟩ := read_retry (Or.inl hread)
        rw [harr, ← hfails]
        exact ih h
      · rename_i s₁ hread
        obtain ⟨harr, hfails⟩ := read_retry (Or.inr hread)
        rw [harr, ← hfails]
        exact ih h
      · rename_i data s₁ hread
        obtain ⟨harr, hfails, hle⟩ := read_bytes hread
        rw [harr, ← hfails, List.length_append]
        split at h
        · rcases ih h with ⟨hle', rfl⟩ | ⟨hlt, hfails', herr⟩
          · refine Or.inl ⟨by omega, ?_⟩
            have htake : (left - data.length).toNat = left.toNat - data.length := by omega
            rw [List.append_assoc, List.take_append, List.take_of_length_le hle, htake]
          · exact Or.inr ⟨by omega, hfails', herr⟩
        · obtain rfl : data = [] := by
            rw [← List.length_eq_zero_iff]
            omega
          rw [List.nil_append, List.length_nil, Nat.zero_add]
          exact ih h
    · cases h
      have hzero : left.toNat = 0 := by omega
      exact Or.inl ⟨by omega, by rw [hzero, List.take_zero, List.append_nil]⟩

theorem forceReadLoop_done (h : left ≤ 0) (fuel : ℕ) :
    forceReadLoop (fuel + 1) left buf s = some (.ok buf, s) := by
  rw [forceReadLoop, if_neg (Int.not_lt.2 h)]

/-- The loop ends if enough bytes arrive or a read fails; what the reads find gets less. -/
theorem forceReadLoop_ends (h : left ≤ (arriving s).length ∨ fails s = true) :
    ∃ fuel, (forceReadLoop fuel left buf s).isSome = true := by
  induction s generalizing left buf with
  | nil =>
    rcases h with h | h
    · exact ⟨1, by rw [forceReadLoop_done h]; rfl⟩
    · cases h
  | cons a s ih =>
    rcases Int.lt_or_le 0 left with hpos | hneg
    · cases a with
      | data bytes =>
        by_cases hle : bytes.length ≤ left.toNat
        · have hnext : left - bytes.length ≤ (arriving s).length ∨ fails s = true := by
            refine h.imp_left fun h => ?_
            rw [arriving, List.length_append] at h
            omega
          obtain ⟨fuel, hrun⟩ := @ih _ (buf ++ bytes) hnext
          refine ⟨fuel + 1, ?_⟩
          rw [forceReadLoop, if_pos hpos, read, List.take_of_length_le hle, if_pos hle]
          dsimp only
          split
          · exact hrun
          · rename_i hempty
            obtain rfl : bytes = [] := by
              rw [← List.length_eq_zero_iff]
              omega
            simpa using hrun
        · have hlen : (bytes.take left.toNat).length = left.toNat := by
            rw [List.length_take]
            omega
          refine ⟨2, ?_⟩
          rw [forceReadLoop, if_pos hpos, read, if_neg hle]
          dsimp only
          rw [hlen, if_pos (by omega), forceReadLoop_done (by omega)]
          rfl
      | again =>
        obtain ⟨fuel, hrun⟩ := @ih left buf h
        exact ⟨fuel + 1, by rw [forceReadLoop, if_pos hpos]; exact hrun⟩
      | interrupted =>
        obtain ⟨fuel, hrun⟩ := @ih left buf h
        exact ⟨fuel + 1, by rw [forceReadLoop, if_pos hpos]; exact hrun⟩
      | failed errno => exact ⟨1, by rw [forceReadLoop, if_pos hpos]; rfl⟩
    · exact ⟨1, by rw [forceReadLoop_done hneg]; rfl⟩

/-! ### `force_read` -/

theorem asInt_of_lt (h : len < 2 ^ 31) : asInt len = len := by
  unfold asInt
  omega

theorem ends_iff : Ends len s ↔ Served len s := by
  constructor
  · rintro ⟨fuel, r, s', hrun, hdata⟩
    rcases forceReadLoop_spec hrun with ⟨hle, hr⟩ | ⟨hlt, hfails, -⟩
    · obtain ⟨hlen, -⟩ := hdata _ hr
      rw [List.nil_append, List.length_take] at hlen
      have hint : asInt len = len := by
        unfold asInt at hlen ⊢
        omega
      exact Or.inl ⟨hint, by omega⟩
    · exact Or.inr ⟨hlt, hfails⟩
  · intro h
    have hends : asInt len ≤ (arriving s).length ∨ fails s = true := by
      rcases h with ⟨hint, hle⟩ | ⟨-, hfails⟩
      · exact Or.inl (by omega)
      · exact Or.inr hfails
    have hloop : ∃ fuel, (forceReadLoop fuel (asInt len) [] s).isSome = true :=
      forceReadLoop_ends hends
    obtain ⟨fuel, hrun⟩ := hloop
    obtain ⟨⟨r, s'⟩, hrun⟩ := Option.isSome_iff_exists.1 hrun
    refine ⟨fuel, r, s', hrun, ?_⟩
    rintro data rfl
    rcases forceReadLoop_spec hrun with ⟨hle, hr⟩ | ⟨-, -, errno, hr⟩
    · rcases h with ⟨hint, hlen⟩ | ⟨hlt, -⟩
      · have hnat : (asInt len).toNat = len := by rw [hint, Int.toNat_natCast]
        rw [Except.ok.inj hr, hnat, List.nil_append]
        exact ⟨List.length_take_of_le hlen, rfl⟩
      · omega
    · cases hr

/-- For a length that is an `int`, `force_read` returns exactly when it is served. -/
theorem returns_iff (hlen : len < 2 ^ 31) :
    (∃ fuel out, forceRead fuel len s = some out) ↔ Served len s := by
  constructor
  · rintro ⟨fuel, ⟨r, s'⟩, hrun⟩
    rcases forceReadLoop_spec hrun with ⟨hle, -⟩ | ⟨hlt, hfails, -⟩
    · rw [asInt_of_lt hlen] at hle
      exact Or.inl ⟨asInt_of_lt hlen, Int.ofNat_le.1 hle⟩
    · exact Or.inr ⟨hlt, hfails⟩
  · intro h
    obtain ⟨fuel, r, s', hrun, -⟩ := ends_iff.2 h
    exact ⟨fuel, _, hrun⟩

theorem arriving_segments (segs : Segments UInt8) :
    arriving (segs.map .data) = segs.flatten := by
  induction segs with
  | nil => rfl
  | cons seg segs ih => rw [List.map_cons, arriving, ih, List.flatten_cons]

theorem fails_segments (segs : Segments UInt8) : fails (segs.map .data) = false := by
  induction segs with
  | nil => rfl
  | cons seg segs ih => exact ih

/-- On a stream that is cut into segments, the read that takes what it needs is the one of
`Segments.readExact`. -/
theorem served_segments (hlen : len < 2 ^ 31) (segs : Segments UInt8) :
    Served len (segs.map .data) ↔ (Segments.readExact len segs).isSome = true := by
  rw [Served, arriving_segments, fails_segments, asInt_of_lt hlen]
  rcases Nat.lt_or_ge segs.flatten.length len with hlt | hle
  · rw [Segments.readExact_none hlt]
    exact iff_of_false (fun h => by rcases h with ⟨-, h⟩ | ⟨-, h⟩ <;> [omega; cases h]) nofun
  · obtain ⟨segs', hrun, -⟩ := Segments.readExact_eq hle
    rw [hrun]
    exact iff_of_true (Or.inl ⟨rfl, hle⟩) rfl

/-! ### `recv_socket_msg` -/

theorem lengthRead_lt (header : List UInt8) (junk : UInt8 × UInt8) :
    lengthRead header junk < 2 ^ 31 := by
  have h₁ := (header.getD 1 junk.1).toNat_lt
  have h₂ := (header.getD 2 junk.2).toNat_lt
  unfold lengthRead
  omega

theorem enterBody_length {mem : Bool} {length n : ℕ} {socketfd fd : Option ℤ}
    (h : enterBody (M := M) mem length s socketfd = .inr (n, fd, s')) : n = length := by
  unfold enterBody at h
  split_ifs at h
  cases h
  rfl

theorem recvHeader_length {mem : Bool} {cmd : UInt8} {junk : UInt8 × UInt8}
    {control : Option Control} {length : ℕ} {socketfd : Option ℤ}
    (h : recvHeader (M := M) mem cmd junk control s = .inr (length, socketfd, s')) :
    length < 2 ^ 31 := by
  unfold recvHeader at h
  split at h
  · cases h
  · cases h
  · rename_i rcmd header s₁ hread
    have hlt := lengthRead_lt (rcmd :: header) junk
    dsimp only at h
    split_ifs at h
    split at h
    · exact enterBody_length h ▸ hlt
    · exact enterBody_length h ▸ hlt
    · exact enterBody_length h ▸ hlt
    · cases h

/-- **When blocking reads end**: `force_read` returns with what it was asked for, or an error,
exactly when all of it arrives or a read fails before; `recv_socket_msg` and `recv_msg` return
exactly when that is so of the body they come to read. -/
theorem force_read_ends_iff (c : Codec M) (mem : Bool) (cmd : UInt8) (junk : UInt8 × UInt8)
    (control : Option Control) (len : ℕ) (s : Socket) :
    (Ends len s ↔ Served len s) ∧
      ((∃ fuel out, recvSocketMsg c mem cmd junk control fuel s = some out) ↔
        ∀ length socketfd s',
          recvHeader (M := M) mem cmd junk control s = .inr (length, socketfd, s') →
            Served length s') := by
  refine ⟨ends_iff, ?_⟩
  cases hheader : recvHeader (M := M) mem cmd junk control s with
  | inl out =>
    refine iff_of_true ⟨0, out, ?_⟩ nofun
    rw [recvSocketMsg, hheader]
  | inr body =>
    obtain ⟨length, socketfd, s'⟩ := body
    have hreturns := returns_iff (s := s') (recvHeader_length hheader)
    simp only [recvSocketMsg, hheader, Option.map_eq_some_iff]
    constructor
    · rintro ⟨fuel, out, r, hrun, -⟩ _ _ _ ⟨⟩
      exact hreturns.1 ⟨fuel, r, hrun⟩
    · intro hserved
      obtain ⟨fuel, r, hrun⟩ := hreturns.2 (hserved _ _ _ rfl)
      exact ⟨fuel, _, r, hrun, rfl⟩

/-- A peer that announces a body of five bytes and closes behind the second. -/
def closing : Socket := [.data [1, 5, 0], .data [7, 7]]

/-- `force_read` and `recv_msg` do not return. -/
theorem closing_not_ends :
    ¬ Ends 5 [.data [7, 7]] ∧ ∀ (M : Type) (c : Codec M) (fuel : ℕ),
      recvSocketMsg c true 1 (0, 0) none fuel closing = none := by
  have hserved : ¬ Served 5 [.data [7, 7]] := by decide
  refine ⟨mt ends_iff.1 hserved, fun M c fuel => ?_⟩
  have hstuck : ¬ ∃ fuel out, forceRead fuel 5 [.data [7, 7]] = some out :=
    mt (returns_iff (by decide)).1 hserved
  have hrun : forceRead fuel 5 [.data [7, 7]] = none :=
    Option.eq_none_iff_forall_ne_some.2 fun out h => hstuck ⟨fuel, out, h⟩
  rw [recvSocketMsg, show recvHeader (M := M) true 1 (0, 0) none closing =
    .inr (5, none, [.data [7, 7]]) from rfl]
  dsimp only
  rw [hrun]
  rfl

end ForceRead

end Ipc

end Ocserv
