import Ocserv.Segments
import Mathlib.Algebra.GroupWithZero.Nat
import Mathlib.Data.List.GetD

/-!
# Messages between the processes

`send_socket_msg` and `recv_socket_msg` of `src/common.c`: a message on a stream socket is a
command byte, the length of the body in a native (little-endian) `uint16_t`, and the body.  The
receiver takes the header with one `recvmsg` and the body with `force_read`.

What lies between the two is a `Delivery`: the number of bytes `sendmsg` accepted and the way
the stream is cut when the receiver reads it.

* `Framed` : the exchanges after which the receiver has what was sent, or has skipped it whole.
-/

namespace Ocserv

namespace Ipc

/-- The generated functions for one type of message.  A message is not what a proper prefix of
its encoding decodes to. -/
structure Codec (M : Type*) where
  getSize : M → ℕ
  pack : M → List UInt8
  unpack : List UInt8 → Option M
  length_pack : ∀ m, (pack m).length = getSize m
  unpack_pack : ∀ m, unpack (pack m) = some m
  unpack_take : ∀ m n, n < getSize m → unpack ((pack m).take n) ≠ some m

/-- The codes `recv_socket_msg` returns: `ERR_BAD_COMMAND`, `ERR_PEER_TERMINATED`, `ERR_MEM`. -/
inductive RecvErr where
  | badCommand
  | peerTerminated
  | mem
  deriving DecidableEq, Repr

variable {M : Type*}

/-- `send_socket_msg` up to `sendmsg`: the bytes handed to it, or the error reported to the
caller.  `mem` is the success of the allocation.  The length is a `uint16_t`, so a larger body
is cut (and `pack` writes beyond the end of the allocated buffer). -/
def sendSocketMsg (c : Codec M) (mem : Bool) (cmd : UInt8) (m : M) : Option (List UInt8) :=
  let length := c.getSize m % 2 ^ 16
  let header := [cmd, UInt8.ofNat length, UInt8.ofNat (length / 2 ^ 8)]
  if length > 0 then
    if !mem then none
    else if (c.pack m).length = 0 then none
    else some (header ++ (c.pack m).take length)
  else some header

/-- The variable `length` after the `recvmsg` of the header; `junk` is what the stack held there,
and bytes of the header that did not arrive are taken from it. -/
def lengthRead (header : List UInt8) (junk : UInt8 × UInt8) : ℕ :=
  (header.getD 1 junk.1).toNat + 2 ^ 8 * (header.getD 2 junk.2).toNat

/-- `recv_socket_msg`: the code returned or the value stored to `*msg`, and what is left of the
stream; `none` if the call does not return. -/
def recvSocketMsg (c : Codec M) (mem : Bool) (cmd : UInt8) (junk : UInt8 × UInt8)
    (segs : Segments UInt8) : Option (Except RecvErr (Option M) × Segments UInt8) :=
  match segs.readSome 3 with
  | none => some (.error .peerTerminated, segs)
  | some (header, segs) =>
    let rcmd := header.getD 0 0
    let length := lengthRead header junk
    if rcmd ≠ cmd then some (.error .badCommand, segs)
    else if length > 0 then
      if !mem then some (.error .mem, segs)
      else
        match Segments.readExact length segs with
        | none => none
        | some (data, segs) =>
          match c.unpack data with
          | none => some (.error .mem, segs)
          | some m => some (.ok (some m), segs)
    -- `*msg` is left as it was
    else some (.ok none, segs)

/-- What happens to the bytes `wire` of a message that `rest` follows. -/
structure Delivery (wire rest : List UInt8) where
  /-- The number of bytes `sendmsg` accepted. -/
  accepted : ℕ
  pos : 1 ≤ accepted
  le : accepted ≤ wire.length
  /-- The stream as the receiver reads it. -/
  segs : Segments UInt8
  ne_nil : ∀ seg ∈ segs, seg ≠ []
  flatten_eq : segs.flatten = wire.take accepted ++ rest

/-- The number of bytes the `recvmsg` of the header returns. -/
def Delivery.header {wire rest : List UInt8} (d : Delivery wire rest) : ℕ :=
  min 3 (d.segs.headD []).length

/-- The receiver does what it should with the message `m` of command `cmd` at the head of the
stream: if it expects that command it has the message, else it refuses it; in both cases the
stream is at the next message. -/
def Received (c : Codec M) (mem : Bool) (cmd rcmd : UInt8) (m : M) (rest : List UInt8)
    (junk : UInt8 × UInt8) (segs : Segments UInt8) : Prop :=
  ∃ segs' : Segments UInt8, segs'.flatten = rest ∧ recvSocketMsg c mem rcmd junk segs =
    some (if rcmd = cmd then .ok (some m) else .error .badCommand, segs')

/-- The exchange goes as it should: an error is reported to the sender, or the message is
`Received`. -/
def Exchanged (c : Codec M) (sendMem recvMem : Bool) (cmd rcmd : UInt8) (m : M)
    (rest : List UInt8) (net : (wire : List UInt8) → Option (Delivery wire rest))
    (junk : UInt8 × UInt8) : Prop :=
  match sendSocketMsg c sendMem cmd m with
  | none => True
  | some wire =>
    match net wire with
    | none => True
    | some d => Received c recvMem cmd rcmd m rest junk d.segs

/-- The condition for it: a receiver of this command gets a body of 1 to 65535 bytes that was
accepted whole, and the whole header at once; a receiver of another command gets all that was
accepted with the header. -/
def Framed (c : Codec M) (sendMem recvMem : Bool) (cmd rcmd : UInt8) (m : M)
    (rest : List UInt8) (net : (wire : List UInt8) → Option (Delivery wire rest)) : Prop :=
  match sendSocketMsg c sendMem cmd m with
  | none => True
  | some wire =>
    match net wire with
    | none => True
    | some d =>
      if rcmd = cmd then
        (1 ≤ c.getSize m ∧ c.getSize m < 2 ^ 16) ∧ d.accepted = 3 + c.getSize m ∧
          d.header = 3 ∧ recvMem = true
      else d.header = d.accepted

/-! ### The header -/

theorem Delivery.header_pos {wire rest : List UInt8} (d : Delivery wire rest) : 1 ≤ d.header := by
  have hflat := congrArg List.length d.flatten_eq
  have hpos := d.pos
  have hle := d.le
  rw [List.length_append, List.length_take, Nat.min_eq_left hle] at hflat
  unfold header
  cases hs : d.segs with
  | nil => rw [hs] at hflat; simp at hflat; omega
  | cons seg segs =>
    have := List.length_pos_iff.2 (d.ne_nil seg (by simp [hs]))
    simp only [List.headD_cons]
    omega

theorem Delivery.header_le {wire rest : List UInt8} (d : Delivery wire rest) :
    d.header ≤ 3 := Nat.min_le_left _ _

/-- The `recvmsg` of the header returns the first bytes of the stream. -/
theorem Delivery.readSome {wire rest : List UInt8} (d : Delivery wire rest) :
    ∃ segs', d.segs.readSome 3 = some ((wire.take d.accepted ++ rest).take d.header, segs') ∧
      segs'.flatten = (wire.take d.accepted ++ rest).drop d.header := by
  have hpos := d.header_pos
  rw [← d.flatten_eq]
  unfold header at hpos ⊢
  cases hs : d.segs with
  | nil => simp [hs] at hpos
  | cons seg segs =>
    simp only [List.headD_cons]
    refine ⟨_, ?_, Segments.flatten_readSome 3 seg segs⟩
    rw [Segments.readSome, List.flatten_cons,
      List.take_append_of_le_length (Nat.min_le_right _ _), ← List.take_take, List.take_length]

/-- The bytes `sendmsg` is given: a header, and the body cut to the length in the header. -/
theorem sendSocketMsg_eq {c : Codec M} {mem : Bool} {cmd : UInt8} {m : M} {wire : List UInt8}
    (h : sendSocketMsg c mem cmd m = some wire) :
    wire = [cmd, UInt8.ofNat (c.getSize m % 2 ^ 16),
      UInt8.ofNat (c.getSize m % 2 ^ 16 / 2 ^ 8)] ++ (c.pack m).take (c.getSize m % 2 ^ 16) := by
  simp only [sendSocketMsg] at h
  split at h
  · split at h
    · cases h
    · split at h
      · cases h
      · cases h; rfl
  · cases h
    rw [show c.getSize m % 2 ^ 16 = 0 by omega]
    rfl

/-- The bytes on the socket for a body of which the length is in the header. -/
def frame (cmd : UInt8) (body : List UInt8) : List UInt8 :=
  let length := body.length % 2 ^ 16
  [cmd, UInt8.ofNat length, UInt8.ofNat (length / 2 ^ 8)] ++ body.take length

theorem sendSocketMsg_frame {c : Codec M} {mem : Bool} {cmd : UInt8} {m : M} {wire : List UInt8}
    (h : sendSocketMsg c mem cmd m = some wire) : wire = frame cmd (c.pack m) := by
  rw [frame, c.length_pack]
  exact sendSocketMsg_eq h

/-- A header that arrived whole holds the length of the body. -/
theorem lengthRead_frame {cmd : UInt8} {body : List UInt8} (rest : List UInt8)
    (junk : UInt8 × UInt8) :
    lengthRead (cmd :: UInt8.ofNat (body.length % 2 ^ 16) ::
      UInt8.ofNat (body.length % 2 ^ 16 / 2 ^ 8) :: rest) junk = body.length % 2 ^ 16 := by
  simp only [lengthRead, List.getD_cons_succ, List.getD_cons_zero, UInt8.toNat_ofNat']
  omega

/-! ### What the receiver consumes -/

section Receive

variable {c : Codec M} {mem : Bool} {cmd : UInt8} {junk : UInt8 × UInt8} {header : List UInt8}
  {segs segs₁ : Segments UInt8}

/-- A message that is stored was read from right behind the header. -/
theorem recvSocketMsg_some {m : M} {segs' : Segments UInt8}
    (hread : segs.readSome 3 = some (header, segs₁))
    (h : recvSocketMsg c mem cmd junk segs = some (.ok (some m), segs')) :
    0 < lengthRead header junk ∧ mem = true ∧
      lengthRead header junk ≤ segs₁.flatten.length ∧
      c.unpack (segs₁.flatten.take (lengthRead header junk)) = some m ∧
      segs'.flatten = segs₁.flatten.drop (lengthRead header junk) := by
  simp only [recvSocketMsg, hread] at h
  split at h
  · cases h
  · split at h
    · rename_i hpos
      split at h
      · cases h
      · rename_i hmem
        by_cases hle : lengthRead header junk ≤ segs₁.flatten.length
        · obtain ⟨segs₂, hrun, hdrop⟩ := Segments.readExact_eq hle
          rw [hrun] at h
          simp only at h
          split at h
          · cases h
          · cases h
            exact ⟨hpos, by simpa using hmem, hle, ‹_›, hdrop⟩
        · rw [Segments.readExact_none (by omega)] at h
          cases h
    · cases h

/-- A body that is there is decoded. -/
theorem recvSocketMsg_body (junk : UInt8 × UInt8) {m : M}
    (hread : segs.readSome 3 = some (header, segs₁)) (hcmd : header.getD 0 0 = cmd)
    (hpos : 0 < lengthRead header junk) (hle : lengthRead header junk ≤ segs₁.flatten.length)
    (hm : c.unpack (segs₁.flatten.take (lengthRead header junk)) = some m) :
    ∃ segs', recvSocketMsg c true cmd junk segs = some (.ok (some m), segs') ∧
      segs'.flatten = segs₁.flatten.drop (lengthRead header junk) := by
  obtain ⟨segs', hrun, hdrop⟩ := Segments.readExact_eq hle
  refine ⟨segs', ?_, hdrop⟩
  simp only [recvSocketMsg, hread, hcmd, ne_eq, not_true_eq_false, if_false, hpos, if_true,
    Bool.not_true, Bool.false_eq_true, hrun, hm]

/-- A message of another command is refused behind its header. -/
theorem recvSocketMsg_refused (hread : segs.readSome 3 = some (header, segs₁))
    (hcmd : header.getD 0 0 ≠ cmd) :
    recvSocketMsg c mem cmd junk segs = some (.error .badCommand, segs₁) := by
  simp only [recvSocketMsg, hread, hcmd, ne_eq, not_false_eq_true, if_true]

end Receive

/-- The little-endian length in a whole header. -/
theorem lengthRead_header (cmd : UInt8) (n : ℕ) (junk : UInt8 × UInt8) :
    lengthRead [cmd, UInt8.ofNat (n % 2 ^ 16), UInt8.ofNat (n % 2 ^ 16 / 2 ^ 8)] junk =
      n % 2 ^ 16 := by
  simp only [lengthRead, List.getD_cons_succ, List.getD_cons_zero, UInt8.toNat_ofNat']
  omega

/-! ### One exchange -/

section Exchange

variable {c : Codec M} {mem : Bool} {cmd rcmd : UInt8} {m : M} {rest wire : List UInt8}

/-- The first byte of the stream is the command. -/
theorem Delivery.rcmd_eq (d : Delivery wire rest) (hcmd : wire.head? = some cmd) :
    ((wire.take d.accepted ++ rest).take d.header).getD 0 0 = cmd := by
  obtain ⟨k, hk⟩ : ∃ k, d.accepted = k + 1 := ⟨d.accepted - 1, by have := d.pos; omega⟩
  obtain ⟨h, hh⟩ : ∃ h, d.header = h + 1 := ⟨d.header - 1, by have := d.header_pos; omega⟩
  cases wire with
  | nil => cases hcmd
  | cons b bs =>
    cases hcmd
    rw [hk, hh]
    rfl

theorem Delivery.header_le_length (d : Delivery wire rest) :
    d.header ≤ (wire.take d.accepted ++ rest).length := by
  rw [← d.flatten_eq]
  unfold Delivery.header
  cases d.segs with
  | nil => simp
  | cons seg segs => simp only [List.headD_cons, List.flatten_cons, List.length_append]; omega

theorem Delivery.length_eq (d : Delivery wire rest) :
    (wire.take d.accepted ++ rest).length = d.accepted + rest.length := by
  rw [List.length_append, List.length_take, Nat.min_eq_left d.le]

/-- A suffix of the stream that is the rest starts behind what was accepted. -/
theorem Delivery.drop_eq_rest (d : Delivery wire rest) {n : ℕ}
    (hn : n ≤ (wire.take d.accepted ++ rest).length) :
    (wire.take d.accepted ++ rest).drop n = rest ↔ n = d.accepted := by
  constructor
  · intro h
    have hlen := congrArg List.length h
    rw [List.length_drop] at hlen
    have := d.length_eq
    omega
  · rintro rfl
    rw [List.drop_append_of_le_length (Nat.le_of_eq (List.length_take_of_le d.le).symm),
      List.drop_eq_nil_of_le (by rw [List.length_take]; exact Nat.min_le_left _ _)]
    rfl

/-- A message that is refused is skipped if the header was all that was accepted. -/
theorem received_refused_iff (d : Delivery wire rest) (hcmd : wire.head? = some cmd)
    (hne : rcmd ≠ cmd) (junk : UInt8 × UInt8) :
    Received c mem cmd rcmd m rest junk d.segs ↔ d.header = d.accepted := by
  obtain ⟨segs₁, hread, hdrop⟩ := d.readSome
  rw [← d.drop_eq_rest d.header_le_length, ← hdrop, Received,
    recvSocketMsg_refused hread (by rw [d.rcmd_eq hcmd]; exact hne.symm)]
  simp only [hne, if_false, Option.some.injEq, Prod.mk.injEq, true_and]
  constructor
  · rintro ⟨segs', hrest, rfl⟩
    exact hrest
  · intro hrest
    exact ⟨segs₁, hrest, rfl⟩

/-- What it takes for a message to be stored and the stream to be at the next one. -/
theorem received_same {d : Delivery wire rest} {junk : UInt8 × UInt8} {header : List UInt8}
    (hheader : header = (wire.take d.accepted ++ rest).take d.header)
    (h : Received c mem cmd cmd m rest junk d.segs) :
    0 < lengthRead header junk ∧ mem = true ∧ d.header + lengthRead header junk = d.accepted ∧
      c.unpack ((wire.drop d.header).take (lengthRead header junk)) = some m := by
  obtain ⟨segs₁, hread, hdrop⟩ := d.readSome
  rw [← hheader] at hread
  obtain ⟨segs', hrest, hrun⟩ := h
  rw [if_pos rfl] at hrun
  obtain ⟨hpos, hmem, hle, hm, hdrop'⟩ := recvSocketMsg_some hread hrun
  rw [hdrop, List.drop_drop] at hdrop'
  rw [hdrop, List.length_drop] at hle
  have hacc := (d.drop_eq_rest (n := d.header + lengthRead header junk)
    (by have := d.header_le_length; omega)).1 (hdrop' ▸ hrest)
  refine ⟨hpos, hmem, hacc, ?_⟩
  rw [hdrop, List.drop_append_of_le_length (by rw [List.length_take, Nat.min_eq_left d.le]; omega),
    List.take_append_of_le_length (by
      rw [List.length_drop, List.length_take, Nat.min_eq_left d.le]; omega),
    List.drop_take, List.take_take, Nat.min_eq_left (by omega)] at hm
  exact hm

/-- A header read in part takes its length from the stack. -/
theorem lengthRead_short {bs : List UInt8} {n : ℕ} (hn : n ≤ 2) (j k : UInt8) :
    lengthRead (bs.take n) (j, k) = lengthRead (bs.take n) (j, 0) + 2 ^ 8 * k.toNat := by
  have hlen : (bs.take n).length ≤ 2 := Nat.le_trans (List.length_take_le _ _) hn
  simp only [lengthRead, List.getD_eq_default _ _ hlen, UInt8.toNat_zero, Nat.mul_zero,
    Nat.add_zero]

/-- **A header read in part is never right**: the stack can hold a length that is not that of
the message. -/
theorem header_eq_of_received {d : Delivery wire rest}
    (h : ∀ junk, Received c mem cmd cmd m rest junk d.segs) : d.header = 3 := by
  by_contra hne
  have hle : d.header ≤ 2 := by have := d.header_le; omega
  have h₀ := (received_same rfl (h (0, 0))).2.2.1
  have h₁ := (received_same rfl (h (0, 255))).2.2.1
  rw [lengthRead_short hle] at h₁
  simp only [UInt8.reduceToNat] at h₁
  omega

/-- A message of this command is received from a whole header and a whole body that the length
field can count. -/
theorem received_same_iff {sendMem : Bool} (hsend : sendSocketMsg c sendMem cmd m = some wire)
    (d : Delivery wire rest) :
    (∀ junk, Received c mem cmd cmd m rest junk d.segs) ↔
      (1 ≤ c.getSize m ∧ c.getSize m < 2 ^ 16) ∧ d.accepted = 3 + c.getSize m ∧
        d.header = 3 ∧ mem = true := by
  have hwire := sendSocketMsg_eq hsend
  have htake : ∀ {k}, 3 ≤ k → (wire.take k ++ rest).take 3 = wire.take 3 := fun {k} hk => by
    rw [List.take_append_of_le_length (by rw [List.length_take, hwire]; simp; omega),
      List.take_take, Nat.min_eq_left hk]
  have hhead : wire.take 3 = [cmd, UInt8.ofNat (c.getSize m % 2 ^ 16),
      UInt8.ofNat (c.getSize m % 2 ^ 16 / 2 ^ 8)] := by rw [hwire]; rfl
  have hbody : wire.drop 3 = (c.pack m).take (c.getSize m % 2 ^ 16) := by rw [hwire]; rfl
  constructor
  · intro h
    have hh := header_eq_of_received h
    obtain ⟨hpos, hmem, hacc, hm⟩ := received_same rfl (h (0, 0))
    rw [hh, htake (by omega), hhead, lengthRead_header] at hpos hacc hm
    rw [hbody, List.take_take, Nat.min_self] at hm
    have hsize : ¬ c.getSize m % 2 ^ 16 < c.getSize m := fun hlt => c.unpack_take m _ hlt hm
    exact ⟨by omega, by omega, hh, hmem⟩
  · rintro ⟨⟨hpos, hlt⟩, hacc, hh, rfl⟩ junk
    obtain ⟨segs₁, hread, hdrop⟩ := d.readSome
    rw [hh, htake (by omega), hhead] at hread
    have hlen := lengthRead_header cmd (c.getSize m) junk
    rw [Nat.mod_eq_of_lt hlt] at hlen hread
    rw [Nat.mod_eq_of_lt hlt, ← c.length_pack, List.take_length] at hbody
    have hall : wire.take d.accepted = wire := by
      have hl := congrArg List.length hbody
      rw [List.length_drop, c.length_pack] at hl
      exact List.take_of_length_le (by omega)
    rw [hh, hall, List.drop_append_of_le_length (by rw [hwire]; simp), hbody] at hdrop
    obtain ⟨segs', hrun, hdrop'⟩ := recvSocketMsg_body (c := c) (m := m) junk hread rfl
      (by omega) (by rw [hlen, hdrop, List.length_append, c.length_pack]; omega)
      (by rw [hlen, hdrop, ← c.length_pack, List.take_left, c.unpack_pack])
    refine ⟨segs', ?_, by rw [if_pos rfl]; exact hrun⟩
    rw [hdrop', hdrop, hlen, ← c.length_pack, List.drop_left]

/-- A message that arrives whole is received, or refused for its command. -/
theorem recvSocketMsg_sent {sendMem : Bool} (rcmd : UInt8)
    (hsend : sendSocketMsg c sendMem cmd m = some wire)
    (hsize : 1 ≤ c.getSize m ∧ c.getSize m < 2 ^ 16) (d : Delivery wire rest)
    (hacc : d.accepted = 3 + c.getSize m) (hheader : d.header = 3) (junk : UInt8 × UInt8) :
    ∃ segs', recvSocketMsg c true rcmd junk d.segs =
      some (if cmd = rcmd then .ok (some m) else .error .badCommand, segs') := by
  by_cases hcmd : cmd = rcmd
  · subst hcmd
    obtain ⟨segs', -, hrun⟩ := (received_same_iff hsend d).2 ⟨hsize, hacc, hheader, rfl⟩ junk
    exact ⟨segs', by rw [hrun, if_pos rfl]⟩
  · obtain ⟨segs₁, hread, -⟩ := d.readSome
    have hhead : wire.head? = some cmd := by
      rw [sendSocketMsg_eq hsend]
      rfl
    have hne : ((wire.take d.accepted ++ rest).take d.header).getD 0 0 ≠ rcmd := by
      rwa [d.rcmd_eq hhead]
    exact ⟨segs₁, by rw [recvSocketMsg_refused hread hne, if_neg hcmd]⟩

end Exchange

/-- **IPC framing.**  For every content of the stack at `length` the exchange goes as it should,
if and only if it is `Framed`. -/
theorem exchanged_iff_framed (c : Codec M) (sendMem recvMem : Bool) (cmd rcmd : UInt8) (m : M)
    (rest : List UInt8) (net : (wire : List UInt8) → Option (Delivery wire rest)) :
    (∀ junk, Exchanged c sendMem recvMem cmd rcmd m rest net junk) ↔
      Framed c sendMem recvMem cmd rcmd m rest net := by
  unfold Exchanged Framed
  cases hsend : sendSocketMsg c sendMem cmd m with
  | none => simp
  | some wire =>
    simp only
    cases net wire with
    | none => simp
    | some d =>
      simp only
      by_cases hcmd : rcmd = cmd
      · subst hcmd
        rw [if_pos rfl]
        exact received_same_iff hsend d
      · rw [if_neg hcmd]
        have hhead : wire.head? = some cmd := by rw [sendSocketMsg_eq hsend]; rfl
        simp only [received_refused_iff d hhead hcmd, forall_const]

/-- Messages that are their own encoding. -/
def bytesCodec : Codec (List UInt8) where
  getSize := List.length
  pack := id
  unpack := some
  length_pack _ := rfl
  unpack_pack _ := rfl
  unpack_take m n h heq := by
    have := congrArg List.length (Option.some.inj heq)
    rw [id, List.length_take, Nat.min_eq_left (Nat.le_of_lt h)] at this
    omega

/-- A delivery of all bytes in one segment. -/
def Delivery.whole (rest : List UInt8) (wire : List UInt8) : Option (Delivery wire rest) :=
  if h : wire = [] then none
  else some
    { accepted := wire.length
      pos := List.length_pos_iff.2 h
      le := Nat.le_refl _
      segs := [wire ++ rest]
      ne_nil := by simp [h]
      flatten_eq := by simp }

theorem sendSocketMsg_long (cmd b : UInt8) {n : ℕ} (hn : n % 2 ^ 16 = 0) :
    sendSocketMsg bytesCodec true cmd (List.replicate (n + 1) b) = some [cmd, 1, 0, b] := by
  have hmod : bytesCodec.getSize (List.replicate (n + 1) b) % 2 ^ 16 = 1 := by
    have : bytesCodec.getSize (List.replicate (n + 1) b) = n + 1 := List.length_replicate
    omega
  simp only [sendSocketMsg, hmod]
  simp [bytesCodec, List.replicate_succ]

/-- A list of users of 65537 bytes arrives as one of a single byte; a session request met by a
receiver that waits for the reply to a ban request leaves its body in the stream. -/
theorem exchanged_whole_fails :
    ¬ Exchanged bytesCodec true true 104 104 (List.replicate 65537 0) [] (Delivery.whole [])
        (0, 0) ∧
    ¬ Exchanged bytesCodec true true 240 244 [8, 1] [] (Delivery.whole []) (0, 0) := by
  have hsend : sendSocketMsg bytesCodec true 104 (List.replicate 65537 0) = some [104, 1, 0, 0] :=
    sendSocketMsg_long 104 0 (n := 65536) rfl
  constructor
  · rw [Exchanged, hsend]
    rintro ⟨segs', -, hrun⟩
    have hone : recvSocketMsg bytesCodec true 104 (0, 0) [[104, 1, 0, 0] ++ []] =
      some (.ok (some [0]), []) := rfl
    rw [if_pos rfl] at hrun
    have hmsg := (Prod.mk.inj (Option.some.inj (hone.symm.trans hrun))).1
    have hlen := congrArg List.length (Option.some.inj (Except.ok.inj hmsg))
    rw [List.length_replicate] at hlen
    cases hlen
  · rintro ⟨segs', hrest, hrun⟩
    have hleft : recvSocketMsg bytesCodec true 244 (0, 0) [[240, 2, 0, 8, 1] ++ []] =
      some (.error .badCommand, [[8, 1]]) := rfl
    rw [← (Prod.mk.inj (Option.some.inj (hleft.symm.trans hrun))).2] at hrest
    cases hrest

end Ipc

end Ocserv
