import Ocserv.Protobuf
import Ocserv.Ipc.Framing
import Ocserv.Worker.Dtls

/-!
# The UDP session, from main to the worker

A DTLS client hello arrives at the UDP socket of main.  `forward_udp_to_owner` (`src/main.c`)
finds the worker it belongs to and passes it a connected socket and the datagram in a
`CMD_UDP_FD` message, which `handle_worker_commands` (`src/worker-misc.c`) takes from the command
socket into a buffer of its own.

* `handedOver_iff` : which datagrams get to the worker.
-/

namespace Ocserv

namespace Worker

/-! ### The message -/

/-- `udp_fd_msg` of `src/ipc.proto`. -/
structure UdpFdMsg where
  hello : Bool
  data : Option (List UInt8)
  deriving DecidableEq, Repr

namespace UdpFdMsg

open Protobuf

/-- `UDP_FD_MSG__INIT`. -/
def init : UdpFdMsg := ⟨true, none⟩

def fields (m : UdpFdMsg) : List Field :=
  ⟨1, .varint (if m.hello then 1 else 0)⟩ :: optional 2 .bytes m.data

/-- `udp_fd_msg__pack`. -/
def pack (m : UdpFdMsg) : List UInt8 := encode m.fields

/-- A field is parsed into the message; a boolean may have any wire type. -/
def set (m : UdpFdMsg) (f : Field) : Option UdpFdMsg :=
  match f.number, f.value with
  | 1, .varint n => some { m with hello := n ≠ 0 }
  | 1, .bytes data => some { m with hello := data ≠ [] }
  | 2, .bytes data => some { m with data := some data }
  | 2, .varint _ => none
  | _, _ => some m

/-- `udp_fd_msg__unpack`. -/
def unpack (bs : List UInt8) : Option UdpFdMsg := do
  let fields ← decode bs
  build set init fields

theorem build_fields (m : UdpFdMsg) : build set init m.fields = some m := by
  obtain ⟨hello, data⟩ := m
  cases hello <;> cases data <;> rfl

theorem unpack_pack (m : UdpFdMsg) (h : ∀ data, m.data = some data → data.length < 2 ^ 32) :
    unpack m.pack = some m := by
  have hfits : ∀ f ∈ m.fields, f.Fits := by
    intro f hf
    rcases List.mem_cons.1 hf with rfl | hf
    · exact .varint (by decide) (by split <;> decide)
    · exact fits_optional (fun data hdata => .bytes (by decide) (h data hdata)) f hf
  rw [unpack, pack, decode_encode _ hfits]
  exact build_fields m

/-- The size of a message with a hello of less than 16384 bytes. -/
theorem length_pack_hello {data : List UInt8} (h : data.length < 2 ^ 14) :
    (pack ⟨true, some data⟩).length =
      (if data.length < 2 ^ 7 then 4 else 5) + data.length := by
  have htag : encodeVarint 8 = [8] := encodeVarint_of_lt (by decide)
  have htag' : encodeVarint 18 = [18] := encodeVarint_of_lt (by decide)
  have hone : encodeVarint 1 = [1] := encodeVarint_of_lt (by decide)
  have hfields : pack ⟨true, some data⟩ =
      encodeVarint 8 ++ encodeVarint 1 ++
        ((encodeVarint 18 ++ (encodeVarint data.length ++ data)) ++ []) := rfl
  rw [hfields, htag, htag', hone]
  simp only [List.length_append, List.length_cons, List.length_nil, length_encodeVarint h]
  split <;> omega

end UdpFdMsg

/-! ### Main -/

def cmdUdpFd : UInt8 := 10

def recordPayloadPos : ℕ := 13

def handshakeSessionIdPos : ℕ := 46

def gnutlsMaxSessionId : ℕ := 32

def udpFdResendTime : ℤ := 60

/-- What `forward_udp_to_owner` finds for a datagram; `P` is the type of workers. -/
structure ForwardEnv (P : Type*) where
  /-- `proc_search_dtls_id`. -/
  searchDtlsId : List UInt8 → Option P
  /-- `proc_search_ip` for the address of the sender. -/
  searchIp : Option P
  /-- `perm_config->unix_conn_file` is set. -/
  unixConnFile : Bool
  now : ℤ
  udpFdReceiveTime : P → ℤ
  /-- `socket` and `connect` succeed. -/
  socket : Bool
  connect : Bool

/-- `forward_udp_to_owner`, up to the message that is sent and the worker it is sent to. -/
def forwardUdpToOwner {P : Type*} (e : ForwardEnv P) (buffer : List UInt8) :
    Option (P × UdpFdMsg) :=
  let at' := fun i => buffer.getD i 0
  if buffer.length < recordPayloadPos + handshakeSessionIdPos + gnutlsMaxSessionId + 2 then none
  else if at' 1 ≠ 254 ∧ (at' 1 ≠ 1 ∧ at' 2 ≠ 0) ∧ at' recordPayloadPos ≠ 254 ∧
      (at' recordPayloadPos ≠ 0 ∧ at' (recordPayloadPos + 1) ≠ 0) then none
  else
    let matchIpOnly : Bool := at' 0 ≠ 22
    if matchIpOnly && e.unixConnFile then none
    else
      let sessionIdSize := (at' (recordPayloadPos + handshakeSessionIdPos)).toNat
      let sessionId :=
        (buffer.drop (recordPayloadPos + handshakeSessionIdPos + 1)).take sessionIdSize
      match if matchIpOnly then e.searchIp else e.searchDtlsId sessionId with
      | none => none
      | some proc =>
        if e.now - e.udpFdReceiveTime proc ≤ udpFdResendTime then none
        else if !e.socket || !e.connect then none
        else if matchIpOnly then some (proc, { UdpFdMsg.init with hello := false })
        else some (proc, { UdpFdMsg.init with data := some buffer })

/-- A datagram is as long as a client hello with a session id, and has a version. -/
def KnownHeader (buffer : List UInt8) : Prop :=
  let at' := fun i => buffer.getD i 0
  recordPayloadPos + handshakeSessionIdPos + gnutlsMaxSessionId + 2 ≤ buffer.length ∧
    ¬ (at' 1 ≠ 254 ∧ (at' 1 ≠ 1 ∧ at' 2 ≠ 0) ∧ at' recordPayloadPos ≠ 254 ∧
      (at' recordPayloadPos ≠ 0 ∧ at' (recordPayloadPos + 1) ≠ 0))

instance : DecidablePred KnownHeader := fun buffer => by
  unfold KnownHeader
  infer_instance

/-- The worker a datagram belongs to: that with the session id of a hello, and otherwise that with
the address of the sender. -/
def ForwardEnv.owner {P : Type*} (e : ForwardEnv P) (buffer : List UInt8) : Option P :=
  if buffer.getD 0 0 = 22 then
    e.searchDtlsId ((buffer.drop (recordPayloadPos + handshakeSessionIdPos + 1)).take
      (buffer.getD (recordPayloadPos + handshakeSessionIdPos) 0).toNat)
  else if e.unixConnFile then none
  else e.searchIp

/-- A worker can be sent a socket, and was not sent one for a while. -/
def ForwardEnv.Ready {P : Type*} (e : ForwardEnv P) (proc : P) : Prop :=
  udpFdResendTime < e.now - e.udpFdReceiveTime proc ∧ e.socket = true ∧ e.connect = true

instance {P : Type*} (e : ForwardEnv P) (proc : P) : Decidable (e.Ready proc) := by
  unfold ForwardEnv.Ready
  infer_instance

/-- **Which worker is sent a socket.** -/
theorem forwardUdpToOwner_iff {P : Type*} (e : ForwardEnv P) (buffer : List UInt8) (proc : P) :
    (∃ msg, forwardUdpToOwner e buffer = some (proc, msg)) ↔
      KnownHeader buffer ∧ e.owner buffer = some proc ∧ e.Ready proc := by
  -- the end of the function, for the worker `q` that the search found
  have sent : ∀ (q : P) (msg : UdpFdMsg),
      (∃ msg', (if e.now - e.udpFdReceiveTime q ≤ udpFdResendTime then none
        else if !e.socket || !e.connect then none
        else some (q, msg)) = some (proc, msg')) ↔ some q = some proc ∧ e.Ready proc := by
    intro q msg
    unfold ForwardEnv.Ready
    by_cases hlate : e.now - e.udpFdReceiveTime q ≤ udpFdResendTime
    · simp only [hlate, if_true, reduceCtorEq, exists_false, false_iff]
      rintro ⟨⟨⟩, hlt, -⟩
      exact absurd hlate (not_le.2 hlt)
    · cases e.socket <;> cases e.connect <;> simp [hlate]
      rintro rfl
      exact not_le.1 hlate
  unfold forwardUdpToOwner KnownHeader ForwardEnv.owner
  dsimp only
  by_cases hlen : buffer.length < recordPayloadPos + handshakeSessionIdPos + gnutlsMaxSessionId + 2
  · rw [if_pos hlen]
    simp only [reduceCtorEq, exists_false, false_iff]
    rintro ⟨⟨hle, -⟩, -⟩
    exact absurd hlen (not_lt.2 hle)
  · rw [if_neg hlen, and_iff_right (not_lt.1 hlen)]
    split
    · rename_i hversion
      simp only [reduceCtorEq, exists_false, false_iff]
      exact fun h => h.1 hversion
    · rename_i hversion
      rw [and_iff_right hversion]
      by_cases htype : buffer.getD 0 0 = 22
      · simp only [htype, ne_eq, not_true_eq_false, decide_false, Bool.false_and,
          Bool.false_eq_true, if_false, if_true]
        generalize e.searchDtlsId _ = found
        cases found with
        | none => simp
        | some q => exact sent q _
      · simp only [htype, ne_eq, not_false_eq_true, decide_true, Bool.true_and, if_false, if_true]
        cases e.unixConnFile with
        | true => simp
        | false =>
          cases e.searchIp with
          | none => simp
          | some q => exact sent q _

/-- A datagram of content type 22 is passed on whole, as a hello. -/
theorem forwardUdpToOwner_hello {P : Type*} {e : ForwardEnv P} {buffer : List UInt8}
    {proc : P} {msg : UdpFdMsg} (h : buffer.getD 0 0 = 22)
    (hfwd : forwardUdpToOwner e buffer = some (proc, msg)) : msg = ⟨true, some buffer⟩ := by
  simp only [forwardUdpToOwner, h, ne_eq, not_true_eq_false, decide_false, Bool.false_and,
    Bool.false_eq_true, if_false] at hfwd
  split at hfwd
  · cases hfwd
  split at hfwd
  · cases hfwd
  split at hfwd
  · cases hfwd
  split at hfwd
  · cases hfwd
  split at hfwd
  · cases hfwd
  · cases hfwd
    rfl

/-! ### The worker -/

/-- `sizeof(cmd_data)`. -/
def cmdDataSize : ℕ := 1536

/-- `ws->dtls_tptr`. -/
structure DtlsTransport where
  msg : Option UdpFdMsg
  fd : Option ℕ
  deriving DecidableEq, Repr

/-- What `recvmsg` gives `handle_worker_commands` of the bytes on the command socket. -/
def recvCommand (wire : List UInt8) : List UInt8 := wire.take (3 + cmdDataSize)

/-- `handle_worker_commands` for a message that came with the socket `fd`; `recent` says that
there was traffic in the session for the last `ACTIVE_SESSION_TIMEOUT` seconds. -/
def receiveCommand (recent : Bool) (data : List UInt8) (fd : ℕ) (ws : DtlsWorker)
    (tptr : DtlsTransport) : DtlsWorker.Result × DtlsTransport :=
  let cmd := data.getD 0 0
  let length := Ipc.lengthRead data (0, 0)
  if data.length < 3 + length then (ws.handleWorkerCommands .exit, tptr)
  else if cmd = cmdUdpFd then
    let tmsg := UdpFdMsg.unpack ((data.drop 3).take length)
    let hello := (tmsg.map UdpFdMsg.hello).getD true
    -- a socket without a hello replaces the one of a session that is there and has no traffic
    let replaced := hello ||
      (decide (ws.udpState = .active ∨ ws.udpState = .inactive) && !recent)
    (ws.handleWorkerCommands (.udpFd hello recent), if replaced then ⟨tmsg, some fd⟩ else tptr)
  else (ws.handleWorkerCommands .exit, tptr)

/-- The worker takes the datagram over: it goes on, sets up a DTLS session on the new socket,
and has the bytes of the datagram as the first ones of it. -/
def HandedOver (recent : Bool) (msg : UdpFdMsg) (buffer : List UInt8) (fd : ℕ) (ws : DtlsWorker)
    (tptr : DtlsTransport) : Prop :=
  receiveCommand recent (recvCommand (Ipc.frame cmdUdpFd msg.pack)) fd ws tptr =
    (.ok { ws with udpState := .setup }, ⟨some ⟨true, some buffer⟩, some fd⟩)

section Receive

variable {buffer : List UInt8} {recent : Bool} {fd : ℕ} {ws : DtlsWorker} {tptr : DtlsTransport}

theorem frame_hello (hlen : (UdpFdMsg.pack ⟨true, some buffer⟩).length < 2 ^ 16) :
    Ipc.frame cmdUdpFd (UdpFdMsg.pack ⟨true, some buffer⟩) =
      cmdUdpFd :: UInt8.ofNat ((UdpFdMsg.pack ⟨true, some buffer⟩).length % 2 ^ 16) ::
        UInt8.ofNat ((UdpFdMsg.pack ⟨true, some buffer⟩).length % 2 ^ 16 / 2 ^ 8) ::
        UdpFdMsg.pack ⟨true, some buffer⟩ := by
  rw [Ipc.frame, List.take_of_length_le (Nat.mod_eq_of_lt hlen).ge]
  rfl

/-- A message that fits the buffer of the worker is taken over. -/
theorem handedOver_of_le (h : buffer.length ≤ 1531) :
    HandedOver recent ⟨true, some buffer⟩ buffer fd ws tptr := by
  have hshort : buffer.length < 2 ^ 14 := by omega
  have hsize := UdpFdMsg.length_pack_hello hshort
  have hle : (UdpFdMsg.pack ⟨true, some buffer⟩).length ≤ cmdDataSize := by
    rw [hsize, cmdDataSize]
    split <;> omega
  have hlt : (UdpFdMsg.pack ⟨true, some buffer⟩).length < 2 ^ 16 := by
    rw [cmdDataSize] at hle
    omega
  rw [HandedOver, frame_hello hlt, recvCommand, List.take_of_length_le]
  · unfold receiveCommand
    dsimp only
    rw [Ipc.lengthRead_frame, Nat.mod_eq_of_lt hlt, if_neg (by simp only [List.length_cons]; omega)]
    simp only [List.getD_cons_zero, if_true, List.drop_succ_cons, List.drop_zero,
      List.take_length]
    rw [UdpFdMsg.unpack_pack]
    · rfl
    · rintro data ⟨⟩
      omega
  · simp only [List.length_cons]
    omega

/-- A message that is longer makes the worker exit. -/
theorem receiveCommand_of_lt (h : 1531 < buffer.length) (h' : buffer.length < 2 ^ 14) :
    receiveCommand recent (recvCommand (Ipc.frame cmdUdpFd
      (UdpFdMsg.pack ⟨true, some buffer⟩))) fd ws tptr = (.error ws, tptr) := by
  have hsize := UdpFdMsg.length_pack_hello h'
  rw [if_neg (by omega)] at hsize
  have hlt : (UdpFdMsg.pack ⟨true, some buffer⟩).length < 2 ^ 16 := by omega
  rw [frame_hello hlt, recvCommand]
  unfold receiveCommand
  simp only [show 3 + cmdDataSize = cmdDataSize + 1 + 1 + 1 from rfl, List.take_succ_cons]
  rw [Ipc.lengthRead_frame, Nat.mod_eq_of_lt hlt, if_pos]
  · rfl
  · simp only [List.length_cons, List.length_take, cmdDataSize]
    omega

end Receive

/-- **Which datagrams get to the worker.**  A datagram of content type 22 (at most 1536 bytes,
the size of main's buffer) that main passes to a worker is taken over by it if and only if it has
at most 1531 bytes; a longer one makes the worker exit. -/
theorem handedOver_iff {P : Type*} (e : ForwardEnv P) (buffer : List UInt8) (proc : P)
    (msg : UdpFdMsg) (recent : Bool) (fd : ℕ) (ws : DtlsWorker) (tptr : DtlsTransport)
    (hlen : buffer.length ≤ 1536) (htype : buffer.getD 0 0 = 22)
    (hfwd : forwardUdpToOwner e buffer = some (proc, msg)) :
    HandedOver recent msg buffer fd ws tptr ↔ buffer.length ≤ 1531 := by
  rw [forwardUdpToOwner_hello htype hfwd]
  constructor
  · intro h
    by_contra hgt
    -- the tail of the message is lost, and its length shows it
    rw [HandedOver, receiveCommand_of_lt (not_le.1 hgt) (by omega)] at h
    cases h
  · exact handedOver_of_le

/-! ### Two hellos -/

/-- A client hello with a session id of 32 bytes, and what follows it. -/
def clientHello (rest : List UInt8) : List UInt8 :=
  [22, 1, 0] ++ (List.replicate 56 0 ++ (32 :: (List.replicate 32 7 ++ rest)))

/-- Main with one worker, which has that session id. -/
def oneSession : ForwardEnv Unit where
  searchDtlsId id := if id = List.replicate 32 7 then some () else none
  searchIp := none
  unixConnFile := false
  now := 1000
  udpFdReceiveTime _ := 0
  socket := true
  connect := true

theorem forwardUdpToOwner_clientHello {rest : List UInt8} (h : 0 < rest.length) :
    forwardUdpToOwner oneSession (clientHello rest) =
      some ((), ⟨true, some (clientHello rest)⟩) := by
  have hlen : ¬ (clientHello rest).length < recordPayloadPos + handshakeSessionIdPos +
      gnutlsMaxSessionId + 2 := by
    simp only [clientHello, List.length_append, List.length_cons, List.length_replicate,
      List.length_nil, recordPayloadPos, handshakeSessionIdPos, gnutlsMaxSessionId]
    omega
  rw [forwardUdpToOwner, if_neg hlen]
  rfl

theorem handedOver_clientHello :
    HandedOver false ⟨true, some (clientHello [0, 0])⟩ (clientHello [0, 0]) 5
      (DtlsWorker.start true 1400) ⟨none, none⟩ :=
  (handedOver_iff oneSession (clientHello [0, 0]) () _ false 5 (DtlsWorker.start true 1400)
    ⟨none, none⟩ (by decide) (by decide) (forwardUdpToOwner_clientHello (by decide))).2 (by decide)

/-- A hello of 1532 bytes is passed on, and makes the worker exit. -/
theorem not_handedOver_1532 :
    forwardUdpToOwner oneSession (clientHello (List.replicate 1440 0)) =
        some ((), ⟨true, some (clientHello (List.replicate 1440 0))⟩) ∧
      ¬ HandedOver false ⟨true, some (clientHello (List.replicate 1440 0))⟩
        (clientHello (List.replicate 1440 0)) 5 (DtlsWorker.start true 1400) ⟨none, none⟩ := by
  have hlen : (clientHello (List.replicate 1440 0)).length = 1532 := by
    simp only [clientHello, List.length_append, List.length_cons, List.length_replicate,
      List.length_nil]
  refine ⟨forwardUdpToOwner_clientHello (by rw [List.length_replicate]; decide), ?_⟩
  intro h
  rw [HandedOver, receiveCommand_of_lt (by rw [hlen]; decide) (by rw [hlen]; decide)] at h
  cases h

end Worker

end Ocserv
