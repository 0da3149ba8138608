import Ocserv.Worker.Mtu

/-!
# Worker: the life of the DTLS session

The steps of the data loop of `connect_handler` (`src/worker-vpn.c`) as far as they concern
`ws->udp_state`, `ws->dtls_session` and the MTU: `periodic_check`, `tun_mainloop`,
`tls_mainloop`, `dtls_mainloop` and `handle_worker_commands` (`src/worker-misc.c`).  What GnuTLS,
the devices, the clock and the peers answer is in the labels.  `dtls_close` deinitialises the
session and leaves the pointer as it is, so a session is null, live or deinitialised, and the
state records every operation on a deinitialised one.

* `DtlsWorker.sessionKept_iff` : in which runs no operation meets a deinitialised session.
-/

namespace Ocserv

namespace Worker

/-- `udp_port_state_t`. -/
inductive UdpState where
  | disabled
  | waitFd
  | setup
  | handshake
  | inactive
  | active
  deriving DecidableEq, Repr

/-- `udp_state > UP_WAIT_FD`. -/
def UdpState.afterWaitFd : UdpState → Bool
  | .disabled | .waitFd => false
  | .setup | .handshake | .inactive | .active => true

/-- The states in which the steps take the session to be there. -/
def UdpState.needsSession : UdpState → Bool
  | .disabled | .waitFd | .setup => false
  | .handshake | .inactive | .active => true

/-- What `ws->dtls_session` points to. -/
inductive DtlsSession where
  | null
  | live
  | deinited
  deriving DecidableEq, Repr

/-- The GnuTLS functions that are called with `ws->dtls_session`: those of the tunnel, the check
for pending data at the head of the loop, and the queries (the alert, the data MTU, the
description). -/
inductive DtlsOp where
  | send
  | recv
  | setMtu
  | handshake
  | bye
  | deinit
  | checkPending
  | query
  deriving DecidableEq, Repr

/-- The part of `worker_st` for the UDP channel. -/
structure DtlsWorker where
  udpState : UdpState
  session : DtlsSession
  mtu : Mtu
  /-- The operations on a deinitialised session, the last one first. -/
  misused : List DtlsOp
  running : Bool
  deriving DecidableEq, Repr

/-- What the steps need of the configuration. -/
structure DtlsConfig where
  /-- `ws->vinfo.ipv6` is set. -/
  ipv6 : Bool
  tryMtu : Bool
  /-- `proto_overhead + crypto_overhead`. -/
  mtuOverhead : ℕ

/-- The result of `dtls_send`: an error may be fatal. -/
inductive SendResult where
  | sent (size : ℕ)
  | largePacket
  | error (fatal : Bool)
  deriving DecidableEq, Repr

/-- The result of a handler, or the state in which the process exits. -/
abbrev DtlsWorker.Result := Except DtlsWorker DtlsWorker

namespace DtlsWorker

/-- `ws->dtls_session` is passed to a function. -/
def use (op : DtlsOp) (ws : DtlsWorker) : DtlsWorker :=
  if ws.session = .deinited then { ws with misused := op :: ws.misused } else ws

/-- `dtls_close`. -/
def dtlsClose (ws : DtlsWorker) : DtlsWorker :=
  { (ws.use .bye).use .deinit with session := .deinited }

/-- `mtu_set`. -/
def mtuSet (mtu : ℕ) (ws : DtlsWorker) : DtlsWorker :=
  let ws := { ws with mtu := ws.mtu.mtuSet mtu }
  if ws.session = .null then ws else ws.use .setMtu

/-- `mtu_not_ok`.  The callers do not look at what it returns. -/
def mtuNotOk (cfg : DtlsConfig) (ws : DtlsWorker) : DtlsWorker :=
  match ws.mtu.mtuNotOk (minMtu cfg.ipv6) with
  | .error mtu => { dtlsClose { ws with mtu := mtu } with udpState := .disabled }
  | .ok mtu => mtuSet mtu.connMtu { ws with mtu := mtu }

/-- `mtu_ok`. -/
def mtuOk (ws : DtlsWorker) : DtlsWorker :=
  if ws.mtu.lastBadMtu = (ws.mtu.connMtu + 1) % 2 ^ 32 ∨ ws.mtu.lastBadMtu = ws.mtu.connMtu then
    ws
  else mtuSet ws.mtu.mtuOk.connMtu { ws with mtu := ws.mtu.mtuOk }

/-- The label `exit` of `connect_handler`, where the handlers that return -1 lead. -/
def gotoExit (ws : DtlsWorker) : Result :=
  if ws.udpState = .active ∧ ws.session ≠ .null then .error ws.dtlsClose else .error ws

/-- The label `terminate`: a message over TLS, which may fail. -/
def terminate (cstpFatal : Bool) (ws : DtlsWorker) : Result :=
  if cstpFatal then .error ws else ws.gotoExit

/-! ### Pending data and the periodic check -/

/-- The head of the loop. -/
def checkPending (ws : DtlsWorker) : Result :=
  if ws.udpState.afterWaitFd ∧ ws.session ≠ .null then .ok (ws.use .checkPending) else .ok ws

/-- What `periodic_check` meets. -/
structure PeriodicInput where
  /-- `PERIODIC_CHECK_TIME` has passed. -/
  due : Bool
  /-- The idle timeout is reached. -/
  idle : Bool
  /-- Nothing came over UDP for long: the answer to the DPD, and whether it is very long. -/
  udpLate : Option (SendResult × Bool)
  /-- Nothing came over TCP for long: the DPD fails, or it is very long. -/
  tcpLate : Option (Bool × Bool)
  maxseg : Option ℤ
  deriving DecidableEq, Repr

/-- The TCP MSS makes `periodic_check` set the MTU. -/
def mssReduces (cfg : DtlsConfig) (ws : DtlsWorker) (maxseg : Option ℤ) : Bool :=
  match maxseg with
  | none => false
  | some max => 0 < max - 13 ∧ usub (max - 13).toNat cfg.mtuOverhead < ws.mtu.connMtu

/-- `periodic_check` from the check of the TCP channel on. -/
def periodicTcp (cfg : DtlsConfig) (e : PeriodicInput) (ws : DtlsWorker) : Result :=
  match e.tcpLate with
  | some (true, _) => .error ws
  | some (false, true) => ws.gotoExit
  | some (false, false) | none =>
    if mssReduces cfg ws e.maxseg then
      .ok (mtuSet (ws.mtu.reduceToMss cfg.mtuOverhead e.maxseg).connMtu ws)
    else .ok ws

/-- `periodic_check`. -/
def periodicCheck (cfg : DtlsConfig) (e : PeriodicInput) (ws : DtlsWorker) : Result :=
  if !e.due || e.idle then .ok ws
  else
    match e.udpLate, ws.udpState with
    | some (.error true, _), .active => .error (ws.use .send)
    | some (_, veryLate), .active =>
      let ws := ws.use .send
      periodicTcp cfg e (if veryLate then { ws with udpState := .inactive } else ws)
    | _, _ => periodicTcp cfg e ws

/-! ### The device and the TLS channel -/

/-- What `tun_mainloop` meets. -/
inductive TunInput where
  /-- Nothing to read, or a packet that the bandwidth limit drops. -/
  | nothing
  | corrupt
  /-- A packet is sent: the results over DTLS and (when it goes that way) over TLS. -/
  | packet (sent : SendResult) (cstpFatal : Bool)
  deriving DecidableEq, Repr

/-- The end of `tun_mainloop`: what was not sent over DTLS goes over TLS. -/
def tunTls (retry cstpFatal : Bool) (ws : DtlsWorker) : Result :=
  if (ws.udpState ≠ .active ∨ retry) ∧ cstpFatal then .error ws else .ok ws

/-- `tun_mainloop`. -/
def tunMainloop (cfg : DtlsConfig) (e : TunInput) (ws : DtlsWorker) : Result :=
  match e with
  | .nothing => .ok ws
  | .corrupt => ws.gotoExit
  | .packet sent cstpFatal =>
    if ws.udpState = .active then
      let ws := ws.use .send
      match sent with
      | .error true => .error ws
      -- the code of the error is larger than any MTU, as an `unsigned`
      | .error false => tunTls false cstpFatal (if cfg.tryMtu then ws.mtuOk else ws)
      | .largePacket => tunTls true cstpFatal (mtuNotOk cfg ws)
      | .sent size =>
        tunTls false cstpFatal (if size ≥ ws.mtu.connMtu ∧ cfg.tryMtu then ws.mtuOk else ws)
    else tunTls false cstpFatal ws

/-- What `tls_mainloop` meets, in terms of what it does with it. -/
inductive TlsInput where
  /-- A packet that is no data, a TLS rehandshake, or nothing. -/
  | other
  /-- Data; the client has switched to TLS if there was none over UDP for long. -/
  | data (switched : Bool)
  /-- A fatal error, or `AC_PKT_DISCONN`. -/
  | fatal
  /-- The end of the stream, or a packet that is wrong. -/
  | failed
  deriving DecidableEq, Repr

/-- `tls_mainloop`. -/
def tlsMainloop (e : TlsInput) (ws : DtlsWorker) : Result :=
  match e with
  | .other => .ok ws
  | .data switched =>
    if ws.udpState = .active ∧ switched then .ok { ws with udpState := .inactive } else .ok ws
  | .fatal => .error ws
  | .failed => ws.gotoExit

/-! ### The UDP channel -/

/-- A packet from the DTLS channel, in terms of what `parse_data` does with it. -/
inductive DtlsPacket where
  /-- `AC_PKT_DPD_OUT`: the results of the reply and of the one after `mtu_not_ok`. -/
  | dpdOut (reply retry : SendResult)
  /-- `AC_PKT_DISCONN`. -/
  | disconn
  /-- Data that cannot be decompressed or written, or an empty packet. -/
  | failed
  | other
  deriving DecidableEq, Repr

/-- What `gnutls_record_recv_packet` returns. -/
inductive DtlsRecv where
  | fatal
  /-- `GNUTLS_E_REHANDSHAKE`: it comes too soon; the result of the handshake is fatal. -/
  | rehandshake (tooSoon fatal : Bool)
  /-- A packet that the bandwidth limit lets through, or not. -/
  | packet (allowed : Bool) (p : DtlsPacket)
  | nothing
  deriving DecidableEq, Repr

/-- The result of `gnutls_handshake` other than `GNUTLS_E_LARGE_PACKET`. -/
inductive HandshakeResult where
  /-- A fatal error; the text of an alert is logged. -/
  | fatal (alert : Bool)
  | again
  | done (dataMtu : ℕ)
  deriving DecidableEq, Repr

/-- What the calls in `dtls_mainloop` return, each in the state in which it is made. -/
structure DtlsInput where
  recv : DtlsRecv
  /-- `setup_dtls_connection` succeeds. -/
  setup : Bool
  /-- The number of times `gnutls_handshake` returns `GNUTLS_E_LARGE_PACKET`, and what it
  returns then. -/
  large : ℕ
  handshake : HandshakeResult
  deriving DecidableEq, Repr

/-- `parse_data` for a packet of the DTLS channel; a result of -1 leads to the label `exit`. -/
def parseDtlsData (cfg : DtlsConfig) (p : DtlsPacket) (ws : DtlsWorker) : Result :=
  match p with
  | .dpdOut reply retry =>
    let ws := ws.use .send
    match reply with
    | .sent _ => .ok ws
    | .error _ => ws.gotoExit
    | .largePacket =>
      let ws := (mtuNotOk cfg ws).use .send
      match retry with
      | .sent _ => .ok ws
      | .error _ | .largePacket => ws.gotoExit
  | .disconn => .error ws
  | .failed => ws.gotoExit
  | .other => .ok ws

/-- `dtls_mainloop` in `UP_ACTIVE` and `UP_INACTIVE`. -/
def dtlsRecv (cfg : DtlsConfig) (e : DtlsRecv) (ws : DtlsWorker) : Result :=
  let ws := ws.use .recv
  match e with
  | .fatal => .error ws
  | .rehandshake true _ => ws.gotoExit
  | .rehandshake false fatal =>
    let ws := ws.use .handshake
    if fatal then .error ws else .ok ws
  | .packet allowed p =>
    let ws := { ws with udpState := .active }
    if allowed then parseDtlsData cfg p ws else .ok ws
  | .nothing => .ok ws

/-- `dtls_mainloop` in `UP_SETUP`. -/
def dtlsSetup (success : Bool) (ws : DtlsWorker) : Result :=
  if success then
    let ws := { ws with udpState := .handshake, session := .live }
    .ok { ws.use .setMtu with mtu := ws.mtu.mtuDiscoveryInit ws.mtu.connMtu }
  else ws.gotoExit

/-- The label `hsk_restart`, with the number of `GNUTLS_E_LARGE_PACKET` still to come. -/
def hskRestart (cfg : DtlsConfig) : ℕ → DtlsWorker → DtlsWorker
  | 0, ws => ws.use .handshake
  | large + 1, ws => hskRestart cfg large (mtuNotOk cfg (ws.use .handshake))

/-- `dtls_mainloop` in `UP_HANDSHAKE`. -/
def dtlsHandshake (cfg : DtlsConfig) (large : ℕ) (result : HandshakeResult) (ws : DtlsWorker) :
    Result :=
  let ws := hskRestart cfg large ws
  match result with
  | .fatal alert => .ok { (if alert then ws.use .query else ws) with udpState := .disabled }
  | .again => .ok ws
  | .done dataMtu =>
    let ws := { ws.use .query with udpState := .active }
    let mtu := ws.mtu.handshakeDone dataMtu
    .ok ((mtuSet mtu.connMtu { ws with mtu := mtu }).use .query)

/-- `dtls_mainloop`. -/
def dtlsMainloop (cfg : DtlsConfig) (e : DtlsInput) (ws : DtlsWorker) : Result :=
  match ws.udpState with
  | .active | .inactive => dtlsRecv cfg e.recv ws
  | .setup => dtlsSetup e.setup ws
  | .handshake => dtlsHandshake cfg e.large e.handshake ws
  | .disabled | .waitFd => .ok ws

/-! ### Commands from main -/

/-- What `handle_worker_commands` receives. -/
inductive CommandInput where
  /-- A message that is wrong, or `CMD_TERMINATE`. -/
  | exit
  /-- Main has exited; the message to the client fails. -/
  | eof (cstpFatal : Bool)
  /-- A socket; the message is a hello, or the session had traffic lately. -/
  | udpFd (hello recent : Bool)
  /-- `CMD_UDP_FD` without a socket, or one of another type; there is none yet. -/
  | noFd (wrongType noSocket : Bool)
  deriving DecidableEq, Repr

/-- `handle_worker_commands`. -/
def handleWorkerCommands (e : CommandInput) (ws : DtlsWorker) : Result :=
  match e with
  | .exit => .error ws
  | .eof cstpFatal => ws.terminate cstpFatal
  | .udpFd true _ => .ok { ws with udpState := .setup }
  -- a socket without a hello replaces the old one, or is ignored; the state is kept
  | .udpFd false _ => .ok ws
  | .noFd wrongType noSocket =>
    gotoExit (if wrongType && noSocket then { ws with udpState := .disabled } else ws)

end DtlsWorker

/-! ### The data loop -/

open DtlsWorker in
/-- A step of the data loop. -/
inductive DtlsStep where
  | checkPending
  | periodicCheck (e : PeriodicInput)
  | tunMainloop (e : TunInput)
  | tlsMainloop (e : TlsInput)
  | dtlsMainloop (e : DtlsInput)
  | commands (e : CommandInput)
  | terminate (cstpFatal : Bool)
  deriving DecidableEq, Repr

namespace DtlsWorker

/-- What a step does. -/
def perform (cfg : DtlsConfig) (ws : DtlsWorker) : DtlsStep → Result
  | .checkPending => ws.checkPending
  | .periodicCheck e => ws.periodicCheck cfg e
  | .tunMainloop e => ws.tunMainloop cfg e
  | .tlsMainloop e => ws.tlsMainloop e
  | .dtlsMainloop e => ws.dtlsMainloop cfg e
  | .commands e => ws.handleWorkerCommands e
  | .terminate cstpFatal => ws.terminate cstpFatal

/-- The data loop, whose iterations perform some of the steps in turn. -/
def loop (cfg : DtlsConfig) : Machine DtlsWorker DtlsStep where
  step ws i :=
    if ws.running then
      match perform cfg ws i with
      | .ok ws => some ws
      | .error ws => some { ws with running := false }
    else none

/-- The state in which `connect_handler` enters the loop. -/
def start (udp : Bool) (mtu : ℕ) : DtlsWorker where
  udpState := if udp then .waitFd else .disabled
  session := .null
  mtu := ⟨mtu, 0, 0⟩
  misused := []
  running := true

/-- No operation of the tunnel has met a deinitialised session: at most the check for pending
data has. -/
def NoMisuse (ws : DtlsWorker) : Prop := ∀ op ∈ ws.misused, op = .checkPending

/-- `mtu_not_ok` can be called `n` times without giving up. -/
def descends (cfg : DtlsConfig) : ℕ → Mtu → Bool
  | 0, _ => true
  | n + 1, mtu =>
    match mtu.mtuNotOk (minMtu cfg.ipv6) with
    | .error _ => false
    | .ok mtu => descends cfg n mtu

/-- `periodic_check` gets to the TCP MSS. -/
def PeriodicInput.checksMss (e : PeriodicInput) : Bool :=
  e.due && !e.idle && (e.tcpLate.isNone || e.tcpLate == some (false, false))

/-- The condition for a step: `mtu_not_ok` does not give up where the session is used again at
once (the reply to a DPD, the handshake), and once it has given up no `periodic_check` sets the
MTU. -/
def SessionKept (cfg : DtlsConfig) (ws : DtlsWorker) : DtlsStep → Prop
  | .dtlsMainloop e =>
    ws.running = true →
      match ws.udpState with
      | .handshake => descends cfg e.large ws.mtu = true
      | .active | .inactive =>
        ∀ retry, e.recv = .packet true (.dpdOut .largePacket retry) →
          ws.mtu.lastGoodMtu ≠ minMtu cfg.ipv6
      | .disabled | .waitFd | .setup => True
  | .periodicCheck e =>
    ws.running = true → ws.session = .deinited → e.checksMss = true →
      mssReduces cfg ws e.maxseg = false
  | _ => True

/-! ### Operations on the session -/

/-- What the data loop keeps while it runs. -/
structure Sound (ws : DtlsWorker) : Prop where
  noMisuse : ws.NoMisuse
  live : ws.udpState.needsSession = true → ws.session = .live

/-- What a handler keeps. -/
def Result.Sound : Result → Prop
  | .ok ws => ws.Sound
  | .error ws => ws.NoMisuse

/-- A handler misuses the session. -/
def Result.Misuses : Result → Prop
  | .ok ws | .error ws => ¬ ws.NoMisuse

section Ops

variable {cfg : DtlsConfig} {ws : DtlsWorker}

theorem use_of_ne (op : DtlsOp) (h : ws.session ≠ .deinited) : ws.use op = ws := if_neg h

@[simp] theorem session_use (op : DtlsOp) : (ws.use op).session = ws.session := by
  unfold use
  split <;> rfl

@[simp] theorem udpState_use (op : DtlsOp) : (ws.use op).udpState = ws.udpState := by
  unfold use
  split <;> rfl

theorem Sound.ne_deinited (h : ws.Sound) (hs : ws.udpState.needsSession = true) :
    ws.session ≠ .deinited := by
  rw [h.live hs]
  decide

theorem dtlsClose_of_live (h : ws.session = .live) :
    ws.dtlsClose = { ws with session := .deinited } := by
  have hne : ws.session ≠ .deinited := by rw [h]; decide
  rw [dtlsClose, use_of_ne _ hne, use_of_ne _ hne]

theorem mtuSet_of_ne {mtu : ℕ} (h : ws.session ≠ .deinited) :
    mtuSet mtu ws = { ws with mtu := ws.mtu.mtuSet mtu } := by
  simp only [mtuSet]
  split
  · rfl
  · exact use_of_ne _ h

/-- `mtu_not_ok` with a live session: it reduces the MTU, or closes the session. -/
theorem mtuNotOk_of_live (h : ws.session = .live) :
    mtuNotOk cfg ws =
      match ws.mtu.mtuNotOk (minMtu cfg.ipv6) with
      | .error mtu => { ws with mtu := mtu, session := .deinited, udpState := .disabled }
      | .ok mtu => { ws with mtu := mtu } := by
  have hne : ws.session ≠ .deinited := by rw [h]; decide
  unfold mtuNotOk
  cases ws.mtu.mtuNotOk (minMtu cfg.ipv6) with
  | error mtu =>
    have hclose : dtlsClose { ws with mtu := mtu } =
        { ws with mtu := mtu, session := .deinited } := dtlsClose_of_live h
    simp only [hclose]
  | ok mtu => exact mtuSet_of_ne hne

theorem Sound.mtuNotOk (h : ws.Sound) (hs : ws.udpState.needsSession = true) :
    (mtuNotOk cfg ws).Sound := by
  rw [mtuNotOk_of_live (h.live hs)]
  split
  · exact ⟨h.noMisuse, nofun⟩
  · exact ⟨h.noMisuse, h.live⟩

/-- `mtu_not_ok` keeps the session unless the last good MTU is the minimum. -/
theorem session_mtuNotOk (h : ws.session = .live) :
    (mtuNotOk cfg ws).session = .live ↔ ws.mtu.lastGoodMtu ≠ minMtu cfg.ipv6 := by
  rw [mtuNotOk_of_live h]
  simp only [Mtu.mtuNotOk]
  by_cases hmin : ws.mtu.lastGoodMtu = minMtu cfg.ipv6
  · simp [hmin]
  · simp [hmin, h]

theorem Sound.gotoExit (h : ws.Sound) : Result.Sound ws.gotoExit := by
  unfold DtlsWorker.gotoExit
  split
  · rename_i hact
    rw [dtlsClose_of_live (h.live (by rw [hact.1]; rfl))]
    exact h.noMisuse
  · exact h.noMisuse

theorem Sound.terminate (h : ws.Sound) (cstpFatal : Bool) :
    Result.Sound (ws.terminate cstpFatal) := by
  unfold DtlsWorker.terminate
  split
  · exact h.noMisuse
  · exact h.gotoExit

theorem Sound.inactive (h : ws.Sound) (hact : ws.udpState = .active) :
    Sound { ws with udpState := .inactive } :=
  ⟨h.noMisuse, fun _ => h.live (by rw [hact]; rfl)⟩

/-! ### Misuse is not forgotten -/

theorem misused_use (op : DtlsOp) (ws : DtlsWorker) : ws.misused ⊆ (ws.use op).misused := by
  unfold use
  split
  · exact List.subset_cons_self _ _
  · exact List.Subset.refl _

theorem misused_mtuSet (mtu : ℕ) (ws : DtlsWorker) : ws.misused ⊆ (mtuSet mtu ws).misused := by
  simp only [mtuSet]
  split
  · exact List.Subset.refl _
  · exact misused_use _ { ws with mtu := ws.mtu.mtuSet mtu }

theorem misused_dtlsClose (ws : DtlsWorker) : ws.misused ⊆ ws.dtlsClose.misused :=
  List.Subset.trans (misused_use _ _) (misused_use _ _)

theorem misused_mtuNotOk (cfg : DtlsConfig) (ws : DtlsWorker) :
    ws.misused ⊆ (mtuNotOk cfg ws).misused := by
  unfold mtuNotOk
  cases ws.mtu.mtuNotOk (minMtu cfg.ipv6) with
  | error mtu => exact misused_dtlsClose { ws with mtu := mtu }
  | ok mtu => exact misused_mtuSet _ { ws with mtu := mtu }

theorem misused_hskRestart (cfg : DtlsConfig) (large : ℕ) (ws : DtlsWorker) :
    ws.misused ⊆ (hskRestart cfg large ws).misused := by
  induction large generalizing ws with
  | zero => exact misused_use _ _
  | succ large ih =>
    have hrest := List.Subset.trans (misused_mtuNotOk cfg (ws.use .handshake)) (ih _)
    exact List.Subset.trans (misused_use _ _) hrest

theorem not_noMisuse_of_subset {ws' : DtlsWorker} (h : ws.misused ⊆ ws'.misused)
    (hm : ¬ ws.NoMisuse) : ¬ ws'.NoMisuse :=
  fun h' => hm fun op hop => h' op (h hop)

theorem not_noMisuse_use (op : DtlsOp) (h : ws.session = .deinited) (hop : op ≠ .checkPending) :
    ¬ (ws.use op).NoMisuse := by
  intro hno
  rw [use, if_pos h] at hno
  exact hop (hno op List.mem_cons_self)

theorem misuses_gotoExit (h : ¬ ws.NoMisuse) : Result.Misuses ws.gotoExit := by
  unfold DtlsWorker.gotoExit
  split
  · exact not_noMisuse_of_subset (misused_dtlsClose ws) h
  · exact h

end Ops

/-! ### The handlers -/

section Handlers

variable {cfg : DtlsConfig} {ws : DtlsWorker}

theorem Sound.checkPending (h : ws.Sound) : Result.Sound ws.checkPending := by
  unfold DtlsWorker.checkPending
  split
  · refine ⟨?_, by simpa using h.live⟩
    intro op hop
    unfold use at hop
    split at hop
    · rcases List.mem_cons.1 hop with rfl | hop
      · rfl
      · exact h.noMisuse op hop
    · exact h.noMisuse op hop
  · exact h

theorem Sound.periodicTcp {e : PeriodicInput} (h : ws.Sound)
    (hkept : ws.session = .deinited →
      (e.tcpLate.isNone || e.tcpLate == some (false, false)) = true →
      mssReduces cfg ws e.maxseg = false) : Result.Sound (periodicTcp cfg e ws) := by
  unfold DtlsWorker.periodicTcp
  -- the TCP MSS is looked at unless the TCP channel is late
  have hmss : (e.tcpLate.isNone || e.tcpLate == some (false, false)) = true →
      Result.Sound (if mssReduces cfg ws e.maxseg then
        .ok (mtuSet (ws.mtu.reduceToMss cfg.mtuOverhead e.maxseg).connMtu ws) else .ok ws) := by
    intro htcp
    by_cases hs : ws.session = .deinited
    · rw [hkept hs htcp]
      exact h
    · rw [mtuSet_of_ne hs]
      split
      · exact ⟨h.noMisuse, h.live⟩
      · exact h
  split
  · exact h.noMisuse
  · exact h.gotoExit
  · rename_i htcp
    exact hmss (by rw [htcp]; rfl)
  · rename_i htcp
    exact hmss (by rw [htcp]; rfl)

theorem misuses_periodicTcp {e : PeriodicInput} (hs : ws.session = .deinited)
    (htcp : (e.tcpLate.isNone || e.tcpLate == some (false, false)) = true)
    (hmss : mssReduces cfg ws e.maxseg = true) : Result.Misuses (periodicTcp cfg e ws) := by
  have hset : ∀ mtu, Result.Misuses (.ok (mtuSet mtu ws)) := by
    intro mtu
    have hne : ws.session ≠ .null := by rw [hs]; decide
    simp only [mtuSet, if_neg hne]
    exact not_noMisuse_use _ hs (by decide)
  unfold DtlsWorker.periodicTcp
  rw [if_pos hmss]
  split
  · rename_i h1
    rw [h1] at htcp
    cases htcp
  · rename_i h1
    rw [h1] at htcp
    cases htcp
  · exact hset _
  · exact hset _

/-- `periodic_check` with a session that was closed: UDP is not active. -/
theorem periodicCheck_of_deinited {e : PeriodicInput} (h : ws.Sound)
    (hs : ws.session = .deinited) (hdue : (!e.due || e.idle) = false) :
    periodicCheck cfg e ws = periodicTcp cfg e ws := by
  have hne : ws.udpState ≠ .active := by
    intro hact
    exact h.ne_deinited (by rw [hact]; rfl) hs
  unfold periodicCheck
  rw [if_neg (by rw [hdue]; decide)]
  split
  · rename_i hact
    exact absurd hact hne
  · rename_i hact
    exact absurd hact hne
  · rfl

theorem Sound.periodicCheck {e : PeriodicInput} (h : ws.Sound)
    (hkept : ws.session = .deinited → e.checksMss = true → mssReduces cfg ws e.maxseg = false) :
    Result.Sound (periodicCheck cfg e ws) := by
  by_cases hdue : (!e.due || e.idle) = true
  · unfold DtlsWorker.periodicCheck
    rw [if_pos hdue]
    exact h
  have hchecks : (e.tcpLate.isNone || e.tcpLate == some (false, false)) = true →
      e.checksMss = true := by
    intro htcp
    simp only [Bool.or_eq_true, Bool.not_eq_true', not_or, Bool.not_eq_false,
      Bool.not_eq_true] at hdue
    rw [PeriodicInput.checksMss, hdue.1, hdue.2, htcp]
    rfl
  -- a closed session gets past the DPD part without being used
  by_cases hs : ws.session = .deinited
  · rw [periodicCheck_of_deinited h hs (by simpa using hdue)]
    exact h.periodicTcp fun hs htcp => hkept hs (hchecks htcp)
  · unfold DtlsWorker.periodicCheck
    rw [if_neg hdue, use_of_ne _ hs]
    split
    · exact h.noMisuse
    · rename_i hact
      dsimp only
      split
      · exact (h.inactive hact).periodicTcp fun hs' => absurd hs' hs
      · exact h.periodicTcp fun hs' => absurd hs' hs
    · exact h.periodicTcp fun hs' => absurd hs' hs

theorem Sound.mtuSet (h : ws.Sound) (hne : ws.session ≠ .deinited) (mtu : ℕ) :
    (mtuSet mtu ws).Sound ∧ (mtuSet mtu ws).session = ws.session := by
  rw [mtuSet_of_ne hne]
  exact ⟨⟨h.noMisuse, h.live⟩, rfl⟩

theorem Sound.mtuOk (h : ws.Sound) (hact : ws.udpState = .active) : ws.mtuOk.Sound := by
  unfold DtlsWorker.mtuOk
  split
  · exact h
  · have hne : ws.session ≠ .deinited := h.ne_deinited (by rw [hact]; rfl)
    have hset : Sound { ws with mtu := ws.mtu.mtuOk } := ⟨h.noMisuse, h.live⟩
    exact (hset.mtuSet hne _).1

theorem Sound.tunTls (h : ws.Sound) (retry cstpFatal : Bool) :
    Result.Sound (tunTls retry cstpFatal ws) := by
  unfold DtlsWorker.tunTls
  split
  · exact h.noMisuse
  · exact h

/-- `tun_mainloop` does not use the session after `mtu_not_ok`. -/
theorem Sound.tunMainloop (h : ws.Sound) (e : TunInput) : Result.Sound (tunMainloop cfg e ws) := by
  unfold DtlsWorker.tunMainloop
  cases e with
  | nothing => exact h
  | corrupt => exact h.gotoExit
  | packet sent cstpFatal =>
    dsimp only
    split
    · rename_i hact
      have hneeds : ws.udpState.needsSession = true := by rw [hact]; rfl
      rw [use_of_ne _ (h.ne_deinited hneeds)]
      cases sent with
      | error fatal =>
        cases fatal with
        | true => exact h.noMisuse
        | false =>
          dsimp only
          split
          · exact (h.mtuOk hact).tunTls _ _
          · exact h.tunTls _ _
      -- even if `mtu_not_ok` closed the session: what follows goes over TLS
      | largePacket => exact (h.mtuNotOk hneeds).tunTls _ _
      | sent size =>
        dsimp only
        split
        · exact (h.mtuOk hact).tunTls _ _
        · exact h.tunTls _ _
    · exact h.tunTls _ _

theorem Sound.tlsMainloop (h : ws.Sound) (e : TlsInput) : Result.Sound (tlsMainloop e ws) := by
  cases e with
  | other => exact h
  | data switched =>
    unfold DtlsWorker.tlsMainloop
    dsimp only
    split
    · rename_i hact
      exact h.inactive hact.1
    · exact h
  | fatal => exact h.noMisuse
  | failed => exact h.gotoExit

theorem Sound.handleWorkerCommands (h : ws.Sound) (e : CommandInput) :
    Result.Sound (handleWorkerCommands e ws) := by
  cases e with
  | exit => exact h.noMisuse
  | eof cstpFatal => exact h.terminate cstpFatal
  | udpFd hello recent =>
    cases hello with
    -- the new descriptor puts UDP into set-up, where no session is needed
    | true => exact ⟨h.noMisuse, nofun⟩
    | false => exact h
  | noFd wrongType noSocket =>
    unfold DtlsWorker.handleWorkerCommands
    dsimp only
    split
    · exact Sound.gotoExit ⟨h.noMisuse, nofun⟩
    · exact h.gotoExit

/-! ### The UDP channel -/

theorem Sound.parseDtlsData {p : DtlsPacket} (h : ws.Sound)
    (hneeds : ws.udpState.needsSession = true)
    (hkept : ∀ retry, p = .dpdOut .largePacket retry → ws.mtu.lastGoodMtu ≠ minMtu cfg.ipv6) :
    Result.Sound (parseDtlsData cfg p ws) := by
  unfold DtlsWorker.parseDtlsData
  cases p with
  | dpdOut reply retry =>
    dsimp only
    rw [use_of_ne _ (h.ne_deinited hneeds)]
    cases reply with
    | sent size => exact h
    | error fatal => exact h.gotoExit
    | largePacket =>
      -- the reply is sent again, so `mtu_not_ok` must have kept the session
      have hsound : (DtlsWorker.mtuNotOk cfg ws).Sound := h.mtuNotOk hneeds
      have hlive : (DtlsWorker.mtuNotOk cfg ws).session = .live :=
        (session_mtuNotOk (h.live hneeds)).2 (hkept retry rfl)
      dsimp only
      rw [use_of_ne _ (by rw [hlive]; decide)]
      cases retry with
      | sent size => exact hsound
      | largePacket => exact hsound.gotoExit
      | error fatal => exact hsound.gotoExit
  | disconn => exact h.noMisuse
  | failed => exact h.gotoExit
  | other => exact h

/-- If `mtu_not_ok` gives up on the reply to a DPD, the reply is sent again on the closed
session. -/
theorem misuses_parseDtlsData {retry : SendResult} (hlive : ws.session = .live)
    (hmin : ws.mtu.lastGoodMtu = minMtu cfg.ipv6) :
    Result.Misuses (parseDtlsData cfg (.dpdOut .largePacket retry) ws) := by
  have hdeinited : (mtuNotOk cfg ws).session = .deinited := by
    rw [mtuNotOk_of_live hlive]
    simp only [Mtu.mtuNotOk, if_pos hmin]
  have hmis := not_noMisuse_use .send hdeinited (by decide)
  have hlive' : ws.use .send = ws := use_of_ne _ (by rw [hlive]; decide)
  unfold DtlsWorker.parseDtlsData
  dsimp only
  rw [hlive']
  cases retry with
  | sent size => exact hmis
  | largePacket => exact misuses_gotoExit hmis
  | error fatal => exact misuses_gotoExit hmis

/-- The handshake goes on with the session while `mtu_not_ok` finds a smaller MTU. -/
theorem hskRestart_of_descends (large : ℕ) (ws : DtlsWorker) (hlive : ws.session = .live)
    (hd : descends cfg large ws.mtu = true) :
    ∃ mtu, hskRestart cfg large ws = { ws with mtu := mtu } := by
  induction large generalizing ws with
  | zero => exact ⟨ws.mtu, use_of_ne _ (by rw [hlive]; decide)⟩
  | succ large ih =>
    rw [hskRestart, use_of_ne _ (by rw [hlive]; decide), mtuNotOk_of_live hlive]
    rw [descends] at hd
    cases hm : ws.mtu.mtuNotOk (minMtu cfg.ipv6) with
    | error mtu =>
      rw [hm] at hd
      cases hd
    | ok mtu =>
      rw [hm] at hd
      exact ih { ws with mtu := mtu } hlive hd

theorem misuses_hskRestart_of_deinited (large : ℕ) (hs : ws.session = .deinited) :
    ¬ (hskRestart cfg large ws).NoMisuse := by
  have hmis := not_noMisuse_use .handshake hs (by decide)
  cases large with
  | zero => exact hmis
  | succ large =>
    exact not_noMisuse_of_subset
      (List.Subset.trans (misused_mtuNotOk _ _) (misused_hskRestart _ _ _)) hmis

/-- If `mtu_not_ok` gives up in the handshake, the handshake goes on with the closed session. -/
theorem misuses_hskRestart (large : ℕ) (ws : DtlsWorker) (hlive : ws.session = .live)
    (hd : descends cfg large ws.mtu = false) : ¬ (hskRestart cfg large ws).NoMisuse := by
  induction large generalizing ws with
  | zero => cases hd
  | succ large ih =>
    rw [hskRestart, use_of_ne _ (by rw [hlive]; decide), mtuNotOk_of_live hlive]
    rw [descends] at hd
    cases hm : ws.mtu.mtuNotOk (minMtu cfg.ipv6) with
    -- this is where it gives up: the next `gnutls_handshake` meets the closed session
    | error mtu => exact misuses_hskRestart_of_deinited large rfl
    | ok mtu =>
      rw [hm] at hd
      exact ih { ws with mtu := mtu } hlive hd

theorem Sound.dtlsHandshake {large : ℕ} (h : ws.Sound) (hstate : ws.udpState = .handshake)
    (hd : descends cfg large ws.mtu = true) (result : HandshakeResult) :
    Result.Sound (dtlsHandshake cfg large result ws) := by
  have hlive : ws.session = .live := h.live (by rw [hstate]; rfl)
  have hne : ws.session ≠ .deinited := by rw [hlive]; decide
  obtain ⟨mtu, hmtu⟩ := hskRestart_of_descends large ws hlive hd
  have hquery : DtlsWorker.use .query { ws with mtu := mtu } = { ws with mtu := mtu } :=
    use_of_ne _ hne
  unfold DtlsWorker.dtlsHandshake
  rw [hmtu]
  cases result with
  | fatal alert =>
    dsimp only
    rw [hquery, ite_self]
    exact ⟨h.noMisuse, nofun⟩
  | again => exact ⟨h.noMisuse, h.live⟩
  | done dataMtu =>
    dsimp only
    rw [hquery]
    have hactive : ∀ mtu, Sound { ws with udpState := .active, mtu := mtu } :=
      fun mtu => ⟨h.noMisuse, fun _ => hlive⟩
    obtain ⟨hsound, hsession⟩ := (hactive (mtu.handshakeDone dataMtu)).mtuSet hne
      (mtu.handshakeDone dataMtu).connMtu
    rw [use_of_ne _ (by rw [hsession]; exact hne)]
    exact hsound

theorem misuses_dtlsHandshake {large : ℕ} (hlive : ws.session = .live)
    (hd : descends cfg large ws.mtu = false) (result : HandshakeResult) :
    Result.Misuses (dtlsHandshake cfg large result ws) := by
  have hmis := misuses_hskRestart large ws hlive hd
  unfold DtlsWorker.dtlsHandshake
  cases result with
  | fatal alert =>
    cases alert with
    | false => exact hmis
    | true => exact not_noMisuse_of_subset (misused_use .query _) hmis
  | again => exact hmis
  | done dataMtu =>
    refine not_noMisuse_of_subset (List.Subset.trans (misused_use .query _)
      (List.Subset.trans ?_ (misused_use .query _))) hmis
    exact misused_mtuSet _ { (hskRestart cfg large ws).use .query with
      udpState := .active, mtu := _ }

theorem Sound.dtlsRecv {e : DtlsRecv} (h : ws.Sound) (hneeds : ws.udpState.needsSession = true)
    (hkept : ∀ retry, e = .packet true (.dpdOut .largePacket retry) →
      ws.mtu.lastGoodMtu ≠ minMtu cfg.ipv6) : Result.Sound (dtlsRecv cfg e ws) := by
  have hne := h.ne_deinited hneeds
  unfold DtlsWorker.dtlsRecv
  dsimp only
  rw [use_of_ne _ hne]
  cases e with
  | fatal => exact h.noMisuse
  | rehandshake tooSoon fatal =>
    cases tooSoon with
    | true => exact h.gotoExit
    | false =>
      dsimp only
      rw [use_of_ne _ hne]
      split
      · exact h.noMisuse
      · exact h
  | packet allowed p =>
    have hactive : Sound { ws with udpState := .active } :=
      ⟨h.noMisuse, fun _ => h.live hneeds⟩
    cases allowed with
    | false => exact hactive
    | true => exact hactive.parseDtlsData rfl fun retry hp => hkept retry (by rw [hp])
  | nothing => exact h

theorem misuses_dtlsRecv {retry : SendResult} (hlive : ws.session = .live)
    (hmin : ws.mtu.lastGoodMtu = minMtu cfg.ipv6) :
    Result.Misuses (dtlsRecv cfg (.packet true (.dpdOut .largePacket retry)) ws) := by
  unfold DtlsWorker.dtlsRecv
  dsimp only
  rw [use_of_ne _ (by rw [hlive]; decide)]
  exact misuses_parseDtlsData hlive hmin

theorem Sound.dtlsSetup (h : ws.Sound) (success : Bool) :
    Result.Sound (dtlsSetup success ws) := by
  cases success with
  | false => exact h.gotoExit
  | true => exact ⟨h.noMisuse, fun _ => rfl⟩

end Handlers

/-! ### Runs -/

section Runs

variable {cfg : DtlsConfig} {ws : DtlsWorker}

/-- **One step** that meets the condition keeps the session sound. -/
theorem Sound.perform {i : DtlsStep} (h : ws.Sound) (hrun : ws.running = true)
    (hkept : SessionKept cfg ws i) : Result.Sound (perform cfg ws i) := by
  cases i with
  | checkPending => exact h.checkPending
  | periodicCheck e => exact h.periodicCheck (hkept hrun)
  | tunMainloop e => exact h.tunMainloop e
  | tlsMainloop e => exact h.tlsMainloop e
  | dtlsMainloop e =>
    have hcond := hkept hrun
    unfold DtlsWorker.perform DtlsWorker.dtlsMainloop
    dsimp only
    cases hstate : ws.udpState <;> simp only [hstate] at hcond ⊢
    case disabled => exact h
    case waitFd => exact h
    case setup => exact h.dtlsSetup e.setup
    case handshake => exact h.dtlsHandshake hstate hcond e.handshake
    case inactive => exact h.dtlsRecv (by rw [hstate]; rfl) hcond
    case active => exact h.dtlsRecv (by rw [hstate]; rfl) hcond
  | commands e => exact h.handleWorkerCommands e
  | terminate cstpFatal => exact h.terminate cstpFatal

/-- **One step** that does not meet the condition misuses the session. -/
theorem misuses_perform {i : DtlsStep} (h : ws.Sound) (hkept : ¬ SessionKept cfg ws i) :
    ws.running = true ∧ Result.Misuses (perform cfg ws i) := by
  cases i with
  | periodicCheck e =>
    simp only [SessionKept, not_forall, Bool.not_eq_false, PeriodicInput.checksMss,
      Bool.and_eq_true, Bool.not_eq_true'] at hkept
    obtain ⟨hrun, hs, ⟨⟨hdue, hidle⟩, htcp⟩, hmss⟩ := hkept
    refine ⟨hrun, ?_⟩
    rw [perform, periodicCheck_of_deinited h hs (by rw [hdue, hidle]; rfl)]
    exact misuses_periodicTcp hs htcp hmss
  | dtlsMainloop e =>
    simp only [SessionKept, Classical.not_imp] at hkept
    obtain ⟨hrun, hcond⟩ := hkept
    refine ⟨hrun, ?_⟩
    unfold DtlsWorker.perform DtlsWorker.dtlsMainloop
    dsimp only
    cases hstate : ws.udpState <;>
      simp only [hstate, not_true_eq_false, Bool.not_eq_true] at hcond ⊢
    case handshake =>
      exact misuses_dtlsHandshake (h.live (by rw [hstate]; rfl)) hcond e.handshake
    case inactive =>
      simp only [not_forall, not_not] at hcond
      obtain ⟨retry, hrecv, hmin⟩ := hcond
      rw [hrecv]
      exact misuses_dtlsRecv (h.live (by rw [hstate]; rfl)) hmin
    case active =>
      simp only [not_forall, not_not] at hcond
      obtain ⟨retry, hrecv, hmin⟩ := hcond
      rw [hrecv]
      exact misuses_dtlsRecv (h.live (by rw [hstate]; rfl)) hmin
  | checkPending => exact absurd trivial hkept
  | tunMainloop e => exact absurd trivial hkept
  | tlsMainloop e => exact absurd trivial hkept
  | commands e => exact absurd trivial hkept
  | terminate cstpFatal => exact absurd trivial hkept

theorem sound_start (udp : Bool) (mtu : ℕ) : (start udp mtu).Sound :=
  ⟨nofun, by cases udp <;> exact nofun⟩

/-- **The life of the DTLS session.**  In a run of the data loop no operation is performed on a
deinitialised session (the check for pending data apart) if and only if every step meets the
condition: `mtu_not_ok` gives up only in `tun_mainloop`, and no `periodic_check` sets the MTU
between that and the set-up of a new session. -/
theorem sessionKept_iff (cfg : DtlsConfig) (udp : Bool) (mtu : ℕ) (steps : List DtlsStep) :
    (loop cfg).Always NoMisuse (start udp mtu) steps ↔
      (loop cfg).Meets (SessionKept cfg) (start udp mtu) steps := by
  refine Machine.always_iff_meets
    (I := fun ws : DtlsWorker => ws.NoMisuse ∧ (ws.running = true → ws.Sound))
    (fun ws h => h.1) ?_ ?_
    ⟨(sound_start udp mtu).noMisuse, fun _ => sound_start udp mtu⟩
  · rintro ws i ws' ⟨-, hsound⟩ hkept hstep
    simp only [loop] at hstep
    split at hstep
    · rename_i hrun
      have hres := (hsound hrun).perform hrun hkept
      cases hp : perform cfg ws i with
      | ok ws₁ =>
        rw [hp] at hres hstep
        cases hstep
        exact ⟨hres.noMisuse, fun _ => hres⟩
      | error ws₁ =>
        rw [hp] at hres hstep
        cases hstep
        exact ⟨hres, nofun⟩
    · cases hstep
  · rintro ws i ⟨-, hsound⟩ hkept
    -- a worker that has left the loop meets the condition
    have hrun : ws.running = true := by
      by_contra hrun
      exact hkept (by cases i <;> first | trivial | exact fun h => absurd h hrun)
    obtain ⟨-, hmis⟩ := misuses_perform (hsound hrun) hkept
    simp only [loop, if_pos hrun]
    cases hp : perform cfg ws i with
    | ok ws₁ =>
      rw [hp] at hmis
      exact ⟨_, rfl, hmis⟩
    | error ws₁ =>
      rw [hp] at hmis
      exact ⟨_, rfl, hmis⟩

/-- A client over IPv6 with an MTU of 1400 sends its hello, and the handshake meets
`GNUTLS_E_LARGE_PACKET` twice: for 1400 and for 1281, the minimum. -/
def largeHandshake : List DtlsStep :=
  [.commands (.udpFd true false),
    .dtlsMainloop ⟨.nothing, true, 0, .again⟩,
    .dtlsMainloop ⟨.nothing, true, 2, .again⟩]

theorem misused_largeHandshake :
    ¬ (loop ⟨true, false, 100⟩).Always NoMisuse (start true 1400) largeHandshake := by
  intro h
  have hrun : (loop ⟨true, false, 100⟩).run (start true 1400) largeHandshake =
      some ⟨.disabled, .deinited, ⟨1281, 1281, 1281⟩, [.handshake], true⟩ := by decide
  exact absurd (h.last hrun .handshake List.mem_cons_self) (by decide)

end Runs

end DtlsWorker

end Worker

end Ocserv
