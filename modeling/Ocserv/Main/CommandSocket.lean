import Ocserv.Main.ScriptRuns
import Ocserv.Worker.BanReply
import Ocserv.Worker.UdpFd

/-!
# Main: the command sockets of the workers

Main shares a stream socket with each worker.  A worker sends a request and blocks in
`recv_socket_msg` until a message arrives, which it takes for the reply (`auth_cookie`,
`resume_db_fetch`, `ws_add_score_to_ip`); main reads the requests in `handle_commands`, and sends
the reply to an `AUTH_COOKIE_REQ` when the connect script is over.  On the same socket
`forward_udp_to_owner` (`src/main.c`) sends a `CMD_UDP_FD` for a datagram that came to the UDP
socket; these messages are for `handle_worker_commands`, which the worker calls in its data loop.

`channelMachine` is main with its scripts (`scriptMachine`), its workers and their sockets.  Every
call has a number, which its request and its reply carry in this model only; the log of a socket
has what the worker read on it.
-/

namespace Ocserv

namespace Main

open Ipc (Codec Delivery recvSocketMsg sendSocketMsg)
open SecMod (Bytes)
open Worker (ForwardEnv UdpFdMsg forwardUdpToOwner cmdUdpFd cmdBanIpReply)

/-! ### Messages -/

def authCookieRep : UInt8 := 2

def resumeFetchRep : UInt8 := 9

/-- A request for whose reply the worker waits: `AUTH_COOKIE_REQ`, `RESUME_FETCH_REQ` or
`CMD_BAN_IP`. -/
inductive Request where
  | authCookie (req : Bytes)
  | resumeFetch
  | banIp
  deriving DecidableEq, Repr

/-- The command the worker passes to `recv_socket_msg`. -/
def Request.replyCmd : Request → UInt8
  | .authCookie _ => authCookieRep
  | .resumeFetch => resumeFetchRep
  | .banIp => cmdBanIpReply

/-- A request and its number. -/
structure Call where
  num : ℕ
  req : Request
  deriving DecidableEq, Repr

/-- A message to a worker; a reply has the number of its call. -/
inductive Message where
  | authCookieRep (call : ℕ) (ok : Bool)
  | resumeFetchRep (call : ℕ)
  | udpFd (msg : UdpFdMsg)
  deriving DecidableEq, Repr

namespace Message

def cmd : Message → UInt8
  | authCookieRep _ _ => Main.authCookieRep
  | resumeFetchRep _ => Main.resumeFetchRep
  | udpFd _ => cmdUdpFd

/-- The call that a message is the reply to. -/
def call? : Message → Option ℕ
  | authCookieRep call _ | resumeFetchRep call => some call
  | udpFd _ => none

/-- The message is the reply to a call. -/
def Answers (m : Message) (c : Call) : Prop := m.cmd = c.req.replyCmd ∧ m.call? = some c.num

instance (m : Message) (c : Call) : Decidable (m.Answers c) := by
  unfold Answers
  infer_instance

end Message

/-- What a worker read on its command socket. -/
inductive Received where
  /-- In the call number `call`, a message that has the command of the reply. -/
  | reply (call : ℕ) (got : Option ℕ)
  /-- In a call, a message that has another command: `ERR_BAD_COMMAND`. -/
  | badCommand
  /-- In a call, the end of the stream: `ERR_PEER_TERMINATED`. -/
  | terminated
  /-- In `handle_worker_commands`, a `CMD_UDP_FD`. -/
  | udpFd
  /-- In `handle_worker_commands`, another message. -/
  | unknownCmd
  deriving DecidableEq, Repr

/-- A call got its own reply, and `handle_worker_commands` a `CMD_UDP_FD`. -/
def Received.Right : Received → Prop
  | .reply call got => got = some call
  | .udpFd => True
  | .badCommand | .terminated | .unknownCmd => False

instance : DecidablePred Received.Right := fun e => by
  cases e <;> unfold Received.Right <;> infer_instance

/-! ### The worker -/

/-- The command socket of a worker, and what the worker does with it. -/
structure CmdSocket where
  /-- The call for whose reply the worker waits. -/
  waiting : Option Call
  /-- The requests that main has not read. -/
  toMain : List Call
  /-- The messages that the worker has not read. -/
  toWorker : List Message
  /-- The number of the next call. -/
  calls : ℕ
  /-- `auth_cookie` succeeded. -/
  authed : Bool
  /-- The worker is in its data loop. -/
  dataLoop : Bool
  /-- The worker has exited. -/
  exited : Bool
  log : List Received
  deriving DecidableEq, Repr

namespace CmdSocket

/-- The socket of a new worker. -/
def fresh : CmdSocket := ⟨none, [], [], 0, false, false, false, []⟩

/-- Main sends messages. -/
def push (l : CmdSocket) (ms : List Message) : CmdSocket := { l with toWorker := l.toWorker ++ ms }

/-- The worker goes on.  After `ERR_BAD_COMMAND` it is inside a message; the model of the worker
ends there. -/
def Runs (l : CmdSocket) : Prop := l.exited = false ∧ .badCommand ∉ l.log

instance (l : CmdSocket) : Decidable l.Runs := by
  unfold Runs
  infer_instance

/-- The worker sends a request and blocks in `recv_socket_msg`. -/
def request (l : CmdSocket) (req : Request) : Option CmdSocket :=
  if ¬ l.Runs then none
  else
    match l.waiting with
    | some _ => none
    | none => some { l with
        waiting := some ⟨l.calls, req⟩
        toMain := l.toMain ++ [⟨l.calls, req⟩]
        calls := l.calls + 1 }

/-- `recv_socket_msg` in the call `c`, for the message `m`. -/
def receive (c : Call) (m : Message) : Received :=
  if m.cmd = c.req.replyCmd then .reply c.num m.call? else .badCommand

/-- `receive` is `recv_socket_msg` on the bytes of the message, if it arrives whole. -/
theorem recvSocketMsg_eq_receive {M : Type*} {codec : Codec M} {mem : Bool} {body : M} {c : Call}
    {m : Message} {wire rest : List UInt8} (hsend : sendSocketMsg codec mem m.cmd body = some wire)
    (hsize : 1 ≤ codec.getSize body ∧ codec.getSize body < 2 ^ 16) (d : Delivery wire rest)
    (hacc : d.accepted = 3 + codec.getSize body) (hheader : d.header = 3)
    (junk : UInt8 × UInt8) :
    ∃ segs', recvSocketMsg codec true c.req.replyCmd junk d.segs =
      some (if receive c m = .badCommand then .error .badCommand else .ok (some body),
        segs') := by
  obtain ⟨segs', hrun⟩ :=
    Ipc.recvSocketMsg_sent c.req.replyCmd hsend hsize d hacc hheader junk
  refine ⟨segs', ?_⟩
  rw [hrun, receive]
  by_cases hcmd : m.cmd = c.req.replyCmd <;> simp [hcmd]

/-- The reply makes `auth_cookie` succeed. -/
def accepts (c : Call) : Message → Bool
  | .authCookieRep _ ok => ok && decide (c.req.replyCmd = authCookieRep)
  | _ => false

/-- `recv_socket_msg` returns; `closed` tells whether main has closed the socket. -/
def recvMsg (closed : Bool) (l : CmdSocket) : Option CmdSocket :=
  match l.waiting, l.toWorker with
  | some c, m :: toWorker =>
    some { l with
      waiting := none
      toWorker := toWorker
      authed := l.authed || accepts c m
      log := l.log ++ [receive c m] }
  | some _, [] =>
    if closed then some { l with waiting := none, log := l.log ++ [.terminated] } else none
  | none, _ => none

/-- The worker starts its data loop. -/
def enterLoop (l : CmdSocket) : Option CmdSocket :=
  if l.authed ∧ l.waiting = none ∧ l.Runs then some { l with dataLoop := true } else none

/-- `handle_worker_commands`, for a message that has arrived. -/
def handleWorkerCommands (l : CmdSocket) : Option CmdSocket :=
  if l.dataLoop ∧ l.waiting = none ∧ l.Runs then
    match l.toWorker with
    | [] => none
    | m :: toWorker =>
      some { l with
        toWorker := toWorker
        log := l.log ++ [if m.cmd = cmdUdpFd then .udpFd else .unknownCmd] }
  else none

/-- The worker exits; `exit_worker` may send a last `CMD_BAN_IP`, for which it does not wait. -/
def exit (report : Bool) (l : CmdSocket) : CmdSocket :=
  { l with
    waiting := none
    toMain := if report then l.toMain ++ [⟨l.calls, .banIp⟩] else l.toMain
    exited := true }

/-- The worker waits for a reply that has not been sent. -/
def Unanswered (l : CmdSocket) : Prop := l.waiting ≠ none ∧ l.toWorker = []

instance (l : CmdSocket) : Decidable l.Unanswered := by
  unfold Unanswered
  infer_instance

theorem unanswered {l : CmdSocket} {c : Call} (hwaiting : l.waiting = some c)
    (hempty : l.toWorker = []) : l.Unanswered := by
  refine ⟨?_, hempty⟩
  rw [hwaiting]
  exact Option.some_ne_none c

end CmdSocket

/-! ### Main -/

/-- `proc_search_dtls_id`. -/
def procSearchDtlsId (s : MainSt) (dtlsId : Bytes) : Option ℕ :=
  HTable.get s.dbDtlsId fun id => (s.find id).any (·.dtlsSessionId = dtlsId)

/-- `proc_search_ip`.  The search ends at the first worker with the address. -/
def procSearchIp (s : MainSt) (remoteAddr : ℕ → Bytes) (addr : Bytes) : Option ℕ :=
  HTable.get s.dbIp fun id => remoteAddr id = addr

/-- What `forward_udp_to_owner` finds for a datagram. -/
structure DatagramEnv where
  now : ℤ
  socket : Bool
  connect : Bool
  /-- The message to the worker is sent. -/
  send : Bool
  deriving DecidableEq, Repr

/-- What `handle_commands` finds: it reads the request whole and unpacks it, the results of what
it calls, and the calls of the two scripts. -/
structure CommandsEnv where
  read : Bool
  env : Env
  up : ScriptCall
  down : ScriptCall

/-- Main, its workers and their command sockets. -/
structure ChannelSt where
  main : ScriptSt
  /-- Main has ended. -/
  ended : Bool
  remoteAddr : ℕ → Bytes
  udpFdReceiveTime : ℕ → ℤ
  resumeReqs : ℕ → ℕ
  /-- The number of the call with the `AUTH_COOKIE_REQ` of a worker that main serves. -/
  cookieCall : ℕ → ℕ
  socket : ℕ → CmdSocket

/-- What happens next. -/
inductive ChannelLabel where
  | connect (pid : ℤ) (remoteAddr : Bytes)
  | handleCommands (id : ℕ) (h : CommandsEnv)
  | childExit (pid : ℤ) (status : BitVec 32) (sendOk : Bool) (down : ScriptCall)
  | remove (id : ℕ) (down : ScriptCall)
  | terminate
  | datagram (buffer : List UInt8) (addr : Bytes) (e : DatagramEnv)
  | request (id : ℕ) (req : Request)
  | recvMsg (id : ℕ)
  | enterLoop (id : ℕ)
  | handleWorkerCommands (id : ℕ)
  | exit (id : ℕ) (report : Bool)

/-- The messages of the replies that main sent to a worker. -/
def cookieReps (call id : ℕ) (evs : List Event) : List Message :=
  evs.filterMap fun
    | .replied id' ok => if id' = id then some (.authCookieRep call ok) else none
    | _ => none

variable (plat : Platform) (cfg : Config) (unixConnFile : Bool)

namespace ChannelSt

/-- Main has closed the socket of a worker. -/
def closed (s : ChannelSt) (id : ℕ) : Bool := s.ended || (s.main.st.find id).isNone

def setSocket (s : ChannelSt) (id : ℕ) (l : CmdSocket) : ChannelSt :=
  { s with socket := Function.update s.socket id l }

/-- Main after a step; the replies it sent are on the sockets. -/
def afterMain (s : ChannelSt) (m : ScriptSt) : ChannelSt :=
  { s with
    main := m
    socket := fun id => (s.socket id).push
      (cookieReps (s.cookieCall id) id (m.trace.drop s.main.trace.length)) }

/-- A step of main. -/
def mainStep (s : ChannelSt) (i : ScriptLabel) : Option ChannelSt :=
  ((scriptMachine plat cfg).step s.main i).map s.afterMain

/-- What `forward_udp_to_owner` finds in the state. -/
def forwardEnv (s : ChannelSt) (addr : Bytes) (e : DatagramEnv) : ForwardEnv ℕ where
  searchDtlsId := procSearchDtlsId s.main.st
  searchIp := procSearchIp s.main.st s.remoteAddr addr
  unixConnFile := unixConnFile
  now := e.now
  udpFdReceiveTime := s.udpFdReceiveTime
  socket := e.socket
  connect := e.connect

/-- `forward_udp_to_owner`. -/
def forward (s : ChannelSt) (buffer : List UInt8) (addr : Bytes) (e : DatagramEnv) : ChannelSt :=
  match forwardUdpToOwner (s.forwardEnv unixConnFile addr e) buffer with
  | none => s
  | some (id, msg) =>
    if e.send then
      { s.setSocket id ((s.socket id).push [.udpFd msg]) with
        udpFdReceiveTime := Function.update s.udpFdReceiveTime id e.now }
    else s

/-- A new worker. -/
def newWorker (s : ChannelSt) (id : ℕ) (addr : Bytes) : ChannelSt :=
  { s.setSocket id .fresh with
    remoteAddr := Function.update s.remoteAddr id addr
    udpFdReceiveTime := Function.update s.udpFdReceiveTime id 0
    resumeReqs := Function.update s.resumeReqs id 0 }

/-- `handle_commands` for a request that was taken from the socket; a worker whose request fails
is removed. -/
def handleCommands (s : ChannelSt) (id : ℕ) (c : Call) (h : CommandsEnv) : Option ChannelSt :=
  if !h.read then s.mainStep plat cfg (.remove id h.down)
  else
    match c.req with
    | .authCookie req =>
      { s with cookieCall := Function.update s.cookieCall id c.num }.mainStep plat cfg
        (.cookieReq id req h.env h.up h.down)
    | .resumeFetch =>
      if 0 < s.resumeReqs id then s.mainStep plat cfg (.remove id h.down)
      else
        let s := { s with resumeReqs := Function.update s.resumeReqs id (s.resumeReqs id + 1) }
        if h.env.sendOk then
          some (s.setSocket id ((s.socket id).push [.resumeFetchRep c.num]))
        else s.mainStep plat cfg (.remove id h.down)
    -- the reply is sent to `NULL`: `Worker.handleCommands_whole`
    | .banIp => some { s with ended := true }

end ChannelSt

/-- The machine of main, its workers and their command sockets. -/
def channelMachine : Machine ChannelSt ChannelLabel where
  step s i :=
    match i with
    | .connect pid addr =>
      if s.ended then none
      else (s.mainStep plat cfg (.connect pid)).map (·.newWorker s.main.st.nextProc addr)
    | .handleCommands id h =>
      if s.closed id then none
      else
        match (s.socket id).toMain with
        | [] => none
        | c :: toMain =>
          (s.setSocket id { s.socket id with toMain := toMain }).handleCommands plat cfg id c h
    | .childExit pid status sendOk down =>
      if s.ended then none else s.mainStep plat cfg (.childExit pid status sendOk down)
    | .remove id down => if s.ended then none else s.mainStep plat cfg (.remove id down)
    | .terminate => some { s with ended := true }
    | .datagram buffer addr e =>
      if s.ended then none else some (s.forward unixConnFile buffer addr e)
    -- a request cannot be sent on a socket that main has closed
    | .request id req =>
      if s.closed id then none else ((s.socket id).request req).map (s.setSocket id)
    | .recvMsg id => ((s.socket id).recvMsg (s.closed id)).map (s.setSocket id)
    | .enterLoop id => (s.socket id).enterLoop.map (s.setSocket id)
    | .handleWorkerCommands id => (s.socket id).handleWorkerCommands.map (s.setSocket id)
    | .exit id report => some (s.setSocket id ((s.socket id).exit report))

/-- Main when it starts. -/
def channelStart : ChannelSt :=
  ⟨scriptStart, false, fun _ => [], fun _ => 0, fun _ => 0, fun _ => 0, fun _ => .fresh⟩

end Main

end Ocserv
