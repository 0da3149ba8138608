import Ocserv.Ipc.Framing
import Ocserv.PerUser.AuthReplyMsg
import Ocserv.PerUser.SessionReply
import Ocserv.Worker.Headers

/-!
# The configuration of a session, from main to the worker

After `session_open` main has the options of the user in the `group_cfg_st` of the worker.
`send_cookie_auth_reply` (`src/main-auth.c`) copies them to an `auth_reply_msg`, which the worker
gets through the command socket; `recv_cookie_auth_reply` (`src/worker-auth.c`) copies them to the
configuration it inherited from main, and `complete_vpn_info` (`src/worker-misc.c`) chooses
between the two for the options that have both.

What the worker should have then is `GlobalCfg.overriddenBy`: the options of the session where
they are set, and those of the server where they are not.  Main sets `ipv6_prefix` without its
flag, so this one is never sent.

## Main results

* `settings_recvCookieAuthReply` : what the worker makes of a message, option by option.
* `faithful_iff` : **a session is configured as it should be** if and only if it has no IPv6
  prefix, or the one of the server.
-/

namespace Ocserv

namespace PerUser

open Protobuf (Flagged)
open SecMod (Bytes strlcpy maxUsernameSize maxGroupnameSize)
open Worker (ascii)

def errAuthFail : ℤ := -3
def authCookieRep : UInt8 := 2
def ifnamsiz : ℕ := 16

/-! ### Main -/

/-- The fields of `proc_st`.  For an address these are the texts of `rip` and `lip` of its
lease. -/
structure SessionProc where
  tunLeaseName : Bytes
  tunLeaseFd : ℕ
  dtlsSessionId : Bytes
  username : Bytes
  groupname : Bytes
  ipv4 : Option (Bytes × Bytes)
  ipv6 : Option (Bytes × Bytes)
  config : GroupCfg
  deriving DecidableEq, Repr

/-- `send_cookie_auth_reply`: the message, and the descriptor that is sent with it. -/
def sendCookieAuthReply (proc : SessionProc) (r : UInt32) : AuthReplyMsg × Option ℕ :=
  if r = authRepOk ∧ proc.tunLeaseName ≠ [] then
    ({ AuthReplyMsg.init with
        reply := authRepOk
        sessionId := some proc.dtlsSessionId
        vname := some proc.tunLeaseName
        userName := some proc.username
        groupName := some proc.groupname
        ipv4 := proc.ipv4.map Prod.fst
        ipv4Local := proc.ipv4.map Prod.snd
        ipv6 := proc.ipv6.map Prod.fst
        ipv6Local := proc.ipv6.map Prod.snd
        ipv4Netmask := proc.config.ipv4Netmask
        ipv4Network := proc.config.ipv4Network
        ipv6Network := proc.config.ipv6Network
        -- `has_ipv6_prefix` stays as `AUTH_REPLY_MSG__INIT` has it
        ipv6Prefix := { AuthReplyMsg.init.ipv6Prefix with value := proc.config.ipv6Prefix }
        rxPerSec :=
          if proc.config.rxPerSec ≠ 0 then ⟨true, UInt32.ofNat proc.config.rxPerSec⟩
          else AuthReplyMsg.init.rxPerSec
        txPerSec :=
          if proc.config.txPerSec ≠ 0 then ⟨true, UInt32.ofNat proc.config.txPerSec⟩
          else AuthReplyMsg.init.txPerSec
        netPriority :=
          if proc.config.netPriority ≠ 0 then ⟨true, proc.config.netPriority⟩
          else AuthReplyMsg.init.netPriority
        noUdp :=
          if proc.config.noUdp then ⟨true, proc.config.noUdp⟩ else AuthReplyMsg.init.noUdp
        xmlConfigFile := proc.config.xmlConfigFile
        dns := proc.config.dns
        nbns := proc.config.nbns
        routes := proc.config.routes
        noRoutes := proc.config.noRoutes },
      some proc.tunLeaseFd)
  else ({ AuthReplyMsg.init with reply := authRepFailed }, none)

/-! ### The worker -/

/-- The options of the server that a session can override: `ws->config` and
`ws->perm_config->udp_port`. -/
structure GlobalCfg where
  ipv4Network : Option Bytes
  ipv4Netmask : Option Bytes
  ipv6Network : Option Bytes
  ipv6Prefix : UInt32
  rxPerSec : ℕ
  txPerSec : ℕ
  netPriority : UInt32
  udpPort : ℕ
  xmlConfigFile : Option Bytes
  dns : List Bytes
  nbns : List Bytes
  routes : List Bytes
  noRoutes : List Bytes
  deriving DecidableEq, Repr

/-- The fields of `worker_st`. -/
structure SessionWorker where
  config : GlobalCfg
  tunFd : Option ℕ
  name : Bytes
  username : Bytes
  groupname : Bytes
  sessionId : Bytes
  ipv4 : Option Bytes
  ipv6 : Option Bytes
  ipv4Local : Option Bytes
  ipv6Local : Option Bytes
  routes : List Bytes
  noRoutes : List Bytes
  dns : List Bytes
  nbns : List Bytes
  defaultRoute : Bool
  deriving DecidableEq, Repr

/-- A worker before its session. -/
def SessionWorker.start (config : GlobalCfg) : SessionWorker where
  config := config
  tunFd := none
  name := []
  username := []
  groupname := []
  sessionId := []
  ipv4 := none
  ipv6 := none
  ipv4Local := none
  ipv6Local := none
  routes := []
  noRoutes := []
  dns := []
  nbns := []
  defaultRoute := false

def isDefaultRoute (route : Bytes) : Bool :=
  route = ascii "default" || route = ascii "0.0.0.0/0"

/-- `check_if_default_route` -/
def checkIfDefaultRoute (routes : List Bytes) : Bool := routes.any isDefaultRoute

/-- The loop that copies the routes; a default route disables them all. -/
def recvRoutes : List Bytes → List Bytes × Bool
  | [] => ([], false)
  | route :: routes =>
    if isDefaultRoute route then ([], true)
    else
      let (copied, default) := recvRoutes routes
      (if default then [] else route :: copied, default)

/-- An address of the message replaces the one that is there; `any` stands for none. -/
def recvAddress (any : Bytes) (old address : Option Bytes) : Option Bytes :=
  match address with
  | none => old
  | some address => if address = any then none else some address

/-- `recv_cookie_auth_reply` for a message that came with the descriptor `socketfd`. -/
def recvCookieAuthReply (ws : SessionWorker) (socketfd : Option ℕ) (msg : AuthReplyMsg) :
    Except ℤ SessionWorker :=
  if msg.reply = authRepOk then
    match socketfd, msg.vname, msg.userName with
    | none, _, _ => .error errAuthFail
    | some _, none, _ => .error errAuthFail
    | some _, some _, none => .error errAuthFail
    | some fd, some vname, some userName =>
      let routes := recvRoutes msg.routes
      .ok
        { tunFd := some fd
          name := strlcpy ifnamsiz vname
          username := strlcpy maxUsernameSize userName
          groupname := (msg.groupName.map (strlcpy maxGroupnameSize)).getD []
          sessionId := msg.sessionId.getD []
          ipv4 := recvAddress (ascii "0.0.0.0") ws.ipv4 msg.ipv4
          ipv6 := recvAddress (ascii "::") ws.ipv6 msg.ipv6
          ipv4Local := recvAddress (ascii "0.0.0.0") ws.ipv4Local msg.ipv4Local
          ipv6Local := recvAddress (ascii "::") ws.ipv6Local msg.ipv6Local
          config :=
            { ws.config with
              ipv4Netmask := msg.ipv4Netmask.or ws.config.ipv4Netmask
              ipv4Network := msg.ipv4Network.or ws.config.ipv4Network
              ipv6Network := msg.ipv6Network.or ws.config.ipv6Network
              ipv6Prefix :=
                if msg.ipv6Prefix.has then msg.ipv6Prefix.value else ws.config.ipv6Prefix
              rxPerSec :=
                if msg.rxPerSec.has then msg.rxPerSec.value.toNat else ws.config.rxPerSec
              txPerSec :=
                if msg.txPerSec.has then msg.txPerSec.value.toNat else ws.config.txPerSec
              netPriority :=
                if msg.netPriority.has then msg.netPriority.value else ws.config.netPriority
              udpPort := if msg.noUdp.has && msg.noUdp.value then 0 else ws.config.udpPort
              xmlConfigFile := msg.xmlConfigFile.or ws.config.xmlConfigFile }
          routes := routes.1
          defaultRoute := ws.defaultRoute || routes.2 || checkIfDefaultRoute routes.1
          noRoutes := msg.noRoutes
          dns := msg.dns
          nbns := msg.nbns }
  else .error errAuthFail

/-- What a session uses. -/
structure Settings where
  ipv4Network : Option Bytes
  ipv4Netmask : Option Bytes
  ipv6Network : Option Bytes
  ipv6Prefix : UInt32
  rxPerSec : ℕ
  txPerSec : ℕ
  netPriority : UInt32
  udpPort : ℕ
  xmlConfigFile : Option Bytes
  dns : List Bytes
  nbns : List Bytes
  /-- The routes of the server and those of the session; none if all traffic is routed. -/
  routes : Option (List Bytes × List Bytes)
  /-- The excluded routes of the server and those of the session. -/
  noRoutes : List Bytes × List Bytes
  deriving DecidableEq, Repr

/-- What the worker uses, after `complete_vpn_info`: the name servers of the session replace those
of the server, and its routes are sent after them. -/
def SessionWorker.settings (ws : SessionWorker) : Settings where
  ipv4Network := ws.config.ipv4Network
  ipv4Netmask := ws.config.ipv4Netmask
  ipv6Network := ws.config.ipv6Network
  ipv6Prefix := ws.config.ipv6Prefix
  rxPerSec := ws.config.rxPerSec
  txPerSec := ws.config.txPerSec
  netPriority := ws.config.netPriority
  udpPort := ws.config.udpPort
  xmlConfigFile := ws.config.xmlConfigFile
  dns := if 0 < ws.dns.length then ws.dns else ws.config.dns
  nbns := if 0 < ws.nbns.length then ws.nbns else ws.config.nbns
  routes :=
    if ws.defaultRoute || checkIfDefaultRoute ws.config.routes then none
    else some (ws.config.routes, ws.routes)
  noRoutes := (ws.config.noRoutes, ws.noRoutes)

/-! ### The transport -/

/-- The message as the worker gets it from the command socket.  The length of its body has 16
bits; if it is 0 there is no message. -/
def transport (msg : AuthReplyMsg) : Option AuthReplyMsg :=
  let wire := Ipc.frame authCookieRep msg.pack
  let length := Ipc.lengthRead wire (0, 0)
  if length = 0 then none else AuthReplyMsg.unpack ((wire.drop 3).take length)

/-! ### What the options mean -/

/-- **The options of a session** where they are set, and those of the server where they are not.
A session can switch UDP off, and its routes are additional to those of the server. -/
def GlobalCfg.overriddenBy (global : GlobalCfg) (cfg : GroupCfg) : Settings where
  ipv4Network := cfg.ipv4Network.or global.ipv4Network
  ipv4Netmask := cfg.ipv4Netmask.or global.ipv4Netmask
  ipv6Network := cfg.ipv6Network.or global.ipv6Network
  ipv6Prefix := if cfg.ipv6Prefix ≠ 0 then cfg.ipv6Prefix else global.ipv6Prefix
  rxPerSec := if cfg.rxPerSec ≠ 0 then cfg.rxPerSec else global.rxPerSec
  txPerSec := if cfg.txPerSec ≠ 0 then cfg.txPerSec else global.txPerSec
  netPriority := if cfg.netPriority ≠ 0 then cfg.netPriority else global.netPriority
  udpPort := if cfg.noUdp then 0 else global.udpPort
  xmlConfigFile := cfg.xmlConfigFile.or global.xmlConfigFile
  dns := if cfg.dns ≠ [] then cfg.dns else global.dns
  nbns := if cfg.nbns ≠ [] then cfg.nbns else global.nbns
  routes :=
    if checkIfDefaultRoute cfg.routes || checkIfDefaultRoute global.routes then none
    else some (global.routes, cfg.routes)
  noRoutes := (global.noRoutes, cfg.noRoutes)

/-- The worker of a session gets its message and uses what it should. -/
def Faithful (global : GlobalCfg) (proc : SessionProc) : Prop :=
  ∃ msg ws, transport (sendCookieAuthReply proc authRepOk).1 = some msg ∧
    recvCookieAuthReply (.start global) (sendCookieAuthReply proc authRepOk).2 msg = .ok ws ∧
    ws.settings = global.overriddenBy proc.config

/-- The size of the message. -/
def replySize (proc : SessionProc) : ℕ := (sendCookieAuthReply proc authRepOk).1.pack.length

/-- A `proc_st` after `session_open`. -/
def SessionProc.opened (proc : SessionProc) (defaults : ServerDefaults)
    (reply : SecAuthSessionReplyMsg) : SessionProc :=
  { proc with config := sessionOpen (applyDefaultSupConfig defaults) reply }

/-! ### From the message to the settings -/

/-- The loop over the routes, without the loop. -/
theorem recvRoutes_eq (routes : List Bytes) : recvRoutes routes =
    if checkIfDefaultRoute routes then ([], true) else (routes, false) := by
  induction routes with
  | nil => rfl
  | cons route routes ih =>
    have hcons : checkIfDefaultRoute (route :: routes) =
      (isDefaultRoute route || checkIfDefaultRoute routes) := List.any_cons
    rw [recvRoutes, ih, hcons]
    cases isDefaultRoute route with
    | true => rfl
    | false =>
      cases checkIfDefaultRoute routes with
      | true => rfl
      | false => rfl

/-- A message of less than 64 KiB arrives, but for scalars without their flag. -/
theorem transport_eq (msg : AuthReplyMsg) (h : msg.pack.length < 2 ^ 16) :
    transport msg = some msg.received := by
  have hpos : 0 < msg.pack.length := by
    have hfields : 0 < msg.fields.length := by
      rw [AuthReplyMsg.fields, List.length_append]
      exact Nat.lt_of_lt_of_le Nat.one_pos (Nat.le_add_right _ _)
    exact hfields.trans_le (Protobuf.length_le_encode _)
  have hmod := Nat.mod_eq_of_lt h
  have hlength : Ipc.lengthRead (Ipc.frame authCookieRep msg.pack) (0, 0) = msg.pack.length := by
    rw [Ipc.frame]
    exact (Ipc.lengthRead_frame _ _).trans hmod
  unfold transport
  dsimp only
  rw [hlength, if_neg (Nat.ne_of_gt hpos), Ipc.frame, hmod, List.take_length]
  have hdrop : ([authCookieRep, UInt8.ofNat msg.pack.length,
      UInt8.ofNat (msg.pack.length / 2 ^ 8)] ++ msg.pack).drop 3 = msg.pack := rfl
  rw [hdrop, List.take_length]
  exact AuthReplyMsg.unpack_pack msg (h.trans (by decide))

/-- A limit is sent if it is set, and read back. -/
theorem limit_sent (limit old : ℕ) (h : limit < 2 ^ 32) :
    (if (Flagged.ofOption 0 (if limit ≠ 0 then (⟨true, UInt32.ofNat limit⟩ : Flagged UInt32)
        else ⟨false, 0⟩).toOption).has then
      (Flagged.ofOption 0 (if limit ≠ 0 then (⟨true, UInt32.ofNat limit⟩ : Flagged UInt32)
        else ⟨false, 0⟩).toOption).value.toNat
    else old) = if limit ≠ 0 then limit else old := by
  by_cases h0 : limit ≠ 0
  · rw [if_pos h0, if_pos h0]
    exact (UInt32.toNat_ofNat_of_lt h)
  · rw [if_neg h0, if_neg h0]
    rfl

/-- The routes of the session are used, unless one of all routes is a default route. -/
theorem routes_sent (global routes : List Bytes) :
    (if (false || (recvRoutes routes).2 || checkIfDefaultRoute (recvRoutes routes).1) ||
        checkIfDefaultRoute global then none
      else some (global, (recvRoutes routes).1)) =
    if checkIfDefaultRoute routes || checkIfDefaultRoute global then none
    else some (global, routes) := by
  rw [recvRoutes_eq]
  cases hdefault : checkIfDefaultRoute routes with
  | true => rfl
  | false =>
    rw [if_neg Bool.false_ne_true, hdefault]
    rfl

/-- **What the worker uses**: all options but the IPv6 prefix are those of the session. -/
theorem settings_recvCookieAuthReply (global : GlobalCfg) (proc : SessionProc)
    (hname : proc.tunLeaseName ≠ []) (hrx : proc.config.rxPerSec < 2 ^ 32)
    (htx : proc.config.txPerSec < 2 ^ 32) :
    ∃ ws, recvCookieAuthReply (.start global) (sendCookieAuthReply proc authRepOk).2
        (sendCookieAuthReply proc authRepOk).1.received = .ok ws ∧
      ws.settings =
        { global.overriddenBy proc.config with ipv6Prefix := global.ipv6Prefix } := by
  rw [sendCookieAuthReply, if_pos ⟨rfl, hname⟩]
  refine ⟨_, rfl, ?_⟩
  rw [SessionWorker.settings, GlobalCfg.overriddenBy, Settings.mk.injEq]
  refine ⟨rfl, rfl, rfl, rfl, limit_sent _ _ hrx, limit_sent _ _ htx, ?_, ?_, rfl, ?_, ?_, ?_, rfl⟩
  · by_cases hprio : proc.config.netPriority ≠ 0
    · rw [if_pos hprio, if_pos hprio]
      rfl
    · rw [if_neg hprio, if_neg hprio]
      rfl
  · cases proc.config.noUdp <;> rfl
  · exact if_congr List.length_pos_iff rfl rfl
  · exact if_congr List.length_pos_iff rfl rfl
  · exact routes_sent global.routes proc.config.routes

/-- **When a session is configured as it should be**: if and only if its IPv6 prefix, which is not
sent, is not set or the one of the server.  (The length of a message has 16 bits; a longer one is
cut.) -/
theorem faithful_iff (global : GlobalCfg) (defaults : ServerDefaults)
    (reply : SecAuthSessionReplyMsg) (proc : SessionProc) (hname : proc.tunLeaseName ≠ [])
    (hsize : replySize (proc.opened defaults reply) < 2 ^ 16) :
    Faithful global (proc.opened defaults reply) ↔
      (proc.opened defaults reply).config.ipv6Prefix = 0 ∨
        (proc.opened defaults reply).config.ipv6Prefix = global.ipv6Prefix := by
  obtain ⟨hrx, htx⟩ := sessionOpen_limits defaults reply
  obtain ⟨ws, hrecv, hsettings⟩ :=
    settings_recvCookieAuthReply global (proc.opened defaults reply) hname hrx htx
  have hmsg := transport_eq (sendCookieAuthReply (proc.opened defaults reply) authRepOk).1 hsize
  have hprefix : (global.overriddenBy (proc.opened defaults reply).config).ipv6Prefix =
      global.ipv6Prefix ↔ (proc.opened defaults reply).config.ipv6Prefix = 0 ∨
        (proc.opened defaults reply).config.ipv6Prefix = global.ipv6Prefix := by
    dsimp only [GlobalCfg.overriddenBy]
    by_cases h0 : (proc.opened defaults reply).config.ipv6Prefix = 0
    · rw [if_neg (not_not.2 h0)]
      exact iff_of_true rfl (.inl h0)
    · rw [if_pos h0]
      exact ⟨.inr, fun h => h.resolve_left h0⟩
  rw [← hprefix]
  constructor
  -- the worker keeps the prefix of the server
  · rintro ⟨msg', ws', hmsg', hrecv', heq⟩
    cases hmsg.symm.trans hmsg'
    cases hrecv.symm.trans hrecv'
    rw [← heq, hsettings]
  · intro h
    refine ⟨_, ws, hmsg, hrecv, hsettings.trans ?_⟩
    rw [← h]

/-! ### Two sessions -/

/-- A server with an IPv6 network. -/
def dualStack : GlobalCfg where
  ipv4Network := some (ascii "192.168.1.0")
  ipv4Netmask := some (ascii "255.255.255.0")
  ipv6Network := some (ascii "fd00::")
  ipv6Prefix := 64
  rxPerSec := 0
  txPerSec := 0
  netPriority := 0
  udpPort := 443
  xmlConfigFile := none
  dns := [ascii "192.168.1.1"]
  nbns := []
  routes := []
  noRoutes := []

/-- A user with an IPv6 network of the given prefix, a limit and two routes. -/
def ownNetwork (ipv6Prefix : UInt32) : SecAuthSessionReplyMsg :=
  { SecAuthSessionReplyMsg.init with
    ipv6Net := some (ascii "fd01::")
    ipv6Prefix := ⟨true, ipv6Prefix⟩
    rxPerSec := ⟨true, 40⟩
    routes := [ascii "10.0.0.0/8", ascii "172.16.0.0/12"] }

/-- The session of that user. -/
def userProc : SessionProc where
  tunLeaseName := ascii "vpns0"
  tunLeaseFd := 5
  dtlsSessionId := [1, 2, 3, 4]
  username := ascii "test"
  groupname := []
  ipv4 := none
  ipv6 := some (ascii "fd01::2", ascii "fd01::1")
  config := applyDefaultSupConfig ⟨false, 443⟩

theorem faithful_samePrefix :
    Faithful dualStack (userProc.opened ⟨false, 443⟩ (ownNetwork 64)) :=
  (faithful_iff dualStack ⟨false, 443⟩ (ownNetwork 64) userProc (by decide) (by decide +kernel)).2
    (.inr rfl)

/-- The worker uses the prefix of the server for the network of the user. -/
theorem not_faithful_ownPrefix :
    ¬ Faithful dualStack (userProc.opened ⟨false, 443⟩ (ownNetwork 80)) := by
  rintro ⟨msg, ws, hmsg, hrecv, hsettings⟩
  obtain ⟨hrx, htx⟩ := sessionOpen_limits ⟨false, 443⟩ (ownNetwork 80)
  obtain ⟨ws', hrecv', hsettings'⟩ := settings_recvCookieAuthReply dualStack
    (userProc.opened ⟨false, 443⟩ (ownNetwork 80)) (by decide) hrx htx
  cases (transport_eq _ (by decide +kernel)).symm.trans hmsg
  cases hrecv.symm.trans hrecv'
  have hprefix := congrArg Settings.ipv6Prefix (hsettings.symm.trans hsettings')
  revert hprefix
  decide

end PerUser

end Ocserv
