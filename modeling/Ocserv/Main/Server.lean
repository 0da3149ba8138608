import Ocserv.Machine
import Ocserv.Main.Lease
import Ocserv.SecMod.Entry
import Ocserv.Table

/-!
# Main: the worker processes

The main process keeps a `proc_st` for every worker it forked, until the worker has exited
(`src/main.c`, `src/main-misc.c`).  A worker asks for a session with an `AUTH_COOKIE_REQ`
(`src/main-auth.c`); a worker that has the same session gives up its leases (`src/ip-lease.c`) and
is sent `SIGTERM`, but stays in the tables (`src/proc-search.c`) until it is removed.

`machine` is main serving these requests.  The handlers work on one `proc_st`, which `Out` and
`Owner` keep beside the state: `MainSt.put` writes it back.
-/

namespace Ocserv

namespace Main

open SecMod (Bytes Status strlcpy sidSize maxUsernameSize)

/-- The part of `group_cfg_st` that is used here. -/
structure GroupConfig where
  denyRoaming : Bool
  ipv4Network : Option String
  ipv4Netmask : Option String
  ipv6Network : Option String
  ipv6Prefix : ℕ
  explicitIpv4 : Option String
  explicitIpv6 : Option String
  deriving DecidableEq, Repr

/-- The configuration of the server. -/
structure Config where
  ipv4 : Option String
  ipv4Netmask : Option String
  ipv6 : Option String
  ipv6Prefix : ℕ
  denyRoaming : Bool
  maxSameClients : ℕ
  deriving DecidableEq, Repr

/-- `proc_st`.  `id` is the identity of the allocated structure; `sigterm` tells whether the
worker was sent `SIGTERM`. -/
structure Proc where
  id : ℕ
  pid : ℤ
  sid : Bytes
  activeSid : Bool
  dtlsSessionId : Bytes
  username : Bytes
  ipv4 : Option Lease
  ipv6 : Option Lease
  ipv4Seed : BitVec 32
  status : Status
  config : GroupConfig
  sigterm : Bool
  deriving DecidableEq, Repr

/-- The leases a worker has. -/
def Proc.leases (p : Proc) : List Lease := p.ipv4.toList ++ p.ipv6.toList

/-- The state of main.  Leases and workers are numbered in the order of their creation; the
tables of workers have their numbers. -/
structure MainSt where
  procs : List Proc
  nextProc : ℕ
  nextLease : ℕ
  ipLeases : List Lease
  dbIp : List ℕ
  dbDtlsId : List ℕ
  dbSid : List ℕ
  deriving DecidableEq, Repr

/-- The part of a decrypted cookie that is used here. -/
structure Cookie where
  username : Option Bytes
  ip : Option Bytes
  sid : Bytes
  ipv4Seed : BitVec 32
  deriving DecidableEq, Repr

/-- The part of `SecAuthSessionReplyMsg` that is used here. -/
structure SessionReply where
  denyRoaming : Option Bool
  ipv6Prefix : Option ℕ
  ipv4Net : Option String
  ipv4Netmask : Option String
  ipv6Net : Option String
  explicitIpv4 : Option String
  explicitIpv6 : Option String
  deriving DecidableEq, Repr

/-- What an `AUTH_COOKIE_REQ` finds outside main.  An addition to a hash table fails, or gives
the order of the table. -/
structure Env where
  decryptCookie : Bytes → Option Cookie
  /-- The draw of `gnutls_rnd`. -/
  dtlsSessionId : Option Bytes
  /-- `session_open`; the reply if it is `OK`. -/
  sessionOpen : Option SessionReply
  /-- `human_addr2` of the address of the client. -/
  humanAddr : Option Bytes
  addIp : Option (List ℕ)
  addDtlsId : Option (List ℕ)
  addSid : Option (List ℕ)
  mem4 : Bool
  mem6 : Bool
  /-- The bytes 4 to 7 of the pointer to the netmask that `get_ipv4_lease` hands over. -/
  maskPtr4 : BitVec 32
  ping4 : ℕ → BitVec 32 → Bool
  ping6 : ℕ → BitVec 128 → Bool
  addLease4 : Option (List Lease)
  addLease6 : Option (List Lease)
  /-- `open_tun` gets a device. -/
  tunOk : Bool
  /-- The addresses can be set. -/
  setIpv4 : Bool
  setIpv6 : Bool
  /-- `user_connected`. -/
  userConnected : ℤ
  /-- The reply to the worker is sent. -/
  sendOk : Bool

variable (plat : Platform) (cfg : Config) (env : Env)

/-- `proc` of a number. -/
def MainSt.find (s : MainSt) (id : ℕ) : Option Proc := Table.find? Proc.id s.procs id

/-- Write to a `proc_st` through its pointer. -/
def MainSt.put (s : MainSt) (p : Proc) : MainSt :=
  { s with procs := Table.update Proc.id s.procs p }

/-- What a handler does; `proc` is the current value of the `proc_st` it works on. -/
structure Out where
  st : MainSt
  proc : Proc
  ret : ℤ
  deriving DecidableEq, Repr

/-! ### Leases -/

/-- `talloc_free` of a lease. -/
def freeLease (ipLeases : List Lease) (lease : Lease) : List Lease :=
  if lease.unref ∧ lease.db then HTable.del ipLeases lease else ipLeases

/-- The client has an IPv4 network of its own. -/
def Proc.hasIpv4Network (p : Proc) : Bool :=
  p.config.ipv4Network.isSome && p.config.ipv4Netmask.isSome

/-- The client has an IPv6 network of its own. -/
def Proc.hasIpv6Network (p : Proc) : Bool :=
  p.config.ipv6Network.isSome && p.config.ipv6Prefix != 0

/-- The network and the netmask from which a client gets its IPv4 address. -/
def ipv4Network (p : Proc) : Option String × Option String :=
  if p.hasIpv4Network then (p.config.ipv4Network, p.config.ipv4Netmask)
  else (cfg.ipv4, cfg.ipv4Netmask)

/-- The network and the netmask from which a client gets its IPv6 address. -/
def ipv6Network (p : Proc) : Option String × Option String :=
  if p.hasIpv6Network then (p.config.ipv6Network, ipv6PrefixToMask p.config.ipv6Prefix)
  else (cfg.ipv6, ipv6PrefixToMask cfg.ipv6Prefix)

/-- `get_ipv4_lease`. -/
def getIpv4Lease (s : MainSt) (p : Proc) : Except ℤ (Option Lease) :=
  (draw4 plat env.maskPtr4 env.ping4).getLease s.ipLeases s.nextLease env.mem4 p.ipv4Seed
    (ipv4Network cfg p).1 (ipv4Network cfg p).2 p.config.explicitIpv4

/-- `get_ipv6_lease`. -/
def getIpv6Lease (s : MainSt) (p : Proc) : Except ℤ (Option Lease) :=
  (draw6 plat env.ping6).getLease s.ipLeases s.nextLease env.mem6 p.ipv4Seed
    (ipv6Network cfg p).1 (ipv6Network cfg p).2 p.config.explicitIpv6

/-- `get_ipv4_lease` grants the address that is configured for the client. -/
def grantsExplicitIpv4 (s : MainSt) (p : Proc) : Bool :=
  (draw4 plat env.maskPtr4 env.ping4).grantsExplicit s.ipLeases env.mem4 (ipv4Network cfg p).1
    (ipv4Network cfg p).2 p.config.explicitIpv4

/-- `get_ipv6_lease` grants the address that is configured for the client. -/
def grantsExplicitIpv6 (s : MainSt) (p : Proc) : Bool :=
  (draw6 plat env.ping6).grantsExplicit s.ipLeases env.mem6 (ipv6Network cfg p).1
    (ipv6Network cfg p).2 p.config.explicitIpv6

/-- The part of `get_ip_leases` for one family: the lease that was drawn is put into the table,
unless its `db` is not set.  The new table, the lease, and the return value. -/
def recordLease (ipLeases : List Lease) (add : Option (List Lease)) :
    Except ℤ (Option Lease) → List Lease × Option Lease × ℤ
  | .error ret => (ipLeases, none, ret)
  | .ok none => (ipLeases, none, 0)
  | .ok (some lease) =>
    if lease.db then
      match add with
      | none => (ipLeases, some lease, -1)
      | some order =>
        let lease := { lease with unref := true }
        (HTable.add order ipLeases lease, some lease, 0)
    else (ipLeases, some lease, 0)

/-- The first half of `get_ip_leases`. -/
def getIpv4 (s : MainSt) (p : Proc) : Out :=
  match p.ipv4 with
  | some _ => ⟨s, p, 0⟩
  | none =>
    let r := recordLease s.ipLeases env.addLease4 (getIpv4Lease plat cfg env s p)
    ⟨{ s with ipLeases := r.1, nextLease := s.nextLease + 1 }, { p with ipv4 := r.2.1 }, r.2.2⟩

/-- The second half of `get_ip_leases`. -/
def getIpv6 (s : MainSt) (p : Proc) : Out :=
  match p.ipv6 with
  | some _ => ⟨s, p, 0⟩
  | none =>
    let r := recordLease s.ipLeases env.addLease6 (getIpv6Lease plat cfg env s p)
    ⟨{ s with ipLeases := r.1, nextLease := s.nextLease + 1 }, { p with ipv6 := r.2.1 }, r.2.2⟩

/-- `get_ip_leases`. -/
def getIpLeases (s : MainSt) (p : Proc) : Out :=
  let out4 := getIpv4 plat cfg env s p
  if out4.ret < 0 then out4
  else
    let out6 := getIpv6 plat cfg env out4.st out4.proc
    if out6.ret < 0 then out6
    else if out6.proc.ipv4 = none ∧ out6.proc.ipv6 = none then { out6 with ret := -1 }
    else { out6 with ret := 0 }

/-- `steal_ip_leases`: the process and the thief after it. -/
def stealIpLeases (p thief : Proc) : Proc × Proc :=
  ({ p with ipv4 := none, ipv6 := none }, { thief with ipv4 := p.ipv4, ipv6 := p.ipv6 })

/-! ### Tables of workers -/

/-- `proc_table_add`: the state and the return value. -/
def procTableAdd (s : MainSt) (id : ℕ) : MainSt × ℤ :=
  match env.addIp with
  | none => (s, -1)
  | some orderIp =>
    let s := { s with dbIp := HTable.add orderIp s.dbIp id }
    match env.addDtlsId with
    | none => ({ s with dbIp := HTable.del s.dbIp id }, -1)
    | some orderDtlsId =>
      let s := { s with dbDtlsId := HTable.add orderDtlsId s.dbDtlsId id }
      match env.addSid with
      | none =>
        ({ s with dbIp := HTable.del s.dbIp id, dbDtlsId := HTable.del s.dbDtlsId id }, -1)
      | some orderSid => ({ s with dbSid := HTable.add orderSid s.dbSid id }, 0)

/-- `proc_table_del`. -/
def procTableDel (s : MainSt) (id : ℕ) : MainSt :=
  { s with
    dbIp := HTable.del s.dbIp id
    dbDtlsId := HTable.del s.dbDtlsId id
    dbSid := HTable.del s.dbSid id }

/-- `proc_search_sid`: the first worker of the table that has the SID. -/
def procSearchSid (s : MainSt) (sid : Bytes) : Option Proc :=
  (HTable.get s.dbSid fun id => (s.find id).any (·.sid = sid)).bind s.find

/-! ### The cookie -/

/-- The part of `handle_auth_cookie_req` before the roaming check: the cookie is decrypted and the
session opened at sec-mod. -/
def openCookie (p : Proc) (req : Bytes) : Proc × Option Cookie :=
  if req.length = 0 then (p, none)
  else
    match env.decryptCookie req with
    | none => (p, none)
    | some cookie =>
      match cookie.username with
      | none => (p, none)
      | some username =>
        let p := { p with username := strlcpy maxUsernameSize username }
        if cookie.sid.length ≠ sidSize then (p, none)
        else
          match env.dtlsSessionId with
          | none => (p, none)
          | some dtlsSessionId =>
            let p := { p with
              dtlsSessionId := dtlsSessionId
              sid := cookie.sid
              -- `memset` and `apply_default_sup_config`
              config := ⟨cfg.denyRoaming, none, none, none, 0, none, none⟩ }
            match env.sessionOpen with
            | none => (p, none)
            | some reply =>
              let config : GroupConfig :=
                { denyRoaming := reply.denyRoaming.getD cfg.denyRoaming
                  ipv4Network := reply.ipv4Net
                  ipv4Netmask := reply.ipv4Netmask
                  ipv6Network := reply.ipv6Net
                  ipv6Prefix := reply.ipv6Prefix.getD 0
                  explicitIpv4 := reply.explicitIpv4
                  explicitIpv6 := reply.explicitIpv6 }
              ({ p with config := config, activeSid := true }, some cookie)

/-- The client has the address the cookie was made for, or may have another one. -/
def mayRoam (p : Proc) (cookie : Cookie) : Bool :=
  !p.config.denyRoaming || (cookie.ip.isSome && env.humanAddr == cookie.ip)

/-- The part of `handle_auth_cookie_req` that displaces the worker that has the SID. -/
def replaceOld (s : MainSt) (p : Proc) (cookie : Cookie) : Out :=
  match procSearchSid s cookie.sid with
  | none => ⟨s, p, 0⟩
  | some old =>
    if p.username ≠ old.username then ⟨s, p, -1⟩
    else
      let (old, p) := stealIpLeases old p
      ⟨s.put { old with sigterm := old.sigterm || decide (0 < old.pid) }, p, 0⟩

/-- `handle_auth_cookie_req`. -/
def handleAuthCookieReq (s : MainSt) (p : Proc) (req : Bytes) : Out :=
  match openCookie cfg env p req with
  | (p, none) => ⟨s, p, -1⟩
  | (p, some cookie) =>
    if !mayRoam env p cookie then ⟨s, p, -1⟩
    else
      let out := replaceOld s p cookie
      if out.ret < 0 then out
      else
        let p := { out.proc with ipv4Seed := cookie.ipv4Seed }
        let added := procTableAdd env out.st p.id
        ⟨added.1, p, added.2⟩

/-! ### The tunnel -/

/-- `check_multiple_users`. -/
def checkMultipleUsers (s : MainSt) (p : Proc) : ℤ :=
  if cfg.maxSameClients = 0 then 0
  else
    let same := s.procs.countP fun q => q.id ≠ p.id ∧ q.pid ≠ -1 ∧ q.username = p.username
    if 1 + same > cfg.maxSameClients then -1 else 0

/-- The IPv6 part of `set_network_info`: a lease whose address cannot be set is given back. -/
def setIpv6Addr (s : MainSt) (p : Proc) : Out :=
  match p.ipv6 with
  | none => ⟨s, p, 0⟩
  | some lease =>
    if env.setIpv6 then ⟨s, p, 0⟩
    else ⟨{ s with ipLeases := freeLease s.ipLeases lease }, { p with ipv6 := none }, 0⟩

/-- `set_network_info`. -/
def setNetworkInfo (s : MainSt) (p : Proc) : Out :=
  if p.ipv4.isSome ∧ !env.setIpv4 then ⟨s, p, -1⟩
  else
    let out := setIpv6Addr env s p
    if out.proc.ipv6 = none ∧ out.proc.ipv4 = none then { out with ret := -1 } else out

/-- `open_tun`. -/
def openTun (s : MainSt) (p : Proc) : Out :=
  let out := getIpLeases plat cfg env s p
  if out.ret < 0 then out
  else if !env.tunOk then { out with ret := -1 }
  else
    let out := setNetworkInfo env out.st out.proc
    { out with ret := if out.ret < 0 then -1 else 0 }

/-- `accept_user`. -/
def acceptUser (s : MainSt) (p : Proc) : Out :=
  if checkMultipleUsers cfg s p < 0 then ⟨s, p, checkMultipleUsers cfg s p⟩
  else
    let out := openTun plat cfg env s p
    if out.ret < 0 then { out with ret := -1 } else { out with ret := env.userConnected }

/-- `handle_script_exit`: the status and the return value. -/
def handleScriptExit (status : Status) (code : ℤ) : Status × ℤ :=
  (if code = 0 then .completed else status, if env.sendOk then 0 else errBadCommand)

/-- `handle_cookie_auth_res` before `finished`: the user is accepted and the status set. -/
def cookieAuthStatus (s : MainSt) (p : Proc) (result : ℤ) : Out :=
  if result = 0 then
    let out := acceptUser plat cfg env s p
    { out with proc := { out.proc with status := if out.ret < 0 then .failed else .completed } }
  else ⟨s, { p with status := .failed }, if result < 0 then result else errBadCommand⟩

/-- `handle_cookie_auth_res`. -/
def handleCookieAuthRes (s : MainSt) (p : Proc) (result : ℤ) : Out :=
  let out := cookieAuthStatus plat cfg env s p result
  if out.ret = errWaitForScript then { out with ret := 0 }
  else
    let (status, ret) := handleScriptExit env out.proc.status out.ret
    { out with proc := { out.proc with status := if ret < 0 then .failed else status }, ret := ret }

/-! ### Requests -/

/-- `remove_proc`. -/
def removeProc (s : MainSt) (p : Proc) : MainSt :=
  procTableDel
    { s with
      procs := Table.others Proc.id s.procs p.id
      ipLeases := p.leases.foldl freeLease s.ipLeases } p.id

/-- `new_proc`. -/
def newProc (s : MainSt) (pid : ℤ) : MainSt :=
  { s with
    procs :=
      { id := s.nextProc
        pid := pid
        sid := List.replicate sidSize 0
        activeSid := false
        dtlsSessionId := []
        username := []
        ipv4 := none
        ipv6 := none
        ipv4Seed := 0
        status := .inactive
        config := ⟨false, none, none, none, 0, none, none⟩
        sigterm := false } :: s.procs
    nextProc := s.nextProc + 1 }

/-- What main does next: it accepts a connection, forking a worker; a worker asks for a session
with a cookie; the end of a worker is noticed. -/
inductive Label where
  | connect (pid : ℤ)
  | cookieReq (id : ℕ) (req : Bytes) (env : Env)
  | remove (id : ℕ)

/-- An `AUTH_COOKIE_REQ` that is expected. -/
def authCookieReq (s : MainSt) (p : Proc) (req : Bytes) : Out :=
  let out := handleAuthCookieReq cfg env s p req
  handleCookieAuthRes plat cfg env out.st out.proc out.ret

/-- `AUTH_COOKIE_REQ` in `handle_commands`. -/
def handleCookieReq (s : MainSt) (p : Proc) (req : Bytes) : Out :=
  if p.status ≠ .inactive then ⟨s, p, errBadCommand⟩ else authCookieReq plat cfg env s p req

/-- A worker whose request failed is removed. -/
def Out.finish (out : Out) : MainSt :=
  if out.ret < 0 then removeProc out.st out.proc else out.st.put out.proc

/-- The machine of main. -/
def machine : Machine MainSt Label where
  step s
    | .connect pid => if 0 < pid then some (newProc s pid) else none
    | .cookieReq id req env =>
      (s.find id).map fun p => (handleCookieReq plat cfg env s p req).finish
    | .remove id => (s.find id).map (removeProc s)

/-- Main when it starts. -/
def start : MainSt := ⟨[], 0, 0, [], [], [], []⟩

/-! ### A sample network -/

namespace Sample

/-- Addresses are written by their last byte, in the network `10.0.0.0/24`. -/
def platform : Platform where
  inetPton4 text :=
    if text = "net" then some 0x0a000000#32
    else if text = "mask" then some 0xffffff00#32
    else if text = "client" then some 0x0a000009#32
    else none
  inetPton6 _ := none
  ipFromSeed4 addr := addr + 1
  ipFromSeed6 addr := addr + 1

def config : Config := ⟨some "net", some "mask", none, 0, false, 0⟩

def sid : Bytes := List.replicate sidSize 7

/-- Everything succeeds; the worker number `id` is the last in the table of SIDs, which has
`workers`, and a lease for `addr` the first in its table. -/
def environ (workers : List ℕ) (seed : BitVec 32) (explicit : Option String) : Env where
  decryptCookie _ := some ⟨some [117], none, sid, seed⟩
  dtlsSessionId := some []
  sessionOpen := some ⟨none, none, none, none, none, explicit, none⟩
  humanAddr := none
  addIp := some workers
  addDtlsId := some workers
  addSid := some workers
  mem4 := true
  mem6 := true
  -- of a pointer into the stack, `0x7ffd........`
  maskPtr4 := 0xfd7f0000
  ping4 _ _ := false
  ping6 _ _ := false
  addLease4 := some []
  addLease6 := some []
  tunOk := true
  setIpv4 := true
  setIpv6 := true
  userConnected := 0
  sendOk := true

end Sample

end Main

end Ocserv
