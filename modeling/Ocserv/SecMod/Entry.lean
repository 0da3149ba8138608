import Mathlib.Algebra.Group.Int.Defs
import Mathlib.Algebra.GroupWithZero.Nat
import Mathlib.Data.List.Basic

/-!
# Sec-mod: client entries

The data of `src/sec-mod.h` and of the messages sec-mod handles, the environment of one request
(the time, the results of the modules, of the sends and of the random generator), and the
events by which a run can be observed from outside: replies, callbacks of the authentication
and accounting modules, requests that found an entry.

Strings are the bytes before the final `0`.
-/

namespace Ocserv

namespace SecMod

abbrev Bytes := List UInt8

/-! ### Constants -/

def errBadCommand : ℤ := -2
def errAuthFail : ℤ := -3
def errAuthContinue : ℤ := -4

/-- A result of `auth_init`.  None of the modules returns a positive one. -/
abbrev InitRet := { ret : ℤ // ret ≤ 0 }

def InitRet.askMore : InitRet := ⟨errAuthContinue, by decide⟩
def InitRet.authFail : InitRet := ⟨errAuthFail, by decide⟩

def authTypeUsernamePass : ℕ := 1 <<< 0
def authTypePam : ℕ := 1 <<< 1 ||| authTypeUsernamePass
def authTypePlain : ℕ := 1 <<< 2 ||| authTypeUsernamePass
def authTypeCertificate : ℕ := 1 <<< 3
def authTypeRadius : ℕ := 1 <<< 5 ||| authTypeUsernamePass
def authTypeGssapi : ℕ := 1 <<< 6

def sidSize : ℕ := 16
def authSlackTime : ℤ := 10
def maxUsernameSize : ℕ := 64
def maxHostnameSize : ℕ := maxUsernameSize
def maxGroupnameSize : ℕ := maxUsernameSize
def maxIpStr : ℕ := 46

/-- `strlcpy` into a buffer of `size` bytes. -/
def strlcpy (size : ℕ) (src : Bytes) : Bytes := src.take (size - 1)

/-! ### Configuration -/

/-- The authentication modules. -/
inductive AuthMod where
  | pam
  | gssapi
  | radius
  | plain
  deriving DecidableEq, Repr

namespace AuthMod

def type : AuthMod → ℕ
  | pam => authTypePam ||| authTypeUsernamePass
  | gssapi => authTypeGssapi
  | radius => authTypeRadius ||| authTypeUsernamePass
  | plain => authTypePlain ||| authTypeUsernamePass

def allowsRetries : AuthMod → Bool
  | radius | plain => true
  | pam | gssapi => false

end AuthMod

/-- An entry of `perm_config->auth`; certificate authentication has no module. -/
structure AuthMethod where
  enabled : Bool
  type : ℕ
  amod : Option AuthMod
  deriving DecidableEq, Repr

/-- The callbacks an accounting module has. -/
structure AcctMod where
  openSession : Bool
  sessionStats : Bool
  closeSession : Bool
  deriving DecidableEq, Repr

/-- The part of the configuration that the handlers read. -/
structure Config where
  auth : List AuthMethod
  acct : Option AcctMod
  /-- `config_module` has a `get_sup_config`. -/
  supConfig : Bool
  maxBanScore : ℕ
  banPointsWrongPassword : ℕ
  cookieTimeout : ℤ
  predictableIps : Bool
  certUserOid : Bool
  certGroupOid : Bool
  /-- `hash_any` of a user name. -/
  hashAny : Bytes → ℕ

/-! ### Entries -/

/-- `PS_AUTH_*`. -/
inductive Status where
  | inactive
  | failed
  | init
  | cont
  | completed
  deriving DecidableEq, Repr

/-- `stats_st`. -/
structure Stats where
  bytesIn : UInt64 := 0
  bytesOut : UInt64 := 0
  uptime : ℕ := 0
  deriving DecidableEq, Repr

/-- `stats_add_to`. -/
def Stats.add (a b : Stats) : Stats :=
  ⟨a.bytesIn + b.bytesIn, a.bytesOut + b.bytesOut, a.uptime + b.uptime⟩

/-- `client_entry_st`.  `id` is the identity of the allocated structure: entries are numbered in
the order of their creation. -/
structure ClientEntry where
  id : ℕ
  sid : Bytes
  /-- The module whose `auth_init` made the context. -/
  authCtx : Option AuthMod := none
  sessionIsOpen : Bool := false
  inUse : UInt32 := 0
  tlsAuthOk : Bool := false
  msgStr : Option Bytes := none
  savedStats : Stats := {}
  stats : Stats := {}
  status : Status := .inactive
  hostname : Bytes := []
  /-- `cookie` and `cookie_size`; empty before `generate_cookie`. -/
  cookie : Bytes := []
  time : ℤ
  authType : ℕ := 0
  username : Bytes := []
  groupname : Bytes := []
  remoteIp : Bytes
  ipv4 : Bytes := []
  ipv6 : Bytes := []
  module : Option AuthMod := none
  deriving DecidableEq, Repr

/-- `e->status = status`. -/
def ClientEntry.setStatus (e : ClientEntry) (status : Status) : ClientEntry :=
  { e with status := status }

/-! ### Messages -/

/-- `SecAuthInitMsg`. -/
structure AuthInitMsg where
  tlsAuthOk : Bool
  userName : Option Bytes
  groupName : Option Bytes
  certUserName : Option Bytes
  certGroupNames : List Bytes
  hostname : Option Bytes
  ip : Bytes
  authType : ℕ
  deriving DecidableEq, Repr

/-- `SecAuthContMsg`. -/
structure AuthContMsg where
  sid : Bytes
  password : Option Bytes
  deriving DecidableEq, Repr

/-- `SecAuthSessionMsg`; `none` where the `has_` flag is not set. -/
structure SessionMsg where
  sid : Bytes
  cookie : Option Bytes
  uptime : Option ℕ
  bytesIn : Option UInt64
  bytesOut : Option UInt64
  deriving DecidableEq, Repr

/-- `CliStatsMsg`. -/
structure CliStatsMsg where
  bytesIn : UInt64
  bytesOut : UInt64
  sid : Bytes
  uptime : ℕ
  remoteIp : Option Bytes
  ipv4 : Option Bytes
  ipv6 : Option Bytes
  deriving DecidableEq, Repr

/-- `Cookie`, the message sealed in a cookie. -/
structure Cookie where
  username : Bytes
  groupname : Bytes
  hostname : Bytes
  ip : Bytes
  tlsAuthOk : Bool
  ipv4Seed : ℕ
  sid : Bytes
  expiration : ℕ
  deriving DecidableEq, Repr

/-- `AUTHREP`. -/
inductive AuthRep where
  | ok
  | msg
  | failed
  deriving DecidableEq, Repr

/-- The callbacks of `auth_mod_st`. -/
inductive Callback where
  | authInit
  | authMsg
  | authPass
  | authGroup
  | authUser
  | authDeinit
  deriving DecidableEq, Repr

/-- The exchange with main in `sec_mod_add_score_to_ip`. -/
inductive BanExchange where
  /-- The report cannot be sent. -/
  | notSent
  /-- It is sent, and no reply can be read. -/
  | noReply
  | reply (rep : AuthRep)
  deriving DecidableEq, Repr

namespace BanExchange

/-- The report was sent. -/
def sent : BanExchange → Bool
  | notSent => false
  | noReply | reply _ => true

/-- What `sec_mod_add_score_to_ip` returns. -/
def ret : BanExchange → ℤ
  | notSent | noReply => -1
  | reply rep => if rep ≠ .ok then -1 else 0

end BanExchange

/-- What a request finds outside sec-mod.  A request uses each of these at most once (the
accounting callbacks but `open_session` return nothing). -/
structure Env where
  /-- `time(0)`. -/
  now : ℕ
  /-- The allocations succeed. -/
  mem : Bool
  /-- The `send_msg` of the reply succeeds. -/
  sendOk : Bool
  banReply : BanExchange
  /-- The draws of `gnutls_rnd` in `new_client_entry`; it fails after the last one. -/
  sids : List (Vector UInt8 sidSize)
  /-- The draw for the IPv4 seed. -/
  ipv4Seed : Option ℕ
  encryptCookie : Cookie → Option Bytes
  authInit : InitRet
  /-- `auth_init` made a context. -/
  authInitCtx : Bool
  authMsg : ℤ
  authMsgStr : Option Bytes
  authPass : ℤ
  authGroup : ℤ
  /-- The group name `auth_group` stored. -/
  authGroupName : Bytes
  /-- The user name `auth_user` stored, if it did. -/
  authUserName : Option Bytes
  openSession : ℤ
  supConfig : ℤ

/-! ### Events -/

/-- What can be observed of a run.  The first component is the identity of the entry. -/
inductive Event where
  /-- The entry was added to the database. -/
  | created (id : ℕ) (sid : Bytes)
  /-- A callback of the entry's module, with the context it was given and its result. -/
  | call (id : ℕ) (m : AuthMod) (cb : Callback) (ctx : Option AuthMod) (ret : ℤ)
  /-- The group and certificate checks of `handle_sec_auth_init` succeeded. -/
  | checked (id : ℕ)
  /-- Points for the client's address were reported to main. -/
  | banIp (id : ℕ) (ip : Bytes) (points : ℕ)
  /-- The reply to a worker that carries a cookie, and what is sealed in it. -/
  | authRepOk (id : ℕ) (cookie : Bytes) (sealed : Cookie)
  | authRepMsg (id : ℕ)
  | authRepFailed (id : ℕ)
  /-- The reply to a `SESSION_OPEN`; without an entry if none was found. -/
  | sessionRep (id : Option ℕ) (rep : AuthRep)
  /-- A `SESSION_CLOSE` found the entry. -/
  | sessionClose (id : ℕ) (msg : SessionMsg)
  /-- The reply to a `SESSION_CLOSE`. -/
  | cliStatsRep (id : Option ℕ) (bytesIn bytesOut : UInt64)
  | openSession (id : ℕ) (ret : ℤ)
  | sessionStats (id : ℕ) (totals : Stats)
  | closeSession (id : ℕ) (saved : Stats)
  /-- The entry was freed. -/
  | removed (id : ℕ)
  deriving DecidableEq, Repr

namespace Event

/-- The entry an event is about. -/
def id? : Event → Option ℕ
  | created id _ | call id _ _ _ _ | checked id | banIp id _ _ | authRepOk id _ _
  | authRepMsg id | authRepFailed id | sessionClose id _ | openSession id _ | sessionStats id _
  | closeSession id _ | removed id => some id
  | sessionRep id _ | cliStatsRep id _ _ => id

/-- The event belongs to the authentication of the entry, not to its sessions. -/
def isAuth : Event → Bool
  | created .. | call .. | checked .. | banIp .. | authRepOk .. | authRepMsg ..
  | authRepFailed .. => true
  | _ => false

/-- The result of the module that decides the authentication: of `auth_init` or `auth_pass`. -/
def result? : Event → Option (Callback × ℤ)
  | call _ _ .authInit _ ret => some (.authInit, ret)
  | call _ _ .authPass _ ret => some (.authPass, ret)
  | _ => none

end Event

/-- The results of the module that decide, in order. -/
def results (t : List Event) : List (Callback × ℤ) := t.filterMap Event.result?

/-- The last result of the module. -/
def lastResult (t : List Event) : Option (Callback × ℤ) := (results t).getLast?

theorem results_append (t u : List Event) : results (t ++ u) = results t ++ results u :=
  List.filterMap_append

/-- The events about one entry. -/
def history (id : ℕ) (trace : List Event) : List Event :=
  trace.filter fun ev => ev.id? = some id

@[simp] theorem history_append (id : ℕ) (t u : List Event) :
    history id (t ++ u) = history id t ++ history id u := by
  simp [history]

theorem history_of_all {id : ℕ} {t : List Event} (h : ∀ ev ∈ t, ev.id? = some id) :
    history id t = t := by
  simpa [history] using h

theorem history_of_ne {id : ℕ} {t : List Event} (h : ∀ ev ∈ t, ev.id? ≠ some id) :
    history id t = [] := by
  simpa [history] using h

end SecMod

end Ocserv
