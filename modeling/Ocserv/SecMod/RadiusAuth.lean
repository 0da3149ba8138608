import Mathlib.Data.List.TakeWhile
import Ocserv.Passwd.Plain
import Ocserv.PerUser.SessionReply
import Ocserv.SecMod.Identity
import Ocserv.Worker.Headers

/-!
# Sec-mod: what a RADIUS server says about a user

`src/auth/radius.c` reads the attributes of an Access-Accept into the context of the user, and
`src/sup-config/radius.c` makes the configuration of the session from it.  The group of the user is
asked for by `handle_sec_auth_init`, before any password has been sent to the server.

* `readPairs_view` : what the context holds after a list of attributes.
* `translated_iff` : when the session has the group and the configuration that the attributes of
  the accept denote.
-/

namespace Ocserv

namespace SecMod

namespace RadiusAuth

open Passwd (maxPasswordTries)
open PerUser (SecAuthSessionReplyMsg)
open Worker (cString strchr)

/-! ### `inet_ntop` -/

def colon : UInt8 := 58
def dot : UInt8 := 46
def slash : UInt8 := 47
def space : UInt8 := 32

/-- `%u` and `%x`. -/
def decimal (n : ℕ) : Bytes := (Nat.toDigits 10 n).map fun c => UInt8.ofNat c.toNat
def hexadecimal (n : ℕ) : Bytes := (Nat.toDigits 16 n).map fun c => UInt8.ofNat c.toNat

/-- `htonl`, as the bytes in memory. -/
def htonl (n : UInt32) : Bytes :=
  [(n >>> 24).toUInt8, (n >>> 16).toUInt8, (n >>> 8).toUInt8, n.toUInt8]

/-- `inet_ntop` for `AF_INET`. -/
def inetNtop4 (src : Bytes) : Bytes := [dot].intercalate (src.map fun b => decimal b.toNat)

/-- The longer of two runs of zeros, given by start and length; the first of two equal ones. -/
def longer : Option (ℕ × ℕ) → Option (ℕ × ℕ) → Option (ℕ × ℕ)
  | some best, some cur => if best.2 < cur.2 then some cur else some best
  | none, cur => cur
  | best, none => best

/-- The longest run of zeros among the words, those from number `i` on; `cur` is the run that has
not ended. -/
def zeroRun (i : ℕ) (best cur : Option (ℕ × ℕ)) : List ℕ → Option (ℕ × ℕ)
  | [] => (longer best cur).filter fun run => 2 ≤ run.2
  | w :: ws =>
    if w = 0 then
      zeroRun (i + 1) best (some (cur.elim (i, 1) fun run => (run.1, run.2 + 1))) ws
    else zeroRun (i + 1) (longer best cur) none ws

/-- What word number `i` adds to the text. -/
def wordText (src : Bytes) (words : List ℕ) (run : Option (ℕ × ℕ)) (i : ℕ) : Bytes :=
  let (base, len) := run.getD (8, 0)
  let embedded := base = 0 ∧ (len = 6 ∨ len = 5 ∧ words.getD 5 0 = 0xffff)
  if base ≤ i ∧ i < base + len then (if i = base then [colon] else [])
  else
    (if i = 0 then [] else [colon]) ++
      -- an embedded IPv4 address takes the place of the last two words
      if embedded ∧ i = 6 then inetNtop4 (src.drop 12)
      else hexadecimal (words.getD i 0)

/-- `inet_ntop` for `AF_INET6`. -/
def inetNtop6 (src : Bytes) : Bytes :=
  let words := (List.range 8).map fun i =>
    (src.getD (2 * i) 0).toNat * 256 + (src.getD (2 * i + 1) 0).toNat
  let run := zeroRun 0 none none words
  let (base, len) := run.getD (8, 0)
  let embedded := base = 0 ∧ (len = 6 ∨ len = 5 ∧ words.getD 5 0 = 0xffff)
  (List.range (if embedded then 7 else 8)).flatMap (wordText src words run) ++
    (if run.isSome ∧ base + len = 8 then [colon] else [])

/-! ### The attributes -/

/-- `PW_TYPE_*`. -/
inductive ValueType where
  | string
  | integer
  | ipaddr
  | date
  | ipv6addr
  | ipv6Prefix
  deriving DecidableEq, Repr

/-- `VALUE_PAIR`: the number of an integer or an address and the length of any other value are in
`lvalue`. -/
structure ValuePair where
  attr : ℕ
  type : ValueType
  lvalue : UInt32
  strvalue : Bytes
  deriving DecidableEq, Repr

def pwServiceType : ℕ := 6
def pwFramedIpAddress : ℕ := 8
def pwFramedIpNetmask : ℕ := 9
def pwFramedRoute : ℕ := 22
def pwFramedIpv6Prefix : ℕ := 97
def pwFramedIpv6Route : ℕ := 99
def pwFramedIpv6Address : ℕ := 168
def pwDnsServerIpv6Address : ℕ := 169
def radGroupName : ℕ := 1030
def radIpv4Dns1 : ℕ := 311 <<< 16 ||| 28
def radIpv4Dns2 : ℕ := 311 <<< 16 ||| 29

def pwFramed : UInt32 := 2

/-- `pass_msg`: `pass_msg_first`, `pass_msg_second` or `pass_msg_failed`. -/
inductive PassMsg where
  | first
  | second
  | failed
  deriving DecidableEq, Repr

/-- `radius_ctx_st`; a buffer that was not written is empty. -/
structure RadiusCtx where
  username : Bytes
  groupname : Bytes := []
  remoteIp : Bytes
  ipv4 : Bytes := []
  ipv4Mask : Bytes := []
  ipv4Dns1 : Bytes := []
  ipv4Dns2 : Bytes := []
  ipv6 : Bytes := []
  ipv6Net : Bytes := []
  ipv6Prefix : UInt32 := 0
  ipv6Dns1 : Bytes := []
  ipv6Dns2 : Bytes := []
  routes : List Bytes := []
  passMsg : PassMsg := .first
  retries : ℕ := 0
  deriving DecidableEq, Repr

/-! ### The callbacks of the module -/

/-- `radius_auth_init`, with the `default_realm` of the library.  The name that a
worker sends is shorter than `MAX_USERNAME_SIZE`, so `strcpy` stays within `pctx->username`, which
has twice as much. -/
def radiusAuthInit (defaultRealm : Option Bytes) (username : Option Bytes) (ip : Bytes) :
    InitRet × Option RadiusCtx :=
  match username with
  | none | some [] => (.authFail, none)
  | some username =>
    let realm := defaultRealm.getD []
    let username :=
      if (strchr 64 username).isNone && !realm.isEmpty then
        (username ++ 64 :: realm).take (maxUsernameSize * 2 - 1)
      else username
    (.askMore, some { username := username, remoteIp := strlcpy maxIpStr ip })

/-- `radius_auth_group`: the result and the group it stores. -/
def radiusAuthGroup (ctx : RadiusCtx) (suggested : Option Bytes) : ℤ × Bytes :=
  match suggested with
  | some suggested =>
    if suggested = ctx.groupname then (0, strlcpy maxGroupnameSize ctx.groupname) else (-1, [])
  | none => (0, strlcpy maxGroupnameSize ctx.groupname)

/-- The text that `append_route` keeps: up to the first blank after the slash. -/
def routeText (route : Bytes) (len : ℕ) : Option Bytes :=
  (strchr slash route).map fun p =>
    let len := match strchr space ((cString route).drop p) with
      | some n => p + n
      | none => len
    (cString route).take len

/-- `append_route`. -/
def appendRoute (ctx : RadiusCtx) (route : Bytes) (len : ℕ) : RadiusCtx :=
  { ctx with routes := ctx.routes ++ (routeText route len).toList }

/-- The loop body of `radius_auth_pass`, for an attribute that is not a reason to fail.  The
buffers have room for every address. -/
def readPair (ctx : RadiusCtx) (vp : ValuePair) : RadiusCtx :=
  if vp.attr = radGroupName ∧ vp.type = .string then
    { ctx with groupname := strlcpy maxGroupnameSize (cString vp.strvalue) }
  else if vp.attr = pwFramedIpv6Address ∧ vp.type = .ipv6addr then
    { ctx with
      ipv6 := inetNtop6 vp.strvalue
      ipv6Prefix := 64
      ipv6Net := strlcpy maxIpStr (inetNtop6 vp.strvalue) }
  else if vp.attr = pwFramedIpv6Prefix ∧ vp.type = .ipv6Prefix then
    if 2 < vp.lvalue ∧ vp.lvalue ≤ 18 then
      -- the text of the prefix is made in `route`, which is not what is appended
      appendRoute ctx vp.strvalue vp.lvalue.toNat
    else ctx
  else if vp.attr = pwDnsServerIpv6Address ∧ vp.type = .ipv6addr then
    if ctx.ipv6Dns1.isEmpty then { ctx with ipv6Dns1 := inetNtop6 vp.strvalue }
    else { ctx with ipv6Dns2 := inetNtop6 vp.strvalue }
  else if vp.attr = pwFramedIpAddress ∧ vp.type = .ipaddr then
    { ctx with ipv4 := inetNtop4 (htonl vp.lvalue) }
  else if vp.attr = pwFramedIpNetmask ∧ vp.type = .ipaddr then
    { ctx with ipv4Mask := inetNtop4 (htonl vp.lvalue) }
  else if vp.attr = radIpv4Dns1 ∧ vp.type = .ipaddr then
    { ctx with ipv4Dns1 := inetNtop4 (htonl vp.lvalue) }
  else if vp.attr = radIpv4Dns2 ∧ vp.type = .ipaddr then
    { ctx with ipv4Dns2 := inetNtop4 (htonl vp.lvalue) }
  else if vp.attr = pwFramedRoute ∧ vp.type = .string then
    appendRoute ctx vp.strvalue vp.lvalue.toNat
  else if vp.attr = pwFramedIpv6Route ∧ vp.type = .string then
    appendRoute ctx vp.strvalue vp.lvalue.toNat
  else ctx

/-- The loop of `radius_auth_pass`: the context, and whether it got to the end. -/
def readPairs (ctx : RadiusCtx) : List ValuePair → RadiusCtx × Bool
  | [] => (ctx, true)
  | vp :: vps =>
    if vp.attr = pwServiceType ∧ vp.lvalue ≠ pwFramed then (ctx, false)
    else readPairs (readPair ctx vp) vps

/-- What `radius_auth_pass` gets: its request could not be made, or `rc_aaa` returned an error,
`PW_ACCESS_CHALLENGE` or `OK_RC`. -/
inductive Answer where
  | notSent
  | error
  | challenge
  | ok (recvd : List ValuePair)
  deriving DecidableEq, Repr

/-- The label `fail` of `radius_auth_pass`, without a challenge. -/
def authPassFail (ctx : RadiusCtx) : ℤ × RadiusCtx :=
  if ctx.retries < maxPasswordTries - 1 then
    (errAuthContinue, { ctx with retries := ctx.retries + 1, passMsg := .failed })
  else (errAuthFail, { ctx with retries := ctx.retries + 1 })

/-- `radius_auth_pass`. -/
def radiusAuthPass (ctx : RadiusCtx) : Answer → ℤ × RadiusCtx
  | .notSent => (errAuthFail, ctx)
  | .error => authPassFail ctx
  | .challenge => (errAuthContinue, { ctx with passMsg := .second })
  | .ok recvd =>
    match readPairs ctx recvd with
    | (ctx, true) => (0, ctx)
    | (ctx, false) => authPassFail ctx

/-- A string of the message that is set from a buffer, unless this is empty. -/
def strdupSet (buf : Bytes) (old : Option Bytes) : Option Bytes :=
  if buf.isEmpty then old else some buf

/-- `get_sup_config`. -/
def getSupConfig (ctx : Option RadiusCtx) (msg : SecAuthSessionReplyMsg) :
    SecAuthSessionReplyMsg :=
  match ctx with
  | none => msg
  | some ctx =>
    let dns := [ctx.ipv4Dns1, ctx.ipv4Dns2, ctx.ipv6Dns1, ctx.ipv6Dns2].filter (!·.isEmpty)
    { msg with
      explicitIpv4 := strdupSet ctx.ipv4 msg.explicitIpv4
      ipv4Netmask := strdupSet ctx.ipv4Mask msg.ipv4Netmask
      routes := if 0 < ctx.routes.length then ctx.routes else msg.routes
      dns := if 0 < dns.length then dns else msg.dns
      explicitIpv6 := strdupSet ctx.ipv6 msg.explicitIpv6
      ipv6Net := strdupSet ctx.ipv6Net msg.ipv6Net
      ipv6Prefix := if ctx.ipv6Prefix ≠ 0 then ⟨true, ctx.ipv6Prefix⟩ else msg.ipv6Prefix }

/-! ### The exchange with a client -/

/-- An entry and its context. -/
structure Session where
  entry : ClientEntry
  ctx : Option RadiusCtx

/-- A request `AUTH_CONT`, and the answer of the server to its password. -/
structure Attempt where
  req : AuthContMsg
  env : Env
  answer : Answer

/-- `radius_auth_msg` succeeds, and `radius_auth_user` does not change the name. -/
def radiusEnv (env : Env) : Env := { env with authMsg := 0, authUserName := none }

/-- The environment of an `AUTH_INIT`, with the results of `radius_auth_init` and
`radius_auth_group`. -/
def initEnv (env : Env) (ret : InitRet) (ctx : Option RadiusCtx) (suggested : Option Bytes) : Env :=
  let group := ctx.elim (-1, []) fun ctx => radiusAuthGroup ctx suggested
  { radiusEnv env with
    authInit := ret
    authInitCtx := ctx.isSome
    authGroup := group.1
    authGroupName := group.2 }

/-- The environment of an `AUTH_CONT`, with the result of `radius_auth_pass`. -/
def contEnv (env : Env) (ret : ℤ) : Env := { radiusEnv env with authPass := ret }

variable (cfg : Config) (defaultRealm : Option Bytes)

/-- `handle_sec_auth_init` with the module. -/
def sessionInit (req : AuthInitMsg) (env : Env) (e : ClientEntry) : Session :=
  let (ret, ctx) := radiusAuthInit defaultRealm req.userName req.ip
  ⟨(handleAuthInit cfg (initEnv env ret ctx req.groupName) req e).entry, ctx⟩

/-- `handle_sec_auth_cont` with the module. -/
def Session.cont (s : Session) (a : Attempt) : Session :=
  match s.ctx, a.req.password with
  | some ctx, some _ =>
    if s.entry.status = .init ∨ s.entry.status = .cont then
      let (ret, ctx) := radiusAuthPass ctx a.answer
      ⟨(handleAuthCont cfg (contEnv a.env ret) a.req s.entry).entry, some ctx⟩
    else ⟨(handleAuthCont cfg a.env a.req s.entry).entry, s.ctx⟩
  | _, _ => ⟨(handleAuthCont cfg a.env a.req s.entry).entry, s.ctx⟩

/-- An `AUTH_INIT` and the `AUTH_CONT` that follow it. -/
def sessionRun (req : AuthInitMsg) (env : Env) (e : ClientEntry) (attempts : List Attempt) :
    Session :=
  attempts.foldl (Session.cont cfg) (sessionInit cfg defaultRealm req env e)

/-! ### What the attributes denote -/

def ip4Text (vp : ValuePair) : Bytes := inetNtop4 (htonl vp.lvalue)
def ip6Text (vp : ValuePair) : Bytes := inetNtop6 vp.strvalue

/-- The texts of the attributes of one kind, in the order of arrival. -/
def valuesOf (attr : ℕ) (type : ValueType) (text : ValuePair → Bytes) (avps : List ValuePair) :
    List Bytes :=
  (avps.filter fun vp => vp.attr = attr ∧ vp.type = type).map text

/-- The group: that of the last Group-Name. -/
def groupOf (avps : List ValuePair) : Bytes :=
  (valuesOf radGroupName .string ValuePair.strvalue avps).getLast?.getD []

def dns6Of : List ValuePair → List Bytes := valuesOf pwDnsServerIpv6Address .ipv6addr ip6Text

/-- The attribute is a Framed-IPv6-Prefix. -/
def isPrefix (vp : ValuePair) : Prop := vp.attr = pwFramedIpv6Prefix ∧ vp.type = .ipv6Prefix

/-- The attribute is a Framed-Route or a Framed-IPv6-Route. -/
def isRoute (vp : ValuePair) : Prop :=
  (vp.attr = pwFramedRoute ∨ vp.attr = pwFramedIpv6Route) ∧ vp.type = .string

instance : DecidablePred isPrefix := fun _ => inferInstanceAs (Decidable (_ ∧ _))
instance : DecidablePred isRoute := fun _ => inferInstanceAs (Decidable (_ ∧ _))

/-- The text of a prefix: the bytes after the first two, filled up, and the length. -/
def prefixText (vp : ValuePair) : Bytes :=
  let bytes := vp.strvalue.drop 2
  inetNtop6 (bytes ++ List.replicate (16 - bytes.length) 0) ++
    slash :: decimal (vp.strvalue.getD 1 0).toNat

/-- The text of a route before the gateway and the metrics. -/
def destination (vp : ValuePair) : Bytes := vp.strvalue.takeWhile (· ≠ space)

/-- The route of an attribute. -/
def routeOf (vp : ValuePair) : Option Bytes :=
  if isPrefix vp then some (prefixText vp)
  else if isRoute vp && (destination vp).any (· = slash) then some (destination vp)
  else none

/-- The session has what the attributes denote; of a kind that it has once, the last one. -/
structure Denotes (avps : List ValuePair) (msg : SecAuthSessionReplyMsg) : Prop where
  explicitIpv4 : msg.explicitIpv4 = (valuesOf pwFramedIpAddress .ipaddr ip4Text avps).getLast?
  ipv4Netmask : msg.ipv4Netmask = (valuesOf pwFramedIpNetmask .ipaddr ip4Text avps).getLast?
  explicitIpv6 : msg.explicitIpv6 = (valuesOf pwFramedIpv6Address .ipv6addr ip6Text avps).getLast?
  dns : msg.dns = (valuesOf radIpv4Dns1 .ipaddr ip4Text avps).getLast?.toList ++
    (valuesOf radIpv4Dns2 .ipaddr ip4Text avps).getLast?.toList ++ dns6Of avps
  routes : msg.routes = avps.filterMap routeOf

/-- An attribute of an accept for a session with an address, with a value as its type says. -/
structure WellFormed (vp : ValuePair) : Prop where
  framed : vp.attr = pwServiceType → vp.lvalue = pwFramed
  string : vp.type = .string → 0 ∉ vp.strvalue ∧ vp.lvalue.toNat = vp.strvalue.length
  /-- A length is part of the destination, and not of what follows it. -/
  route : isRoute vp → slash ∈ vp.strvalue → slash ∈ destination vp
  /-- A reserved byte, the length of the prefix and its bytes. -/
  prefixValue : vp.type = .ipv6Prefix → vp.strvalue.head? = some 0 ∧
    vp.lvalue.toNat = vp.strvalue.length ∧ 2 ≤ vp.lvalue.toNat ∧ vp.lvalue.toNat ≤ 18

/-! ### What the context holds -/

variable {ctx ctx' : RadiusCtx} {vp : ValuePair} {avps : List ValuePair}

/-- The route that `radius_auth_pass` appends for an attribute: none for a prefix. -/
def appended (vp : ValuePair) : Option Bytes := if isPrefix vp then none else routeOf vp

/-- The context after the attributes `avps`. -/
structure View (avps : List ValuePair) (ctx : RadiusCtx) : Prop where
  groupname : ctx.groupname = strlcpy maxGroupnameSize (groupOf avps)
  ipv4 : ctx.ipv4 = (valuesOf pwFramedIpAddress .ipaddr ip4Text avps).getLast?.getD []
  ipv4Mask : ctx.ipv4Mask = (valuesOf pwFramedIpNetmask .ipaddr ip4Text avps).getLast?.getD []
  ipv4Dns1 : ctx.ipv4Dns1 = (valuesOf radIpv4Dns1 .ipaddr ip4Text avps).getLast?.getD []
  ipv4Dns2 : ctx.ipv4Dns2 = (valuesOf radIpv4Dns2 .ipaddr ip4Text avps).getLast?.getD []
  ipv6 : ctx.ipv6 = (valuesOf pwFramedIpv6Address .ipv6addr ip6Text avps).getLast?.getD []
  ipv6Dns1 : ctx.ipv6Dns1 = (dns6Of avps).head?.getD []
  ipv6Dns2 : ctx.ipv6Dns2 = (dns6Of avps).tail.getLast?.getD []
  routes : ctx.routes = avps.filterMap appended

theorem inetNtop4_htonl_ne (n : UInt32) : inetNtop4 (htonl n) ≠ [] := by
  simp [inetNtop4, htonl, List.intercalate]

theorem hexadecimal_ne (n : ℕ) : hexadecimal n ≠ [] := by
  have h : 0 < (Nat.toDigits 16 n).length := Nat.length_toDigits_pos
  rw [hexadecimal, Ne, List.map_eq_nil_iff]
  exact List.ne_nil_of_length_pos h

/-- The first word has a text, unless the run of zeros starts with it. -/
theorem wordText_zero_ne (src : Bytes) (words : List ℕ) (run : Option (ℕ × ℕ)) :
    wordText src words run 0 ≠ [] := by
  unfold wordText
  dsimp only
  split
  · rename_i h
    rw [if_pos (Nat.le_zero.1 h.1).symm]
    exact List.cons_ne_nil _ _
  · rw [if_pos rfl, if_neg fun h => absurd h.2 (by decide)]
    exact hexadecimal_ne _

theorem inetNtop6_ne (src : Bytes) : inetNtop6 src ≠ [] := by
  have hwords (words : List ℕ) (run : Option (ℕ × ℕ)) (n : ℕ) (t : Bytes) :
      (List.range (n + 1)).flatMap (wordText src words run) ++ t ≠ [] := fun h => by
    have hnil := (List.append_eq_nil_iff.1 h).1
    exact wordText_zero_ne src words run
      (List.flatMap_eq_nil_iff.1 hnil 0 (List.mem_range.2 n.succ_pos))
  unfold inetNtop6
  dsimp only
  split_ifs
  · exact hwords _ _ 6 _
  · exact hwords _ _ 6 _
  · exact hwords _ _ 7 _
  · exact hwords _ _ 7 _

/-- **What one attribute does to the context.** -/
structure Reads (ctx : RadiusCtx) (vp : ValuePair) (ctx' : RadiusCtx) : Prop where
  groupname : ctx'.groupname = if vp.attr = radGroupName ∧ vp.type = .string then
    strlcpy maxGroupnameSize (cString vp.strvalue) else ctx.groupname
  ipv4 : ctx'.ipv4 =
    if vp.attr = pwFramedIpAddress ∧ vp.type = .ipaddr then ip4Text vp else ctx.ipv4
  ipv4Mask : ctx'.ipv4Mask =
    if vp.attr = pwFramedIpNetmask ∧ vp.type = .ipaddr then ip4Text vp else ctx.ipv4Mask
  ipv4Dns1 : ctx'.ipv4Dns1 =
    if vp.attr = radIpv4Dns1 ∧ vp.type = .ipaddr then ip4Text vp else ctx.ipv4Dns1
  ipv4Dns2 : ctx'.ipv4Dns2 =
    if vp.attr = radIpv4Dns2 ∧ vp.type = .ipaddr then ip4Text vp else ctx.ipv4Dns2
  ipv6 : ctx'.ipv6 =
    if vp.attr = pwFramedIpv6Address ∧ vp.type = .ipv6addr then ip6Text vp else ctx.ipv6
  ipv6Dns1 : ctx'.ipv6Dns1 = if (vp.attr = pwDnsServerIpv6Address ∧ vp.type = .ipv6addr) ∧
    ctx.ipv6Dns1 = [] then ip6Text vp else ctx.ipv6Dns1
  ipv6Dns2 : ctx'.ipv6Dns2 = if (vp.attr = pwDnsServerIpv6Address ∧ vp.type = .ipv6addr) ∧
    ctx.ipv6Dns1 ≠ [] then ip6Text vp else ctx.ipv6Dns2
  routes : ctx'.routes = ctx.routes ++ if isPrefix vp ∧ 2 < vp.lvalue ∧ vp.lvalue ≤ 18 ∨ isRoute vp
    then (routeText vp.strvalue vp.lvalue.toNat).toList else []

theorem readPair_reads (ctx : RadiusCtx) (vp : ValuePair) : Reads ctx vp (readPair ctx vp) := by
  unfold readPair
  split
  · rename_i h
    constructor <;> simp +decide [h.1, h.2, isPrefix, isRoute]
  split
  · rename_i h
    constructor <;> simp +decide [h.1, h.2, isPrefix, isRoute, ip6Text]
  split
  · rename_i h
    split <;> rename_i hlen <;> constructor <;>
      simp +decide [h.1, h.2, hlen, isPrefix, isRoute, appendRoute]
  split
  · rename_i h
    split <;> rename_i hfirst <;> rw [List.isEmpty_iff] at hfirst <;> constructor <;>
      simp +decide [h.1, h.2, hfirst, isPrefix, isRoute, ip6Text]
  split
  · rename_i h
    constructor <;> simp +decide [h.1, h.2, isPrefix, isRoute, ip4Text]
  split
  · rename_i h
    constructor <;> simp +decide [h.1, h.2, isPrefix, isRoute, ip4Text]
  split
  · rename_i h
    constructor <;> simp +decide [h.1, h.2, isPrefix, isRoute, ip4Text]
  split
  · rename_i h
    constructor <;> simp +decide [h.1, h.2, isPrefix, isRoute, ip4Text]
  split
  · rename_i h
    constructor <;> simp +decide [h.1, h.2, isPrefix, isRoute, appendRoute]
  split
  · rename_i h
    constructor <;> simp +decide [h.1, h.2, isPrefix, isRoute, appendRoute]
  rename_i h₁ h₂ h₃ h₄ h₅ h₆ h₇ h₈ h₉ h₁₀
  have hr : ¬ isRoute vp := fun h => h.1.elim (fun ha => h₉ ⟨ha, h.2⟩) fun ha => h₁₀ ⟨ha, h.2⟩
  constructor <;> simp [h₁, h₂, h₄, h₅, h₆, h₇, h₈, isPrefix, h₃, hr]

theorem valuesOf_concat (attr : ℕ) (type : ValueType) (text : ValuePair → Bytes)
    (avps : List ValuePair) (vp : ValuePair) :
    valuesOf attr type text (avps ++ [vp]) =
      if vp.attr = attr ∧ vp.type = type then valuesOf attr type text avps ++ [text vp]
      else valuesOf attr type text avps := by
  rw [valuesOf, List.filter_append, List.map_append]
  split_ifs with h
  · rw [List.filter_singleton, decide_eq_true h]
    rfl
  · rw [List.filter_singleton, decide_eq_false h]
    exact List.append_nil _

/-- A buffer that is written for every attribute of a kind holds the last value. -/
theorem last_concat {attr : ℕ} {type : ValueType} {text : ValuePair → Bytes} {buf buf' : Bytes}
    (h : buf = (valuesOf attr type text avps).getLast?.getD [])
    (hread : buf' = if vp.attr = attr ∧ vp.type = type then text vp else buf) :
    buf' = (valuesOf attr type text (avps ++ [vp])).getLast?.getD [] := by
  rw [hread, valuesOf_concat]
  split_ifs
  · rw [List.getLast?_concat, Option.getD_some]
  · exact h

theorem cString_of_notMem {s : Bytes} (h : 0 ∉ s) : cString s = s :=
  List.takeWhile_eq_self_iff.2 fun c hc => by
    have : c ≠ 0 := fun h0 => h (h0 ▸ hc)
    simpa using this

/-- A text is its part before the first blank, and what follows from there. -/
theorem exists_rest (s : Bytes) : ∃ rest, s = s.takeWhile (· ≠ space) ++ rest ∧
    (rest = [] ∨ ∃ rest', rest = space :: rest') := by
  refine ⟨s.dropWhile (· ≠ space), List.takeWhile_append_dropWhile.symm, ?_⟩
  have hhead := List.head?_dropWhile_not (· ≠ space) s
  cases hrest : s.dropWhile (· ≠ space) with
  | nil => exact Or.inl rfl
  | cons c rest =>
    rw [hrest] at hhead
    have hc : c = space := by simpa using hhead
    exact Or.inr ⟨rest, by rw [hc]⟩

/-- **The text that is kept of a route**: its destination. -/
theorem routeText_eq {s : Bytes} (h₀ : 0 ∉ s)
    (hslash : slash ∈ s → slash ∈ s.takeWhile (· ≠ space)) :
    routeText s s.length = if (s.takeWhile (· ≠ space)).any (· = slash) then
      some (s.takeWhile (· ≠ space)) else none := by
  obtain ⟨rest, hs, hrest⟩ := exists_rest s
  have hblank : ∀ c ∈ s.takeWhile (· ≠ space), c ≠ space := fun c hc => by
    simpa using List.mem_takeWhile_imp hc
  generalize s.takeWhile (· ≠ space) = dest at hs hslash hblank
  rw [routeText, strchr, cString_of_notMem h₀]
  by_cases hmem : slash ∈ dest
  · rw [if_pos (List.any_eq_true.2 ⟨slash, hmem, decide_eq_true rfl⟩)]
    obtain ⟨p, hp⟩ : ∃ p, dest.findIdx? (· = slash) = some p :=
      Option.isSome_iff_exists.1 (List.findIdx?_isSome ▸
        List.any_eq_true.2 ⟨slash, hmem, decide_eq_true rfl⟩)
    have hlt : p < dest.length := (List.findIdx?_eq_some_iff_getElem.1 hp).1
    have hnone : (dest.drop p).findIdx? (· = space) = none :=
      List.findIdx?_eq_none_iff.2 fun c hc =>
        decide_eq_false (hblank c (List.mem_of_mem_drop hc))
    have hdrop : s.drop p = dest.drop p ++ rest := by
      rw [hs, List.drop_append_of_le_length hlt.le]
    have hchr : strchr space (s.drop p) =
        (rest.findIdx? (· = space)).map (· + (dest.length - p)) := by
      rw [strchr, cString_of_notMem fun h => h₀ (List.mem_of_mem_drop h), hdrop,
        List.findIdx?_append, hnone, Option.none_or, List.length_drop]
    have hfound : s.findIdx? (· = slash) = some p := by
      rw [hs, List.findIdx?_append, hp, Option.some_or]
    rw [hfound, Option.map_some, hchr]
    rcases hrest with rfl | ⟨rest', rfl⟩
    · rw [List.findIdx?_nil, Option.map_none]
      dsimp only
      rw [List.take_length, hs, List.append_nil]
    · rw [List.findIdx?_cons, if_pos (decide_eq_true rfl), Option.map_some]
      dsimp only
      rw [show p + (0 + (dest.length - p)) = dest.length by omega, hs, List.take_left]
  · have hnot : slash ∉ s := fun h => hmem (hslash h)
    have hany : ¬ dest.any (· = slash) = true := fun h => by
      obtain ⟨c, hc, heq⟩ := List.any_eq_true.1 h
      exact hmem (of_decide_eq_true heq ▸ hc)
    rw [if_neg hany, Option.map_eq_none_iff, List.findIdx?_eq_none_iff]
    exact fun c hc => decide_eq_false fun heq => hnot (heq ▸ hc)

theorem appended_eq (h : WellFormed vp) : (appended vp).toList =
    if isPrefix vp ∧ 2 < vp.lvalue ∧ vp.lvalue ≤ 18 ∨ isRoute vp then
      (routeText vp.strvalue vp.lvalue.toNat).toList else [] := by
  by_cases hkind : isPrefix vp
  · -- the reserved byte ends the string
    obtain ⟨hhead, -⟩ := h.prefixValue hkind.2
    have hnone : routeText vp.strvalue vp.lvalue.toNat = none := by
      obtain ⟨rest, hrest⟩ := List.head?_eq_some_iff.1 hhead
      rw [routeText, strchr, hrest, cString, List.takeWhile_cons_of_neg (by simp)]
      rfl
    rw [appended, if_pos hkind, hnone]
    split_ifs <;> rfl
  · rw [appended, if_neg hkind, routeOf, if_neg hkind]
    by_cases hroute : isRoute vp
    · obtain ⟨h₀, hlen⟩ := h.string hroute.2
      rw [if_pos (Or.inr hroute), hlen, routeText_eq h₀ (h.route hroute)]
      simp [hroute, destination]
    · simp [hroute, hkind]

theorem dns6Of_ne {server : Bytes} (h : server ∈ dns6Of avps) : server ≠ [] := by
  obtain ⟨vp, -, rfl⟩ := List.mem_map.1 h
  exact inetNtop6_ne _

/-- The two buffers for DNS servers: the first is written while it is empty. -/
theorem View.dns6 (h : View avps ctx) (hread : Reads ctx vp ctx') :
    ctx'.ipv6Dns1 = (dns6Of (avps ++ [vp])).head?.getD [] ∧
      ctx'.ipv6Dns2 = (dns6Of (avps ++ [vp])).tail.getLast?.getD [] := by
  have hconcat : dns6Of (avps ++ [vp]) = _ := valuesOf_concat _ _ ip6Text avps vp
  by_cases hkind : vp.attr = pwDnsServerIpv6Address ∧ vp.type = .ipv6addr
  · rw [if_pos hkind] at hconcat
    change _ = dns6Of avps ++ _ at hconcat
    rw [hconcat, hread.ipv6Dns1, hread.ipv6Dns2]
    have hfirst := h.ipv6Dns1
    have hsecond := h.ipv6Dns2
    cases hdns : dns6Of avps with
    | nil =>
      rw [hdns] at hfirst hsecond
      rw [if_pos ⟨hkind, hfirst⟩, if_neg fun hc => hc.2 hfirst]
      exact ⟨rfl, hsecond⟩
    | cons server servers =>
      rw [hdns] at hfirst
      have hmem : server ∈ dns6Of avps := hdns ▸ List.mem_cons_self
      have hne : ctx.ipv6Dns1 ≠ [] := fun hc => dns6Of_ne hmem (hfirst.symm.trans hc)
      rw [if_neg fun hc => hne hc.2, if_pos ⟨hkind, hne⟩]
      refine ⟨hfirst, ?_⟩
      rw [List.cons_append, List.tail_cons, List.getLast?_concat, Option.getD_some]
  · rw [if_neg hkind] at hconcat
    rw [hconcat, hread.ipv6Dns1, hread.ipv6Dns2, if_neg fun hc => hkind hc.1,
      if_neg fun hc => hkind hc.1]
    exact ⟨h.ipv6Dns1, h.ipv6Dns2⟩

theorem View.readPair (h : View avps ctx) (hwf : WellFormed vp) :
    View (avps ++ [vp]) (readPair ctx vp) := by
  have hread := readPair_reads ctx vp
  refine ⟨?_, last_concat h.ipv4 hread.ipv4, last_concat h.ipv4Mask hread.ipv4Mask,
    last_concat h.ipv4Dns1 hread.ipv4Dns1, last_concat h.ipv4Dns2 hread.ipv4Dns2,
    last_concat h.ipv6 hread.ipv6, (h.dns6 hread).1, (h.dns6 hread).2, ?_⟩
  · rw [hread.groupname, groupOf, valuesOf_concat]
    split_ifs with hkind
    · rw [cString_of_notMem (hwf.string hkind.2).1, List.getLast?_concat, Option.getD_some]
    · exact h.groupname
  · rw [hread.routes, h.routes, List.filterMap_append, ← appended_eq hwf,
      List.append_cancel_left_eq]
    cases happ : appended vp with
    | none => rw [List.filterMap_cons_none happ]; rfl
    | some route => rw [List.filterMap_cons_some happ]; rfl

/-- **The context after a list of attributes**, all of which are read. -/
theorem readPairs_view {rest : List ValuePair} (h : View avps ctx)
    (hwf : ∀ vp ∈ rest, WellFormed vp) :
    ∃ ctx', readPairs ctx rest = (ctx', true) ∧ View (avps ++ rest) ctx' := by
  induction rest generalizing avps ctx with
  | nil => exact ⟨ctx, rfl, by rwa [List.append_nil]⟩
  | cons vp rest ih =>
    have hvp := hwf vp List.mem_cons_self
    obtain ⟨ctx', hctx', hview⟩ := ih (h.readPair hvp) fun v hv => hwf v (List.mem_cons_of_mem _ hv)
    refine ⟨ctx', ?_, by rwa [List.append_assoc] at hview⟩
    rw [readPairs, if_neg fun hservice => hservice.2 (hvp.framed hservice.1)]
    exact hctx'

/-! ### The configuration of the session -/

theorem ip4_ne {attr : ℕ} {type : ValueType} {text : Bytes}
    (h : text ∈ valuesOf attr type ip4Text avps) : text ≠ [] := by
  obtain ⟨vp, -, rfl⟩ := List.mem_map.1 h
  exact inetNtop4_htonl_ne _

theorem ip6_ne {attr : ℕ} {type : ValueType} {text : Bytes}
    (h : text ∈ valuesOf attr type ip6Text avps) : text ≠ [] := by
  obtain ⟨vp, -, rfl⟩ := List.mem_map.1 h
  exact inetNtop6_ne _

theorem strdupSet_getD {text : Option Bytes} (h : ∀ t ∈ text, t ≠ []) :
    strdupSet (text.getD []) none = text := by
  cases text with
  | none => rfl
  | some t =>
    have ht : ¬ t.isEmpty = true := fun hc => h t rfl (List.isEmpty_iff.1 hc)
    rw [strdupSet, Option.getD_some, if_neg ht]

/-- The buffers that were written. -/
theorem filter_getD {texts : List (Option Bytes)} (h : ∀ text ∈ texts, ∀ t ∈ text, t ≠ []) :
    (texts.map (·.getD [])).filter (!·.isEmpty) = texts.flatMap Option.toList := by
  induction texts with
  | nil => rfl
  | cons text texts ih =>
    have ih := ih fun t ht => h t (List.mem_cons_of_mem _ ht)
    rw [List.map_cons, List.flatMap_cons, ← ih]
    cases text with
    | none => rfl
    | some t =>
      have ht : (!t.isEmpty) = true := by
        simpa using h (some t) List.mem_cons_self t rfl
      exact List.filter_cons_of_pos ht

/-- The first and the last of a list: the whole list only if it has no more than two. -/
theorem firstLast_eq_iff {α : Type*} (l : List α) :
    l.head?.toList ++ l.tail.getLast?.toList = l ↔ l.length ≤ 2 := by
  match l with
  | [] => simp
  | [a] => simp
  | [a, b] => simp
  | a :: b :: c :: l =>
    constructor
    · intro h
      have hlen := congrArg List.length h
      simp [List.getLast?_cons] at hlen
    · intro h
      simp at h

/-- The routes of the prefixes are the ones that are missing. -/
theorem length_routes (avps : List ValuePair) : (avps.filterMap routeOf).length =
    (avps.filterMap appended).length + avps.countP (isPrefix ·) := by
  induction avps with
  | nil => rfl
  | cons vp avps ih =>
    rw [List.filterMap_cons, List.filterMap_cons, List.countP_cons, appended]
    by_cases h : isPrefix vp
    · have hroute : routeOf vp = some (prefixText vp) := by rw [routeOf, if_pos h]
      rw [hroute, if_pos h, if_pos (decide_eq_true h), List.length_cons, ih]
      rfl
    · rw [if_neg h, if_neg (by simpa using h), Nat.add_zero]
      cases routeOf vp with
      | none => exact ih
      | some route =>
        dsimp only
        rw [List.length_cons, List.length_cons, ih]
        omega

theorem routes_eq_iff (avps : List ValuePair) :
    avps.filterMap appended = avps.filterMap routeOf ↔ ∀ vp ∈ avps, ¬ isPrefix vp := by
  constructor
  · intro h vp hvp hkind
    have hlen := length_routes avps
    rw [h] at hlen
    have hpos : 0 < avps.countP (isPrefix ·) :=
      List.countP_pos_iff.2 ⟨vp, hvp, decide_eq_true hkind⟩
    omega
  · intro h
    refine List.filterMap_congr fun vp hvp => ?_
    rw [appended, if_neg (h vp hvp)]

/-- **The configuration is the one the attributes denote** if no route comes from a prefix and no
DNS server gets lost. -/
theorem denotes_iff (h : View avps ctx) : Denotes avps (getSupConfig (some ctx) .init) ↔
    (∀ vp ∈ avps, ¬ isPrefix vp) ∧ (dns6Of avps).length ≤ 2 := by
  have hroutes : (getSupConfig (some ctx) .init).routes = avps.filterMap appended := by
    have hctx : (getSupConfig (some ctx) .init).routes = ctx.routes := by
      cases hr : ctx.routes with
      | nil => simp [getSupConfig, hr, SecAuthSessionReplyMsg.init]
      | cons r rs => simp [getSupConfig, hr]
    rw [hctx, h.routes]
  have hdns : (getSupConfig (some ctx) .init).dns =
      (valuesOf radIpv4Dns1 .ipaddr ip4Text avps).getLast?.toList ++
        (valuesOf radIpv4Dns2 .ipaddr ip4Text avps).getLast?.toList ++
          ((dns6Of avps).head?.toList ++ (dns6Of avps).tail.getLast?.toList) := by
    have hbuf : [ctx.ipv4Dns1, ctx.ipv4Dns2, ctx.ipv6Dns1, ctx.ipv6Dns2] =
        [(valuesOf radIpv4Dns1 .ipaddr ip4Text avps).getLast?,
          (valuesOf radIpv4Dns2 .ipaddr ip4Text avps).getLast?, (dns6Of avps).head?,
          (dns6Of avps).tail.getLast?].map (·.getD []) := by
      rw [h.ipv4Dns1, h.ipv4Dns2, h.ipv6Dns1, h.ipv6Dns2]
      rfl
    have hne : ∀ text ∈ [(valuesOf radIpv4Dns1 .ipaddr ip4Text avps).getLast?,
        (valuesOf radIpv4Dns2 .ipaddr ip4Text avps).getLast?, (dns6Of avps).head?,
        (dns6Of avps).tail.getLast?], ∀ t ∈ text, t ≠ [] := by
      intro text htext t ht
      simp only [List.mem_cons, List.not_mem_nil, or_false] at htext
      rcases htext with rfl | rfl | rfl | rfl
      · exact ip4_ne (List.mem_of_getLast? ht)
      · exact ip4_ne (List.mem_of_getLast? ht)
      · exact dns6Of_ne (List.mem_of_head? ht)
      · exact dns6Of_ne (List.mem_of_mem_tail (List.mem_of_getLast? ht))
    have hfilter := filter_getD hne
    rw [← hbuf] at hfilter
    have hset : (getSupConfig (some ctx) .init).dns =
        [ctx.ipv4Dns1, ctx.ipv4Dns2, ctx.ipv6Dns1, ctx.ipv6Dns2].filter (!·.isEmpty) := by
      rw [getSupConfig]
      dsimp only
      split_ifs with hpos
      · rfl
      · rw [List.eq_nil_of_length_eq_zero (Nat.eq_zero_of_not_pos hpos)]
        rfl
    rw [hset, hfilter]
    simp
  constructor
  · intro hd
    have hr := hd.routes
    have hs := hd.dns
    rw [hroutes, routes_eq_iff] at hr
    rw [hdns, List.append_cancel_left_eq, firstLast_eq_iff] at hs
    exact ⟨hr, hs⟩
  · rintro ⟨hr, hs⟩
    refine ⟨?_, ?_, ?_, ?_, ?_⟩
    · rw [← strdupSet_getD fun t ht => ip4_ne (List.mem_of_getLast? ht), ← h.ipv4]
      rfl
    · rw [← strdupSet_getD fun t ht => ip4_ne (List.mem_of_getLast? ht), ← h.ipv4Mask]
      rfl
    · rw [← strdupSet_getD fun t ht => ip6_ne (List.mem_of_getLast? ht), ← h.ipv6]
      rfl
    · rw [hdns, (firstLast_eq_iff _).2 hs]
    · rw [hroutes, (routes_eq_iff _).2 hr]

/-! ### The handlers -/

variable {cfg : Config} {env : Env} {e : ClientEntry}

/-- Sec-mod itself works: the reply is sent, main answers a report to the ban list, and the cookie
is made. -/
structure Works (cfg : Config) (env : Env) : Prop where
  sendOk : env.sendOk = true
  banReply : 0 ≤ env.banReply.ret
  cookie : ∀ e, generateCookie cfg env e ≠ none

theorem getAuthMsg_works (hmsg : env.authMsg = 0) (e : ClientEntry) (result : ℤ) :
    ¬ (getAuthMsg env e result).ret < 0 := by
  unfold getAuthMsg
  repeat' split
  all_goals simp [hmsg]

/-- A request for another password is passed on. -/
theorem handleAuthRes_continue (hworks : Works cfg env) (hmsg : env.authMsg = 0)
    (e : ClientEntry) : (handleAuthRes cfg env e errAuthContinue).entry =
      { (getAuthMsg env e errAuthContinue).entry with msgStr := none } := by
  have hreply (e : ClientEntry) :
      (sendAuthReplyMsg env e).orFail.entry = { e with msgStr := none } := by
    simp [sendAuthReplyMsg, hworks.sendOk, Out.orFail]
  have hscore (e : ClientEntry) (n : ℕ) : ¬ (addScoreToIp cfg env e n).2 < 0 := by
    have hban := hworks.banReply
    unfold addScoreToIp
    split_ifs
    · exact lt_irrefl 0
    · exact lt_irrefl 0
    · exact not_lt.2 hban
    · exact not_lt.2 hban
  rw [handleAuthRes]
  rw [if_neg (getAuthMsg_works hmsg e _), if_pos rfl, Out.after, handleAuthContinue]
  dsimp only
  split_ifs with hretries hfail
  · exact absurd hfail (hscore _ _)
  · exact hreply _
  · exact hreply _

/-- The authentication is completed. -/
theorem handleAuthRes_zero (hworks : Works cfg env) (hmsg : env.authMsg = 0) (e : ClientEntry) :
    (handleAuthRes cfg env e 0).entry.status = .completed := by
  have hreply (e : ClientEntry) :
      (sendAuthReplyOk cfg env e).orFail.entry.status = e.status := by
    cases hcookie : generateCookie cfg env e with
    | none => exact absurd hcookie (hworks.cookie e)
    | some made =>
      simp [sendAuthReplyOk, hcookie, hworks.sendOk, Out.orFail]
  have huser (e : ClientEntry) : (getAuthUser env e).entry.status = e.status := by
    unfold getAuthUser
    split <;> rfl
  rw [handleAuthRes]
  rw [if_neg (getAuthMsg_works hmsg e _), if_neg (by decide), if_pos rfl, Out.after,
    handleAuthSuccess]
  dsimp only [Out.after]
  rw [hreply, huser]
  rfl

/-- Unless the entry fails, its group stays. -/
theorem handleAuthRes_groupname {result : ℤ}
    (h : (handleAuthRes cfg env e result).entry.status ≠ .failed) :
    (handleAuthRes cfg env e result).entry.groupname = e.groupname := by
  cases handleAuthRes_names cfg env e result with
  | failed hf => exact absurd hf h
  | goesOn _ _ hgroup => exact hgroup
  | completed _ _ hgroup => exact hgroup

/-- A password is given to the module. -/
theorem handleAuthCont_asks {req : AuthContMsg} {m : AuthMod}
    (hopen : e.status = .init ∨ e.status = .cont) (hmodule : e.module = some m)
    (hpass : req.password ≠ none) : (handleAuthCont cfg env req e).entry =
      (handleAuthRes cfg env (e.setStatus .cont) env.authPass).entry := by
  have hstatus : ¬ (e.status ≠ .init ∧ e.status ≠ .cont) := by
    rcases hopen with h | h <;> simp [h]
  rw [handleAuthCont, if_neg hstatus, if_neg hpass, hmodule]
  rfl

theorem handleAuthCont_failed (req : AuthContMsg) (h : e.status = .failed) :
    (handleAuthCont cfg env req e).entry.status = .failed := by
  have hstatus := handleAuthCont_status cfg env req e []
  dsimp only at hstatus
  rcases hstatus with hf | ⟨hopen | hopen, -⟩
  · exact hf
  · cases h.symm.trans hopen
  · cases h.symm.trans hopen

/-! ### A run -/

section Run

/-- The authentication goes on: no attribute has been read, and `n` passwords were refused. -/
structure Pending (s : Session) (n : ℕ) : Prop where
  status : s.entry.status = .init ∨ s.entry.status = .cont
  module_eq : s.entry.module = some .radius
  groupname : s.entry.groupname = []
  ctx : ∃ ctx, s.ctx = some ctx ∧ View [] ctx ∧ ctx.retries = n

theorem View.of_same (h : View avps ctx) (passMsg : PassMsg) (retries : ℕ) :
    View avps { ctx with passMsg := passMsg, retries := retries } :=
  ⟨h.groupname, h.ipv4, h.ipv4Mask, h.ipv4Dns1, h.ipv4Dns2, h.ipv6, h.ipv6Dns1, h.ipv6Dns2,
    h.routes⟩

variable {s : Session} {a : Attempt} {n : ℕ}

/-- What an attempt does while the authentication goes on. -/
theorem Session.cont_eq (hopen : s.entry.status = .init ∨ s.entry.status = .cont)
    (hmodule : s.entry.module = some .radius) (hctx : s.ctx = some ctx)
    (hpass : a.req.password ≠ none) : (s.cont cfg a).ctx = some (radiusAuthPass ctx a.answer).2 ∧
      (s.cont cfg a).entry = (handleAuthRes cfg (contEnv a.env (radiusAuthPass ctx a.answer).1)
        (s.entry.setStatus .cont) (radiusAuthPass ctx a.answer).1).entry := by
  obtain ⟨pass, hpass'⟩ := Option.ne_none_iff_exists'.1 hpass
  rw [Session.cont, hctx, hpass']
  dsimp only
  rw [if_pos hopen]
  exact ⟨rfl, handleAuthCont_asks hopen hmodule hpass⟩

theorem Works.contEnv (h : Works cfg env) (ret : ℤ) : Works cfg (contEnv env ret) :=
  ⟨h.sendOk, h.banReply, h.cookie⟩

/-- The module asks for another password. -/
theorem Pending.again (h : Pending s n) (hworks : Works cfg a.env) (hpass : a.req.password ≠ none)
    {m : ℕ} (hagain : ∀ ctx, View [] ctx → ctx.retries = n →
      ∃ ctx', radiusAuthPass ctx a.answer = (errAuthContinue, ctx') ∧ View [] ctx' ∧
        ctx'.retries = m) : Pending (s.cont cfg a) m := by
  obtain ⟨ctx, hctx, hview, hn⟩ := h.ctx
  obtain ⟨ctx', hpassed, hview', hm⟩ := hagain ctx hview hn
  obtain ⟨hctx', hentry⟩ := Session.cont_eq h.status h.module_eq hctx hpass
  rw [hpassed] at hctx' hentry
  have hres := handleAuthRes_continue (hworks.contEnv errAuthContinue) rfl (s.entry.setStatus .cont)
  have hstatus : (s.cont cfg a).entry.status = .cont := by
    rw [hentry, hres, getAuthMsg]
    repeat' split
    all_goals rfl
  refine ⟨Or.inr hstatus, ?_, ?_, ctx', hctx', hview', hm⟩
  · rw [hentry, (handleAuthRes_frame cfg _ _ _).module_eq]
    exact h.module_eq
  · rw [hentry] at hstatus ⊢
    rw [handleAuthRes_groupname (by rw [hstatus]; nofun)]
    exact h.groupname

/-- The accept is read. -/
theorem Pending.accept (h : Pending s n) (hworks : Works cfg a.env) (hpass : a.req.password ≠ none)
    (hanswer : a.answer = .ok avps) (hwf : ∀ vp ∈ avps, WellFormed vp) :
    (s.cont cfg a).entry.status = .completed ∧ (s.cont cfg a).entry.groupname = [] ∧
      ∃ ctx, (s.cont cfg a).ctx = some ctx ∧ View avps ctx := by
  obtain ⟨ctx, hctx, hview, -⟩ := h.ctx
  obtain ⟨ctx', hread, hview'⟩ := readPairs_view hview hwf
  have hpassed : radiusAuthPass ctx a.answer = (0, ctx') := by
    rw [hanswer, radiusAuthPass, hread]
  obtain ⟨hctx', hentry⟩ := Session.cont_eq h.status h.module_eq hctx hpass
  rw [hpassed] at hctx' hentry
  have hstatus := handleAuthRes_zero (hworks.contEnv 0) rfl (s.entry.setStatus .cont)
  refine ⟨hentry ▸ hstatus, ?_, ctx', hctx', hview'⟩
  rw [hentry, handleAuthRes_groupname (by rw [hstatus]; nofun)]
  exact h.groupname

theorem failed_foldl (attempts : List Attempt) (h : s.entry.status = .failed) :
    (attempts.foldl (Session.cont cfg) s).entry.status = .failed := by
  induction attempts generalizing s with
  | nil => exact h
  | cons a attempts ih =>
    refine ih ?_
    unfold Session.cont
    split
    · split
      · exact handleAuthCont_failed _ h
      · exact handleAuthCont_failed _ h
    · exact handleAuthCont_failed _ h

theorem certGroup_groupname {req : AuthInitMsg} {e' : ClientEntry}
    (h : certGroup cfg req e = some e') (hgroup : e.groupname = [])
    (hreq : req.groupName.getD [] = []) : e'.groupname = [] ∧ e'.username = e.username := by
  unfold certGroup at h
  split at h
  · cases h
    exact ⟨hgroup, rfl⟩
  · split at h
    · cases h
      exact ⟨hgroup, rfl⟩
    · rename_i name hname
      rw [hname] at hreq
      have hname : name = [] := hreq
      split at h
      · split at h
        · cases h
          exact ⟨by rw [hname]; rfl, rfl⟩
        · cases h
      · cases h
        exact ⟨hgroup, rfl⟩

theorem checkUserGroupStatus_groupname {req : AuthInitMsg} (h : e.username ≠ []) :
    (checkUserGroupStatus cfg req e).1.groupname = e.groupname := by
  unfold checkUserGroupStatus
  dsimp only
  split
  · rfl
  · split
    · rfl
    · rw [if_neg fun hc => h hc.1]
      repeat' split
      all_goals rfl

/-- The checks of the certificate succeed, where the method has one. -/
def Certified (cfg : Config) (method : AuthMethod) (req : AuthInitMsg) : Prop :=
  ∀ e, e.authType = method.type → e.username = requestedUser method req → e.groupname = [] →
    ∃ e', certGroup cfg req e = some e' ∧ (checkUserGroupStatus cfg req e').2 = true

/-- A run in which a password is accepted: after challenges and refusals, as many as the module
allows, the server answers with an accept, and nothing else goes wrong. -/
structure Regular (cfg : Config) (method : AuthMethod) (req : AuthInitMsg) (env : Env)
    (earlier : List Attempt) (last : Attempt) : Prop where
  method_eq : setModule cfg req.authType = some method
  radius : method.amod = some .radius
  user : req.userName.getD [] ≠ []
  certified : Certified cfg method req
  works : Works cfg env
  attempts : ∀ a ∈ earlier ++ [last], Works cfg a.env ∧ a.req.password ≠ none
  refused : ∀ a ∈ earlier, a.answer = .challenge ∨ a.answer = .error
  tries : earlier.countP (·.answer = .error) < maxPasswordTries

variable {method : AuthMethod} {req : AuthInitMsg} {defaultRealm : Option Bytes}
  {earlier : List Attempt} {last : Attempt} {st : SecModSt}

theorem view_nil (username remoteIp : Bytes) :
    View [] { username := username, remoteIp := remoteIp } :=
  ⟨rfl, rfl, rfl, rfl, rfl, rfl, rfl, rfl, rfl⟩

/-- `radius_auth_init` makes an empty context. -/
theorem radiusAuthInit_spec {username : Option Bytes} (h : username.getD [] ≠ []) (ip : Bytes) :
    ∃ ctx, radiusAuthInit defaultRealm username ip = (.askMore, some ctx) ∧ View [] ctx ∧
      ctx.retries = 0 := by
  unfold radiusAuthInit
  split
  · exact absurd rfl h
  · exact absurd rfl h
  · exact ⟨_, rfl, view_nil _ _, rfl⟩

/-- **The group that was requested is compared with none**: at that time the module knows no
group. -/
theorem radiusAuthGroup_view (h : View [] ctx) (suggested : Option Bytes) :
    radiusAuthGroup ctx suggested = (if suggested.getD [] = [] then 0 else -1, []) := by
  have hgroup : ctx.groupname = [] := h.groupname
  cases suggested with
  | none =>
    rw [radiusAuthGroup, hgroup]
    rfl
  | some group =>
    rw [radiusAuthGroup, hgroup, Option.getD_some]
    split_ifs <;> rfl

theorem initModule_radius (hinit : env.authInit.1 = errAuthContinue)
    (hmodule : e.module = some .radius) :
    (env.authGroup = 0 → ∃ e' calls, initModule env req e = (e', calls, .ok true)) ∧
      (env.authGroup ≠ 0 → ∃ e' calls, initModule env req e = (e', calls, .error (-1))) := by
  have hcont : ¬ (env.authInit.1 ≠ errAuthContinue ∧ env.authInit.1 < 0) :=
    fun h => h.1 hinit
  constructor
  · intro hgroup
    unfold initModule
    rw [hmodule]
    dsimp only
    rw [if_neg hcont, if_neg (not_not.2 hgroup), hinit]
    exact ⟨_, _, rfl⟩
  · intro hgroup
    unfold initModule
    rw [hmodule]
    dsimp only
    rw [if_neg hcont, if_pos hgroup]
    exact ⟨_, _, rfl⟩

variable (defaultRealm) in
/-- **`AUTH_INIT`**: the authentication goes on, unless a group was requested. -/
theorem sessionInit_spec (h : Regular cfg method req env earlier last)
    (hnew : newClientEntry env st req.ip = some e) :
    (req.groupName.getD [] = [] → Pending (sessionInit cfg defaultRealm req env e) 0) ∧
      (req.groupName.getD [] ≠ [] →
        (sessionInit cfg defaultRealm req env e).entry.status = .failed) := by
  obtain ⟨ctx, hctx, hview, hretries⟩ := @radiusAuthInit_spec defaultRealm _ h.user req.ip
  obtain ⟨hname, hgroupname⟩ := newClientEntry_names hnew
  have hgroup := radiusAuthGroup_view hview req.groupName
  rw [sessionInit, hctx]
  dsimp only
  -- what the handler finds
  have hchoose : (chooseMethod req method e).module = some .radius := h.radius
  have henv : (initEnv env .askMore (some ctx) req.groupName).authGroup =
      if req.groupName.getD [] = [] then 0 else -1 := congrArg Prod.fst hgroup
  have henvName : (initEnv env .askMore (some ctx) req.groupName).authGroupName = [] :=
    congrArg Prod.snd hgroup
  have hworks : Works cfg (initEnv env .askMore (some ctx) req.groupName) :=
    ⟨h.works.sendOk, h.works.banReply, h.works.cookie⟩
  have hmsg : (initEnv env .askMore (some ctx) req.groupName).authMsg = 0 := rfl
  have hauthInit : (initEnv env .askMore (some ctx) req.groupName).authInit =
      errAuthContinue := rfl
  obtain ⟨hok, herr⟩ := @initModule_radius _ _ req hauthInit hchoose
  generalize initEnv env .askMore (some ctx) req.groupName = env' at *
  rw [handleAuthInit, h.method_eq]
  dsimp only
  constructor
  · intro hnone
    obtain ⟨e₁, calls, hinit⟩ := hok (by rw [henv, if_pos hnone])
    obtain ⟨hmod₁, htype₁, huser₁, hgroup₁⟩ := initModule_names hname hgroupname hinit
    have hgroup₁ : e₁.groupname = [] := by
      rw [hgroup₁, moduleGroup, henvName]
      split_ifs <;> rfl
    obtain ⟨e₂, hcert, hcheck⟩ := h.certified e₁ htype₁ huser₁ hgroup₁
    obtain ⟨hgroup₂, huser₂⟩ := certGroup_groupname hcert hgroup₁ hnone
    have huser : e₂.username ≠ [] := by
      obtain ⟨name, hreq, hne⟩ : ∃ name, req.userName = some name ∧ name ≠ [] := by
        cases hreq : req.userName with
        | none => exact absurd (by rw [hreq]; rfl) h.user
        | some name => exact ⟨name, rfl, fun hc => h.user (by rw [hreq, hc]; rfl)⟩
      rw [huser₂, huser₁, requestedUser, h.radius, hreq]
      obtain ⟨c, name, rfl⟩ := List.exists_cons_of_ne_nil hne
      exact List.cons_ne_nil _ _
    have hgroup₃ := @checkUserGroupStatus_groupname cfg e₂ req huser
    have hmod₃ := (checkUserGroupStatus_frame cfg req e₂).2
    rw [hinit]
    dsimp only
    rw [hcert]
    dsimp only
    cases hcheck' : checkUserGroupStatus cfg req e₂ with
    | mk e₃ ok =>
      rw [hcheck'] at hcheck hgroup₃ hmod₃
      obtain rfl : ok = true := hcheck
      dsimp only
      have hres := handleAuthRes_continue hworks hmsg (e₃.setStatus .init)
      have hmsg₃ := getAuthMsg_frame env' (e₃.setStatus .init) errAuthContinue
      have hnames := getAuthMsg_names env' (e₃.setStatus .init) errAuthContinue
      have hstatus : (getAuthMsg env' (e₃.setStatus .init) errAuthContinue).entry.status =
          .init := by
        unfold getAuthMsg
        repeat' split
        all_goals rfl
      refine ⟨Or.inl ?_, ?_, ?_, ctx, rfl, hview, hretries⟩
      · rw [if_pos rfl, Out.after, hres]
        exact hstatus
      · rw [if_pos rfl, Out.after, hres]
        exact hmsg₃.module_eq.trans (hmod₃.trans ((certGroup_frame hcert).2.trans
          (hmod₁.trans h.radius)))
      · rw [if_pos rfl, Out.after, hres]
        exact hnames.2.trans (hgroup₃.trans hgroup₂)
  · intro hsome
    obtain ⟨e₁, calls, hinit⟩ := herr (by rw [henv, if_neg hsome]; decide)
    rw [hinit]
    exact handleAuthRes_error (by decide) (by decide)

/-- The attempts before the accept. -/
theorem pending_foldl (h : Pending s n) (hattempts : ∀ a ∈ earlier, Works cfg a.env ∧
    a.req.password ≠ none) (hrefused : ∀ a ∈ earlier, a.answer = .challenge ∨ a.answer = .error)
    (htries : n + earlier.countP (·.answer = .error) < maxPasswordTries) :
    ∃ m, Pending (earlier.foldl (Session.cont cfg) s) m := by
  induction earlier generalizing s n with
  | nil => exact ⟨n, h⟩
  | cons a earlier ih =>
    obtain ⟨hworks, hpass⟩ := hattempts a List.mem_cons_self
    have hrest := fun b hb => hattempts b (List.mem_cons_of_mem _ hb)
    have hrefused' := fun b hb => hrefused b (List.mem_cons_of_mem _ hb)
    rw [List.countP_cons] at htries
    rw [List.foldl_cons]
    rcases hrefused a List.mem_cons_self with hanswer | hanswer
    · refine ih (h.again hworks hpass fun ctx hview hn => ?_) hrest hrefused' (n := n) ?_
      · exact ⟨_, by rw [hanswer]; rfl, hview.of_same .second ctx.retries, hn⟩
      · omega
    · rw [if_pos (decide_eq_true hanswer)] at htries
      refine ih (h.again hworks hpass (m := n + 1) fun ctx hview hn => ?_) hrest hrefused' ?_
      · have hmore : ctx.retries < maxPasswordTries - 1 := by omega
        refine ⟨_, ?_, hview.of_same .failed (ctx.retries + 1), by rw [← hn]⟩
        rw [hanswer, radiusAuthPass, authPassFail, if_pos hmore]
      · omega

/-! ### The translation -/

/-- The session is what the accept says: a group that the client requested is accepted if and only
if it is the user's, the entry gets that group, and the configuration what the attributes denote. -/
structure Translated (requested : Option Bytes) (avps : List ValuePair) (s : Session) : Prop where
  accepted : s.entry.status = .completed ↔ ∀ group ∈ requested, group = groupOf avps
  groupname : s.entry.status = .completed → s.entry.groupname = groupOf avps
  config : s.entry.status = .completed → Denotes avps (getSupConfig s.ctx .init)

/-- **The condition**: no group takes part, no route comes from a Framed-IPv6-Prefix, and there are
at most two IPv6 DNS servers; or a group is requested, and it is not the user's. -/
structure Holds (requested : Option Bytes) (avps : List ValuePair) : Prop where
  other : requested.getD [] ≠ [] → requested.getD [] ≠ groupOf avps
  noGroup : requested.getD [] = [] → groupOf avps = []
  noPrefix : requested.getD [] = [] → ∀ vp ∈ avps, ¬ isPrefix vp
  dns : requested.getD [] = [] → (dns6Of avps).length ≤ 2

/-- **When the session is what the Access-Accept says**: for every list of well-formed attributes
that ends the authentication of a new entry. -/
theorem translated_iff (h : Regular cfg method req env earlier last)
    (hnew : newClientEntry env st req.ip = some e) (haccept : last.answer = .ok avps)
    (hwf : ∀ vp ∈ avps, WellFormed vp) :
    Translated req.groupName avps
        (sessionRun cfg defaultRealm req env e (earlier ++ [last])) ↔
      Holds req.groupName avps := by
  obtain ⟨hgoesOn, hfails⟩ := sessionInit_spec defaultRealm h hnew
  rw [sessionRun]
  by_cases hrequested : req.groupName.getD [] = []
  · obtain ⟨m, hpending⟩ := pending_foldl (hgoesOn hrequested)
      (fun a ha => h.attempts a (List.mem_append_left _ ha)) h.refused
      (by rw [Nat.zero_add]; exact h.tries)
    obtain ⟨hworks, hpass⟩ := h.attempts last (List.mem_append_right _ List.mem_cons_self)
    obtain ⟨hstatus, hgroup, ctx, hctx, hview⟩ := hpending.accept hworks hpass haccept hwf
    rw [List.foldl_append, List.foldl_cons, List.foldl_nil]
    constructor
    · intro ht
      have hconfig := ht.config hstatus
      rw [hctx, denotes_iff hview] at hconfig
      exact ⟨fun hne => absurd hrequested hne,
        fun _ => (ht.groupname hstatus).symm.trans hgroup, fun _ => hconfig.1, fun _ => hconfig.2⟩
    · intro hh
      have hnone := hh.noGroup hrequested
      refine ⟨⟨fun _ group hg => ?_, fun _ => hstatus⟩, fun _ => hgroup.trans hnone.symm,
        fun _ => ?_⟩
      · rw [hnone, ← hrequested, Option.mem_def.1 hg]
        rfl
      · rw [hctx, denotes_iff hview]
        exact ⟨hh.noPrefix hrequested, hh.dns hrequested⟩
  · have hfailed := @failed_foldl cfg _ (earlier ++ [last]) (hfails hrequested)
    generalize (earlier ++ [last]).foldl (Session.cont cfg) _ = s at hfailed
    have hnot : s.entry.status ≠ .completed := by
      rw [hfailed]
      nofun
    obtain ⟨group, hgroup⟩ : ∃ group, req.groupName = some group :=
      Option.ne_none_iff_exists'.1 fun hc => hrequested (by rw [hc]; rfl)
    constructor
    · intro ht
      refine ⟨fun _ heq => hnot (ht.accepted.2 fun g hg => ?_), fun hc => absurd hc hrequested,
        fun hc => absurd hc hrequested, fun hc => absurd hc hrequested⟩
      rw [← heq, Option.mem_def.1 hg]
      rfl
    · intro hh
      refine ⟨⟨fun hc => absurd hc hnot, fun hall => ?_⟩, fun hc => absurd hc hnot,
        fun hc => absurd hc hnot⟩
      refine absurd (hall group hgroup) ?_
      have hother := hh.other hrequested
      rwa [hgroup] at hother

end Run

namespace Sample

open SecMod.Sample (sid initMsg)

def radiusMethod : AuthMethod := ⟨true, authTypeRadius, some .radius⟩

def config : Config := SecMod.Sample.config radiusMethod none

def environ : Env := SecMod.Sample.environ 1000

/-- The user `u`, and the group that is requested. -/
def request (group : Option Bytes) : AuthInitMsg :=
  { initMsg false authTypeRadius with groupName := group }

def entry : ClientEntry := { id := 0, sid := sid, time := 1000, remoteIp := [49] }

def attempt (answer : Answer) : Attempt := ⟨⟨sid, some [112]⟩, environ, answer⟩

/-- The session after a wrong password and the right one. -/
def session (group : Option Bytes) (avps : List ValuePair) : Session :=
  sessionRun config none (request group) environ entry
    ([attempt .error] ++ [attempt (.ok avps)])

def group (name : Bytes) : ValuePair :=
  ⟨radGroupName, .string, UInt32.ofNat name.length, name⟩

def address (n : UInt32) : ValuePair := ⟨pwFramedIpAddress, .ipaddr, n, []⟩

/-- `10.0.0.0/8 1 1` -/
def route : ValuePair :=
  ⟨pwFramedRoute, .string, 14, [49, 48, 46, 48, 46, 48, 46, 48, 47, 56, 32, 49, 32, 49]⟩

/-- `2001:db8::/32` -/
def ipv6Prefix : ValuePair :=
  ⟨pwFramedIpv6Prefix, .ipv6Prefix, 6, [0, 32, 0x20, 0x01, 0x0d, 0xb8]⟩

def dns (n : UInt8) : ValuePair :=
  ⟨pwDnsServerIpv6Address, .ipv6addr, 16, List.replicate 15 0 ++ [n]⟩

end Sample

/-- A session without a group, with an address, a route and two DNS servers. -/
theorem translated_route : Translated none
    [Sample.address 0x0a000001, Sample.dns 1, Sample.route, Sample.dns 2]
    (Sample.session none
      [Sample.address 0x0a000001, Sample.dns 1, Sample.route, Sample.dns 2]) := by
  have hworks : Works Sample.config Sample.environ := ⟨rfl, le_refl 0, fun e => nofun⟩
  have hregular : Regular Sample.config Sample.radiusMethod (Sample.request none) Sample.environ
      [Sample.attempt .error] (Sample.attempt (.ok
        [Sample.address 0x0a000001, Sample.dns 1, Sample.route, Sample.dns 2])) := by
    refine ⟨rfl, rfl, List.cons_ne_nil _ _, fun e htype _ _ => ?_, hworks, ?_, ?_, by decide⟩
    · have hcert : e.authType &&& authTypeCertificate = 0 := by
        rw [htype]
        rfl
      exact ⟨e, by rw [certGroup, if_pos hcert], by rw [checkUserGroupStatus, if_pos hcert]⟩
    · intro a ha
      simp only [List.cons_append, List.nil_append, List.mem_cons, List.not_mem_nil,
        or_false] at ha
      rcases ha with rfl | rfl
      · exact ⟨hworks, nofun⟩
      · exact ⟨hworks, nofun⟩
    · intro a ha
      rw [List.mem_singleton.1 ha]
      exact Or.inr rfl
  have hwf : ∀ vp ∈ [Sample.address 0x0a000001, Sample.dns 1, Sample.route, Sample.dns 2],
      WellFormed vp := by
    intro vp hvp
    simp only [List.mem_cons, List.not_mem_nil, or_false] at hvp
    rcases hvp with rfl | rfl | rfl | rfl
    · exact ⟨nofun, nofun, by decide, nofun⟩
    · exact ⟨nofun, nofun, by decide, nofun⟩
    · exact ⟨nofun, by decide, by decide, nofun⟩
    · exact ⟨nofun, nofun, by decide, nofun⟩
  have hnew : newClientEntry Sample.environ start (Sample.request none).ip =
      some Sample.entry := rfl
  exact (translated_iff hregular hnew rfl hwf).2
    ⟨fun h => absurd rfl h, fun _ => rfl, fun _ => by decide, fun _ => by decide⟩

/-- The routes of a session whose accept has one prefix are none; the group of the accept is
neither accepted nor in the entry; of three DNS servers the second is lost. -/
theorem not_translated_prefix :
    ¬ Translated none [Sample.ipv6Prefix] (Sample.session none [Sample.ipv6Prefix]) ∧
    ¬ Translated none [Sample.group [103]] (Sample.session none [Sample.group [103]]) ∧
    ¬ Translated (some [103]) [Sample.group [103]]
      (Sample.session (some [103]) [Sample.group [103]]) ∧
    ¬ Translated none [Sample.dns 1, Sample.dns 2, Sample.dns 3]
      (Sample.session none [Sample.dns 1, Sample.dns 2, Sample.dns 3]) := by
  refine ⟨fun h => ?_, fun h => ?_, fun h => ?_, fun h => ?_⟩
  · exact absurd (h.config rfl).routes (by decide)
  · exact absurd (h.groupname rfl) (by decide)
  · have hdone := h.accepted.2 (by rintro _ ⟨⟩; rfl)
    exact absurd hdone (by decide)
  · exact absurd (h.config rfl).dns (by decide)

end RadiusAuth

end SecMod

end Ocserv
