import Mathlib.Data.List.ReduceOption
import Ocserv.Config.Kkdcp
import Ocserv.Config.Lists

/-!
# The configuration of the server

`parse_cfg_file`, `check_cfg`, `cmd_parser`, `clear_cfg` and `reload_cfg_file` of `src/config.c`.
The file is given as what `configFileLoad` returns for it.  `cfg_st` is read anew by every reload,
the other fields of `perm_cfg_st` are filled at the start.

* `FileCfg` : the fields of `cfg_st` that an option of the file fills on its own.
* `parseCfgFile` : the options in the order in which they are read.
-/

namespace Ocserv

namespace Config

open PerUser (OptionValue ConfigFile extractPrefix prioTos isTrue supPath posixPathMax)
open SecMod (Bytes Build PermCfg AuthStruct AuthMod Additional figureAuthFuncs figureAcctFuncs)
open Worker (ascii caseEq atoi)
open Kkdcp (SockType KkdcpSt parseKkdcp)

/-! ### Options -/

/-- The options of `available_options` that are mandatory. -/
def mandatoryOptions : List Bytes :=
  ["auth", "server-cert", "server-key", "socket-file", "device"].map ascii

/-- The options of `available_options` that are not; `kkdcp` is asked for only in a program that
has it. -/
def optionalOptions : List Bytes :=
  ["enable-auth", "route", "no-route", "select-group", "custom-header", "split-dns", "acct",
    "listen-host", "listen-host-is-dyndns", "compression", "no-compress-limit", "tcp-port",
    "max-ban-score", "ban-points-wrong-password", "ban-connection", "ban-points-kkdcp",
    "udp-port", "keepalive", "dpd", "mobile-dpd", "rate-limit-ms", "ocsp-response", "dh-params",
    "pin-file", "srk-pin-file", "user-profile", "ca-cert", "default-domain", "crl",
    "cert-user-oid", "cert-group-oid", "connect-script", "disconnect-script", "pid-file", "kkdcp",
    "listen-clear-file", "occtl-socket-file", "banner", "use-seccomp", "isolate-workers",
    "predictable-ips", "session-control", "auto-select-group", "default-select-group",
    "always-require-cert", "cisco-client-compat", "deny-roaming", "use-utmp", "use-dbus",
    "use-occtl", "try-mtu-discovery", "ping-leases", "tls-priorities", "chroot-dir", "mtu",
    "net-priority", "output-buffer", "cookie-timeout", "stats-report-time", "rekey-time",
    "rekey-method", "auth-timeout", "idle-timeout", "mobile-idle-timeout", "max-clients",
    "min-reauth-time", "ban-reset-time", "max-same-clients", "rx-data-per-sec",
    "tx-data-per-sec", "run-as-user", "run-as-group", "cgroup", "proxy-url", "ipv4-network",
    "ipv4-netmask", "dns", "ipv4-dns", "ipv6-dns", "nbns", "ipv4-nbns", "ipv6-nbns",
    "ipv6-network", "ipv6-prefix", "route-add-cmd", "route-del-cmd", "config-per-user",
    "config-per-group", "default-user-config", "default-group-config"].map ascii

/-- `handle_option`: the table has the option. -/
def handleOption (val : OptionValue) : Bool :=
  (mandatoryOptions ++ optionalOptions).any fun option => caseEq val.pzName option

/-- `get_option`: the first value that `handle_option` found for the name. -/
def getOption (pov : ConfigFile) (name : Bytes) : Option OptionValue :=
  pov.find? fun val => caseEq val.pzName name && handleOption val

/-- An option without a value. -/
def absent {A : Type} (name : Bytes) (s : A) : Except Failure A :=
  if mandatoryOptions.any fun option => caseEq name option then .error .exit else .ok s

/-- `PREAD_STRING`, and `READ_STRING`. -/
def readString (pov : ConfigFile) (name : Bytes) (s : Option Bytes) :
    Except Failure (Option Bytes) :=
  match getOption pov name with
  | some val => if val.valType = .string then .ok (some val.strVal) else absent name s
  | none => absent name s

/-- `READ_STATIC_STRING`, for an array of `size` characters. -/
def readStaticString (size : ℕ) (pov : ConfigFile) (name : Bytes) (s : Bytes) :
    Except Failure Bytes :=
  match getOption pov name with
  | some val => if val.valType = .string then .ok (val.strVal.take (size - 1)) else absent name s
  | none => absent name s

/-- `READ_TF` -/
def readTf (pov : ConfigFile) (name : Bytes) (dflt : Bool) : Except Failure Bool := do
  let tf ← readString pov name none
  return tf.elim dflt isTrue

/-- The number of a value; `atoi` gives an `int`. -/
def numberOf (val : OptionValue) : Option ℤ :=
  if val.valType = .numeric then some val.longVal
  else if val.valType = .string then some (Int32.ofNat (atoi val.strVal)).toInt
  else none

/-- `READ_NUMERIC`, with the conversion to the type of the field. -/
def readNumeric {A : Type} (ofInt : ℤ → A) (pov : ConfigFile) (name : Bytes) (s : A) :
    Except Failure A :=
  match getOption pov name with
  | some val => .ok ((numberOf val).elim s ofInt)
  | none => absent name s

/-- `READ_PRIO_TOS` -/
def readPrioTos (pov : ConfigFile) (name : Bytes) (s : UInt32) : Except Failure UInt32 :=
  match getOption pov name with
  | some val => .ok (if val.valType = .string then prioTos val.strVal else s)
  | none => absent name s

/-- What the arrays hold when they are allocated. -/
structure Heap where
  strings : ℕ → Option Bytes
  pairs : ℕ → Option Bytes × Option Bytes

/-- The values in the array. -/
def StrList.values {E : Type} (l : StrList E) : List E :=
  l.ptr.elim [] fun s => (List.range l.num).map s

/-- A list macro, for an array that is not allocated before. -/
def ListMacro.readList {E : Type} (M : ListMacro E) (fresh : ℕ → E) (o : ListOption)
    (pov : ConfigFile) : Except Failure (List E) :=
  (M.readOption fresh o ⟨none, 0⟩ pov).map (·.values)

/-- `READ_MULTI_LINE` for an option, and for its aliases if it gives nothing. -/
def readMulti (heap : Heap) (pov : ConfigFile) (name : Bytes) (aliases : List Bytes) :
    Except Failure (List Bytes) :=
  (readMultiLine.readList heap.strings ⟨name, aliases⟩ pov).map (·.reduceOption)

/-! ### The configuration -/

/-- `REKEY_METHOD_SSL` and `REKEY_METHOD_NEW_TUNNEL`. -/
inductive RekeyMethod where
  | unset
  | ssl
  | newTunnel
  deriving DecidableEq, Repr

/-- `gnutls_certificate_request_t` -/
inductive CertReq where
  | ignore
  | request
  | require
  deriving DecidableEq, Repr

/-- `vpn_st`, as far as it is filled here. -/
structure VpnSt where
  name : Bytes := []
  ipv4 : Option Bytes := none
  ipv4Netmask : Option Bytes := none
  ipv6 : Option Bytes := none
  ipv6Prefix : UInt32 := 0
  routes : List Bytes := []
  noRoutes : List Bytes := []
  dns : List Bytes := []
  nbns : List Bytes := []
  deriving DecidableEq, Repr

/-- The fields of `cfg_st` that options of the file fill on their own; a `time_t` is an integer. -/
structure FileCfg (σ : Type) where
  isDyndns : Bool := false
  statsReportTime : UInt32 := 0
  kkdcp : Kkdcp.CfgSt σ := ⟨[], 0⟩
  pinFile : Option Bytes := none
  srkPinFile : Option Bytes := none
  cert : List Bytes := []
  key : List Bytes := []
  ca : Option Bytes := none
  crl : Option Bytes := none
  dhParamsFile : Option Bytes := none
  certUserOid : Option Bytes := none
  certGroupOid : Option Bytes := none
  priorities : Option Bytes := none
  enableCompression : Bool := false
  noCompressLimit : UInt32 := 0
  banner : Option Bytes := none
  ocspResponse : Option Bytes := none
  defaultDomain : Option Bytes := none
  defaultSelectGroup : Option Bytes := none
  customHeader : List Bytes := []
  splitDns : List Bytes := []
  denyRoaming : Bool := false
  cookieTimeout : ℤ := 0
  rekeyTime : ℤ := 0
  rekeyMethod : RekeyMethod := .unset
  minReauthTime : ℤ := 0
  maxBanScore : Int32 := 0
  banResetTime : Int32 := 0
  banPointsWrongPassword : UInt32 := 0
  banPointsConnect : UInt32 := 0
  banPointsKkdcp : UInt32 := 0
  isolate : Bool := false
  authTimeout : UInt32 := 0
  idleTimeout : UInt32 := 0
  mobileIdleTimeout : UInt32 := 0
  keepalive : UInt32 := 0
  dpd : UInt32 := 0
  mobileDpd : UInt32 := 0
  maxClients : UInt32 := 0
  maxSameClients : UInt32 := 0
  useUtmp : Bool := false
  useDbus : Bool := false
  useOcctl : Bool := false
  tryMtu : Bool := false
  ciscoClientCompat : Bool := false
  rateLimitMs : UInt32 := 0
  pingLeases : Bool := false
  rxPerSec : UInt64 := 0
  txPerSec : UInt64 := 0
  netPriority : UInt32 := 0
  outputBuffer : UInt32 := 0
  defaultMtu : UInt32 := 0
  predictableIps : Bool := false
  routeAddCmd : Option Bytes := none
  routeDelCmd : Option Bytes := none
  connectScript : Option Bytes := none
  disconnectScript : Option Bytes := none
  cgroup : Option Bytes := none
  proxyUrl : Option Bytes := none
  xmlConfigFile : Option Bytes := none
  perGroupDir : Option Bytes := none
  perUserDir : Option Bytes := none
  defaultGroupConf : Option Bytes := none
  defaultUserConf : Option Bytes := none
  network : VpnSt := {}

/-- `cfg_st`.  The fields here come from the command line, from the files that options name, or
also from the authentication methods. -/
structure CfgSt (σ : Type) extends FileCfg σ where
  foreground : Bool := false
  debug : UInt32 := 0
  certReq : CertReq := .ignore
  groupList : List Bytes := []
  friendlyGroupList : List (Option Bytes) := []
  xmlConfigHash : Option Bytes := none
  certHash : Option Bytes := none

/-- `perm_cfg_st`, and the static `pid_file`; `methods` are `auth`, `acct` and `sup_config_type`. -/
structure PermCfgSt (σ : Type) where
  config : CfgSt σ := {}
  methods : PermCfg := ⟨[], none, .file⟩
  chrootDir : Option Bytes := none
  occtlSocketFile : Option Bytes := none
  socketFilePrefix : Option Bytes := none
  uid : UInt32 := 0
  gid : UInt32 := 0
  listenHost : Option Bytes := none
  unixConnFile : Option Bytes := none
  port : UInt32 := 0
  udpPort : UInt32 := 0
  pidFile : Bytes := []

/-- What the program was built with; the isolation of workers needs seccomp or namespaces. -/
structure Features extends Build where
  isolation : Bool
  anyconnect : Bool

/-- What the functions find outside of the file. -/
structure World (σ : Type) where
  getaddrinfo : ℕ → SockType → Bytes → Bytes → Option σ
  getpwnam : Bytes → Option UInt32
  getgrnam : Bytes → Option UInt32
  /-- `group_list` of a module; without its file it sets nothing. -/
  groupList : AuthMod → Option Additional → Option (List Bytes)
  /-- `calc_sha1_hash` of a file, which is a certificate or not. -/
  calcSha1Hash : Bytes → Bool → Except Failure (Option Bytes)

/-- The options of the command line. -/
structure CommandLine where
  foreground : Bool
  pidFile : Option Bytes
  debug : Option UInt32
  deriving DecidableEq, Repr

/-! ### Reading the file -/

def defaultDpdTime : UInt32 := 600
def defaultNoCompressLimit : UInt32 := 256
def minNoCompressLimit : UInt32 := 64
def defaultCookieReconTimeout : ℤ := 120
def defaultBanResetTime : Int32 := 300
def defaultPasswordPoints : UInt32 := 10
def defaultConnectPoints : UInt32 := 1
def defaultKkdcpPoints : UInt32 := 1
/-- `MAX_PASSWORD_TRIES * DEFAULT_PASSWORD_POINTS` -/
def defaultMaxBanScore : Int32 := 30
/-- `OCCTL_UNIX_SOCKET` -/
def occtlUnixSocket : Bytes := ascii "/var/run/occtl.socket"
/-- `IFNAMSIZ` -/
def ifnamsiz : ℕ := 16
def maxBannerSize : ℕ := 256

/-- `exit(1)` where there is no result. -/
def orExit {A : Type} (x : Option A) : Except Failure A := x.elim (.error .exit) .ok

/-- A failure of `parse_kkdcp`; each access outside of an object is the same failure here. -/
def ofKkdcp {A : Type} : Except Kkdcp.Failure A → Except Failure A
  | .ok a => .ok a
  | .error .exit => .error .exit
  | .error _ => .error .overrun

/-- `ipv4_prefix_to_mask` -/
def ipv4PrefixToMask (prefix4 : UInt32) : Option Bytes :=
  if prefix4 = 8 then some (ascii "255.0.0.0")
  else if prefix4 = 16 then some (ascii "255.255.0.0")
  else if prefix4 = 24 then some (ascii "255.255.255.0")
  else if prefix4 = 25 then some (ascii "255.255.255.128")
  else if prefix4 = 26 then some (ascii "255.255.255.192")
  else if prefix4 = 27 then some (ascii "255.255.255.224")
  else if prefix4 = 28 then some (ascii "255.255.255.240")
  else if prefix4 = 29 then some (ascii "255.255.255.248")
  else if prefix4 = 30 then some (ascii "255.255.255.252")
  else none

/-- `valid_ipv6_prefix` -/
def validIpv6Prefix (prefix6 : UInt32) : Bool := prefix6 ∈ [16, 32, 48, 64, 80, 96, 112, 128]

section

variable {σ : Type} (b : Features) (w : World σ) (heap : Heap) (pov : ConfigFile)

/-- The lines of `kkdcp`, if the program has it. -/
def readKkdcp (old : Kkdcp.CfgSt σ) : Except Failure (Kkdcp.CfgSt σ) :=
  if b.haveGssapi then do
    let urlfw ← readMulti heap pov (ascii "kkdcp") []
    if 0 < urlfw.length then ofKkdcp (parseKkdcp w.getaddrinfo urlfw) else return old
  else .ok old

/-- From `listen-host-is-dyndns` to `rate-limit-ms`. -/
def readTimers (c : FileCfg σ) : Except Failure (FileCfg σ) := do
  let isDyndns ← readTf pov (ascii "listen-host-is-dyndns") false
  let kkdcp ← readKkdcp b w heap pov c.kkdcp
  let keepalive ← readNumeric UInt32.ofInt pov (ascii "keepalive") c.keepalive
  let dpd ← readNumeric UInt32.ofInt pov (ascii "dpd") c.dpd
  let dpd := if dpd = 0 then defaultDpdTime else dpd
  let mobileDpd ← readNumeric UInt32.ofInt pov (ascii "mobile-dpd") c.mobileDpd
  let mobileDpd := if mobileDpd = 0 then dpd else mobileDpd
  let rateLimitMs ← readNumeric UInt32.ofInt pov (ascii "rate-limit-ms") c.rateLimitMs
  return { c with isDyndns, kkdcp, keepalive, dpd, mobileDpd, rateLimitMs }

/-- From `ocsp-response` to `disconnect-script`. -/
def readNames (c : FileCfg σ) : Except Failure (FileCfg σ) := do
  let ocspResponse ← readString pov (ascii "ocsp-response") c.ocspResponse
  let cert ← readMulti heap pov (ascii "server-cert") []
  let key ← readMulti heap pov (ascii "server-key") []
  let dhParamsFile ← readString pov (ascii "dh-params") c.dhParamsFile
  let pinFile ← readString pov (ascii "pin-file") c.pinFile
  let srkPinFile ← readString pov (ascii "srk-pin-file") c.srkPinFile
  let xmlConfigFile ←
    if b.anyconnect then readString pov (ascii "user-profile") c.xmlConfigFile
    else .ok c.xmlConfigFile
  let ca ← readString pov (ascii "ca-cert") c.ca
  let defaultDomain ← readString pov (ascii "default-domain") c.defaultDomain
  let crl ← readString pov (ascii "crl") c.crl
  let certUserOid ← readString pov (ascii "cert-user-oid") c.certUserOid
  let certGroupOid ← readString pov (ascii "cert-group-oid") c.certGroupOid
  let connectScript ← readString pov (ascii "connect-script") c.connectScript
  let disconnectScript ← readString pov (ascii "disconnect-script") c.disconnectScript
  return { c with
    ocspResponse, cert, key, dhParamsFile, pinFile, srkPinFile, xmlConfigFile, ca, defaultDomain,
    crl, certUserOid, certGroupOid, connectScript, disconnectScript }

/-- `no_compress_limit`, with its default and its minimum. -/
def compressLimit (limit : UInt32) : UInt32 :=
  let limit := if limit = 0 then defaultNoCompressLimit else limit
  if limit < minNoCompressLimit then minNoCompressLimit else limit

/-- `use-seccomp`, and otherwise `isolate-workers`. -/
def readIsolate : Except Failure Bool := do
  let seccomp ← readTf pov (ascii "use-seccomp") false
  let isolate ← if seccomp then .ok seccomp else readTf pov (ascii "isolate-workers") false
  if isolate ∧ ¬ b.isolation then .error .exit else return isolate

/-- `use-dbus` and `use-occtl`: the first is also the second. -/
def readOcctl : Except Failure (Bool × Bool) := do
  let useDbus ← readTf pov (ascii "use-dbus") false
  let useOcctl ← if useDbus then .ok useDbus else readTf pov (ascii "use-occtl") false
  return (useDbus, useOcctl)

/-- From `banner` to `tls-priorities`. -/
def readSwitches (c : FileCfg σ) : Except Failure (FileCfg σ) := do
  let banner ← readString pov (ascii "banner") c.banner
  let ciscoClientCompat ← readTf pov (ascii "cisco-client-compat") false
  let forceCertAuth ← readTf pov (ascii "always-require-cert") true
  let ciscoClientCompat := ciscoClientCompat || !forceCertAuth
  let enableCompression ← readTf pov (ascii "compression") false
  let limit ← readNumeric UInt32.ofInt pov (ascii "no-compress-limit") c.noCompressLimit
  let isolate ← readIsolate b pov
  let predictableIps ← readTf pov (ascii "predictable-ips") true
  let useUtmp ← readTf pov (ascii "use-utmp") true
  let (useDbus, useOcctl) ← readOcctl pov
  let tryMtu ← readTf pov (ascii "try-mtu-discovery") false
  let pingLeases ← readTf pov (ascii "ping-leases") false
  let priorities ← readString pov (ascii "tls-priorities") c.priorities
  return { c with
    banner, ciscoClientCompat, enableCompression, noCompressLimit := compressLimit limit, isolate,
    predictableIps, useUtmp, useDbus, useOcctl, tryMtu, pingLeases, priorities }

/-- `rekey-method` -/
def readRekeyMethod : Except Failure RekeyMethod := do
  let tmp ← readString pov (ascii "rekey-method") none
  match tmp with
  | none => return .ssl
  | some tmp =>
    if tmp = ascii "ssl" then return .ssl
    else if tmp = ascii "new-tunnel" then return .newTunnel
    else .error .exit

/-- A number for which -1 is read as no value. -/
def orDefault {A : Type} [DecidableEq A] (minusOne dflt n : A) : A :=
  if n = minusOne then dflt else n

/-- From `mtu` to `mobile-idle-timeout`. -/
def readTimeouts (c : FileCfg σ) : Except Failure (FileCfg σ) := do
  let defaultMtu ← readNumeric UInt32.ofInt pov (ascii "mtu") c.defaultMtu
  let netPriority ← readPrioTos pov (ascii "net-priority") c.netPriority
  let outputBuffer ← readNumeric UInt32.ofInt pov (ascii "output-buffer") c.outputBuffer
  let rxPerSec ← readNumeric UInt64.ofInt pov (ascii "rx-data-per-sec") c.rxPerSec
  let txPerSec ← readNumeric UInt64.ofInt pov (ascii "tx-data-per-sec") c.txPerSec
  let denyRoaming ← readTf pov (ascii "deny-roaming") false
  let statsReportTime ← readNumeric UInt32.ofInt pov (ascii "stats-report-time") c.statsReportTime
  let rekeyTime ← readNumeric id pov (ascii "rekey-time") (-1)
  let rekeyMethod ← readRekeyMethod pov
  let cookieTimeout ← readNumeric id pov (ascii "cookie-timeout") c.cookieTimeout
  let authTimeout ← readNumeric UInt32.ofInt pov (ascii "auth-timeout") c.authTimeout
  let idleTimeout ← readNumeric UInt32.ofInt pov (ascii "idle-timeout") c.idleTimeout
  let mobileIdleTimeout ← readNumeric UInt32.ofInt pov (ascii "mobile-idle-timeout") 4294967295
  return { c with
    defaultMtu, netPriority, outputBuffer, denyRoaming, statsReportTime, rekeyMethod, authTimeout,
    idleTimeout
    rxPerSec := rxPerSec / 1000
    txPerSec := txPerSec / 1000
    rekeyTime := orDefault (-1) (24 * 60 * 60) rekeyTime
    cookieTimeout := orDefault 0 defaultCookieReconTimeout cookieTimeout
    mobileIdleTimeout := orDefault 4294967295 idleTimeout mobileIdleTimeout }

/-- From `max-clients` to `max-same-clients`. -/
def readLimits (c : FileCfg σ) : Except Failure (FileCfg σ) := do
  let maxClients ← readNumeric UInt32.ofInt pov (ascii "max-clients") c.maxClients
  let minReauthTime ← readNumeric id pov (ascii "min-reauth-time") c.minReauthTime
  let banResetTime ← readNumeric Int32.ofInt pov (ascii "ban-reset-time") (-1)
  let maxBanScore ← readNumeric Int32.ofInt pov (ascii "max-ban-score") (-1)
  let banPointsWrongPassword ←
    readNumeric UInt32.ofInt pov (ascii "ban-points-wrong-password") defaultPasswordPoints
  -- the table has no option with this name
  let banPointsConnect ←
    readNumeric UInt32.ofInt pov (ascii "ban-points-connection") defaultConnectPoints
  let banPointsKkdcp ← readNumeric UInt32.ofInt pov (ascii "ban-points-kkdcp") defaultKkdcpPoints
  let maxSameClients ← readNumeric UInt32.ofInt pov (ascii "max-same-clients") c.maxSameClients
  return { c with
    maxClients, minReauthTime, banPointsWrongPassword, banPointsConnect, banPointsKkdcp,
    maxSameClients
    banResetTime := orDefault (-1) defaultBanResetTime banResetTime
    maxBanScore := orDefault (-1) defaultMaxBanScore maxBanScore }

/-- `ipv4-network` and `ipv4-netmask`. -/
def readIpv4 (net : VpnSt) : Except Failure VpnSt := do
  let network ← readString pov (ascii "ipv4-network") net.ipv4
  let (ipv4, prefix4) := extractPrefix network
  let ipv4Netmask ←
    if prefix4 = 0 then readString pov (ascii "ipv4-netmask") net.ipv4Netmask
    else .ok (ipv4PrefixToMask prefix4)
  return { net with ipv4, ipv4Netmask }

/-- `ipv6-network` and `ipv6-prefix`. -/
def readIpv6 (net : VpnSt) : Except Failure VpnSt := do
  let network ← readString pov (ascii "ipv6-network") net.ipv6
  let (ipv6, prefix6) := extractPrefix network
  let prefix6 ←
    if prefix6 = 0 then readNumeric UInt32.ofInt pov (ascii "ipv6-prefix") prefix6
    else .ok prefix6
  if prefix6 = 0 then return { net with ipv6 }
  else if validIpv6Prefix prefix6 then return { net with ipv6, ipv6Prefix := prefix6 }
  else .error .exit

/-- A default route makes the list of routes empty. -/
def dropRoutes (routes : List Bytes) : List Bytes :=
  if ∃ route ∈ routes, route = ascii "0.0.0.0/0" ∨ route = ascii "default" then [] else routes

/-- From `device` to `default-select-group`. -/
def readNetwork (c : FileCfg σ) : Except Failure (FileCfg σ) := do
  let name ← readStaticString ifnamsiz pov (ascii "device") c.network.name
  let cgroup ← readString pov (ascii "cgroup") c.cgroup
  let proxyUrl ← readString pov (ascii "proxy-url") c.proxyUrl
  let net ← readIpv4 pov { c.network with name }
  let net ← readIpv6 pov net
  let customHeader ← readMulti heap pov (ascii "custom-header") []
  let splitDns ← readMulti heap pov (ascii "split-dns") []
  let routes ← readMulti heap pov (ascii "route") []
  let noRoutes ← readMulti heap pov (ascii "no-route") []
  let defaultSelectGroup ← readString pov (ascii "default-select-group") c.defaultSelectGroup
  return { c with
    cgroup, proxyUrl, customHeader, splitDns, defaultSelectGroup
    network := { net with routes := dropRoutes routes, noRoutes } }

/-- The method of a module that lists groups: that of PAM, and that of plain. -/
def groupModule (methods : PermCfg) : Option (AuthMod × Option Additional) :=
  methods.auth.head?.bind fun m =>
    m.amod.bind fun mod => if mod = .pam ∨ mod = .plain then some (mod, m.additional) else none

/-- `group_list` and `friendly_group_list`, with `auto-select-group` or from `select-group`. -/
def readGroups (methods : PermCfg) : Except Failure (List Bytes × List (Option Bytes)) := do
  let autoSelectGroup ← readTf pov (ascii "auto-select-group") false
  match if autoSelectGroup then groupModule methods else none with
  | some (mod, additional) => return ((w.groupList mod additional).getD [], [])
  | none => do
    let groups ← readMultiBracketLine.readList heap.pairs ⟨ascii "select-group", []⟩ pov
    return ((groups.map (·.1)).reduceOption, groups.map (·.2))

/-- From `dns` to `default-group-config`. -/
def readServers (c : FileCfg σ) : Except Failure (FileCfg σ) := do
  let dns ← readMulti heap pov (ascii "dns") [ascii "ipv6-dns", ascii "ipv4-dns"]
  if dns.any fun server => server = ascii "local" then .error .exit
  else
    let nbns ← readMulti heap pov (ascii "nbns") [ascii "ipv6-nbns", ascii "ipv4-nbns"]
    let routeAddCmd ← readString pov (ascii "route-add-cmd") c.routeAddCmd
    let routeDelCmd ← readString pov (ascii "route-del-cmd") c.routeDelCmd
    let perUserDir ← readString pov (ascii "config-per-user") c.perUserDir
    let perGroupDir ← readString pov (ascii "config-per-group") c.perGroupDir
    let defaultUserConf ← readString pov (ascii "default-user-config") c.defaultUserConf
    let defaultGroupConf ← readString pov (ascii "default-group-config") c.defaultGroupConf
    return { c with
      routeAddCmd, routeDelCmd, perUserDir, perGroupDir, defaultUserConf, defaultGroupConf
      network := { c.network with dns, nbns } }

/-- `run-as-user` or `run-as-group`, with the function that looks the name up. -/
def readId (lookup : Bytes → Option UInt32) (name : Bytes) (old : UInt32) :
    Except Failure UInt32 :=
  match getOption pov name with
  | some val => if val.valType = .string then orExit (lookup val.strVal) else .ok old
  | none => .ok old

/-- `auth`, `enable-auth` and `acct`. -/
def readMethods : Except Failure PermCfg := do
  let auth ← readMulti heap pov (ascii "auth") []
  let methods ← orExit (figureAuthFuncs b.toBuild ⟨[], none, .file⟩ auth true)
  let enableAuth ← readMulti heap pov (ascii "enable-auth") []
  let methods ← orExit (figureAuthFuncs b.toBuild methods enableAuth false)
  if !methods.auth.head?.any (·.enabled) then .error .exit
  else
    let acct ← readString pov (ascii "acct") none
    match acct with
    | none => return methods
    | some acct => orExit (figureAcctFuncs b.toBuild methods acct)

/-- The options that are not read by a reload. -/
def readPermanent (perm : PermCfgSt σ) : Except Failure (PermCfgSt σ) := do
  let methods ← readMethods b heap pov
  let listenHost ← readString pov (ascii "listen-host") perm.listenHost
  let unixConnFile ← readString pov (ascii "listen-clear-file") perm.unixConnFile
  let port ← readNumeric UInt32.ofInt pov (ascii "tcp-port") perm.port
  let udpPort ← readNumeric UInt32.ofInt pov (ascii "udp-port") perm.udpPort
  let uid ← readId pov w.getpwnam (ascii "run-as-user") perm.uid
  let gid ← readId pov w.getgrnam (ascii "run-as-group") perm.gid
  return { perm with methods, listenHost, unixConnFile, port, udpPort, uid, gid }

end

section

variable {σ : Type} (b : Features) (w : World σ) (heap : Heap)

/-- `pid-file`, which a reload does not read, nor a start with this option on the command line. -/
def readPidFile (pov : ConfigFile) (reload : Bool) (pidFile : Bytes) : Except Failure Bytes :=
  if ¬ reload ∧ pidFile = [] then readStaticString posixPathMax pov (ascii "pid-file") pidFile
  else .ok pidFile

/-- The options of `parse_cfg_file` that a reload reads, too. -/
def readReloaded (pov : ConfigFile) (perm : PermCfgSt σ) (reload : Bool) :
    Except Failure (PermCfgSt σ) := do
  let c ← readTimers b w heap pov perm.config.toFileCfg
  let c ← readNames b heap pov c
  let pidFile ← readPidFile pov reload perm.pidFile
  let socketFilePrefix ← readString pov (ascii "socket-file") perm.socketFilePrefix
  let occtlSocketFile ← readString pov (ascii "occtl-socket-file") perm.occtlSocketFile
  let c ← readSwitches b pov c
  let chrootDir ← readString pov (ascii "chroot-dir") perm.chrootDir
  let c ← readTimeouts pov c
  let c ← readLimits pov c
  let c ← readNetwork heap pov c
  let (groupList, friendlyGroupList) ← readGroups w heap pov perm.methods
  let c ← readServers heap pov c
  return { perm with
    config := { perm.config with toFileCfg := c, groupList, friendlyGroupList }
    pidFile, socketFilePrefix, chrootDir
    occtlSocketFile := some (occtlSocketFile.getD occtlUnixSocket) }

/-- `parse_cfg_file`; `file` is what `configFileLoad` returned. -/
def parseCfgFile (file : Option ConfigFile) (perm : PermCfgSt σ) (reload : Bool) :
    Except Failure (PermCfgSt σ) := do
  let pov ← orExit file
  if pov = [] then .error .exit
  else
    let perm ← if reload then .ok perm else readPermanent b w heap pov perm
    readReloaded b w heap pov perm reload

/-- The method asks for certificates. -/
def wantsCertificate (m : AuthStruct) : Bool := m.type &&& SecMod.authTypeCertificate ≠ 0

/-- `cert_req`, from the methods and from `cisco_client_compat`. -/
def certReqOf (methods : List AuthStruct) (compat : Bool) (old : CertReq) : CertReq :=
  if methods.head?.any wantsCertificate then if compat then .request else .require
  else if methods.tail.any wantsCertificate then .request
  else old

/-- The part of `check_cfg` that only looks at the options. -/
def checkOptions (c : FileCfg σ) : Except Failure Unit :=
  if c.network.ipv4 = none ∧ c.network.ipv6 = none then .error .exit
  else if c.network.ipv4 ≠ none ∧ c.network.ipv4Netmask = none then .error .exit
  else if c.network.ipv6 ≠ none ∧ c.network.ipv6Prefix = 0 then .error .exit
  else if c.banner.any fun banner => maxBannerSize < banner.length then .error .exit
  else if c.cert.length ≠ c.key.length then .error .exit
  else .ok ()

/-- `cert_hash` -/
def readCertHash (c : FileCfg σ) : Except Failure (Option Bytes) :=
  if b.anyconnect then c.cert.head?.elim (.ok none) fun cert => w.calcSha1Hash cert true
  else .ok none

/-- `xml_config_hash`, of the file itself or of the file in `chroot_dir`. -/
def readXmlHash (chrootDir : Option Bytes) (c : FileCfg σ) : Except Failure (Option Bytes) :=
  match if b.anyconnect then c.xmlConfigFile else none with
  | none => .ok none
  | some file => do
    match ← w.calcSha1Hash file false with
    | some hash => return some hash
    | none =>
      match chrootDir with
      | none => .error .exit
      | some dir => do
        let hash ← w.calcSha1Hash (supPath dir file) false
        return some (← orExit hash)

/-- The defaults at the end of `check_cfg`. -/
def lateDefaults (c : FileCfg σ) : FileCfg σ :=
  { c with
    keepalive := if c.keepalive = 0 then 3600 else c.keepalive
    dpd := if c.dpd = 0 then 60 else c.dpd
    priorities := some (c.priorities.getD (ascii "NORMAL:%SERVER_PRECEDENCE:%COMPAT")) }

/-- `check_cfg` -/
def checkCfg (perm : PermCfgSt σ) : Except Failure (PermCfgSt σ) := do
  let c := perm.config
  checkOptions c.toFileCfg
  let certReq := certReqOf perm.methods.auth c.ciscoClientCompat c.certReq
  if certReq ≠ .ignore ∧ c.certUserOid = none then .error .exit
  else if perm.unixConnFile ≠ none ∧ certReq ≠ .ignore then .error .exit
  else
    let certHash ← readCertHash b w c.toFileCfg
    let xmlConfigHash ← readXmlHash b w perm.chrootDir c.toFileCfg
    return { perm with
      config := { c with toFileCfg := lateDefaults c.toFileCfg, certReq, certHash, xmlConfigHash } }

/-- `perm_cfg_st` before the file is read. -/
def commandLineCfg (cmd : CommandLine) : PermCfgSt σ :=
  { config := { foreground := cmd.foreground, debug := cmd.debug.getD 0 }
    pidFile := (cmd.pidFile.getD []).take (posixPathMax - 1) }

/-- `cmd_parser` -/
def cmdParser (cmd : CommandLine) (file : Option ConfigFile) : Except Failure (PermCfgSt σ) := do
  let perm ← parseCfgFile b w heap file (commandLineCfg cmd) false
  checkCfg b w perm

/-- `clear_cfg` -/
def clearCfg (perm : PermCfgSt σ) : PermCfgSt σ := { perm with config := {} }

/-- `reload_cfg_file` -/
def reloadCfgFile (file : Option ConfigFile) (perm : PermCfgSt σ) :
    Except Failure (PermCfgSt σ) := do
  let perm ← parseCfgFile b w heap file (clearCfg perm) true
  checkCfg b w perm

end

end Config

end Ocserv
