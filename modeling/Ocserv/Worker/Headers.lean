import Mathlib.Algebra.GroupWithZero.Nat
import Mathlib.Data.List.Infix

/-!
# Worker: the headers of a request

`header_check` and `header_value_check` of `src/worker-http.c`: what the worker takes from the
headers of an HTTP request.  A string of C is the list of its bytes; a value that is used as one
ends at its first zero byte.
-/

namespace Ocserv

namespace Worker

/-- The bytes of a text. -/
def ascii (s : String) : List UInt8 := s.toList.map fun c => UInt8.ofNat c.toNat

/-- The bytes up to the first zero. -/
def cString (value : List UInt8) : List UInt8 := value.takeWhile (· ≠ 0)

/-- `strchr`, for a character that is not the terminator. -/
def strchr (c : UInt8) (s : List UInt8) : Option ℕ := (cString s).findIdx? (· = c)

theorem strchr_append {c : UInt8} {s : List UInt8} (hc : c ≠ 0) (hs : c ∉ s) (h0 : 0 ∉ s)
    (t : List UInt8) : strchr c (s ++ c :: t) = some s.length := by
  induction s with
  | nil => simp [strchr, cString, hc, List.findIdx?_cons]
  | cons a s ih =>
    have ha : a ≠ 0 := fun h => h0 (h ▸ List.mem_cons_self)
    have hac : a ≠ c := fun h => hs (h ▸ List.mem_cons_self)
    have ih := ih (fun h => hs (List.mem_cons_of_mem _ h)) (fun h => h0 (List.mem_cons_of_mem _ h))
    simpa [strchr, cString, ha, hac, List.findIdx?_cons] using ih

theorem strchr_of_notMem {c : UInt8} {s : List UInt8} (hs : c ∉ s) : strchr c s = none := by
  rw [strchr, List.findIdx?_eq_none_iff]
  intro a ha
  have hmem : a ∈ s := (List.takeWhile_sublist _).mem ha
  exact decide_eq_false fun h => hs (h ▸ hmem)

/-- The tokens `strtok` finds. -/
def strtok (delim : UInt8) (str : List UInt8) : List (List UInt8) :=
  (str.splitOn delim).filter (· ≠ [])

/-- `c_isspace`. -/
def cIsspace (c : UInt8) : Bool := c = 32 ∨ (9 ≤ c ∧ c ≤ 13)

/-- White space is skipped within the text before a separator. -/
theorem dropWhile_separator {c : UInt8} (hc : cIsspace c = false) (s t : List UInt8) :
    (s ++ c :: t).dropWhile cIsspace = s.dropWhile cIsspace ++ c :: t := by
  rw [List.dropWhile_append]
  split_ifs with hs
  · rw [List.isEmpty_iff.1 hs, List.dropWhile_cons_of_neg (by simp [hc]), List.nil_append]
  · rfl

/-- `c_tolower`. -/
def cTolower (c : UInt8) : UInt8 := if 65 ≤ c ∧ c ≤ 90 then c + 32 else c

/-- `c_strcasecmp` finds no difference. -/
def caseEq (s t : List UInt8) : Bool := s.map cTolower = t.map cTolower

/-- `memmem`. -/
def contains (haystack needle : List UInt8) : Bool := decide (needle <:+: haystack)

/-- `atoi`, as an `unsigned int`: the number saturates at the bounds of `long`. -/
def atoi (str : List UInt8) : ℕ :=
  let str := str.dropWhile cIsspace
  let neg := str.head? = some 45
  let str := if str.head? = some 45 ∨ str.head? = some 43 then str.tail else str
  let digits := str.takeWhile fun c => 48 ≤ c ∧ c ≤ 57
  let n := digits.foldl (fun n c => 10 * n + (c.toNat - 48)) 0
  if neg then (2 ^ 64 - min n (2 ^ 63)) % 2 ^ 32 else min n (2 ^ 63 - 1) % 2 ^ 32

/-! ### Names and sizes -/

/-- The headers the worker knows. -/
inductive Header where
  | cookie
  | masterSecret
  | hostname
  | cstpBaseMtu
  | cstpAtype
  | deviceType
  | dtlsCiphersuite
  | connection
  | fullIpv6
  | userAgent
  | cstpEncoding
  | dtlsEncoding
  | supportSpnego
  | authorization
  deriving DecidableEq, Repr

/-- The table of `src/http-heads.gperf`. -/
def wordlist : List (List UInt8 × Header) :=
  [(ascii "Cookie", .cookie),
    (ascii "User-Agent", .userAgent),
    (ascii "X-CSTP-Accept-Encoding", .cstpEncoding),
    (ascii "X-DTLS-Accept-Encoding", .dtlsEncoding),
    (ascii "Connection", .connection),
    (ascii "X-DTLS-Master-Secret", .masterSecret),
    (ascii "X-DTLS-CipherSuite", .dtlsCiphersuite),
    (ascii "X-CSTP-Base-MTU", .cstpBaseMtu),
    (ascii "X-CSTP-Address-Type", .cstpAtype),
    (ascii "X-CSTP-Hostname", .hostname),
    (ascii "X-CSTP-Full-IPv6-Capability", .fullIpv6),
    (ascii "X-AnyConnect-Identifier-DeviceType", .deviceType),
    (ascii "X-Support-HTTP-Auth", .supportSpnego),
    (ascii "Authorization", .authorization)]

/-- `in_word_set`: the hash of gperf is perfect for the table. -/
def inWordSet (str : List UInt8) : Option Header :=
  (wordlist.find? fun p => p.1 = str).map Prod.snd

def tlsMasterSize : ℕ := 48
def maxHostnameSize : ℕ := 64
def maxAgentName : ℕ := 48
def sidSize : ℕ := 16

inductive AgentType where
  | unknown
  | openconnectV3
  | openconnect
  deriving DecidableEq, Repr

/-- The ciphers and MACs of the table below; the others of GnuTLS have a number. -/
inductive Cipher where
  | aes128Gcm
  | aes256Gcm
  | aes128Cbc
  | tripleDesCbc
  | other (n : ℕ)
  deriving DecidableEq, Repr

inductive Mac where
  | aead
  | sha1
  | other (n : ℕ)
  deriving DecidableEq, Repr

/-- `dtls_ciphersuite_st`. -/
structure DtlsCiphersuite where
  ocName : List UInt8
  serverPrio : ℕ
  gnutlsCipher : Cipher
  gnutlsMac : Mac
  deriving DecidableEq, Repr

def ciphersuites : List DtlsCiphersuite :=
  [⟨ascii "OC-DTLS1_2-AES128-GCM", 90, .aes128Gcm, .aead⟩,
    ⟨ascii "OC-DTLS1_2-AES256-GCM", 80, .aes256Gcm, .aead⟩,
    ⟨ascii "AES128-SHA", 50, .aes128Cbc, .sha1⟩,
    ⟨ascii "DES-CBC3-SHA", 1, .tripleDesCbc, .sha1⟩]

/-- `compression_method_st`. -/
structure CompressionMethod where
  name : List UInt8
  serverPrio : ℕ
  deriving DecidableEq, Repr

def compMethods : List CompressionMethod := [⟨ascii "oc-lz4", 90⟩, ⟨ascii "lzs", 80⟩]

/-- `auth_struct_st`. -/
structure AuthMethod where
  enabled : Bool
  type : ℕ
  deriving DecidableEq, Repr

def authTypeUsernamePass : ℕ := 1

def authTypeGssapi : ℕ := 2 ^ 6

/-- `S_AUTH`. -/
inductive AuthState where
  | inactive
  | init
  | req
  | cookie
  | complete
  deriving DecidableEq, Repr

/-! ### What the headers say -/

/-- What the callbacks need from outside. -/
structure HttpConfig where
  /-- The cipher and MAC of the TLS session, if there is one. -/
  tlsSession : Option (Cipher × Mac)
  enableCompression : Bool
  authMethods : List AuthMethod
  /-- `gnutls_hex2bin` into a buffer with a content. -/
  hex2bin : List UInt8 → List UInt8 → List UInt8
  /-- `base64_decode` into a buffer of a size. -/
  base64Decode : ℕ → List UInt8 → Option (List UInt8)

/-- The fields of `http_req_st` and `worker_st` that the headers set. -/
structure Derived where
  masterSecret : List UInt8
  masterSecretSet : Bool
  hostname : List UInt8
  isMobile : Bool
  spnegoSet : Bool
  authorization : Option (List UInt8)
  userAgent : List UInt8
  userAgentType : AgentType
  selectedCiphersuite : Option DtlsCiphersuite
  cstpSelectedComp : Option CompressionMethod
  dtlsSelectedComp : Option CompressionMethod
  baseMtu : ℕ
  noIpv4 : Bool
  noIpv6 : Bool
  fullIpv6 : Bool
  /-- `ws->cookie`, if `ws->cookie_set`. -/
  cookie : Option (List UInt8)
  /-- `ws->sid`, if `ws->sid_set`. -/
  sid : Option (List UInt8)
  authState : AuthState
  /-- The index of `ws->selected_auth`. -/
  selectedAuth : ℕ
  deriving DecidableEq, Repr

/-- `ws_switch_auth_to`: the method that is selected then, and whether there is one. -/
def wsSwitchAuthTo (cfg : HttpConfig) (auth : ℕ) (selected : ℕ) : ℕ × Bool :=
  let usable := fun m : AuthMethod => m.enabled && m.type &&& auth != 0
  if (cfg.authMethods[selected]?).any usable then (selected, true)
  else
    match cfg.authMethods.findIdx? usable with
    | some i => (i, true)
    | none => (selected, false)

/-- One token of `X-DTLS-CipherSuite` against the table; a suite that matches the TLS session
ends the search for the token. -/
def selectCiphersuite (want : Option (Cipher × Mac)) (token : List UInt8) :
    List DtlsCiphersuite → Option DtlsCiphersuite → Option DtlsCiphersuite
  | [], cand => cand
  | suite :: suites, cand =>
    if token = suite.ocName ∧ cand.all (·.serverPrio < suite.serverPrio) then
      if want = some (suite.gnutlsCipher, suite.gnutlsMac) then some suite
      else selectCiphersuite want token suites (some suite)
    else selectCiphersuite want token suites cand

/-- One token of `X-CSTP-Accept-Encoding` or `X-DTLS-Accept-Encoding` against the table. -/
def selectCompression (token : List UInt8) (cand : Option CompressionMethod) :
    Option CompressionMethod :=
  compMethods.foldl (fun cand m =>
    if caseEq token m.name ∧ cand.all (·.serverPrio < m.serverPrio) then some m else cand) cand

/-- Drop spaces at the end, but not the first byte. -/
def trimEnd (p : List UInt8) : List UInt8 :=
  match (p.reverse.dropWhile cIsspace).reverse with
  | [] => p.take 1
  | p => p

/-- One token of `Cookie`. -/
def cookieToken (cfg : HttpConfig) (d : Derived) (token : List UInt8) : Derived :=
  let p := token.dropWhile cIsspace
  if (ascii "webvpn=").isPrefixOf p then
    let p := trimEnd (p.drop 7)
    match cfg.base64Decode p.length p with
    | none => { d with cookie := none }
    | some cookie => { d with cookie := some cookie, authState := .cookie }
  else if (ascii "webvpncontext=").isPrefixOf p then
    let p := trimEnd (p.drop 14)
    match cfg.base64Decode sidSize p with
    | none => { d with sid := none }
    | some sid => { d with sid := if sid.length = sidSize then some sid else none }
  else d

/-- `header_value_check`, with the bytes of `req->value`. -/
def headerValueCheck (cfg : HttpConfig) (nextHeader : Option Header) (value : List UInt8)
    (d : Derived) : Derived :=
  if value = [] then d
  else
    match nextHeader with
    | some .masterSecret =>
      if value.length < tlsMasterSize * 2 then { d with masterSecretSet := false }
      else
        { d with
          masterSecret := cfg.hex2bin (value.take (tlsMasterSize * 2)) d.masterSecret
          masterSecretSet := true }
    | some .hostname =>
      if value.length + 1 > maxHostnameSize then { d with hostname := [] }
      else { d with hostname := cString value }
    | some .deviceType => { d with isMobile := true }
    | some .supportSpnego =>
      { d with
        selectedAuth := (wsSwitchAuthTo cfg authTypeGssapi d.selectedAuth).1
        spnegoSet := true }
    | some .authorization => { d with authorization := some value }
    | some .userAgent =>
      let userAgent := cString (value.take (maxAgentName - 1))
      { d with
        userAgent := userAgent
        userAgentType :=
          if caseEq (userAgent.take 8) (ascii "Open Any") then
            if (ascii "Open AnyConnect VPN Agent v3").isPrefixOf userAgent then .openconnectV3
            else .openconnect
          else d.userAgentType }
    | some .dtlsCiphersuite =>
      { d with
        selectedCiphersuite := (strtok 58 (cString value)).foldl
          (fun cand token => selectCiphersuite cfg.tlsSession token ciphersuites cand) none }
    | some .dtlsEncoding =>
      if cfg.enableCompression then
        { d with
          dtlsSelectedComp := (strtok 44 (cString value)).foldl
            (fun cand token => selectCompression token cand) none }
      else d
    | some .cstpEncoding =>
      if cfg.enableCompression then
        { d with
          cstpSelectedComp := (strtok 44 (cString value)).foldl
            (fun cand token => selectCompression token cand) none }
      else d
    | some .cstpBaseMtu => { d with baseMtu := atoi (cString value) }
    | some .cstpAtype =>
      { d with
        noIpv4 := d.noIpv4 || !contains value (ascii "IPv4")
        noIpv6 := d.noIpv6 || !contains value (ascii "IPv6") }
    | some .fullIpv6 => { d with fullIpv6 := d.fullIpv6 || contains value (ascii "true") }
    | some .cookie => (strtok 59 (cString value)).foldl (cookieToken cfg) d
    | some .connection | none => d

/-- The fallback in `http_header_complete_cb`: a client that did not ask for SPNEGO again gets
the form. -/
def spnegoFallback (cfg : HttpConfig) (d : Derived) : Derived :=
  if (cfg.authMethods[d.selectedAuth]?).any (fun m => m.type &&& authTypeGssapi != 0) ∧
      d.authState = .inactive ∧ d.spnegoSet = false then
    { d with selectedAuth := (wsSwitchAuthTo cfg authTypeUsernamePass d.selectedAuth).1 }
  else d

end Worker

end Ocserv
