import Ocserv.Machine
import Ocserv.SecMod.Entry

/-!
# Worker: client certificates across TLS handshakes

`verify_certificate_cb` (`src/tlslib.c`) runs in every handshake in which the client is asked for a
certificate, and `get_cert_names` (`src/worker-auth.c`) records the names of one.  The callback
means to compare the names of a later certificate with those that are recorded, but
`get_cert_names` does nothing when names are recorded already.

* `noSwitch_iff` : the user cannot change in a later handshake exactly in the runs in which GnuTLS
  itself refuses every certificate of another user;
* `not_noSwitch_renegotiation` : a handshake with the certificate of another user that succeeds.
-/

namespace Ocserv

namespace Worker

open SecMod (Bytes maxUsernameSize)

/-- What GnuTLS reads from a certificate. -/
structure Cert where
  /-- `gnutls_x509_crt_import` accepts it. -/
  imports : Bool
  dn : Bytes
  /-- The values of an attribute of the DN; one that cannot be read is `none`. -/
  rdn : String → List (Option Bytes)

/-- What `gnutls_certificate_verify_peers2` says of a certificate. -/
inductive Verdict
  | error
  | invalid
  | valid
  deriving DecidableEq, Repr

/-- The options for client certificates. -/
structure CertConfig where
  certUserOid : Option String
  certGroupOid : Option String
  ciscoClientCompat : Bool
  /-- `cert_req` is `GNUTLS_CERT_REQUIRE`. -/
  certRequire : Bool

/-- The fields of `worker_st` for client certificates.  `peers` is the certificate of the TLS
session. -/
structure CertSt where
  certUsername : Bytes
  certGroups : List Bytes
  certAuthOk : Bool
  peers : Option Cert

variable (cfg : CertConfig)

/-- The name that is written to `cert_username`, if there is one that fits. -/
def Cert.user (cert : Cert) : Option Bytes :=
  let name :=
    match cfg.certUserOid with
    | some oid => (cert.rdn oid).head?.join
    | none => some cert.dn
  name.filter fun n => n.length < maxUsernameSize

/-- The loop of `get_cert_names` over the groups, from index `i`; `mem` tells which allocations
succeed. -/
def certGroupNames (mem : ℕ → Bool) : ℕ → List (Option Bytes) → Option (List Bytes)
  | i, [] => if mem i then some [] else none
  | i, value :: values =>
    if mem i then
      match value with
      | none => none
      | some group => (certGroupNames mem (i + 1) values).map (group :: ·)
    else none

/-- `get_cert_names`: the state, and whether it succeeds.  `init` tells whether a certificate can be
allocated. -/
def getCertNames (init : Bool) (mem : ℕ → Bool) (ws : CertSt) (cert : Cert) : CertSt × Bool :=
  if ws.certUsername ≠ [] ∨ ws.certGroups.length > 0 then (ws, true)
  else if !init || !cert.imports then (ws, false)
  else
    match cert.user cfg with
    | none => (ws, false)
    | some user =>
      let ws := { ws with certUsername := user }
      match cfg.certGroupOid with
      | none => (ws, true)
      | some oid =>
        match certGroupNames mem 0 (cert.rdn oid) with
        | none => (ws, false)
        | some groups => ({ ws with certGroups := groups }, true)

/-- `get_cert_info`. -/
def getCertInfo (init : Bool) (mem : ℕ → Bool) (ws : CertSt) : CertSt × Bool :=
  match ws.peers with
  | none => (ws, false)
  | some cert => getCertNames cfg init mem ws cert

/-- The comparison of `verify_certificate_cb` with the names that are recorded. -/
def compareNames (init : Bool) (mem : ℕ → Bool) (ws : CertSt) : CertSt × Bool :=
  if ws.certUsername ≠ [] then
    match ws.peers with
    | none => (ws, true)
    | some cert =>
      let prev := ws.certUsername
      let (ws, ok) := getCertNames cfg init mem ws cert
      (ws, ok && decide (prev = ws.certUsername))
  else (ws, true)

/-- `verify_certificate_cb`, in a handshake of the TLS or the DTLS session: the state, and whether
the handshake goes on. -/
def verifyCertificateCb (dtls init : Bool) (mem : ℕ → Bool) (verdict : Verdict) (ws : CertSt) :
    CertSt × Bool :=
  if dtls then (ws, false)
  else
    let ws := { ws with certAuthOk := false }
    let (ws, same) := compareNames cfg init mem ws
    if !same then (ws, false)
    else
      match ws.peers with
      | none => (ws, cfg.ciscoClientCompat || !cfg.certRequire)
      | some _ =>
        match verdict with
        | .error => (ws, false)
        | .invalid => (ws, false)
        | .valid => ({ ws with certAuthOk := true }, true)

/-- What happens on the connection: a handshake of the TLS session, with a certificate or none; one
of the DTLS session; an HTTP request whose handler reads the certificate if it is valid. -/
inductive CertLabel
  | handshake (peers : Option Cert) (verdict : Verdict) (init : Bool) (mem : ℕ → Bool)
  | dtlsHandshake (verdict : Verdict)
  | request (init : Bool) (mem : ℕ → Bool)

/-- The worker.  It ends when a handshake of the TLS session fails. -/
def certMachine : Machine CertSt CertLabel where
  step ws
    | .handshake peers verdict init mem =>
      let r := verifyCertificateCb cfg false init mem verdict { ws with peers := peers }
      if r.2 then some r.1 else none
    | .dtlsHandshake verdict =>
      some (verifyCertificateCb cfg true true (fun _ => true) verdict ws).1
    | .request init mem => some (if ws.certAuthOk then (getCertInfo cfg init mem ws).1 else ws)

/-- A worker at the start of a connection. -/
def certStart : CertSt := ⟨[], [], false, none⟩

/-! ### What is asked of the callback -/

/-- The certificate carries the name `user`. -/
def Cert.Carries (cert : Cert) (user : Bytes) : Prop :=
  cert.imports = true ∧ cert.user cfg = some user

/-- The certificate is not one of the user that is recorded, if one is. -/
def OtherUser (ws : CertSt) (peers : Option Cert) : Prop :=
  ws.certUsername ≠ [] ∧ ∃ cert, peers = some cert ∧ ¬ cert.Carries cfg ws.certUsername

/-- A handshake with the certificate of another user fails. -/
def NoSwitch (ws : CertSt) : CertLabel → Prop
  | .handshake peers verdict init mem => OtherUser cfg ws peers →
      (verifyCertificateCb cfg false init mem verdict { ws with peers := peers }).2 = false
  | _ => True

/-- The certificate that was found valid carries the name that is recorded. -/
def ValidIsRecorded (ws : CertSt) : Prop :=
  ws.certAuthOk = true → ws.certUsername ≠ [] →
    ∃ cert, ws.peers = some cert ∧ cert.Carries cfg ws.certUsername

/-- GnuTLS does not find the certificate of another user valid. -/
def Refuses (ws : CertSt) : CertLabel → Prop
  | .handshake peers verdict _ _ => OtherUser cfg ws peers → verdict ≠ .valid
  | _ => True

variable {cfg} {ws ws' : CertSt}

/-! ### What the functions do -/

theorem getCertNames_recorded {init : Bool} {mem : ℕ → Bool} {cert : Cert}
    (h : ws.certUsername ≠ []) : getCertNames cfg init mem ws cert = (ws, true) := by
  rw [getCertNames, if_pos (.inl h)]

/-- `get_cert_names` leaves the session alone, and a name that it records is that of the
certificate. -/
theorem getCertNames_spec (cfg : CertConfig) (init : Bool) (mem : ℕ → Bool) (ws : CertSt)
    (cert : Cert) :
    let r := (getCertNames cfg init mem ws cert).1
    r.peers = ws.peers ∧ r.certAuthOk = ws.certAuthOk ∧
      (r.certUsername = ws.certUsername ∨ cert.Carries cfg r.certUsername) := by
  rw [getCertNames]
  split
  · exact ⟨rfl, rfl, .inl rfl⟩
  · split
    · exact ⟨rfl, rfl, .inl rfl⟩
    · rename_i himport
      have himport : cert.imports = true := by simp at himport; exact himport.2
      cases huser : cert.user cfg with
      | none => exact ⟨rfl, rfl, .inl rfl⟩
      | some user =>
        dsimp only
        split
        · exact ⟨rfl, rfl, .inr ⟨himport, huser⟩⟩
        · split
          · exact ⟨rfl, rfl, .inr ⟨himport, huser⟩⟩
          · exact ⟨rfl, rfl, .inr ⟨himport, huser⟩⟩

/-- The comparison never fails, and changes nothing. -/
theorem compareNames_eq (init : Bool) (mem : ℕ → Bool) (ws : CertSt) :
    compareNames cfg init mem ws = (ws, true) := by
  rw [compareNames]
  split
  · rename_i hname
    cases ws.peers with
    | none => rfl
    | some cert => simp [getCertNames_recorded hname]
  · rfl

/-- So the callback of a TLS handshake is the verification of GnuTLS. -/
theorem verifyCertificateCb_eq (init : Bool) (mem : ℕ → Bool) (verdict : Verdict) (ws : CertSt) :
    verifyCertificateCb cfg false init mem verdict ws =
      match ws.peers with
      | none => ({ ws with certAuthOk := false }, cfg.ciscoClientCompat || !cfg.certRequire)
      | some _ => ({ ws with certAuthOk := verdict = .valid }, verdict = .valid) := by
  rw [verifyCertificateCb, if_neg Bool.false_ne_true]
  dsimp only
  rw [compareNames_eq]
  dsimp only
  cases ws.peers with
  | none => rfl
  | some cert => cases verdict <;> rfl

/-! ### Steps -/

/-- A handshake with the certificate of another user fails exactly if GnuTLS refuses it. -/
theorem noSwitch_iff_refuses (i : CertLabel) : NoSwitch cfg ws i ↔ Refuses cfg ws i := by
  cases i with
  | handshake peers verdict init mem =>
    simp only [NoSwitch, Refuses]
    refine forall_congr' ?_
    rintro ⟨-, cert, rfl, -⟩
    rw [verifyCertificateCb_eq]
    exact decide_eq_false_iff_not
  | dtlsHandshake verdict => exact Iff.rfl
  | request init mem => exact Iff.rfl

theorem ValidIsRecorded.step {i : CertLabel} (h : ValidIsRecorded cfg ws) (hi : Refuses cfg ws i)
    (hs : (certMachine cfg).step ws i = some ws') : ValidIsRecorded cfg ws' := by
  cases i with
  | handshake peers verdict init mem =>
    simp only [certMachine, verifyCertificateCb_eq, Option.ite_none_right_eq_some] at hs
    cases peers with
    | none =>
      obtain ⟨-, hs⟩ := hs
      cases hs
      intro hok
      cases hok
    | some cert =>
      obtain ⟨hvalid, hs⟩ := hs
      cases hs
      intro _ hname
      refine ⟨cert, rfl, ?_⟩
      by_contra hother
      exact hi ⟨hname, cert, rfl, hother⟩ (of_decide_eq_true hvalid)
  | dtlsHandshake verdict =>
    cases hs
    exact h
  | request init mem =>
    simp only [certMachine, Option.some.injEq] at hs
    split at hs
    · rename_i hok
      cases hpeers : ws.peers with
      | none =>
        rw [getCertInfo, hpeers] at hs
        exact hs ▸ h
      | some cert =>
        obtain ⟨hp, hauth, hname⟩ := getCertNames_spec cfg init mem ws cert
        rw [getCertInfo, hpeers] at hs
        obtain rfl := hs
        intro _ hne
        obtain hname | hname := hname
        · rw [hp, hname]
          exact h hok (hname ▸ hne)
        · exact ⟨cert, hp.trans hpeers, hname⟩
    · exact hs ▸ h

/-- A certificate of another user that GnuTLS finds valid is accepted. -/
theorem not_validIsRecorded_of_accepted {i : CertLabel} (hi : ¬ Refuses cfg ws i) :
    ∃ ws', (certMachine cfg).step ws i = some ws' ∧ ¬ ValidIsRecorded cfg ws' := by
  cases i with
  | handshake peers verdict init mem =>
    simp only [Refuses, ne_eq, Classical.not_imp, not_not] at hi
    obtain ⟨⟨hname, cert, rfl, hother⟩, rfl⟩ := hi
    refine ⟨{ ws with peers := some cert, certAuthOk := true }, ?_, ?_⟩
    · simp [certMachine, verifyCertificateCb_eq]
    · intro h
      obtain ⟨cert', hcert, hcarries⟩ := h rfl hname
      cases hcert
      exact hother hcarries
  | dtlsHandshake verdict => exact absurd trivial hi
  | request init mem => exact absurd trivial hi

/-! ### Runs -/

theorem certStart_validIsRecorded : ValidIsRecorded cfg certStart := by
  intro hok
  cases hok

/-- **The user of a connection.**  In every run: every handshake with a certificate of another user
than the one that is recorded fails, and a certificate that counts as valid is always one of the
user that is recorded, if and only if GnuTLS refuses every certificate of another user. -/
theorem noSwitch_iff (cfg : CertConfig) (is : List CertLabel) :
    ((certMachine cfg).Meets (NoSwitch cfg) certStart is ∧
      (certMachine cfg).Always (ValidIsRecorded cfg) certStart is) ↔
      (certMachine cfg).Meets (Refuses cfg) certStart is := by
  constructor
  · rintro ⟨h, -⟩
    exact h.imp fun _ i hi => (noSwitch_iff_refuses i).1 hi
  · intro h
    refine ⟨h.imp fun _ i hi => (noSwitch_iff_refuses i).2 hi, ?_⟩
    exact Machine.always_of_step (fun _ _ _ hv hi hs => hv.step hi hs)
      certStart_validIsRecorded h

/-- Each half of the law fails in the runs in which the other does. -/
theorem validIsRecorded_iff (cfg : CertConfig) (is : List CertLabel) :
    (certMachine cfg).Always (ValidIsRecorded cfg) certStart is ↔
      (certMachine cfg).Meets (Refuses cfg) certStart is :=
  Machine.always_iff_meets (fun _ h => h) (fun _ _ _ hv hi hs => hv.step hi hs)
    (fun _ _ _ hi => not_validIsRecorded_of_accepted hi) certStart_validIsRecorded

namespace Sample

/-- A certificate of the user `name`. -/
def userCert (name : Bytes) : Cert := ⟨true, name, fun _ => [some name]⟩

def certConfig : CertConfig := ⟨some "0.9.2342.19200300.100.1.1", none, false, false⟩

/-- A client connects with the certificate of `a`, which is recorded, and renegotiates with that of
`b`. -/
def renegotiation : List CertLabel :=
  [.handshake (some (userCert [97])) .valid true fun _ => true, .request true fun _ => true,
    .handshake (some (userCert [98])) .valid true fun _ => true]

end Sample

open Sample in
/-- The second handshake succeeds, and the certificate of `b` is valid for the user `a`. -/
theorem not_noSwitch_renegotiation :
    ∃ ws, (certMachine certConfig).run certStart renegotiation = some ws ∧
      ws.certAuthOk = true ∧ ws.certUsername = [97] ∧
        ws.peers.bind (Cert.user certConfig) = some [98] ∧
          ¬ (certMachine certConfig).Meets (NoSwitch certConfig) certStart renegotiation := by
  refine ⟨_, rfl, rfl, rfl, rfl, ?_⟩
  intro h
  have hother : OtherUser certConfig ⟨[97], [], true, some (userCert [97])⟩
      (some (userCert [98])) := by
    refine ⟨List.cons_ne_nil _ _, _, rfl, ?_⟩
    intro hcarries
    exact absurd hcarries.2 (by decide)
  exact absurd (((h.2 _ rfl).2 _ rfl).1 hother) (by decide)

end Worker

end Ocserv
