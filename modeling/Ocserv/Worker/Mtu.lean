import Ocserv.Cstp.Stream
import Ocserv.Machine
import Mathlib.Algebra.GroupWithZero.Nat
import Mathlib.Algebra.Group.Int.Defs

/-!
# Worker: the MTU of a connection

`src/worker-vpn.c`: `connect_handler` computes the MTU of the tunnel from the device, the
configuration, the `X-CSTP-Base-MTU` header and the TCP MSS, and subtracts the overheads of the
channels; `mtu_set`, `mtu_ok`, `mtu_not_ok` and `periodic_check` change it later.  All of it is in
`unsigned int`: the operations below are modulo `2 ^ 32`.

* `Handshake.safe_iff` : when neither the set-up nor a later step wraps or leaves the buffer.
-/

namespace Ocserv

namespace Worker

open Cstp (bufferSize)

/-- `a - b` in `unsigned int`. -/
def usub (a b : ℕ) : ℕ := (a + 2 ^ 32 - b) % 2 ^ 32

theorem usub_of_le {a b : ℕ} (h : b ≤ a) (ha : a < 2 ^ 32) : usub a b = a - b := by
  have hab : a + 2 ^ 32 - b = a - b + 2 ^ 32 := by omega
  rw [usub, hab, Nat.add_mod_right, Nat.mod_eq_of_lt (by omega)]

theorem usub_of_lt {a b : ℕ} (h : a < b) (hb : b ≤ 2 ^ 32) : usub a b = 2 ^ 32 - (b - a) := by
  rw [usub, Nat.mod_eq_of_lt (by omega)]
  omega

theorem usub_lt (a b : ℕ) : usub a b < 2 ^ 32 := Nat.mod_lt _ (by omega)

def cstpDtlsOverhead : ℕ := 1

def cstpOverhead : ℕ := 8

/-- `MIN_MTU`; `ipv6` says whether `ws->vinfo.ipv6` is set. -/
def minMtu (ipv6 : Bool) : ℕ := if ipv6 then 1281 else 257

/-! ### The MTU of a running connection -/

/-- The fields of `worker_st` for the MTU of the connection and the search for it. -/
structure Mtu where
  connMtu : ℕ
  lastGoodMtu : ℕ
  lastBadMtu : ℕ
  deriving DecidableEq, Repr

namespace Mtu

/-- `mtu_set`.  The MTU of the DTLS session and the message to main are not part of this state. -/
def mtuSet (s : Mtu) (mtu : ℕ) : Mtu := { s with connMtu := mtu }

/-- `mtu_discovery_init`. -/
def mtuDiscoveryInit (s : Mtu) (mtu : ℕ) : Mtu :=
  { s with lastGoodMtu := mtu, lastBadMtu := mtu }

/-- `mtu_not_ok`.  An error stands for -1: the DTLS session is closed and the UDP channel
disabled. -/
def mtuNotOk (min : ℕ) (s : Mtu) : Except Mtu Mtu :=
  let s := { s with lastBadMtu := s.connMtu }
  if s.lastGoodMtu = min then .error s
  else
    let s :=
      if s.lastGoodMtu ≥ s.connMtu then
        { s with lastGoodMtu := max (2 * s.connMtu % 2 ^ 32 / 3) min }
      else s
    .ok (s.mtuSet s.lastGoodMtu)

/-- `mtu_ok`. -/
def mtuOk (s : Mtu) : Mtu :=
  if s.lastBadMtu = (s.connMtu + 1) % 2 ^ 32 ∨ s.lastBadMtu = s.connMtu then s
  else
    { s with lastGoodMtu := s.connMtu }.mtuSet ((s.connMtu + s.lastBadMtu) % 2 ^ 32 / 2)

/-- The end of `periodic_check`: the MTU is reduced to what the TCP MSS leaves.  `none` is a
failed `getsockopt`. -/
def reduceToMss (mtuOverhead : ℕ) (maxseg : Option ℤ) (s : Mtu) : Mtu :=
  match maxseg with
  | none => s
  | some max =>
    let max := max - 13
    if 0 < max ∧ usub max.toNat mtuOverhead < s.connMtu then
      s.mtuSet (min s.connMtu (usub max.toNat mtuOverhead))
    else s

/-- The end of the DTLS handshake in `dtls_mainloop`; `dataMtu` is what
`gnutls_dtls_get_data_mtu` returns. -/
def handshakeDone (dataMtu : ℕ) (s : Mtu) : Mtu :=
  let mtu := min (usub dataMtu cstpDtlsOverhead) s.connMtu
  (s.mtuDiscoveryInit mtu).mtuSet mtu

end Mtu

/-! ### Set-up -/

/-- What `connect_handler` computes the MTU from. -/
structure Handshake where
  /-- `config->network.mtu`. -/
  networkMtu : ℕ
  /-- The answer to `SIOCGIFMTU`. -/
  deviceMtu : Option ℕ
  /-- `config->default_mtu`. -/
  defaultMtu : ℕ
  /-- `req->base_mtu`: `atoi` of the header. -/
  baseMtu : ℕ
  /-- The answer to `TCP_MAXSEG`. -/
  maxseg : Option ℤ
  /-- `tls_get_overhead` for the TLS session, or for the one that is guessed. -/
  tlsOverhead : ℕ
  /-- Unless `udp_state` is `UP_DISABLED`: the client connected over IPv6, and
  `tls_get_overhead` for the ciphersuite of DTLS. -/
  udp : Option (Bool × ℕ)
  networkMtu_lt : networkMtu < 2 ^ 32
  deviceMtu_lt : ∀ mtu ∈ deviceMtu, mtu < 2 ^ 32
  defaultMtu_lt : defaultMtu < 2 ^ 32
  baseMtu_lt : baseMtu < 2 ^ 32
  maxseg_lt : ∀ max ∈ maxseg, max < 2 ^ 31
  tlsOverhead_lt : tlsOverhead < 2 ^ 30
  dtlsOverhead_lt : ∀ p ∈ udp, p.2 < 2 ^ 30

namespace Handshake

variable (h : Handshake)

/-- The MTU `complete_vpn_info` finds. -/
def completeVpnInfo : ℕ :=
  if h.networkMtu ≠ 0 then h.networkMtu else h.deviceMtu.getD 1500

/-- `vinfo.mtu`. -/
def vinfoMtu : ℕ :=
  let mtu := if h.defaultMtu > 0 then h.defaultMtu else h.completeVpnInfo
  let mtu := if h.baseMtu > 0 then min mtu h.baseMtu else mtu
  match h.maxseg with
  | none => mtu
  | some max => if 0 < max - 13 ∧ (max - 13).toNat < mtu then (max - 13).toNat else mtu

/-- The IP and UDP headers. -/
def protoOverhead : Bool → ℕ
  | false => 20 + 8
  | true => 40 + 8

/-- The overheads of the channels that are open: CSTP over TLS, and DTLS. -/
def overheads : List ℕ :=
  match h.udp with
  | none => [cstpOverhead + h.tlsOverhead]
  | some (ipv6, dtlsOverhead) =>
    [cstpOverhead + h.tlsOverhead, protoOverhead ipv6 + (dtlsOverhead + cstpDtlsOverhead)]

end Handshake

/-- What `connect_handler` goes to the data loop with. -/
structure Connection where
  cryptoOverhead : ℕ
  protoOverhead : ℕ
  mtu : Mtu
  deriving DecidableEq, Repr

/-- `connect_handler` up to the data loop; `none` where it refuses a `conn_mtu` that is larger
than the buffer. -/
def connectHandler (h : Handshake) : Option Connection :=
  let cryptoOverhead := cstpOverhead + h.tlsOverhead
  let connMtu := usub h.vinfoMtu cryptoOverhead
  let (cryptoOverhead, protoOverhead, connMtu) :=
    match h.udp with
    | none => (cryptoOverhead, 0, connMtu)
    | some (ipv6, dtlsOverhead) =>
      let protoOverhead := Handshake.protoOverhead ipv6
      let cryptoOverhead := dtlsOverhead + cstpDtlsOverhead
      (cryptoOverhead, protoOverhead,
        min connMtu (usub (usub h.vinfoMtu protoOverhead) cryptoOverhead))
  if bufferSize ≤ (connMtu + cstpOverhead) % 2 ^ 32 then none
  else some ⟨cryptoOverhead, protoOverhead, connMtu, 0, 0⟩

/-! ### The steps of the data loop that compute with the MTU -/

inductive MtuStep where
  /-- `tun_mainloop` reads a packet of the device into `buffer + 8`. -/
  | tunRead
  /-- `periodic_check` with the answer to `TCP_MAXSEG`. -/
  | periodicCheck (maxseg : Option ℤ)
  /-- `dtls_mainloop` in `UP_SETUP`: the MTU of the new session. -/
  | dtlsSetup
  /-- The DTLS handshake ends. -/
  | handshakeDone (dataMtu : ℕ)
  | mtuOk
  | mtuNotOk
  deriving DecidableEq, Repr

/-- The data loop of a connection.  `ipv6` says whether `ws->vinfo.ipv6` is set. -/
def mtuLoop (ipv6 : Bool) (c : Connection) : Machine Mtu MtuStep where
  step s
    | .tunRead => some s
    | .periodicCheck maxseg => some (s.reduceToMss (c.protoOverhead + c.cryptoOverhead) maxseg)
    | .dtlsSetup => some (s.mtuDiscoveryInit s.connMtu)
    | .handshakeDone dataMtu => some (s.handshakeDone dataMtu)
    | .mtuOk => some s.mtuOk
    | .mtuNotOk =>
      match s.mtuNotOk (minMtu ipv6) with
      | .ok s => some s
      | .error s => some s

/-- A computation of the step does not wrap, and what is read fits the buffer.  Every step that
sets the MTU passes `conn_mtu + CSTP_DTLS_OVERHEAD` to the DTLS session. -/
def MtuStep.Safe (c : Connection) (s : Mtu) : MtuStep → Prop
  | .tunRead => 8 + s.connMtu ≤ bufferSize
  | .periodicCheck maxseg =>
    s.connMtu + cstpDtlsOverhead < 2 ^ 32 ∧
      ∀ max ∈ maxseg, 13 < max → c.protoOverhead + c.cryptoOverhead ≤ (max - 13).toNat
  | .dtlsSetup => s.connMtu + c.cryptoOverhead < 2 ^ 32
  | .handshakeDone _ => s.connMtu + cstpDtlsOverhead < 2 ^ 32
  | .mtuOk => s.connMtu + s.lastBadMtu < 2 ^ 32 ∧ s.connMtu + cstpDtlsOverhead < 2 ^ 32
  | .mtuNotOk =>
    2 * s.connMtu < 2 ^ 32 ∧ s.lastGoodMtu + cstpDtlsOverhead < 2 ^ 32

namespace Handshake

variable (h : Handshake)

/-- The tunnel that is set up is safe: if `connect_handler` goes to the data loop, `conn_mtu` is
positive and leaves room for the overheads, and the steps of the loop compute safely. -/
def Safe (ipv6 : Bool) (steps : List MtuStep) : Prop :=
  ∀ c, connectHandler h = some c →
    (0 < c.mtu.connMtu ∧ ∀ o ∈ h.overheads, c.mtu.connMtu + o ≤ h.vinfoMtu) ∧
      (mtuLoop ipv6 c).Meets (MtuStep.Safe c) c.mtu steps

/-- `connect_handler` refuses the connection.  Each overhead leaves too much, or is larger than
`vinfo.mtu`; where all of them are larger, the sum in the check wraps unless one of them is
larger by more than `CSTP_OVERHEAD`. -/
def Refused : Prop :=
  (∀ o ∈ h.overheads, h.vinfoMtu < o ∨ o + bufferSize ≤ h.vinfoMtu + cstpOverhead) ∧
    ∃ o ∈ h.overheads, o ≤ h.vinfoMtu ∨ h.vinfoMtu + cstpOverhead < o

/-- `vinfo.mtu` is larger than the overheads, and the TCP MSS that a `periodic_check` finds is
not smaller than the overhead of the tunnel. -/
def Fits (steps : List MtuStep) : Prop :=
  (∀ o ∈ h.overheads, o < h.vinfoMtu) ∧
    ∀ max, .periodicCheck (some max) ∈ steps → 13 < max →
      ∀ o ∈ h.overheads.getLast?, o ≤ (max - 13).toNat

end Handshake

/-! ### The data loop -/

/-- What the data loop keeps: the MTU and both ends of the search leave room for the CSTP header
in the buffer. -/
structure Mtu.Bounded (s : Mtu) : Prop where
  connMtu_lt : s.connMtu + cstpOverhead < bufferSize
  lastGoodMtu_lt : s.lastGoodMtu + cstpOverhead < bufferSize
  lastBadMtu_lt : s.lastBadMtu + cstpOverhead < bufferSize

theorem minMtu_lt (ipv6 : Bool) : minMtu ipv6 + cstpOverhead < bufferSize := by
  cases ipv6 <;> decide

section DataLoop

variable {s : Mtu}

theorem Mtu.Bounded.mtuOk (hb : s.Bounded) : s.mtuOk.Bounded := by
  obtain ⟨hconn, hgood, hbad⟩ := hb
  -- the middle of two numbers that leave room leaves room
  have hmid : (s.connMtu + s.lastBadMtu) % 2 ^ 32 / 2 + cstpOverhead < bufferSize := by
    have hmod := Nat.mod_le (s.connMtu + s.lastBadMtu) (2 ^ 32)
    omega
  unfold Mtu.mtuOk
  split
  · exact ⟨hconn, hgood, hbad⟩
  · exact ⟨hmid, hconn, hbad⟩

theorem Mtu.Bounded.mtuNotOk (hb : s.Bounded) (ipv6 : Bool) :
    (∀ s', s.mtuNotOk (minMtu ipv6) = .ok s' → s'.Bounded) ∧
      ∀ s', s.mtuNotOk (minMtu ipv6) = .error s' → s'.Bounded := by
  obtain ⟨hconn, hgood, hbad⟩ := hb
  -- two thirds of the current MTU, or the minimum
  have hnew : max (2 * s.connMtu % 2 ^ 32 / 3) (minMtu ipv6) + cstpOverhead < bufferSize := by
    have hmin := minMtu_lt ipv6
    have hmod := Nat.mod_le (2 * s.connMtu) (2 ^ 32)
    omega
  simp only [Mtu.mtuNotOk]
  split
  · exact ⟨nofun, fun s' h => by cases h; exact ⟨hconn, hgood, hconn⟩⟩
  · refine ⟨?_, nofun⟩
    intro s' h
    cases h
    split
    · exact ⟨hnew, hnew, hconn⟩
    · exact ⟨hgood, hgood, hconn⟩

theorem Mtu.Bounded.reduceToMss (hb : s.Bounded) (o : ℕ) (maxseg : Option ℤ) :
    (s.reduceToMss o maxseg).Bounded := by
  obtain ⟨hconn, hgood, hbad⟩ := hb
  unfold Mtu.reduceToMss
  cases maxseg with
  | none => exact ⟨hconn, hgood, hbad⟩
  | some max =>
    dsimp only
    split
    · exact ⟨lt_of_le_of_lt (Nat.add_le_add_right (Nat.min_le_left _ _) _) hconn, hgood, hbad⟩
    · exact ⟨hconn, hgood, hbad⟩

theorem Mtu.Bounded.handshakeDone (hb : s.Bounded) (dataMtu : ℕ) :
    (s.handshakeDone dataMtu).Bounded := by
  have hle : min (usub dataMtu cstpDtlsOverhead) s.connMtu + cstpOverhead < bufferSize :=
    lt_of_le_of_lt (Nat.add_le_add_right (Nat.min_le_right _ _) _) hb.connMtu_lt
  exact ⟨hle, hle, hle⟩

theorem Mtu.Bounded.mtuDiscoveryInit (hb : s.Bounded) : (s.mtuDiscoveryInit s.connMtu).Bounded :=
  ⟨hb.connMtu_lt, hb.connMtu_lt, hb.connMtu_lt⟩

/-- **One step of the data loop** is possible and leaves the MTU in the buffer. -/
theorem Mtu.Bounded.step (hb : s.Bounded) (ipv6 : Bool) (c : Connection) (i : MtuStep) :
    ∃ s', (mtuLoop ipv6 c).step s i = some s' ∧ s'.Bounded := by
  cases i with
  | tunRead => exact ⟨s, rfl, hb⟩
  | periodicCheck maxseg => exact ⟨_, rfl, hb.reduceToMss _ maxseg⟩
  | dtlsSetup => exact ⟨_, rfl, hb.mtuDiscoveryInit⟩
  | handshakeDone dataMtu => exact ⟨_, rfl, hb.handshakeDone dataMtu⟩
  | mtuOk => exact ⟨_, rfl, hb.mtuOk⟩
  | mtuNotOk =>
    obtain ⟨hok, herr⟩ := hb.mtuNotOk ipv6
    cases hs : s.mtuNotOk (minMtu ipv6) with
    | ok s' => exact ⟨s', by simp only [mtuLoop, hs], hok s' hs⟩
    | error s' => exact ⟨s', by simp only [mtuLoop, hs], herr s' hs⟩

/-- In the buffer, only `periodic_check` can wrap. -/
theorem Mtu.Bounded.stepSafe_iff (hb : s.Bounded) {c : Connection}
    (hc : c.cryptoOverhead < 2 ^ 31) (i : MtuStep) :
    i.Safe c s ↔ ∀ max, i = .periodicCheck (some max) → 13 < max →
      c.protoOverhead + c.cryptoOverhead ≤ (max - 13).toNat := by
  obtain ⟨hconn, hgood, hbad⟩ := hb
  simp only [cstpOverhead, bufferSize] at hconn hgood hbad
  cases i with
  | periodicCheck maxseg =>
    simp only [MtuStep.Safe, cstpDtlsOverhead, MtuStep.periodicCheck.injEq]
    constructor
    · rintro ⟨-, h⟩ max rfl
      exact h max rfl
    · intro h
      refine ⟨by omega, ?_⟩
      rintro max hmax
      exact h max hmax
  -- none of the other steps subtracts an overhead
  | tunRead => simp only [MtuStep.Safe, bufferSize, reduceCtorEq, false_imp_iff]; simp; omega
  | dtlsSetup => simp only [MtuStep.Safe, reduceCtorEq, false_imp_iff]; simp; omega
  | handshakeDone dataMtu =>
    simp only [MtuStep.Safe, cstpDtlsOverhead, reduceCtorEq, false_imp_iff]; simp; omega
  | mtuOk => simp only [MtuStep.Safe, cstpDtlsOverhead, reduceCtorEq, false_imp_iff]; simp; omega
  | mtuNotOk =>
    simp only [MtuStep.Safe, cstpDtlsOverhead, reduceCtorEq, false_imp_iff]; simp; omega

/-- **The data loop** is safe if every `periodic_check` is. -/
theorem Mtu.Bounded.meets_iff (hb : s.Bounded) (ipv6 : Bool) {c : Connection}
    (hc : c.cryptoOverhead < 2 ^ 31) (steps : List MtuStep) :
    (mtuLoop ipv6 c).Meets (MtuStep.Safe c) s steps ↔
      ∀ max, .periodicCheck (some max) ∈ steps → 13 < max →
        c.protoOverhead + c.cryptoOverhead ≤ (max - 13).toNat := by
  induction steps generalizing s with
  | nil => simp [Machine.Meets]
  | cons i is ih =>
    obtain ⟨s', hs', hb'⟩ := hb.step ipv6 c i
    have hrest : (∀ t, (mtuLoop ipv6 c).step s i = some t →
        (mtuLoop ipv6 c).Meets (MtuStep.Safe c) t is) ↔
        (mtuLoop ipv6 c).Meets (MtuStep.Safe c) s' is :=
      ⟨fun h => h s' hs', fun h t ht => by rw [hs'] at ht; cases ht; exact h⟩
    rw [Machine.Meets, hb.stepSafe_iff hc, hrest, ih hb']
    constructor
    · rintro ⟨hi, his⟩ max hmem
      rcases List.mem_cons.1 hmem with heq | hmem
      · exact hi max heq.symm
      · exact his max hmem
    · intro h
      exact ⟨fun max heq => h max (by rw [heq]; exact List.mem_cons_self),
        fun max hmem => h max (List.mem_cons_of_mem _ hmem)⟩

end DataLoop

/-! ### The set-up -/

namespace Handshake

variable (h : Handshake)

theorem completeVpnInfo_lt : h.completeVpnInfo < 2 ^ 32 := by
  unfold completeVpnInfo
  split
  · exact h.networkMtu_lt
  · cases hd : h.deviceMtu with
    | none => simp
    | some mtu => exact h.deviceMtu_lt mtu hd

theorem vinfoMtu_lt : h.vinfoMtu < 2 ^ 32 := by
  have hinfo := h.completeVpnInfo_lt
  have hdef := h.defaultMtu_lt
  have hmtu : ∀ mtu, mtu < 2 ^ 32 →
      (if h.baseMtu > 0 then min mtu h.baseMtu else mtu) < 2 ^ 32 := by
    intro mtu hlt
    split
    · exact lt_of_le_of_lt (Nat.min_le_left _ _) hlt
    · exact hlt
  have hstart := hmtu (if h.defaultMtu > 0 then h.defaultMtu else h.completeVpnInfo)
    (by split <;> assumption)
  simp only [vinfoMtu]
  generalize (if h.baseMtu > 0 then _ else _ : ℕ) = mtu at hstart ⊢
  cases h.maxseg with
  | none => exact hstart
  | some max =>
    dsimp only
    split
    · rename_i hlt
      exact hlt.2.trans hstart
    · exact hstart

theorem protoOverhead_le (ipv6 : Bool) : protoOverhead ipv6 ≤ 48 := by cases ipv6 <;> decide

/-- Subtracting one overhead after the other is subtracting their sum. -/
theorem usub_usub {v p c : ℕ} (hv : v < 2 ^ 32) (hp : p + c < 2 ^ 31) :
    usub (usub v p) c = usub v (p + c) := by
  by_cases hle : p + c ≤ v
  · rw [usub_of_le (by omega : p ≤ v) hv, usub_of_le (by omega) (by omega), usub_of_le hle hv]
    omega
  · by_cases hpv : p ≤ v
    · rw [usub_of_le hpv hv, usub_of_lt (by omega) (by omega), usub_of_lt (by omega) (by omega)]
      omega
    · rw [usub_of_lt (by omega : v < p) (by omega), usub_of_le (by omega) (by omega),
        usub_of_lt (by omega) (by omega)]
      omega

/-- `vinfo.mtu` less an overhead: the difference, or a number that wrapped. -/
theorem usub_vinfoMtu (o : ℕ) (ho : o < 2 ^ 31) :
    (o ≤ h.vinfoMtu ∧ usub h.vinfoMtu o = h.vinfoMtu - o) ∨
      (h.vinfoMtu < o ∧ usub h.vinfoMtu o = h.vinfoMtu + 2 ^ 32 - o) := by
  by_cases hle : o ≤ h.vinfoMtu
  · exact .inl ⟨hle, usub_of_le hle h.vinfoMtu_lt⟩
  · exact .inr ⟨not_le.1 hle, by rw [usub_of_lt (not_le.1 hle) (by omega)]; omega⟩

theorem overheads_lt : ∀ o ∈ h.overheads, o < 2 ^ 31 := by
  have htls := h.tlsOverhead_lt
  have hudp := h.dtlsOverhead_lt
  unfold overheads
  cases hu : h.udp with
  | none =>
    simp only [List.mem_singleton, forall_eq, cstpOverhead]
    omega
  | some p =>
    obtain ⟨ipv6, dtlsOverhead⟩ := p
    have hd := hudp _ hu
    have hp := protoOverhead_le ipv6
    dsimp only at hd ⊢
    rintro o ho
    simp only [List.mem_cons, List.not_mem_nil, or_false, cstpOverhead, cstpDtlsOverhead] at ho
    omega

theorem le_overheads : ∀ o ∈ h.overheads, cstpOverhead ≤ o := by
  unfold overheads
  cases h.udp with
  | none => simp
  | some p =>
    rintro o ho
    rcases List.mem_cons.1 ho with rfl | ho
    · exact Nat.le_add_right _ _
    · rw [List.mem_singleton.1 ho]
      cases p.1 <;> simp only [protoOverhead, cstpOverhead] <;> omega

/-- The MTU `connect_handler` arrives at: the smallest difference. -/
def connMtu : ℕ :=
  match h.udp with
  | none => usub h.vinfoMtu (cstpOverhead + h.tlsOverhead)
  | some (ipv6, dtlsOverhead) =>
    min (usub h.vinfoMtu (cstpOverhead + h.tlsOverhead))
      (usub h.vinfoMtu (protoOverhead ipv6 + (dtlsOverhead + cstpDtlsOverhead)))

theorem connMtu_le : ∀ o ∈ h.overheads, h.connMtu ≤ usub h.vinfoMtu o := by
  unfold overheads connMtu
  cases h.udp with
  | none => simp
  | some p =>
    rintro o ho
    rcases List.mem_cons.1 ho with rfl | ho
    · exact Nat.min_le_left _ _
    · rw [List.mem_singleton.1 ho]
      exact Nat.min_le_right _ _

theorem connMtu_mem : ∃ o ∈ h.overheads, h.connMtu = usub h.vinfoMtu o := by
  unfold overheads connMtu
  cases h.udp with
  | none => simp
  | some p =>
    rcases Nat.le_total (usub h.vinfoMtu (cstpOverhead + h.tlsOverhead))
      (usub h.vinfoMtu (protoOverhead p.1 + (p.2 + cstpDtlsOverhead))) with hle | hle
    · exact ⟨_, List.mem_cons_self, Nat.min_eq_left hle⟩
    · exact ⟨_, List.mem_cons_of_mem _ List.mem_cons_self, Nat.min_eq_right hle⟩

/-- **What the data loop starts from.** -/
theorem connectHandler_eq_some {c : Connection} (hc : connectHandler h = some c) :
    (h.connMtu + cstpOverhead) % 2 ^ 32 < bufferSize ∧ c.mtu = ⟨h.connMtu, 0, 0⟩ ∧
      c.protoOverhead + c.cryptoOverhead ∈ h.overheads.getLast? ∧
      c.cryptoOverhead < 2 ^ 31 := by
  have hlt := h.overheads_lt
  have hv := h.vinfoMtu_lt
  unfold connectHandler at hc
  unfold overheads at hlt ⊢
  unfold connMtu
  cases hu : h.udp with
  | none =>
    simp only [hu] at hc hlt ⊢
    split at hc
    · cases hc
    · rename_i hbuf
      cases hc
      exact ⟨not_le.1 hbuf, rfl, by simp, hlt _ List.mem_cons_self⟩
  | some p =>
    obtain ⟨ipv6, dtlsOverhead⟩ := p
    simp only [hu] at hc hlt ⊢
    have hsum := hlt _ (List.mem_cons_of_mem _ List.mem_cons_self)
    rw [usub_usub hv hsum] at hc
    split at hc
    · cases hc
    · rename_i hbuf
      cases hc
      exact ⟨not_le.1 hbuf, rfl, by simp, by dsimp only; omega⟩

theorem connectHandler_eq_none :
    connectHandler h = none ↔ bufferSize ≤ (h.connMtu + cstpOverhead) % 2 ^ 32 := by
  have hlt := h.overheads_lt
  have hv := h.vinfoMtu_lt
  unfold connectHandler
  unfold overheads at hlt
  unfold connMtu
  cases hu : h.udp with
  | none => simp only [ite_eq_left_iff, reduceCtorEq, imp_false, not_not]
  | some p =>
    obtain ⟨ipv6, dtlsOverhead⟩ := p
    simp only [hu] at hlt ⊢
    have hsum := hlt _ (List.mem_cons_of_mem _ List.mem_cons_self)
    rw [usub_usub hv hsum]
    simp only [ite_eq_left_iff, reduceCtorEq, imp_false, not_not]

/-- The check refuses the MTU in the cases of `Refused`, and when the MTU is too large for the
buffer without having wrapped. -/
theorem refused_iff :
    h.Refused ↔ bufferSize ≤ (h.connMtu + cstpOverhead) % 2 ^ 32 := by
  obtain ⟨o, ho, heq⟩ := h.connMtu_mem
  have hlt := h.overheads_lt
  have hv := h.vinfoMtu_lt
  have hsub := h.usub_vinfoMtu
  have hconn : h.connMtu < 2 ^ 32 := heq ▸ usub_lt _ _
  have hge := h.le_overheads o ho
  unfold Refused
  simp only [bufferSize, cstpOverhead] at hge ⊢
  constructor
  · rintro ⟨hall, o', ho', hor⟩
    have hle := h.connMtu_le o' ho'
    have h1 := hall o ho
    have h2 := hall o' ho'
    have hc1 := hsub o (hlt o ho)
    have hc2 := hsub o' (hlt o' ho')
    have := hlt o ho
    have := hlt o' ho'
    omega
  · intro hbuf
    refine ⟨fun o' ho' => ?_, o, ho, ?_⟩
    · have hle := h.connMtu_le o' ho'
      have hc' := hsub o' (hlt o' ho')
      have := hlt o' ho'
      omega
    · have hc' := hsub o (hlt o ho)
      have := hlt o ho
      omega

/-- With an MTU that did not wrap, the check keeps all of the data loop in the buffer. -/
theorem bounded_of_le (hbuf : (h.connMtu + cstpOverhead) % 2 ^ 32 < bufferSize)
    (hle : h.connMtu ≤ h.vinfoMtu - cstpOverhead) (hov : cstpOverhead ≤ h.vinfoMtu) :
    Mtu.Bounded ⟨h.connMtu, 0, 0⟩ := by
  have hv := h.vinfoMtu_lt
  have hsum : h.connMtu + cstpOverhead < 2 ^ 32 := by
    simp only [cstpOverhead] at hle hov ⊢
    omega
  have hzero : 0 + cstpOverhead < bufferSize := by decide
  rw [Nat.mod_eq_of_lt hsum] at hbuf
  exact ⟨hbuf, hzero, hzero⟩

/-- **When the MTU set-up and the data loop are safe.**  `connect_handler` refuses the
connection, or `vinfo.mtu` is larger than the overhead of every channel and no `periodic_check`
finds a TCP MSS (less 13) between zero and the overhead. -/
theorem safe_iff (ipv6 : Bool) (steps : List MtuStep) :
    h.Safe ipv6 steps ↔ h.Refused ∨ h.Fits steps := by
  obtain ⟨o, ho, heq⟩ := h.connMtu_mem
  have hsub := h.usub_vinfoMtu o (h.overheads_lt o ho)
  have hge := h.le_overheads o ho
  cases hc : connectHandler h with
  | none =>
    have href : h.Refused := h.refused_iff.2 (h.connectHandler_eq_none.1 hc)
    refine ⟨fun _ => .inl href, fun _ c hc' => ?_⟩
    rw [hc] at hc'
    cases hc'
  | some c =>
    obtain ⟨hbuf, hmtu, hlast, hcrypto⟩ := h.connectHandler_eq_some hc
    have hnot : ¬ h.Refused := fun href => absurd (h.refused_iff.1 href) (not_le.2 hbuf)
    -- the condition on the steps, once the MTU did not wrap
    have hloop : h.connMtu ≤ h.vinfoMtu - cstpOverhead → cstpOverhead ≤ h.vinfoMtu →
        ((mtuLoop ipv6 c).Meets (MtuStep.Safe c) c.mtu steps ↔
          ∀ max, .periodicCheck (some max) ∈ steps → 13 < max →
            ∀ o ∈ h.overheads.getLast?, o ≤ (max - 13).toNat) := by
      intro hle hov
      rw [hmtu, (h.bounded_of_le hbuf hle hov).meets_iff ipv6 hcrypto]
      constructor
      · intro hs max hmem hmax o' ho'
        rw [Option.mem_def, Option.mem_def.1 hlast, Option.some.injEq] at ho'
        exact ho' ▸ hs max hmem hmax
      · intro hs max hmem hmax
        exact hs max hmem hmax _ hlast
    constructor
    · intro hsafe
      obtain ⟨⟨hpos, hroom⟩, hmeets⟩ := hsafe c hc
      rw [hmtu] at hpos hroom
      have hroom' := hroom o ho
      dsimp only at hpos hroom hroom'
      refine .inr ⟨?_, (hloop (by omega) (by omega)).1 hmeets⟩
      intro o' ho'
      have := hroom o' ho'
      omega
    · rintro (href | ⟨hlt, hsteps⟩) c' hc'
      · exact absurd href hnot
      · rw [hc] at hc'
        cases hc'
        have ho_lt := hlt o ho
        refine ⟨?_, (hloop (by omega) (by omega)).2 hsteps⟩
        rw [hmtu]
        refine ⟨by dsimp only; omega, ?_⟩
        intro o' ho'
        have hle := h.connMtu_le o' ho'
        have ho'_lt := hlt o' ho'
        rw [usub_of_le ho'_lt.le h.vinfoMtu_lt] at hle
        dsimp only
        omega

/-- A client with `X-CSTP-Base-MTU: 44`, over TLS with an overhead of 37 bytes and without
DTLS: `conn_mtu` is `2 ^ 32 - 1`, and the check of the buffer size sees 7. -/
def smallBaseMtu : Handshake where
  networkMtu := 0
  deviceMtu := some 1500
  defaultMtu := 0
  baseMtu := 44
  maxseg := none
  tlsOverhead := 37
  udp := none
  networkMtu_lt := by decide
  deviceMtu_lt := by simp
  defaultMtu_lt := by decide
  baseMtu_lt := by decide
  maxseg_lt := by simp
  tlsOverhead_lt := by decide
  dtlsOverhead_lt := by simp

theorem not_safe_smallBaseMtu : ¬ smallBaseMtu.Safe false [.tunRead] := by
  intro hsafe
  have hc : connectHandler smallBaseMtu = some ⟨45, 0, ⟨2 ^ 32 - 1, 0, 0⟩⟩ := by decide
  obtain ⟨⟨-, hroom⟩, -⟩ := hsafe _ hc
  have := hroom 45 (by decide)
  revert this
  decide

end Handshake

end Worker

end Ocserv
