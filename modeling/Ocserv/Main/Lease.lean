import Mathlib.Data.BitVec
import Mathlib.Data.Int.Notation
import Ocserv.HTable

/-!
# Main: IP leases

`src/ip-lease.c`: how an address is chosen for a client, and the table of the addresses in use.
`get_ipv4_lease` and `get_ipv6_lease` are the function `Draw.getLease` for the two families; what
they differ in is a `Draw`.

* `Draw.getLease_spec` : an address that is granted is not in the table; only an address that was
  configured for the client is granted without its lease belonging to the table.
-/

namespace Ocserv

namespace Main

def errBadCommand : ℤ := -2
def errWaitForScript : ℤ := -5
def errMem : ℤ := -6
def errNoIp : ℤ := -8

def maxIpTries : ℕ := 16

/-- An address, in network order. -/
inductive Ip where
  | v4 (addr : BitVec 32)
  | v6 (addr : BitVec 128)
  deriving DecidableEq, Repr

/-- `ip_lease_st`.  `id` is the identity of the allocated structure. -/
structure Lease where
  id : ℕ
  rip : Ip
  lip : Ip
  /-- `db` is set. -/
  db : Bool
  /-- The destructor is `unref_ip_lease`. -/
  unref : Bool
  deriving DecidableEq, Repr

/-- `ip_lease_exists`: the comparison is of the addresses and their families. -/
def ipLeaseExists (ipLeases : List Lease) (ip : Ip) : Bool :=
  (HTable.get ipLeases fun lease => lease.rip = ip).isSome

/-- The address of the server: the network with the last bit set. -/
def serverIp {w : ℕ} (network : BitVec w) : BitVec w := network ||| 1

/-- `is_ipv4_ok`.  `mask` is a pointer to the netmask, and the bytes of the broadcast address are
taken from `SA_IN_U8_P(&mask)`: from the pointer itself, whose bytes 4 to 7 are `maskPtr`. -/
def isIpv4Ok (maskPtr : BitVec 32) (ipLeases : List Lease) (ip network _mask : BitVec 32) : Bool :=
  !(ipLeaseExists ipLeases (.v4 ip) || ip == network || ip == network ||| ~~~maskPtr)

/-- `is_ipv6_ok`. -/
def isIpv6Ok (ipLeases : List Lease) (ip network _mask : BitVec 128) : Bool :=
  !(ipLeaseExists ipLeases (.v6 ip) || ip == network)

theorem ipLeaseExists_eq_false {ipLeases : List Lease} {ip : Ip} :
    ipLeaseExists ipLeases ip = false ↔ ∀ lease ∈ ipLeases, lease.rip ≠ ip := by
  simp [ipLeaseExists, HTable.get_eq_none]

/-- What the two families differ in. -/
structure Draw (w : ℕ) where
  toIp : BitVec w → Ip
  /-- `inet_pton`. -/
  pton : String → Option (BitVec w)
  isOk : List Lease → BitVec w → BitVec w → BitVec w → Bool
  /-- The address that is tried first, from the seed in the cookie. -/
  first : BitVec 32 → BitVec w
  /-- `ip_from_seed`. -/
  fromSeed : BitVec w → BitVec w
  /-- Somebody answers to a ping, when as many tries are left. -/
  ping : ℕ → BitVec w → Bool
  isOk_spec : ∀ ipLeases ip network mask, isOk ipLeases ip network mask = true →
    ipLeaseExists ipLeases (toIp ip) = false

namespace Draw

variable {w : ℕ} (D : Draw w)

/-- The loop that looks for a free address, with `n` tries left. -/
def loop (ipLeases : List Lease) (network mask : BitVec w) : ℕ → BitVec w → Option (BitVec w)
  | 0, _ => none
  | n + 1, rnd =>
    let ip := rnd &&& ~~~mask ||| network
    if D.isOk ipLeases ip network mask ∧ serverIp network ≠ ip ∧ D.ping n ip = false then some ip
    else loop ipLeases network mask n (D.fromSeed ip)

/-- The lease of an address that was configured for the client. -/
def explicitLease (ipLeases : List Lease) (id : ℕ) (mem : Bool) (network mask : BitVec w)
    (addr : String) : Except ℤ Lease :=
  match D.pton addr with
  | none => .error (-1)
  | some ip =>
    if !mem then .error errMem
    else if !D.isOk ipLeases ip network mask then .error errNoIp
    else if serverIp network = ip then .error errNoIp
    else .ok ⟨id, D.toIp ip, D.toIp (serverIp network), false, false⟩

/-- The lease of an address that is found by `loop`. -/
def randomLease (ipLeases : List Lease) (id : ℕ) (mem : Bool) (network mask : BitVec w)
    (seed : BitVec 32) : Except ℤ Lease :=
  if !mem then .error errMem
  else
    match D.loop ipLeases network mask maxIpTries (D.first seed) with
    | none => .error errNoIp
    | some ip => .ok ⟨id, D.toIp ip, D.toIp (serverIp network), true, false⟩

/-- The address that is configured for the client is one, is not excluded by `is_ipv?_ok`, and is
not the address of the server. -/
def grantsExplicit (ipLeases : List Lease) (mem : Bool) (network netmask explicit : Option String) :
    Bool :=
  match network.bind D.pton, netmask.bind D.pton, explicit.bind D.pton with
  | some network, some mask, some ip =>
    mem && D.isOk ipLeases ip (network &&& mask) mask && serverIp (network &&& mask) != ip
  | _, _, _ => false

/-- `get_ipv4_lease` and `get_ipv6_lease`; no lease if no network is configured. -/
def getLease (ipLeases : List Lease) (id : ℕ) (mem : Bool) (seed : BitVec 32)
    (network netmask explicit : Option String) : Except ℤ (Option Lease) :=
  match network, netmask with
  | some network, some netmask =>
    match D.pton network with
    | none => .error (-1)
    | some network =>
      match D.pton netmask with
      | none => .error (-1)
      | some mask =>
        match explicit with
        | some addr => (D.explicitLease ipLeases id mem (network &&& mask) mask addr).map some
        | none => (D.randomLease ipLeases id mem (network &&& mask) mask seed).map some
  | _, _ => .ok none

end Draw

/-! ### The two families -/

/-- The libraries main uses, and the network around it, as far as the choice of an address depends
on them. -/
structure Platform where
  inetPton4 : String → Option (BitVec 32)
  inetPton6 : String → Option (BitVec 128)
  ipFromSeed4 : BitVec 32 → BitVec 32
  ipFromSeed6 : BitVec 128 → BitVec 128

/-- `ipv6_prefix_to_mask`. -/
def ipv6PrefixToMask : ℕ → Option String
  | 16 => some "ffff::"
  | 32 => some "ffff:ffff::"
  | 48 => some "ffff:ffff:ffff::"
  | 64 => some "ffff:ffff:ffff:ffff::"
  | 80 => some "ffff:ffff:ffff:ffff:ffff::"
  | 96 => some "ffff:ffff:ffff:ffff:ffff:ffff::"
  | 112 => some "ffff:ffff:ffff:ffff:ffff:ffff:ffff::"
  | 128 => some "ffff:ffff:ffff:ffff:ffff:ffff:ffff:ffff"
  | _ => none

/-- The seed is the first address. -/
def draw4 (plat : Platform) (maskPtr : BitVec 32) (ping : ℕ → BitVec 32 → Bool) : Draw 32 where
  toIp := .v4
  pton := plat.inetPton4
  isOk := isIpv4Ok maskPtr
  first seed := seed
  fromSeed := plat.ipFromSeed4
  ping := ping
  isOk_spec ipLeases ip network mask h := by
    simp only [isIpv4Ok, Bool.not_eq_true', Bool.or_eq_false_iff] at h
    exact h.1.1

/-- The seed is at the bytes 11 to 14 of the first address. -/
def draw6 (plat : Platform) (ping : ℕ → BitVec 128 → Bool) : Draw 128 where
  toIp := .v6
  pton := plat.inetPton6
  isOk := isIpv6Ok
  first seed := seed.setWidth 128 <<< 8
  fromSeed := plat.ipFromSeed6
  ping := ping
  isOk_spec ipLeases ip network mask h := by
    simp only [isIpv6Ok, Bool.not_eq_true', Bool.or_eq_false_iff] at h
    exact h.1

/-! ### What is granted -/

namespace Draw

variable {w : ℕ} {D : Draw w} {ipLeases : List Lease} {id : ℕ} {mem : Bool} {seed : BitVec 32}

theorem loop_isOk {network mask : BitVec w} {n : ℕ} {rnd ip : BitVec w}
    (h : D.loop ipLeases network mask n rnd = some ip) :
    D.isOk ipLeases ip network mask = true := by
  induction n generalizing rnd with
  | zero => cases h
  | succ n ih =>
    rw [loop] at h
    split at h
    · rename_i hok
      cases h
      exact hok.1
    · exact ih h

/-- The masked network with other bits of the host part has the same network part. -/
theorem or_network_and_mask (rnd network mask : BitVec w) :
    (rnd &&& ~~~mask ||| network &&& mask) &&& mask = network &&& mask := by
  ext i hi
  simp only [BitVec.getElem_and, BitVec.getElem_or, BitVec.getElem_not]
  cases mask[i] <;> simp

/-- A lease that no configured address stands for comes from the loop over the masked network. -/
theorem getLease_pool {network netmask : Option String} {lease : Lease} :
    D.getLease ipLeases id mem seed network netmask none = .ok (some lease) ↔
      mem = true ∧ ∃ net mask ip, network.bind D.pton = some net ∧
        netmask.bind D.pton = some mask ∧
          D.loop ipLeases (net &&& mask) mask maxIpTries (D.first seed) = some ip ∧
            lease = ⟨id, D.toIp ip, D.toIp (serverIp (net &&& mask)), true, false⟩ := by
  constructor
  · intro h
    obtain _ | network := network
    · cases h
    obtain _ | netmask := netmask
    · cases h
    simp only [getLease] at h
    split at h
    · cases h
    · rename_i net hnet
      split at h
      · cases h
      · rename_i mask hmask
        rw [randomLease] at h
        split at h
        · cases h
        · rename_i hmem
          split at h
          · cases h
          · rename_i ip hloop
            cases h
            exact ⟨by simpa using hmem, net, mask, ip, hnet, hmask, hloop, rfl⟩
  · rintro ⟨hmem, net, mask, ip, hnet, hmask, hloop, rfl⟩
    obtain ⟨network, rfl, hpton⟩ := Option.bind_eq_some_iff.1 hnet
    obtain ⟨netmask, rfl, hptonMask⟩ := Option.bind_eq_some_iff.1 hmask
    simp only [getLease, randomLease, hpton, hptonMask, hmem, hloop]
    rfl

/-- **A lease that is granted** is for an address of the family that is not in the table, and it
belongs to the table unless the address was configured for the client. -/
theorem getLease_spec {network netmask explicit : Option String} {lease : Lease}
    (h : D.getLease ipLeases id mem seed network netmask explicit = .ok (some lease)) :
    (∃ ip, lease.rip = D.toIp ip) ∧ (∀ other ∈ ipLeases, other.rip ≠ lease.rip) ∧
      (D.grantsExplicit ipLeases mem network netmask explicit = false → lease.db = true) := by
  have free {ip : BitVec w} {network mask : BitVec w}
      (hok : D.isOk ipLeases ip network mask = true) :
      ∀ other ∈ ipLeases, other.rip ≠ D.toIp ip :=
    ipLeaseExists_eq_false.1 (D.isOk_spec ipLeases ip network mask hok)
  unfold getLease at h
  split at h
  · split at h
    · cases h
    · rename_i network hnetwork
      split at h
      · cases h
      · rename_i mask hmask
        split at h
        · unfold explicitLease at h
          split at h
          · cases h
          · rename_i ip haddr
            split at h
            · cases h
            · rename_i hmem
              split at h
              · cases h
              · rename_i hok
                have hok : D.isOk ipLeases ip (network &&& mask) mask = true := by simpa using hok
                split at h
                · cases h
                · rename_i hserver
                  cases h
                  refine ⟨⟨ip, rfl⟩, free hok, ?_⟩
                  intro hgrant
                  have hgrant' := hgrant
                  simp only [grantsExplicit, Option.bind_some, hnetwork, hmask, haddr, hok,
                    Bool.and_true, Bool.and_eq_false_iff, bne_eq_false_iff_eq] at hgrant'
                  obtain hgrant' | hgrant' := hgrant'
                  · simp [hgrant'] at hmem
                  · exact absurd hgrant' hserver
        · unfold randomLease at h
          split at h
          · cases h
          · split at h
            · cases h
            · rename_i ip hloop
              cases h
              exact ⟨⟨ip, rfl⟩, free (loop_isOk hloop), fun _ => rfl⟩
  · cases h

end Draw

end Main

end Ocserv
