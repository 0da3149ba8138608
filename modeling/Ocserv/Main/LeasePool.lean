import Ocserv.Main.Server

/-!
# Main: the addresses of the pool

Which address `get_ipv4_lease` and `get_ipv6_lease` give to a client for which none is configured:
the first one they draw that passes their tests (`Draw.loop_eq_some_iff`).  It lies in the masked
network, is not the address of the network or of the server, and is not in the table.

The broadcast address of an IPv4 network is meant to be set aside as well, but `is_ipv4_ok` makes
it from the bytes of the pointer to the netmask.

* `pool_lease_valid_iff` : the lease is a valid one unless the broadcast address is drawn first; for
  every seed only if `is_ipv4_ok` refuses that address for another reason;
* `not_pool_lease_valid_broadcast` : the broadcast address of `10.0.0.0/24` is given to a client.
-/

namespace Ocserv

namespace Main

/-- The broadcast address of a masked network. -/
def broadcast {w : ℕ} (network mask : BitVec w) : BitVec w := network ||| ~~~mask

/-- The lease of `ip` lies in the masked network of `network`, and is neither for the network's own
address nor for the server's, nor for one in the table. -/
structure InPool {w : ℕ} (toIp : BitVec w → Ip) (ipLeases : List Lease)
    (network mask ip : BitVec w) (lease : Lease) : Prop where
  rip : lease.rip = toIp ip
  lip : lease.lip = toIp (serverIp (network &&& mask))
  inside : ip &&& mask = network &&& mask
  ne_network : ip ≠ network &&& mask
  ne_lip : lease.rip ≠ lease.lip
  free : ∀ other ∈ ipLeases, other.rip ≠ lease.rip

/-! ### The draws -/

namespace Draw

variable {w : ℕ} (D : Draw w) (ipLeases : List Lease) (network mask : BitVec w)

/-- The address of the draw number `k`, if `rnd` is the first random one. -/
def draw (rnd : BitVec w) : ℕ → BitVec w
  | 0 => rnd &&& ~~~mask ||| network
  | k + 1 => D.fromSeed (draw rnd k) &&& ~~~mask ||| network

/-- The address passes the tests, with `left` more tries. -/
def Usable (left : ℕ) (ip : BitVec w) : Prop :=
  D.isOk ipLeases ip network mask = true ∧ serverIp network ≠ ip ∧ D.ping left ip = false

/-- Of `n` draws, the draw number `k` is the first that is usable. -/
structure FirstUsable (n : ℕ) (rnd : BitVec w) (k : ℕ) : Prop where
  lt : k < n
  usable : D.Usable ipLeases network mask (n - 1 - k) (D.draw network mask rnd k)
  before : ∀ j < k, ¬ D.Usable ipLeases network mask (n - 1 - j) (D.draw network mask rnd j)

variable {D ipLeases network mask} {id : ℕ} {mem : Bool} {seed : BitVec 32}

theorem draw_succ (rnd : BitVec w) (k : ℕ) :
    D.draw network mask rnd (k + 1) =
      D.draw network mask (D.fromSeed (D.draw network mask rnd 0)) k := by
  induction k with
  | zero => rfl
  | succ k ih => exact congrArg (fun ip => D.fromSeed ip &&& ~~~mask ||| network) ih

/-- A draw is a random address put into the network. -/
theorem exists_draw_eq (D : Draw w) (network mask rnd : BitVec w) (k : ℕ) :
    ∃ rnd' : BitVec w, D.draw network mask rnd k = rnd' &&& ~~~mask ||| network := by
  cases k with
  | zero => exact ⟨rnd, rfl⟩
  | succ k => exact ⟨_, rfl⟩

/-- After a draw that is not usable, the others are those that start from its hash. -/
theorem firstUsable_succ {n k : ℕ} {rnd : BitVec w} :
    D.FirstUsable ipLeases network mask (n + 1) rnd (k + 1) ↔
      ¬ D.Usable ipLeases network mask n (D.draw network mask rnd 0) ∧
        D.FirstUsable ipLeases network mask n (D.fromSeed (D.draw network mask rnd 0)) k := by
  have hleft : ∀ j, n + 1 - 1 - (j + 1) = n - 1 - j := fun j => by omega
  constructor
  · rintro ⟨hlt, husable, hbefore⟩
    refine ⟨hbefore 0 k.succ_pos, Nat.lt_of_succ_lt_succ hlt, ?_, fun j hj => ?_⟩
    · rwa [hleft, draw_succ] at husable
    · have h := hbefore (j + 1) (Nat.succ_lt_succ hj)
      rwa [hleft, draw_succ] at h
  · rintro ⟨hfirst, hlt, husable, hbefore⟩
    refine ⟨Nat.succ_lt_succ hlt, by rwa [hleft, draw_succ], fun j hj => ?_⟩
    cases j with
    | zero => exact hfirst
    | succ j =>
      rw [hleft, draw_succ]
      exact hbefore j (Nat.lt_of_succ_lt_succ hj)

/-- **The loop** returns the first draw that is usable. -/
theorem loop_eq_some_iff {n : ℕ} {rnd ip : BitVec w} :
    D.loop ipLeases network mask n rnd = some ip ↔
      ∃ k, D.FirstUsable ipLeases network mask n rnd k ∧ D.draw network mask rnd k = ip := by
  induction n generalizing rnd with
  | zero => exact ⟨nofun, fun ⟨k, hk, _⟩ => absurd hk.lt (Nat.not_lt_zero k)⟩
  | succ n ih =>
    rw [loop]
    split
    · rename_i husable
      have hfirst : D.FirstUsable ipLeases network mask (n + 1) rnd 0 :=
        ⟨n.succ_pos, husable, fun j hj => absurd hj (Nat.not_lt_zero j)⟩
      constructor
      · intro h
        exact ⟨0, hfirst, Option.some.inj h⟩
      · rintro ⟨k, hk, rfl⟩
        cases k with
        | zero => rfl
        | succ k => exact absurd husable (firstUsable_succ.1 hk).1
    · rename_i husable
      rw [ih]
      constructor
      · rintro ⟨k, hk, rfl⟩
        exact ⟨k + 1, firstUsable_succ.2 ⟨husable, hk⟩, draw_succ rnd k⟩
      · rintro ⟨k, hk, rfl⟩
        cases k with
        | zero => exact absurd hk.usable husable
        | succ k => exact ⟨k, (firstUsable_succ.1 hk).2, (draw_succ rnd k).symm⟩

theorem getLease_inPool (hinj : Function.Injective D.toIp)
    (hnet : ∀ ip network mask, D.isOk ipLeases ip network mask = true → ip ≠ network)
    {network netmask : Option String} {lease : Lease}
    (h : D.getLease ipLeases id mem seed network netmask none = .ok (some lease)) :
    ∃ net mask k, network.bind D.pton = some net ∧ netmask.bind D.pton = some mask ∧
      D.FirstUsable ipLeases (net &&& mask) mask maxIpTries (D.first seed) k ∧
        InPool D.toIp ipLeases net mask (D.draw (net &&& mask) mask (D.first seed) k) lease := by
  obtain ⟨-, net, mask, ip, hn, hm, hloop, rfl⟩ := getLease_pool.1 h
  obtain ⟨k, hk, rfl⟩ := loop_eq_some_iff.1 hloop
  obtain ⟨hok, hserver, -⟩ := hk.usable
  refine ⟨net, mask, k, hn, hm, hk, ⟨rfl, rfl, ?_, hnet _ _ _ hok, ?_, ?_⟩⟩
  · obtain ⟨rnd, hrnd⟩ := exists_draw_eq D (net &&& mask) mask (D.first seed) k
    rw [hrnd]
    exact or_network_and_mask rnd net mask
  · intro heq
    exact hserver (hinj heq).symm
  · exact ipLeaseExists_eq_false.1 (D.isOk_spec ipLeases _ _ mask hok)

end Draw

/-! ### The two families -/

section

variable (plat : Platform) (cfg : Config) (env : Env) (s : MainSt) (p : Proc)

/-- Where no IPv4 address is configured for the client, the lease it gets is in the pool of its
network, and not for the network's broadcast address. -/
def PoolIpv4Valid : Prop :=
  p.config.explicitIpv4 = none → ∀ lease, getIpv4Lease plat cfg env s p = .ok (some lease) →
    ∃ network mask ip, (ipv4Network cfg p).1.bind plat.inetPton4 = some network ∧
      (ipv4Network cfg p).2.bind plat.inetPton4 = some mask ∧
        InPool .v4 s.ipLeases network mask ip lease ∧ ip ≠ broadcast (network &&& mask) mask

/-- The same for IPv6, where there is no broadcast address. -/
def PoolIpv6Valid : Prop :=
  p.config.explicitIpv6 = none → ∀ lease, getIpv6Lease plat cfg env s p = .ok (some lease) →
    ∃ network mask ip, (ipv6Network cfg p).1.bind plat.inetPton6 = some network ∧
      (ipv6Network cfg p).2.bind plat.inetPton6 = some mask ∧
        InPool .v6 s.ipLeases network mask ip lease

/-- The client gets an address of the masked network `network`. -/
structure Drawn (network mask : BitVec 32) : Prop where
  explicit : p.config.explicitIpv4 = none
  network : ((ipv4Network cfg p).1.bind plat.inetPton4).map (· &&& mask) = some network
  mask : (ipv4Network cfg p).2.bind plat.inetPton4 = some mask

/-- The first of the draws from the seed that is usable is the broadcast address. -/
def DrawsBroadcast : Prop :=
  env.mem4 = true ∧ ∃ network mask, Drawn plat cfg p network mask ∧
    ∃ k, (draw4 plat env.maskPtr4 env.ping4).FirstUsable s.ipLeases network mask maxIpTries
        p.ipv4Seed k ∧
      (draw4 plat env.maskPtr4 env.ping4).draw network mask p.ipv4Seed k = broadcast network mask

/-- `is_ipv4_ok` refuses the broadcast address, or it is the address of the server. -/
def BroadcastRefused : Prop :=
  ∀ network mask, Drawn plat cfg p network mask →
    isIpv4Ok env.maskPtr4 s.ipLeases (broadcast network mask) network mask = false ∨
      serverIp network = broadcast network mask

end

section

variable {plat : Platform} {cfg : Config} {env : Env} {s : MainSt} {p : Proc}

theorem isIpv4Ok_ne_network (maskPtr : BitVec 32) (ipLeases : List Lease)
    (ip network mask : BitVec 32) (h : isIpv4Ok maskPtr ipLeases ip network mask = true) :
    ip ≠ network := by
  simp only [isIpv4Ok, Bool.not_eq_true', Bool.or_eq_false_iff, beq_eq_false_iff_ne] at h
  exact h.1.2

theorem isIpv6Ok_ne_network (ipLeases : List Lease) (ip network mask : BitVec 128)
    (h : isIpv6Ok ipLeases ip network mask = true) : ip ≠ network := by
  simp only [isIpv6Ok, Bool.not_eq_true', Bool.or_eq_false_iff, beq_eq_false_iff_ne] at h
  exact h.2

theorem poolIpv4Valid_iff : PoolIpv4Valid plat cfg env s p ↔ ¬ DrawsBroadcast plat cfg env s p := by
  constructor
  · rintro hvalid ⟨hmem, network, mask, ⟨hexplicit, hnet, hmask⟩, k, hk, hdraw⟩
    obtain ⟨net, hn, rfl⟩ := Option.map_eq_some_iff.1 hnet
    have hloop := Draw.loop_eq_some_iff.2 ⟨k, hk, hdraw⟩
    have hlease : getIpv4Lease plat cfg env s p = .ok (some ⟨s.nextLease,
        .v4 (broadcast (net &&& mask) mask), .v4 (serverIp (net &&& mask)), true, false⟩) := by
      rw [getIpv4Lease, hexplicit]
      exact Draw.getLease_pool.2 ⟨hmem, net, mask, _, hn, hmask, hloop, rfl⟩
    obtain ⟨net', mask', ip, hn', hm', hpool, hne⟩ := hvalid hexplicit _ hlease
    obtain rfl := Option.some.inj (hn.symm.trans hn')
    obtain rfl := Option.some.inj (hmask.symm.trans hm')
    exact hne (Ip.v4.inj hpool.rip).symm
  · intro hdraws hexplicit lease h
    rw [getIpv4Lease, hexplicit] at h
    have hmem := (Draw.getLease_pool.1 h).1
    obtain ⟨net, mask, k, hn, hm, hk, hpool⟩ := Draw.getLease_inPool (fun _ _ h => Ip.v4.inj h)
      (isIpv4Ok_ne_network env.maskPtr4 s.ipLeases) h
    have hdrawn : Drawn plat cfg p (net &&& mask) mask :=
      ⟨hexplicit, Option.map_eq_some_iff.2 ⟨net, hn, rfl⟩, hm⟩
    refine ⟨net, mask, _, hn, hm, hpool, fun heq => ?_⟩
    exact hdraws ⟨hmem, net &&& mask, mask, hdrawn, k, hk, heq⟩

theorem poolIpv6Valid : PoolIpv6Valid plat cfg env s p := by
  intro hexplicit lease h
  rw [getIpv6Lease, hexplicit] at h
  obtain ⟨net, mask, k, hn, hm, -, hpool⟩ :=
    Draw.getLease_inPool (fun _ _ h => Ip.v6.inj h) (isIpv6Ok_ne_network s.ipLeases) h
  exact ⟨net, mask, _, hn, hm, hpool⟩

/-- The broadcast address has only ones in the host part. -/
theorem allOnes_draw (network mask : BitVec 32) :
    BitVec.allOnes 32 &&& ~~~mask ||| network = broadcast network mask := by
  rw [BitVec.allOnes_and, broadcast, BitVec.or_comm]

/-- The seed with only ones draws the broadcast address at once. -/
theorem broadcastRefused_iff :
    BroadcastRefused plat cfg env s p ↔ ∀ hash ping seed,
      ¬ DrawsBroadcast { plat with ipFromSeed4 := hash } cfg
        { env with mem4 := true, ping4 := ping } s { p with ipv4Seed := seed } := by
  constructor
  · rintro hrefused hash ping seed ⟨-, network, mask, ⟨hexplicit, hn, hm⟩, k, hk, hdraw⟩
    obtain ⟨hok, hserver, -⟩ := hk.usable
    rw [hdraw] at hok hserver
    obtain h | h := hrefused network mask ⟨hexplicit, hn, hm⟩
    · exact Bool.false_ne_true (h.symm.trans hok)
    · exact hserver h
  · intro h network mask hdrawn
    by_contra hc
    obtain ⟨hok, hserver⟩ := not_or.1 hc
    refine h plat.ipFromSeed4 (fun _ _ => false) (BitVec.allOnes 32)
      ⟨rfl, network, mask, ⟨hdrawn.explicit, hdrawn.network, hdrawn.mask⟩, 0,
        ⟨by decide, ?_, fun j hj => absurd hj (Nat.not_lt_zero j)⟩, allOnes_draw network mask⟩
    rw [Draw.draw, allOnes_draw]
    exact ⟨Bool.not_eq_false _ ▸ hok, hserver, rfl⟩

end

/-- **The addresses of the pool.**  An IPv4 lease for which no address was configured is valid if
and only if the first usable draw is not the broadcast address; with every seed, hash function and
answer to the probes, if and only if the tests refuse that address.  An IPv6 lease is always
valid. -/
theorem pool_lease_valid_iff (plat : Platform) (cfg : Config) (env : Env) (s : MainSt) (p : Proc) :
    (PoolIpv4Valid plat cfg env s p ↔ ¬ DrawsBroadcast plat cfg env s p) ∧
    ((∀ hash ping seed, PoolIpv4Valid { plat with ipFromSeed4 := hash } cfg
        { env with mem4 := true, ping4 := ping } s { p with ipv4Seed := seed }) ↔
      BroadcastRefused plat cfg env s p) ∧
    PoolIpv6Valid plat cfg env s p := by
  refine ⟨poolIpv4Valid_iff, ?_, poolIpv6Valid⟩
  rw [broadcastRefused_iff]
  exact forall_congr' fun hash => forall_congr' fun ping => forall_congr' fun seed =>
    poolIpv4Valid_iff

namespace Sample

/-- A client without a network of its own. -/
def guest : Proc :=
  ⟨0, 10, [], false, [], [117], none, none, 255, .inactive,
    ⟨false, none, none, none, 0, none, none⟩, false⟩

end Sample

open Sample in
/-- The seed of the guest ends with 255: it gets `10.0.0.255`. -/
theorem not_pool_lease_valid_broadcast :
    (∃ lease, getIpv4Lease platform config (environ [] 255 none) start guest = .ok (some lease) ∧
      lease.rip = .v4 (broadcast 0x0a000000 0xffffff00)) ∧
    ¬ PoolIpv4Valid platform config (environ [] 255 none) start guest := by
  refine ⟨⟨_, rfl, rfl⟩, fun hvalid => ?_⟩
  obtain ⟨network, mask, ip, hn, hm, hpool, hne⟩ := hvalid rfl _ rfl
  cases hn
  cases hm
  exact hne (Ip.v4.inj hpool.rip).symm

end Main

end Ocserv
