import Ocserv.Main.ProcTable
import Ocserv.Worker.UdpFd

/-!
# Main: the owner of a UDP packet that is found by its address

`local_ip_cmp` and `proc_search_ip` of `src/proc-search.c`.  The comparison counts the workers
that have the address, to tell whether there are several; but the lookup ends at the first one.

* `procSearchIp_eq` : the search returns the first worker with the address.
* `unambiguous_iff` : **the search and `forward_udp_to_owner` keep to workers that are alone
  behind their address exactly when no two workers have the address.**
-/

namespace Ocserv

namespace Main

open SecMod (Bytes)
open Worker (ForwardEnv forwardUdpToOwner)

/-- A `struct sockaddr` with its length, as the bytes of the address in it. -/
structure SockAddr where
  len : ℕ
  addr : Bytes
  deriving DecidableEq, Repr

/-- `find_ip_st`. -/
structure FindIp where
  sockaddr : SockAddr
  foundIps : ℕ

/-- `local_ip_cmp`, on the `remote_addr` of a worker. -/
def localIpCmp (c1 : SockAddr) (c2 : FindIp) : Bool × FindIp :=
  if c1.len ≠ c2.sockaddr.len then (false, c2)
  else if c1.addr = c2.sockaddr.addr then (true, { c2 with foundIps := c2.foundIps + 1 })
  else (false, c2)

/-- `proc_table.db_ip`: workers, each put under the hash of its address. -/
structure IpTable (P : Type*) (hashAny : Bytes → ℕ) where
  /-- In the order in which the lookups visit them. -/
  procs : List P
  remoteAddr : P → SockAddr
  /-- The hash under which a worker was put into the table. -/
  hash : P → ℕ
  nodup : procs.Nodup
  placed : HTable.Placed (fun p => hashAny (remoteAddr p).addr) hash procs

namespace IpTable

variable {P : Type*} {hashAny : Bytes → ℕ}

/-- `proc_search_ip`; the lookup also visits the workers of `shares`. -/
def procSearchIp (t : IpTable P hashAny) (shares : P → Bool) (sockaddr : SockAddr) : Option P :=
  let h := hashAny sockaddr.addr
  let (proc, fip) := HTable.getWith (fun p => localIpCmp (t.remoteAddr p))
    (HTable.visited t.hash t.procs shares h) ⟨sockaddr, 0⟩
  if 1 < fip.foundIps then none else proc

/-- A worker in the table has the address. -/
def HasAddr (t : IpTable P hashAny) (sockaddr : SockAddr) (p : P) : Prop :=
  p ∈ t.procs ∧ t.remoteAddr p = sockaddr

/-- It is the only one. -/
def Alone (t : IpTable P hashAny) (sockaddr : SockAddr) (p : P) : Prop :=
  t.HasAddr sockaddr p ∧ ∀ q, t.HasAddr sockaddr q → q = p

/-- The search returns a worker if and only if it is alone behind the address, and so a packet
that is no client hello is passed to such a worker only. -/
structure Unambiguous (t : IpTable P hashAny) (shares : P → Bool) (sockaddr : SockAddr) :
    Prop where
  search : ∀ p, t.procSearchIp shares sockaddr = some p ↔ t.Alone sockaddr p
  forward : ∀ (e : ForwardEnv P) buffer p msg, e.searchIp = t.procSearchIp shares sockaddr →
    buffer.getD 0 0 ≠ 22 → forwardUdpToOwner e buffer = some (p, msg) → t.Alone sockaddr p

/-! ### The search -/

theorem localIpCmp_eq (c1 : SockAddr) (c2 : FindIp) :
    localIpCmp c1 c2 =
      if c1 = c2.sockaddr then (true, { c2 with foundIps := c2.foundIps + 1 })
      else (false, c2) := by
  obtain ⟨len, addr⟩ := c1
  obtain ⟨⟨len', addr'⟩, n⟩ := c2
  unfold localIpCmp
  by_cases hlen : len = len'
  · by_cases haddr : addr = addr' <;> simp [hlen, haddr]
  · simp [hlen]

/-- The lookup ends at the first worker with the address, so the count is one at most. -/
theorem getWith_localIpCmp (remoteAddr : P → SockAddr) (l : List P) (fip : FindIp) :
    HTable.getWith (fun p => localIpCmp (remoteAddr p)) l fip =
      (l.find? fun p => decide (remoteAddr p = fip.sockaddr),
        if (l.find? fun p => decide (remoteAddr p = fip.sockaddr)).isSome then
          { fip with foundIps := fip.foundIps + 1 }
        else fip) := by
  induction l with
  | nil => rfl
  | cons p l ih =>
    rw [HTable.getWith, List.find?_cons, localIpCmp_eq]
    by_cases haddr : remoteAddr p = fip.sockaddr
    · simp [haddr]
    · rw [if_neg haddr, decide_eq_false haddr]
      exact ih

variable (t : IpTable P hashAny) (shares : P → Bool) (sockaddr : SockAddr)

/-- **The search returns the first worker with the address.** -/
theorem procSearchIp_eq :
    t.procSearchIp shares sockaddr = t.procs.find? fun p => decide (t.remoteAddr p = sockaddr) := by
  have hhash : ∀ p ∈ t.procs, decide (t.remoteAddr p = sockaddr) = true →
      hashAny (t.remoteAddr p).addr = hashAny sockaddr.addr := fun p _ hp => by
    rw [of_decide_eq_true hp]
  rw [procSearchIp, getWith_localIpCmp, t.placed.find?_visited shares hhash]
  dsimp only
  rw [if_neg]
  split <;> simp

theorem hasAddr_of_procSearchIp {p : P} (h : t.procSearchIp shares sockaddr = some p) :
    t.HasAddr sockaddr p := by
  rw [procSearchIp_eq] at h
  exact ⟨List.mem_of_find?_eq_some h, by simpa using List.find?_some h⟩

theorem exists_procSearchIp {p : P} (h : t.HasAddr sockaddr p) :
    ∃ q, t.procSearchIp shares sockaddr = some q := by
  rw [procSearchIp_eq, ← Option.isSome_iff_exists, List.find?_isSome]
  exact ⟨p, h.1, decide_eq_true h.2⟩

/-- **Main result.**  For every table, hash function and address: the search is unambiguous if and
only if there are not two workers with the address. -/
theorem unambiguous_iff {P : Type*} {hashAny : Bytes → ℕ} (t : IpTable P hashAny)
    (shares : P → Bool) (sockaddr : SockAddr) :
    t.Unambiguous shares sockaddr ↔
      ∀ p q, t.HasAddr sockaddr p → t.HasAddr sockaddr q → p = q := by
  constructor
  · intro h p q hp hq
    obtain ⟨r, hr⟩ := t.exists_procSearchIp shares sockaddr hp
    obtain ⟨-, honly⟩ := (h.search r).1 hr
    rw [honly p hp, honly q hq]
  · intro hone
    have halone : ∀ p, t.procSearchIp shares sockaddr = some p → t.Alone sockaddr p := fun p hp =>
      have haddr := t.hasAddr_of_procSearchIp shares sockaddr hp
      ⟨haddr, fun q hq => hone q p hq haddr⟩
    refine ⟨fun p => ⟨halone p, fun hp => ?_⟩, fun e buffer p msg hsearch hfirst hfwd => ?_⟩
    · obtain ⟨q, hq⟩ := t.exists_procSearchIp shares sockaddr hp.1
      rw [hq, hp.2 q (t.hasAddr_of_procSearchIp shares sockaddr hq)]
    · obtain ⟨-, howner, -⟩ := (Worker.forwardUdpToOwner_iff e buffer p).1 ⟨msg, hfwd⟩
      rw [ForwardEnv.owner, if_neg hfirst] at howner
      split at howner
      · cases howner
      · exact halone p (hsearch ▸ howner)

/-- Two clients behind one address: the search returns the first. -/
theorem not_unambiguous_sameNat :
    ¬ ∀ (hashAny : Bytes → ℕ) (t : IpTable ℕ hashAny) (shares : ℕ → Bool) (sockaddr : SockAddr),
      t.Unambiguous shares sockaddr := by
  intro h
  have hone := (unambiguous_iff _ _ _).1 <| h (fun _ => 0)
    { procs := [0, 1]
      remoteAddr := fun _ => ⟨16, [10, 0, 0, 1]⟩
      hash := fun _ => 0
      nodup := by decide
      placed := fun _ _ => rfl }
    (fun _ => false) ⟨16, [10, 0, 0, 1]⟩
  exact absurd (hone 0 1 ⟨by decide, rfl⟩ ⟨by decide, rfl⟩) (by decide)

end IpTable

/-- The table of the addresses in a state that main reaches (`tableInv_always`), with the lengths
of the addresses. -/
def TableInv.ipTable {hashAny : Bytes → ℕ} {t : TableSt} (h : TableInv hashAny t)
    (remoteAddrLen : ℕ → ℕ) : IpTable ℕ hashAny where
  procs := t.st.dbIp
  remoteAddr id := ⟨remoteAddrLen id, t.remoteAddr id⟩
  hash := t.hash .ip
  nodup := h.nodup .ip
  placed := by
    intro id hid
    obtain ⟨p, hp, rfl, -⟩ := h.wf.known id ((h.same .ip id).1 hid)
    rw [h.placed .ip p.id hid, hashOf_mem h.wf.ids hp]
    rfl

end Main

end Ocserv
