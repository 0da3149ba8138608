import Ocserv.Main.Workers

/-!
# Main: the table of leases

Every lease whose `db` is set is put into the table of leases when it is assigned, moves with
`steal_ip_leases` from one worker to another, and is taken out of the table by its destructor.  The
lease of an address that is configured for the client (`explicit_ipv4`, `explicit_ipv6`) has no
`db`: the address is looked up in the table, but not put there.

* `leases_exact` : where no such address is granted, the table has exactly the leases of the
  workers, and no two of them have the same address;
* `not_exact_of_explicit` : two clients with the same configured address.
-/

namespace Ocserv

namespace Main

open SecMod (Bytes Status sidSize)

variable {plat : Platform} {cfg : Config} {env : Env} {s s' : MainSt} {p p' q : Proc} {l : Lease}

/-- The table has exactly the leases of the workers, each once, and no address twice. -/
structure LeasesExact (s : MainSt) : Prop where
  unique : ∀ p ∈ s.procs, ∀ q ∈ s.procs, p.id ≠ q.id →
    ∀ l ∈ p.leases, ∀ m ∈ q.leases, l.rip ≠ m.rip
  table : s.ipLeases.Perm (s.procs.flatMap Proc.leases)
  nodup : s.ipLeases.Nodup

/-! ### The condition on a request -/

/-- If `get_ip_leases` asks for an IPv4 address, it is not granted the configured one, and the
table of leases has memory. -/
def RecordsIpv4 (plat : Platform) (cfg : Config) (env : Env) (s : MainSt) (p : Proc) : Prop :=
  p.ipv4 = none → grantsExplicitIpv4 plat cfg env s p = false ∧ env.addLease4.isSome = true

/-- The same for an IPv6 address. -/
def RecordsIpv6 (plat : Platform) (cfg : Config) (env : Env) (s : MainSt) (p : Proc) : Prop :=
  p.ipv6 = none → grantsExplicitIpv6 plat cfg env s p = false ∧ env.addLease6.isSome = true

/-- The same for both; an IPv6 address is asked for only if there was no error before. -/
def RecordsLeases (plat : Platform) (cfg : Config) (env : Env) (s : MainSt) (p : Proc) : Prop :=
  RecordsIpv4 plat cfg env s p ∧
    (0 ≤ (getIpv4 plat cfg env s p).ret → RecordsIpv6 plat cfg env s p)

/-- If the request comes to `get_ip_leases`, its leases are put into the table. -/
def Records (plat : Platform) (cfg : Config) (s : MainSt) : Label → Prop
  | .cookieReq id req env =>
    match s.find id with
    | none => True
    | some p =>
      let out := handleAuthCookieReq cfg env s p req
      p.status = .inactive → out.ret = 0 → checkMultipleUsers cfg out.st out.proc = 0 →
        RecordsLeases plat cfg env out.st out.proc
  | _ => True

instance (s : MainSt) (p : Proc) : Decidable (RecordsLeases plat cfg env s p) := by
  unfold RecordsLeases RecordsIpv4 RecordsIpv6
  infer_instance

instance (s : MainSt) (i : Label) : Decidable (Records plat cfg s i) := by
  unfold Records
  split
  · split <;> infer_instance
  · infer_instance

/-! ### Freeing leases -/

theorem freeLease_perm {t rest : List Lease} (hl : l.db = true ∧ l.unref = true)
    (h : t.Perm (l :: rest)) : (freeLease t l).Perm rest := by
  unfold freeLease
  rw [if_pos ⟨hl.2, hl.1⟩]
  have := h.erase l
  rwa [List.erase_cons_head] at this

theorem foldl_freeLease_perm {ls t rest : List Lease}
    (hls : ∀ l ∈ ls, l.db = true ∧ l.unref = true) (h : t.Perm (ls ++ rest)) :
    (ls.foldl freeLease t).Perm rest := by
  induction ls generalizing t with
  | nil => exact h
  | cons l ls ih =>
    exact ih (fun x hx => hls x (List.mem_cons_of_mem _ hx))
      (freeLease_perm (hls l (List.mem_cons_self ..)) h)

/-! ### The invariant -/

/-- The table of leases is right, the worker that is at work having the record `p`. -/
structure Accounted (s : MainSt) (p : Proc) : Prop where
  table : s.ipLeases.Perm
    (p.leases ++ (Table.others Proc.id s.procs p.id).flatMap Proc.leases)
  rips : (s.ipLeases.map Lease.rip).Nodup
  unref : ∀ l ∈ s.ipLeases, l.db = true ∧ l.unref = true

/-- The table of leases is right. -/
structure LeaseInv (s : MainSt) : Prop where
  table : s.ipLeases.Perm (s.procs.flatMap Proc.leases)
  rips : (s.ipLeases.map Lease.rip).Nodup
  unref : ∀ l ∈ s.ipLeases, l.db = true ∧ l.unref = true

theorem start_leaseInv : LeaseInv start :=
  ⟨.nil, .nil, fun _ h => absurd h List.not_mem_nil⟩

theorem LeaseInv.accounted (h : LeaseInv s) (hids : (s.procs.map Proc.id).Nodup)
    (hp : p ∈ s.procs) : Accounted s p := by
  refine ⟨h.table.trans ?_, h.rips, h.unref⟩
  have := (Table.perm_cons_others hids hp).flatMap_right Proc.leases
  rwa [List.flatMap_cons] at this

theorem Accounted.put (h : Accounted s p) (hids : (s.procs.map Proc.id).Nodup)
    (hp : p.id ∈ s.procs.map Proc.id) : LeaseInv (s.put p) := by
  refine ⟨h.table.trans ?_, h.rips, h.unref⟩
  have := ((Table.update_perm hids hp).flatMap_right Proc.leases).symm
  rwa [List.flatMap_cons] at this

/-- The leases of a worker that is removed are taken out of the table. -/
theorem Accounted.removeProc (h : Accounted s p) : LeaseInv (removeProc s p) := by
  have hperm := foldl_freeLease_perm (fun l hl => h.unref l (h.table.mem_iff.2
    (List.mem_append_left _ hl))) h.table
  have hsub : ∀ l ∈ p.leases.foldl freeLease s.ipLeases, l ∈ s.ipLeases := fun l hl =>
    h.table.mem_iff.2 (List.mem_append_right _ (hperm.mem_iff.1 hl))
  refine ⟨hperm, ?_, fun l hl => h.unref l (hsub l hl)⟩
  have hall := (h.table.map Lease.rip).nodup_iff.1 h.rips
  rw [List.map_append] at hall
  exact (hperm.map Lease.rip).nodup_iff.2 (List.nodup_append.1 hall).2.1

theorem LeaseInv.newProc (h : LeaseInv s) (pid : ℤ) : LeaseInv (newProc s pid) :=
  ⟨h.table, h.rips, h.unref⟩

/-- Everything but the leases is irrelevant. -/
theorem Accounted.congr (h : Accounted s p) (hleases : s'.ipLeases = s.ipLeases)
    (hprocs : s'.procs = s.procs) (hid : p'.id = p.id) (hp' : p'.leases = p.leases) :
    Accounted s' p' := by
  refine ⟨?_, hleases ▸ h.rips, hleases ▸ h.unref⟩
  rw [hleases, hprocs, hid, hp']
  exact h.table

/-! ### One step -/

/-- Stealing the leases of a worker does not change what leases there are. -/
theorem Accounted.steal {old : Proc} (h : Accounted s p) (hids : (s.procs.map Proc.id).Nodup)
    (hnone : p.leases = []) (hold : old ∈ s.procs) (hne : old.id ≠ p.id) (hid : p'.id = p.id)
    (hp' : p'.leases = old.leases) (hleases : s'.ipLeases = s.ipLeases)
    (hprocs : s'.procs = (s.put old.displaced).procs) : Accounted s' p' := by
  refine ⟨?_, hleases ▸ h.rips, hleases ▸ h.unref⟩
  have hold' : old ∈ Table.others Proc.id s.procs p.id := Table.mem_others.2 ⟨hold, hne⟩
  have hids' : ((Table.others Proc.id s.procs p.id).map Proc.id).Nodup :=
    hids.sublist (List.filter_sublist.map _)
  have hbefore := (Table.perm_cons_others hids' hold').flatMap_right Proc.leases
  have hafter := (Table.update_perm (a := old.displaced) hids'
    (List.mem_map.2 ⟨old, hold', rfl⟩)).flatMap_right Proc.leases
  rw [List.flatMap_cons] at hbefore hafter
  rw [hleases, hprocs, hid, hp']
  show s.ipLeases.Perm (old.leases ++ (Table.others Proc.id
    (Table.update Proc.id s.procs old.displaced) p.id).flatMap Proc.leases)
  rw [Table.others_update_of_ne (a := old.displaced) hne]
  have htable := h.table
  rw [hnone, List.nil_append] at htable
  exact htable.trans (hbefore.trans (hafter.symm.append_left _))

theorem Accounted.authCookieReq (hwf : WF s) (h : LeaseInv s) (hp : p ∈ s.procs)
    (hstatus : p.status = .inactive) (req : Bytes) :
    Accounted (handleAuthCookieReq cfg env s p req).st
      (handleAuthCookieReq cfg env s p req).proc := by
  obtain ⟨hcookie, hdisp⟩ := handleAuthCookieReq_cases cfg env s p req
  have hacc := h.accounted hwf.ids hp
  cases hdisp with
  | nobody hprocs h4 h6 =>
    exact hacc.congr hcookie.ipLeases_eq hprocs hcookie.id_eq (by simp only [Proc.leases, h4, h6])
  | old old hsearch hprocs h4 h6 =>
    obtain ⟨hold, -, -, hactive⟩ := hwf.search hsearch
    obtain ⟨hnone4, hnone6, -⟩ := hwf.idle p hp hstatus
    refine hacc.steal hwf.ids (by rw [Proc.leases, hnone4, hnone6]; rfl) hold (fun hid => ?_)
      hcookie.id_eq (by simp only [Proc.leases, h4, h6]) hcookie.ipLeases_eq hprocs
    rw [Table.eq_of_key_eq hwf.ids hold hp hid] at hactive
    exact hactive hstatus

/-- A lease that is put into the table when a worker gets it. -/
theorem Accounted.record {order : List Lease} (h : Accounted s p)
    (hleases : s'.ipLeases = HTable.add order s.ipLeases l) (hprocs : s'.procs = s.procs)
    (hid : p'.id = p.id) (hp' : p'.leases.Perm (l :: p.leases))
    (hnew : ∀ m ∈ s.ipLeases, m.rip ≠ l.rip) (hl : l.db = true ∧ l.unref = true) :
    Accounted s' p' := by
  have hadd : s'.ipLeases.Perm (l :: s.ipLeases) := hleases ▸ HTable.add_perm
  refine ⟨?_, ?_, fun m hm => ?_⟩
  · rw [hprocs, hid]
    exact hadd.trans ((h.table.cons l).trans (hp'.symm.append_right _))
  · refine (hadd.map Lease.rip).nodup_iff.2 (List.nodup_cons.2 ⟨?_, h.rips⟩)
    intro hmem
    obtain ⟨m, hm, hrip⟩ := List.mem_map.1 hmem
    exact hnew m hm hrip
  · rcases List.mem_cons.1 (hadd.mem_iff.1 hm) with rfl | hm
    · exact hl
    · exact h.unref m hm

/-- The two outcomes for one family: there is no new lease, or a new one is in the table. -/
theorem recordLease_cases {t : List Lease} {add : Option (List Lease)}
    {r : Except ℤ (Option Lease)} (hadd : add.isSome = true)
    (hr : ∀ l, r = .ok (some l) → l.db = true ∧ ∀ m ∈ t, m.rip ≠ l.rip) :
    (recordLease t add r).1 = t ∧ (recordLease t add r).2.1 = none ∨
    ∃ order l, (recordLease t add r).1 = HTable.add order t l ∧
      (recordLease t add r).2.1 = some l ∧ (l.db = true ∧ l.unref = true) ∧
      (∀ m ∈ t, m.rip ≠ l.rip) ∧ ∃ l', r = .ok (some l') ∧ l'.rip = l.rip := by
  obtain ⟨order, rfl⟩ := Option.isSome_iff_exists.1 hadd
  unfold recordLease
  split
  · exact .inl ⟨rfl, rfl⟩
  · exact .inl ⟨rfl, rfl⟩
  · rename_i l
    obtain ⟨hdb, hnew⟩ := hr l rfl
    rw [if_pos hdb]
    exact .inr ⟨order, { l with unref := true }, rfl, rfl, ⟨hdb, rfl⟩, hnew, l, rfl, rfl⟩

/-- The lookup of an address does not see the lease of another one. -/
theorem ipLeaseExists_add {order t : List Lease} {ip : Ip} (h : l.rip ≠ ip) :
    ipLeaseExists (HTable.add order t l) ip = ipLeaseExists t ip := by
  rw [Bool.eq_iff_iff, ← Bool.not_eq_false, ← Bool.not_eq_false, ipLeaseExists_eq_false,
    ipLeaseExists_eq_false]
  refine not_congr ⟨fun hall m hm => hall m (HTable.mem_add.2 (.inr hm)), ?_⟩
  intro hall m hm
  rcases HTable.mem_add.1 hm with rfl | hm
  · exact h
  · exact hall m hm

/-- Which IPv6 address is granted depends on which IPv6 addresses are in the table. -/
theorem grantsExplicitIpv6_congr
    (hleases : ∀ ip, ipLeaseExists s'.ipLeases (.v6 ip) = ipLeaseExists s.ipLeases (.v6 ip))
    (hconfig : p'.config = p.config) :
    grantsExplicitIpv6 plat cfg env s' p' = grantsExplicitIpv6 plat cfg env s p := by
  have hok : (draw6 plat env.ping6).isOk s'.ipLeases =
      (draw6 plat env.ping6).isOk s.ipLeases := by
    funext ip net mask
    show isIpv6Ok s'.ipLeases ip net mask = isIpv6Ok s.ipLeases ip net mask
    rw [isIpv6Ok, isIpv6Ok, hleases]
  have hnet : ipv6Network cfg p' = ipv6Network cfg p := by
    unfold ipv6Network Proc.hasIpv6Network
    rw [hconfig]
  simp only [grantsExplicitIpv6, Draw.grantsExplicit, hok, hnet, hconfig]

/-- The lease that `get_ipv4_lease` found, in the table. -/
theorem getIpv4_cases (hnone : p.ipv4 = none) (hrec : RecordsIpv4 plat cfg env s p) :
    (getIpv4 plat cfg env s p).st.ipLeases = s.ipLeases ∧
      (getIpv4 plat cfg env s p).proc.ipv4 = none ∨
    ∃ order l ip, (getIpv4 plat cfg env s p).st.ipLeases = HTable.add order s.ipLeases l ∧
      (getIpv4 plat cfg env s p).proc.ipv4 = some l ∧ (l.db = true ∧ l.unref = true) ∧
      (∀ m ∈ s.ipLeases, m.rip ≠ l.rip) ∧ l.rip = .v4 ip := by
  obtain ⟨hexplicit, hadd⟩ := hrec hnone
  have hspec : ∀ l, getIpv4Lease plat cfg env s p = .ok (some l) →
      l.db = true ∧ ∀ m ∈ s.ipLeases, m.rip ≠ l.rip := fun l hl =>
    let ⟨_, hnew, hdb⟩ := Draw.getLease_spec hl
    ⟨hdb hexplicit, hnew⟩
  simp only [getIpv4, hnone]
  obtain h | ⟨order, l, hleases, hlease, hl, hnew, l', hr, hrip⟩ := recordLease_cases hadd hspec
  · exact .inl h
  · obtain ⟨⟨ip, hip⟩, -, -⟩ := Draw.getLease_spec hr
    exact .inr ⟨order, l, ip, hleases, hlease, hl, hnew, hrip.symm.trans hip⟩

/-- The same for `get_ipv6_lease`. -/
theorem getIpv6_cases (hnone : p.ipv6 = none) (hrec : RecordsIpv6 plat cfg env s p) :
    (getIpv6 plat cfg env s p).st.ipLeases = s.ipLeases ∧
      (getIpv6 plat cfg env s p).proc.ipv6 = none ∨
    ∃ order l, (getIpv6 plat cfg env s p).st.ipLeases = HTable.add order s.ipLeases l ∧
      (getIpv6 plat cfg env s p).proc.ipv6 = some l ∧ (l.db = true ∧ l.unref = true) ∧
      ∀ m ∈ s.ipLeases, m.rip ≠ l.rip := by
  obtain ⟨hexplicit, hadd⟩ := hrec hnone
  have hspec : ∀ l, getIpv6Lease plat cfg env s p = .ok (some l) →
      l.db = true ∧ ∀ m ∈ s.ipLeases, m.rip ≠ l.rip := fun l hl =>
    let ⟨_, hnew, hdb⟩ := Draw.getLease_spec hl
    ⟨hdb hexplicit, hnew⟩
  simp only [getIpv6, hnone]
  obtain h | ⟨order, l, hleases, hlease, hl, hnew, -⟩ := recordLease_cases hadd hspec
  · exact .inl h
  · exact .inr ⟨order, l, hleases, hlease, hl, hnew⟩

/-- `get_ip_leases` keeps the other lease of the worker. -/
theorem getIpv4_keeps (plat : Platform) (cfg : Config) (env : Env) (s : MainSt) (p : Proc) :
    (getIpv4 plat cfg env s p).proc.ipv6 = p.ipv6 ∧
      (getIpv4 plat cfg env s p).proc.config = p.config := by
  unfold getIpv4
  split <;> exact ⟨rfl, rfl⟩

theorem getIpv6_keeps (plat : Platform) (cfg : Config) (env : Env) (s : MainSt) (p : Proc) :
    (getIpv6 plat cfg env s p).proc.ipv4 = p.ipv4 := by
  unfold getIpv6
  split <;> rfl

theorem Accounted.getIpv4 (h : Accounted s p) (hrec : RecordsIpv4 plat cfg env s p) :
    Accounted (getIpv4 plat cfg env s p).st (getIpv4 plat cfg env s p).proc := by
  have hframe := getIpv4_frame plat cfg env s p
  have hkeeps := (getIpv4_keeps plat cfg env s p).1
  cases h4 : p.ipv4 with
  | some lease => simpa only [Main.getIpv4, h4] using h
  | none =>
    obtain ⟨hleases, hlease⟩ | ⟨order, l, ip, hleases, hlease, hl, hnew, -⟩ := getIpv4_cases h4 hrec
    · exact h.congr hleases hframe.procs_eq hframe.id_eq
        (by simp only [Proc.leases, hlease, hkeeps, h4])
    · exact h.record hleases hframe.procs_eq hframe.id_eq
        (by simp [Proc.leases, hlease, hkeeps, h4]) hnew hl

/-- The IPv4 address of a worker does not change which IPv6 address is granted. -/
theorem recordsIpv6_getIpv4 (hrec4 : RecordsIpv4 plat cfg env s p)
    (hrec6 : RecordsIpv6 plat cfg env s p) :
    RecordsIpv6 plat cfg env (getIpv4 plat cfg env s p).st (getIpv4 plat cfg env s p).proc := by
  obtain ⟨hkeeps, hconfig⟩ := getIpv4_keeps plat cfg env s p
  intro h6
  obtain ⟨hexplicit, hadd⟩ := hrec6 (hkeeps.symm.trans h6)
  refine ⟨Eq.trans (grantsExplicitIpv6_congr ?_ hconfig) hexplicit, hadd⟩
  cases h4 : p.ipv4 with
  | some lease => simp only [Main.getIpv4, h4, implies_true]
  | none =>
    obtain ⟨hleases, -⟩ | ⟨order, l, ip, hleases, -, -, -, hip⟩ := getIpv4_cases h4 hrec4
    · rw [hleases]
      exact fun _ => rfl
    · intro ip₆
      rw [hleases, ipLeaseExists_add (by rw [hip]; nofun)]

theorem Accounted.getIpv6 (h : Accounted s p) (hrec : RecordsIpv6 plat cfg env s p) :
    Accounted (getIpv6 plat cfg env s p).st (getIpv6 plat cfg env s p).proc := by
  have hframe := getIpv6_frame plat cfg env s p
  have hkeeps := getIpv6_keeps plat cfg env s p
  cases h6 : p.ipv6 with
  | some lease => simpa only [Main.getIpv6, h6] using h
  | none =>
    obtain ⟨hleases, hlease⟩ | ⟨order, l, hleases, hlease, hl, hnew⟩ := getIpv6_cases h6 hrec
    · exact h.congr hleases hframe.procs_eq hframe.id_eq
        (by simp only [Proc.leases, hlease, hkeeps, h6])
    · refine h.record hleases hframe.procs_eq hframe.id_eq ?_ hnew hl
      simp only [Proc.leases, hlease, hkeeps, h6, Option.toList_some, Option.toList_none,
        List.append_nil]
      exact List.perm_append_singleton _ _

theorem Accounted.getIpLeases (h : Accounted s p) (hrec : RecordsLeases plat cfg env s p) :
    Accounted (getIpLeases plat cfg env s p).st (getIpLeases plat cfg env s p).proc := by
  obtain ⟨hrec4, hrec6⟩ := hrec
  have h4 := h.getIpv4 hrec4
  unfold Main.getIpLeases
  dsimp only
  split
  · exact h4
  · rename_i hret
    have h6 := h4.getIpv6 (recordsIpv6_getIpv4 hrec4 (hrec6 (Int.not_lt.1 hret)))
    repeat' split
    all_goals exact h6

/-- The IPv6 lease is given back if the address cannot be set. -/
theorem Accounted.setNetworkInfo (h : Accounted s p) :
    Accounted (setNetworkInfo env s p).st (setNetworkInfo env s p).proc := by
  have hfree (lease : Lease) (h6 : p.ipv6 = some lease) :
      Accounted { s with ipLeases := freeLease s.ipLeases lease } { p with ipv6 := none } := by
    have hp : p.leases.Perm (lease :: ({ p with ipv6 := none } : Proc).leases) := by
      simp only [Proc.leases, h6, Option.toList_some, Option.toList_none, List.append_nil]
      exact List.perm_append_singleton _ _
    have htable := h.table.trans (hp.append_right _)
    have hperm := freeLease_perm (h.unref lease (htable.mem_iff.2 (List.mem_cons_self ..))) htable
    have hrips := (htable.map Lease.rip).nodup_iff.1 h.rips
    exact ⟨hperm, (hperm.map Lease.rip).nodup_iff.2 (List.nodup_cons.1 hrips).2,
      fun m hm => h.unref m (htable.mem_iff.2 (List.mem_cons_of_mem _ (hperm.mem_iff.1 hm)))⟩
  have hset : Accounted (setIpv6Addr env s p).st (setIpv6Addr env s p).proc := by
    unfold setIpv6Addr
    split
    · exact h
    · rename_i lease h6
      split
      · exact h
      · exact hfree lease h6
  unfold Main.setNetworkInfo
  dsimp only
  repeat' split
  · exact h
  · exact hset
  · exact hset

theorem Accounted.openTun (h : Accounted s p) (hrec : RecordsLeases plat cfg env s p) :
    Accounted (openTun plat cfg env s p).st (openTun plat cfg env s p).proc := by
  have hget := h.getIpLeases hrec
  unfold Main.openTun
  dsimp only
  repeat' split
  all_goals first | exact hget | exact hget.setNetworkInfo

/-- What follows the request, if the leases it assigns are put into the table. -/
theorem Accounted.handleCookieAuthRes (h : Accounted s p) {result : ℤ}
    (hrec : result = 0 → checkMultipleUsers cfg s p = 0 → RecordsLeases plat cfg env s p) :
    Accounted (handleCookieAuthRes plat cfg env s p result).st
      (handleCookieAuthRes plat cfg env s p result).proc := by
  have hcheck : ¬ checkMultipleUsers cfg s p < 0 → checkMultipleUsers cfg s p = 0 := by
    unfold checkMultipleUsers
    dsimp only
    repeat' split
    all_goals simp
  have hstatus : Accounted (cookieAuthStatus plat cfg env s p result).st
      (cookieAuthStatus plat cfg env s p result).proc := by
    unfold cookieAuthStatus
    split
    · rename_i hresult
      have haccept : Accounted (acceptUser plat cfg env s p).st
          (acceptUser plat cfg env s p).proc := by
        unfold acceptUser
        dsimp only
        split
        · exact h
        · rename_i hmultiple
          have := h.openTun (hrec hresult (hcheck hmultiple))
          split <;> exact this
      exact haccept.congr rfl rfl rfl rfl
    · exact h.congr rfl rfl rfl rfl
  unfold Main.handleCookieAuthRes
  dsimp only
  split
  · exact hstatus
  · exact hstatus.congr rfl rfl rfl rfl

theorem LeaseInv.step {i : Label} (hwf : WF s) (h : LeaseInv s) (hi : Records plat cfg s i)
    (hs : (machine plat cfg).step s i = some s') : LeaseInv s' := by
  cases step_cases hs with
  | connect hpid => exact h.newProc _
  | removed hp => exact (h.accounted hwf.ids hp).removeProc
  | @request id req env p hp hid hstatus =>
    have hfind : s.find id = some p := hid ▸ Table.find?_eq_some hwf.ids hp
    simp only [Records, hfind] at hi
    have hacc : Accounted (authCookieReq plat cfg env s p req).st
        (authCookieReq plat cfg env s p req).proc :=
      (Accounted.authCookieReq hwf h hp hstatus req).handleCookieAuthRes (hi hstatus)
    obtain ⟨hid', hids⟩ := authCookieReq_ids plat cfg env s p req
    unfold Out.finish
    split
    · exact hacc.removeProc
    · refine hacc.put (hids ▸ hwf.ids) ?_
      rw [hid', hids]
      exact List.mem_map_of_mem hp

/-! ### Runs -/

theorem LeaseInv.exact (hwf : WF s) (h : LeaseInv s) : LeasesExact s := by
  have hrips := (h.table.map Lease.rip).nodup_iff.1 h.rips
  refine ⟨?_, h.table, h.rips.of_map _⟩
  intro p hp q hq hne l hl m hm heq
  have hperm := (Table.perm_cons_others hwf.ids hp).flatMap_right Proc.leases
  rw [List.flatMap_cons] at hperm
  have hdisj := (hperm.map Lease.rip).nodup_iff.1 hrips
  rw [List.map_append] at hdisj
  refine (List.nodup_append.1 hdisj).2.2 l.rip (List.mem_map_of_mem hl) m.rip ?_ heq
  refine List.mem_map_of_mem (List.mem_flatMap.2 ⟨q, ?_, hm⟩)
  exact Table.mem_others.2 ⟨hq, fun h => hne h.symm⟩

/-- **The table of leases.**  In every run in which no address that was configured for a client
is granted, and the table has memory: in every state no two workers have leases of the same
address, and the table has exactly the leases of the workers. -/
theorem leases_exact {is : List Label}
    (hC : (machine plat cfg).Meets (Records plat cfg) start is) :
    (machine plat cfg).Always LeasesExact start is := by
  have h : (machine plat cfg).Always (fun s => WF s ∧ LeaseInv s) start is :=
    Machine.always_of_step (fun s i s' h hi hs => ⟨h.1.step hs, h.2.step h.1 hi hs⟩)
      ⟨start_wf, start_leaseInv⟩ hC
  exact h.imp fun s h => h.2.exact h.1

namespace Sample

/-- A client connects, connects again and leaves; another one comes. -/
def reconnect : List Label :=
  [.connect 10, .connect 11, .cookieReq 0 [1] (environ [0] 5 none),
    .cookieReq 1 [1] (environ [0, 1] 5 none), .remove 0, .remove 1, .connect 12,
    .cookieReq 2 [1] (environ [2] 5 none)]

/-- Two clients for which the same address is configured. -/
def sameExplicit : List Label :=
  [.connect 10, .connect 11, .cookieReq 0 [1] (environ [0] 5 (some "client")), .connect 12,
    .cookieReq 1 [2] { environ [0, 1] 6 (some "client") with
      decryptCookie := fun _ => some ⟨some [118], none, List.replicate sidSize 8, 6⟩ }]

end Sample

open Sample in
theorem leases_exact_reconnect :
    (machine platform config).Always LeasesExact start reconnect :=
  leases_exact (by decide)

open Sample in
/-- Both workers have the address, and the table is empty. -/
theorem not_exact_of_explicit :
    ∃ s p q l, (machine platform config).run start sameExplicit = some s ∧ ¬ LeasesExact s ∧
      p ∈ s.procs ∧ q ∈ s.procs ∧ p.id ≠ q.id ∧ p.ipv4 = some l ∧
      (q.ipv4.map Lease.rip) = some l.rip ∧ s.ipLeases = [] := by
  refine ⟨_, _, _, _, rfl, fun h => ?_, List.mem_cons_of_mem _ (List.mem_cons_self ..),
    List.mem_cons_of_mem _ (List.mem_cons_of_mem _ (List.mem_cons_self ..)), by decide, rfl, rfl,
    rfl⟩
  exact absurd h.table.length_eq (by decide)

end Main

end Ocserv
