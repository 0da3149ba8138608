import Ocserv.Main.Server

/-!
# Main: what the handlers do to the workers

* `handleAuthCookieReq_cases` : the effect of a request on the other workers, and
  `handleCookieAuthRes_frame` : that of what follows it, which is none;
* `WF` : the tables of workers list different workers that main still has, and a worker that has
  not yet asked for a session is in no table, has no leases and was not sent `SIGTERM`;
* `wf_always` : this holds in every state of every run.
-/

namespace Ocserv

namespace Main

open SecMod (Bytes Status)

variable {plat : Platform} {cfg : Config} {env : Env} {s s' : MainSt} {p q : Proc}

/-! ### The request of a session -/

/-- The fields of a worker that opening the cookie leaves alone. -/
theorem openCookie_frame (cfg : Config) (env : Env) (p : Proc) (req : Bytes) :
    let p' := (openCookie cfg env p req).1
    p'.id = p.id ∧ p'.pid = p.pid ∧ p'.ipv4 = p.ipv4 ∧ p'.ipv6 = p.ipv6 ∧ p'.status = p.status ∧
      p'.sigterm = p.sigterm := by
  unfold openCookie
  dsimp only
  repeat' split
  all_goals exact ⟨rfl, rfl, rfl, rfl, rfl, rfl⟩

/-- A cookie that is accepted names the session. -/
theorem openCookie_sid {p p' : Proc} {req : Bytes} {cookie : Cookie}
    (h : openCookie cfg env p req = (p', some cookie)) :
    env.decryptCookie req = some cookie ∧ p'.sid = cookie.sid := by
  unfold openCookie at h
  dsimp only at h
  repeat' split at h
  all_goals cases h
  exact ⟨by assumption, rfl⟩

/-- A worker after it lost its leases and was sent `SIGTERM`. -/
def Proc.displaced (p : Proc) : Proc :=
  { p with ipv4 := none, ipv6 := none, sigterm := p.sigterm || decide (0 < p.pid) }

/-- What `handle_auth_cookie_req` does to the other workers and to the leases: nothing, or it
displaces the worker that the search for the SID finds. -/
inductive Displaces (s : MainSt) (p : Proc) (out : Out) : Prop
  | nobody (hprocs : out.st.procs = s.procs) (h4 : out.proc.ipv4 = p.ipv4)
      (h6 : out.proc.ipv6 = p.ipv6)
      (hsearch : out.ret = 0 → procSearchSid s out.proc.sid = none)
  | old (old : Proc) (hsearch : procSearchSid s out.proc.sid = some old)
      (hprocs : out.st.procs = (s.put old.displaced).procs) (h4 : out.proc.ipv4 = old.ipv4)
      (h6 : out.proc.ipv6 = old.ipv6)

/-- What `handle_auth_cookie_req` keeps, and what it adds to the table of SIDs. -/
structure CookieFrame (s : MainSt) (p : Proc) (out : Out) : Prop where
  id_eq : out.proc.id = p.id
  pid_eq : out.proc.pid = p.pid
  sigterm_eq : out.proc.sigterm = p.sigterm
  nextProc_eq : out.st.nextProc = s.nextProc
  ipLeases_eq : out.st.ipLeases = s.ipLeases
  dbSid : out.st.dbSid = s.dbSid ∧ out.ret < 0 ∨
    ∃ order, out.st.dbSid = HTable.add order s.dbSid p.id

theorem procTableAdd_frame (env : Env) (s : MainSt) (id : ℕ) :
    let r := procTableAdd env s id
    r.1.procs = s.procs ∧ r.1.nextProc = s.nextProc ∧ r.1.ipLeases = s.ipLeases ∧
      (r.1.dbSid = s.dbSid ∧ r.2 < 0 ∨ ∃ order, r.1.dbSid = HTable.add order s.dbSid id) := by
  unfold procTableAdd
  dsimp only
  repeat' split
  · exact ⟨rfl, rfl, rfl, .inl ⟨rfl, Int.negSucc_lt_zero 0⟩⟩
  · exact ⟨rfl, rfl, rfl, .inl ⟨rfl, Int.negSucc_lt_zero 0⟩⟩
  · exact ⟨rfl, rfl, rfl, .inl ⟨rfl, Int.negSucc_lt_zero 0⟩⟩
  · exact ⟨rfl, rfl, rfl, .inr ⟨_, rfl⟩⟩

/-- **`handle_auth_cookie_req`**, as far as the other workers and the leases are concerned. -/
theorem handleAuthCookieReq_cases (cfg : Config) (env : Env) (s : MainSt) (p : Proc) (req : Bytes) :
    CookieFrame s p (handleAuthCookieReq cfg env s p req) ∧
      Displaces s p (handleAuthCookieReq cfg env s p req) := by
  obtain ⟨hid, hpid, h4, h6, -, hsig⟩ := openCookie_frame cfg env p req
  -- A request that is refused before the search.
  have refused (p' : Proc) (hid : p'.id = p.id) (hpid : p'.pid = p.pid)
      (hsig : p'.sigterm = p.sigterm) (h4 : p'.ipv4 = p.ipv4) (h6 : p'.ipv6 = p.ipv6) :
      CookieFrame s p ⟨s, p', -1⟩ ∧ Displaces s p ⟨s, p', -1⟩ :=
    ⟨⟨hid, hpid, hsig, rfl, rfl, .inl ⟨rfl, Int.negSucc_lt_zero 0⟩⟩,
      .nobody rfl h4 h6 fun h : (-1 : ℤ) = 0 => absurd h (by decide)⟩
  unfold handleAuthCookieReq
  split
  · rename_i p' hopen
    rw [hopen] at hid hpid h4 h6 hsig
    exact refused p' hid hpid hsig h4 h6
  · rename_i p' cookie hopen
    have hsid := (openCookie_sid hopen).2
    rw [hopen] at hid hpid h4 h6 hsig
    split
    · exact refused p' hid hpid hsig h4 h6
    · unfold replaceOld
      split
      · rename_i hsearch
        dsimp only
        rw [if_neg (by decide)]
        obtain ⟨hprocs, hnext, hleases, hdb⟩ := procTableAdd_frame env s p'.id
        exact ⟨⟨hid, hpid, hsig, hnext, hleases, hid ▸ hdb⟩,
          .nobody hprocs h4 h6 fun _ => by rw [← hsearch, ← hsid]⟩
      · rename_i old hsearch
        split
        · exact refused p' hid hpid hsig h4 h6
        · dsimp only [stealIpLeases]
          rw [if_neg (by decide)]
          obtain ⟨hprocs, hnext, hleases, hdb⟩ := procTableAdd_frame env
            (s.put old.displaced) p'.id
          exact ⟨⟨hid, hpid, hsig, hnext, hleases, hid ▸ hdb⟩,
            .old old (by rw [← hsearch, ← hsid]) hprocs rfl rfl⟩

theorem replaceOld_sid (s : MainSt) (p : Proc) (cookie : Cookie) :
    (replaceOld s p cookie).proc.sid = p.sid := by
  unfold replaceOld
  split
  · rfl
  · split <;> rfl

/-- A request that is accepted is for the session of its cookie. -/
theorem handleAuthCookieReq_sid {req : Bytes}
    (h : (handleAuthCookieReq cfg env s p req).ret = 0) :
    ∃ cookie, env.decryptCookie req = some cookie ∧
      (handleAuthCookieReq cfg env s p req).proc.sid = cookie.sid := by
  have refused {P : Prop} (h : (-1 : ℤ) = 0) : P := absurd h (by decide)
  unfold handleAuthCookieReq at h ⊢
  split at h
  · exact refused h
  · rename_i p' cookie hopen
    obtain ⟨hcookie, hsid⟩ := openCookie_sid hopen
    refine ⟨cookie, hcookie, ?_⟩
    split at h
    · exact refused h
    · rename_i hroam
      have hold := (replaceOld_sid s p' cookie).trans hsid
      dsimp only
      rw [if_neg hroam]
      split <;> exact hold

/-! ### After the request -/

/-- What `handle_cookie_auth_res` and its parts keep: all workers, and the tables of workers. -/
structure ResFrame (s : MainSt) (p : Proc) (out : Out) : Prop where
  procs_eq : out.st.procs = s.procs
  nextProc_eq : out.st.nextProc = s.nextProc
  dbSid_eq : out.st.dbSid = s.dbSid
  id_eq : out.proc.id = p.id
  pid_eq : out.proc.pid = p.pid
  sid_eq : out.proc.sid = p.sid
  sigterm_eq : out.proc.sigterm = p.sigterm

namespace ResFrame

theorem refl (s : MainSt) (p : Proc) (ret : ℤ) : ResFrame s p ⟨s, p, ret⟩ :=
  ⟨rfl, rfl, rfl, rfl, rfl, rfl, rfl⟩

theorem trans {out out' : Out} (h : ResFrame s p out) (h' : ResFrame out.st out.proc out') :
    ResFrame s p out' :=
  ⟨h'.procs_eq.trans h.procs_eq, h'.nextProc_eq.trans h.nextProc_eq, h'.dbSid_eq.trans h.dbSid_eq,
    h'.id_eq.trans h.id_eq, h'.pid_eq.trans h.pid_eq, h'.sid_eq.trans h.sid_eq,
    h'.sigterm_eq.trans h.sigterm_eq⟩

/-- The return value and the status do not matter. -/
theorem congr {out : Out} (h : ResFrame s p out) (status : Status) (ret : ℤ) :
    ResFrame s p { out with proc := { out.proc with status := status }, ret := ret } :=
  ⟨h.procs_eq, h.nextProc_eq, h.dbSid_eq, h.id_eq, h.pid_eq, h.sid_eq, h.sigterm_eq⟩

theorem withRet {out : Out} (h : ResFrame s p out) (ret : ℤ) :
    ResFrame s p { out with ret := ret } :=
  ⟨h.procs_eq, h.nextProc_eq, h.dbSid_eq, h.id_eq, h.pid_eq, h.sid_eq, h.sigterm_eq⟩

end ResFrame

theorem getIpv4_frame (plat : Platform) (cfg : Config) (env : Env) (s : MainSt) (p : Proc) :
    ResFrame s p (getIpv4 plat cfg env s p) := by
  unfold getIpv4
  split <;> exact ⟨rfl, rfl, rfl, rfl, rfl, rfl, rfl⟩

theorem getIpv6_frame (plat : Platform) (cfg : Config) (env : Env) (s : MainSt) (p : Proc) :
    ResFrame s p (getIpv6 plat cfg env s p) := by
  unfold getIpv6
  split <;> exact ⟨rfl, rfl, rfl, rfl, rfl, rfl, rfl⟩

theorem getIpLeases_frame (plat : Platform) (cfg : Config) (env : Env) (s : MainSt) (p : Proc) :
    ResFrame s p (getIpLeases plat cfg env s p) := by
  have h4 := getIpv4_frame plat cfg env s p
  have h := h4.trans (getIpv6_frame plat cfg env _ _)
  unfold getIpLeases
  dsimp only
  repeat' split
  · exact h4
  · exact h
  · exact h.withRet _
  · exact h.withRet _

theorem setIpv6Addr_frame (env : Env) (s : MainSt) (p : Proc) :
    ResFrame s p (setIpv6Addr env s p) := by
  unfold setIpv6Addr
  repeat' split
  all_goals exact ⟨rfl, rfl, rfl, rfl, rfl, rfl, rfl⟩

theorem setNetworkInfo_frame (env : Env) (s : MainSt) (p : Proc) :
    ResFrame s p (setNetworkInfo env s p) := by
  have h := setIpv6Addr_frame env s p
  unfold setNetworkInfo
  dsimp only
  repeat' split
  · exact .refl s p _
  · exact h.withRet _
  · exact h

theorem openTun_frame (plat : Platform) (cfg : Config) (env : Env) (s : MainSt) (p : Proc) :
    ResFrame s p (openTun plat cfg env s p) := by
  have h := getIpLeases_frame plat cfg env s p
  unfold openTun
  dsimp only
  split
  · exact h
  · split
    · exact h.withRet _
    · exact (h.trans (setNetworkInfo_frame env _ _)).withRet _

theorem acceptUser_frame (plat : Platform) (cfg : Config) (env : Env) (s : MainSt) (p : Proc) :
    ResFrame s p (acceptUser plat cfg env s p) := by
  have h := openTun_frame plat cfg env s p
  unfold acceptUser
  dsimp only
  split
  · exact .refl s p _
  · split <;> exact h.withRet _

/-- After the request the worker has a status. -/
theorem handleCookieAuthRes_frame (plat : Platform) (cfg : Config) (env : Env) (s : MainSt)
    (p : Proc) (result : ℤ) :
    ResFrame s p (handleCookieAuthRes plat cfg env s p result) ∧
      (handleCookieAuthRes plat cfg env s p result).proc.status ≠ .inactive := by
  have haccept := acceptUser_frame plat cfg env s p
  have hstep : ResFrame s p (cookieAuthStatus plat cfg env s p result) ∧
      (cookieAuthStatus plat cfg env s p result).proc.status ≠ .inactive := by
    unfold cookieAuthStatus
    split
    · refine ⟨haccept.congr _ _, ?_⟩
      dsimp only
      split <;> nofun
    · exact ⟨(ResFrame.refl s p 0).congr .failed _, nofun⟩
  obtain ⟨hframe, hstatus⟩ := hstep
  unfold handleCookieAuthRes
  dsimp only
  split
  · exact ⟨hframe.withRet 0, hstatus⟩
  · refine ⟨hframe.congr _ _, ?_⟩
    dsimp only [handleScriptExit]
    repeat' split
    all_goals first | exact hstatus | nofun

/-! ### The invariant of the tables -/

/-- The tables of workers are right. -/
structure WF (s : MainSt) : Prop where
  ids : (s.procs.map Proc.id).Nodup
  lt : ∀ p ∈ s.procs, p.id < s.nextProc
  pid : ∀ p ∈ s.procs, 0 < p.pid
  dbSid : s.dbSid.Nodup
  known : ∀ id ∈ s.dbSid, ∃ p ∈ s.procs, p.id = id ∧ p.status ≠ .inactive
  idle : ∀ p ∈ s.procs, p.status = .inactive →
    p.ipv4 = none ∧ p.ipv6 = none ∧ p.sigterm = false

theorem start_wf : WF start :=
  ⟨.nil, fun _ h => absurd h List.not_mem_nil, fun _ h => absurd h List.not_mem_nil, .nil,
    fun _ h => absurd h List.not_mem_nil, fun _ h => absurd h List.not_mem_nil⟩

/-- A worker that has not asked for a session is not in the table of SIDs. -/
theorem WF.not_mem_dbSid (h : WF s) (hp : p ∈ s.procs) (hstatus : p.status = .inactive) :
    p.id ∉ s.dbSid := by
  intro hmem
  obtain ⟨q, hq, hid, hne⟩ := h.known p.id hmem
  exact hne (Table.eq_of_key_eq h.ids hq hp hid ▸ hstatus)

/-- The worker that the search finds. -/
theorem WF.search (h : WF s) {sid : Bytes} (hs : procSearchSid s sid = some q) :
    q ∈ s.procs ∧ q.id ∈ s.dbSid ∧ q.sid = sid ∧ q.status ≠ .inactive := by
  unfold procSearchSid at hs
  obtain ⟨id, hget, hfind⟩ := Option.bind_eq_some_iff.1 hs
  obtain ⟨hmem, hcmp⟩ := HTable.mem_of_get hget
  obtain ⟨hq, rfl⟩ := Table.mem_of_find? hfind
  obtain ⟨x, hx, hxid, hne⟩ := h.known _ hmem
  rw [hfind] at hcmp
  exact ⟨hq, hmem, by simpa using hcmp, Table.eq_of_key_eq h.ids hx hq hxid ▸ hne⟩

section Displaced

variable (hprocs : s'.procs = s.procs ∨ ∃ old ∈ s.procs, old.status ≠ .inactive ∧
  s'.procs = (s.put old.displaced).procs)

include hprocs

theorem keys_displaced : s'.procs.map Proc.id = s.procs.map Proc.id := by
  obtain hprocs | ⟨old, -, -, hprocs⟩ := hprocs <;> rw [hprocs]
  exact Table.keys_update

/-- Every worker of the new table was there before, and if it is idle it has not changed. -/
theorem mem_displaced (hx : p ∈ s'.procs) :
    ∃ y ∈ s.procs, y.id = p.id ∧ y.pid = p.pid ∧ (p.status = .inactive → p = y) ∧
      (y.status ≠ .inactive → p.status ≠ .inactive) := by
  obtain hprocs | ⟨old, hold, hne, hprocs⟩ := hprocs <;> rw [hprocs] at hx
  · exact ⟨p, hx, rfl, rfl, fun _ => rfl, id⟩
  · obtain rfl | ⟨hx, -⟩ := Table.mem_update hx
    · exact ⟨old, hold, rfl, rfl, fun hc => absurd hc hne, id⟩
    · exact ⟨p, hx, rfl, rfl, fun _ => rfl, id⟩

/-- A worker with a status still has one. -/
theorem WF.active_displaced (h : WF s) (hp : p ∈ s.procs) (hne : p.status ≠ .inactive) :
    ∃ x ∈ s'.procs, x.id = p.id ∧ x.status ≠ .inactive := by
  obtain ⟨x, hx, hxid⟩ := List.mem_map.1
    (keys_displaced hprocs ▸ List.mem_map_of_mem (f := Proc.id) hp)
  obtain ⟨y, hy, hyid, -, -, hactive⟩ := mem_displaced hprocs hx
  obtain rfl := Table.eq_of_key_eq h.ids hy hp (hyid.trans hxid)
  exact ⟨x, hx, hxid, hactive hne⟩

end Displaced

/-- Write the worker that is at work, which has a status now, after others were displaced. -/
theorem WF.put {p' : Proc} (h : WF s) (hp : p ∈ s.procs) (hid : p'.id = p.id)
    (hpid : p'.pid = p.pid) (hstatus : p'.status ≠ .inactive)
    (hprocs : s'.procs = s.procs ∨ ∃ old ∈ s.procs, old.status ≠ .inactive ∧
      s'.procs = (s.put old.displaced).procs)
    (hnext : s'.nextProc = s.nextProc)
    (hdb : s'.dbSid = s.dbSid ∨
      p.id ∉ s.dbSid ∧ ∃ order, s'.dbSid = HTable.add order s.dbSid p.id) :
    WF (s'.put p') := by
  have hids := keys_displaced hprocs
  refine ⟨?_, ?_, ?_, ?_, ?_, ?_⟩
  · show ((Table.update Proc.id s'.procs p').map Proc.id).Nodup
    rw [Table.keys_update, hids]
    exact h.ids
  · intro x hx
    show x.id < s'.nextProc
    rw [hnext]
    obtain rfl | ⟨hx, -⟩ := Table.mem_update hx
    · exact hid ▸ h.lt p hp
    · obtain ⟨y, hy, hyid, -⟩ := mem_displaced hprocs hx
      exact hyid ▸ h.lt y hy
  · intro x hx
    obtain rfl | ⟨hx, -⟩ := Table.mem_update hx
    · exact hpid ▸ h.pid p hp
    · obtain ⟨y, hy, -, hypid, -⟩ := mem_displaced hprocs hx
      exact hypid ▸ h.pid y hy
  · show s'.dbSid.Nodup
    obtain hdb | ⟨hnot, order, hdb⟩ := hdb <;> rw [hdb]
    · exact h.dbSid
    · exact HTable.nodup_add hnot h.dbSid
  · -- The table has the SIDs it had, and perhaps that of the worker at work.
    intro id hmem
    by_cases hself : id = p.id
    · obtain ⟨x, hx, hxid⟩ := List.mem_map.1 (hids ▸ List.mem_map_of_mem (f := Proc.id) hp)
      exact ⟨p', Table.mem_update_self hx (hxid.trans hid.symm), hid.trans hself.symm, hstatus⟩
    · have hold : id ∈ s.dbSid := by
        obtain hdb | ⟨-, order, hdb⟩ := hdb
        · exact hdb ▸ hmem
        · have hmem : id ∈ s'.dbSid := hmem
          rw [hdb] at hmem
          exact (HTable.mem_add.1 hmem).resolve_left hself
      obtain ⟨y, hy, rfl, hne⟩ := h.known id hold
      obtain ⟨x, hx, hxid, hactive⟩ := h.active_displaced hprocs hy hne
      exact ⟨x, Table.mem_update_of_ne hx (by rw [hxid, hid]; exact hself), hxid, hactive⟩
  · intro x hx hidle
    obtain rfl | ⟨hx, -⟩ := Table.mem_update hx
    · exact absurd hidle hstatus
    · obtain ⟨y, hy, -, -, hsame, -⟩ := mem_displaced hprocs hx
      obtain rfl := hsame hidle
      exact h.idle x hy hidle

theorem WF.removeProc (h : WF s) (p : Proc) : WF (removeProc s p) := by
  refine ⟨?_, fun x hx => h.lt x (Table.mem_others.1 hx).1,
    fun x hx => h.pid x (Table.mem_others.1 hx).1, h.dbSid.erase _, fun id hmem => ?_,
    fun x hx => h.idle x (Table.mem_others.1 hx).1⟩
  · exact h.ids.sublist (List.filter_sublist.map _)
  · obtain ⟨hne, hmem⟩ := h.dbSid.mem_erase_iff.1 hmem
    obtain ⟨q, hq, hid, hstatus⟩ := h.known id hmem
    exact ⟨q, Table.mem_others.2 ⟨hq, hid ▸ hne⟩, hid, hstatus⟩

theorem WF.newProc (h : WF s) {pid : ℤ} (hpid : 0 < pid) : WF (newProc s pid) := by
  refine ⟨List.nodup_cons.2 ⟨fun hmem => ?_, h.ids⟩, ?_, ?_, h.dbSid, fun id hmem => ?_, ?_⟩
  · obtain ⟨x, hx, hid⟩ := List.mem_map.1 hmem
    exact absurd (h.lt x hx) (by rw [hid]; exact Nat.lt_irrefl _)
  · intro x hx
    rcases List.mem_cons.1 hx with rfl | hx
    · exact Nat.lt_succ_self _
    · exact Nat.lt_succ_of_lt (h.lt x hx)
  · intro x hx
    rcases List.mem_cons.1 hx with rfl | hx
    · exact hpid
    · exact h.pid x hx
  · obtain ⟨q, hq, hid, hstatus⟩ := h.known id hmem
    exact ⟨q, List.mem_cons_of_mem _ hq, hid, hstatus⟩
  · intro x hx hidle
    rcases List.mem_cons.1 hx with rfl | hx
    · exact ⟨rfl, rfl, rfl⟩
    · exact h.idle x hx hidle

/-- The workers stay the same. -/
theorem authCookieReq_ids (plat : Platform) (cfg : Config) (env : Env) (s : MainSt)
    (p : Proc) (req : Bytes) :
    let out := authCookieReq plat cfg env s p req
    out.proc.id = p.id ∧ out.st.procs.map Proc.id = s.procs.map Proc.id := by
  dsimp only [authCookieReq]
  obtain ⟨hcookie, hdisp⟩ := handleAuthCookieReq_cases cfg env s p req
  generalize handleAuthCookieReq cfg env s p req = out at hcookie hdisp
  obtain ⟨hres, -⟩ :=
    handleCookieAuthRes_frame plat cfg env out.st out.proc out.ret
  refine ⟨hres.id_eq.trans hcookie.id_eq, ?_⟩
  rw [hres.procs_eq]
  cases hdisp with
  | nobody hprocs => rw [hprocs]
  | old old hsearch hprocs =>
    rw [hprocs]
    exact Table.keys_update

/-- The state after a request of an idle worker, before its end is looked at. -/
theorem WF.authCookieReq (plat : Platform) (cfg : Config) (env : Env) (h : WF s)
    (hp : p ∈ s.procs) (hstatus : p.status = .inactive) (req : Bytes) :
    let out := authCookieReq plat cfg env s p req
    WF (out.st.put out.proc) := by
  dsimp only [Main.authCookieReq]
  obtain ⟨hcookie, hdisp⟩ := handleAuthCookieReq_cases cfg env s p req
  generalize handleAuthCookieReq cfg env s p req = out at hcookie hdisp
  obtain ⟨hres, hstatus'⟩ :=
    handleCookieAuthRes_frame plat cfg env out.st out.proc out.ret
  refine h.put hp (hres.id_eq.trans hcookie.id_eq) (hres.pid_eq.trans hcookie.pid_eq) hstatus' ?_
    (hres.nextProc_eq.trans hcookie.nextProc_eq) ?_
  · rw [hres.procs_eq]
    cases hdisp with
    | nobody hprocs => exact .inl hprocs
    | old old hsearch hprocs =>
      obtain ⟨hold, -, -, hne⟩ := h.search hsearch
      exact .inr ⟨old, hold, hne, hprocs⟩
  · rw [hres.dbSid_eq]
    obtain ⟨hdb, -⟩ | ⟨order, hdb⟩ := hcookie.dbSid
    · exact .inl hdb
    · exact .inr ⟨h.not_mem_dbSid hp hstatus, order, hdb⟩

/-- Removing a worker does not depend on its record in the state. -/
theorem removeProc_put (s : MainSt) (p : Proc) : removeProc (s.put p) p = removeProc s p := by
  simp only [removeProc, MainSt.put, Table.others_update]

/-- What one step can be: a worker is forked, a worker is removed, or an idle worker asks for a
session. -/
inductive Step (plat : Platform) (cfg : Config) (s : MainSt) : Label → MainSt → Prop
  | connect {pid : ℤ} (hpid : 0 < pid) : Step plat cfg s (.connect pid) (newProc s pid)
  | removed {i : Label} {p : Proc} (hp : p ∈ s.procs) : Step plat cfg s i (removeProc s p)
  | request {id : ℕ} {req : Bytes} {env : Env} {p : Proc} (hp : p ∈ s.procs) (hid : p.id = id)
      (hstatus : p.status = .inactive) :
      Step plat cfg s (.cookieReq id req env) (authCookieReq plat cfg env s p req).finish

theorem step_cases {i : Label} (h : (machine plat cfg).step s i = some s') :
    Step plat cfg s i s' := by
  cases i with
  | connect pid =>
    simp only [machine, Option.ite_none_right_eq_some, Option.some.injEq] at h
    obtain ⟨hpid, rfl⟩ := h
    exact .connect hpid
  | cookieReq id req env =>
    obtain ⟨p, hfind, rfl⟩ := Option.map_eq_some_iff.1 h
    obtain ⟨hp, hid⟩ := Table.mem_of_find? hfind
    unfold Main.handleCookieReq
    split
    · exact .removed hp
    · rename_i hstatus
      exact .request hp hid (not_not.1 hstatus)
  | remove id =>
    obtain ⟨p, hfind, rfl⟩ := Option.map_eq_some_iff.1 h
    exact .removed (Table.mem_of_find? hfind).1

theorem WF.step {i : Label} (h : WF s) (hs : (machine plat cfg).step s i = some s') : WF s' := by
  cases step_cases hs with
  | connect hpid => exact h.newProc hpid
  | removed hp => exact h.removeProc _
  | @request _ req env p hp hid hstatus =>
    have hput := h.authCookieReq plat cfg env hp hstatus req
    unfold Out.finish
    split
    · rw [← removeProc_put]
      exact hput.removeProc _
    · exact hput

/-- The tables of workers are right in every state of every run. -/
theorem wf_always (is : List Label) : (machine plat cfg).Always WF start is :=
  Machine.always_of_step (fun _ _ _ h _ hs => h.step hs) start_wf (Machine.meets_true start is)

end Main

end Ocserv
