import Ocserv.Main.Workers

/-!
# Main: the tables of workers and their hashes

The tables of `src/proc-search.c` are searched by hashes of fields of the workers: of the address
of the client, of the DTLS session id and of the SID.  The cookie handler writes these fields
before it puts a worker into the tables, and `remove_proc` computes the hashes again.  `TableSt`
is the state of main with the hash under which each worker was put into each table.

A worker is in all tables or in none, every entry is a worker of main, found under the hash of the
fields it has now, and a worker that is removed is in no table any more (`Consistent`); this holds
in every state of every run (`procTables_consistent`).  So the searches by hash find what those of
`Main.machine` find (`tableMachine_refines`).
-/

namespace Ocserv

namespace Main

open SecMod (Bytes Status)

/-- The tables of `proc_table`. -/
inductive Db where
  | ip
  | dtlsId
  | sid
  deriving DecidableEq, Repr

/-- A table of `proc_table`. -/
def MainSt.db (s : MainSt) : Db → List ℕ
  | .ip => s.dbIp
  | .dtlsId => s.dbDtlsId
  | .sid => s.dbSid

def MainSt.setDb (s : MainSt) (t : List ℕ) : Db → MainSt
  | .ip => { s with dbIp := t }
  | .dtlsId => { s with dbDtlsId := t }
  | .sid => { s with dbSid := t }

/-- The state of main with the hashes. -/
structure TableSt where
  st : MainSt
  /-- The bytes of `remote_addr` of a worker. -/
  remoteAddr : ℕ → Bytes
  /-- The hash under which a worker was put into a table. -/
  hash : Db → ℕ → ℕ

/-- What a handler does, with the hashes. -/
structure TableOut where
  st : TableSt
  proc : Proc
  ret : ℤ

section

variable (plat : Platform) (cfg : Config) (hashAny : Bytes → ℕ) (env : Env)
  (moved : Db → List ℕ)

/-- `rehash_ip`. -/
def rehashIp (t : TableSt) (p : Proc) : ℕ := hashAny (t.remoteAddr p.id)

/-- `rehash_dtls_id`. -/
def rehashDtlsId (p : Proc) : ℕ := hashAny p.dtlsSessionId

/-- `rehash_sid`. -/
def rehashSid (p : Proc) : ℕ := hashAny p.sid

/-- The hash of a worker for a table. -/
def rehash (t : TableSt) : Db → Proc → ℕ
  | .ip, p => rehashIp hashAny t p
  | .dtlsId, p => rehashDtlsId hashAny p
  | .sid, p => rehashSid hashAny p

/-- Write to a `proc_st` through its pointer. -/
def TableSt.put (t : TableSt) (p : Proc) : TableSt := { t with st := t.st.put p }

/-- The callback of a table, which reads the `proc_st`. -/
def TableSt.hashOf (t : TableSt) (db : Db) (id : ℕ) : ℕ :=
  ((t.st.find id).map (rehash hashAny t db)).getD 0

/-- The same while a handler works on a worker. -/
def TableSt.rehashOf (t : TableSt) (p : Proc) (db : Db) (id : ℕ) : ℕ :=
  if id = p.id then rehash hashAny t db p else t.hashOf hashAny db id

/-- `htable_add` of a worker: those of `moved` are put again. -/
def TableSt.add (t : TableSt) (db : Db) (order : List ℕ) (p : Proc) (h : ℕ) : TableSt where
  st := t.st.setDb (HTable.add order (t.st.db db) p.id) db
  remoteAddr := t.remoteAddr
  hash := Function.update t.hash db
    (HTable.addHash (t.rehashOf hashAny p db) (moved db) (t.hash db) h p.id)

/-- `htable_del` of a worker. -/
def TableSt.del (t : TableSt) (db : Db) (p : Proc) (h : ℕ) : TableSt :=
  { t with st := t.st.setDb (HTable.delHash (t.hash db) (t.st.db db) h p.id) db }

/-- `proc_table_add`. -/
def TableSt.procTableAdd (t : TableSt) (p : Proc) : TableSt × ℤ :=
  let ipHash := rehashIp hashAny t p
  let dtlsIdHash := rehashDtlsId hashAny p
  match env.addIp with
  | none => (t, -1)
  | some orderIp =>
    let t := t.add hashAny moved .ip orderIp p ipHash
    match env.addDtlsId with
    | none => (t.del .ip p ipHash, -1)
    | some orderDtlsId =>
      let t := t.add hashAny moved .dtlsId orderDtlsId p dtlsIdHash
      match env.addSid with
      | none => ((t.del .ip p ipHash).del .dtlsId p dtlsIdHash, -1)
      | some orderSid => (t.add hashAny moved .sid orderSid p (rehashSid hashAny p), 0)

/-- `proc_table_del`. -/
def TableSt.procTableDel (t : TableSt) (p : Proc) : TableSt :=
  ((t.del .ip p (rehashIp hashAny t p)).del .dtlsId p (rehashDtlsId hashAny p)).del .sid p
    (rehashSid hashAny p)

/-- `proc_search_sid`. -/
def TableSt.procSearchSid (t : TableSt) (sid : Bytes) : Option Proc :=
  (HTable.getHash (t.hash .sid) t.st.dbSid (hashAny sid) fun id =>
    (t.st.find id).any (·.sid = sid)).bind t.st.find

/-- The part of `handle_auth_cookie_req` that displaces the worker that has the SID. -/
def TableSt.replaceOld (t : TableSt) (p : Proc) (cookie : Cookie) : TableOut :=
  match t.procSearchSid hashAny cookie.sid with
  | none => ⟨t, p, 0⟩
  | some old =>
    if p.username ≠ old.username then ⟨t, p, -1⟩
    else
      let (old, p) := stealIpLeases old p
      ⟨t.put { old with sigterm := old.sigterm || decide (0 < old.pid) }, p, 0⟩

/-- `handle_auth_cookie_req`. -/
def TableSt.handleAuthCookieReq (t : TableSt) (p : Proc) (req : Bytes) : TableOut :=
  match openCookie cfg env p req with
  | (p, none) => ⟨t, p, -1⟩
  | (p, some cookie) =>
    if !mayRoam env p cookie then ⟨t, p, -1⟩
    else
      let out := t.replaceOld hashAny p cookie
      if out.ret < 0 then out
      else
        let p := { out.proc with ipv4Seed := cookie.ipv4Seed }
        let added := out.st.procTableAdd hashAny env moved p
        ⟨added.1, p, added.2⟩

/-- `AUTH_COOKIE_REQ` in `handle_commands`. -/
def TableSt.handleCookieReq (t : TableSt) (p : Proc) (req : Bytes) : TableOut :=
  if p.status ≠ .inactive then ⟨t, p, errBadCommand⟩
  else
    let out := t.handleAuthCookieReq cfg hashAny env moved p req
    let res := handleCookieAuthRes plat cfg env out.st.st out.proc out.ret
    ⟨{ out.st with st := res.st }, res.proc, res.ret⟩

/-- `remove_proc`. -/
def TableSt.removeProc (t : TableSt) (p : Proc) : TableSt :=
  { t with
    st := { t.st with
      procs := Table.others Proc.id t.st.procs p.id
      ipLeases := p.leases.foldl freeLease t.st.ipLeases } }.procTableDel hashAny p

/-- A worker whose request failed is removed. -/
def TableOut.finish (out : TableOut) : TableSt :=
  if out.ret < 0 then out.st.removeProc hashAny out.proc else out.st.put out.proc

/-- `new_proc`. -/
def TableSt.newProc (t : TableSt) (pid : ℤ) (remoteAddr : Bytes) : TableSt :=
  { t with
    st := Main.newProc t.st pid
    remoteAddr := Function.update t.remoteAddr t.st.nextProc remoteAddr }

/-- What main does next, with the address of a client that connects, and the workers that the
additions to the tables put again. -/
inductive TableLabel where
  | connect (pid : ℤ) (remoteAddr : Bytes)
  | cookieReq (id : ℕ) (req : Bytes) (env : Env) (moved : Db → List ℕ)
  | remove (id : ℕ)

/-- The machine of main with the hashes. -/
def tableMachine : Machine TableSt TableLabel where
  step t
    | .connect pid remoteAddr => if 0 < pid then some (t.newProc pid remoteAddr) else none
    | .cookieReq id req env moved =>
      (t.st.find id).map fun p =>
        (t.handleCookieReq plat cfg hashAny env moved p req).finish hashAny
    | .remove id => (t.st.find id).map (t.removeProc hashAny)

end

/-- Main when it starts. -/
def tableStart : TableSt := ⟨start, fun _ => [], fun _ _ => 0⟩

/-- The label without the hashes. -/
def TableLabel.label : TableLabel → Label
  | .connect pid _ => .connect pid
  | .cookieReq id req env _ => .cookieReq id req env
  | .remove id => .remove id

variable {plat : Platform} {cfg : Config} {hashAny : Bytes → ℕ} {env : Env}
  {moved : Db → List ℕ} {t : TableSt} {p p' q : Proc} {db : Db}

/-! ### The invariant -/

/-- A worker is in all tables or in none, and was put under the hash it has. -/
structure TableInv (hashAny : Bytes → ℕ) (t : TableSt) : Prop where
  wf : WF t.st
  nodup : ∀ db, (t.st.db db).Nodup
  same : ∀ db id, id ∈ t.st.db db ↔ id ∈ t.st.dbSid
  placed : ∀ db, HTable.Placed (t.hashOf hashAny db) (t.hash db) (t.st.db db)

/-- The same while a handler works on a worker. -/
structure AtWork (hashAny : Bytes → ℕ) (t : TableSt) (p : Proc) : Prop where
  wf : WF (t.st.put p)
  mem : p.id ∈ t.st.procs.map Proc.id
  nodup : ∀ db, (t.st.db db).Nodup
  same : ∀ db id, id ∈ t.st.db db ↔ id ∈ t.st.dbSid
  placed : ∀ db, HTable.Placed (t.rehashOf hashAny p db) (t.hash db) (t.st.db db)

theorem rehash_put : rehash hashAny (t.put p) db q = rehash hashAny t db q := by
  cases db <;> rfl

theorem db_put (s : MainSt) : (s.put p).db db = s.db db := by
  cases db <;> rfl

theorem db_setDb (s : MainSt) (l : List ℕ) (db db' : Db) :
    (s.setDb l db).db db' = if db' = db then l else s.db db' := by
  cases db <;> cases db' <;> rfl

/-- The worker that is found in the table of workers. -/
theorem find_eq_some {s : MainSt} (h : (s.procs.map Proc.id).Nodup) (hp : p ∈ s.procs) :
    s.find p.id = some p := Table.find?_eq_some h hp

theorem hashOf_mem (h : (t.st.procs.map Proc.id).Nodup) (hp : p ∈ t.st.procs) :
    t.hashOf hashAny db p.id = rehash hashAny t db p := by
  rw [TableSt.hashOf, find_eq_some h hp]
  rfl

/-- After the handler the `proc_st` is the one it worked on. -/
theorem hashOf_put (hp : p.id ∈ t.st.procs.map Proc.id) :
    (t.put p).hashOf hashAny db = t.rehashOf hashAny p db := by
  funext id
  unfold TableSt.rehashOf TableSt.hashOf
  have hrehash : rehash hashAny (t.put p) db = rehash hashAny t db := by
    funext q
    exact rehash_put
  rw [hrehash]
  by_cases hid : id = p.id
  · subst hid
    have hself : (t.put p).st.find p.id = some p := Table.find?_update_self hp
    rw [if_pos rfl, hself]
    rfl
  · rw [if_neg hid]
    congr 2
    exact Table.find?_update_of_ne hid

theorem TableInv.atWork (h : TableInv hashAny t) (hp : p ∈ t.st.procs) : AtWork hashAny t p := by
  have hput : t.st.put p = t.st := by
    rw [MainSt.put, Table.update_self h.wf.ids hp]
  refine ⟨hput.symm ▸ h.wf, List.mem_map_of_mem hp, h.nodup, h.same, ?_⟩
  intro db id hid
  rw [h.placed db id hid]
  unfold TableSt.rehashOf
  split
  · rename_i heq
    rw [heq, hashOf_mem h.wf.ids hp]
  · rfl

theorem AtWork.ids (h : AtWork hashAny t p) : (t.st.procs.map Proc.id).Nodup := by
  have hids : ((Table.update Proc.id t.st.procs p).map Proc.id).Nodup := h.wf.ids
  rwa [Table.keys_update] at hids

/-- The end of a handler. -/
theorem AtWork.put (h : AtWork hashAny t p) : TableInv hashAny (t.put p) := by
  refine ⟨h.wf, ?_, ?_, ?_⟩
  · intro db
    show ((t.st.put p).db db).Nodup
    rw [db_put]
    exact h.nodup db
  · intro db id
    show id ∈ (t.st.put p).db db ↔ id ∈ t.st.dbSid
    rw [db_put]
    exact h.same db id
  · intro db
    rw [hashOf_put h.mem]
    show HTable.Placed _ (t.hash db) ((t.st.put p).db db)
    rw [db_put]
    exact h.placed db

/-! ### Additions and removals -/

/-- `t'` is `t` with a worker put into the tables `dbs`. -/
structure Added (hashAny : Bytes → ℕ) (t t' : TableSt) (p : Proc) (dbs : Db → Bool) : Prop where
  procs_eq : t'.st.procs = t.st.procs
  remoteAddr_eq : t'.remoteAddr = t.remoteAddr
  perm : ∀ db, (t'.st.db db).Perm (if dbs db then p.id :: t.st.db db else t.st.db db)
  placed : ∀ db, HTable.Placed (t.rehashOf hashAny p db) (t'.hash db) (t'.st.db db)

theorem rehash_congr {t' : TableSt} (haddr : t'.remoteAddr = t.remoteAddr) (db : Db) (q : Proc) :
    rehash hashAny t' db q = rehash hashAny t db q := by
  cases db with
  | ip => simp only [rehash, rehashIp, haddr]
  | dtlsId => rfl
  | sid => rfl

theorem rehashOf_congr {t' : TableSt} (hprocs : t'.st.procs = t.st.procs)
    (haddr : t'.remoteAddr = t.remoteAddr) (db : Db) :
    t'.rehashOf hashAny p db = t.rehashOf hashAny p db := by
  have hrehash : rehash hashAny t' db = rehash hashAny t db :=
    funext fun q => rehash_congr haddr db q
  funext id
  simp only [TableSt.rehashOf, TableSt.hashOf, MainSt.find, hrehash, hprocs]

theorem rehashOf_self : t.rehashOf hashAny p db p.id = rehash hashAny t db p := if_pos rfl

theorem procs_setDb (s : MainSt) (l : List ℕ) (db : Db) : (s.setDb l db).procs = s.procs := by
  cases db <;> rfl

namespace Added

variable {t' : TableSt} {dbs : Db → Bool}

theorem refl (h : ∀ db, HTable.Placed (t.rehashOf hashAny p db) (t.hash db) (t.st.db db)) :
    Added hashAny t t p fun _ => false :=
  ⟨rfl, rfl, fun _ => .refl _, h⟩

theorem add (moved : Db → List ℕ) (h : Added hashAny t t' p dbs) (db : Db) (hdb : dbs db = false)
    (order : List ℕ) :
    Added hashAny t (t'.add hashAny moved db order p (rehash hashAny t db p)) p
      fun d => d = db || dbs d := by
  refine ⟨(procs_setDb ..).trans h.procs_eq, h.remoteAddr_eq, fun d => ?_, fun d => ?_⟩
  · show ((t'.st.setDb _ db).db d).Perm _
    rw [db_setDb]
    by_cases hd : d = db
    · subst hd
      have hperm := h.perm d
      rw [if_neg (by simp [hdb])] at hperm
      rw [if_pos rfl, if_pos (by simp)]
      exact HTable.add_perm.trans (hperm.cons _)
    · rw [if_neg hd]
      simpa [hd] using h.perm d
  · show HTable.Placed _ (Function.update t'.hash db _ d) ((t'.st.setDb _ db).db d)
    rw [db_setDb]
    by_cases hd : d = db
    · subst hd
      rw [if_pos rfl, Function.update_self, rehashOf_congr h.procs_eq h.remoteAddr_eq,
        ← rehashOf_self]
      exact (h.placed d).add
    · rw [if_neg hd, Function.update_of_ne hd]
      exact h.placed d

theorem del_st (h : Added hashAny t t' p dbs) (db : Db) :
    (t'.del db p (rehash hashAny t db p)).st =
      t'.st.setDb (HTable.del (t'.st.db db) p.id) db := by
  have hhash : p.id ∈ t'.st.db db → t'.hash db p.id = rehash hashAny t db p :=
    fun hmem => (h.placed db _ hmem).trans rehashOf_self
  rw [TableSt.del, HTable.delHash_eq hhash]

theorem del (h : Added hashAny t t' p dbs) (db : Db) (hdb : dbs db = true) :
    Added hashAny t (t'.del db p (rehash hashAny t db p)) p fun d => d ≠ db && dbs d := by
  refine ⟨(procs_setDb ..).trans h.procs_eq, h.remoteAddr_eq, fun d => ?_, fun d => ?_⟩
  · rw [h.del_st, db_setDb]
    by_cases hd : d = db
    · subst hd
      have hperm := h.perm d
      rw [if_pos hdb] at hperm
      rw [if_pos rfl, if_neg (by simp)]
      exact (hperm.erase p.id).trans (by rw [List.erase_cons_head])
    · rw [if_neg hd]
      simpa [hd] using h.perm d
  · show HTable.Placed _ (t'.hash d) _
    rw [h.del_st, db_setDb]
    by_cases hd : d = db
    · subst hd
      rw [if_pos rfl]
      exact fun id hid => h.placed d id (List.mem_of_mem_erase hid)
    · rw [if_neg hd]
      exact h.placed d

end Added

/-- **`proc_table_add`** puts a worker into all tables, or into none. -/
theorem procTableAdd_added (env : Env) (moved : Db → List ℕ)
    (h : ∀ db, HTable.Placed (t.rehashOf hashAny p db) (t.hash db) (t.st.db db)) :
    let r := t.procTableAdd hashAny env moved p
    (r.1.st, r.2) = Main.procTableAdd env t.st p.id ∧
      Added hashAny t r.1 p fun _ => decide (r.2 = 0) := by
  have hcongr : ∀ {t' : TableSt} {dbs dbs' : Db → Bool}, Added hashAny t t' p dbs →
      (∀ db, dbs' db = dbs db) → Added hashAny t t' p dbs' := fun hadd heq => by
    rwa [funext heq]
  have h₀ := Added.refl h
  unfold TableSt.procTableAdd Main.procTableAdd
  dsimp only
  cases env.addIp with
  | none => exact ⟨rfl, hcongr h₀ fun db => rfl⟩
  | some orderIp =>
    have h₁ := h₀.add moved .ip rfl orderIp
    cases env.addDtlsId with
    | none =>
      refine ⟨?_, hcongr (h₁.del .ip rfl) fun db => by cases db <;> rfl⟩
      exact congrArg (·, (-1 : ℤ)) (h₁.del_st .ip)
    | some orderDtlsId =>
      have h₂ := h₁.add moved .dtlsId rfl orderDtlsId
      cases env.addSid with
      | none =>
        have h₃ := h₂.del .ip rfl
        refine ⟨?_, hcongr (h₃.del .dtlsId rfl) fun db => by cases db <;> rfl⟩
        refine congrArg (·, (-1 : ℤ)) ((h₃.del_st .dtlsId).trans ?_)
        rw [h₂.del_st .ip]
        rfl
      | some orderSid =>
        exact ⟨rfl, hcongr (h₂.add moved .sid rfl orderSid) fun db => by cases db <;> rfl⟩

/-! ### After the request -/

/-- Only the leases and the status of the worker change. -/
def OnlyLeases (s : MainSt) (p : Proc) (out : Out) : Prop :=
  ∃ ipLeases nextLease ipv4 ipv6 status,
    out.st = { s with ipLeases := ipLeases, nextLease := nextLease } ∧
      out.proc = { p with ipv4 := ipv4, ipv6 := ipv6, status := status }

namespace OnlyLeases

variable {s : MainSt} {out out' : Out}

theorem refl (s : MainSt) (p : Proc) (ret : ℤ) : OnlyLeases s p ⟨s, p, ret⟩ :=
  ⟨_, _, _, _, _, rfl, rfl⟩

theorem trans (h : OnlyLeases s p out) (h' : OnlyLeases out.st out.proc out') :
    OnlyLeases s p out' := by
  obtain ⟨_, _, _, _, _, hst, hproc⟩ := h
  obtain ⟨l, n, l4, l6, status, hst', hproc'⟩ := h'
  exact ⟨l, n, l4, l6, status, by rw [hst', hst], by rw [hproc', hproc]⟩

/-- The return value and the status do not matter. -/
theorem congr (h : OnlyLeases s p out) (status : Status) (ret : ℤ) :
    OnlyLeases s p { out with proc := { out.proc with status := status }, ret := ret } := by
  obtain ⟨l, n, l4, l6, _, hst, hproc⟩ := h
  exact ⟨l, n, l4, l6, status, hst, by rw [hproc]⟩

theorem withRet (h : OnlyLeases s p out) (ret : ℤ) : OnlyLeases s p { out with ret := ret } := h

end OnlyLeases

theorem getIpv4_onlyLeases (plat : Platform) (cfg : Config) (env : Env) (s : MainSt) (p : Proc) :
    OnlyLeases s p (getIpv4 plat cfg env s p) := by
  unfold getIpv4
  split <;> exact ⟨_, _, _, _, _, rfl, rfl⟩

theorem getIpv6_onlyLeases (plat : Platform) (cfg : Config) (env : Env) (s : MainSt) (p : Proc) :
    OnlyLeases s p (getIpv6 plat cfg env s p) := by
  unfold getIpv6
  split <;> exact ⟨_, _, _, _, _, rfl, rfl⟩

theorem getIpLeases_onlyLeases (plat : Platform) (cfg : Config) (env : Env) (s : MainSt)
    (p : Proc) :
    OnlyLeases s p (getIpLeases plat cfg env s p) := by
  have h4 := getIpv4_onlyLeases plat cfg env s p
  have h := h4.trans (getIpv6_onlyLeases plat cfg env _ _)
  unfold getIpLeases
  dsimp only
  repeat' split
  · exact h4
  · exact h
  · exact h.withRet _
  · exact h.withRet _

theorem setNetworkInfo_onlyLeases (env : Env) (s : MainSt) (p : Proc) :
    OnlyLeases s p (setNetworkInfo env s p) := by
  have h : OnlyLeases s p (setIpv6Addr env s p) := by
    unfold setIpv6Addr
    repeat' split
    all_goals exact ⟨_, _, _, _, _, rfl, rfl⟩
  unfold setNetworkInfo
  dsimp only
  repeat' split
  · exact .refl s p _
  · exact h.withRet _
  · exact h

theorem openTun_onlyLeases (plat : Platform) (cfg : Config) (env : Env) (s : MainSt) (p : Proc) :
    OnlyLeases s p (openTun plat cfg env s p) := by
  have h := getIpLeases_onlyLeases plat cfg env s p
  unfold openTun
  dsimp only
  split
  · exact h
  · split
    · exact h.withRet _
    · exact (h.trans (setNetworkInfo_onlyLeases env _ _)).withRet _

theorem handleCookieAuthRes_onlyLeases (plat : Platform) (cfg : Config) (env : Env) (s : MainSt)
    (p : Proc) (result : ℤ) :
    OnlyLeases s p (handleCookieAuthRes plat cfg env s p result) := by
  have haccept : OnlyLeases s p (acceptUser plat cfg env s p) := by
    have h := openTun_onlyLeases plat cfg env s p
    unfold acceptUser
    dsimp only
    split
    · exact .refl s p _
    · split <;> exact h.withRet _
  have hstatus : OnlyLeases s p (cookieAuthStatus plat cfg env s p result) := by
    unfold cookieAuthStatus
    split
    · exact haccept.congr _ _
    · exact (OnlyLeases.refl s p 0).congr .failed _
  unfold handleCookieAuthRes
  dsimp only
  split
  · exact hstatus.withRet 0
  · exact hstatus.congr _ _

/-! ### The request of a session -/

/-- **The search by hash** finds what the search finds. -/
theorem TableInv.procSearchSid_eq (h : TableInv hashAny t) (sid : Bytes) :
    t.procSearchSid hashAny sid = Main.procSearchSid t.st sid := by
  have hplaced : HTable.Placed (t.hashOf hashAny .sid) (t.hash .sid) t.st.dbSid := h.placed .sid
  unfold TableSt.procSearchSid Main.procSearchSid
  rw [hplaced.getHash_eq]
  intro id hid hcmp
  obtain ⟨p, hp, rfl, -⟩ := h.wf.known id hid
  rw [find_eq_some h.wf.ids hp, Option.any_some, decide_eq_true_eq] at hcmp
  rw [hashOf_mem h.wf.ids hp, ← hcmp]
  rfl

theorem TableInv.replaceOld_eq (h : TableInv hashAny t) (p : Proc) (cookie : Cookie) :
    t.replaceOld hashAny p cookie =
      let out := Main.replaceOld t.st p cookie
      ⟨{ t with st := out.st }, out.proc, out.ret⟩ := by
  unfold TableSt.replaceOld Main.replaceOld
  rw [h.procSearchSid_eq]
  cases Main.procSearchSid t.st cookie.sid with
  | none => rfl
  | some old =>
    dsimp only
    split <;> rfl

/-- An idle worker is in no table. -/
theorem TableInv.not_mem (h : TableInv hashAny t) (hp : p ∈ t.st.procs)
    (hstatus : p.status = .inactive) (db : Db) : p.id ∉ t.st.db db :=
  fun hmem => h.wf.not_mem_dbSid hp hstatus ((h.same db _).1 hmem)

/-- Whatever is written to a worker that is in no table, the others stay in place. -/
theorem TableInv.placed_of_not_mem (h : TableInv hashAny t) (hnot : ∀ db, p.id ∉ t.st.db db)
    (db : Db) : HTable.Placed (t.rehashOf hashAny p db) (t.hash db) (t.st.db db) := by
  intro id hid
  have hne : id ≠ p.id := fun heq => hnot db (heq ▸ hid)
  rw [h.placed db id hid, TableSt.rehashOf, if_neg hne]

/-- What becomes of the other workers when one displaces another. -/
theorem TableInv.replaceOld_cases (h : TableInv hashAny t) (p : Proc) (cookie : Cookie) :
    (Main.replaceOld t.st p cookie).proc.id = p.id ∧
      (∀ db, (Main.replaceOld t.st p cookie).st.db db = t.st.db db) ∧
      ((Main.replaceOld t.st p cookie).st.procs = t.st.procs ∨ ∃ old ∈ t.st.procs,
        (Main.replaceOld t.st p cookie).st.procs = (t.st.put old.displaced).procs) := by
  unfold Main.replaceOld
  cases hsearch : Main.procSearchSid t.st cookie.sid with
  | none => exact ⟨rfl, fun _ => rfl, .inl rfl⟩
  | some old =>
    dsimp only
    split
    · exact ⟨rfl, fun _ => rfl, .inl rfl⟩
    · exact ⟨rfl, fun _ => db_put _, .inr ⟨old, (h.wf.search hsearch).1, rfl⟩⟩

/-- Displacing a worker changes no hash. -/
theorem rehashOf_displaced {s' : MainSt} (h : TableInv hashAny t)
    (hprocs : s'.procs = t.st.procs ∨
      ∃ old ∈ t.st.procs, s'.procs = (t.st.put old.displaced).procs) (db : Db) :
    ({ t with st := s' } : TableSt).rehashOf hashAny p db = t.rehashOf hashAny p db := by
  funext id
  have hrehash : rehash hashAny ({ t with st := s' } : TableSt) db = rehash hashAny t db :=
    funext fun q => rehash_congr rfl db q
  unfold TableSt.rehashOf TableSt.hashOf
  rw [hrehash]
  obtain hprocs | ⟨old, hold, hprocs⟩ := hprocs
  · simp only [MainSt.find, hprocs]
  · split
    · rfl
    · by_cases hid : id = old.id
      · subst hid
        have hnew : s'.find old.id = some old.displaced := by
          unfold MainSt.find
          rw [hprocs]
          exact Table.find?_update_self (a := old.displaced) (List.mem_map.2 ⟨old, hold, rfl⟩)
        rw [hnew, find_eq_some h.wf.ids hold]
        cases db <;> rfl
      · congr 2
        unfold MainSt.find
        rw [hprocs]
        exact Table.find?_update_of_ne hid

/-- **`handle_auth_cookie_req`** does what it does without the hashes, and leaves every worker in
its place. -/
theorem TableInv.handleAuthCookieReq (cfg : Config) (h : TableInv hashAny t) (hp : p ∈ t.st.procs)
    (hstatus : p.status = .inactive) (env : Env) (moved : Db → List ℕ) (req : Bytes) :
    let out := t.handleAuthCookieReq cfg hashAny env moved p req
    (⟨out.st.st, out.proc, out.ret⟩ : Out) = Main.handleAuthCookieReq cfg env t.st p req ∧
      (∃ b : Bool, ∀ db, (out.st.st.db db).Perm
        (if b then p.id :: t.st.db db else t.st.db db)) ∧
      ∀ db, HTable.Placed (out.st.rehashOf hashAny out.proc db) (out.st.hash db)
        (out.st.st.db db) := by
  have hnot := h.not_mem hp hstatus
  have refused : ∀ p' : Proc, p'.id = p.id →
      (∃ b : Bool, ∀ db, (t.st.db db).Perm (if b then p.id :: t.st.db db else t.st.db db)) ∧
        ∀ db, HTable.Placed (t.rehashOf hashAny p' db) (t.hash db) (t.st.db db) := fun p' hid =>
    ⟨⟨false, fun _ => .refl _⟩, h.placed_of_not_mem (hid ▸ hnot)⟩
  have hid := (openCookie_frame cfg env p req).1
  unfold TableSt.handleAuthCookieReq Main.handleAuthCookieReq
  cases hopen : openCookie cfg env p req with
  | mk p' cookie =>
  rw [hopen] at hid
  cases cookie with
  | none => exact ⟨rfl, refused p' hid⟩
  | some cookie =>
    dsimp only
    split
    · exact ⟨rfl, refused p' hid⟩
    · obtain ⟨hidOld, hdb, hprocs⟩ := h.replaceOld_cases p' cookie
      have hpid : (Main.replaceOld t.st p' cookie).proc.id = p.id := hidOld.trans hid
      rw [h.replaceOld_eq]
      generalize Main.replaceOld t.st p' cookie = old at hdb hprocs hpid ⊢
      -- nobody has moved so far
      have hplaced : ∀ (p₁ : Proc), p₁.id = p.id → ∀ db, HTable.Placed
          (({ t with st := old.st } : TableSt).rehashOf hashAny p₁ db) (t.hash db)
            (old.st.db db) := by
        intro p₁ hid₁ db
        rw [rehashOf_displaced h hprocs, hdb]
        exact h.placed_of_not_mem (hid₁ ▸ hnot) db
      dsimp only
      split
      · exact ⟨rfl, ⟨false, fun db => by rw [hdb]; exact .refl _⟩, hplaced old.proc hpid⟩
      · obtain ⟨heq, hadd⟩ := procTableAdd_added (t := { t with st := old.st }) env moved
          (hplaced { old.proc with ipv4Seed := cookie.ipv4Seed } hpid)
        generalize ({ t with st := old.st } : TableSt).procTableAdd hashAny env moved
          { old.proc with ipv4Seed := cookie.ipv4Seed } = added at heq hadd ⊢
        refine ⟨?_, ⟨decide (added.2 = 0), fun db => ?_⟩, fun db => ?_⟩
        · exact congrArg (fun r : MainSt × ℤ => (⟨r.1, _, r.2⟩ : Out)) heq
        · have hperm := hadd.perm db
          rw [← hpid, ← hdb db]
          exact hperm
        · rw [rehashOf_congr hadd.procs_eq hadd.remoteAddr_eq]
          exact hadd.placed db

/-- **`AUTH_COOKIE_REQ`** does what it does without the hashes. -/
theorem TableInv.handleCookieReq (plat : Platform) (cfg : Config) (h : TableInv hashAny t)
    (hp : p ∈ t.st.procs) (env : Env) (moved : Db → List ℕ) (req : Bytes) :
    let out := t.handleCookieReq plat cfg hashAny env moved p req
    (⟨out.st.st, out.proc, out.ret⟩ : Out) = Main.handleCookieReq plat cfg env t.st p req ∧
      AtWork hashAny out.st out.proc := by
  unfold TableSt.handleCookieReq Main.handleCookieReq
  split
  · exact ⟨rfl, h.atWork hp⟩
  · rename_i hstatus
    rw [not_not] at hstatus
    obtain ⟨heq, ⟨b, hperm⟩, hplaced⟩ :=
      h.handleAuthCookieReq cfg hp hstatus env moved req
    have hwf := h.wf.authCookieReq plat cfg env hp hstatus req
    have hids := authCookieReq_ids plat cfg env t.st p req
    unfold authCookieReq at hwf hids ⊢
    rw [← heq] at hwf hids ⊢
    generalize t.handleAuthCookieReq cfg hashAny env moved p req = out at hperm hplaced hwf hids ⊢
    dsimp only at hwf hids ⊢
    obtain ⟨l, n, l4, l6, status, hst, hproc⟩ := handleCookieAuthRes_onlyLeases plat cfg env
      out.st.st out.proc out.ret
    generalize handleCookieAuthRes plat cfg env out.st.st out.proc out.ret = res
      at hwf hids hst hproc ⊢
    have hnot := h.not_mem hp hstatus
    have hdb : ∀ db, res.st.db db = out.st.st.db db := by
      intro db
      rw [hst]
      cases db <;> rfl
    have hmem : ∀ db id, id ∈ res.st.db db ↔ (b = true ∧ id = p.id) ∨ id ∈ t.st.db db := by
      intro db id
      rw [hdb, (hperm db).mem_iff]
      cases b <;> simp
    refine ⟨rfl, hwf, ?_, fun db => ?_, fun db id => ?_, fun db => ?_⟩
    · rw [hids.2, hids.1]
      exact List.mem_map_of_mem hp
    · show (res.st.db db).Nodup
      rw [hdb, (hperm db).nodup_iff]
      cases b with
      | false => exact h.nodup db
      | true => exact List.nodup_cons.2 ⟨hnot db, h.nodup db⟩
    · show id ∈ res.st.db db ↔ id ∈ res.st.db .sid
      rw [hmem, hmem, h.same db id]
      rfl
    · show HTable.Placed _ (out.st.hash db) (res.st.db db)
      rw [hdb]
      have hrehash : ({ out.st with st := res.st } : TableSt).rehashOf hashAny res.proc db =
          out.st.rehashOf hashAny out.proc db := by
        funext id
        simp only [TableSt.rehashOf, TableSt.hashOf, MainSt.find, hst, hproc]
        cases db <;> rfl
      rw [hrehash]
      exact hplaced db

/-! ### Removing a worker -/

/-- **`remove_proc`** computes the hashes again, and finds the worker under them. -/
theorem AtWork.removeProc_eq (h : AtWork hashAny t p) :
    t.removeProc hashAny p = { t with st := Main.removeProc t.st p } := by
  have hdel : ∀ db, HTable.delHash (t.hash db) (t.st.db db) (rehash hashAny t db p) p.id =
      HTable.del (t.st.db db) p.id := fun db =>
    HTable.delHash_eq fun hmem => (h.placed db _ hmem).trans rehashOf_self
  have hip := hdel .ip
  have hdtlsId := hdel .dtlsId
  have hsid := hdel .sid
  simp only [MainSt.db, rehash, rehashIp] at hip hdtlsId hsid
  simp only [TableSt.removeProc, TableSt.procTableDel, Main.removeProc, Main.procTableDel,
    TableSt.del, MainSt.setDb, MainSt.db, rehashIp, hip, hdtlsId, hsid]

theorem db_removeProc (s : MainSt) (p : Proc) (db : Db) :
    (Main.removeProc s p).db db = (s.db db).erase p.id := by
  cases db <;> rfl

theorem AtWork.removeProc (h : AtWork hashAny t p) : TableInv hashAny (t.removeProc hashAny p) := by
  rw [h.removeProc_eq]
  refine ⟨removeProc_put t.st p ▸ h.wf.removeProc p, fun db => ?_, fun db id => ?_,
    fun db id hid => ?_⟩
  · show ((Main.removeProc t.st p).db db).Nodup
    rw [db_removeProc]
    exact (h.nodup db).erase _
  · show id ∈ (Main.removeProc t.st p).db db ↔ id ∈ (Main.removeProc t.st p).db .sid
    rw [db_removeProc, db_removeProc, (h.nodup db).mem_erase_iff, (h.nodup .sid).mem_erase_iff,
      h.same db id]
    rfl
  · have hmem : id ∈ (t.st.db db).erase p.id := db_removeProc t.st p db ▸ hid
    obtain ⟨hne, hold⟩ := (h.nodup db).mem_erase_iff.1 hmem
    have hplaced : t.hash db id = t.rehashOf hashAny p db id := h.placed db id hold
    have hfind : (Main.removeProc t.st p).find id = t.st.find id := by
      show Table.find? Proc.id (Table.others Proc.id t.st.procs p.id) id = _
      rw [Table.find?_others h.ids, if_neg hne]
      rfl
    show t.hash db id = TableSt.hashOf hashAny _ db id
    rw [hplaced, TableSt.rehashOf, if_neg hne, TableSt.hashOf, TableSt.hashOf]
    simp only [hfind]
    rfl

/-- **The end of a request.** -/
theorem AtWork.finish {out : TableOut} (h : AtWork hashAny out.st out.proc) :
    TableInv hashAny (out.finish hashAny) ∧
      (out.finish hashAny).st = (⟨out.st.st, out.proc, out.ret⟩ : Out).finish := by
  unfold TableOut.finish Out.finish
  dsimp only
  split
  · exact ⟨h.removeProc, by rw [h.removeProc_eq]⟩
  · exact ⟨h.put, rfl⟩

theorem TableInv.newProc (h : TableInv hashAny t) {pid : ℤ} (hpid : 0 < pid) (remoteAddr : Bytes) :
    TableInv hashAny (t.newProc pid remoteAddr) := by
  have hdb : ∀ db, (t.newProc pid remoteAddr).st.db db = t.st.db db := fun db => by
    cases db <;> rfl
  refine ⟨h.wf.newProc hpid, fun db => ?_, fun db id => ?_, fun db id hid => ?_⟩
  · rw [hdb]
    exact h.nodup db
  · rw [hdb]
    exact h.same db id
  · rw [hdb] at hid
    obtain ⟨q, hq, rfl, -⟩ := h.wf.known id ((h.same db id).1 hid)
    have hne : q.id ≠ t.st.nextProc := (h.wf.lt q hq).ne
    show t.hash db q.id = _
    rw [h.placed db q.id hid, hashOf_mem h.wf.ids hq,
      hashOf_mem (h.wf.newProc hpid).ids (List.mem_cons_of_mem _ hq)]
    cases db with
    | ip =>
      show hashAny _ = hashAny (Function.update t.remoteAddr t.st.nextProc remoteAddr q.id)
      rw [Function.update_of_ne hne]
    | dtlsId => rfl
    | sid => rfl

/-! ### Runs -/

theorem tableStart_inv : TableInv hashAny tableStart :=
  ⟨start_wf, fun db => by cases db <;> exact .nil, fun db id => by cases db <;> exact .rfl,
    fun db id hid => by cases db <;> cases hid⟩

/-- **One step** of main with the hashes is the step without them, and keeps the invariant. -/
theorem TableInv.step (h : TableInv hashAny t) {i : TableLabel} {t' : TableSt}
    (hs : (tableMachine plat cfg hashAny).step t i = some t') :
    TableInv hashAny t' ∧ (machine plat cfg).step t.st i.label = some t'.st := by
  cases i with
  | connect pid remoteAddr =>
    simp only [tableMachine, Option.ite_none_right_eq_some, Option.some.injEq] at hs
    obtain ⟨hpid, rfl⟩ := hs
    exact ⟨h.newProc hpid remoteAddr, if_pos hpid⟩
  | cookieReq id req env moved =>
    obtain ⟨p, hfind, rfl⟩ := Option.map_eq_some_iff.1 hs
    obtain ⟨heq, hwork⟩ := h.handleCookieReq plat cfg
      (Table.mem_of_find? hfind).1 env moved req
    obtain ⟨hinv, hst⟩ := hwork.finish
    refine ⟨hinv, ?_⟩
    rw [hst, heq]
    exact Option.map_eq_some_iff.2 ⟨p, hfind, rfl⟩
  | remove id =>
    obtain ⟨p, hfind, rfl⟩ := Option.map_eq_some_iff.1 hs
    have hwork := h.atWork (Table.mem_of_find? hfind).1
    refine ⟨hwork.removeProc, Option.map_eq_some_iff.2 ⟨p, hfind, ?_⟩⟩
    rw [hwork.removeProc_eq]

theorem tableInv_always (is : List TableLabel) :
    (tableMachine plat cfg hashAny).Always (TableInv hashAny) tableStart is :=
  Machine.always_of_step (fun _ _ _ h _ hs => (h.step hs).1) tableStart_inv
    (Machine.meets_true tableStart is)

/-- **The searches by hash find what the searches find**: a run with the hashes is a run without
them. -/
theorem tableMachine_refines {is : List TableLabel} (h : TableInv hashAny t) {t' : TableSt}
    (hrun : (tableMachine plat cfg hashAny).run t is = some t') :
    (machine plat cfg).run t.st (is.map TableLabel.label) = some t'.st := by
  induction is generalizing t with
  | nil =>
    cases hrun
    rfl
  | cons i is ih =>
    obtain ⟨t₁, hstep, hrun⟩ := Machine.run_cons_eq_some.1 hrun
    obtain ⟨hinv, hst⟩ := h.step hstep
    exact Machine.run_cons_eq_some.2 ⟨t₁.st, hst, ih hinv hrun⟩

/-- The tables are consistent. -/
structure Consistent (hashAny : Bytes → ℕ) (t : TableSt) : Prop where
  allOrNone : ∀ p ∈ t.st.procs, (∀ db, p.id ∈ t.st.db db) ∨ ∀ db, p.id ∉ t.st.db db
  /-- An entry is there once, it is a worker of main, and it is found under the hash of the fields
  this worker has now. -/
  entry : ∀ db, (t.st.db db).Nodup ∧ ∀ id ∈ t.st.db db, ∃ p ∈ t.st.procs, p.id = id ∧
    HTable.getHash (t.hash db) (t.st.db db) (rehash hashAny t db p) (fun i => decide (i = id)) =
      some id
  removed : ∀ p ∈ t.st.procs, ∀ db, p.id ∉ (t.removeProc hashAny p).st.db db

theorem TableInv.consistent (h : TableInv hashAny t) : Consistent hashAny t := by
  refine ⟨fun p _ => ?_, fun db => ⟨h.nodup db, fun id hid => ?_⟩, fun p hp db => ?_⟩
  · by_cases hmem : p.id ∈ t.st.dbSid
    · exact .inl fun db => (h.same db _).2 hmem
    · exact .inr fun db hdb => hmem ((h.same db _).1 hdb)
  · obtain ⟨p, hp, rfl, -⟩ := h.wf.known id ((h.same db id).1 hid)
    refine ⟨p, hp, rfl, ?_⟩
    rw [(h.placed db).getHash_eq]
    · cases hget : HTable.get (t.st.db db) fun i => decide (i = p.id) with
      | none => exact absurd rfl (of_decide_eq_false (HTable.get_eq_none.1 hget _ hid))
      | some a => rw [of_decide_eq_true (HTable.mem_of_get hget).2]
    · intro a ha hcmp
      rw [of_decide_eq_true hcmp]
      exact hashOf_mem h.wf.ids hp
  · rw [(h.atWork hp).removeProc_eq]
    show p.id ∉ (Main.removeProc t.st p).db db
    rw [db_removeProc]
    exact (h.nodup db).not_mem_erase

/-- **The tables of workers are consistent** in every state of every run. -/
theorem procTables_consistent (plat : Platform) (cfg : Config) (hashAny : Bytes → ℕ)
    (is : List TableLabel) :
    (tableMachine plat cfg hashAny).Always (Consistent hashAny) tableStart is :=
  (tableInv_always is).imp fun _ h => h.consistent

end Main

end Ocserv
