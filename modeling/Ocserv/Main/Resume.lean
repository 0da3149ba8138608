import Ocserv.HTable
import Ocserv.Machine
import Ocserv.Table
import Ocserv.SecMod.Entry
import Mathlib.Logic.Function.Basic
import Mathlib.Order.Lattice

/-!
# Main: the TLS sessions to resume

The database of `src/main-resume.c` in which the workers keep the TLS sessions of their clients.
The hash table is a multimap: `handle_resume_store_req` adds an entry whether or not there is one
with the same session id.  `handle_resume_fetch_req` goes on to the next entry when one does not
match, but `handle_resume_delete_req` returns after the first one it has removed.

* `Sessions` : what the database is for, a finite map from session ids.
* `resumption_refines` : **the database is this map** in the runs that store a session id only
  while the database has none of it.
* `not_resumption_storedTwice` : a session that was stored twice and deleted is still resumed.
-/

namespace Ocserv

namespace Main

open SecMod (Bytes)

/-! ### The database -/

/-- `tls_cache_st`.  An IP address is its bytes, so that its length is part of it. -/
structure TlsCache where
  remoteAddr : Bytes
  sessionId : Bytes
  sessionData : Bytes
  deriving DecidableEq, Repr

/-- `tls_sess_db_st`. -/
structure TlsSessDb where
  ht : List TlsCache
  entries : ℕ
  deriving DecidableEq, Repr

/-- The options that the database reads, and the time `gnutls_db_check_entry_time` finds in the
data of a session. -/
structure ResumeConfig where
  maxClients : UInt32
  cookieTimeout : ℤ
  entryTime : Bytes → ℤ

def gnutlsMaxSessionId : ℕ := 32

def maxSessionDataSize : ℕ := 4 * 1024

def defaultMaxCachedTlsSessions : ℕ := 64

/-- The maximum number of stored sessions. -/
def ResumeConfig.max (cfg : ResumeConfig) : ℕ :=
  Max.max (2 * cfg.maxClients).toNat defaultMaxCachedTlsSessions

/-- What `handle_resume_store_req` finds: `talloc` and `htable_add` succeed, and the order of the
table after the addition. -/
structure StoreEnv where
  talloc : Bool
  added : Bool
  order : List TlsCache

/-- `handle_resume_store_req` for a worker with a client at `addr`. -/
def handleResumeStoreReq (cfg : ResumeConfig) (db : TlsSessDb) (addr id data : Bytes)
    (e : StoreEnv) : TlsSessDb × ℤ :=
  if id.length > gnutlsMaxSessionId then (db, -1)
  else if data.length > maxSessionDataSize then (db, -1)
  else if db.entries ≥ cfg.max then (db, -1)
  else if !e.talloc then (db, -1)
  else
    -- the result of `htable_add` is not looked at
    ({ ht := if e.added then HTable.add e.order db.ht ⟨addr, id, data⟩ else db.ht
       entries := db.entries + 1 }, 0)

/-- `handle_resume_fetch_req` for a worker with a client at `addr`: the data of the session, or
`RESUME__REP__FAILED`. -/
def handleResumeFetchReq (db : TlsSessDb) (addr id : Bytes) : Option Bytes :=
  (HTable.get db.ht fun cache =>
    decide (cache.sessionId = id) && decide (cache.remoteAddr = addr)).map TlsCache.sessionData

/-- `handle_resume_delete_req`: the first entry with the session id is removed. -/
def handleResumeDeleteReq (db : TlsSessDb) (id : Bytes) : TlsSessDb :=
  match HTable.get db.ht fun cache => decide (cache.sessionId = id) with
  | none => db
  | some _ =>
    { ht := db.ht.eraseP fun cache => decide (cache.sessionId = id), entries := db.entries - 1 }

/-- The session is too old to be resumed. -/
def ResumeConfig.Expired (cfg : ResumeConfig) (now : ℤ) (data : Bytes) : Prop :=
  now - cfg.entryTime data > cfg.cookieTimeout

instance (cfg : ResumeConfig) (now : ℤ) (data : Bytes) : Decidable (cfg.Expired now data) :=
  inferInstanceAs (Decidable (_ > _))

/-- `expire_tls_sessions` -/
def expireTlsSessions (cfg : ResumeConfig) (db : TlsSessDb) (now : ℤ) : TlsSessDb where
  ht := db.ht.filter fun cache => !decide (cfg.Expired now cache.sessionData)
  entries := db.entries -
    (db.ht.filter fun cache => decide (cfg.Expired now cache.sessionData)).length

/-- The operations. -/
inductive ResumeOp where
  | store (addr id data : Bytes) (e : StoreEnv)
  | fetch (addr id : Bytes)
  | delete (id : Bytes)
  | expire (now : ℤ)

namespace ResumeOp

/-- Perform the operation. -/
def step (cfg : ResumeConfig) (db : TlsSessDb) : ResumeOp → TlsSessDb
  | .store addr id data e => (handleResumeStoreReq cfg db addr id data e).1
  | .fetch _ _ => db
  | .delete id => handleResumeDeleteReq db id
  | .expire now => expireTlsSessions cfg db now

/-- The request to store a session is not refused. -/
def Accepted (cfg : ResumeConfig) (db : TlsSessDb) (id data : Bytes) (e : StoreEnv) : Prop :=
  id.length ≤ gnutlsMaxSessionId ∧ data.length ≤ maxSessionDataSize ∧ db.entries < cfg.max ∧
    e.talloc = true

instance (cfg : ResumeConfig) (db : TlsSessDb) (id data : Bytes) (e : StoreEnv) :
    Decidable (Accepted cfg db id data e) :=
  inferInstanceAs (Decidable (_ ∧ _))

/-- The operation stores a session of this id, unless it is refused. -/
def Stores (id : Bytes) : ResumeOp → Prop
  | .store _ id' _ _ => id' = id
  | _ => False

end ResumeOp

/-! ### What the database is for -/

/-- A finite map: of every session id the client it belongs to, and its data. -/
abbrev Sessions := Bytes → Option (Bytes × Bytes)

/-- What the operation does to the map; `db` decides whether a request to store is accepted. -/
def Sessions.step (cfg : ResumeConfig) (db : TlsSessDb) (m : Sessions) : ResumeOp → Sessions
  | .store addr id data e =>
    if ResumeOp.Accepted cfg db id data e then Function.update m id (some (addr, data)) else m
  | .fetch _ _ => m
  | .delete id => Function.update m id none
  | .expire now => fun id => (m id).filter fun session => !decide (cfg.Expired now session.2)

/-- A session is resumed from the address that stored it. -/
def Sessions.fetch (m : Sessions) (addr id : Bytes) : Option Bytes :=
  ((m id).filter fun session => decide (session.1 = addr)).map Prod.snd

/-- The database beside the map. -/
structure Resumption where
  db : TlsSessDb
  sessions : Sessions

/-- Both perform the operations. -/
def resumption (cfg : ResumeConfig) : Machine Resumption ResumeOp where
  step s op := some ⟨op.step cfg s.db, s.sessions.step cfg s.db op⟩

/-- The database at the start. -/
def Resumption.start : Resumption := ⟨⟨[], 0⟩, fun _ => none⟩

/-- The database answers every request as the map does, and is not larger than it may be. -/
structure Refines (cfg : ResumeConfig) (s : Resumption) : Prop where
  fetch_eq : ∀ addr id, handleResumeFetchReq s.db addr id = s.sessions.fetch addr id
  entries_le : s.db.entries ≤ cfg.max

/-- A session that is stored has an id of which the database has no entry, and is added to the
table. -/
def StoresNew (cfg : ResumeConfig) (s : Resumption) : ResumeOp → Prop
  | .store _ id data e => ResumeOp.Accepted cfg s.db id data e →
      (∀ cache ∈ s.db.ht, cache.sessionId ≠ id) ∧ e.added = true
  | _ => True

/-! ### The invariant -/

/-- The map a table stands for. -/
def sessionsOf (ht : List TlsCache) : Sessions := fun id =>
  (Table.find? TlsCache.sessionId ht id).map fun cache => (cache.remoteAddr, cache.sessionData)

/-- The entries have different session ids, are counted right and stand for the map. -/
structure Tidy (cfg : ResumeConfig) (s : Resumption) : Prop where
  nodup : (s.db.ht.map TlsCache.sessionId).Nodup
  sessions_eq : s.sessions = sessionsOf s.db.ht
  entries_eq : s.db.entries = s.db.ht.length
  entries_le : s.db.entries ≤ cfg.max

section

variable {cfg : ResumeConfig} {db : TlsSessDb} {s s' : Resumption} {addr id data : Bytes}
  {e : StoreEnv} {now : ℤ} {ht : List TlsCache}

theorem Tidy.start : Tidy cfg .start := ⟨List.nodup_nil, rfl, rfl, Nat.zero_le _⟩

theorem handleResumeStoreReq_accepted (h : ResumeOp.Accepted cfg db id data e)
    (hadded : e.added = true) : (handleResumeStoreReq cfg db addr id data e).1 =
      ⟨HTable.add e.order db.ht ⟨addr, id, data⟩, db.entries + 1⟩ := by
  obtain ⟨hid, hdata, hmax, htalloc⟩ := h
  rw [handleResumeStoreReq, if_neg (not_lt.2 hid), if_neg (not_lt.2 hdata), if_neg (not_le.2 hmax),
    if_neg (by rw [htalloc]; exact Bool.false_ne_true), if_pos hadded]

theorem handleResumeStoreReq_refused (h : ¬ ResumeOp.Accepted cfg db id data e) :
    handleResumeStoreReq cfg db addr id data e = (db, -1) := by
  unfold handleResumeStoreReq
  split
  · rfl
  · split
    · rfl
    · split
      · rfl
      · split
        · rfl
        · rename_i hid hdata hmax htalloc
          refine absurd ⟨not_lt.1 hid, not_lt.1 hdata, not_le.1 hmax, ?_⟩ h
          simpa using htalloc

/-- **A fetch of a tidy table** answers as the map it stands for. -/
theorem handleResumeFetchReq_eq (h : (db.ht.map TlsCache.sessionId).Nodup) (addr id : Bytes) :
    handleResumeFetchReq db addr id = (sessionsOf db.ht).fetch addr id := by
  rw [handleResumeFetchReq, HTable.get, Table.find?_and h, Sessions.fetch, sessionsOf]
  cases Table.find? TlsCache.sessionId db.ht id with
  | none => rfl
  | some cache =>
    rw [Option.map_some, Option.filter_some, Option.filter_some]
    split <;> rfl

/-! ### The operations on both -/

theorem sessionsOf_add (h : (ht.map TlsCache.sessionId).Nodup)
    (hnew : ∀ cache ∈ ht, cache.sessionId ≠ id) (order : List TlsCache) (addr data : Bytes) :
    ((HTable.add order ht ⟨addr, id, data⟩).map TlsCache.sessionId).Nodup ∧
      sessionsOf (HTable.add order ht ⟨addr, id, data⟩) =
        Function.update (sessionsOf ht) id (some (addr, data)) := by
  have hperm : (⟨addr, id, data⟩ :: ht).Perm (HTable.add order ht ⟨addr, id, data⟩) :=
    HTable.add_perm.symm
  have hnodup : ((⟨addr, id, data⟩ :: ht).map TlsCache.sessionId).Nodup := by
    rw [List.map_cons, List.nodup_cons]
    refine ⟨?_, h⟩
    intro hmem
    obtain ⟨cache, hcache, hid⟩ := List.mem_map.1 hmem
    exact hnew cache hcache hid
  refine ⟨Table.nodup_keys_of_perm hperm hnodup, ?_⟩
  funext id'
  rw [sessionsOf, Table.find?_of_perm hnodup hperm, Table.find?_cons, Function.update_apply]
  split <;> rfl

theorem sessionsOf_delete (h : (db.ht.map TlsCache.sessionId).Nodup) (id : Bytes) :
    ((handleResumeDeleteReq db id).ht.map TlsCache.sessionId).Nodup ∧
      sessionsOf (handleResumeDeleteReq db id).ht =
        Function.update (sessionsOf db.ht) id none := by
  unfold handleResumeDeleteReq
  cases hget : HTable.get db.ht fun cache => decide (cache.sessionId = id) with
  | none =>
    refine ⟨h, ?_⟩
    have hnone : sessionsOf db.ht id = none := by
      rw [sessionsOf, Table.find?, show db.ht.find? _ = none from hget, Option.map_none]
    rw [← hnone, Function.update_eq_self]
  | some cache =>
    dsimp only
    rw [Table.eraseP_eq_others h]
    refine ⟨h.sublist (List.filter_sublist.map _), ?_⟩
    funext id'
    rw [sessionsOf, Table.find?_others h, Function.update_apply]
    split <;> rfl

theorem sessionsOf_expire (cfg : ResumeConfig) (h : (db.ht.map TlsCache.sessionId).Nodup)
    (now : ℤ) :
    ((expireTlsSessions cfg db now).ht.map TlsCache.sessionId).Nodup ∧
      sessionsOf (expireTlsSessions cfg db now).ht = fun id =>
        (sessionsOf db.ht id).filter fun session => !decide (cfg.Expired now session.2) := by
  refine ⟨h.sublist (List.filter_sublist.map _), ?_⟩
  funext id
  rw [expireTlsSessions, sessionsOf, Table.find?_filter h, sessionsOf]
  cases Table.find? TlsCache.sessionId db.ht id with
  | none => rfl
  | some cache =>
    rw [Option.map_some, Option.filter_some, Option.filter_some]
    split <;> rfl

theorem entries_delete (h : db.entries = db.ht.length) (id : Bytes) :
    (handleResumeDeleteReq db id).entries = (handleResumeDeleteReq db id).ht.length ∧
      (handleResumeDeleteReq db id).entries ≤ db.entries := by
  unfold handleResumeDeleteReq
  cases hget : HTable.get db.ht fun cache => decide (cache.sessionId = id) with
  | none => exact ⟨h, le_rfl⟩
  | some cache =>
    obtain ⟨hmem, hid⟩ := HTable.mem_of_get hget
    dsimp only
    rw [List.length_eraseP_of_mem hmem hid, h]
    exact ⟨rfl, Nat.sub_le _ _⟩

theorem entries_expire (cfg : ResumeConfig) (h : db.entries = db.ht.length) (now : ℤ) :
    (expireTlsSessions cfg db now).entries = (expireTlsSessions cfg db now).ht.length ∧
      (expireTlsSessions cfg db now).entries ≤ db.entries := by
  have hsum := List.length_eq_length_filter_add (l := db.ht)
    fun cache => decide (cfg.Expired now cache.sessionData)
  simp only [expireTlsSessions, h]
  omega

/-! ### Runs -/

/-- **One step** that stores only new ids keeps the database tidy. -/
theorem Tidy.step {op : ResumeOp} (h : Tidy cfg s) (hop : StoresNew cfg s op)
    (hstep : (resumption cfg).step s op = some s') : Tidy cfg s' := by
  cases hstep
  cases op with
  | store addr id data e =>
    by_cases hacc : ResumeOp.Accepted cfg s.db id data e
    · obtain ⟨hnew, hadded⟩ := hop hacc
      obtain ⟨hnodup, hsessions⟩ := sessionsOf_add h.nodup hnew e.order addr data
      have hlen : (HTable.add e.order s.db.ht ⟨addr, id, data⟩).length = _ :=
        HTable.add_perm.length_eq
      simp only [ResumeOp.step, handleResumeStoreReq_accepted hacc hadded, Sessions.step,
        if_pos hacc, h.sessions_eq]
      refine ⟨hnodup, hsessions.symm, ?_, hacc.2.2.1⟩
      rw [hlen, List.length_cons, h.entries_eq]
    · simp only [ResumeOp.step, handleResumeStoreReq_refused hacc, Sessions.step, if_neg hacc]
      exact h
  | fetch addr id => exact h
  | delete id =>
    obtain ⟨hnodup, hsessions⟩ := sessionsOf_delete h.nodup id
    obtain ⟨heq, hle⟩ := entries_delete h.entries_eq id
    refine ⟨hnodup, ?_, heq, hle.trans h.entries_le⟩
    simp only [Sessions.step, ResumeOp.step, hsessions, h.sessions_eq]
  | expire now =>
    obtain ⟨hnodup, hsessions⟩ := sessionsOf_expire cfg h.nodup now
    obtain ⟨heq, hle⟩ := entries_expire cfg h.entries_eq now
    refine ⟨hnodup, ?_, heq, hle.trans h.entries_le⟩
    simp only [Sessions.step, ResumeOp.step, hsessions, h.sessions_eq]

theorem Tidy.refines (h : Tidy cfg s) : Refines cfg s := by
  refine ⟨?_, h.entries_le⟩
  intro addr id
  rw [handleResumeFetchReq_eq h.nodup, h.sessions_eq]

theorem tidy_always {ops : List ResumeOp}
    (h : (resumption cfg).Meets (StoresNew cfg) .start ops) :
    (resumption cfg).Always (Tidy cfg) .start ops :=
  Machine.always_of_step (fun _ _ _ hs hop hstep => hs.step hop hstep) Tidy.start h

/-- The number of entries is bounded in every run. -/
theorem entries_le_max {ops : List ResumeOp} :
    (resumption cfg).Always (fun s => s.db.entries ≤ cfg.max) .start ops := by
  refine Machine.always_of_step (C := fun _ _ => True) (fun s op s' hle _ hstep => ?_)
    (Nat.zero_le _) (Machine.meets_true _ _)
  cases hstep
  cases op with
  | store addr id data e =>
    by_cases hacc : ResumeOp.Accepted cfg s.db id data e
    · obtain ⟨hid, hdata, hmax, htalloc⟩ := hacc
      simp only [ResumeOp.step]
      rw [handleResumeStoreReq, if_neg (not_lt.2 hid), if_neg (not_lt.2 hdata),
        if_neg (not_le.2 hmax), if_neg (by rw [htalloc]; exact Bool.false_ne_true)]
      exact hmax
    · simp only [ResumeOp.step, handleResumeStoreReq_refused hacc]
      exact hle
  | fetch addr id => exact hle
  | delete id =>
    simp only [ResumeOp.step, handleResumeDeleteReq]
    split
    · exact hle
    · exact (Nat.sub_le _ _).trans hle
  | expire now => exact (Nat.sub_le _ _).trans hle

/-- Until it is stored again the map has nothing of a session id that was deleted. -/
theorem sessions_none_of_not_stored {mid : List ResumeOp}
    (hmid : ∀ op ∈ mid, ¬ op.Stores id) (h : s.sessions id = none)
    (hrun : (resumption cfg).run s mid = some s') : s'.sessions id = none := by
  induction mid generalizing s with
  | nil =>
    cases hrun
    exact h
  | cons op mid ih =>
    obtain ⟨t, ht, hrun⟩ := Machine.run_cons_eq_some.1 hrun
    refine ih (fun op hop => hmid op (List.mem_cons_of_mem _ hop)) ?_ hrun
    have hop := hmid op List.mem_cons_self
    cases ht
    cases op with
    | store addr id' data e =>
      simp only [Sessions.step]
      split
      · rw [Function.update_of_ne fun heq => hop heq.symm]
        exact h
      · exact h
    | fetch addr id' => exact h
    | delete id' =>
      simp only [Sessions.step, Function.update_apply, h, ite_self]
    | expire now =>
      simp only [Sessions.step, h, Option.filter_none]

/-- **The database refines a finite map.**  In every run that stores only session ids of which
the database has no entry, a fetch answers as the map does, there are never more entries than
configured, and after a delete every fetch of the session fails until it is stored again. -/
theorem resumption_refines {ops : List ResumeOp}
    (h : (resumption cfg).Meets (StoresNew cfg) .start ops) :
    (resumption cfg).Always (Refines cfg) .start ops ∧
      ∀ before id mid rest, ops = before ++ .delete id :: mid ++ rest →
        (∀ op ∈ mid, ¬ op.Stores id) → ∀ s,
        (resumption cfg).run .start (before ++ .delete id :: mid) = some s →
          ∀ addr, handleResumeFetchReq s.db addr id = none := by
  refine ⟨(tidy_always h).imp fun _ ht => ht.refines, ?_⟩
  intro before id mid rest hops hmid s hrun addr
  subst hops
  have htidy := (tidy_always h.left_of_append).last hrun
  rw [htidy.refines.fetch_eq, Sessions.fetch]
  obtain ⟨s₁, -, hrun⟩ := Machine.run_append_eq_some.1 hrun
  obtain ⟨s₂, hs₂, hrun⟩ := Machine.run_cons_eq_some.1 hrun
  have hnone : s₂.sessions id = none := by
    cases hs₂
    simp only [Sessions.step, Function.update_self]
  rw [sessions_none_of_not_stored hmid hnone hrun]
  rfl

end

/-! ### Two runs -/

/-- Sixteen clients, and sessions of five minutes whose data starts with the time. -/
def sixteenClients : ResumeConfig where
  maxClients := 16
  cookieTimeout := 300
  entryTime data := (data.headD 0).toNat

/-- A session is stored, fetched, and deleted. -/
def storedOnce : List ResumeOp :=
  [.store [10, 0, 0, 1] [1, 2, 3] [5, 7] ⟨true, true, []⟩, .fetch [10, 0, 0, 1] [1, 2, 3],
    .delete [1, 2, 3]]

/-- A session is stored twice and deleted. -/
def storedTwice : List ResumeOp :=
  [.store [10, 0, 0, 1] [1, 2, 3] [5, 7] ⟨true, true, []⟩,
    .store [10, 0, 0, 1] [1, 2, 3] [6, 8] ⟨true, true, []⟩, .delete [1, 2, 3]]

theorem resumption_storedOnce :
    (resumption sixteenClients).Always (Refines sixteenClients) .start storedOnce := by
  have hmeets : (resumption sixteenClients).Meets (StoresNew sixteenClients) .start
      storedOnce := by
    refine ⟨fun _ => ⟨by decide, rfl⟩, fun _ h => ?_⟩
    cases h
    exact ⟨trivial, fun _ _ => ⟨trivial, fun _ _ => trivial⟩⟩
  exact (resumption_refines hmeets).1

/-- After the delete the first of the two sessions is resumed. -/
theorem not_resumption_storedTwice : ∃ s,
    (resumption sixteenClients).run .start storedTwice = some s ∧
      s.sessions [1, 2, 3] = none ∧
      handleResumeFetchReq s.db [10, 0, 0, 1] [1, 2, 3] = some [5, 7] ∧
      ¬ Refines sixteenClients s := by
  refine ⟨_, rfl, rfl, by decide, ?_⟩
  intro h
  have hfetch := h.fetch_eq [10, 0, 0, 1] [1, 2, 3]
  revert hfetch
  decide

end Main

end Ocserv
