import Ocserv.SecMod.Server

/-!
# Sec-mod: counting the sessions of an entry

`in_use` counts the sessions of an entry: a `SESSION_OPEN` that is answered `OK` increments it, a
`SESSION_CLOSE` decrements it, and the entry may be deleted only when it is zero.  But a
`SESSION_CLOSE` is ignored when the entry is not `PS_AUTH_COMPLETED`, and a failed `SESSION_OPEN`
(a wrong cookie, a refusal of the accounting module) or an `AUTH_CONT` of a worker makes the entry
fail while it has sessions.

* `inUse_counts` : where every `SESSION_CLOSE` finds its entry completed, the counter is right,
  `time` is `-1` exactly while there are sessions, and an entry without sessions is deleted in
  time.
* `leaked_after_failed_open` : a run in which it is not.
-/

namespace Ocserv

namespace SecMod

/-- A `SESSION_OPEN` was answered `OK`. -/
def Event.isOpened : Event → Bool
  | .sessionRep _ .ok => true
  | _ => false

/-- A `SESSION_CLOSE` found the entry. -/
def Event.isClosed : Event → Bool
  | .sessionClose .. => true
  | _ => false

/-- The number of sessions that were opened. -/
def opens (t : List Event) : ℕ := t.countP Event.isOpened

/-- The number of sessions that were closed. -/
def closes (t : List Event) : ℕ := t.countP Event.isClosed

theorem opens_append (t u : List Event) : opens (t ++ u) = opens t + opens u := List.countP_append

theorem closes_append (t u : List Event) : closes (t ++ u) = closes t + closes u :=
  List.countP_append

/-- Authentication opens and closes no session. -/
theorem opens_closes_of_isAuth {t : List Event} (h : ∀ ev ∈ t, ev.isAuth = true) :
    opens t = 0 ∧ closes t = 0 := by
  refine ⟨List.countP_eq_zero.2 fun ev hev => ?_, List.countP_eq_zero.2 fun ev hev => ?_⟩ <;>
    have := h ev hev <;> cases ev <;> simp_all [Event.isAuth, Event.isOpened, Event.isClosed]

/-- Neither does a `SESSION_OPEN` that is refused. -/
theorem opens_closes_of_isRefusal {t : List Event} {id : ℕ} (h : ∀ ev ∈ t, ev.IsRefusal id) :
    opens t = 0 ∧ closes t = 0 := by
  refine ⟨List.countP_eq_zero.2 fun ev hev => ?_, List.countP_eq_zero.2 fun ev hev => ?_⟩ <;>
    obtain rfl | ⟨ret, rfl⟩ := h ev hev <;> simp [Event.isOpened, Event.isClosed]

/-! ### The conditions on a request -/

/-- Main closes a session only after it was opened, and once. -/
def ClosesOpened (_ : ClientEntry) (t : List Event) (cmd : Cmd) (_ : Env) : Prop :=
  match cmd with
  | .sessionClose _ => closes t < opens t
  | _ => True

/-- The entry whose session is closed has not failed, and the counter does not overflow. -/
def KeepsCount (e : ClientEntry) (_ : List Event) (cmd : Cmd) (_ : Env) : Prop :=
  match cmd with
  | .sessionClose _ => e.status = .completed
  | .sessionOpen _ => e.inUse.toNat + 1 < 2 ^ 32
  | _ => True

/-- The request is served at `now` or before. -/
def ServedBy (now : ℕ) (_ : ClientEntry) (_ : List Event) (_ : Cmd) (env : Env) : Prop :=
  env.now ≤ now

instance (e : ClientEntry) (t : List Event) (cmd : Cmd) (env : Env) :
    Decidable (ClosesOpened e t cmd env) := by
  unfold ClosesOpened
  split <;> infer_instance

instance (e : ClientEntry) (t : List Event) (cmd : Cmd) (env : Env) :
    Decidable (KeepsCount e t cmd env) := by
  unfold KeepsCount
  split <;> infer_instance

instance (now : ℕ) (e : ClientEntry) (t : List Event) (cmd : Cmd) (env : Env) :
    Decidable (ServedBy now e t cmd env) :=
  inferInstanceAs (Decidable (env.now ≤ now))

/-! ### The invariant -/

variable {cfg : Config} {env : Env} {s s' : SecModSt} {e : ClientEntry}

/-- The counter of an entry is the number of its sessions. -/
structure Counted (now : ℕ) (e : ClientEntry) (t : List Event) : Prop where
  inUse : e.inUse.toNat + closes t = opens t
  time : e.time = -1 ↔ 0 < e.inUse
  time_le : e.time ≤ now

/-- A request that changes neither the counter nor the number of sessions. -/
theorem Counted.same {now : ℕ} {t evs : List Event} {e' : ClientEntry} (h : Counted now e t)
    (hinUse : e'.inUse = e.inUse) (htime : e'.time = e.time)
    (hev : opens evs = 0 ∧ closes evs = 0) : Counted now e' (t ++ evs) := by
  refine ⟨?_, by rw [htime, hinUse]; exact h.time, htime ▸ h.time_le⟩
  rw [opens_append, closes_append, hev.1, hev.2, hinUse]
  exact h.inUse

theorem Counted.authInit {now : ℕ} (req : AuthInitMsg) (hnew : IsNew env s e)
    (hnow : env.now ≤ now) :
    Counted now (handleAuthInit cfg env req e).entry
      (.created e.id e.sid :: (handleAuthInit cfg env req e).events) := by
  have hframe := handleAuthInit_frame cfg env req e
  have h₀ : Counted now e [] := by
    refine ⟨by rw [hnew.inUse_eq]; rfl, ?_, by rw [hnew.time_eq]; exact Int.ofNat_le.2 hnow⟩
    rw [hnew.inUse_eq, hnew.time_eq]
    exact ⟨fun h => by omega, fun h => absurd h (by decide)⟩
  refine h₀.same hframe.same.inUse_eq hframe.same.time_eq (opens_closes_of_isAuth fun ev hev => ?_)
  rcases List.mem_cons.1 hev with rfl | hev
  · rfl
  · exact (hframe.events ev hev).2

theorem Counted.authCont {now : ℕ} {t : List Event} (h : Counted now e t) (req : AuthContMsg) :
    Counted now (handleAuthCont cfg env req e).entry
      (t ++ (handleAuthCont cfg env req e).events) := by
  have hframe := (handleAuthCont_frame cfg env req e).1
  exact h.same hframe.same.inUse_eq hframe.same.time_eq
    (opens_closes_of_isAuth fun ev hev => (hframe.events ev hev).2)

theorem Counted.sessionOpen {now : ℕ} {t : List Event} (h : Counted now e t) (req : SessionMsg)
    (hmax : e.inUse.toNat + 1 < 2 ^ 32) :
    Counted now (handleSessionOpen cfg env req e).entry
      (t ++ (handleSessionOpen cfg env req e).events) := by
  obtain hout | ⟨hout, -⟩ := handleSessionOpen_cases cfg env req e
  · exact h.same hout.counters.inUse_eq hout.counters.time_eq
      (opens_closes_of_isRefusal hout.events)
  · obtain ⟨pre, hpre, hopen⟩ := hout.events
    have hnone : opens pre = 0 ∧ closes pre = 0 :=
      opens_closes_of_isRefusal fun ev hev => .inr (hopen ev hev)
    have hinUse : (e.inUse + 1).toNat = e.inUse.toNat + 1 := by
      rw [UInt32.toNat_add]
      exact Nat.mod_eq_of_lt hmax
    refine ⟨?_, ?_, ?_⟩
    · have := h.inUse
      rw [hout.inUse_eq, hinUse, hpre, opens_append, closes_append, opens_append, closes_append,
        hnone.1, hnone.2]
      show _ + 1 + (_ + (0 + 0)) = _ + (0 + 1)
      omega
    · rw [hout.inUse_eq, hout.time_eq, UInt32.lt_iff_toNat_lt, hinUse]
      exact ⟨fun _ => Nat.succ_pos _, fun _ => rfl⟩
    · rw [hout.time_eq]
      omega

/-- `expire_client_entry` on an entry with sessions. -/
theorem expireClientEntry_counts (env : Env) {now : ℕ} (hpos : 0 < e.inUse) (htime : e.time = -1)
    (hnow : env.now ≤ now) :
    (expireClientEntry env e).inUse.toNat + 1 = e.inUse.toNat ∧
      ((expireClientEntry env e).time = -1 ↔ 0 < (expireClientEntry env e).inUse) ∧
      (expireClientEntry env e).time ≤ now := by
  have hsub : (e.inUse - 1).toNat = e.inUse.toNat - 1 :=
    UInt32.toNat_sub_of_le _ _ (UInt32.le_iff_toNat_le.2 (UInt32.lt_iff_toNat_lt.1 hpos))
  have hpos' : 0 < e.inUse.toNat := UInt32.lt_iff_toNat_lt.1 hpos
  have heq : expireClientEntry env e =
      if e.inUse - 1 = 0 then { e with inUse := e.inUse - 1, time := env.now }
      else { e with inUse := e.inUse - 1 } := by
    simp only [expireClientEntry, if_pos hpos]
  rw [heq]
  split
  · rename_i hzero
    refine ⟨by show (e.inUse - 1).toNat + 1 = _; omega, ?_, Int.ofNat_le.2 hnow⟩
    show (env.now : ℤ) = -1 ↔ 0 < e.inUse - 1
    rw [hzero]
    exact ⟨fun h => by omega, fun h => absurd h (by decide)⟩
  · rename_i hzero
    refine ⟨by show (e.inUse - 1).toNat + 1 = _; omega, ?_, ?_⟩
    · show e.time = -1 ↔ 0 < e.inUse - 1
      refine ⟨fun _ => UInt32.lt_iff_toNat_lt.2 ?_, fun _ => htime⟩
      exact Nat.pos_of_ne_zero fun h => hzero (UInt32.toNat_inj.1 h)
    · show e.time ≤ now
      rw [htime]
      omega

theorem Counted.sessionClose {now : ℕ} {t : List Event} (h : Counted now e t) (req : SessionMsg)
    (hopened : closes t < opens t) (hstatus : e.status = .completed) (hnow : env.now ≤ now)
    (hrun : keepsRunning true (handleSessionClose env req e).ret = true) :
    Counted now (handleSessionClose env req e).entry
      (t ++ (handleSessionClose env req e).events) := by
  have hpos : 0 < e.inUse := UInt32.lt_iff_toNat_lt.2 (by
    have := h.inUse
    show 0 < e.inUse.toNat
    omega)
  unfold handleSessionClose at hrun ⊢
  rw [if_neg (not_not.2 hstatus)] at hrun ⊢
  dsimp only at hrun ⊢
  split at hrun
  · simp at hrun
  · rename_i hsend
    rw [if_neg hsend]
    obtain ⟨hinUse, htime, hle⟩ := expireClientEntry_counts env
      (e := { e with
        stats := {}
        savedStats := e.savedStats.add (e.stats.report req.bytesIn req.bytesOut req.uptime) })
      hpos (h.time.2 hpos) hnow
    refine ⟨?_, htime, hle⟩
    have := h.inUse
    rw [opens_append, closes_append]
    show _ + (_ + (0 + 1)) = _ + 0
    dsimp only at hinUse ⊢
    omega

theorem Counted.cliStats {now : ℕ} {t : List Event} (h : Counted now e t) (req : CliStatsMsg) :
    Counted now (handleStatsCmd cfg req e).entry (t ++ (handleStatsCmd cfg req e).events) := by
  unfold handleStatsCmd
  dsimp only
  repeat' split
  all_goals exact h.same rfl rfl ⟨rfl, rfl⟩

/-! ### Deletion -/

/-- An entry without sessions is deleted by a cleanup that comes late enough. -/
theorem cleanup_deletes (hwf : WF s) (he : e ∈ s.db) (hexp : expired cfg env.now e = true) :
    ∀ e' ∈ (s.serve cfg env .cleanup).db, e'.id ≠ e.id := by
  intro e' he' hid
  obtain ⟨hmem, hkept⟩ := List.mem_filter.1 he'
  rw [Table.eq_of_key_eq hwf.ids hmem he hid, hexp] at hkept
  cases hkept

/-- What is right about the counter of an entry, when all requests so far were served at `now`
or before. -/
structure CountsSessions (cfg : Config) (now : ℕ) (s : SecModSt) (e : ClientEntry) : Prop where
  inUse : e.inUse.toNat + closes (history e.id s.trace) = opens (history e.id s.trace)
  time : e.time = -1 ↔ 0 < e.inUse
  /-- Without sessions, the entry is deleted by every cleanup that comes late enough. -/
  deleted : closes (history e.id s.trace) = opens (history e.id s.trace) →
    e.time ≠ -1 ∧ e.time ≤ now ∧
      ∀ env : Env, e.time + cfg.cookieTimeout + authSlackTime < env.now →
        ∀ e' ∈ (s.serve cfg env .cleanup).db, e'.id ≠ e.id

theorem Counted.countsSessions {now : ℕ} (hwf : WF s) (he : e ∈ s.db)
    (h : Counted now e (history e.id s.trace)) : CountsSessions cfg now s e := by
  refine ⟨h.inUse, h.time, ?_⟩
  intro heq
  have hzero : e.inUse = 0 := UInt32.toNat_inj.1 (by
    have := h.inUse
    show e.inUse.toNat = 0
    omega)
  have htime : e.time ≠ -1 := fun hc => by
    have := h.time.1 hc
    rw [hzero] at this
    exact absurd this (by decide)
  refine ⟨htime, h.time_le, fun env henv => cleanup_deletes hwf he ?_⟩
  simp only [expired, hzero, and_true, decide_eq_true_eq]
  exact ⟨htime, by omega⟩

/-- **`in_use` counts the sessions.**  In every run in which main closes only sessions it opened,
each once, and in which every `SESSION_CLOSE` finds its entry still completed: while sec-mod runs,
`in_use` is the number of the sessions of the entry, `time` is `-1` exactly while there are any,
and once there are none the entry is deleted by any cleanup later than
`cookie_timeout + AUTH_SLACK_TIME` after its time, which is a time of the run. -/
theorem inUse_counts (now : ℕ) {is : List (Cmd × Env)}
    (hmain : (machine cfg).Meets (OnEntry ClosesOpened) start is)
    (hkeeps : (machine cfg).Meets (OnEntry KeepsCount) start is)
    (hnow : (machine cfg).Meets (OnEntry (ServedBy now)) start is) :
    (machine cfg).Always
      (fun s => s.running = true → ∀ e ∈ s.db, CountsSessions cfg now s e) start is := by
  have hmeets : (machine cfg).Meets (OnEntry fun e t cmd env =>
      ClosesOpened e t cmd env ∧ KeepsCount e t cmd env ∧ ServedBy now e t cmd env) start is :=
    (hmain.and (hkeeps.and hnow)).imp fun s i h e he => ⟨h.1 e he, h.2.1 e he, h.2.2 e he⟩
  refine (entries_invariant (I := Counted now) ?_ ?_ hmeets).imp
    fun s h hrun e he => (h.inv hrun e he).countsSessions h.wf he
  · rintro env s req e hnew ⟨-, -, hnow⟩
    exact .authInit req hnew hnow
  · rintro env cmd e t out hinv ⟨hclose, hkeep, hnow⟩ hout hrun
    cases hout with
    | authCont req => exact hinv.authCont req
    | sessionOpen req => exact hinv.sessionOpen req hkeep
    | sessionClose req => exact hinv.sessionClose req hclose hkeep hnow hrun
    | cliStats req => exact hinv.cliStats req

namespace Sample

/-- A certificate login, a session, and its end. -/
def session : List (Cmd × Env) :=
  certificateLogin ++
    [(.sessionOpen openMsg, environ 1001), (.sessionClose (closeMsg 5 6), environ 1002)]

/-- The same, but before the end of the session a second one is refused, for its cookie. -/
def sessionAfterFailedOpen : List (Cmd × Env) :=
  certificateLogin ++ [(.sessionOpen openMsg, environ 1001),
    (.sessionOpen { openMsg with cookie := some [] }, environ 1002),
    (.sessionClose (closeMsg 5 6), environ 1003)]

def certificate : Config := config ⟨true, authTypeCertificate, none⟩ none

end Sample

open Sample in
theorem inUse_counts_session :
    (machine certificate).Always
      (fun s => s.running = true → ∀ e ∈ s.db, CountsSessions certificate 1002 s e) start session :=
  inUse_counts 1002 (by decide) (by decide) (by decide)

open Sample in
/-- Main closed the one session that was opened; the entry still counts it, has no time, and no
cleanup deletes it. -/
theorem leaked_after_failed_open :
    (machine certificate).Meets (OnEntry ClosesOpened) start sessionAfterFailedOpen ∧
    ∃ s e, (machine certificate).run start sessionAfterFailedOpen = some s ∧ s.db = [e] ∧
      opens (history e.id s.trace) = 1 ∧ closes (history e.id s.trace) = 1 ∧
      e.inUse = 1 ∧ e.time = -1 ∧ ∀ env, (s.serve certificate env .cleanup).db = [e] :=
  ⟨by decide, _, _, rfl, rfl, by decide, by decide, rfl, rfl, fun _ => rfl⟩

end SecMod

end Ocserv
