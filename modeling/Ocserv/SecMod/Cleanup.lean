import Ocserv.Inserted
import Ocserv.SecMod.RefCount

/-!
# Sec-mod: the cleanup

`cleanup_client_entries` deletes the entries that no session uses and whose cookie has expired.
A `SESSION_OPEN` for such an entry would be refused if it were still there, and no request gives
it a new time: the run that keeps the entries answers every `SESSION_OPEN` as the run without
them does (`sessionReply_inserted`).

Two things can bring a deleted entry back into play.  Its SID may be drawn again, and then the
run that kept it draws another one; and `in_use`, an `unsigned`, may have been wrapped to zero
by `2 ^ 32` sessions that are still open, so that one of them is closed after the cleanup.
-/

namespace Ocserv

namespace SecMod

/-! ### What is observed -/

/-- The reply to a `SESSION_OPEN`, with or without an entry. -/
def Event.openReply? : Event → Option AuthRep
  | .sessionRep _ rep => some rep
  | _ => none

/-- The replies to `SESSION_OPEN`s, in order. -/
def openReplies (t : List Event) : List AuthRep := t.filterMap Event.openReply?

/-- The replies to a `SESSION_OPEN` that is served next: one, or none if it cannot be sent. -/
def sessionReply (cfg : Config) (env : Env) (s : SecModSt) (req : SessionMsg) : List AuthRep :=
  openReplies ((s.serve cfg env (.sessionOpen req)).trace.drop s.trace.length)

/-- The cleanup. -/
def IsCleanup (i : Cmd × Env) : Prop := i.1 = .cleanup

/-- The first SID that is drawn for a new entry is not one of the database. -/
def DrawsNew (s : SecModSt) (i : Cmd × Env) : Prop :=
  match i.1 with
  | .authInit _ => ∀ sid ∈ i.2.sids.head?, ∀ e ∈ s.db, e.sid ≠ sid.toList
  | _ => True

/-- A session that is opened can be counted. -/
def CanCount (e : ClientEntry) (_ : List Event) (cmd : Cmd) (_ : Env) : Prop :=
  match cmd with
  | .sessionOpen _ => e.inUse.toNat + 1 < 2 ^ 32
  | _ => True

section

variable {cfg : Config} {env : Env} {s s' t : SecModSt} {e : ClientEntry}

theorem openReplies_append (t u : List Event) :
    openReplies (t ++ u) = openReplies t ++ openReplies u := List.filterMap_append

theorem openReplies_of_isAuth {t : List Event} (h : ∀ ev ∈ t, ev.isAuth = true) :
    openReplies t = [] := by
  refine List.filterMap_eq_nil_iff.2 ?_
  intro ev hev
  have := h ev hev
  cases ev <;> first | rfl | cases this

theorem openReplies_of_isRefusal {id : ℕ} {evs : List Event} (h : ∀ ev ∈ evs, ev.IsRefusal id) :
    .ok ∉ openReplies evs := by
  intro hok
  obtain ⟨ev, hev, hrep⟩ := List.mem_filterMap.1 hok
  obtain rfl | ⟨ret, rfl⟩ := h ev hev <;> simp [Event.openReply?] at hrep

theorem OpenedSession.openReplies_eq {out : SessionOut} (h : OpenedSession e out) :
    openReplies out.events = [.ok] := by
  obtain ⟨pre, hpre, hopen⟩ := h.events
  have hnone : openReplies pre = [] := by
    refine List.filterMap_eq_nil_iff.2 ?_
    intro ev hev
    obtain ⟨ret, rfl⟩ := hopen ev hev
    rfl
  rw [hpre, openReplies_append, hnone]
  rfl

theorem cleanEntry_openReply (e : ClientEntry) :
    ∀ ev ∈ cleanEntry cfg e, ev.openReply? = none := by
  unfold cleanEntry authUserDeinit
  repeat' split
  all_goals simp [Event.openReply?]

theorem openReplies_cleanup (es : List ClientEntry) :
    openReplies (es.flatMap (cleanEntry cfg)) = [] := by
  refine List.filterMap_eq_nil_iff.2 ?_
  intro ev hev
  obtain ⟨e, -, hev⟩ := List.mem_flatMap.1 hev
  exact cleanEntry_openReply e ev hev

/-! ### Requests for an entry -/

/-- The request is about the entry with a SID. -/
def Cmd.IsRequest : Cmd → Prop
  | .authCont _ | .sessionOpen _ | .sessionClose _ | .cliStats _ => True
  | .authInit _ | .cleanup => False

/-- What the handler of a request does to the entry it found. -/
def Cmd.handle (cfg : Config) (env : Env) (e : ClientEntry) : Cmd → SessionOut
  | .authCont req => ⟨(handleAuthCont cfg env req e).entry, (handleAuthCont cfg env req e).events,
      some (handleAuthCont cfg env req e).ret⟩
  | .sessionOpen req => handleSessionOpen cfg env req e
  | .sessionClose req => handleSessionClose env req e
  | .cliStats req => handleStatsCmd cfg req e
  | .authInit _ | .cleanup => ⟨e, [], some 0⟩

/-- The events and the return value of a request that finds no entry. -/
def Cmd.refusal (env : Env) : Cmd → List Event × ℤ
  | .sessionOpen _ => ((sendFailedSessionOpenReply env none).1,
      (sendFailedSessionOpenReply env none).2.getD 0)
  | .sessionClose req =>
    if req.sid.length ≠ sidSize then ([], errBadCommand)
    else (if env.sendOk then [.cliStatsRep none 0 0] else [], if env.sendOk then 0 else -1)
  | _ => ([], 0)

/-- The state after a request that finds no entry. -/
def SecModSt.refuse (s : SecModSt) (env : Env) (cmd : Cmd) : SecModSt :=
  { s with
    running := keepsRunning cmd.fromMain (some (cmd.refusal env).2)
    trace := s.trace ++ (cmd.refusal env).1 }

theorem Cmd.handles {cmd : Cmd} (hreq : cmd.IsRequest) (cfg : Config) (env : Env)
    (e : ClientEntry) : Handles cfg env e cmd (cmd.handle cfg env e) := by
  cases cmd with
  | authInit req => exact hreq.elim
  | authCont req => exact .authCont req
  | sessionOpen req => exact .sessionOpen req
  | sessionClose req => exact .sessionClose req
  | cliStats req => exact .cliStats req
  | cleanup => exact hreq.elim

theorem SecModSt.refuse_silent (hrun : s.running = true) {cmd : Cmd}
    (hmain : cmd.fromMain = false) (href : cmd.refusal env = ([], 0)) : s.refuse env cmd = s := by
  obtain ⟨db, nextId, running, trace⟩ := s
  obtain rfl : running = true := hrun
  simp [refuse, hmain, href, keepsRunning]

/-- **A request** is handled on the entry it finds, or refused. -/
theorem serve_request (hrun : s.running = true) {cmd : Cmd} (hreq : cmd.IsRequest) :
    s.serve cfg env cmd =
      match cmd.entry env s with
      | none => s.refuse env cmd
      | some e => s.put cmd.fromMain (cmd.handle cfg env e) := by
  cases cmd with
  | authInit req => exact hreq.elim
  | authCont req =>
    simp only [SecModSt.serve, Cmd.entry]
    by_cases hsid : req.sid.length ≠ sidSize
    · rw [if_pos hsid, if_pos hsid, SecModSt.refuse_silent hrun rfl rfl]
    · rw [if_neg hsid, if_neg hsid]
      cases findClientEntry s.db req.sid with
      | none => rw [SecModSt.refuse_silent hrun rfl rfl]
      | some e => rfl
  | sessionOpen req =>
    simp only [SecModSt.serve, Cmd.entry]
    by_cases hsid : req.sid.length ≠ sidSize
    · rw [if_pos hsid, if_pos hsid]
      rfl
    · rw [if_neg hsid, if_neg hsid]
      cases findClientEntry s.db req.sid <;> rfl
  | sessionClose req =>
    simp only [SecModSt.serve, Cmd.entry]
    by_cases hsid : req.sid.length ≠ sidSize
    · rw [if_pos hsid, if_pos hsid, SecModSt.refuse, Cmd.refusal, if_pos hsid]
      rfl
    · rw [if_neg hsid, if_neg hsid]
      cases findClientEntry s.db req.sid with
      | none =>
        rw [SecModSt.refuse, Cmd.refusal, if_neg hsid]
        rfl
      | some e => rfl
  | cliStats req =>
    simp only [SecModSt.serve, Cmd.entry]
    by_cases hsid : req.sid.length ≠ sidSize
    · rw [if_pos hsid, if_pos hsid, SecModSt.refuse_silent hrun rfl rfl]
    · rw [if_neg hsid, if_neg hsid]
      cases findClientEntry s.db req.sid with
      | none => rw [SecModSt.refuse_silent hrun rfl rfl]
      | some e => rfl
  | cleanup => exact hreq.elim

/-! ### Entries that cannot be opened any more -/

/-- No session uses the entry, and its cookie has expired. -/
structure Dead (cfg : Config) (now : ℕ) (e : ClientEntry) (h : List Event) : Prop where
  inUse_eq : e.inUse = 0
  time_ne : e.time ≠ -1
  late : e.time + cfg.cookieTimeout < now
  /-- All sessions were closed. -/
  closed : opens h ≤ closes h

theorem Dead.mono {now now' : ℕ} {h : List Event} (hd : Dead cfg now e h) (hle : now ≤ now') :
    Dead cfg now' e h := by
  have := hd.late
  exact ⟨hd.inUse_eq, hd.time_ne, by omega, hd.closed⟩

/-- Every session that is open is counted. -/
def CountsOpen (e : ClientEntry) (h : List Event) : Prop :=
  opens h ≤ e.inUse.toNat + closes h

theorem Dead.of_expired {now : ℕ} {h : List Event} (hexp : expired cfg now e = true)
    (hcount : CountsOpen e h) : Dead cfg now e h := by
  simp only [expired, decide_eq_true_eq] at hexp
  obtain ⟨htime, hlate, hinUse⟩ := hexp
  refine ⟨hinUse, htime, ?_, ?_⟩
  · have : authSlackTime = 10 := rfl
    omega
  · rw [CountsOpen, hinUse] at hcount
    simpa using hcount

/-- What a request does to a dead entry, if it is not a `SESSION_CLOSE`. -/
theorem Dead.handle {h : List Event} {cmd : Cmd} (hd : Dead cfg env.now e h)
    (hreq : cmd.IsRequest) (hclose : ClosesOpened e h cmd env) :
    Dead cfg env.now (cmd.handle cfg env e).entry (h ++ (cmd.handle cfg env e).events) ∧
      openReplies (cmd.handle cfg env e).events = openReplies (cmd.refusal env).1 ∧
      (keepsRunning cmd.fromMain (cmd.handle cfg env e).ret = true →
        keepsRunning cmd.fromMain (some (cmd.refusal env).2) = true) := by
  have same : ∀ {e' : ClientEntry} {evs : List Event}, e'.inUse = e.inUse → e'.time = e.time →
      opens evs = 0 ∧ closes evs = 0 → Dead cfg env.now e' (h ++ evs) := by
    intro e' evs hinUse htime hev
    refine ⟨hinUse.trans hd.inUse_eq, htime ▸ hd.time_ne, htime ▸ hd.late, ?_⟩
    rw [opens_append, closes_append, hev.1, hev.2]
    exact hd.closed
  cases cmd with
  | authInit req => exact hreq.elim
  | authCont req =>
    have hframe := (handleAuthCont_frame cfg env req e).1
    have hauth : ∀ ev ∈ (handleAuthCont cfg env req e).events, ev.isAuth = true :=
      fun ev hev => (hframe.events ev hev).2
    exact ⟨same hframe.same.inUse_eq hframe.same.time_eq (opens_closes_of_isAuth hauth),
      openReplies_of_isAuth hauth, fun _ => rfl⟩
  | sessionOpen req =>
    -- refused for its status, or because it has expired
    have hdeny : ∃ status, handleSessionOpen cfg env req e =
        denySession env (e.setStatus status) := by
      unfold handleSessionOpen
      split
      · exact ⟨e.status, rfl⟩
      · rw [if_pos ⟨hd.time_ne, hd.late⟩]
        exact ⟨.failed, rfl⟩
    obtain ⟨status, heq⟩ := hdeny
    have hsame : ∀ id : ℕ, openReplies (sendFailedSessionOpenReply env (some id)).1 =
        openReplies (sendFailedSessionOpenReply env none).1 ∧
        (sendFailedSessionOpenReply env (some id)).2 =
          some ((sendFailedSessionOpenReply env none).2.getD 0) := by
      intro id
      unfold sendFailedSessionOpenReply
      split
      · exact ⟨rfl, rfl⟩
      · split <;> exact ⟨rfl, rfl⟩
    simp only [Cmd.handle, Cmd.refusal, heq]
    have hrefusal : ∀ ev ∈ (sendFailedSessionOpenReply env (some e.id)).1, ev.IsRefusal e.id :=
      fun ev hev => .inl (sendFailedSessionOpenReply_events _ ev hev)
    refine ⟨same rfl rfl (opens_closes_of_isRefusal hrefusal), (hsame e.id).1, ?_⟩
    intro hrun
    rw [← (hsame e.id).2]
    exact hrun
  | sessionClose req =>
    -- all sessions are closed
    exact absurd hclose (Nat.not_lt.2 hd.closed)
  | cliStats req =>
    have hkeeps : ∀ out : SessionOut, out = handleStatsCmd cfg req e →
        out.entry.inUse = e.inUse ∧ out.entry.time = e.time ∧
          (opens out.events = 0 ∧ closes out.events = 0) ∧ openReplies out.events = [] := by
      intro out hout
      rw [hout]
      unfold handleStatsCmd
      dsimp only
      repeat' split
      all_goals exact ⟨rfl, rfl, ⟨rfl, rfl⟩, rfl⟩
    obtain ⟨hinUse, htime, hev, hrep⟩ := hkeeps _ rfl
    exact ⟨same hinUse htime hev, hrep, fun _ => rfl⟩
  | cleanup => exact hreq.elim

/-! ### The counter never misses a session -/

theorem CountsOpen.same {h evs : List Event} {e' : ClientEntry} (hc : CountsOpen e h)
    (hinUse : e'.inUse = e.inUse) (hev : opens evs = 0 ∧ closes evs = 0) :
    CountsOpen e' (h ++ evs) := by
  rw [CountsOpen, opens_append, closes_append, hev.1, hev.2, hinUse]
  exact hc

theorem expireClientEntry_inUse (env : Env) (e : ClientEntry) :
    e.inUse.toNat ≤ (expireClientEntry env e).inUse.toNat + 1 := by
  by_cases hpos : e.inUse > 0
  · have hsub : (e.inUse - 1).toNat = e.inUse.toNat - 1 :=
      UInt32.toNat_sub_of_le _ _ (UInt32.le_iff_toNat_le.2 (UInt32.lt_iff_toNat_lt.1 hpos))
    have heq : (expireClientEntry env e).inUse = e.inUse - 1 := by
      simp only [expireClientEntry, if_pos hpos]
      split <;> rfl
    rw [heq, hsub]
    omega
  · have hzero : e.inUse.toNat = 0 :=
      Nat.eq_zero_of_not_pos fun h => hpos (UInt32.lt_iff_toNat_lt.2 h)
    omega

theorem CountsOpen.sessionOpen {h : List Event} (hc : CountsOpen e h) (req : SessionMsg)
    (hmax : e.inUse.toNat + 1 < 2 ^ 32) :
    CountsOpen (handleSessionOpen cfg env req e).entry
      (h ++ (handleSessionOpen cfg env req e).events) := by
  obtain hout | ⟨hout, -⟩ := handleSessionOpen_cases cfg env req e
  · exact hc.same hout.counters.inUse_eq (opens_closes_of_isRefusal hout.events)
  · obtain ⟨pre, hpre, hopen⟩ := hout.events
    have hnone : opens pre = 0 ∧ closes pre = 0 :=
      opens_closes_of_isRefusal fun ev hev => .inr (hopen ev hev)
    have hinUse : (e.inUse + 1).toNat = e.inUse.toNat + 1 := by
      rw [UInt32.toNat_add]
      exact Nat.mod_eq_of_lt hmax
    rw [CountsOpen, hout.inUse_eq, hinUse, hpre, opens_append, closes_append, opens_append,
      closes_append, hnone.1, hnone.2]
    show _ + (0 + 1) ≤ _ + 1 + (_ + (0 + 0))
    unfold CountsOpen at hc
    omega

theorem CountsOpen.sessionClose {h : List Event} (hc : CountsOpen e h) (req : SessionMsg) :
    CountsOpen (handleSessionClose env req e).entry
      (h ++ (handleSessionClose env req e).events) := by
  have hevents : ∀ out : SessionOut, out = handleSessionClose env req e →
      (opens out.events = 0 ∧ closes out.events = 1) ∧
        e.inUse.toNat ≤ out.entry.inUse.toNat + 1 := by
    intro out hout
    rw [hout]
    unfold handleSessionClose
    split
    · split <;> exact ⟨⟨rfl, rfl⟩, Nat.le_succ _⟩
    · dsimp only
      split
      · exact ⟨⟨rfl, rfl⟩, Nat.le_succ _⟩
      · exact ⟨⟨rfl, rfl⟩, expireClientEntry_inUse env
          { e with
            stats := {}
            savedStats := e.savedStats.add (e.stats.report req.bytesIn req.bytesOut req.uptime) }⟩
  obtain ⟨⟨hopens, hcloses⟩, hle⟩ := hevents _ rfl
  rw [CountsOpen, opens_append, closes_append, hopens, hcloses]
  unfold CountsOpen at hc
  omega

/-- **Every open session is counted**, while the counter does not overflow. -/
theorem countsOpen_always {is : List (Cmd × Env)}
    (h : (machine cfg).Meets (OnEntry CanCount) start is) :
    (machine cfg).Always (Entries CountsOpen) start is := by
  refine entries_invariant ?_ ?_ h
  · intro env s req e hnew _
    have hframe := handleAuthInit_frame cfg env req e
    have hev : ∀ ev ∈ .created e.id e.sid :: (handleAuthInit cfg env req e).events,
        ev.isAuth = true := by
      intro ev hev
      rcases List.mem_cons.1 hev with rfl | hev
      · rfl
      · exact (hframe.events ev hev).2
    rw [CountsOpen, (opens_closes_of_isAuth hev).1]
    exact Nat.zero_le _
  · intro env cmd e h out hc hmax hout _
    cases hout with
    | authCont req =>
      have hframe := (handleAuthCont_frame cfg env req e).1
      exact hc.same hframe.same.inUse_eq
        (opens_closes_of_isAuth fun ev hev => (hframe.events ev hev).2)
    | sessionOpen req => exact hc.sessionOpen req hmax
    | sessionClose req => exact hc.sessionClose req
    | cliStats req =>
      unfold handleStatsCmd
      dsimp only
      repeat' split
      all_goals exact hc.same rfl ⟨rfl, rfl⟩

/-! ### Two runs -/

/-- `t` is `s` without the entries numbered by `gone`, which are dead. -/
structure Without (cfg : Config) (gone : ℕ → Bool) (now : ℕ) (s t : SecModSt) : Prop where
  db_eq : t.db = s.db.filter fun e => !gone e.id
  dead : ∀ e ∈ s.db, gone e.id = true → Dead cfg now e (history e.id s.trace)
  nextId_eq : t.nextId = s.nextId
  running : s.running = true → t.running = true
  replies_eq : openReplies t.trace = openReplies s.trace

theorem Without.mono {gone : ℕ → Bool} {now now' : ℕ} (h : Without cfg gone now s t)
    (hle : now ≤ now') : Without cfg gone now' s t :=
  ⟨h.db_eq, fun e he hgone => (h.dead e he hgone).mono hle, h.nextId_eq, h.running, h.replies_eq⟩

/-- A request finds the same entry in both databases, unless it is gone. -/
theorem Without.entry_eq {gone : ℕ → Bool} {now : ℕ} (h : Without cfg gone now s t) (hwf : WF s)
    {cmd : Cmd} (hreq : cmd.IsRequest) :
    cmd.entry env t = (cmd.entry env s).filter fun e => !gone e.id := by
  have hfind : ∀ sid : Bytes, (if sid.length ≠ sidSize then none else findClientEntry t.db sid) =
      (if sid.length ≠ sidSize then none else findClientEntry s.db sid).filter
        fun e => !gone e.id := by
    intro sid
    split
    · rfl
    · rw [h.db_eq]
      exact Table.find?_filter hwf.sids (fun e => !gone e.id) sid
  cases cmd with
  | authInit req => exact hreq.elim
  | authCont req => exact hfind req.sid
  | sessionOpen req => exact hfind req.sid
  | sessionClose req => exact hfind req.sid
  | cliStats req => exact hfind req.sid
  | cleanup => exact hreq.elim

theorem entry_mem {cmd : Cmd} (hreq : cmd.IsRequest) (h : cmd.entry env s = some e) :
    e ∈ s.db := by
  have hfind : ∀ sid : Bytes,
      (if sid.length ≠ sidSize then none else findClientEntry s.db sid) = some e → e ∈ s.db := by
    intro sid hsid
    split at hsid
    · cases hsid
    · exact (mem_of_findClientEntry hsid).1
  cases cmd with
  | authInit req => exact hreq.elim
  | authCont req => exact hfind _ h
  | sessionOpen req => exact hfind _ h
  | sessionClose req => exact hfind _ h
  | cliStats req => exact hfind _ h
  | cleanup => exact hreq.elim

/-- An entry that events are not about is as dead as before. -/
theorem Dead.frame {now : ℕ} {evs : List Event} (hd : Dead cfg now e (history e.id s.trace))
    (hev : ∀ ev ∈ evs, ev.id? ≠ some e.id) :
    Dead cfg now e (history e.id (s.trace ++ evs)) := by
  rwa [history_append, history_of_ne hev, List.append_nil]

theorem refusal_events {cmd : Cmd} (id : ℕ) : ∀ ev ∈ (cmd.refusal env).1, ev.id? ≠ some id := by
  intro ev hev
  cases cmd with
  | sessionOpen req =>
    obtain rfl := sendFailedSessionOpenReply_events none ev hev
    nofun
  | sessionClose req =>
    simp only [Cmd.refusal] at hev
    split at hev
    · cases hev
    · dsimp only at hev
      split at hev
      · obtain rfl := List.mem_singleton.1 hev
        nofun
      · cases hev
  | authInit req => cases hev
  | authCont req => cases hev
  | cliStats req => cases hev
  | cleanup => cases hev

/-- **A request to both.** -/
theorem Without.request {gone : ℕ → Bool} (h : Without cfg gone env.now s t) (hwf : WF s)
    (hrun : s.running = true) (cmd : Cmd) (hreq : cmd.IsRequest)
    (hclose : OnEntry ClosesOpened s (cmd, env)) :
    Without cfg gone env.now (s.serve cfg env cmd) (t.serve cfg env cmd) := by
  rw [serve_request hrun hreq, serve_request (h.running hrun) hreq, h.entry_eq hwf hreq]
  cases hentry : cmd.entry env s with
  | none =>
    -- found in neither
    refine ⟨h.db_eq, fun e he hgone => (h.dead e he hgone).frame (refusal_events e.id),
      h.nextId_eq, id, ?_⟩
    show openReplies (t.trace ++ _) = openReplies (s.trace ++ _)
    rw [openReplies_append, openReplies_append, h.replies_eq]
  | some e =>
    have hmem := entry_mem hreq hentry
    obtain ⟨hid, hsid, hev⟩ := (cmd.handles hreq cfg env e).frame
    have hframe : ∀ x ∈ s.db, x.id ≠ e.id → gone x.id = true →
        Dead cfg env.now x (history x.id (s.trace ++ (cmd.handle cfg env e).events)) := by
      intro x hx hne hgone
      refine (h.dead x hx hgone).frame ?_
      intro ev hmem' hx'
      rw [hev ev hmem'] at hx'
      exact hne (Option.some.inj hx').symm
    have hfilter : ∀ db : List ClientEntry,
        (Table.update ClientEntry.id db (cmd.handle cfg env e).entry).filter
          (fun x => !gone x.id) =
        Table.update ClientEntry.id (db.filter fun x => !gone x.id)
          (cmd.handle cfg env e).entry :=
      fun db => Table.filter_update (fun id => !gone id) db _
    rw [Option.filter_some]
    by_cases hgone : gone e.id = true
    · -- refused by the database without it
      have hdead := h.dead e hmem hgone
      obtain ⟨hdead', hrep, hruns⟩ := hdead.handle hreq (hclose e hentry)
      rw [if_neg (by simp [hgone])]
      refine ⟨?_, ?_, h.nextId_eq, hruns, ?_⟩
      · show t.db = (Table.update ClientEntry.id s.db _).filter _
        rw [hfilter, h.db_eq, Table.update_of_not_mem]
        intro x hx hxid
        have hkept := (List.mem_filter.1 hx).2
        rw [hxid, hid, hgone] at hkept
        cases hkept
      · intro x hx hxgone
        obtain rfl | ⟨hx, hne⟩ := Table.mem_update hx
        · show Dead cfg env.now _ (history _ (s.trace ++ _))
          rw [hid, history_append, history_of_all hev]
          exact hdead'
        · exact hframe x hx (fun heq => hne (heq.trans hid.symm)) hxgone
      · show openReplies (t.trace ++ _) = openReplies (s.trace ++ _)
        rw [openReplies_append, openReplies_append, h.replies_eq, hrep]
    · -- found in both
      rw [if_pos (by simp [hgone])]
      refine ⟨?_, ?_, h.nextId_eq, id, ?_⟩
      · show Table.update ClientEntry.id t.db _ = (Table.update ClientEntry.id s.db _).filter _
        rw [hfilter, h.db_eq]
      · intro x hx hxgone
        obtain rfl | ⟨hx, hne⟩ := Table.mem_update hx
        · rw [hid] at hxgone
          exact absurd hxgone hgone
        · exact hframe x hx (fun heq => hne (heq.trans hid.symm)) hxgone
      · show openReplies (t.trace ++ _) = openReplies (s.trace ++ _)
        rw [openReplies_append, openReplies_append, h.replies_eq]

theorem drawSid_of_unused {db : List ClientEntry} {sids : List (Vector UInt8 sidSize)} (n : ℕ)
    (h : ∀ sid ∈ sids.head?, ∀ e ∈ db, e.sid ≠ sid.toList) :
    drawSid db (n + 1) sids = sids.head?.map Vector.toList := by
  cases sids with
  | nil => rfl
  | cons sid sids =>
    have hnone : findClientEntry db sid.toList = none := by
      simpa [findClientEntry] using h sid rfl
    rw [drawSid, if_pos hnone]
    rfl

/-- **A new entry** is the same in both. -/
theorem Without.authInit {gone : ℕ → Bool} {req : AuthInitMsg}
    (h : Without cfg gone env.now s t) (hwf : WF s) (hdraw : DrawsNew s (.authInit req, env)) :
    ∃ gone', Without cfg gone' env.now (s.serve cfg env (.authInit req))
      (t.serve cfg env (.authInit req)) := by
  have hdraw' : ∀ sid ∈ env.sids.head?, ∀ e ∈ t.db, e.sid ≠ sid.toList := by
    intro sid hsid e he
    rw [h.db_eq] at he
    exact hdraw sid hsid e (List.mem_filter.1 he).1
  have hnew : newClientEntry env t req.ip = newClientEntry env s req.ip := by
    rw [newClientEntry, newClientEntry, drawSid_of_unused 4 hdraw, drawSid_of_unused 4 hdraw',
      h.nextId_eq]
  simp only [SecModSt.serve, hnew]
  cases hentry : newClientEntry env s req.ip with
  | none => exact ⟨gone, h⟩
  | some e =>
    have hisNew := newClientEntry_isNew hentry
    have hframe := handleAuthInit_frame cfg env req e
    have hid : (handleAuthInit cfg env req e).entry.id = s.nextId :=
      hframe.same.id_eq.trans hisNew.id_eq
    have hauth : ∀ ev ∈ .created e.id e.sid :: (handleAuthInit cfg env req e).events,
        ev.id? = some s.nextId ∧ ev.isAuth = true := by
      intro ev hev
      rw [← hisNew.id_eq]
      rcases List.mem_cons.1 hev with rfl | hev
      · exact ⟨rfl, rfl⟩
      · exact hframe.events ev hev
    -- the new number is not one of those that are gone
    have hold : ∀ x ∈ s.db, decide (x.id ≠ s.nextId) = true := fun x hx =>
      decide_eq_true (hwf.lt x hx).ne
    refine ⟨fun id => gone id && decide (id ≠ s.nextId), ?_, ?_, ?_, h.running, ?_⟩
    · dsimp only
      rw [List.filter_cons_of_pos (by simp [hid]), h.db_eq]
      congr 1
      refine List.filter_congr ?_
      intro x hx
      rw [hold x hx, Bool.and_true]
    · intro x hx hxgone
      rw [Bool.and_eq_true, decide_eq_true_eq] at hxgone
      rcases List.mem_cons.1 hx with rfl | hx
      · exact absurd hid hxgone.2
      · refine (h.dead x hx hxgone.1).frame ?_
        intro ev hev hx'
        rw [(hauth ev hev).1] at hx'
        exact hxgone.2 (Option.some.inj hx').symm
    · dsimp only
      rw [h.nextId_eq]
    · dsimp only
      rw [openReplies_append, openReplies_append, h.replies_eq]

/-- **A cleanup of both.** -/
theorem Without.cleanup {gone : ℕ → Bool} (h : Without cfg gone env.now s t) (hwf : WF s) :
    Without cfg gone env.now (s.serve cfg env .cleanup) (t.serve cfg env .cleanup) := by
  refine ⟨?_, fun x hx hxgone => ?_, h.nextId_eq, h.running, ?_⟩
  · simp only [SecModSt.serve, h.db_eq, List.filter_filter]
    exact List.filter_congr fun x _ => Bool.and_comm _ _
  · obtain ⟨hx, hkept⟩ := List.mem_filter.1 hx
    refine (h.dead x hx hxgone).frame ?_
    intro ev hev hx'
    obtain ⟨y, hy, hexp, hyid⟩ := cleanup_events hev hx'
    rw [← Table.eq_of_key_eq hwf.ids hy hx hyid, hexp] at hkept
    cases hkept
  · simp only [SecModSt.serve]
    rw [openReplies_append, openReplies_append, openReplies_cleanup, openReplies_cleanup,
      h.replies_eq]

/-- **A cleanup of one** takes away entries that are dead. -/
theorem Without.cleanup_right {gone : ℕ → Bool} (h : Without cfg gone env.now s t)
    (hentries : Entries CountsOpen s) (hrun : s.running = true) :
    ∃ gone', Without cfg gone' env.now s (t.serve cfg env .cleanup) := by
  have hwf := hentries.wf
  have hany : ∀ x ∈ s.db,
      (s.db.any fun e => decide (e.id = x.id) && expired cfg env.now e) =
        expired cfg env.now x := by
    intro x hx
    rw [Bool.eq_iff_iff, List.any_eq_true]
    constructor
    · rintro ⟨e, he, hand⟩
      rw [Bool.and_eq_true, decide_eq_true_eq] at hand
      rw [← Table.eq_of_key_eq hwf.ids he hx hand.1]
      exact hand.2
    · intro hexp
      exact ⟨x, hx, by rw [hexp, decide_eq_true rfl]; rfl⟩
  refine ⟨fun id => gone id || s.db.any fun e => decide (e.id = id) && expired cfg env.now e,
    ?_, fun x hx hxgone => ?_, h.nextId_eq, h.running, ?_⟩
  · simp only [SecModSt.serve, h.db_eq, List.filter_filter]
    refine List.filter_congr ?_
    intro x hx
    rw [hany x hx, Bool.not_or, Bool.and_comm]
  · rw [Bool.or_eq_true, hany x hx] at hxgone
    rcases hxgone with hgone | hexp
    · exact h.dead x hx hgone
    · exact .of_expired hexp (hentries.inv hrun x hx)
  · simp only [SecModSt.serve]
    rw [openReplies_append, openReplies_cleanup, List.append_nil, h.replies_eq]

/-! ### Runs -/

/-- The time of a request. -/
def timeOf (i : Cmd × Env) : ℕ := i.2.now

/-- The run with more cleanups loses only dead entries. -/
theorem machine_invisible (cfg : Config) : (machine cfg).Invisible timeOf timeOf IsCleanup
    (fun s i => Entries CountsOpen s ∧ OnEntry ClosesOpened s i ∧ DrawsNew s i)
    (fun s => s.running = true ∧ Entries CountsOpen s)
    (fun now s t => ∃ gone, Without cfg gone now s t) where
  alive hC hstep := ⟨(step_eq_some hstep).1, hC.1⟩
  mono := fun ⟨gone, h⟩ hle => ⟨gone, h.mono hle⟩
  keep := by
    rintro ⟨cmd, env⟩ s t s' ⟨gone, h⟩ - ⟨hentries, hclose, hdraw⟩ hstep
    obtain ⟨hrun, rfl⟩ := step_eq_some hstep
    refine ⟨t.serve cfg env cmd, if_pos (h.running hrun), ?_⟩
    cases cmd with
    | authInit req => exact h.authInit hentries.wf hdraw
    | authCont req => exact ⟨gone, h.request hentries.wf hrun _ trivial hclose⟩
    | sessionOpen req => exact ⟨gone, h.request hentries.wf hrun _ trivial hclose⟩
    | sessionClose req => exact ⟨gone, h.request hentries.wf hrun _ trivial hclose⟩
    | cliStats req => exact ⟨gone, h.request hentries.wf hrun _ trivial hclose⟩
    | cleanup => exact ⟨gone, h.cleanup hentries.wf⟩
  insert := by
    rintro ⟨cmd, env⟩ s t hcmd ⟨hrun, hentries⟩ ⟨gone, h⟩ -
    obtain rfl : cmd = .cleanup := hcmd
    exact ⟨t.serve cfg env .cleanup, if_pos (h.running hrun), h.cleanup_right hentries hrun⟩

/-- A request adds to the trace. -/
theorem serve_trace (cfg : Config) (env : Env) (s : SecModSt) (cmd : Cmd) :
    ∃ events, (s.serve cfg env cmd).trace = s.trace ++ events := by
  have hserved := serve_cases cfg env s cmd
  generalize s.serve cfg env cmd = s' at hserved
  cases hserved with
  | nothing running events hev => exact ⟨events, rfl⟩
  | found hentry hmem hout => exact ⟨_, rfl⟩
  | created hnew => exact ⟨_, rfl⟩
  | cleanup => exact ⟨_, rfl⟩

/-- The replies are what the handler adds to the trace. -/
theorem sessionReply_eq {req : SessionMsg} (events : List Event)
    (h : (s.serve cfg env (.sessionOpen req)).trace = s.trace ++ events) :
    sessionReply cfg env s req = openReplies events := by
  rw [sessionReply, h, List.drop_left]

theorem openReplies_serve (cfg : Config) (env : Env) (s : SecModSt) (req : SessionMsg) :
    openReplies (s.serve cfg env (.sessionOpen req)).trace =
      openReplies s.trace ++ sessionReply cfg env s req := by
  obtain ⟨events, htrace⟩ := serve_trace cfg env s (.sessionOpen req)
  rw [sessionReply, htrace, List.drop_left, openReplies_append]

/-- **The cleanup is invisible to `SESSION_OPEN`.**  Let a run close only sessions that it opened,
draw a SID that is not in use whenever it makes an entry, and never overflow `in_use`.  Then the
run with any calls of `cleanup_client_entries` inserted, by a clock that does not go back, gets as
far, and answers the next `SESSION_OPEN` alike. -/
theorem sessionReply_inserted {is js : List (Cmd × Env)} {req : SessionMsg}
    (hins : Inserted IsCleanup is js)
    (hclock : Machine.Clocked timeOf timeOf (js ++ [(.sessionOpen req, env)]))
    (hclose : (machine cfg).Meets (OnEntry ClosesOpened) start is)
    (hdraw : (machine cfg).Meets DrawsNew start is)
    (hcount : (machine cfg).Meets (OnEntry CanCount) start is)
    (hs : (machine cfg).run start is = some s) (hrun : s.running = true) :
    ∃ t, (machine cfg).run start js = some t ∧ t.running = true ∧
      sessionReply cfg env t req = sessionReply cfg env s req := by
  have hentries := countsOpen_always hcount
  have hlast : ∀ j ∈ js, timeOf j ≤ env.now := fun j hj =>
    (List.pairwise_append.1 hclock.pairwise).2.2 j hj _ (List.mem_singleton_self _)
  have hC := (hentries.meets fun s i h => (h : Entries CountsOpen s)).and (hclose.and hdraw)
  have hstart : ∀ now, ∃ gone, Without cfg gone now start start := fun now =>
    ⟨fun _ => false, rfl, fun _ he => absurd he List.not_mem_nil, rfl, id, rfl⟩
  obtain ⟨t, ht, hend⟩ := (machine_invisible cfg).run_self hins hclock.of_append hstart hC hs
    ⟨hrun, hentries.last hs⟩
  obtain ⟨gone, h⟩ := hend env.now hlast
  refine ⟨t, ht, h.running hrun, ?_⟩
  have hreq := h.request (hentries.last hs).wf hrun (.sessionOpen req) trivial
    fun _ _ => trivial
  have hreplies := hreq.replies_eq
  rw [openReplies_serve, openReplies_serve, h.replies_eq] at hreplies
  exact List.append_cancel_left hreplies

end

/-! ### Three runs -/

instance (e : ClientEntry) (t : List Event) (cmd : Cmd) (env : Env) :
    Decidable (CanCount e t cmd env) :=
  match cmd with
  | .sessionOpen _ => inferInstanceAs (Decidable (e.inUse.toNat + 1 < 2 ^ 32))
  | .authInit _ | .authCont _ | .sessionClose _ | .cliStats _ | .cleanup => .isTrue trivial

instance (s : SecModSt) (i : Cmd × Env) : Decidable (DrawsNew s i) := by
  unfold DrawsNew
  split <;> infer_instance

namespace Sample

/-- Two logins, and the SID of the first one is drawn again for the second. -/
def redrawn : List (Cmd × Env) :=
  certificateLogin ++ [(.authInit (initMsg true authTypeCertificate),
    { environ 2000 with sids := [Vector.replicate sidSize 7, Vector.replicate sidSize 8] })]

/-- The same with a cleanup between the two. -/
def redrawnCleaned : List (Cmd × Env) :=
  certificateLogin ++ [(.cleanup, environ 1900), (.authInit (initMsg true authTypeCertificate),
    { environ 2000 with sids := [Vector.replicate sidSize 7, Vector.replicate sidSize 8] })]

/-- A `SESSION_OPEN` with the cookie for the other SID that is drawn then. -/
def openRedrawn : SessionMsg :=
  ⟨List.replicate sidSize 8, some (1 :: List.replicate sidSize 8), none, none, none⟩

/-- Sessions of one login, two of which are closed. -/
def manySessions (n : ℕ) : List (Cmd × Env) :=
  certificateLogin ++ (List.replicate n (.sessionOpen openMsg, environ 1001) ++
    [(.sessionClose (closeMsg 5 6), environ 1002), (.sessionClose (closeMsg 5 6), environ 1500)])

/-- The same with a cleanup between the two. -/
def manySessionsCleaned (n : ℕ) : List (Cmd × Env) :=
  certificateLogin ++ (List.replicate n (.sessionOpen openMsg, environ 1001) ++
    [(.sessionClose (closeMsg 5 6), environ 1002), (.cleanup, environ 1400),
      (.sessionClose (closeMsg 5 6), environ 1500)])

/-- The entry of the login, with sessions. -/
def entryWith (inUse : UInt32) : ClientEntry where
  id := 0
  sid := sid
  inUse := inUse
  tlsAuthOk := true
  status := .completed
  cookie := 1 :: sid
  time := -1
  authType := authTypeCertificate
  remoteIp := [49]

/-- Sec-mod with this entry only. -/
def secModWith (inUse : UInt32) (trace : List Event) : SecModSt :=
  ⟨[entryWith inUse], 1, true, trace⟩

/-- The trace of the login. -/
def loginTrace : List Event :=
  [.created 0 sid, .checked 0, .authRepOk 0 (1 :: sid)
    { username := [], groupname := [], hostname := [], ip := [49], tlsAuthOk := true
      ipv4Seed := 1, sid := sid, expiration := 1300 }]

/-- The counter counts the sessions modulo `2 ^ 32`. -/
theorem run_opens (n : ℕ) (inUse : UInt32) (trace : List Event) :
    (machine certificate).run (secModWith inUse trace)
        (List.replicate n (.sessionOpen openMsg, environ 1001)) =
      some (secModWith (inUse + UInt32.ofNat n)
        (trace ++ List.replicate n (.sessionRep (some 0) .ok))) := by
  induction n generalizing inUse trace with
  | zero => simp [Machine.run]
  | succ n ih =>
    have hstep : (machine certificate).step (secModWith inUse trace)
        (.sessionOpen openMsg, environ 1001) =
          some (secModWith (inUse + 1) (trace ++ [.sessionRep (some 0) .ok])) := rfl
    rw [List.replicate_succ, Machine.run_cons, hstep, Option.bind_some, ih, UInt32.ofNat_add,
      List.append_assoc, List.replicate_succ, UInt32.add_assoc, UInt32.add_comm 1]
    rfl

/-- After `n` sessions, where `n` is a multiple of `2 ^ 32`, none is counted. -/
theorem run_manySessions {n : ℕ} (hn : UInt32.ofNat (n + 1) = 0) :
    (machine certificate).run start (certificateLogin ++
        List.replicate (n + 1) (.sessionOpen openMsg, environ 1001)) =
      some (secModWith 0 (loginTrace ++ List.replicate (n + 1) (.sessionRep (some 0) .ok))) := by
  obtain ⟨s, hs, hopen⟩ : ∃ s, (machine certificate).run start certificateLogin = some s ∧
      (machine certificate).step s (.sessionOpen openMsg, environ 1001) =
        some (secModWith 1 (loginTrace ++ [.sessionRep (some 0) .ok])) := ⟨_, rfl, rfl⟩
  refine Machine.run_append_eq_some.2 ⟨s, hs, ?_⟩
  rw [List.replicate_succ, Machine.run_cons, hopen, Option.bind_some, run_opens, ← hn,
    UInt32.ofNat_add, UInt32.add_comm, List.append_assoc]
  rfl

theorem meets_replicate {i : Cmd × Env} (h : ∀ s, OnEntry ClosesOpened s i) (n : ℕ)
    (s : SecModSt) : (machine certificate).Meets (OnEntry ClosesOpened) s
      (List.replicate n i) := by
  induction n generalizing s with
  | zero => trivial
  | succ n ih => exact ⟨h s, fun t _ => ih t⟩

theorem history_opens (n : ℕ) :
    opens (history 0 (loginTrace ++ List.replicate n (.sessionRep (some 0) .ok))) = n ∧
      closes (history 0 (loginTrace ++ List.replicate n (.sessionRep (some 0) .ok))) = 0 := by
  have hall : ∀ ev ∈ List.replicate n (Event.sessionRep (some 0) .ok), ev.id? = some 0 := by
    intro ev hev
    rw [List.eq_of_mem_replicate hev]
    rfl
  rw [history_append, history_of_all hall, opens_append, closes_append]
  constructor
  · show 0 + _ = n
    rw [opens, List.countP_replicate, Nat.zero_add]
    rfl
  · show 0 + _ = 0
    rw [closes, List.countP_replicate]
    rfl

/-- A session that is not counted is closed after the cleanup: the entry has a new time in the
run without it, and is deleted in the run with it. -/
theorem sessionReply_manySessions {n : ℕ} (hn : UInt32.ofNat (n + 1) = 0) :
    ∃ s t, (machine certificate).run start (manySessions (n + 1)) = some s ∧
      (machine certificate).run start (manySessionsCleaned (n + 1)) = some t ∧
      sessionReply certificate (environ 1501) s openMsg = [.ok] ∧
      sessionReply certificate (environ 1501) t openMsg = [.failed] := by
  have hopens := run_manySessions hn
  generalize loginTrace ++ List.replicate (n + 1) (.sessionRep (some 0) .ok) = T at hopens
  obtain ⟨s, hs⟩ : ∃ s, (machine certificate).run (secModWith 0 T)
      [(.sessionClose (closeMsg 5 6), environ 1002),
        (.sessionClose (closeMsg 5 6), environ 1500)] = some s := ⟨_, rfl⟩
  obtain ⟨t, ht⟩ : ∃ t, (machine certificate).run (secModWith 0 T)
      [(.sessionClose (closeMsg 5 6), environ 1002), (.cleanup, environ 1400),
        (.sessionClose (closeMsg 5 6), environ 1500)] = some t := ⟨_, rfl⟩
  refine ⟨s, t, ?_, ?_, ?_, ?_⟩
  · rw [manySessions, ← List.append_assoc]
    exact Machine.run_append_eq_some.2 ⟨_, hopens, hs⟩
  · rw [manySessionsCleaned, ← List.append_assoc]
    exact Machine.run_append_eq_some.2 ⟨_, hopens, ht⟩
  · cases hs
    exact sessionReply_eq [.sessionRep (some 0) .ok] rfl
  · cases ht
    exact sessionReply_eq [.sessionRep none .failed] rfl

theorem inserted_manySessions (n : ℕ) :
    Inserted IsCleanup (manySessions n) (manySessionsCleaned n) := by
  refine .keep ?_
  show Inserted IsCleanup (List.replicate n _ ++ _) (List.replicate n _ ++ _)
  induction n with
  | zero => exact .keep (.insert rfl (.keep .nil))
  | succ n ih => exact ih.keep

theorem clocked_manySessions (n : ℕ) : Machine.Clocked timeOf timeOf
    (manySessionsCleaned n ++ [(.sessionOpen openMsg, environ 1501)]) := by
  refine ⟨?_, fun _ _ => le_rfl⟩
  rw [manySessionsCleaned, List.append_assoc, List.append_assoc, List.pairwise_append,
    List.pairwise_append]
  refine ⟨by decide, ⟨List.pairwise_replicate.2 (.inr le_rfl), by decide, ?_⟩, ?_⟩
  · intro i hi
    rw [List.eq_of_mem_replicate hi]
    decide
  · intro i hi j hj
    rw [List.mem_singleton.1 hi]
    rcases List.mem_append.1 hj with hopen | hlast
    · rw [List.eq_of_mem_replicate hopen]
      decide
    · clear hj
      revert j
      decide

/-- Each of the two closes is of a session that was opened. -/
theorem meets_manySessions {n : ℕ} (hn : UInt32.ofNat (n + 1) = 0) (hpos : 0 < n) :
    (machine certificate).Meets (OnEntry ClosesOpened) start (manySessions (n + 1)) := by
  rw [manySessions, ← List.append_assoc]
  have hopen : ∀ s, OnEntry ClosesOpened s (.sessionOpen openMsg, environ 1001) :=
    fun _ _ _ => trivial
  refine .append (.append (by decide) fun s _ => meets_replicate hopen _ s) ?_
  intro t ht
  rw [run_manySessions hn] at ht
  obtain ⟨hopens, hcloses⟩ := history_opens (n + 1)
  generalize loginTrace ++ List.replicate (n + 1) (.sessionRep (some 0) .ok) = T
    at ht hopens hcloses
  cases ht
  constructor
  · rintro e ⟨⟩
    show closes (history 0 T) < opens (history 0 T)
    omega
  · rintro s ⟨⟩
    refine ⟨?_, fun _ _ => trivial⟩
    rintro e ⟨⟩
    show closes (history 0 (T ++ _)) < opens (history 0 (T ++ _))
    rw [history_append, closes_append, opens_append, hopens, hcloses]
    show 0 + 1 < n + 1 + 0
    omega

end Sample

open Sample in
theorem sessionReply_inserted_session :
    ∃ t, (machine certificate).run start
        (session ++ [(.cleanup, environ 1400)]) = some t ∧ t.running = true ∧
      sessionReply certificate (environ 1500) t openMsg =
        sessionReply certificate (environ 1500)
          (((machine certificate).run start session).getD start) openMsg :=
  sessionReply_inserted (.keep (.keep (.keep (.insert rfl .nil)))) ⟨by decide, by decide⟩
    (by decide) (by decide) (by decide) rfl rfl

open Sample in
/-- A SID that is drawn again is taken in the run with the old entry only.  And a session that
`in_use` does not count any more is closed after the cleanup, which its entry does not survive. -/
theorem not_sessionReply_inserted :
    (∃ is js : List (Cmd × Env), ∃ s t, Inserted IsCleanup is js ∧
      Machine.Clocked timeOf timeOf (js ++ [(.sessionOpen openRedrawn, environ 2001)]) ∧
      (machine certificate).Meets (OnEntry ClosesOpened) start is ∧
      (machine certificate).Meets (OnEntry CanCount) start is ∧
      (machine certificate).run start is = some s ∧ (machine certificate).run start js = some t ∧
      sessionReply certificate (environ 2001) s openRedrawn = [.ok] ∧
      sessionReply certificate (environ 2001) t openRedrawn = [.failed]) ∧
    ∃ is js : List (Cmd × Env), ∃ s t, Inserted IsCleanup is js ∧
      Machine.Clocked timeOf timeOf (js ++ [(.sessionOpen openMsg, environ 1501)]) ∧
      (machine certificate).Meets (OnEntry ClosesOpened) start is ∧
      (machine certificate).run start is = some s ∧ (machine certificate).run start js = some t ∧
      sessionReply certificate (environ 1501) s openMsg = [.ok] ∧
      sessionReply certificate (environ 1501) t openMsg = [.failed] := by
  constructor
  · refine ⟨redrawn, redrawnCleaned, _, _, .keep (.insert rfl (.keep .nil)),
      ⟨by decide, by decide⟩, by decide, by decide, rfl, rfl, by decide, by decide⟩
  · obtain ⟨n, hn, hpos⟩ : ∃ n, UInt32.ofNat (n + 1) = 0 ∧ 0 < n :=
      ⟨2 ^ 32 - 1, by decide, by decide⟩
    obtain ⟨s, t, hs, ht, hok, hfailed⟩ := sessionReply_manySessions hn
    exact ⟨manySessions (n + 1), manySessionsCleaned (n + 1), s, t,
      inserted_manySessions (n + 1), clocked_manySessions (n + 1), meets_manySessions hn hpos,
      hs, ht, hok, hfailed⟩

end SecMod

end Ocserv
