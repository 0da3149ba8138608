import Ocserv.SecMod.Auth

/-!
# Sec-mod: sessions

The handlers of `SESSION_OPEN`, `SESSION_CLOSE` and `CLI_STATS` of `src/sec-mod-auth.c` on the
entry they found, and what `src/sec-mod-db.c` does to an entry that is not needed any more.
-/

namespace Ocserv

namespace SecMod

/-- What a session handler does to its entry.  The return value is `none` where the source
dereferences `NULL`; the number of bytes of a reply that was sent is `0` here. -/
structure SessionOut where
  entry : ClientEntry
  events : List Event
  ret : Option ℤ
  deriving DecidableEq, Repr

variable (cfg : Config) (env : Env)

/-- `send_failed_session_open_reply`. -/
def sendFailedSessionOpenReply (id : Option ℕ) : List Event × Option ℤ :=
  if !env.mem then ([], some errBadCommand)
  else if env.sendOk then ([.sessionRep id .failed], some 0)
  else ([], some errBadCommand)

/-- Refuse a session, leaving the entry as `e`. -/
def denySession (e : ClientEntry) : SessionOut :=
  let reply := sendFailedSessionOpenReply env (some e.id)
  ⟨e, reply.1, reply.2⟩

/-- The part of `handle_sec_auth_session_open` after the accounting module agreed. -/
def replySession (e : ClientEntry) : SessionOut :=
  if !env.mem then ⟨e, [], some errBadCommand⟩
  else if cfg.supConfig ∧ env.supConfig < 0 then denySession env e
  else if !env.sendOk then ⟨e, [], some errBadCommand⟩
  else ⟨{ e with time := -1, inUse := e.inUse + 1 }, [.sessionRep (some e.id) .ok], some 0⟩

/-- The accounting module has an `open_session` and it was not called for the entry. -/
def needsOpen (e : ClientEntry) : Bool :=
  cfg.acct.any (·.openSession) && !e.sessionIsOpen

/-- `handle_sec_auth_session_open`, on the entry with the SID of the request. -/
def handleSessionOpen (req : SessionMsg) (e : ClientEntry) : SessionOut :=
  if e.status ≠ .completed then denySession env e
  else if e.time ≠ -1 ∧ env.now > e.time + cfg.cookieTimeout then
    denySession env (e.setStatus .failed)
  else if req.cookie ≠ some e.cookie then denySession env (e.setStatus .failed)
  else if needsOpen cfg e then
    match e.module with
    -- `e->module->type`
    | none => ⟨e, [], none⟩
    | some _ =>
      let opened := .openSession e.id env.openSession
      if env.openSession < 0 then
        let out := denySession env (e.setStatus .failed)
        { out with events := opened :: out.events }
      else
        let out := replySession cfg env { e with sessionIsOpen := true }
        { out with events := opened :: out.events }
  else replySession cfg env e

/-- The larger of a counter and what a message reports, if it does. -/
def maxCounter (counter : UInt64) (reported : Option UInt64) : UInt64 :=
  match reported with
  | some n => if n > counter then n else counter
  | none => counter

/-- The counters of the entry after those of a message. -/
def Stats.report (s : Stats) (bytesIn bytesOut : Option UInt64) (uptime : Option ℕ) : Stats :=
  ⟨maxCounter s.bytesIn bytesIn, maxCounter s.bytesOut bytesOut,
    match uptime with
    | some n => if n > s.uptime then n else s.uptime
    | none => s.uptime⟩

/-- `expire_client_entry`. -/
def expireClientEntry (e : ClientEntry) : ClientEntry :=
  let e := if e.inUse > 0 then { e with inUse := e.inUse - 1 } else e
  if e.inUse = 0 then { e with time := env.now } else e

/-- `handle_sec_auth_session_close`, on the entry with the SID of the request. -/
def handleSessionClose (req : SessionMsg) (e : ClientEntry) : SessionOut :=
  if e.status ≠ .completed then
    if env.sendOk then ⟨e, [.sessionClose e.id req, .cliStatsRep (some e.id) 0 0], some 0⟩
    else ⟨e, [.sessionClose e.id req], some (-1)⟩
  else
    let e := { e with stats := e.stats.report req.bytesIn req.bytesOut req.uptime }
    if !env.sendOk then ⟨e, [.sessionClose e.id req], some errBadCommand⟩
    else
      let reply := .cliStatsRep (some e.id) e.stats.bytesIn e.stats.bytesOut
      let e := { e with savedStats := e.savedStats.add e.stats, stats := {} }
      ⟨expireClientEntry env e, [.sessionClose e.id req, reply], some 0⟩

/-- `handle_sec_auth_stats_cmd`, on the entry with the SID of the message. -/
def handleStatsCmd (req : CliStatsMsg) (e : ClientEntry) : SessionOut :=
  if e.status ≠ .completed then ⟨e, [], some (-1)⟩
  else
    let e := { e with
      stats := e.stats.report (some req.bytesIn) (some req.bytesOut) (some req.uptime) }
    if !cfg.acct.any (·.sessionStats) then ⟨e, [], some 0⟩
    else
      let totals := e.stats.add e.savedStats
      let e := { e with
        remoteIp := (req.remoteIp.map (strlcpy maxIpStr)).getD e.remoteIp
        ipv4 := (req.ipv4.map (strlcpy maxIpStr)).getD e.ipv4
        ipv6 := (req.ipv6.map (strlcpy maxIpStr)).getD e.ipv6 }
      match e.module with
      | none => ⟨e, [], none⟩
      | some _ => ⟨e, [.sessionStats e.id totals], some 0⟩

/-- The condition on which `cleanup_client_entries` deletes an entry. -/
def expired (now : ℕ) (e : ClientEntry) : Bool :=
  e.time ≠ -1 ∧ now - e.time > cfg.cookieTimeout + authSlackTime ∧ e.inUse = 0

/-- `sec_auth_user_deinit`. -/
def authUserDeinit (e : ClientEntry) : List Event :=
  match e.module, e.authCtx with
  | some m, some ctx =>
    (if cfg.acct.any (·.closeSession) ∧ e.sessionIsOpen then [.closeSession e.id e.savedStats]
      else []) ++ [.call e.id m .authDeinit (some ctx) 0]
  | _, _ => []

/-- `clean_entry`. -/
def cleanEntry (e : ClientEntry) : List Event := authUserDeinit cfg e ++ [.removed e.id]

/-! ### What the handlers leave alone -/

/-- What the session handlers do: they do not touch the authentication of the entry, but for
making it fail. -/
structure SessionFrame (e : ClientEntry) (out : SessionOut) : Prop where
  id_eq : out.entry.id = e.id
  sid_eq : out.entry.sid = e.sid
  cookie_eq : out.entry.cookie = e.cookie
  module_eq : out.entry.module = e.module
  status : out.entry.status = e.status ∨ out.entry.status = .failed
  events : ∀ ev ∈ out.events, ev.id? = some e.id ∧ ev.isAuth = false

/-- The fields that count the sessions of an entry and their traffic. -/
structure SameCounters (e e' : ClientEntry) : Prop where
  inUse_eq : e'.inUse = e.inUse
  time_eq : e'.time = e.time
  stats_eq : e'.stats = e.stats
  savedStats_eq : e'.savedStats = e.savedStats

/-- The events of a `SESSION_OPEN` that is not answered `OK`. -/
def Event.IsRefusal (id : ℕ) (ev : Event) : Prop :=
  ev = .sessionRep (some id) .failed ∨ ∃ ret, ev = .openSession id ret

variable {cfg : Config} {env : Env} {e : ClientEntry}

theorem sendFailedSessionOpenReply_events (id : Option ℕ) :
    ∀ ev ∈ (sendFailedSessionOpenReply env id).1, ev = .sessionRep id .failed := by
  unfold sendFailedSessionOpenReply
  repeat' split
  all_goals simp

theorem Event.IsRefusal.about {id : ℕ} {ev : Event} (h : ev.IsRefusal id) :
    ev.id? = some id ∧ ev.isAuth = false := by
  obtain rfl | ⟨ret, rfl⟩ := h <;> exact ⟨rfl, rfl⟩

/-- What a `SESSION_OPEN` that is not answered `OK` does. -/
structure RefusedSession (e : ClientEntry) (out : SessionOut) : Prop where
  counters : SameCounters e out.entry
  frame : SessionFrame e out
  events : ∀ ev ∈ out.events, ev.IsRefusal e.id

namespace RefusedSession

theorem deny (status : Status) (h : status = e.status ∨ status = .failed) :
    RefusedSession e (denySession env (e.setStatus status)) := by
  have hev : ∀ ev ∈ (denySession env (e.setStatus status)).events, ev.IsRefusal e.id :=
    fun ev hev => .inl (sendFailedSessionOpenReply_events _ ev hev)
  exact ⟨⟨rfl, rfl, rfl, rfl⟩, ⟨rfl, rfl, rfl, rfl, h, fun ev hmem => (hev ev hmem).about⟩, hev⟩

theorem opened {e₁ : ClientEntry} {out : SessionOut} (ret : ℤ)
    (he : e₁ = e ∨ e₁ = { e with sessionIsOpen := true }) (h : RefusedSession e₁ out) :
    RefusedSession e { out with events := .openSession e.id ret :: out.events } := by
  have hev : ∀ ev ∈ .openSession e.id ret :: out.events, ev.IsRefusal e.id := by
    intro ev hmem
    rcases List.mem_cons.1 hmem with rfl | hmem
    · exact .inr ⟨ret, rfl⟩
    · have := h.events ev hmem
      obtain rfl | rfl := he <;> exact this
  have hframe := h.frame
  have hcounters := h.counters
  obtain rfl | rfl := he <;>
    exact ⟨⟨hcounters.1, hcounters.2, hcounters.3, hcounters.4⟩,
      ⟨hframe.1, hframe.2, hframe.3, hframe.4, hframe.5, fun ev hmem => (hev ev hmem).about⟩, hev⟩

end RefusedSession

/-- What a `SESSION_OPEN` that is answered `OK` does. -/
structure OpenedSession (e : ClientEntry) (out : SessionOut) : Prop where
  inUse_eq : out.entry.inUse = e.inUse + 1
  time_eq : out.entry.time = -1
  stats_eq : out.entry.stats = e.stats
  savedStats_eq : out.entry.savedStats = e.savedStats
  status_eq : out.entry.status = e.status
  frame : SessionFrame e out
  events : ∃ pre, out.events = pre ++ [.sessionRep (some e.id) .ok] ∧
    ∀ ev ∈ pre, ∃ ret, ev = .openSession e.id ret

theorem replySession_cases (cfg : Config) (env : Env) (e : ClientEntry) :
    RefusedSession e (replySession cfg env e) ∨ OpenedSession e (replySession cfg env e) := by
  have silent : RefusedSession e ⟨e, [], some errBadCommand⟩ :=
    ⟨⟨rfl, rfl, rfl, rfl⟩, ⟨rfl, rfl, rfl, rfl, .inl rfl, by simp⟩, by simp⟩
  unfold replySession
  split
  · exact .inl silent
  · split
    · exact .inl (.deny e.status (.inl rfl))
    · split
      · exact .inl silent
      · exact .inr ⟨rfl, rfl, rfl, rfl, rfl,
          ⟨rfl, rfl, rfl, rfl, .inl rfl, by simp [Event.id?, Event.isAuth]⟩, [], rfl, by simp⟩

/-- **`handle_sec_auth_session_open`**: the session is refused, or every check succeeded and the
entry is used once more. -/
theorem handleSessionOpen_cases (cfg : Config) (env : Env) (req : SessionMsg) (e : ClientEntry) :
    RefusedSession e (handleSessionOpen cfg env req e) ∨
    OpenedSession e (handleSessionOpen cfg env req e) ∧ e.status = .completed ∧
      (e.time = -1 ∨ env.now ≤ e.time + cfg.cookieTimeout) ∧ req.cookie = some e.cookie := by
  unfold handleSessionOpen
  split
  · exact .inl (.deny e.status (.inl rfl))
  · rename_i hstatus
    split
    · exact .inl (.deny .failed (.inr rfl))
    · rename_i htime
      split
      · exact .inl (.deny .failed (.inr rfl))
      · rename_i hcookie
        have hchecks : e.status = .completed ∧
            (e.time = -1 ∨ env.now ≤ e.time + cfg.cookieTimeout) ∧ req.cookie = some e.cookie := by
          refine ⟨not_not.1 hstatus, ?_, not_not.1 hcookie⟩
          by_contra hc
          obtain ⟨h₁, h₂⟩ := not_or.1 hc
          exact htime ⟨h₁, Int.not_le.1 h₂⟩
        split
        · split
          · exact .inl ⟨⟨rfl, rfl, rfl, rfl⟩, ⟨rfl, rfl, rfl, rfl, .inl rfl, by simp⟩, by simp⟩
          · dsimp only
            split
            · exact .inl (.opened _ (.inl rfl) (.deny .failed (.inr rfl)))
            · rcases replySession_cases cfg env { e with sessionIsOpen := true }
                with h | h
              · exact .inl (.opened _ (.inr rfl) h)
              · obtain ⟨pre, hpre, hopen⟩ := h.events
                refine .inr ⟨⟨h.inUse_eq, h.time_eq, h.stats_eq, h.savedStats_eq, h.status_eq,
                  ⟨h.frame.1, h.frame.2, h.frame.3, h.frame.4, h.frame.5, ?_⟩,
                  .openSession e.id env.openSession :: pre, by simp only [hpre, List.cons_append],
                  ?_⟩, hchecks⟩
                · intro ev hev
                  rcases List.mem_cons.1 hev with rfl | hev
                  · exact ⟨rfl, rfl⟩
                  · exact h.frame.events ev hev
                · intro ev hev
                  rcases List.mem_cons.1 hev with rfl | hev
                  · exact ⟨_, rfl⟩
                  · exact hopen ev hev
        · exact (replySession_cases _ _ e).imp_right fun h => ⟨h, hchecks⟩

theorem handleSessionOpen_frame (cfg : Config) (env : Env) (req : SessionMsg) (e : ClientEntry) :
    SessionFrame e (handleSessionOpen cfg env req e) :=
  (handleSessionOpen_cases _ _ req e).elim (·.frame) (·.1.frame)

theorem expireClientEntry_frame (env : Env) (e : ClientEntry) :
    ∃ inUse time, expireClientEntry env e = { e with inUse := inUse, time := time } := by
  unfold expireClientEntry
  dsimp only
  repeat' split
  all_goals exact ⟨_, _, rfl⟩

theorem handleSessionClose_frame (env : Env) (req : SessionMsg) (e : ClientEntry) :
    SessionFrame e (handleSessionClose env req e) := by
  unfold handleSessionClose
  split
  · split <;>
      exact ⟨rfl, rfl, rfl, rfl, .inl rfl, by simp [Event.id?, Event.isAuth]⟩
  · dsimp only
    split
    · exact ⟨rfl, rfl, rfl, rfl, .inl rfl, by simp [Event.id?, Event.isAuth]⟩
    · obtain ⟨inUse, time, heq⟩ := expireClientEntry_frame env
        { e with
          stats := {}
          savedStats := e.savedStats.add (e.stats.report req.bytesIn req.bytesOut req.uptime) }
      rw [heq]
      exact ⟨rfl, rfl, rfl, rfl, .inl rfl, by simp [Event.id?, Event.isAuth]⟩

theorem handleStatsCmd_frame (cfg : Config) (req : CliStatsMsg) (e : ClientEntry) :
    SessionFrame e (handleStatsCmd cfg req e) := by
  unfold handleStatsCmd
  dsimp only
  repeat' split
  all_goals exact ⟨rfl, rfl, rfl, rfl, .inl rfl, by simp [Event.id?, Event.isAuth]⟩

/-! ### Entries that are not completed -/

/-- A session is refused to an entry that is not completed. -/
theorem handleSessionOpen_not_completed (req : SessionMsg) (hstatus : e.status ≠ .completed) :
    (handleSessionOpen cfg env req e).entry = e := by
  simp only [handleSessionOpen, if_pos hstatus]
  rfl

theorem handleSessionClose_not_completed (req : SessionMsg) (hstatus : e.status ≠ .completed) :
    (handleSessionClose env req e).entry = e := by
  simp only [handleSessionClose, if_pos hstatus]
  split <;> rfl

theorem handleStatsCmd_not_completed (req : CliStatsMsg) (hstatus : e.status ≠ .completed) :
    (handleStatsCmd cfg req e).entry = e := by
  simp only [handleStatsCmd, if_pos hstatus]

end SecMod

end Ocserv
