import Ocserv.Machine
import Ocserv.SecMod.Session
import Ocserv.Table

/-!
# Sec-mod: the server

The database of client entries (`src/sec-mod-db.c`) and the requests sec-mod serves one after the
other, as a `Machine` whose labels are the requests with what they find in the environment.  The
hash table of the source is the list of its entries; they are looked up by the whole SID.

* `serve_cases` : what one request can do, for all of them at once;
* `entries_invariant` : a property of an entry and the events about it that the handlers
  preserve holds of every entry in every state of a run.
-/

namespace Ocserv

namespace SecMod

/-- The state of sec-mod. -/
structure SecModSt where
  db : List ClientEntry
  /-- The number of entries created so far. -/
  nextId : ℕ
  /-- The process has not exited or crashed. -/
  running : Bool
  trace : List Event
  deriving DecidableEq, Repr

/-- A request, or the periodic cleanup. -/
inductive Cmd where
  | authInit (req : AuthInitMsg)
  | authCont (req : AuthContMsg)
  | sessionOpen (req : SessionMsg)
  | sessionClose (req : SessionMsg)
  | cliStats (req : CliStatsMsg)
  | cleanup
  deriving DecidableEq, Repr

/-- `find_client_entry`. -/
def findClientEntry (db : List ClientEntry) (sid : Bytes) : Option ClientEntry :=
  db.find? fun e => e.sid = sid

/-- The loop of `new_client_entry`: draw a SID that is not in use, at most `n` times. -/
def drawSid (db : List ClientEntry) : ℕ → List (Vector UInt8 sidSize) → Option Bytes
  | 0, _ => none
  | _, [] => none
  | n + 1, sid :: sids =>
    if findClientEntry db sid.toList = none then some sid.toList else drawSid db n sids

/-- `new_client_entry`; the loop draws five times before it gives up. -/
def newClientEntry (env : Env) (s : SecModSt) (ip : Bytes) : Option ClientEntry :=
  if !env.mem then none
  else
    (drawSid s.db 5 env.sids).map fun sid =>
      { id := s.nextId, sid := sid, time := env.now, remoteIp := strlcpy maxIpStr ip }

/-- The request that a command from main with the return value `ret` was: sec-mod exits on
`ERR_BAD_COMMAND`. -/
def keepsRunning (fromMain : Bool) : Option ℤ → Bool
  | none => false
  | some ret => !(fromMain && ret == errBadCommand)

@[simp] theorem keepsRunning_errBadCommand : keepsRunning true (some errBadCommand) = false := rfl

/-- The state after a handler worked on an entry of the database. -/
def SecModSt.put (s : SecModSt) (fromMain : Bool) (out : SessionOut) : SecModSt :=
  { s with
    db := Table.update ClientEntry.id s.db out.entry
    running := keepsRunning fromMain out.ret
    trace := s.trace ++ out.events }

/-- The state after a request for which no entry was found. -/
def SecModSt.reply (s : SecModSt) (events : List Event) (ret : ℤ) : SecModSt :=
  { s with running := keepsRunning true (some ret), trace := s.trace ++ events }

variable (cfg : Config)

/-- Serve one request. -/
def SecModSt.serve (env : Env) (s : SecModSt) : Cmd → SecModSt
  | .authInit req =>
    match newClientEntry env s req.ip with
    | none => s
    | some e =>
      let out := handleAuthInit cfg env req e
      { s with
        db := out.entry :: s.db
        nextId := s.nextId + 1
        trace := s.trace ++ .created e.id e.sid :: out.events }
  | .authCont req =>
    if req.sid.length ≠ sidSize then s
    else
      match findClientEntry s.db req.sid with
      | none => s
      | some e =>
        let out := handleAuthCont cfg env req e
        s.put false ⟨out.entry, out.events, some out.ret⟩
  | .sessionOpen req =>
    let failed := sendFailedSessionOpenReply env none
    if req.sid.length ≠ sidSize then s.reply failed.1 (failed.2.getD 0)
    else
      match findClientEntry s.db req.sid with
      | none => s.reply failed.1 (failed.2.getD 0)
      | some e => s.put true (handleSessionOpen cfg env req e)
  | .sessionClose req =>
    if req.sid.length ≠ sidSize then s.reply [] errBadCommand
    else
      match findClientEntry s.db req.sid with
      | none => s.reply (if env.sendOk then [.cliStatsRep none 0 0] else [])
          (if env.sendOk then 0 else -1)
      | some e => s.put true (handleSessionClose env req e)
  | .cliStats req =>
    if req.sid.length ≠ sidSize then s
    else
      match findClientEntry s.db req.sid with
      | none => s
      | some e => s.put false (handleStatsCmd cfg req e)
  | .cleanup =>
    { s with
      db := s.db.filter fun e => !expired cfg env.now e
      trace := s.trace ++ (s.db.filter fun e => expired cfg env.now e).flatMap (cleanEntry cfg) }

/-- The machine of sec-mod. -/
def machine : Machine SecModSt (Cmd × Env) where
  step s := fun (cmd, env) => if s.running then some (s.serve cfg env cmd) else none

/-- Sec-mod when it starts. -/
def start : SecModSt := ⟨[], 0, true, []⟩

/-! ### A sample configuration -/

namespace Sample

/-- A configuration with one authentication method. -/
def config (method : AuthMethod) (acct : Option AcctMod) : Config where
  auth := [method]
  acct := acct
  supConfig := false
  maxBanScore := 0
  banPointsWrongPassword := 10
  cookieTimeout := 300
  predictableIps := false
  certUserOid := false
  certGroupOid := false
  hashAny _ := 0

/-- Everything succeeds, at the time `now`; `auth_init` asks for a password. -/
def environ (now : ℕ) : Env where
  now := now
  mem := true
  sendOk := true
  banReply := .reply .ok
  sids := [Vector.replicate sidSize 7]
  ipv4Seed := some 1
  encryptCookie cookie := some (1 :: cookie.sid)
  authInit := .askMore
  authInitCtx := true
  authMsg := 0
  authMsgStr := none
  authPass := 0
  authGroup := 0
  authGroupName := []
  authUserName := none
  openSession := 0
  supConfig := 0

/-- The SID that is drawn. -/
def sid : Bytes := List.replicate sidSize 7

def initMsg (tlsAuthOk : Bool) (authType : ℕ) : AuthInitMsg where
  tlsAuthOk := tlsAuthOk
  userName := some [117]
  groupName := none
  certUserName := some [117]
  certGroupNames := []
  hostname := none
  ip := [49]
  authType := authType

/-- A `SESSION_OPEN` with the cookie that was issued. -/
def openMsg : SessionMsg := ⟨sid, some (1 :: sid), none, none, none⟩

/-- A `SESSION_CLOSE` with its final counters. -/
def closeMsg (bytesIn bytesOut : UInt64) : SessionMsg :=
  ⟨sid, none, none, some bytesIn, some bytesOut⟩

def passwordLogin : List (Cmd × Env) :=
  [(.authInit (initMsg false authTypePlain), environ 1000),
    (.authCont ⟨sid, some [112]⟩, environ 1000)]

def certificateLogin : List (Cmd × Env) :=
  [(.authInit (initMsg true authTypeCertificate), environ 1000)]

end Sample

/-! ### One request -/

/-- The commands sec-mod takes from main only. -/
def Cmd.fromMain : Cmd → Bool
  | .sessionOpen _ | .sessionClose _ => true
  | _ => false

/-- The entry a request works on: the one it found, or the one made for it. -/
def Cmd.entry (env : Env) (s : SecModSt) : Cmd → Option ClientEntry
  | .authInit req => newClientEntry env s req.ip
  | .authCont req => if req.sid.length ≠ sidSize then none else findClientEntry s.db req.sid
  | .sessionOpen req | .sessionClose req =>
    if req.sid.length ≠ sidSize then none else findClientEntry s.db req.sid
  | .cliStats req => if req.sid.length ≠ sidSize then none else findClientEntry s.db req.sid
  | .cleanup => none

/-- What the handler of a request does to the entry it found. -/
inductive Handles (env : Env) (e : ClientEntry) : Cmd → SessionOut → Prop
  | authCont (req : AuthContMsg) : Handles env e (.authCont req)
      ⟨(handleAuthCont cfg env req e).entry, (handleAuthCont cfg env req e).events,
        some (handleAuthCont cfg env req e).ret⟩
  | sessionOpen (req : SessionMsg) :
      Handles env e (.sessionOpen req) (handleSessionOpen cfg env req e)
  | sessionClose (req : SessionMsg) :
      Handles env e (.sessionClose req) (handleSessionClose env req e)
  | cliStats (req : CliStatsMsg) : Handles env e (.cliStats req) (handleStatsCmd cfg req e)

/-- What one request can do to the state. -/
inductive Served (env : Env) (s : SecModSt) : Cmd → SecModSt → Prop
  /-- No entry was found. -/
  | nothing {cmd : Cmd} (running : Bool) (events : List Event)
      (hev : ∀ ev ∈ events, ev = .sessionRep none .failed ∨ ev = .cliStatsRep none 0 0) :
      Served env s cmd { s with running := running, trace := s.trace ++ events }
  /-- The request found an entry. -/
  | found {cmd : Cmd} {e : ClientEntry} {out : SessionOut}
      (hentry : cmd.entry env s = some e) (hmem : e ∈ s.db) (hout : Handles cfg env e cmd out) :
      Served env s cmd (s.put cmd.fromMain out)
  /-- The request made an entry. -/
  | created {req : AuthInitMsg} {e : ClientEntry} (hnew : newClientEntry env s req.ip = some e) :
      Served env s (.authInit req) { s with
        db := (handleAuthInit cfg env req e).entry :: s.db
        nextId := s.nextId + 1
        trace := s.trace ++ .created e.id e.sid :: (handleAuthInit cfg env req e).events }
  | cleanup :
      Served env s .cleanup { s with
        db := s.db.filter fun e => !expired cfg env.now e
        trace := s.trace ++ (s.db.filter fun e => expired cfg env.now e).flatMap (cleanEntry cfg) }

variable {cfg} {env : Env} {s s' : SecModSt} {e : ClientEntry}

theorem mem_of_findClientEntry {db : List ClientEntry} {sid : Bytes}
    (h : findClientEntry db sid = some e) : e ∈ db ∧ e.sid = sid :=
  ⟨List.mem_of_find?_eq_some h, by simpa using List.find?_some h⟩

/-- **What serving one request can do.** -/
theorem serve_cases (cfg : Config) (env : Env) (s : SecModSt) (cmd : Cmd) :
    Served cfg env s cmd (s.serve cfg env cmd) := by
  have hfailed : ∀ ev ∈ (sendFailedSessionOpenReply env none).1,
      ev = .sessionRep none .failed ∨ ev = .cliStatsRep none 0 0 :=
    fun ev hev => .inl (sendFailedSessionOpenReply_events _ ev hev)
  have hsame {cmd : Cmd} : Served cfg env s cmd s := by
    have h : Served cfg env s cmd { s with running := s.running, trace := s.trace ++ [] } :=
      .nothing s.running [] fun _ h => absurd h List.not_mem_nil
    rwa [List.append_nil] at h
  cases cmd with
  | authInit req =>
    unfold SecModSt.serve
    dsimp only
    split
    · exact hsame
    · rename_i e hnew
      exact .created hnew
  | authCont req =>
    unfold SecModSt.serve
    dsimp only
    split
    · exact hsame
    · rename_i hsid
      split
      · exact hsame
      · rename_i e hfind
        exact .found (by rw [Cmd.entry, if_neg hsid, hfind]) (mem_of_findClientEntry hfind).1
          (.authCont req)
  | sessionOpen req =>
    unfold SecModSt.serve
    dsimp only
    split
    · exact .nothing _ _ hfailed
    · rename_i hsid
      split
      · exact .nothing _ _ hfailed
      · rename_i e hfind
        exact .found (by rw [Cmd.entry, if_neg hsid, hfind]) (mem_of_findClientEntry hfind).1
          (.sessionOpen req)
  | sessionClose req =>
    unfold SecModSt.serve
    dsimp only
    split
    · exact .nothing _ _ (by simp)
    · rename_i hsid
      split
      · refine .nothing _ _ ?_
        split <;> simp
      · rename_i e hfind
        exact .found (by rw [Cmd.entry, if_neg hsid, hfind]) (mem_of_findClientEntry hfind).1
          (.sessionClose req)
  | cliStats req =>
    unfold SecModSt.serve
    dsimp only
    split
    · exact hsame
    · rename_i hsid
      split
      · exact hsame
      · rename_i e hfind
        exact .found (by rw [Cmd.entry, if_neg hsid, hfind]) (mem_of_findClientEntry hfind).1
          (.cliStats req)
  | cleanup => exact .cleanup

theorem step_eq_some {i : Cmd × Env} (h : (machine cfg).step s i = some s') :
    s.running = true ∧ s' = s.serve cfg i.2 i.1 := by
  simp only [machine, Option.ite_none_right_eq_some, Option.some.injEq] at h
  exact ⟨h.1, h.2.symm⟩

/-- A handler keeps the identity of its entry, and all its events are about it. -/
theorem Handles.frame {cmd : Cmd} {out : SessionOut} (h : Handles cfg env e cmd out) :
    out.entry.id = e.id ∧ out.entry.sid = e.sid ∧ ∀ ev ∈ out.events, ev.id? = some e.id := by
  cases h with
  | authCont req =>
    have h := (handleAuthCont_frame cfg env req e).1
    exact ⟨h.same.id_eq, h.same.sid_eq, fun ev hev => (h.events ev hev).1⟩
  | sessionOpen req =>
    have h := handleSessionOpen_frame cfg env req e
    exact ⟨h.id_eq, h.sid_eq, fun ev hev => (h.events ev hev).1⟩
  | sessionClose req =>
    have h := handleSessionClose_frame env req e
    exact ⟨h.id_eq, h.sid_eq, fun ev hev => (h.events ev hev).1⟩
  | cliStats req =>
    have h := handleStatsCmd_frame cfg req e
    exact ⟨h.id_eq, h.sid_eq, fun ev hev => (h.events ev hev).1⟩

/-- A new entry: its number and its SID are not in use, and it has no session yet. -/
structure IsNew (env : Env) (s : SecModSt) (e : ClientEntry) : Prop where
  id_eq : e.id = s.nextId
  sid_ne : ∀ e' ∈ s.db, e'.sid ≠ e.sid
  inUse_eq : e.inUse = 0
  time_eq : e.time = env.now
  stats_eq : e.stats = {}
  savedStats_eq : e.savedStats = {}

theorem drawSid_unused {db : List ClientEntry} {n : ℕ} {sids : List (Vector UInt8 sidSize)}
    {sid : Bytes} (h : drawSid db n sids = some sid) : ∀ e ∈ db, e.sid ≠ sid := by
  induction n generalizing sids with
  | zero => cases h
  | succ n ih =>
    cases sids with
    | nil => cases h
    | cons draw sids =>
      rw [drawSid] at h
      split at h
      · rename_i hfind
        cases h
        simpa [findClientEntry] using hfind
      · exact ih h

theorem newClientEntry_isNew {ip : Bytes} (h : newClientEntry env s ip = some e) :
    IsNew env s e := by
  unfold newClientEntry at h
  split at h
  · cases h
  · obtain ⟨sid, hsid, rfl⟩ := Option.map_eq_some_iff.1 h
    exact ⟨rfl, drawSid_unused hsid, rfl, rfl, rfl, rfl⟩

/-! ### All entries, along a run -/

/-- The database is a table: entries have different numbers and different SIDs, and what
happened so far is about numbers given out so far. -/
structure WF (s : SecModSt) : Prop where
  ids : (s.db.map ClientEntry.id).Nodup
  sids : (s.db.map ClientEntry.sid).Nodup
  lt : ∀ e ∈ s.db, e.id < s.nextId
  trace : ∀ ev ∈ s.trace, ∀ id, ev.id? = some id → id < s.nextId

theorem start_wf : WF start :=
  ⟨.nil, .nil, fun _ h => absurd h List.not_mem_nil, fun _ h => absurd h List.not_mem_nil⟩

theorem WF.update {out : SessionOut} (h : WF s) (hmem : e ∈ s.db) (fromMain : Bool)
    (hid : out.entry.id = e.id) (hsid : out.entry.sid = e.sid)
    (hev : ∀ ev ∈ out.events, ev.id? = some e.id) : WF (s.put fromMain out) := by
  refine ⟨?_, ?_, ?_, ?_⟩
  · show ((Table.update ClientEntry.id s.db out.entry).map ClientEntry.id).Nodup
    rw [Table.keys_update]
    exact h.ids
  · show ((Table.update ClientEntry.id s.db out.entry).map ClientEntry.sid).Nodup
    rw [Table.map_update ClientEntry.sid fun x hx hxid => ?_]
    · exact h.sids
    · rw [hsid, Table.eq_of_key_eq h.ids hx hmem (hxid.trans hid)]
  · intro x hx
    obtain rfl | ⟨hx, -⟩ := Table.mem_update hx
    · exact hid ▸ h.lt e hmem
    · exact h.lt x hx
  · intro ev hmem' id hevid
    rcases List.mem_append.1 hmem' with hmem' | hmem'
    · exact h.trace ev hmem' id hevid
    · rw [hev ev hmem'] at hevid
      cases hevid
      exact h.lt e hmem

theorem cleanEntry_events (e : ClientEntry) : ∀ ev ∈ cleanEntry cfg e, ev.id? = some e.id := by
  unfold cleanEntry authUserDeinit
  repeat' split
  all_goals simp [Event.id?]

theorem cleanup_events {now : ℕ} {ev : Event} {id : ℕ}
    (hev : ev ∈ (s.db.filter fun e => expired cfg now e).flatMap (cleanEntry cfg))
    (hid : ev.id? = some id) : ∃ e ∈ s.db, expired cfg now e = true ∧ e.id = id := by
  obtain ⟨e, he, hev⟩ := List.mem_flatMap.1 hev
  obtain ⟨he, hexp⟩ := List.mem_filter.1 he
  rw [cleanEntry_events e ev hev] at hid
  exact ⟨e, he, hexp, Option.some.inj hid⟩

theorem WF.serve (h : WF s) (cfg : Config) (env : Env) (cmd : Cmd) : WF (s.serve cfg env cmd) := by
  have hserved := serve_cases cfg env s cmd
  generalize s.serve cfg env cmd = s' at hserved
  cases hserved with
  | nothing running events hev =>
    refine ⟨h.ids, h.sids, h.lt, ?_⟩
    intro ev hmem id hid
    rcases List.mem_append.1 hmem with hmem | hmem
    · exact h.trace ev hmem id hid
    · obtain rfl | rfl := hev ev hmem <;> cases hid
  | found hentry hmem hout =>
    exact h.update hmem _ hout.frame.1 hout.frame.2.1 hout.frame.2.2
  | @created req e hnew =>
    have hnew := newClientEntry_isNew hnew
    have hframe := handleAuthInit_frame cfg env req e
    refine ⟨?_, ?_, ?_, ?_⟩
    · refine List.nodup_cons.2 ⟨?_, h.ids⟩
      intro hmem
      obtain ⟨x, hx, hxid⟩ := List.mem_map.1 hmem
      have := h.lt x hx
      rw [hxid, hframe.same.id_eq, hnew.id_eq] at this
      exact absurd this (Nat.lt_irrefl _)
    · refine List.nodup_cons.2 ⟨?_, h.sids⟩
      intro hmem
      obtain ⟨x, hx, hxsid⟩ := List.mem_map.1 hmem
      exact hnew.sid_ne x hx (hxsid.trans hframe.same.sid_eq)
    · intro x hx
      rcases List.mem_cons.1 hx with rfl | hx
      · rw [hframe.same.id_eq, hnew.id_eq]
        exact Nat.lt_succ_self _
      · exact Nat.lt_succ_of_lt (h.lt x hx)
    · intro ev hmem id hid
      rcases List.mem_append.1 hmem with hmem | hmem
      · exact Nat.lt_succ_of_lt (h.trace ev hmem id hid)
      · have : ev.id? = some e.id := by
          rcases List.mem_cons.1 hmem with rfl | hmem
          · rfl
          · exact (hframe.events ev hmem).1
        rw [this, hnew.id_eq] at hid
        cases hid
        exact Nat.lt_succ_self _
  | cleanup =>
    refine ⟨h.ids.sublist (List.filter_sublist.map _), h.sids.sublist (List.filter_sublist.map _),
      fun x hx => h.lt x (List.mem_filter.1 hx).1, fun ev hmem id hid => ?_⟩
    rcases List.mem_append.1 hmem with hmem | hmem
    · exact h.trace ev hmem id hid
    · obtain ⟨e, he, -, rfl⟩ := cleanup_events hmem hid
      exact h.lt e he

/-- The request meets the condition `C` on the entry it works on, what happened to that entry
so far, the request and its environment. -/
def OnEntry (C : ClientEntry → List Event → Cmd → Env → Prop) (s : SecModSt) (i : Cmd × Env) :
    Prop :=
  ∀ e, i.1.entry i.2 s = some e → C e (history e.id s.trace) i.1 i.2

instance OnEntry.decidable (C : ClientEntry → List Event → Cmd → Env → Prop)
    [∀ e t cmd env, Decidable (C e t cmd env)] (s : SecModSt) (i : Cmd × Env) :
    Decidable (OnEntry C s i) :=
  match h : i.1.entry i.2 s with
  | none => .isTrue (by simp [OnEntry, h])
  | some e => decidable_of_iff (C e (history e.id s.trace) i.1 i.2) (by simp [OnEntry, h])

/-- The invariant `I` on an entry and what happened to it holds of every entry. -/
structure Entries (I : ClientEntry → List Event → Prop) (s : SecModSt) : Prop where
  wf : WF s
  inv : s.running = true → ∀ e ∈ s.db, I e (history e.id s.trace)

section Entries

variable {I : ClientEntry → List Event → Prop} {C : ClientEntry → List Event → Cmd → Env → Prop}

/-- An entry that a request does not touch keeps its invariant. -/
theorem Entries.frame {x : ClientEntry} {evs : List Event} (hI : I x (history x.id s.trace))
    (hev : ∀ ev ∈ evs, ev.id? ≠ some x.id) : I x (history x.id (s.trace ++ evs)) := by
  rwa [history_append, history_of_ne hev, List.append_nil]

/-- **The invariant rule for entries.**  If the handlers of the requests that meet `C` establish
and preserve `I`, it holds of every entry in every state of a run whose requests meet `C`, as
long as sec-mod is running. -/
theorem entries_invariant
    (hinit : ∀ env s req e, IsNew env s e → C e [] (.authInit req) env →
      I (handleAuthInit cfg env req e).entry
        (.created e.id e.sid :: (handleAuthInit cfg env req e).events))
    (hstep : ∀ env cmd e h out, I e h → C e h cmd env → Handles cfg env e cmd out →
      keepsRunning cmd.fromMain out.ret = true → I out.entry (h ++ out.events))
    {is : List (Cmd × Env)} (hC : (machine cfg).Meets (OnEntry C) start is) :
    (machine cfg).Always (Entries I) start is := by
  refine Machine.always_of_step ?_ ⟨start_wf, fun _ _ h => absurd h List.not_mem_nil⟩ hC
  rintro s ⟨cmd, env⟩ s' ⟨hwf, hinv⟩ hC hs
  obtain ⟨hrun, rfl⟩ := step_eq_some hs
  refine ⟨hwf.serve cfg env cmd, ?_⟩
  have hserved := serve_cases cfg env s cmd
  generalize s.serve cfg env cmd = s' at hserved
  cases hserved with
  | nothing running events hev =>
    intro _ x hx
    refine Entries.frame (hinv hrun x hx) ?_
    intro ev hmem
    obtain rfl | rfl := hev ev hmem <;> nofun
  | @found _ e out hentry hmem hout =>
    intro hrun' x hx
    obtain ⟨hid, hsid, hev⟩ := hout.frame
    obtain rfl | ⟨hx, hne⟩ := Table.mem_update hx
    · rw [hid]
      show I out.entry (history e.id (s.trace ++ out.events))
      rw [history_append, history_of_all hev]
      exact hstep env cmd e _ out (hinv hrun e hmem) (hC e hentry) hout hrun'
    · refine Entries.frame (hinv hrun x hx) ?_
      intro ev hmem' h
      rw [hev ev hmem'] at h
      exact hne ((Option.some.inj h).symm.trans hid.symm)
  | @created req e hnew =>
    intro _ x hx
    have hisNew := newClientEntry_isNew hnew
    have hframe := handleAuthInit_frame cfg env req e
    have hall : ∀ ev ∈ .created e.id e.sid :: (handleAuthInit cfg env req e).events,
        ev.id? = some e.id := by
      intro ev hev
      rcases List.mem_cons.1 hev with rfl | hev
      · rfl
      · exact (hframe.events ev hev).1
    have hold : history e.id s.trace = [] := by
      refine history_of_ne ?_
      intro ev hev h
      have := hwf.trace ev hev e.id h
      rw [hisNew.id_eq] at this
      exact Nat.lt_irrefl _ this
    rcases List.mem_cons.1 hx with rfl | hx
    · rw [hframe.same.id_eq]
      show I _ (history e.id (s.trace ++ _))
      rw [history_append, hold, history_of_all hall]
      exact hinit env s req e hisNew (hold ▸ hC e hnew)
    · refine Entries.frame (hinv hrun x hx) ?_
      intro ev hmem h
      rw [hall ev hmem, hisNew.id_eq] at h
      have := hwf.lt x hx
      rw [← Option.some.inj h] at this
      exact Nat.lt_irrefl _ this
  | cleanup =>
    intro _ x hx
    obtain ⟨hx, hexp⟩ := List.mem_filter.1 hx
    refine Entries.frame (hinv hrun x hx) ?_
    intro ev hmem h
    obtain ⟨y, hy, hyexp, hid⟩ := cleanup_events hmem h
    rw [Table.eq_of_key_eq hwf.ids hy hx hid] at hyexp
    simp [hyexp] at hexp

end Entries

end SecMod

end Ocserv
