import Ocserv.SecMod.Entry

/-!
# Sec-mod: authentication

The handlers of `AUTH_INIT` and `AUTH_CONT` of `src/sec-mod-auth.c`, on the entry they work on.
Each returns the entry as it leaves it, the events and its return value.

The specifications at the end are all the rest of the development uses: `AuthFrame` for what a
request of a worker leaves alone, `handleAuthInit_status` and `handleAuthCont_status` for how an
entry gets its status.
-/

namespace Ocserv

namespace SecMod

/-- What a handler does to its entry. -/
structure Out where
  entry : ClientEntry
  events : List Event
  ret : ℤ
  deriving DecidableEq, Repr

/-- The events of what was done before come first. -/
def Out.after (events : List Event) (out : Out) : Out :=
  { out with events := events ++ out.events }

/-- A reply that cannot be sent makes the authentication fail. -/
def Out.orFail (out : Out) : Out :=
  if out.ret < 0 then { out with entry := out.entry.setStatus .failed } else out

variable (cfg : Config) (env : Env)

/-- `sec_mod_add_score_to_ip`. -/
def addScoreToIp (e : ClientEntry) (points : ℕ) : List Event × ℤ :=
  if cfg.maxBanScore = 0 then ([], 0)
  else if !env.mem then ([], 0)
  else (if env.banReply.sent then [.banIp e.id e.remoteIp points] else [], env.banReply.ret)

/-- `generate_cookie`: what is sealed, and the cookie. -/
def generateCookie (e : ClientEntry) : Option (Cookie × Bytes) := do
  let seed ← if cfg.predictableIps then some (cfg.hashAny e.username) else env.ipv4Seed
  let msg : Cookie :=
    { username := e.username
      groupname := e.groupname
      hostname := e.hostname
      ip := e.remoteIp
      tlsAuthOk := e.tlsAuthOk
      ipv4Seed := seed
      sid := e.sid
      expiration := ((env.now + cfg.cookieTimeout) % 2 ^ 32).toNat }
  let cookie ← env.encryptCookie msg
  return (msg, cookie)

/-- `send_sec_auth_reply` with `AUTH__REP__OK`. -/
def sendAuthReplyOk (e : ClientEntry) : Out :=
  match generateCookie cfg env e with
  | none => ⟨e, [], -1⟩
  | some (msg, cookie) =>
    let e := { e with cookie := cookie }
    if env.sendOk then ⟨{ e with msgStr := none }, [.authRepOk e.id cookie msg], 0⟩
    else ⟨e, [], -1⟩

/-- `send_sec_auth_reply` with `AUTH__REP__FAILED`. -/
def sendAuthReplyFailed (e : ClientEntry) : Out :=
  if env.sendOk then ⟨{ e with msgStr := none }, [.authRepFailed e.id], 0⟩ else ⟨e, [], -1⟩

/-- `send_sec_auth_reply_msg`. -/
def sendAuthReplyMsg (e : ClientEntry) : Out :=
  if env.sendOk then ⟨{ e with msgStr := none }, [.authRepMsg e.id], 0⟩
  else ⟨{ e with msgStr := none }, [], -1⟩

/-- The call of `auth_msg` in `handle_sec_auth_res`. -/
def getAuthMsg (e : ClientEntry) (result : ℤ) : Out :=
  match e.module with
  | some m =>
    if result = errAuthContinue ∨ result = 0 then
      ⟨{ e with msgStr := env.authMsgStr }, [.call e.id m .authMsg e.authCtx env.authMsg],
        env.authMsg⟩
    else ⟨e, [], 0⟩
  | none => ⟨e, [], 0⟩

/-- The module allows more than one attempt. -/
def allowsRetries (e : ClientEntry) : Bool :=
  match e.module with
  | some m => m.allowsRetries
  | none => false

/-- `handle_sec_auth_res` for `ERR_AUTH_CONTINUE`. -/
def handleAuthContinue (e : ClientEntry) : Out :=
  if e.status ≠ .init ∧ allowsRetries e then
    let score := addScoreToIp cfg env e cfg.banPointsWrongPassword
    if score.2 < 0 then (sendAuthReplyFailed env (e.setStatus .failed)).after score.1
    else (sendAuthReplyMsg env e).orFail.after score.1
  else (sendAuthReplyMsg env e).orFail

/-- The call of `auth_user` in `handle_sec_auth_res`. -/
def getAuthUser (e : ClientEntry) : Out :=
  match e.module with
  | some m => ⟨{ e with username := env.authUserName.getD e.username },
      [.call e.id m .authUser e.authCtx 0], 0⟩
  | none => ⟨e, [], 0⟩

/-- `handle_sec_auth_res` for the result `0`. -/
def handleAuthSuccess (e : ClientEntry) : Out :=
  let user := getAuthUser env (e.setStatus .completed)
  (sendAuthReplyOk cfg env user.entry).orFail.after user.events

/-- `handle_sec_auth_res` for any other result. -/
def handleAuthFailure (e : ClientEntry) (result : ℤ) : Out :=
  let e := e.setStatus .failed
  let score := addScoreToIp cfg env e cfg.banPointsWrongPassword
  let out := sendAuthReplyFailed env e
  { out.after score.1 with
    ret := if out.ret < 0 then out.ret else if result < 0 then result else errBadCommand }

/-- `handle_sec_auth_res`. -/
def handleAuthRes (e : ClientEntry) (result : ℤ) : Out :=
  let msg := getAuthMsg env e result
  if msg.ret < 0 then msg.orFail
  else if result = errAuthContinue then (handleAuthContinue cfg env msg.entry).after msg.events
  else if result = 0 then (handleAuthSuccess cfg env msg.entry).after msg.events
  else (handleAuthFailure cfg env msg.entry result).after msg.events

/-- `set_module`. -/
def setModule (authType : ℕ) : Option AuthMethod :=
  if authType = 0 then none
  else cfg.auth.find? fun m => m.enabled && m.type &&& authType == authType

/-- The part of `handle_sec_auth_init` that asks the module: the error, or whether the module
asked for more. -/
def initModule (req : AuthInitMsg) (e : ClientEntry) :
    ClientEntry × List Event × Except ℤ Bool :=
  match e.module with
  | none => (e, [], .ok false)
  | some m =>
    let e := if env.authInitCtx then { e with authCtx := some m } else e
    let initCall := .call e.id m .authInit none env.authInit.1
    if env.authInit.1 ≠ errAuthContinue ∧ env.authInit.1 < 0 then
      (e, [initCall], .error env.authInit.1)
    else
      let calls := [initCall, .call e.id m .authGroup e.authCtx env.authGroup]
      let e := { e with groupname := strlcpy maxGroupnameSize env.authGroupName }
      if env.authGroup ≠ 0 then (e, calls, .error (-1))
      else
        let e := match req.userName with
          | some name => { e with username := strlcpy (maxUsernameSize * 2) name }
          | none => e
        (e, calls, .ok (env.authInit.1 = errAuthContinue))

/-- The group of the certificate that was requested; `none` if it has no such group. -/
def certGroup (req : AuthInitMsg) (e : ClientEntry) : Option ClientEntry :=
  if e.authType &&& authTypeCertificate = 0 then some e
  else
    match req.groupName with
    | none => some e
    | some name =>
      if e.groupname = [] ∧ cfg.certGroupOid then
        if name ∈ req.certGroupNames then
          some { e with groupname := strlcpy maxGroupnameSize name }
        else none
      else some e

/-- `check_user_group_status`: the entry, and whether the check succeeded. -/
def checkUserGroupStatus (req : AuthInitMsg) (e : ClientEntry) : ClientEntry × Bool :=
  if e.authType &&& authTypeCertificate = 0 then (e, true)
  else if !req.tlsAuthOk then (e, false)
  else
    let e := { e with tlsAuthOk := req.tlsAuthOk }
    if e.username = [] ∧ cfg.certUserOid then
      match req.certUserName with
      | none => (e, false)
      | some name =>
        let e := { e with username := strlcpy (maxUsernameSize * 2) name }
        match req.certGroupNames with
        | group :: _ =>
          if cfg.certGroupOid ∧ e.groupname = [] then
            ({ e with groupname := strlcpy maxGroupnameSize group }, true)
          else (e, true)
        | [] => (e, true)
    else if cfg.certUserOid ∧ req.certUserName.any (e.username ≠ ·) then (e, false)
    else if cfg.certGroupOid ∧ e.groupname ∉ req.certGroupNames then (e, false)
    else (e, true)

/-- The entry after `set_module` found a method and the host name was copied. -/
def chooseMethod (req : AuthInitMsg) (method : AuthMethod) (e : ClientEntry) : ClientEntry :=
  { e with
    module := method.amod
    authType := method.type
    hostname := (req.hostname.map (strlcpy maxHostnameSize)).getD e.hostname }

/-- `handle_sec_auth_init`, on the entry made for it. -/
def handleAuthInit (req : AuthInitMsg) (e : ClientEntry) : Out :=
  match setModule cfg req.authType with
  | none => handleAuthRes cfg env e (-1)
  | some method =>
    match initModule env req (chooseMethod req method e) with
    | (e, calls, .error ret) => (handleAuthRes cfg env e ret).after calls
    | (e, calls, .ok needContinue) =>
      match certGroup cfg req e with
      | none => (handleAuthRes cfg env e (-1)).after calls
      | some e =>
        match checkUserGroupStatus cfg req e with
        | (e, false) => (handleAuthRes cfg env e (-1)).after calls
        | (e, true) =>
          let result := if needContinue then errAuthContinue else 0
          (handleAuthRes cfg env (e.setStatus .init) result).after
            (calls ++ [.checked e.id])

/-- `handle_sec_auth_cont`, on the entry found for it. -/
def handleAuthCont (req : AuthContMsg) (e : ClientEntry) : Out :=
  if e.status ≠ .init ∧ e.status ≠ .cont then handleAuthRes cfg env e (-1)
  else if req.password = none then handleAuthRes cfg env e (-1)
  else
    match e.module with
    | none => handleAuthRes cfg env e (-1)
    | some m =>
      (handleAuthRes cfg env (e.setStatus .cont) env.authPass).after
        [.call e.id m .authPass e.authCtx env.authPass]

/-! ### What the handlers leave alone -/

/-- The fields of an entry that belong to its sessions. -/
structure SameSessions (e e' : ClientEntry) : Prop where
  id_eq : e'.id = e.id
  sid_eq : e'.sid = e.sid
  inUse_eq : e'.inUse = e.inUse
  time_eq : e'.time = e.time
  stats_eq : e'.stats = e.stats
  savedStats_eq : e'.savedStats = e.savedStats
  sessionIsOpen_eq : e'.sessionIsOpen = e.sessionIsOpen

/-- What `handle_sec_auth_res` and its parts do: they touch neither the sessions nor the module,
and their events are about authentication, the results of the module apart. -/
structure ResFrame (e : ClientEntry) (out : Out) : Prop where
  same : SameSessions e out.entry
  module_eq : out.entry.module = e.module
  events : ∀ ev ∈ out.events, ev.id? = some e.id ∧ ev.isAuth = true ∧ ev.result? = none

variable {cfg env} {e e₁ e₂ : ClientEntry} {evs : List Event} {out : Out}

theorem SameSessions.trans (h₁ : SameSessions e e₁) (h₂ : SameSessions e₁ e₂) :
    SameSessions e e₂ :=
  ⟨h₂.id_eq.trans h₁.id_eq, h₂.sid_eq.trans h₁.sid_eq, h₂.inUse_eq.trans h₁.inUse_eq,
    h₂.time_eq.trans h₁.time_eq, h₂.stats_eq.trans h₁.stats_eq,
    h₂.savedStats_eq.trans h₁.savedStats_eq, h₂.sessionIsOpen_eq.trans h₁.sessionIsOpen_eq⟩

theorem SameSessions.refl (e : ClientEntry) : SameSessions e e :=
  ⟨rfl, rfl, rfl, rfl, rfl, rfl, rfl⟩

theorem SameSessions.setStatus (e : ClientEntry) (status : Status) :
    SameSessions e (e.setStatus status) :=
  ⟨rfl, rfl, rfl, rfl, rfl, rfl, rfl⟩

namespace ResFrame

/-- A step that writes other fields of the entry. -/
theorem of_same (hs : SameSessions e e₁) (hm : e₁.module = e.module) (h : ResFrame e₁ out) :
    ResFrame e out :=
  ⟨hs.trans h.same, h.module_eq.trans hm, fun ev hev => hs.id_eq ▸ h.events ev hev⟩

theorem after (hev : ∀ ev ∈ evs, ev.id? = some e.id ∧ ev.isAuth = true ∧ ev.result? = none)
    (h : ResFrame e out) : ResFrame e (out.after evs) := by
  refine ⟨h.same, h.module_eq, ?_⟩
  intro ev hmem
  rcases List.mem_append.1 hmem with hmem | hmem
  · exact hev ev hmem
  · exact h.events ev hmem

theorem orFail (h : ResFrame e out) : ResFrame e out.orFail := by
  unfold Out.orFail
  split
  · exact ⟨h.same.trans (.setStatus _ _), h.module_eq, h.events⟩
  · exact h

end ResFrame

theorem addScoreToIp_events (cfg : Config) (env : Env) (e : ClientEntry) (points : ℕ) :
    ∀ ev ∈ (addScoreToIp cfg env e points).1,
      ev.id? = some e.id ∧ ev.isAuth = true ∧ ev.result? = none := by
  unfold addScoreToIp
  repeat' split
  all_goals simp [Event.id?, Event.isAuth, Event.result?]

theorem sendAuthReplyFailed_frame (env : Env) (e : ClientEntry) :
    ResFrame e (sendAuthReplyFailed env e) := by
  unfold sendAuthReplyFailed
  split <;>
    exact ⟨⟨rfl, rfl, rfl, rfl, rfl, rfl, rfl⟩, rfl,
      by simp [Event.id?, Event.isAuth, Event.result?]⟩

theorem sendAuthReplyMsg_frame (e : ClientEntry) : ResFrame e (sendAuthReplyMsg env e) := by
  unfold sendAuthReplyMsg
  split <;>
    exact ⟨⟨rfl, rfl, rfl, rfl, rfl, rfl, rfl⟩, rfl,
      by simp [Event.id?, Event.isAuth, Event.result?]⟩

theorem sendAuthReplyOk_frame (e : ClientEntry) : ResFrame e (sendAuthReplyOk cfg env e) := by
  unfold sendAuthReplyOk
  split
  · exact ⟨.refl e, rfl, by simp⟩
  · dsimp only
    split <;>
      exact ⟨⟨rfl, rfl, rfl, rfl, rfl, rfl, rfl⟩, rfl,
        by simp [Event.id?, Event.isAuth, Event.result?]⟩

theorem getAuthMsg_frame (env : Env) (e : ClientEntry) (result : ℤ) :
    ResFrame e (getAuthMsg env e result) := by
  unfold getAuthMsg
  split
  · split
    · exact ⟨⟨rfl, rfl, rfl, rfl, rfl, rfl, rfl⟩, rfl,
        by simp [Event.id?, Event.isAuth, Event.result?]⟩
    · exact ⟨.refl e, rfl, by simp⟩
  · exact ⟨.refl e, rfl, by simp⟩

theorem getAuthUser_frame (env : Env) (e : ClientEntry) : ResFrame e (getAuthUser env e) := by
  unfold getAuthUser
  split
  · exact ⟨⟨rfl, rfl, rfl, rfl, rfl, rfl, rfl⟩, rfl,
      by simp [Event.id?, Event.isAuth, Event.result?]⟩
  · exact ⟨.refl e, rfl, by simp⟩

theorem handleAuthContinue_frame (e : ClientEntry) :
    ResFrame e (handleAuthContinue cfg env e) := by
  unfold handleAuthContinue
  split
  · dsimp only
    split
    · exact .after (addScoreToIp_events _ _ e _)
        (.of_same (.setStatus e .failed) rfl (sendAuthReplyFailed_frame _ _))
    · exact .after (addScoreToIp_events _ _ e _) (sendAuthReplyMsg_frame e).orFail
  · exact (sendAuthReplyMsg_frame e).orFail

theorem handleAuthSuccess_frame (e : ClientEntry) : ResFrame e (handleAuthSuccess cfg env e) := by
  have huser := getAuthUser_frame env (e.setStatus .completed)
  exact .after huser.events (.of_same ((SameSessions.setStatus e _).trans huser.same)
    huser.module_eq (sendAuthReplyOk_frame _).orFail)

theorem handleAuthFailure_frame (e : ClientEntry) (result : ℤ) :
    ResFrame e (handleAuthFailure cfg env e result) := by
  have h := ResFrame.of_same (.setStatus e .failed) rfl
    (.after (addScoreToIp_events cfg env _ cfg.banPointsWrongPassword)
      (sendAuthReplyFailed_frame env _))
  exact ⟨h.same, h.module_eq, h.events⟩

theorem handleAuthRes_frame (cfg : Config) (env : Env) (e : ClientEntry) (result : ℤ) :
    ResFrame e (handleAuthRes cfg env e result) := by
  have hmsg := getAuthMsg_frame env e result
  unfold handleAuthRes
  dsimp only
  split
  · exact hmsg.orFail
  · split
    · exact .after hmsg.events (.of_same hmsg.same hmsg.module_eq (handleAuthContinue_frame _))
    · split
      · exact .after hmsg.events (.of_same hmsg.same hmsg.module_eq (handleAuthSuccess_frame _))
      · exact .after hmsg.events (.of_same hmsg.same hmsg.module_eq (handleAuthFailure_frame _ _))

theorem initModule_frame (env : Env) (req : AuthInitMsg) (e : ClientEntry) :
    SameSessions e (initModule env req e).1 ∧
      ∀ ev ∈ (initModule env req e).2.1, ev.id? = some e.id ∧ ev.isAuth = true := by
  unfold initModule
  repeat' split
  all_goals exact ⟨⟨rfl, rfl, rfl, rfl, rfl, rfl, rfl⟩, by simp [Event.id?, Event.isAuth]⟩

theorem certGroup_frame {req : AuthInitMsg} {e e' : ClientEntry}
    (h : certGroup cfg req e = some e') : SameSessions e e' ∧ e'.module = e.module := by
  unfold certGroup at h
  repeat' split at h
  all_goals cases h
  all_goals exact ⟨⟨rfl, rfl, rfl, rfl, rfl, rfl, rfl⟩, rfl⟩

theorem checkUserGroupStatus_frame (cfg : Config) (req : AuthInitMsg) (e : ClientEntry) :
    SameSessions e (checkUserGroupStatus cfg req e).1 ∧
      (checkUserGroupStatus cfg req e).1.module = e.module := by
  unfold checkUserGroupStatus
  dsimp only
  repeat' split
  all_goals exact ⟨⟨rfl, rfl, rfl, rfl, rfl, rfl, rfl⟩, rfl⟩

/-! ### How an entry gets its status -/

/-- What the authentication of an entry can lead to: the events `evs` follow the result of the
module. -/
inductive AuthStatus (e : ClientEntry) (result : ℤ) (out : Out) : Prop
  | failed (h : out.entry.status = .failed)
  | goesOn (h : out.entry.status = e.status) (hres : result = errAuthContinue)
  | completed (h : out.entry.status = .completed) (hres : result = 0) (evs : List Event)
      (sealed : Cookie)
      (hev : out.events = evs ++ [.authRepOk e.id out.entry.cookie sealed])

theorem AuthStatus.after {result : ℤ} (h : AuthStatus e result out) (evs : List Event) :
    AuthStatus e result (out.after evs) := by
  cases h with
  | failed h => exact .failed h
  | goesOn h hres => exact .goesOn h hres
  | completed h hres evs' sealed hev =>
    exact .completed h hres (evs ++ evs') sealed
      (by simp only [Out.after, hev, List.append_assoc])

theorem handleAuthContinue_status (e : ClientEntry) :
    AuthStatus e errAuthContinue (handleAuthContinue cfg env e) := by
  have hmsg : AuthStatus e errAuthContinue (sendAuthReplyMsg env e).orFail := by
    unfold Out.orFail
    split
    · exact .failed rfl
    · refine .goesOn ?_ rfl
      unfold sendAuthReplyMsg
      split <;> rfl
  have hfail : (sendAuthReplyFailed env (e.setStatus .failed)).entry.status = .failed := by
    unfold sendAuthReplyFailed
    split <;> rfl
  unfold handleAuthContinue
  split
  · dsimp only
    split
    · exact (AuthStatus.failed hfail).after _
    · exact hmsg.after _
  · exact hmsg

/-- The reply with the cookie fails, or is sent. -/
theorem sendAuthReplyOk_spec (cfg : Config) (env : Env) (e : ClientEntry) :
    (sendAuthReplyOk cfg env e).ret < 0 ∨
    ∃ cookie sealed, sendAuthReplyOk cfg env e =
      ⟨{ e with cookie := cookie, msgStr := none }, [.authRepOk e.id cookie sealed], 0⟩ := by
  unfold sendAuthReplyOk
  split
  · exact .inl (Int.negSucc_lt_zero 0)
  · dsimp only
    split
    · exact .inr ⟨_, _, rfl⟩
    · exact .inl (Int.negSucc_lt_zero 0)

theorem handleAuthSuccess_status (e : ClientEntry) :
    AuthStatus e 0 (handleAuthSuccess cfg env e) := by
  have hid := (getAuthUser_frame env (e.setStatus .completed)).same.id_eq
  have hstatus : (getAuthUser env (e.setStatus .completed)).entry.status = .completed := by
    unfold getAuthUser
    split <;> rfl
  refine AuthStatus.after ?_ _
  generalize (getAuthUser env (e.setStatus .completed)).entry = u at hid hstatus
  unfold Out.orFail
  rcases sendAuthReplyOk_spec cfg env u with hret | ⟨cookie, sealed, hout⟩
  · rw [if_pos hret]
    exact .failed rfl
  · rw [hout, if_neg (by simp)]
    exact .completed hstatus rfl [] sealed (by rw [hid]; rfl)

theorem handleAuthFailure_status (e : ClientEntry) (result : ℤ) :
    AuthStatus e result (handleAuthFailure cfg env e result) := by
  refine .failed ?_
  simp only [handleAuthFailure, Out.after, sendAuthReplyFailed]
  split <;> rfl

/-- Only the status and the identity of the entry matter. -/
theorem AuthStatus.of_eq {result : ℤ} (hid : e₁.id = e.id) (hs : e₁.status = e.status)
    (h : AuthStatus e₁ result out) : AuthStatus e result out := by
  cases h with
  | failed h => exact .failed h
  | goesOn h hres => exact .goesOn (h.trans hs) hres
  | completed h hres evs sealed hev => exact .completed h hres evs sealed (hid ▸ hev)

/-- **`handle_sec_auth_res`**: the entry fails; or it stays as it is, waiting for more; or it is
completed, on the result `0`, and the cookie of the reply is that of the entry. -/
theorem handleAuthRes_status (cfg : Config) (env : Env) (e : ClientEntry) (result : ℤ) :
    AuthStatus e result (handleAuthRes cfg env e result) := by
  have hid := (getAuthMsg_frame env e result).same.id_eq
  have hstatus : (getAuthMsg env e result).entry.status = e.status := by
    unfold getAuthMsg
    repeat' split
    all_goals rfl
  unfold handleAuthRes
  dsimp only
  split
  · rename_i hret
    exact .failed (by rw [Out.orFail, if_pos hret]; rfl)
  · refine .of_eq hid hstatus ?_
    split
    · rename_i hres
      exact hres ▸ (handleAuthContinue_status _).after _
    · split
      · rename_i hres
        exact hres ▸ (handleAuthSuccess_status _).after _
      · exact (handleAuthFailure_status _ _).after _

/-- An error of `handle_sec_auth_res` other than a request for more makes the entry fail. -/
theorem handleAuthRes_error {e : ClientEntry} {result : ℤ} (h₀ : result ≠ 0)
    (h₁ : result ≠ errAuthContinue) :
    (handleAuthRes cfg env e result).entry.status = .failed := by
  cases handleAuthRes_status cfg env e result with
  | failed h => exact h
  | goesOn _ hres => exact absurd hres h₁
  | completed _ hres => exact absurd hres h₀

/-! ### The requests of a worker -/

/-- What `AUTH_INIT` and `AUTH_CONT` leave alone: the sessions of the entry. -/
structure AuthFrame (e : ClientEntry) (out : Out) : Prop where
  same : SameSessions e out.entry
  events : ∀ ev ∈ out.events, ev.id? = some e.id ∧ ev.isAuth = true

theorem ResFrame.authFrame (h : ResFrame e out) : AuthFrame e out :=
  ⟨h.same, fun ev hev => ⟨(h.events ev hev).1, (h.events ev hev).2.1⟩⟩

namespace AuthFrame

theorem of_same (hs : SameSessions e e₁) (h : AuthFrame e₁ out) : AuthFrame e out :=
  ⟨hs.trans h.same, fun ev hev => hs.id_eq ▸ h.events ev hev⟩

theorem after (hev : ∀ ev ∈ evs, ev.id? = some e.id ∧ ev.isAuth = true)
    (h : AuthFrame e out) : AuthFrame e (out.after evs) := by
  refine ⟨h.same, ?_⟩
  intro ev hmem
  rcases List.mem_append.1 hmem with hmem | hmem
  · exact hev ev hmem
  · exact h.events ev hmem

end AuthFrame

theorem ResFrame.results_eq (h : ResFrame e out) : results out.events = [] :=
  List.filterMap_eq_nil_iff.2 fun ev hev => (h.events ev hev).2.2

/-- The module is kept, and unless it asked for more it accepted. -/
theorem initModule_ok {req : AuthInitMsg} {e e' : ClientEntry} {calls : List Event}
    {needContinue : Bool} (h : initModule env req e = (e', calls, .ok needContinue)) :
    e'.module = e.module ∧ e'.status = e.status ∧
      (needContinue = false →
        (e.module = none ∧ results calls = []) ∨
        ∃ m, e.module = some m ∧ results calls = [(.authInit, 0)]) := by
  unfold initModule at h
  split at h
  · rename_i hm
    cases h
    exact ⟨rfl, rfl, fun _ => .inl ⟨hm, rfl⟩⟩
  · rename_i m hm
    dsimp only at h
    split at h
    · cases h
    · rename_i hret
      split at h
      · cases h
      · cases h
        refine ⟨?_, ?_, fun hc => .inr ⟨m, hm, ?_⟩⟩
        · repeat' split
          all_goals rfl
        · repeat' split
          all_goals rfl
        · -- no module returns a positive result
          have hle := env.authInit.property
          simp only [decide_eq_false_iff_not] at hc
          have hzero : (env.authInit : ℤ) = 0 := by omega
          rw [hzero]
          rfl

/-- The error of a module is not a request for more. -/
theorem initModule_error {req : AuthInitMsg} {e e' : ClientEntry} {calls : List Event} {ret : ℤ}
    (h : initModule env req e = (e', calls, .error ret)) :
    ret ≠ 0 ∧ ret ≠ errAuthContinue := by
  unfold initModule at h
  split at h
  · cases h
  · dsimp only at h
    split at h
    · cases h
      omega
    · split at h
      · cases h
        decide
      · cases h

/-- **`handle_sec_auth_init`**: it stops with an error, or its checks succeed and the
authentication goes on with what the module answered. -/
theorem handleAuthInit_cases (cfg : Config) (env : Env) (req : AuthInitMsg) (e : ClientEntry) :
    (AuthFrame e (handleAuthInit cfg env req e) ∧
      (handleAuthInit cfg env req e).entry.status = .failed) ∨
    ∃ e₁ calls result, SameSessions e e₁ ∧ e₁.status = .init ∧
      (∀ ev ∈ calls, ev.id? = some e.id ∧ ev.isAuth = true) ∧
      handleAuthInit cfg env req e =
        (handleAuthRes cfg env e₁ result).after (calls ++ [.checked e.id]) ∧
      (result = 0 → (e₁.module = none ∧ results calls = []) ∨
        ∃ m, e₁.module = some m ∧ results calls = [(.authInit, 0)]) := by
  have stops {e₁ : ClientEntry} {calls : List Event} {result : ℤ} (hs : SameSessions e e₁)
      (hcalls : ∀ ev ∈ calls, ev.id? = some e.id ∧ ev.isAuth = true)
      (hres : result ≠ 0 ∧ result ≠ errAuthContinue) :
      AuthFrame e ((handleAuthRes cfg env e₁ result).after calls) ∧
        ((handleAuthRes cfg env e₁ result).after calls).entry.status = .failed :=
    ⟨.after hcalls (.of_same hs (handleAuthRes_frame _ _ e₁ result).authFrame),
      handleAuthRes_error hres.1 hres.2⟩
  unfold handleAuthInit
  split
  · exact .inl ⟨(handleAuthRes_frame _ _ e _).authFrame,
      handleAuthRes_error (by decide) (by decide)⟩
  · rename_i method _
    have hchoose : SameSessions e (chooseMethod req method e) := ⟨rfl, rfl, rfl, rfl, rfl, rfl, rfl⟩
    obtain ⟨hsame, hevs⟩ := initModule_frame env req (chooseMethod req method e)
    split <;> rename_i e₁ calls _ hinit <;> rw [hinit] at hsame hevs
    · exact .inl (stops (hchoose.trans hsame) hevs (initModule_error hinit))
    · obtain ⟨hmod, hstatus, hres⟩ := initModule_ok hinit
      split
      · exact .inl (stops (hchoose.trans hsame) hevs (by decide))
      · rename_i e₂ hgroup
        obtain ⟨hsame₂, hmod₂⟩ := certGroup_frame hgroup
        obtain ⟨hsame₃, hmod₃⟩ := checkUserGroupStatus_frame cfg req e₂
        have hs := ((hchoose.trans hsame).trans hsame₂).trans hsame₃
        split <;> rename_i e₃ hcheck <;> rw [hcheck] at hsame₃ hmod₃ hs
        · exact .inl (stops hs hevs (by decide))
        · refine .inr ⟨e₃.setStatus .init, calls, _, hs.trans (.setStatus _ _), rfl, hevs,
            by rw [hs.id_eq], fun hc => ?_⟩
          have hm : e₃.module = (chooseMethod req method e).module :=
            hmod₃.trans (hmod₂.trans hmod)
          have hcont := hres (by
            split at hc
            · exact absurd hc (by decide)
            · rename_i hcont
              simpa using hcont)
          rw [← hm] at hcont
          exact hcont

theorem handleAuthInit_frame (cfg : Config) (env : Env) (req : AuthInitMsg) (e : ClientEntry) :
    AuthFrame e (handleAuthInit cfg env req e) := by
  obtain ⟨h, -⟩ | ⟨e₁, calls, result, hs, -, hcalls, heq, -⟩ :=
    handleAuthInit_cases cfg env req e
  · exact h
  · rw [heq]
    refine .after ?_ (.of_same hs (handleAuthRes_frame _ _ e₁ result).authFrame)
    simpa [or_imp, forall_and, Event.id?, Event.isAuth] using hcalls

theorem handleAuthCont_frame (cfg : Config) (env : Env) (req : AuthContMsg) (e : ClientEntry) :
    AuthFrame e (handleAuthCont cfg env req e) ∧
      (handleAuthCont cfg env req e).entry.module = e.module := by
  have stops : AuthFrame e (handleAuthRes cfg env e (-1)) ∧
      (handleAuthRes cfg env e (-1)).entry.module = e.module :=
    ⟨(handleAuthRes_frame _ _ e _).authFrame, (handleAuthRes_frame _ _ e _).module_eq⟩
  unfold handleAuthCont
  split
  · exact stops
  · split
    · exact stops
    · split
      · exact stops
      · have h := handleAuthRes_frame cfg env (e.setStatus .cont) env.authPass
        exact ⟨.after (by simp [Event.id?, Event.isAuth])
          (.of_same (.setStatus e .cont) h.authFrame), h.module_eq⟩

/-- The module accepted, with the result `0` of `auth_init` or of `auth_pass`; or there is no
module to ask. -/
def Accepted (module : Option AuthMod) (t : List Event) : Prop :=
  match module with
  | none => results t = []
  | some _ => ∃ cb, lastResult t = some (cb, 0)

/-- The cookie of the entry is the one a reply carried; before that reply the checks of
`handle_sec_auth_init` succeeded and the module accepted, and after it nothing was done for the
authentication of the entry. -/
def Issued (e : ClientEntry) (t : List Event) : Prop :=
  ∃ pre sealed post, t = pre ++ .authRepOk e.id e.cookie sealed :: post ∧
    .checked e.id ∈ pre ∧ Accepted e.module pre ∧ ∀ ev ∈ post, ev.isAuth = false

theorem handleAuthInit_status (cfg : Config) (env : Env) (req : AuthInitMsg) (e : ClientEntry) :
    let out := handleAuthInit cfg env req e
    out.entry.status = .failed ∨ out.entry.status = .init ∧ .checked e.id ∈ out.events ∨
      out.entry.status = .completed ∧ Issued out.entry out.events := by
  dsimp only
  obtain ⟨-, h⟩ | ⟨e₁, calls, result, hs, hinit, -, heq, hres⟩ :=
    handleAuthInit_cases cfg env req e
  · exact .inl h
  · rw [heq]
    have hframe := handleAuthRes_frame cfg env e₁ result
    cases handleAuthRes_status cfg env e₁ result with
    | failed h => exact .inl h
    | goesOn h => exact .inr (.inl ⟨h.trans hinit, by simp [Out.after]⟩)
    | completed h h₀ evs sealed hev =>
      have hid : (handleAuthRes cfg env e₁ result).entry.id = e.id :=
        hframe.same.id_eq.trans hs.id_eq
      refine .inr (.inr ⟨h, calls ++ [.checked e.id] ++ evs, sealed, [], ?_, ?_, ?_, by simp⟩)
      · simp only [Out.after, hev, List.append_assoc, hframe.same.id_eq]
      · simp [Out.after, hid]
      · have hevs : results evs = [] := by
          have := hframe.results_eq
          rw [hev, results_append] at this
          exact (List.append_eq_nil_iff.1 this).1
        have hpre : results (calls ++ [.checked e.id] ++ evs) = results calls := by
          rw [results_append, results_append, hevs, List.append_nil]
          exact List.append_nil _
        show Accepted (handleAuthRes cfg env e₁ result).entry.module _
        rw [hframe.module_eq]
        obtain ⟨hm, hr⟩ | ⟨m, hm, hcalls⟩ := hres h₀ <;> rw [hm]
        · exact hpre.trans hr
        · exact ⟨.authInit, by rw [lastResult, hpre, hcalls]; rfl⟩

/-- `handle_sec_auth_cont` goes on only from the two states in which it is expected, and
completes the authentication only on the result `0` of `auth_pass`. -/
theorem handleAuthCont_status (cfg : Config) (env : Env) (req : AuthContMsg) (e : ClientEntry)
    (t : List Event) :
    let out := handleAuthCont cfg env req e
    out.entry.status = .failed ∨ (e.status = .init ∨ e.status = .cont) ∧
      (out.entry.status = .cont ∨ out.entry.status = .completed ∧
        (.checked e.id ∈ t → Issued out.entry (t ++ out.events))) := by
  have stops : (handleAuthRes cfg env e (-1)).entry.status = .failed :=
    handleAuthRes_error (by decide) (by decide)
  unfold handleAuthCont
  dsimp only
  split
  · exact .inl stops
  · rename_i hstatus
    split
    · exact .inl stops
    · split
      · exact .inl stops
      · rename_i m hm
        have hframe := handleAuthRes_frame cfg env (e.setStatus .cont) env.authPass
        have hfrom : e.status = .init ∨ e.status = .cont := by
          by_contra hc
          exact hstatus (not_or.1 hc)
        cases handleAuthRes_status cfg env (e.setStatus .cont) env.authPass with
        | failed h => exact .inl h
        | goesOn h => exact .inr ⟨hfrom, .inl h⟩
        | completed h h₀ evs sealed hev =>
          refine .inr ⟨hfrom, .inr ⟨h, ?_⟩⟩
          intro hck
          refine ⟨t ++ .call e.id m .authPass e.authCtx env.authPass :: evs, sealed, [], ?_,
            List.mem_append_left _ (hframe.same.id_eq ▸ hck), ?_, by simp⟩
          · simp only [Out.after, hev, hframe.same.id_eq, List.append_assoc, List.cons_append,
              List.nil_append]
          · have hevs : results evs = [] := by
              have := hframe.results_eq
              rw [hev, results_append] at this
              exact (List.append_eq_nil_iff.1 this).1
            show Accepted (handleAuthRes cfg env (e.setStatus .cont) env.authPass).entry.module _
            rw [hframe.module_eq, show (e.setStatus .cont).module = some m from hm]
            refine ⟨.authPass, ?_⟩
            have hcons : results (.call e.id m .authPass e.authCtx env.authPass :: evs) =
                [(.authPass, 0)] := by
              rw [h₀]
              exact congrArg _ hevs
            rw [lastResult, results_append, hcons, List.getLast?_concat]

end SecMod

end Ocserv
