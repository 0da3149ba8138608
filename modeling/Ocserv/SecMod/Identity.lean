import Ocserv.SecMod.Server

/-!
# Sec-mod: the names of a certificate

With `AUTH_TYPE_CERTIFICATE` and `cert_user_oid`, the user name of an entry is to be that of the
certificate, and with `cert_group_oid` its group one of the certificate's
(`check_user_group_status` of `src/sec-mod-auth.c`).

The check is made once, in `AUTH_INIT`.  The names are written before it, from the request and by
`auth_group`, and after it, by `auth_user` when the authentication completes.  This file follows
them through a run of `AUTH_INIT` and any number of `AUTH_CONT`, and says for which runs the names
of a completed entry are those of the certificate (`bound_iff`).
-/

namespace Ocserv

namespace SecMod

/-! ### A run of one entry -/

variable (cfg : Config)

/-- One `AUTH_CONT` that finds the entry. -/
def authCont (out : Out) (cont : AuthContMsg × Env) : Out :=
  (handleAuthCont cfg cont.2 cont.1 out.entry).after out.events

/-- An `AUTH_INIT` and the `AUTH_CONT` that follow it. -/
def authRun (s : SecModSt) (req : AuthInitMsg) (env : Env) (conts : List (AuthContMsg × Env)) :
    Option Out :=
  (newClientEntry env s req.ip).map fun e =>
    conts.foldl (authCont cfg) (handleAuthInit cfg env req e)

/-- What the last request of a run found. -/
def lastEnv (env : Env) (conts : List (AuthContMsg × Env)) : Env :=
  (conts.getLast?.map Prod.snd).getD env

/-- The reply with the cookie of the entry was the last event, and the names of the entry are
sealed in it. -/
structure Sealed (out : Out) : Prop where
  last : ∃ evs msg, out.events = evs ++ [.authRepOk out.entry.id out.entry.cookie msg] ∧
    msg.username = out.entry.username ∧ msg.groupname = out.entry.groupname

/-- The names of the entry and of its cookie are those of the certificate. -/
structure Bound (req : AuthInitMsg) (out : Out) : Prop extends Sealed out where
  user : req.certUserName = some out.entry.username
  group : cfg.certGroupOid = true → out.entry.groupname ∈ req.certGroupNames

/-! ### When the names are those of the certificate -/

/-- The user name before the check: what the worker asked for, if there is a module to ask. -/
def requestedUser (method : AuthMethod) (req : AuthInitMsg) : Bytes :=
  if method.amod.isSome then (req.userName.map (strlcpy (maxUsernameSize * 2))).getD [] else []

/-- The group `auth_group` stored. -/
def moduleGroup (method : AuthMethod) (env : Env) : Bytes :=
  if method.amod.isSome then strlcpy maxGroupnameSize env.authGroupName else []

/-- The group before the check: the module's, else the one the worker asked for. -/
def requestedGroup (method : AuthMethod) (req : AuthInitMsg) (env : Env) : Bytes :=
  if moduleGroup method env = [] ∧ cfg.certGroupOid then
    (req.groupName.map (strlcpy maxGroupnameSize)).getD []
  else moduleGroup method env

/-- The user name `auth_user` stores when the authentication completes, if it does. -/
def renamed (module : Option AuthMod) (env : Env) : Option Bytes :=
  if module.isSome then env.authUserName else none

/-- **The condition.**  The certificate has a user name, and `auth_user` stores that name or none;
where it stores none and no name was requested, the name of the certificate fits.  The group is
only compared when a user name was requested: otherwise it has to be one of the certificate's by
itself, or the first of these, if there is one, has to fit. -/
structure Binds (method : AuthMethod) (req : AuthInitMsg) (env last : Env) : Prop where
  user : ∃ name, req.certUserName = some name ∧
    match renamed method.amod last with
    | some given => given = name
    | none => requestedUser method req = [] → strlcpy (maxUsernameSize * 2) name = name
  group : cfg.certGroupOid = true → requestedUser method req = [] →
    if requestedGroup cfg method req env = [] then
      ∃ group ∈ req.certGroupNames.head?, strlcpy maxGroupnameSize group ∈ req.certGroupNames
    else requestedGroup cfg method req env ∈ req.certGroupNames

/-! ### What each handler does to the names -/

variable {cfg} {env : Env} {e : ClientEntry} {out : Out}

theorem sendAuthReplyFailed_names (env : Env) (e : ClientEntry) :
    (sendAuthReplyFailed env e).entry.username = e.username ∧
      (sendAuthReplyFailed env e).entry.groupname = e.groupname := by
  unfold sendAuthReplyFailed
  split <;> exact ⟨rfl, rfl⟩

theorem sendAuthReplyMsg_names (env : Env) (e : ClientEntry) :
    (sendAuthReplyMsg env e).entry.username = e.username ∧
      (sendAuthReplyMsg env e).entry.groupname = e.groupname := by
  unfold sendAuthReplyMsg
  split <;> exact ⟨rfl, rfl⟩

theorem getAuthMsg_names (env : Env) (e : ClientEntry) (result : ℤ) :
    (getAuthMsg env e result).entry.username = e.username ∧
      (getAuthMsg env e result).entry.groupname = e.groupname := by
  unfold getAuthMsg
  repeat' split
  all_goals exact ⟨rfl, rfl⟩

theorem Out.orFail_names (out : Out) :
    out.orFail.entry.username = out.entry.username ∧
      out.orFail.entry.groupname = out.entry.groupname := by
  unfold Out.orFail
  split <;> exact ⟨rfl, rfl⟩

theorem handleAuthContinue_names (cfg : Config) (env : Env) (e : ClientEntry) :
    (handleAuthContinue cfg env e).entry.username = e.username ∧
      (handleAuthContinue cfg env e).entry.groupname = e.groupname := by
  have hmsg : (sendAuthReplyMsg env e).orFail.entry.username = e.username ∧
      (sendAuthReplyMsg env e).orFail.entry.groupname = e.groupname :=
    ⟨(Out.orFail_names _).1.trans (sendAuthReplyMsg_names env e).1,
      (Out.orFail_names _).2.trans (sendAuthReplyMsg_names env e).2⟩
  unfold handleAuthContinue
  split
  · dsimp only
    split
    · exact sendAuthReplyFailed_names env (e.setStatus .failed)
    · exact hmsg
  · exact hmsg

theorem generateCookie_names {msg : Cookie} {cookie : Bytes}
    (h : generateCookie cfg env e = some (msg, cookie)) :
    msg.username = e.username ∧ msg.groupname = e.groupname := by
  unfold generateCookie at h
  dsimp only at h
  -- with and without `predictable_ips` only the seed differs
  split at h
  all_goals
    obtain ⟨seed, -, h⟩ := Option.bind_eq_some_iff.1 h
    obtain ⟨_, -, h⟩ := Option.bind_eq_some_iff.1 h
    cases h
    exact ⟨rfl, rfl⟩

/-- What is sealed are the names of the entry. -/
theorem sendAuthReplyOk_sealed (cfg : Config) (env : Env) (e : ClientEntry) :
    (sendAuthReplyOk cfg env e).ret < 0 ∨
      Sealed (sendAuthReplyOk cfg env e) ∧
        (sendAuthReplyOk cfg env e).entry.username = e.username ∧
        (sendAuthReplyOk cfg env e).entry.groupname = e.groupname := by
  unfold sendAuthReplyOk
  split
  · exact .inl (Int.negSucc_lt_zero 0)
  · rename_i msg cookie hgen
    dsimp only
    split
    · exact .inr ⟨⟨[], msg, rfl, generateCookie_names hgen⟩, rfl, rfl⟩
    · exact .inl (Int.negSucc_lt_zero 0)

theorem Out.after_after (out : Out) (evs evs' : List Event) :
    (out.after evs).after evs' = out.after (evs' ++ evs) := by
  simp only [Out.after, List.append_assoc]

theorem Sealed.after (h : Sealed out) (evs : List Event) : Sealed (out.after evs) := by
  obtain ⟨evs', msg, hev, hname⟩ := h.last
  exact ⟨evs ++ evs', msg, by simp only [Out.after, hev, List.append_assoc], hname⟩

/-- On the result `0` the entry fails, or has the name `auth_user` stored, and the cookie of the
reply seals its names. -/
theorem handleAuthSuccess_names (cfg : Config) (env : Env) (e : ClientEntry) :
    let out := handleAuthSuccess cfg env e
    out.entry.status = .failed ∨
      Sealed out ∧ out.entry.username = (renamed e.module env).getD e.username ∧
        out.entry.groupname = e.groupname := by
  dsimp only
  have huser : (getAuthUser env (e.setStatus .completed)).entry.username =
      (renamed e.module env).getD e.username := by
    unfold getAuthUser renamed
    cases hm : e.module <;> simp [ClientEntry.setStatus, hm]
  have hgroup : (getAuthUser env (e.setStatus .completed)).entry.groupname = e.groupname := by
    unfold getAuthUser
    split <;> rfl
  unfold handleAuthSuccess
  dsimp only
  generalize getAuthUser env (e.setStatus .completed) = user at huser hgroup
  rcases sendAuthReplyOk_sealed cfg env user.entry with hret | ⟨hsealed, hname, hg⟩
  · exact .inl (by rw [Out.orFail, if_pos hret]; rfl)
  · by_cases hret : (sendAuthReplyOk cfg env user.entry).ret < 0
    · exact .inl (by rw [Out.orFail, if_pos hret]; rfl)
    · rw [Out.orFail, if_neg hret]
      exact .inr ⟨hsealed.after _, hname.trans huser, hg.trans hgroup⟩

/-- **`handle_sec_auth_res`**, on the names of the entry: it fails; or it waits for more with the
names it has; or it completes with the name `auth_user` stored. -/
inductive AuthNames (env : Env) (e : ClientEntry) (out : Out) : Prop
  | failed (h : out.entry.status = .failed)
  | goesOn (h : out.entry.status = e.status) (hname : out.entry.username = e.username)
      (hgroup : out.entry.groupname = e.groupname)
  | completed (h : out.entry.status = .completed)
      (hname : out.entry.username = (renamed e.module env).getD e.username)
      (hgroup : out.entry.groupname = e.groupname) (hsealed : Sealed out)

theorem handleAuthRes_names (cfg : Config) (env : Env) (e : ClientEntry) (result : ℤ) :
    AuthNames env e (handleAuthRes cfg env e result) := by
  have hmsg := getAuthMsg_names env e result
  have hmod := (getAuthMsg_frame env e result).module_eq
  cases handleAuthRes_status cfg env e result with
  | failed h => exact .failed h
  | goesOn h hres =>
    subst hres
    unfold handleAuthRes at h ⊢
    dsimp only at h ⊢
    split at h
    · rename_i hret
      exact .failed (by rw [if_pos hret, Out.orFail, if_pos hret]; rfl)
    · rename_i hret
      rw [if_neg hret, if_pos rfl]
      rw [if_pos rfl] at h
      have hcont := handleAuthContinue_names cfg env (getAuthMsg env e errAuthContinue).entry
      exact .goesOn h (hcont.1.trans hmsg.1) (hcont.2.trans hmsg.2)
  | completed h hres =>
    subst hres
    unfold handleAuthRes at h ⊢
    dsimp only at h ⊢
    split at h
    · rename_i hret
      exact .failed (by rw [if_pos hret, Out.orFail, if_pos hret]; rfl)
    · rename_i hret
      rw [if_neg hret, if_neg (by decide), if_pos rfl]
      rw [if_neg (by decide), if_pos rfl] at h
      obtain hf | ⟨hsealed, hname, hgroup⟩ :=
        handleAuthSuccess_names cfg env (getAuthMsg env e 0).entry
      · exact .failed hf
      · rw [hmod, hmsg.1] at hname
        exact .completed h hname (hgroup.trans hmsg.2) (hsealed.after _)

/-! ### The names after the check -/

/-- What the check of `AUTH_INIT` leaves in the entry: the names it compared, or the name of the
certificate. -/
inductive Checked (cfg : Config) (method : AuthMethod) (req : AuthInitMsg) (env : Env)
    (e : ClientEntry) : Prop
  | compared (hne : requestedUser method req ≠ [])
      (hname : ∀ name ∈ req.certUserName, e.username = name)
      (hgroup : cfg.certGroupOid = true → e.groupname ∈ req.certGroupNames)
  | copied (hempty : requestedUser method req = []) (name : Bytes)
      (hname : req.certUserName = some name)
      (huser : e.username = strlcpy (maxUsernameSize * 2) name)
      (hgroup : cfg.certGroupOid = true → e.groupname =
        if requestedGroup cfg method req env = [] then
          (req.certGroupNames.head?.map (strlcpy maxGroupnameSize)).getD []
        else requestedGroup cfg method req env)

variable {method : AuthMethod} {req : AuthInitMsg} {e' : ClientEntry}

theorem initModule_names {calls : List Event} {needContinue : Bool} (hname : e.username = [])
    (hgroup : e.groupname = [])
    (h : initModule env req (chooseMethod req method e) = (e', calls, .ok needContinue)) :
    e'.module = method.amod ∧ e'.authType = method.type ∧
      e'.username = requestedUser method req ∧ e'.groupname = moduleGroup method env := by
  unfold initModule at h
  split at h
  · rename_i hm
    have hm : method.amod = none := hm
    cases h
    simp [chooseMethod, requestedUser, moduleGroup, hm, hname, hgroup]
  · rename_i m hm
    have hm : method.amod = some m := hm
    dsimp only at h
    split at h
    · cases h
    · split at h
      · cases h
      · cases h
        unfold requestedUser moduleGroup
        rw [hm]
        by_cases hctx : env.authInitCtx <;> cases hreq : req.userName <;>
          simp [chooseMethod, hname, hm, hctx]

theorem certGroup_names (hcert : e.authType &&& authTypeCertificate ≠ 0)
    (hgroup : e.groupname = moduleGroup method env) (h : certGroup cfg req e = some e') :
    e'.authType = e.authType ∧ e'.username = e.username ∧
      e'.groupname = requestedGroup cfg method req env := by
  unfold certGroup at h
  rw [if_neg hcert] at h
  unfold requestedGroup
  rw [← hgroup]
  split at h
  · rename_i hnone
    cases h
    rw [hnone]
    by_cases hg : e.groupname = [] <;> simp [hg]
  · rename_i name hsome
    rw [hsome]
    split at h
    · rename_i hempty
      split at h
      · cases h
        exact ⟨rfl, rfl, by rw [if_pos hempty]; rfl⟩
      · cases h
    · rename_i hempty
      cases h
      exact ⟨rfl, rfl, by rw [if_neg hempty]⟩

theorem checkUserGroupStatus_names (hcert : e.authType &&& authTypeCertificate ≠ 0)
    (huser : cfg.certUserOid = true) (hname : e.username = requestedUser method req)
    (hgroup : e.groupname = requestedGroup cfg method req env)
    (h : checkUserGroupStatus cfg req e = (e', true)) : Checked cfg method req env e' := by
  unfold checkUserGroupStatus at h
  rw [if_neg hcert] at h
  split at h
  · cases h
  · dsimp only at h
    split at h
    · -- no user name was requested
      rename_i hempty
      rw [hname] at hempty
      split at h
      · cases h
      · rename_i name hsome
        refine .copied hempty.1 name hsome ?_ fun hoid => ?_
        · repeat' split at h
          all_goals cases h; rfl
        · rw [← hgroup]
          split at h <;> rename_i hgroups <;> rw [hgroups]
          · split at h <;> rename_i hg <;> cases h
            · rw [if_pos hg.2]
              rfl
            · rw [if_neg fun hc => hg ⟨hoid, hc⟩]
          · cases h
            split <;> rename_i hg
            · exact hg
            · rfl
    · rename_i hne
      have hne : requestedUser method req ≠ [] := fun hc => hne ⟨hname.trans hc, huser⟩
      split at h
      · cases h
      · rename_i hsame
        split at h
        · cases h
        · rename_i hmem
          cases h
          refine .compared hne (fun name hname => ?_) fun hoid => ?_
          · by_contra hc
            exact hsame ⟨huser, by simpa [Option.mem_def.1 hname] using hc⟩
          · by_contra hc
            exact hmem ⟨hoid, hc⟩

/-- Only the names of the entry matter. -/
theorem Checked.of_eq (hname : e'.username = e.username) (hgroup : e'.groupname = e.groupname)
    (h : Checked cfg method req env e) : Checked cfg method req env e' := by
  cases h with
  | compared hne hcert hmem =>
    exact .compared hne (hname ▸ hcert) (hgroup ▸ hmem)
  | copied hempty name hcert huser hmem =>
    exact .copied hempty name hcert (hname.trans huser) (hgroup ▸ hmem)

theorem Checked.setStatus (h : Checked cfg method req env e) (status : Status) :
    Checked cfg method req env (e.setStatus status) :=
  Checked.of_eq (e := e) rfl rfl h

/-! ### The names along a run -/

/-- The names of the entry in a run: they stay what the check left until `auth_user` is asked by
the last request, which found `last`. -/
inductive RunNames (cfg : Config) (method : AuthMethod) (req : AuthInitMsg) (env last : Env)
    (out : Out) : Prop
  | failed (h : out.entry.status = .failed)
  | pending (h : out.entry.status = .init ∨ out.entry.status = .cont)
      (hmod : out.entry.module = method.amod) (hck : Checked cfg method req env out.entry)
  | completed (h : out.entry.status = .completed) (e : ClientEntry)
      (hck : Checked cfg method req env e)
      (hname : out.entry.username = (renamed method.amod last).getD e.username)
      (hgroup : out.entry.groupname = e.groupname) (hsealed : Sealed out)

/-- The result of the module is handled on an entry whose names were checked. -/
theorem RunNames.of_checked {last : Env} (hstatus : e.status = .init ∨ e.status = .cont)
    (hmod : e.module = method.amod) (hck : Checked cfg method req env e) (result : ℤ)
    (evs : List Event) :
    RunNames cfg method req env last ((handleAuthRes cfg last e result).after evs) := by
  have hframe := (handleAuthRes_frame cfg last e result).module_eq
  cases handleAuthRes_names cfg last e result with
  | failed h => exact .failed h
  | goesOn h hname hgroup =>
    refine .pending ?_ (hframe.trans hmod) (hck.of_eq hname hgroup)
    rcases hstatus with hs | hs
    · exact .inl (h.trans hs)
    · exact .inr (h.trans hs)
  | completed h hname hgroup hsealed =>
    exact .completed h e hck (hmod ▸ hname) hgroup (hsealed.after evs)

/-- `AUTH_INIT` checks the names, or the entry fails. -/
theorem handleAuthInit_names (hset : setModule cfg req.authType = some method)
    (hcert : method.type &&& authTypeCertificate ≠ 0) (huser : cfg.certUserOid = true)
    (hname : e.username = []) (hgroup : e.groupname = []) :
    RunNames cfg method req env env (handleAuthInit cfg env req e) := by
  have stops (e₁ : ClientEntry) (calls : List Event) {result : ℤ} (h₀ : result ≠ 0)
      (h₁ : result ≠ errAuthContinue) :
      RunNames cfg method req env env ((handleAuthRes cfg env e₁ result).after calls) :=
    .failed (handleAuthRes_error h₀ h₁)
  unfold handleAuthInit
  rw [hset]
  dsimp only
  split <;> rename_i e₁ calls _ hinit
  · have herr := initModule_error hinit
    exact stops e₁ calls herr.1 herr.2
  · obtain ⟨hmod, htype, huser₁, hgroup₁⟩ := initModule_names hname hgroup hinit
    have hcert₁ : e₁.authType &&& authTypeCertificate ≠ 0 := htype ▸ hcert
    split
    · exact stops e₁ calls (by decide) (by decide)
    · rename_i e₂ hcg
      obtain ⟨htype₂, huser₂, hgroup₂⟩ := certGroup_names hcert₁ hgroup₁ hcg
      -- neither the group nor the check changes the module
      have hmod₂ := (certGroup_frame hcg).2
      have hmod₃ := (checkUserGroupStatus_frame cfg req e₂).2
      split <;> rename_i e₃ hcheck
      · exact stops e₃ calls (by decide) (by decide)
      · have hck := checkUserGroupStatus_names (htype₂ ▸ hcert₁) huser (huser₂.trans huser₁)
          hgroup₂ hcheck
        rw [hcheck] at hmod₃
        exact .of_checked (e := e₃.setStatus .init) (.inl rfl) (hmod₃.trans (hmod₂.trans hmod))
          (hck.setStatus _) _ _

/-- An `AUTH_CONT` goes on only with an entry that is still waiting. -/
theorem authCont_names {last last' : Env} (cont : AuthContMsg)
    (h : RunNames cfg method req env last out) :
    RunNames cfg method req env last' (authCont cfg out (cont, last')) := by
  have hfrom := handleAuthCont_status cfg last' cont out.entry []
  cases h with
  | failed h => exact .failed (hfrom.resolve_right fun hc => by simp [h] at hc)
  | completed h => exact .failed (hfrom.resolve_right fun hc => by simp [h] at hc)
  | pending _ hmod hck =>
    have stops : (handleAuthRes cfg last' out.entry (-1)).entry.status = .failed :=
      handleAuthRes_error (by decide) (by decide)
    unfold authCont handleAuthCont
    dsimp only
    split
    · exact .failed stops
    · split
      · exact .failed stops
      · split
        · exact .failed stops
        -- only an answer of the module gets past the checks of `handle_sec_auth_cont`
        · rw [Out.after_after]
          exact .of_checked (e := out.entry.setStatus .cont) (.inr rfl) hmod (hck.setStatus _) _ _

theorem lastEnv_append (env : Env) (conts : List (AuthContMsg × Env)) (cont : AuthContMsg × Env) :
    lastEnv env (conts ++ [cont]) = cont.2 := by
  simp [lastEnv]

theorem newClientEntry_names {s : SecModSt} {ip : Bytes}
    (h : newClientEntry env s ip = some e) : e.username = [] ∧ e.groupname = [] := by
  unfold newClientEntry at h
  split at h
  · cases h
  · obtain ⟨sid, -, rfl⟩ := Option.map_eq_some_iff.1 h
    exact ⟨rfl, rfl⟩

/-- **Every run**: the names are those that were checked until the authentication completes. -/
theorem authRun_names {s : SecModSt} {conts : List (AuthContMsg × Env)}
    (hset : setModule cfg req.authType = some method)
    (hcert : method.type &&& authTypeCertificate ≠ 0) (huser : cfg.certUserOid = true)
    (hrun : authRun cfg s req env conts = some out) :
    RunNames cfg method req env (lastEnv env conts) out := by
  obtain ⟨e, hnew, rfl⟩ := Option.map_eq_some_iff.1 hrun
  obtain ⟨hname, hgroup⟩ := newClientEntry_names hnew
  clear hrun
  induction conts using List.reverseRecOn with
  | nil => exact handleAuthInit_names hset hcert huser hname hgroup
  | append_singleton conts cont ih =>
    rw [lastEnv_append, List.foldl_append]
    exact authCont_names cont.1 ih

/-! ### The binding -/

theorem Checked.user_iff {last : Env} (h : Checked cfg method req env e) :
    req.certUserName = some ((renamed method.amod last).getD e.username) ↔
      ∃ name, req.certUserName = some name ∧
        match renamed method.amod last with
        | some given => given = name
        | none => requestedUser method req = [] → strlcpy (maxUsernameSize * 2) name = name := by
  cases renamed method.amod last with
  -- the name that was checked is gone
  | some given =>
    constructor
    · intro hcert
      exact ⟨given, hcert, rfl⟩
    · rintro ⟨name, hcert, rfl⟩
      exact hcert
  | none =>
    cases h with
    | compared hne hname =>
      constructor
      · intro hcert
        exact ⟨e.username, hcert, fun hc => absurd hc hne⟩
      · rintro ⟨name, hcert, -⟩
        rw [hname name hcert]
        exact hcert
    | copied hempty name hname huser =>
      dsimp only [Option.getD_none]
      rw [huser, hname]
      constructor
      · intro hcert
        exact ⟨name, rfl, fun _ => (Option.some.inj hcert).symm⟩
      · rintro ⟨_, hcert, hfits⟩
        cases hcert
        rw [hfits hempty]

theorem Checked.group_iff (h : Checked cfg method req env e) (hoid : cfg.certGroupOid = true) :
    e.groupname ∈ req.certGroupNames ↔ (requestedUser method req = [] →
      if requestedGroup cfg method req env = [] then
        ∃ group ∈ req.certGroupNames.head?, strlcpy maxGroupnameSize group ∈ req.certGroupNames
      else requestedGroup cfg method req env ∈ req.certGroupNames) := by
  cases h with
  | compared hne _ hgroup => exact ⟨fun _ hc => absurd hc hne, fun _ => hgroup hoid⟩
  | copied hempty name _ _ hgroup =>
    rw [hgroup hoid]
    split
    · cases hgroups : req.certGroupNames with
      | nil => simp [hempty]
      | cons group groups => simp [hempty]
    · simp [hempty]

/-- **The names of a completed entry are those of the certificate exactly when `Binds` says so.**
The run is any run of `AUTH_INIT` and `AUTH_CONT` that completes the authentication of an entry
whose method asks for a certificate. -/
theorem bound_iff {s : SecModSt} {conts : List (AuthContMsg × Env)}
    (hset : setModule cfg req.authType = some method)
    (hcert : method.type &&& authTypeCertificate ≠ 0) (huser : cfg.certUserOid = true)
    (hrun : authRun cfg s req env conts = some out) (hdone : out.entry.status = .completed) :
    Bound cfg req out ↔ Binds cfg method req env (lastEnv env conts) := by
  cases authRun_names hset hcert huser hrun with
  | failed h => simp [h] at hdone
  | pending h => simp [hdone] at h
  | completed _ e hck hname hgroup hsealed =>
    constructor
    · rintro ⟨-, hu, hg⟩
      refine ⟨hck.user_iff.1 (hname ▸ hu), fun hoid => (hck.group_iff hoid).1 ?_⟩
      exact hgroup ▸ hg hoid
    · rintro ⟨hu, hg⟩
      refine ⟨hsealed, ?_, fun hoid => ?_⟩
      · rw [hname]
        exact hck.user_iff.2 hu
      · rw [hgroup]
        exact (hck.group_iff hoid).2 (hg hoid)

namespace Sample

/-- A certificate and a password, checked by `pam`. -/
def certPam : AuthMethod := ⟨true, authTypePam ||| authTypeCertificate, some .pam⟩

def certConfig : Config :=
  { config certPam none with certUserOid := true, certGroupOid := true }

/-- The user and the group of the certificate, the user also asked for by the worker. -/
def certInitMsg : AuthInitMsg :=
  { initMsg true certPam.type with certGroupNames := [[103]] }

/-- `auth_group` gives the group of the certificate, and `auth_user` the name `user`. -/
def certEnviron (user : Option Bytes) : Env :=
  { environ 1000 with authGroupName := [103], authUserName := user }

/-- The password is accepted, and `auth_user` gives the name `user`. -/
def certConts (user : Option Bytes) : List (AuthContMsg × Env) :=
  [(⟨sid, some [112]⟩, certEnviron user)]

end Sample

open Sample in
theorem bound_keptName : ∃ out, authRun certConfig start certInitMsg (certEnviron none)
    (certConts none) = some out ∧ out.entry.status = .completed ∧
      Bound certConfig certInitMsg out := by
  obtain ⟨out, hrun, hdone⟩ : ∃ out, authRun certConfig start certInitMsg (certEnviron none)
      (certConts none) = some out ∧ out.entry.status = .completed := ⟨_, rfl, rfl⟩
  have hset : setModule certConfig certInitMsg.authType = some certPam := rfl
  refine ⟨out, hrun, hdone, (bound_iff hset (by decide) rfl hrun hdone).2 ⟨?_, ?_⟩⟩
  · exact ⟨[117], rfl, fun h => absurd h (by decide)⟩
  · exact fun _ h => absurd h (by decide)

open Sample in
/-- The certificate and the request say `u`, and `auth_user` says `v`. -/
theorem not_bound_renamed : ∃ out, authRun certConfig start certInitMsg (certEnviron none)
    (certConts (some [118])) = some out ∧ out.entry.status = .completed ∧
      out.entry.username = [118] ∧ ¬ Bound certConfig certInitMsg out := by
  refine ⟨_, rfl, rfl, rfl, ?_⟩
  intro h
  have hname := h.user
  exact absurd hname (by decide)

end SecMod

end Ocserv
