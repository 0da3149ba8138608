import Ocserv.SecMod.AuthConfig
import Ocserv.SecMod.Authenticated
import Ocserv.SecMod.Cleanup
import Ocserv.SecMod.Context

/-!
# Sec-mod: modules and the contexts they are given

The authentication module is chosen for each entry, the accounting module and the one for the
supplementary configuration by the options of `Ocserv.SecMod.AuthConfig`.

* `coheres_always` : along every run, the callbacks of the authentication modules are given
  contexts of their own.
* `coherentRun` : with options that meet `PermCfg.Coherent`, no handler goes through a `NULL`
  module and `get_sup_config` too is given a context of its own module.
-/

namespace Ocserv

namespace SecMod

/-! ### What the modules return -/

/-- What an `auth_init` finds outside of its module. -/
structure InitFacts where
  /-- The allocations succeed. -/
  mem : Bool
  pamStart : Bool
  coCreate : Bool
  /-- The result of `read_auth_pass`. -/
  readAuthPass : ℤ
  base64 : Bool
  /-- `gss_accept_sec_context` completes, or needs to continue; `none` is an error. -/
  accept : Option Bool
  /-- `get_name` finds a name. -/
  getName : Bool
  deriving DecidableEq, Repr

/-- `auth_init` of a module: the result, and whether it made a context. -/
def AuthMod.authInit (m : AuthMod) (facts : InitFacts) (username : Option Bytes) : InitRet × Bool :=
  if username.getD [] = [] then (.authFail, false)
  else
    match m with
    | pam =>
      if facts.mem && facts.pamStart && facts.coCreate then (.askMore, true)
      else (⟨-1, by decide⟩, false)
    | plain =>
      if facts.mem && 0 ≤ facts.readAuthPass then (.askMore, true)
      else (.authFail, false)
    | radius => if facts.mem then (.askMore, true) else (.authFail, false)
    | gssapi =>
      match facts.mem && facts.base64, facts.accept with
      | false, _ | true, none => (.authFail, false)
      | true, some false => (.askMore, true)
      | true, some true =>
        (if facts.getName then ⟨0, by decide⟩ else ⟨-1, by decide⟩, true)

/-- `open_session` of an accounting module; `ok` says whether the request to PAM or to the radius
server succeeds. -/
def AcctModule.openSession (a : AcctModule) (authMethod : ℕ) (ok : Bool) : ℤ :=
  match a with
  | pam => if authMethod ≠ authTypePam then -1 else if ok then 0 else -1
  | radius => if ok then 0 else -1

/-- The configuration of sec-mod with the options of the authentication.  Both modules for the
supplementary configuration have a `get_sup_config`. -/
def PermCfg.config (p : PermCfg) (cfg : Config) : Config :=
  { cfg with
    auth := p.auth.map (·.toAuthMethod)
    acct := p.acct.map (·.amod.callbacks)
    supConfig := true }

/-- The environment answers a request as the modules do. -/
def Possible (p : PermCfg) (cfg : Config) (s : SecModSt) (i : Cmd × Env) : Prop :=
  match i.1 with
  | .authInit req =>
    ∀ method m, setModule (p.config cfg) req.authType = some method → method.amod = some m →
      ∃ facts, m.authInit facts req.userName = (i.2.authInit, i.2.authInitCtx)
  | .sessionOpen req =>
    (∀ e m a, (Cmd.sessionOpen req).entry i.2 s = some e → e.module = some m → p.acct = some a →
        ∃ ok, a.amod.openSession m.type ok = i.2.openSession) ∧
      (p.supConfigType = .radius → i.2.supConfig = 0)
  | .authCont _ | .sessionClose _ | .cliStats _ | .cleanup => True

/-! ### The calls -/

/-- A callback of the module other than `auth_init` is given a context of the module. -/
def Event.OwnContext : Event → Prop
  | .call _ m cb ctx _ => cb = .authInit ∨ ctx = some m
  | _ => True

/-- The entry that `handle_sec_auth_session_open` gives to `get_sup_config`, if it calls it. -/
def supConfigEntry (cfg : Config) (env : Env) (req : SessionMsg) (e : ClientEntry) :
    Option ClientEntry :=
  if e.status ≠ .completed then none
  else if e.time ≠ -1 ∧ env.now > e.time + cfg.cookieTimeout then none
  else if req.cookie ≠ some e.cookie then none
  else if !env.mem || !cfg.supConfig then none
  else if needsOpen cfg e then
    if e.module = none ∨ env.openSession < 0 then none else some { e with sessionIsOpen := true }
  else some e

/-- No module is gone through that is `NULL`, and the `get_sup_config` of radius, which returns
at once where the context is `NULL`, is given no other context than one of radius. -/
structure CoherentStep (p : PermCfg) (cfg : Config) (s : SecModSt) (i : Cmd × Env) : Prop where
  module : ∀ e, i.1.entry i.2 s = some e → (i.1.handle cfg i.2 e).ret ≠ none
  supConfig : p.supConfigType = .radius → ∀ req e e', i.1 = .sessionOpen req →
    i.1.entry i.2 s = some e → supConfigEntry cfg i.2 req e = some e' →
      e'.authCtx = none ∨ e'.authCtx = some .radius

/-- Modules and contexts are coherent in every request of the run. -/
def CoherentRun (p : PermCfg) (cfg : Config) (is : List (Cmd × Env)) : Prop :=
  (machine (p.config cfg)).Meets (CoherentStep p (p.config cfg)) start is ∧
    (machine (p.config cfg)).Always (fun s => ∀ ev ∈ s.trace, ev.OwnContext) start is

/-- The method is the one that `set_module` finds for its type. -/
def PermCfg.Chosen (p : PermCfg) (m : AuthStruct) : Prop :=
  m.type ≠ 0 ∧ p.auth.find? (fun m' => m'.enabled && m'.type &&& m.type == m.type) = some m

instance (p : PermCfg) : DecidablePred p.Chosen := fun m =>
  inferInstanceAs (Decidable (m.type ≠ 0 ∧ _ = some m))

/-- The condition on the options: with accounting every method has a module, and with the group
configuration of radius there is no module but that of radius. -/
structure PermCfg.Coherent (p : PermCfg) : Prop where
  acct : p.acct ≠ none → ∀ m ∈ p.auth, p.Chosen m → m.amod ≠ none
  supConfig : p.supConfigType = .radius → ∀ m ∈ p.auth, p.Chosen m →
    m.amod = none ∨ m.amod = some .radius

section

variable {p : PermCfg} {cfg : Config} {env : Env} {s s' : SecModSt} {e e₁ : ClientEntry}
  {out : Out}

/-- `get_sup_config` is called with the entry that `supConfigEntry` says. -/
theorem supConfigEntry_some {req : SessionMsg} (h : supConfigEntry cfg env req e = some e₁) :
    ∃ opened, handleSessionOpen cfg env req e =
      { replySession cfg env e₁ with events := opened ++ (replySession cfg env e₁).events } := by
  simp only [supConfigEntry] at h
  split_ifs at h with h₁ h₂ h₃ h₄ h₅ h₆
  · cases h
    obtain ⟨m, hm⟩ := Option.ne_none_iff_exists'.1 (not_or.1 h₆).1
    refine ⟨[.openSession e.id env.openSession], ?_⟩
    simp [handleSessionOpen, h₁, h₂, h₃, h₅, hm, (not_or.1 h₆).2]
  · cases h
    exact ⟨[], by simp [handleSessionOpen, h₁, h₂, h₃, h₅]⟩

/-- Where `supConfigEntry` says that it is not called, its result makes no difference. -/
theorem supConfigEntry_none {req : SessionMsg} (h : supConfigEntry cfg env req e = none)
    (result : ℤ) :
    handleSessionOpen cfg { env with supConfig := result } req e =
      handleSessionOpen cfg env req e := by
  have hdeny : ∀ e, denySession { env with supConfig := result } e = denySession env e :=
    fun _ => rfl
  have hreply : (!env.mem || !cfg.supConfig) = true → ∀ e,
      replySession cfg { env with supConfig := result } e = replySession cfg env e := by
    intro hno e
    simp only [replySession, hdeny]
    by_cases hmem : env.mem = true
    · have hsup : cfg.supConfig = false := by simpa [hmem] using hno
      simp [hmem, hsup]
    · simp [hmem]
  simp only [supConfigEntry] at h
  simp only [handleSessionOpen, hdeny]
  by_cases h₁ : e.status ≠ .completed
  · rw [if_pos h₁, if_pos h₁]
  rw [if_neg h₁, if_neg h₁]
  by_cases h₂ : e.time ≠ -1 ∧ env.now > e.time + cfg.cookieTimeout
  · rw [if_pos h₂, if_pos h₂]
  rw [if_neg h₂, if_neg h₂]
  by_cases h₃ : req.cookie ≠ some e.cookie
  · rw [if_pos h₃, if_pos h₃]
  rw [if_neg h₃, if_neg h₃]
  rw [if_neg h₁, if_neg h₂, if_neg h₃] at h
  by_cases h₄ : (!env.mem || !cfg.supConfig) = true
  · simp only [hreply h₄]
  rw [if_neg h₄] at h
  by_cases h₅ : needsOpen cfg e = true
  · rw [if_pos h₅, if_pos h₅]
    rw [if_pos h₅] at h
    split_ifs at h with h₆
    cases hm : e.module with
    | none => rfl
    | some m => simp only [if_pos (h₆.resolve_left (by simp [hm]))]
  · rw [if_neg h₅] at h
    cases h

/-! ### The chosen methods -/

theorem find?_config (p : PermCfg) (cfg : Config) (authType : ℕ) :
    (p.config cfg).auth.find? (fun m => m.enabled && m.type &&& authType == authType) =
      (p.auth.find? fun m => m.enabled && m.type &&& authType == authType).map
        (·.toAuthMethod) := by
  rw [PermCfg.config, List.find?_map]
  rfl

/-- The method that `set_module` finds is the first one for its own type too. -/
theorem exists_chosen {authType : ℕ} {method : AuthMethod}
    (h : setModule (p.config cfg) authType = some method) :
    ∃ m ∈ p.auth, p.Chosen m ∧ m.toAuthMethod = method := by
  rw [setModule] at h
  split_ifs at h with hzero
  rw [find?_config] at h
  obtain ⟨m, hm, rfl⟩ := Option.map_eq_some_iff.1 h
  obtain ⟨hfits, before, after, heq, hbefore⟩ := List.find?_eq_some_iff_append.1 hm
  simp only [Bool.and_eq_true, beq_iff_eq] at hfits
  obtain ⟨henabled, hbits⟩ := hfits
  refine ⟨m, List.mem_of_find?_eq_some hm, ⟨?_, ?_⟩, rfl⟩
  · intro htype
    rw [htype, Nat.zero_and] at hbits
    exact hzero hbits.symm
  · refine List.find?_eq_some_iff_append.2 ⟨by simp [henabled], before, after, heq, ?_⟩
    intro x hx
    have hno := hbefore x hx
    simp only [Bool.not_eq_true', Bool.and_eq_false_iff, beq_eq_false_iff_ne] at hno ⊢
    refine hno.imp_right fun hno hsub => hno ?_
    -- a type that contains that of `m` contains what was asked for
    calc x.type &&& authType = x.type &&& (m.type &&& authType) := by rw [hbits]
      _ = authType := by rw [← Nat.and_assoc, hsub, hbits]

theorem setModule_of_chosen {m : AuthStruct} (h : p.Chosen m) :
    setModule (p.config cfg) m.type = some m.toAuthMethod := by
  rw [setModule, if_neg h.1, find?_config, h.2]
  rfl

/-! ### What the callbacks are given -/

/-- The callbacks of a list of events are given contexts of their modules. -/
def OwnCalls (events : List Event) : Prop := ∀ ev ∈ events, ev.OwnContext

theorem OwnCalls.append {t u : List Event} (ht : OwnCalls t) (hu : OwnCalls u) :
    OwnCalls (t ++ u) := by
  intro ev hev
  rcases List.mem_append.1 hev with hev | hev
  · exact ht ev hev
  · exact hu ev hev

theorem OwnCalls.nil : OwnCalls [] := fun _ h => absurd h List.not_mem_nil

theorem OwnCalls.of_isAuth {events : List Event} (h : ∀ ev ∈ events, ev.isAuth = false) :
    OwnCalls events := by
  intro ev hev
  cases ev <;> first | trivial | exact absurd (h _ hev) (by simp [Event.isAuth])

theorem ownCalls_sendAuthReplyFailed (e : ClientEntry) :
    OwnCalls (sendAuthReplyFailed env e).events := by
  simp only [sendAuthReplyFailed]
  split <;> simp [OwnCalls, Event.OwnContext]

theorem ownCalls_sendAuthReplyMsg (e : ClientEntry) :
    OwnCalls (sendAuthReplyMsg env e).events := by
  simp only [sendAuthReplyMsg]
  split <;> simp [OwnCalls, Event.OwnContext]

theorem ownCalls_sendAuthReplyOk (e : ClientEntry) :
    OwnCalls (sendAuthReplyOk cfg env e).events := by
  simp only [sendAuthReplyOk]
  split
  · exact .nil
  · split <;> simp [OwnCalls, Event.OwnContext]

theorem ownCalls_addScoreToIp (e : ClientEntry) (points : ℕ) :
    OwnCalls (addScoreToIp cfg env e points).1 := by
  simp only [addScoreToIp]
  repeat' split
  all_goals simp [OwnCalls, Event.OwnContext]

theorem ownCalls_orFail : OwnCalls out.orFail.events ↔ OwnCalls out.events := by
  rw [Out.orFail]
  split <;> exact Iff.rfl

theorem ownCalls_handleAuthContinue (e : ClientEntry) :
    OwnCalls (handleAuthContinue cfg env e).events := by
  simp only [handleAuthContinue]
  split
  · split
    · exact (ownCalls_addScoreToIp _ _).append (ownCalls_sendAuthReplyFailed _)
    · exact (ownCalls_addScoreToIp _ _).append (ownCalls_orFail.2 (ownCalls_sendAuthReplyMsg _))
  · exact ownCalls_orFail.2 (ownCalls_sendAuthReplyMsg _)

/-- **`handle_sec_auth_res`** calls the module only if it was content or asked for more. -/
theorem ownCalls_handleAuthRes (cfg : Config) (env : Env) {result : ℤ}
    (h : HasContext e ∨ result ≠ errAuthContinue ∧ result ≠ 0) :
    OwnCalls (handleAuthRes cfg env e result).events := by
  have hmsg : OwnCalls (getAuthMsg env e result).events := by
    simp only [getAuthMsg]
    split
    · rename_i m hm
      split
      · rename_i hres
        have hctx := (h.resolve_right fun hno => hres.elim hno.1 hno.2) m hm
        simp [OwnCalls, Event.OwnContext, hctx]
      · exact .nil
    · exact .nil
  have hsame : SameContext e (getAuthMsg env e result).entry := getAuthMsg_context e result
  simp only [handleAuthRes]
  split
  · exact ownCalls_orFail.2 hmsg
  · split
    · exact hmsg.append (ownCalls_handleAuthContinue _)
    · split
      · rename_i hzero
        have hctx : HasContext (getAuthMsg env e result).entry :=
          (h.resolve_right fun hno => hno.2 hzero).of_same hsame
        refine hmsg.append (OwnCalls.append ?_ (ownCalls_orFail.2 (ownCalls_sendAuthReplyOk _)))
        simp only [getAuthUser]
        split
        · rename_i m hm
          simp [OwnCalls, Event.OwnContext, ClientEntry.setStatus, hctx m hm]
        · exact .nil
      · exact hmsg.append ((ownCalls_addScoreToIp _ _).append (ownCalls_sendAuthReplyFailed _))

theorem ownCalls_handleAuthCont (req : AuthContMsg)
    (h : e.status = .failed ∨ HasContext e) :
    OwnCalls (handleAuthCont cfg env req e).events := by
  have herror : OwnCalls (handleAuthRes cfg env e (-1)).events :=
    ownCalls_handleAuthRes cfg env (.inr (by decide))
  simp only [handleAuthCont]
  split
  · exact herror
  · rename_i hstatus
    split
    · exact herror
    · split
      · exact herror
      · rename_i m hm
        have hctx : HasContext e := by
          refine h.resolve_left fun hfailed => hstatus ?_
          simp [hfailed]
        refine OwnCalls.append ?_ (ownCalls_handleAuthRes cfg env
          (.inl (hctx.of_same (SameContext.setStatus e .cont))))
        simp [OwnCalls, Event.OwnContext, hctx m hm]

/-- The callbacks of an `AUTH_INIT`, of a module that made a context if it did not fail. -/
theorem ownCalls_initModule {req : AuthInitMsg}
    (h : ∀ m, e.module = some m → MakesContext env) : OwnCalls (initModule env req e).2.1 := by
  simp only [initModule]
  cases hm : e.module with
  | none => exact .nil
  | some m =>
    by_cases hfail : env.authInit.1 ≠ errAuthContinue ∧ env.authInit.1 < 0
    · simp [OwnCalls, Event.OwnContext, hfail]
    · have hmade : env.authInitCtx = true := h m hm (by omega)
      simp only [if_neg hfail, hmade, if_true]
      split <;> simp [OwnCalls, Event.OwnContext]

/-- A module that is content, or asks for more, made a context. -/
theorem AuthMod.authInit_makes (m : AuthMod) (facts : InitFacts) (username : Option Bytes) :
    0 ≤ (m.authInit facts username).1.1 ∨
        (m.authInit facts username).1.1 = errAuthContinue →
      (m.authInit facts username).2 = true := by
  simp only [AuthMod.authInit]
  repeat' split
  all_goals simp [InitRet.askMore, InitRet.authFail, errAuthFail, errAuthContinue]

theorem Possible.makesContext {req : AuthInitMsg} {method : AuthMethod} {m : AuthMod}
    (h : Possible p cfg s (.authInit req, env))
    (hset : setModule (p.config cfg) req.authType = some method) (hm : method.amod = some m) :
    MakesContext env := by
  obtain ⟨facts, hfacts⟩ := h method m hset hm
  have hmakes := m.authInit_makes facts req.userName
  rw [hfacts] at hmakes
  exact hmakes

/-- The entry has the module that `set_module` found, unless the authentication has failed. -/
theorem handleAuthInit_module (cfg : Config) (env : Env) (req : AuthInitMsg) (e : ClientEntry) :
    (handleAuthInit cfg env req e).entry.status = .failed ∨
      ∃ method, setModule cfg req.authType = some method ∧
        (handleAuthInit cfg env req e).entry.module = method.amod := by
  simp only [handleAuthInit]
  split
  · exact .inl (handleAuthRes_error (by decide) (by decide))
  · rename_i method hset
    refine .inr ⟨method, hset, ?_⟩
    have hmodule := @initModule_module env (chooseMethod req method e) req
    split <;> rename_i e₁ calls _ hinit <;> rw [hinit] at hmodule
    · exact (handleAuthRes_context _ _ e₁ _).module_eq.trans hmodule
    · split
      · exact (handleAuthRes_context _ _ e₁ _).module_eq.trans hmodule
      · rename_i e₂ hgroup
        have hsame := (certGroup_context hgroup).trans (checkUserGroupStatus_context cfg req e₂)
        split <;> rename_i e₃ hcheck <;> rw [hcheck] at hsame
        · exact (hsame.trans (handleAuthRes_context _ _ e₃ _)).module_eq.trans hmodule
        · have hinit := hsame.trans (.setStatus _ .init)
          exact (hinit.trans (handleAuthRes_context cfg env _ _)).module_eq.trans hmodule

theorem ownCalls_handleAuthInit (req : AuthInitMsg)
    (h : ∀ method m, setModule cfg req.authType = some method → method.amod = some m →
      MakesContext env) :
    OwnCalls (handleAuthInit cfg env req e).events := by
  have herror {e : ClientEntry} {result : ℤ} (h₀ : result ≠ 0) (h₁ : result ≠ errAuthContinue) :
      OwnCalls (handleAuthRes cfg env e result).events :=
    ownCalls_handleAuthRes cfg env (.inr ⟨h₁, h₀⟩)
  simp only [handleAuthInit]
  split
  · exact herror (by decide) (by decide)
  · rename_i method hset
    have hcalls := @ownCalls_initModule env (chooseMethod req method e) req
      fun m hm => h method m hset hm
    have hmodule := @initModule_module env (chooseMethod req method e) req
    split <;> rename_i e₁ calls _ hinit <;> rw [hinit] at hcalls hmodule
    · exact hcalls.append (herror (initModule_error hinit).1 (initModule_error hinit).2)
    · split
      · exact hcalls.append (herror (by decide) (by decide))
      · rename_i e₂ hgroup
        have hsame := (certGroup_context hgroup).trans (checkUserGroupStatus_context cfg req e₂)
        split <;> rename_i e₃ hcheck <;> rw [hcheck] at hsame
        · exact hcalls.append (herror (by decide) (by decide))
        · have hctx : HasContext e₁ := by
            intro m hm
            have hamod : method.amod = some m := hmodule.symm.trans hm
            exact initModule_hasContext hinit (h method m hset hamod) m hm
          refine (hcalls.append ?_).append
            (ownCalls_handleAuthRes cfg env (.inl ((hctx.of_same hsame).of_same (.setStatus _ _))))
          simp [OwnCalls, Event.OwnContext]

/-! ### Along a run -/

/-- An entry, and the method it has if its authentication has not failed. -/
structure EntryOk (p : PermCfg) (e : ClientEntry) : Prop where
  own : OwnContext e
  has : e.status = .failed ∨ HasContext e
  method : e.status = .failed ∨ ∃ m ∈ p.auth, p.Chosen m ∧ e.module = m.amod

/-- Every entry is fine, and so were the calls. -/
structure Coheres (p : PermCfg) (s : SecModSt) : Prop where
  entries : ∀ e ∈ s.db, EntryOk p e
  calls : OwnCalls s.trace

theorem EntryOk.of_same (h : EntryOk p e) (hs : SameContext e e₁)
    (hfailed : e.status = .failed → e₁.status = .failed) : EntryOk p e₁ :=
  ⟨h.own.of_same hs, h.has.imp hfailed fun hc => hc.of_same hs,
    h.method.imp hfailed fun ⟨m, hm, hch, heq⟩ => ⟨m, hm, hch, hs.module_eq.trans heq⟩⟩

theorem EntryOk.handleAuthInit {req : AuthInitMsg} (hctx : e.authCtx = none)
    (h : Possible p cfg s (.authInit req, env)) :
    EntryOk p (handleAuthInit (p.config cfg) env req e).entry := by
  obtain ⟨hown, hhas⟩ := handleAuthInit_context (p.config cfg) env req hctx
  rcases handleAuthInit_module (p.config cfg) env req e with hfailed | ⟨method, hset, hmodule⟩
  · exact ⟨hown, .inl hfailed, .inl hfailed⟩
  · refine ⟨hown, ?_, .inr ?_⟩
    · cases hm : method.amod with
      | none =>
        refine .inr fun m hm' => ?_
        rw [hmodule, hm] at hm'
        cases hm'
      | some m => exact hhas (h.makesContext hset hm)
    · obtain ⟨m, hm, hch, rfl⟩ := exists_chosen hset
      exact ⟨m, hm, hch, hmodule⟩

/-- What a request to an entry that is fine calls. -/
theorem EntryOk.ownCalls {cmd : Cmd} {out : SessionOut} (h : EntryOk p e)
    (hout : Handles cfg env e cmd out) : OwnCalls out.events := by
  cases hout with
  | authCont req => exact ownCalls_handleAuthCont req h.has
  | sessionOpen req =>
    exact .of_isAuth fun ev hev => ((handleSessionOpen_frame cfg env req e).events ev hev).2
  | sessionClose req =>
    exact .of_isAuth fun ev hev => ((handleSessionClose_frame env req e).events ev hev).2
  | cliStats req =>
    exact .of_isAuth fun ev hev => ((handleStatsCmd_frame cfg req e).events ev hev).2

/-- `clean_entry` gives `auth_deinit` the context that the module made. -/
theorem EntryOk.cleanEntry (h : EntryOk p e) : OwnCalls (cleanEntry cfg e) := by
  have hdeinit : OwnCalls (authUserDeinit cfg e) := by
    simp only [authUserDeinit]
    split
    · rename_i m ctx hm hctx
      have heq := (h.own ctx hctx).symm.trans hm
      refine OwnCalls.append ?_ (by simp [OwnCalls, Event.OwnContext, Option.some.inj heq])
      split <;> simp [OwnCalls, Event.OwnContext]
    · exact .nil
  exact hdeinit.append (by simp [OwnCalls, Event.OwnContext])

/-- **One request** keeps every entry fine. -/
theorem Coheres.serve {cmd : Cmd} (h : Coheres p s) (hposs : Possible p cfg s (cmd, env)) :
    Coheres p (s.serve (p.config cfg) env cmd) := by
  have hserved := serve_cases (p.config cfg) env s cmd
  generalize s.serve (p.config cfg) env cmd = s' at hserved
  cases hserved with
  | nothing running events hev =>
    refine ⟨h.entries, h.calls.append ?_⟩
    intro ev hmem
    obtain rfl | rfl := hev ev hmem <;> trivial
  | found hentry hmem hout =>
    have hok := h.entries _ hmem
    refine ⟨?_, h.calls.append (hok.ownCalls hout)⟩
    intro x hx
    obtain rfl | ⟨hx, -⟩ := Table.mem_update hx
    · exact hok.of_same hout.context hout.failed
    · exact h.entries x hx
  | created hnew =>
    have hctx := (newClientEntry_fresh hnew).1
    refine ⟨?_, h.calls.append ?_⟩
    · intro x hx
      rcases List.mem_cons.1 hx with rfl | hx
      · exact .handleAuthInit hctx hposs
      · exact h.entries x hx
    · intro ev hev
      rcases List.mem_cons.1 hev with rfl | hev
      · trivial
      · exact ownCalls_handleAuthInit _ (fun _ _ hset hm => hposs.makesContext hset hm) ev hev
  | cleanup =>
    refine ⟨fun x hx => h.entries x (List.mem_filter.1 hx).1, h.calls.append ?_⟩
    intro ev hev
    obtain ⟨x, hx, hev⟩ := List.mem_flatMap.1 hev
    exact (h.entries x (List.mem_filter.1 hx).1).cleanEntry ev hev

theorem denySession_ret (env : Env) (e : ClientEntry) : (denySession env e).ret ≠ none := by
  simp only [denySession, sendFailedSessionOpenReply]
  repeat' split
  all_goals simp

theorem replySession_ret (cfg : Config) (env : Env) (e : ClientEntry) :
    (replySession cfg env e).ret ≠ none := by
  simp only [replySession]
  repeat' split
  all_goals first | exact denySession_ret env _ | simp

/-- The module that a handler goes through is `NULL` only for a completed entry without one, with
accounting. -/
theorem Cmd.handle_ret {cmd : Cmd} (h : (cmd.handle cfg env e).ret = none) :
    e.status = .completed ∧ cfg.acct ≠ none ∧ e.module = none := by
  cases cmd with
  | authInit req => cases h
  | authCont req => cases h
  | sessionOpen req =>
    simp only [Cmd.handle, handleSessionOpen] at h
    split at h
    · exact absurd h (denySession_ret env _)
    · rename_i hstatus
      split at h
      · exact absurd h (denySession_ret env _)
      · split at h
        · exact absurd h (denySession_ret env _)
        · split at h
          · rename_i hopen
            refine ⟨not_not.1 hstatus, ?_, ?_⟩
            · intro hacct
              simp [needsOpen, hacct] at hopen
            · split at h
              · assumption
              · split at h
                · exact absurd h (denySession_ret env _)
                · exact absurd h (replySession_ret cfg env _)
          · exact absurd h (replySession_ret cfg env _)
  | sessionClose req =>
    simp only [Cmd.handle, handleSessionClose] at h
    repeat' split at h
    all_goals cases h
  | cliStats req =>
    simp only [Cmd.handle, handleStatsCmd] at h
    split at h
    · cases h
    · rename_i hstatus
      split at h
      · cases h
      · rename_i hstats
        refine ⟨not_not.1 hstatus, ?_, ?_⟩
        · intro hacct
          simp [hacct] at hstats
        · split at h
          · assumption
          · cases h
  | cleanup => cases h

/-- The entry given to `get_sup_config` is completed, with the context it had. -/
theorem supConfigEntry_context {req : SessionMsg} (h : supConfigEntry cfg env req e = some e₁) :
    e.status = .completed ∧ e₁.authCtx = e.authCtx := by
  simp only [supConfigEntry] at h
  split_ifs at h with h₁
  all_goals cases h
  all_goals exact ⟨not_not.1 h₁, rfl⟩

theorem mem_of_entry {cmd : Cmd} (h : cmd.entry env s = some e) :
    e ∈ s.db ∨ ∃ req, cmd = .authInit req := by
  cases cmd with
  | authInit req => exact .inr ⟨req, rfl⟩
  | cleanup => cases h
  | authCont req | sessionOpen req | sessionClose req | cliStats req =>
    simp only [Cmd.entry] at h
    split_ifs at h
    exact .inl (mem_of_findClientEntry h).1

/-- **The condition on the options** makes a request coherent where every entry is fine. -/
theorem Coheres.step (hp : p.Coherent) (h : Coheres p s) (i : Cmd × Env) :
    CoherentStep p (p.config cfg) s i := by
  have hmethod : ∀ e ∈ s.db, e.status = .completed →
      ∃ m ∈ p.auth, p.Chosen m ∧ e.module = m.amod := by
    intro e he hstatus
    exact (h.entries e he).method.resolve_left (by simp [hstatus])
  constructor
  · intro e he hret
    obtain ⟨hstatus, hacct, hnone⟩ := Cmd.handle_ret hret
    rcases mem_of_entry he with hmem | ⟨req, hreq⟩
    · obtain ⟨m, hm, hch, heq⟩ := hmethod e hmem hstatus
      refine hp.acct ?_ m hm hch (heq.symm.trans hnone)
      intro hno
      exact hacct (by simp [PermCfg.config, hno])
    · rw [hreq] at hret
      cases hret
  · rintro hsup req e e' hreq he hcall
    obtain ⟨hstatus, hctx⟩ := supConfigEntry_context hcall
    have hmem : e ∈ s.db := by
      refine (mem_of_entry he).resolve_right fun ⟨req, hinit⟩ => ?_
      rw [hreq] at hinit
      cases hinit
    obtain ⟨m, hm, hch, heq⟩ := hmethod e hmem hstatus
    rw [hctx]
    cases hauthCtx : e.authCtx with
    | none => exact .inl rfl
    | some x =>
      have hmodule : e.module = some x := (h.entries e hmem).own x hauthCtx
      refine .inr ?_
      rw [← hmodule, heq]
      refine (hp.supConfig hsup m hm hch).resolve_left ?_
      rw [← heq, hmodule]
      exact Option.some_ne_none x

/-- **Main result.** Along every run the entries are fine, and so are the calls of their
modules. -/
theorem coheres_always {is : List (Cmd × Env)}
    (h : (machine (p.config cfg)).Meets (Possible p cfg) start is) :
    (machine (p.config cfg)).Always (Coheres p) start is := by
  refine Machine.always_of_step ?_ ⟨fun _ h => absurd h List.not_mem_nil, .nil⟩ h
  rintro s ⟨cmd, env⟩ s' hs hposs hstep
  obtain ⟨-, rfl⟩ := step_eq_some hstep
  exact hs.serve hposs

/-- **Main result.** With such options, modules and contexts are coherent along every run. -/
theorem coherentRun (hp : p.Coherent) {is : List (Cmd × Env)}
    (h : (machine (p.config cfg)).Meets (Possible p cfg) start is) : CoherentRun p cfg is := by
  have hall := coheres_always h
  exact ⟨hall.meets fun s i hs => hs.step hp i, hall.imp fun s hs => hs.calls⟩

end

end SecMod

end Ocserv
