import Ocserv.SecMod.Server

/-!
# Sec-mod: the module of an entry and its context

`set_module` chooses the authentication module of an entry, and the module's `auth_init` makes the
context that the other callbacks are given.  Neither changes afterwards.

* `handleAuthInit_context` : the context of a new entry was made by its module, and is there
  unless the authentication has failed.
* `handleAuthCont_context`, `handleSessionOpen_context` and so on : no other request changes it.
-/

namespace Ocserv

namespace SecMod

variable {cfg : Config} {env : Env} {e e₁ e₂ : ClientEntry} {out : Out}

/-- The request leaves the module and its context alone. -/
structure SameContext (e e' : ClientEntry) : Prop where
  module_eq : e'.module = e.module
  authCtx_eq : e'.authCtx = e.authCtx

theorem SameContext.refl (e : ClientEntry) : SameContext e e := ⟨rfl, rfl⟩

theorem SameContext.trans (h₁ : SameContext e e₁) (h₂ : SameContext e₁ e₂) : SameContext e e₂ :=
  ⟨h₂.module_eq.trans h₁.module_eq, h₂.authCtx_eq.trans h₁.authCtx_eq⟩

theorem SameContext.setStatus (e : ClientEntry) (status : Status) :
    SameContext e (e.setStatus status) := ⟨rfl, rfl⟩

theorem SameContext.orFail (h : SameContext e out.entry) : SameContext e out.orFail.entry := by
  simp only [Out.orFail]
  split
  · exact ⟨h.module_eq, h.authCtx_eq⟩
  · exact h

theorem sendAuthReplyFailed_context (e : ClientEntry) :
    SameContext e (sendAuthReplyFailed env e).entry := by
  simp only [sendAuthReplyFailed]
  split <;> exact ⟨rfl, rfl⟩

theorem sendAuthReplyMsg_context (e : ClientEntry) :
    SameContext e (sendAuthReplyMsg env e).entry := by
  simp only [sendAuthReplyMsg]
  split <;> exact ⟨rfl, rfl⟩

theorem sendAuthReplyOk_context (e : ClientEntry) :
    SameContext e (sendAuthReplyOk cfg env e).entry := by
  simp only [sendAuthReplyOk]
  split
  · exact .refl e
  · split <;> exact ⟨rfl, rfl⟩

theorem getAuthMsg_context (e : ClientEntry) (result : ℤ) :
    SameContext e (getAuthMsg env e result).entry := by
  simp only [getAuthMsg]
  repeat' split
  all_goals exact ⟨rfl, rfl⟩

theorem getAuthUser_context (e : ClientEntry) : SameContext e (getAuthUser env e).entry := by
  simp only [getAuthUser]
  split <;> exact ⟨rfl, rfl⟩

theorem handleAuthContinue_context (e : ClientEntry) :
    SameContext e (handleAuthContinue cfg env e).entry := by
  simp only [handleAuthContinue]
  split
  · split
    · exact (SameContext.setStatus e .failed).trans (sendAuthReplyFailed_context _)
    · exact (sendAuthReplyMsg_context e).orFail
  · exact (sendAuthReplyMsg_context e).orFail

theorem handleAuthSuccess_context (e : ClientEntry) :
    SameContext e (handleAuthSuccess cfg env e).entry := by
  have huser : SameContext e (getAuthUser env (e.setStatus .completed)).entry :=
    (SameContext.setStatus e .completed).trans (getAuthUser_context _)
  exact (huser.trans (sendAuthReplyOk_context _)).orFail

theorem handleAuthFailure_context (e : ClientEntry) (result : ℤ) :
    SameContext e (handleAuthFailure cfg env e result).entry :=
  (SameContext.setStatus e .failed).trans (sendAuthReplyFailed_context _)

theorem handleAuthRes_context (cfg : Config) (env : Env) (e : ClientEntry) (result : ℤ) :
    SameContext e (handleAuthRes cfg env e result).entry := by
  have hmsg : SameContext e (getAuthMsg env e result).entry := getAuthMsg_context e result
  simp only [handleAuthRes]
  split
  · exact hmsg.orFail
  · split
    · exact hmsg.trans (handleAuthContinue_context _)
    · split
      · exact hmsg.trans (handleAuthSuccess_context _)
      · exact hmsg.trans (@handleAuthFailure_context cfg _ _ result)

/-! ### The requests of a worker -/

/-- `auth_init` makes a context if it does not fail. -/
def MakesContext (env : Env) : Prop :=
  0 ≤ env.authInit.1 ∨ env.authInit.1 = errAuthContinue → env.authInitCtx = true

/-- The context was made by the module of the entry. -/
def OwnContext (e : ClientEntry) : Prop := ∀ m, e.authCtx = some m → e.module = some m

/-- The context is there. -/
def HasContext (e : ClientEntry) : Prop := ∀ m, e.module = some m → e.authCtx = some m

theorem OwnContext.of_same (h : OwnContext e) (hs : SameContext e e₁) : OwnContext e₁ := by
  intro m hm
  rw [hs.module_eq]
  exact h m (hs.authCtx_eq ▸ hm)

theorem HasContext.of_same (h : HasContext e) (hs : SameContext e e₁) : HasContext e₁ := by
  intro m hm
  rw [hs.authCtx_eq]
  exact h m (hs.module_eq ▸ hm)

theorem initModule_module (req : AuthInitMsg) :
    (initModule env req e).1.module = e.module := by
  simp only [initModule]
  repeat' split
  all_goals rfl

theorem initModule_authCtx (req : AuthInitMsg) :
    (initModule env req e).1.authCtx = e.authCtx ∨
      e.module ≠ none ∧ env.authInitCtx = true ∧ (initModule env req e).1.authCtx = e.module := by
  simp only [initModule]
  cases hm : e.module with
  | none => exact .inl rfl
  | some m =>
    by_cases hmade : env.authInitCtx = true
    · refine .inr ⟨Option.some_ne_none m, hmade, ?_⟩
      simp only [hmade, if_true]
      repeat' split
      all_goals rfl
    · refine .inl ?_
      simp only [if_neg hmade]
      repeat' split
      all_goals rfl

/-- A module that is content made a context. -/
theorem initModule_hasContext {req : AuthInitMsg} {calls : List Event} {needContinue : Bool}
    (h : initModule env req e = (e₁, calls, .ok needContinue)) (hmakes : MakesContext env) :
    HasContext e₁ := by
  intro m hm
  have hmodule : (initModule env req e).1.module = e.module := initModule_module req
  rw [h] at hmodule
  have hmade : env.authInitCtx = true := by
    refine hmakes ?_
    by_contra hc
    simp only [initModule, hmodule.symm.trans hm] at h
    rw [if_pos (by omega)] at h
    cases h
  simp only [initModule, hmodule.symm.trans hm, hmade, if_true] at h
  repeat' split at h
  all_goals cases h
  all_goals rfl

theorem certGroup_context {req : AuthInitMsg} (h : certGroup cfg req e = some e₁) :
    SameContext e e₁ := by
  simp only [certGroup] at h
  repeat' split at h
  all_goals first
    | cases h; exact ⟨rfl, rfl⟩
    | cases h

theorem checkUserGroupStatus_context (cfg : Config) (req : AuthInitMsg) (e : ClientEntry) :
    SameContext e (checkUserGroupStatus cfg req e).1 := by
  simp only [checkUserGroupStatus]
  repeat' split
  all_goals exact ⟨rfl, rfl⟩

theorem newClientEntry_fresh {s : SecModSt} {ip : Bytes} (h : newClientEntry env s ip = some e) :
    e.authCtx = none ∧ e.sessionIsOpen = false := by
  simp only [newClientEntry] at h
  split at h
  · cases h
  · obtain ⟨sid, -, rfl⟩ := Option.map_eq_some_iff.1 h
    exact ⟨rfl, rfl⟩

/-- **`handle_sec_auth_init`**: the context of the entry was made by its module, and it is there
unless the authentication has failed. -/
theorem handleAuthInit_context (cfg : Config) (env : Env) (req : AuthInitMsg)
    (hctx : e.authCtx = none) :
    OwnContext (handleAuthInit cfg env req e).entry ∧ (MakesContext env →
      (handleAuthInit cfg env req e).entry.status = .failed ∨
        HasContext (handleAuthInit cfg env req e).entry) := by
  have hown : OwnContext e := by
    intro m h
    simp [hctx] at h
  simp only [handleAuthInit]
  split
  · exact ⟨hown.of_same (handleAuthRes_context _ _ e _),
      fun _ => .inl (handleAuthRes_error (by decide) (by decide))⟩
  · rename_i method _
    have hmodule := @initModule_module env (chooseMethod req method e) req
    have hauthCtx := @initModule_authCtx env (chooseMethod req method e) req
    split <;> rename_i e₁ calls _ hinit <;> rw [hinit] at hmodule hauthCtx
    all_goals
      have hown : OwnContext e₁ := by
        intro m h
        rcases hauthCtx with hc | ⟨-, -, hc⟩
        · rw [hc, show (chooseMethod req method e).authCtx = none from hctx] at h
          cases h
        · exact hmodule.trans (hc.symm.trans h)
    · exact ⟨hown.of_same (handleAuthRes_context _ _ e₁ _),
        fun _ => .inl (handleAuthRes_error (initModule_error hinit).1 (initModule_error hinit).2)⟩
    · split
      · exact ⟨hown.of_same (handleAuthRes_context _ _ e₁ _),
          fun _ => .inl (handleAuthRes_error (by decide) (by decide))⟩
      · rename_i e₂ hgroup
        have hsame := (certGroup_context hgroup).trans (checkUserGroupStatus_context cfg req e₂)
        split <;> rename_i e₃ hcheck <;> rw [hcheck] at hsame
        · exact ⟨(hown.of_same hsame).of_same (handleAuthRes_context _ _ e₃ _),
            fun _ => .inl (handleAuthRes_error (by decide) (by decide))⟩
        · have hall (result : ℤ) :
              SameContext e₁ (handleAuthRes cfg env (e₃.setStatus .init) result).entry :=
            (hsame.trans (.setStatus _ _)).trans (handleAuthRes_context _ _ _ _)
          exact ⟨hown.of_same (hall _),
            fun h => .inr ((initModule_hasContext hinit h).of_same (hall _))⟩

theorem handleAuthCont_context (cfg : Config) (env : Env) (req : AuthContMsg) (e : ClientEntry) :
    SameContext e (handleAuthCont cfg env req e).entry := by
  simp only [handleAuthCont]
  split
  · exact handleAuthRes_context _ _ e _
  · split
    · exact handleAuthRes_context _ _ e _
    · split
      · exact handleAuthRes_context _ _ e _
      · exact (SameContext.setStatus e .cont).trans (handleAuthRes_context _ _ _ env.authPass)

/-! ### The requests for a session -/

theorem replySession_context (e : ClientEntry) : SameContext e (replySession cfg env e).entry := by
  simp only [replySession]
  repeat' split
  all_goals exact ⟨rfl, rfl⟩

theorem handleSessionOpen_context (cfg : Config) (env : Env) (req : SessionMsg)
    (e : ClientEntry) : SameContext e (handleSessionOpen cfg env req e).entry := by
  simp only [handleSessionOpen]
  split
  · exact ⟨rfl, rfl⟩
  · split
    · exact ⟨rfl, rfl⟩
    · split
      · exact ⟨rfl, rfl⟩
      · split
        · split
          · exact ⟨rfl, rfl⟩
          · split
            · exact ⟨rfl, rfl⟩
            · have hopen : SameContext e { e with sessionIsOpen := true } := ⟨rfl, rfl⟩
              exact hopen.trans (replySession_context _)
        · exact replySession_context e

theorem handleSessionClose_context (env : Env) (req : SessionMsg) (e : ClientEntry) :
    SameContext e (handleSessionClose env req e).entry := by
  simp only [handleSessionClose]
  split
  · split <;> exact ⟨rfl, rfl⟩
  · split
    · exact ⟨rfl, rfl⟩
    · obtain ⟨inUse, time, heq⟩ := expireClientEntry_frame env
        { e with
          stats := {}
          savedStats := e.savedStats.add (e.stats.report req.bytesIn req.bytesOut req.uptime) }
      rw [heq]
      exact ⟨rfl, rfl⟩

theorem handleStatsCmd_context (cfg : Config) (req : CliStatsMsg) (e : ClientEntry) :
    SameContext e (handleStatsCmd cfg req e).entry := by
  simp only [handleStatsCmd]
  repeat' split
  all_goals exact ⟨rfl, rfl⟩

/-- **Only `AUTH_INIT` gives an entry its module and context.** -/
theorem Handles.context {cmd : Cmd} {out : SessionOut} (h : Handles cfg env e cmd out) :
    SameContext e out.entry := by
  cases h with
  | authCont req => exact handleAuthCont_context cfg env req e
  | sessionOpen req => exact handleSessionOpen_context cfg env req e
  | sessionClose req => exact handleSessionClose_context env req e
  | cliStats req => exact handleStatsCmd_context cfg req e

end SecMod

end Ocserv
