import Ocserv.Main.Ban
import Ocserv.Passwd.Plain
import Ocserv.SecMod.Authenticated

/-!
# Sec-mod: password attempts with the plain backend

The requests `AUTH_INIT` and `AUTH_CONT` of any number of clients, with the contexts of
`src/auth/plain.c` beside the entries of sec-mod: `plain_auth_init` makes the context of an entry
and `plain_auth_pass` counts the wrong passwords in it, while the handlers of
`src/sec-mod-auth.c` keep the status and report to main, which adds the points to its ban list.

* `TriesInv` : while the authentication of an entry goes on, the counter of its context is the
  number of passwords tried so far, all of them wrong.
* `plain_tries` : no entry gets more than `MAX_PASSWORD_TRIES` evaluations, and what follows a
  wrong one.
-/

namespace Ocserv

namespace SecMod

namespace PlainTries

open Passwd (PlainCtx Crypt plainAuthInit plainAuthPass maxPasswordTries)

/-- Sec-mod, and the contexts of the plain backend by the number of their entry. -/
structure PlainSt where
  server : SecModSt
  ctxs : ℕ → Option PlainCtx

/-- The requests of a client; `AUTH_INIT` reads the password file. -/
inductive Req where
  | init (req : AuthInitMsg) (file : Option Bytes)
  | cont (req : AuthContMsg)

/-- The request as sec-mod sees it. -/
def Req.cmd : Req → Cmd
  | .init req _ => .authInit req
  | .cont req => .authCont req

variable (cfg : Config) (crypt : Crypt)

/-- The method `set_module` finds is the plain backend. -/
def usesPlain (req : AuthInitMsg) : Bool :=
  (setModule cfg req.authType).any fun method => method.amod == some .plain

/-- `plain_auth_msg` succeeds, and `plain_auth_user` does not change the name. -/
def plainEnv (env : Env) : Env := { env with authMsg := 0, authUserName := none }

/-- The environment of an `AUTH_INIT`, with the result of `plain_auth_init`. -/
def initEnv (env : Env) (ret : InitRet) (ctx : Option PlainCtx) : Env :=
  { plainEnv env with authInit := ret, authInitCtx := ctx.isSome }

/-- The environment of an `AUTH_CONT`, with the result of `plain_auth_pass`. -/
def contEnv (env : Env) (ret : ℤ) : Env := { plainEnv env with authPass := ret }

/-- The entry and the password for which the request calls `plain_auth_pass`. -/
def evaluates (s : SecModSt) (req : AuthContMsg) : Option (ClientEntry × Bytes) :=
  if req.sid.length ≠ sidSize then none
  else
    match findClientEntry s.db req.sid, req.password with
    | some e, some pass =>
      if (e.status = .init ∨ e.status = .cont) ∧ e.module = some .plain then some (e, pass)
      else none
    | _, _ => none

/-- Serve one request; `none` where the backend crashes. -/
def PlainSt.step (s : PlainSt) : Req × Env → Option PlainSt
  | (.init req file, env) =>
    if usesPlain cfg req then
      (plainAuthInit file (req.userName.getD [])).map fun (ret, ctx) =>
        ⟨s.server.serve cfg (initEnv env ret ctx) (.authInit req),
          Function.update s.ctxs s.server.nextId ctx⟩
    else some ⟨s.server.serve cfg env (.authInit req), s.ctxs⟩
  | (.cont req, env) =>
    match evaluates s.server req with
    | none => some ⟨s.server.serve cfg env (.authCont req), s.ctxs⟩
    | some (e, pass) =>
      (s.ctxs e.id).bind fun ctx =>
        (plainAuthPass crypt ctx pass).map fun (ret, ctx) =>
          ⟨s.server.serve cfg (contEnv env ret) (.authCont req),
            Function.update s.ctxs e.id (some ctx)⟩

def plainMachine : Machine PlainSt (Req × Env) := ⟨PlainSt.step cfg crypt⟩

def plainStart : PlainSt := ⟨start, fun _ => none⟩

/-- The result of an evaluated password. -/
def tried? : Event → Option ℤ
  | .call _ _ .authPass _ ret => some ret
  | _ => none

/-- The results of the passwords evaluated, in order. -/
def tries (t : List Event) : List ℤ := t.filterMap tried?

/-- The evaluated passwords that were wrong. -/
def wrong (t : List Event) : List ℤ := (tries t).filter (· ≠ 0)

/-- The points reported, with the address. -/
def points? : Event → Option (Bytes × ℕ)
  | .banIp _ ip points => some (ip, points)
  | _ => none

def points (t : List Event) : List (Bytes × ℕ) := t.filterMap points?

/-- A report is made: banning is enabled, there is memory for it, and it can be sent. -/
def Reports (cfg : Config) (env : Env) : Prop :=
  cfg.maxBanScore ≠ 0 ∧ env.mem = true ∧ env.banReply.sent = true

instance (cfg : Config) (env : Env) : Decidable (Reports cfg env) :=
  inferInstanceAs (Decidable (_ ∧ _ ∧ _))

/-- `SM_CMD_AUTH_BAN_IP` in the `handle_sec_mod_commands` of main, for one report after the
other. -/
def handleBanIps (bans : Main.BanConfig) (now : ℤ) (stored : Bool) (db : Main.BanDb)
    (reports : List (Bytes × ℕ)) : Main.BanDb :=
  reports.foldl
    (fun db report => (Main.addIpToBanList bans db now report.1 (.ofNat report.2) stored).1) db

/-! ### The backend -/

variable {cfg crypt} {ctx ctx' : PlainCtx} {ret : ℤ} {pass : Bytes}

theorem retries_readLine {line : Bytes} {b : Bool} (h : Passwd.readLine ctx line = some (ctx', b)) :
    ctx'.retries = ctx.retries := by
  unfold Passwd.readLine at h
  dsimp only at h
  split at h
  · cases h
    rfl
  · split at h
    · cases h
      rfl
    · split at h
      · split at h
        · cases h
          rfl
        · obtain ⟨groupnames, -, heq⟩ := Option.map_eq_some_iff.1 h
          split at heq <;> cases heq
          · rfl
          · rfl
      · cases h
        rfl

theorem retries_readLoop {lines : List Bytes} (h : Passwd.readLoop lines ctx = some ctx') :
    ctx'.retries = ctx.retries := by
  induction lines generalizing ctx with
  | nil =>
    cases h
    rfl
  | cons line lines ih =>
    rw [Passwd.readLoop] at h
    split at h
    · cases h
    · rename_i hline
      cases h
      exact retries_readLine hline
    · rename_i hline
      exact (ih h).trans (retries_readLine hline)

/-- `plain_auth_init` fails, or makes a context without a wrong password. -/
theorem plainAuthInit_spec {file : Option Bytes} {username : Bytes} {ret : InitRet}
    {c : Option PlainCtx} (h : plainAuthInit file username = some (ret, c)) :
    (ret = .authFail ∧ c = none) ∨
      (ret = .askMore ∧ ∃ ctx, c = some ctx ∧ ctx.retries = 0) := by
  unfold plainAuthInit at h
  split at h
  · cases h
    exact Or.inl ⟨rfl, rfl⟩
  · split at h
    · cases h
      exact Or.inl ⟨rfl, rfl⟩
    · obtain ⟨ctx, hread, heq⟩ := Option.map_eq_some_iff.1 h
      cases heq
      exact Or.inr ⟨rfl, ctx, rfl, retries_readLoop hread⟩

/-- `plain_auth_pass` accepts, or counts; the last try is not followed by another. -/
theorem plainAuthPass_spec (h : plainAuthPass crypt ctx pass = some (ret, ctx')) :
    ret = 0 ∨ ctx'.retries = ctx.retries + 1 ∧
      (ret = errAuthContinue ∧ ctx.retries < maxPasswordTries - 1 ∨
        ret = errAuthFail ∧ maxPasswordTries - 1 ≤ ctx.retries) := by
  have hfailed : ∀ r, r = (if ctx.retries < maxPasswordTries - 1 then
      (errAuthContinue, { ctx with retries := ctx.retries + 1, passMsg := .failed })
      else (errAuthFail, { ctx with retries := ctx.retries + 1 })) → r = (ret, ctx') →
      ctx'.retries = ctx.retries + 1 ∧
        (ret = errAuthContinue ∧ ctx.retries < maxPasswordTries - 1 ∨
          ret = errAuthFail ∧ maxPasswordTries - 1 ≤ ctx.retries) := by
    rintro r hr heq
    split_ifs at hr with hlt
    · obtain ⟨rfl, rfl⟩ := Prod.mk.inj (hr.symm.trans heq)
      exact ⟨rfl, Or.inl ⟨rfl, hlt⟩⟩
    · obtain ⟨rfl, rfl⟩ := Prod.mk.inj (hr.symm.trans heq)
      exact ⟨rfl, Or.inr ⟨rfl, Nat.not_lt.1 hlt⟩⟩
  unfold plainAuthPass at h
  dsimp only at h
  split at h
  · exact Or.inr (hfailed _ rfl (Option.some.inj h))
  · split at h
    · cases h
    · split at h
      · cases h
        exact Or.inl rfl
      · exact Or.inr (hfailed _ rfl (Option.some.inj h))

/-! ### The handlers -/

variable {env : Env} {e e' : ClientEntry} {result : ℤ} {evs : List Event}

theorem tries_append (t u : List Event) : tries (t ++ u) = tries t ++ tries u :=
  List.filterMap_append

theorem wrong_append (t u : List Event) : wrong (t ++ u) = wrong t ++ wrong u := by
  rw [wrong, tries_append, List.filter_append]
  rfl

theorem points_append (t u : List Event) : points (t ++ u) = points t ++ points u :=
  List.filterMap_append

theorem tried_of_result {ev : Event} (h : ev.result? = none) : tried? ev = none := by
  cases ev with
  | call id m cb ctx ret => cases cb <;> first | rfl | cases h
  | _ => rfl

theorem tries_eq_nil (h : ∀ ev ∈ evs, ev.result? = none) : tries evs = [] :=
  List.filterMap_eq_nil_iff.2 fun ev hev => tried_of_result (h ev hev)

theorem tries_handleAuthRes (cfg : Config) (env : Env) (e : ClientEntry) (result : ℤ) :
    tries (handleAuthRes cfg env e result).events = [] :=
  tries_eq_nil fun ev hev => ((handleAuthRes_frame cfg env e result).events ev hev).2.2

theorem points_addScoreToIp (cfg : Config) (env : Env) (e : ClientEntry) (n : ℕ) :
    points (addScoreToIp cfg env e n).1 =
      if Reports cfg env then [(e.remoteIp, n)] else [] := by
  unfold addScoreToIp
  by_cases hmax : cfg.maxBanScore = 0
  · rw [if_pos hmax, if_neg fun h => h.1 hmax]
    rfl
  · cases hmem : env.mem with
    | false => simp [Reports, hmax, hmem, points]
    | true => cases hsent : env.banReply.sent <;> simp [Reports, hmax, hmem, hsent, points, points?]

theorem points_sendAuthReplyFailed (env : Env) (e : ClientEntry) :
    points (sendAuthReplyFailed env e).events = [] := by
  unfold sendAuthReplyFailed
  split <;> rfl

theorem points_sendAuthReplyMsg (env : Env) (e : ClientEntry) :
    points (sendAuthReplyMsg env e).orFail.events = [] := by
  unfold Out.orFail sendAuthReplyMsg
  cases env.sendOk <;> rfl

theorem points_handleAuthContinue (hstatus : e.status ≠ .init) (hretries : allowsRetries e = true) :
    points (handleAuthContinue cfg env e).events =
      points (addScoreToIp cfg env e cfg.banPointsWrongPassword).1 := by
  rw [handleAuthContinue, if_pos ⟨hstatus, hretries⟩]
  dsimp only
  split
  · rw [Out.after, points_append, points_sendAuthReplyFailed, List.append_nil]
  · rw [Out.after, points_append, points_sendAuthReplyMsg, List.append_nil]

theorem points_handleAuthFailure (cfg : Config) (env : Env) (e : ClientEntry) (result : ℤ) :
    points (handleAuthFailure cfg env e result).events =
      points (addScoreToIp cfg env (e.setStatus .failed) cfg.banPointsWrongPassword).1 := by
  rw [handleAuthFailure]
  rw [Out.after, points_append, points_sendAuthReplyFailed, List.append_nil]

/-- **A wrong password is reported once**, whether there may be another or not. -/
theorem points_handleAuthRes (hstatus : e.status = .cont) (hmodule : e.module = some .plain)
    (hmsg : env.authMsg = 0) (hwrong : result ≠ 0) :
    points (handleAuthRes cfg env e result).events =
      if Reports cfg env then [(e.remoteIp, cfg.banPointsWrongPassword)] else [] := by
  have hret : ¬ (getAuthMsg env e result).ret < 0 := by
    rw [getAuthMsg, hmodule]
    dsimp only
    split <;> simp [hmsg]
  rw [handleAuthRes]
  rw [if_neg hret]
  by_cases hcont : result = errAuthContinue
  · have hget : getAuthMsg env e result = ⟨{ e with msgStr := env.authMsgStr },
        [.call e.id .plain .authMsg e.authCtx env.authMsg], env.authMsg⟩ := by
      rw [getAuthMsg, hmodule]
      dsimp only
      rw [if_pos (Or.inl hcont)]
    rw [if_pos hcont, hget, Out.after, points_append, points_handleAuthContinue,
      points_addScoreToIp]
    · rfl
    · intro h
      cases hstatus.symm.trans h
    · simp only [allowsRetries, hmodule, AuthMod.allowsRetries]
  · have hget : getAuthMsg env e result = ⟨e, [], 0⟩ := by
      rw [getAuthMsg, hmodule]
      dsimp only
      rw [if_neg (not_or.2 ⟨hcont, hwrong⟩)]
    rw [if_neg hcont, if_neg hwrong, hget, Out.after, points_append, points_handleAuthFailure,
      points_addScoreToIp]
    rfl

theorem handleAuthCont_evaluates {req : AuthContMsg} (hopen : e.status = .init ∨ e.status = .cont)
    (hmodule : e.module = some .plain) (hpass : req.password = some pass) :
    handleAuthCont cfg env req e = (handleAuthRes cfg env (e.setStatus .cont) env.authPass).after
      [.call e.id .plain .authPass e.authCtx env.authPass] := by
  have hstatus : ¬ (e.status ≠ .init ∧ e.status ≠ .cont) := by
    rcases hopen with h | h <;> simp [h]
  rw [handleAuthCont, if_neg hstatus, if_neg (by rw [hpass]; nofun), hmodule]

theorem handleAuthCont_refuses {req : AuthContMsg}
    (h : ¬ ((e.status = .init ∨ e.status = .cont) ∧ req.password ≠ none)) :
    handleAuthCont cfg env req e = handleAuthRes cfg env e (-1) := by
  unfold handleAuthCont
  split
  · rfl
  · rename_i hstatus
    rw [if_pos]
    by_contra hpass
    exact h ⟨by tauto, hpass⟩

theorem tries_initModule (env : Env) (req : AuthInitMsg) (e : ClientEntry) :
    tries (initModule env req e).2.1 = [] := by
  unfold initModule
  split
  · rfl
  · dsimp only
    split
    · rfl
    · split <;> rfl

theorem module_initModule (env : Env) (req : AuthInitMsg) (e : ClientEntry) :
    (initModule env req e).1.module = e.module := by
  unfold initModule
  repeat' split
  all_goals rfl

/-- A module that refused is an error. -/
theorem authInit_of_ok {req : AuthInitMsg} {calls : List Event} {needContinue : Bool} {m : AuthMod}
    (hm : e.module = some m) (h : initModule env req e = (e', calls, .ok needContinue)) :
    0 ≤ env.authInit.1 ∨ env.authInit.1 = errAuthContinue := by
  unfold initModule at h
  rw [hm] at h
  dsimp only at h
  split at h
  · cases h
  · rename_i hret
    by_contra hc
    exact hret ⟨fun h => hc (Or.inr h), by omega⟩

variable (cfg env) in
/-- What `AUTH_INIT` does: nothing is tried; an entry of the plain backend is one it did not
refuse, or has failed. -/
theorem handleAuthInit_spec (req : AuthInitMsg) (hnew : e.module = none) :
    tries (handleAuthInit cfg env req e).events = [] ∧
      ((handleAuthInit cfg env req e).entry.module = some .plain →
        usesPlain cfg req = true ∧ ((handleAuthInit cfg env req e).entry.status = .failed ∨
          0 ≤ env.authInit.1 ∨ env.authInit.1 = errAuthContinue)) := by
  have hres {e₁ : ClientEntry} {calls : List Event} {ret : ℤ} (hcalls : tries calls = []) :
      tries ((handleAuthRes cfg env e₁ ret).after calls).events = [] := by
    rw [Out.after, tries_append, hcalls, tries_handleAuthRes]
    rfl
  have hfailed {e₁ : ClientEntry} {calls : List Event} {ret : ℤ} (h₀ : ret ≠ 0)
      (h₁ : ret ≠ errAuthContinue) :
      ((handleAuthRes cfg env e₁ ret).after calls).entry.status = .failed :=
    handleAuthRes_error h₀ h₁
  have hmod {e₁ : ClientEntry} {calls : List Event} {ret : ℤ} :
      ((handleAuthRes cfg env e₁ ret).after calls).entry.module = e₁.module :=
    (handleAuthRes_frame cfg env e₁ ret).module_eq
  unfold handleAuthInit
  split
  · refine ⟨tries_handleAuthRes cfg env e _, fun h => ?_⟩
    rw [(handleAuthRes_frame cfg env e _).module_eq, hnew] at h
    cases h
  · rename_i method hmethod
    have huses : method.amod = some .plain → usesPlain cfg req = true := fun h => by
      rw [usesPlain, hmethod]
      simp [h]
    have hcalls := tries_initModule env req (chooseMethod req method e)
    have hkeeps := module_initModule env req (chooseMethod req method e)
    split <;> rename_i e₁ calls _ hinit <;> rw [hinit] at hcalls hkeeps
    · obtain ⟨h₀, h₁⟩ := initModule_error hinit
      exact ⟨hres hcalls, fun h =>
        ⟨huses (hkeeps.symm.trans (hmod.symm.trans h)), Or.inl (hfailed h₀ h₁)⟩⟩
    · split
      · refine ⟨hres hcalls, fun h =>
          ⟨huses (hkeeps.symm.trans (hmod.symm.trans h)), Or.inl (hfailed ?_ ?_)⟩⟩
        · decide
        · decide
      · rename_i e₂ hgroup
        have hkeeps₂ := (certGroup_frame hgroup).2
        have hkeeps₃ := (checkUserGroupStatus_frame cfg req e₂).2
        split <;> rename_i e₃ hcheck <;> rw [hcheck] at hkeeps₃
        · refine ⟨hres hcalls, fun h => ⟨huses (hkeeps.symm.trans (hkeeps₂.symm.trans
            (hkeeps₃.symm.trans (hmod.symm.trans h)))), Or.inl (hfailed ?_ ?_)⟩⟩
          · decide
          · decide
        · have hcalls' : tries (calls ++ [.checked e₃.id]) = [] := by
            rw [tries_append, hcalls]
            rfl
          refine ⟨hres hcalls', fun h => ?_⟩
          have hm : e₃.module = some .plain := (@hmod (e₃.setStatus .init) _ _).symm.trans h
          have hplain := hkeeps.symm.trans (hkeeps₂.symm.trans (hkeeps₃.symm.trans hm))
          exact ⟨huses hplain, Or.inr (authInit_of_ok hplain hinit)⟩

/-! ### One request -/

section Step

variable {sv : SecModSt} {s s' : PlainSt} {req : AuthContMsg} {l : Req × Env}

variable (cfg env req) in
/-- What an `AUTH_CONT` does to the database: its handler works on the entry it found. -/
theorem serve_authCont (hwf : WF sv) (he : e ∈ sv.db) :
    ((Cmd.authCont req).entry env sv = some e ∧
        (handleAuthCont cfg env req e).entry ∈ (sv.serve cfg env (.authCont req)).db ∧
        history e.id (sv.serve cfg env (.authCont req)).trace =
          history e.id sv.trace ++ (handleAuthCont cfg env req e).events) ∨
      ((Cmd.authCont req).entry env sv ≠ some e ∧ e ∈ (sv.serve cfg env (.authCont req)).db ∧
        history e.id (sv.serve cfg env (.authCont req)).trace = history e.id sv.trace) := by
  unfold SecModSt.serve Cmd.entry
  dsimp only
  split
  · exact Or.inr ⟨nofun, he, rfl⟩
  · split
    · rename_i hfind
      exact Or.inr ⟨by rw [hfind]; nofun, he, rfl⟩
    · rename_i x hfind
      have hx := (mem_of_findClientEntry hfind).1
      have hframe := (handleAuthCont_frame cfg env req x).1
      have hall : ∀ ev ∈ (handleAuthCont cfg env req x).events, ev.id? = some x.id :=
        fun ev hev => (hframe.events ev hev).1
      rw [hfind]
      simp only [SecModSt.put, history_append]
      by_cases hid : e.id = x.id
      · obtain rfl := Table.eq_of_key_eq hwf.ids he hx hid
        rw [history_of_all hall]
        exact Or.inl ⟨rfl, Table.mem_update_self he hframe.same.id_eq.symm, rfl⟩
      · refine Or.inr ⟨fun h => hid (Option.some.inj h ▸ rfl), ?_, ?_⟩
        · exact Table.mem_update_of_ne he (hframe.same.id_eq ▸ hid)
        · have hne : ∀ ev ∈ (handleAuthCont cfg env req x).events, ev.id? ≠ some e.id := by
            intro ev hev h
            rw [hall ev hev] at h
            exact hid (Option.some.inj h).symm
          rw [history_of_ne hne, List.append_nil]

/-- No entry comes from elsewhere. -/
theorem mem_serve_authCont (h : e' ∈ (sv.serve cfg env (.authCont req)).db) :
    (e' ∈ sv.db ∧ ∀ e ∈ sv.db, (Cmd.authCont req).entry env sv = some e → e.id ≠ e'.id) ∨
      ∃ e ∈ sv.db, (Cmd.authCont req).entry env sv = some e ∧
        e' = (handleAuthCont cfg env req e).entry := by
  unfold SecModSt.serve at h
  unfold Cmd.entry
  dsimp only at h ⊢
  split at h
  · rename_i hsid
    exact Or.inl ⟨h, fun _ _ => by rw [if_pos hsid]; nofun⟩
  · rename_i hsid
    rw [if_neg hsid]
    split at h
    · rename_i hfind
      exact Or.inl ⟨h, fun _ _ => by rw [hfind]; nofun⟩
    · rename_i x hfind
      rcases Table.mem_update h with rfl | ⟨hmem, hne⟩
      · exact Or.inr ⟨x, (mem_of_findClientEntry hfind).1, hfind, rfl⟩
      · refine Or.inl ⟨hmem, fun y _ hy => ?_⟩
        obtain rfl := Option.some.inj (hfind.symm.trans hy)
        intro hid
        exact hne (hid.symm.trans (handleAuthCont_frame cfg env req _).1.same.id_eq.symm)

theorem mem_of_entry (h : (Cmd.authCont req).entry env sv = some e) : e ∈ sv.db := by
  unfold Cmd.entry at h
  dsimp only at h
  split at h
  · cases h
  · exact (mem_of_findClientEntry h).1

theorem evaluates_eq_some {pass : Bytes} (env : Env) :
    evaluates sv req = some (e, pass) ↔ (Cmd.authCont req).entry env sv = some e ∧
      req.password = some pass ∧ (e.status = .init ∨ e.status = .cont) ∧
      e.module = some .plain := by
  unfold evaluates Cmd.entry
  dsimp only
  by_cases hsid : req.sid.length ≠ sidSize
  · rw [if_pos hsid, if_pos hsid]
    exact iff_of_false nofun fun h => nomatch h.1
  · rw [if_neg hsid, if_neg hsid]
    split
    · rename_i x p hfind hpass
      rw [hfind, hpass]
      simp only [Option.ite_none_right_eq_some, Option.some.injEq, Prod.mk.injEq]
      constructor
      · rintro ⟨⟨hopen, hplain⟩, rfl, rfl⟩
        exact ⟨rfl, rfl, hopen, hplain⟩
      · rintro ⟨rfl, rfl, hopen, hplain⟩
        exact ⟨⟨hopen, hplain⟩, rfl, rfl⟩
    · rename_i hnone
      exact iff_of_false nofun fun h => hnone _ _ h.1 h.2.1

/-- What a request does to an entry of the plain backend. -/
inductive Touched (cfg : Config) (crypt : Crypt) (env : Env) (s s' : PlainSt)
    (e e' : ClientEntry) : Prop
  | kept (hentry : e' = e)
      (hhist : history e.id s'.server.trace = history e.id s.server.trace)
      (hctx : s'.ctxs e.id = s.ctxs e.id)
  | tried (ctx ctx' : PlainCtx) (pass : Bytes) (ret : ℤ)
      (hopen : e.status = .init ∨ e.status = .cont) (hctx : s.ctxs e.id = some ctx)
      (hpass : plainAuthPass crypt ctx pass = some (ret, ctx'))
      (hentry : e' = (handleAuthRes cfg (contEnv env ret) (e.setStatus .cont) ret).entry)
      (hhist : history e.id s'.server.trace = history e.id s.server.trace ++
        .call e.id .plain .authPass e.authCtx ret ::
          (handleAuthRes cfg (contEnv env ret) (e.setStatus .cont) ret).events)
      (hctx' : s'.ctxs e.id = some ctx')
  | refused (hentry : e' = (handleAuthRes cfg env e (-1)).entry)
      (hhist : history e.id s'.server.trace =
        history e.id s.server.trace ++ (handleAuthRes cfg env e (-1)).events)
      (hctx : s'.ctxs e.id = s.ctxs e.id)

/-- A new entry of the plain backend: nothing was tried, and it has a context or has failed. -/
structure Fresh (s : PlainSt) (e : ClientEntry) : Prop where
  tries_eq : tries (history e.id s.server.trace) = []
  open_ctx : e.status = .failed ∨ ∃ ctx, s.ctxs e.id = some ctx ∧ ctx.retries = 0

variable (cfg env) in
theorem serve_authInit (hwf : WF sv) (req : AuthInitMsg) :
    (∀ e ∈ sv.db, e ∈ (sv.serve cfg env (.authInit req)).db ∧ e.id ≠ sv.nextId ∧
      history e.id (sv.serve cfg env (.authInit req)).trace = history e.id sv.trace) ∧
    ∀ e' ∈ (sv.serve cfg env (.authInit req)).db, e' ∈ sv.db ∨
      ∃ e : ClientEntry, e.module = none ∧ e.id = sv.nextId ∧
        e' = (handleAuthInit cfg env req e).entry ∧
        history e'.id (sv.serve cfg env (.authInit req)).trace =
          .created e.id e.sid :: (handleAuthInit cfg env req e).events := by
  unfold SecModSt.serve
  dsimp only
  split
  · exact ⟨fun e he => ⟨he, (hwf.lt e he).ne, rfl⟩, fun e he => Or.inl he⟩
  · rename_i x hnew
    have hid := (newClientEntry_isNew hnew).id_eq
    have hframe := handleAuthInit_frame cfg env req x
    have hall : ∀ ev ∈ .created x.id x.sid :: (handleAuthInit cfg env req x).events,
        ev.id? = some x.id := by
      intro ev hev
      rcases List.mem_cons.1 hev with rfl | hev
      · rfl
      · exact (hframe.events ev hev).1
    refine ⟨fun e he => ⟨List.mem_cons_of_mem _ he, (hwf.lt e he).ne, ?_⟩, fun e' he' => ?_⟩
    · rw [history_append, history_of_ne (t := .created x.id x.sid :: _), List.append_nil]
      intro ev hev h
      rw [hall ev hev, hid] at h
      exact (hwf.lt e he).ne (Option.some.inj h).symm
    · rcases List.mem_cons.1 he' with rfl | he'
      · refine Or.inr ⟨x, ?_, hid, rfl, ?_⟩
        · unfold newClientEntry at hnew
          split at hnew
          · cases hnew
          · obtain ⟨sid, -, rfl⟩ := Option.map_eq_some_iff.1 hnew
            rfl
        · rw [hframe.same.id_eq, history_append, history_of_all hall, history_of_ne]
          · rfl
          · intro ev hev h
            have := hwf.trace ev hev _ h
            omega
      · exact Or.inl he'

/-- Sec-mod serves the request in the environment the backend makes. -/
theorem step_server (hs : s.step cfg crypt l = some s') :
    ∃ env, s'.server = s.server.serve cfg env l.1.cmd := by
  obtain ⟨r, env⟩ := l
  cases r with
  | init req file =>
    simp only [PlainSt.step] at hs
    split at hs
    · obtain ⟨⟨ret, ctx⟩, -, rfl⟩ := Option.map_eq_some_iff.1 hs
      exact ⟨_, rfl⟩
    · cases hs
      exact ⟨_, rfl⟩
  | cont req =>
    simp only [PlainSt.step] at hs
    split at hs
    · cases hs
      exact ⟨_, rfl⟩
    · obtain ⟨ctx, -, hs⟩ := Option.bind_eq_some_iff.1 hs
      obtain ⟨⟨ret, ctx'⟩, -, rfl⟩ := Option.map_eq_some_iff.1 hs
      exact ⟨_, rfl⟩

theorem step_wf (hwf : WF s.server) (hs : s.step cfg crypt l = some s') : WF s'.server := by
  obtain ⟨env, h⟩ := step_server hs
  rw [h]
  exact hwf.serve cfg env _

theorem Touched.id_eq (h : Touched cfg crypt env s s' e e') : e'.id = e.id := by
  cases h with
  | kept hentry => rw [hentry]
  | tried ctx ctx' pass ret _ _ _ hentry =>
    rw [hentry]
    exact (handleAuthRes_frame cfg _ (e.setStatus .cont) ret).same.id_eq
  | refused hentry =>
    rw [hentry]
    exact (handleAuthRes_frame cfg _ e _).same.id_eq

/-- An `AUTH_CONT` asks the backend about the entry it finds, refuses it, or finds another. -/
theorem step_cont (hwf : WF s.server) (hs : s.step cfg crypt (.cont req, env) = some s')
    (he : e ∈ s.server.db) (hm : e.module = some .plain) :
    ∃ e' ∈ s'.server.db, Touched cfg crypt env s s' e e' := by
  simp only [PlainSt.step] at hs
  split at hs
  · rename_i hnone
    cases hs
    rcases serve_authCont cfg env req hwf he with
      ⟨hentry, hmem, hhist⟩ | ⟨-, hmem, hhist⟩
    · have hrefuses : handleAuthCont cfg env req e = handleAuthRes cfg env e (-1) := by
        refine handleAuthCont_refuses fun hc => ?_
        obtain ⟨pass, hpass⟩ := Option.ne_none_iff_exists'.1 hc.2
        rw [(evaluates_eq_some env).2 ⟨hentry, hpass, hc.1, hm⟩] at hnone
        cases hnone
      rw [hrefuses] at hmem hhist
      exact ⟨_, hmem, .refused rfl hhist rfl⟩
    · exact ⟨e, hmem, .kept rfl hhist rfl⟩
  · rename_i x pass hsome
    obtain ⟨ctx, hctx, hs⟩ := Option.bind_eq_some_iff.1 hs
    obtain ⟨⟨ret, ctx'⟩, hpass, rfl⟩ := Option.map_eq_some_iff.1 hs
    obtain ⟨hfind, hpassword, hopen, hplain⟩ := (evaluates_eq_some (contEnv env ret)).1 hsome
    rcases serve_authCont cfg (contEnv env ret) req hwf he with
      ⟨hentry, hmem, hhist⟩ | ⟨hentry, hmem, hhist⟩
    · obtain rfl := Option.some.inj (hfind.symm.trans hentry)
      rw [handleAuthCont_evaluates hopen hplain hpassword] at hmem hhist
      exact ⟨_, hmem, .tried ctx ctx' pass ret hopen hctx hpass rfl hhist
        (Function.update_self ..)⟩
    · refine ⟨e, hmem, .kept rfl hhist (Function.update_of_ne ?_ _ _)⟩
      intro hid
      have hx := Table.eq_of_key_eq hwf.ids he (mem_of_entry hfind) hid
      exact hentry (hx ▸ hfind)

/-- **What one request does** to the entries of the plain backend: to each of those there were,
and where those there are come from. -/
theorem step_entries (hwf : WF s.server) (hs : s.step cfg crypt l = some s') :
    (∀ e ∈ s.server.db, e.module = some .plain →
      ∃ e' ∈ s'.server.db, Touched cfg crypt l.2 s s' e e') ∧
    ∀ e' ∈ s'.server.db, e'.module = some .plain →
      (∃ e ∈ s.server.db, e.module = some .plain ∧ Touched cfg crypt l.2 s s' e e') ∨
        Fresh s' e' := by
  obtain ⟨r, env⟩ := l
  cases r with
  | init req file =>
    simp only [PlainSt.step] at hs
    split at hs
    · rename_i huses
      obtain ⟨⟨ret, ctx⟩, hinit, rfl⟩ := Option.map_eq_some_iff.1 hs
      obtain ⟨hold, hnew⟩ := serve_authInit cfg (initEnv env ret ctx) hwf req
      have hkept : ∀ e ∈ s.server.db, Touched cfg crypt env s
          ⟨s.server.serve cfg (initEnv env ret ctx) (.authInit req),
            Function.update s.ctxs s.server.nextId ctx⟩ e e := fun e he =>
        .kept rfl (hold e he).2.2 (Function.update_of_ne (hold e he).2.1 _ _)
      refine ⟨fun e he _ => ⟨e, (hold e he).1, hkept e he⟩, fun e' he' hm => ?_⟩
      rcases hnew e' he' with he' | ⟨x, hx, hid, rfl, hhist⟩
      · exact Or.inl ⟨e', he', hm, hkept e' he'⟩
      · obtain ⟨htries, hplain⟩ := handleAuthInit_spec cfg (initEnv env ret ctx) req hx
        refine Or.inr ⟨?_, ?_⟩
        · rw [hhist]
          exact htries
        · rcases (hplain hm).2 with hfailed | hauth
          · exact Or.inl hfailed
          · rcases plainAuthInit_spec hinit with ⟨rfl, rfl⟩ | ⟨-, c, rfl, hc⟩
            · have hret : ¬ (0 ≤ InitRet.authFail.1 ∨ InitRet.authFail.1 = errAuthContinue) := by
                decide
              exact absurd hauth hret
            · refine Or.inr ⟨c, ?_, hc⟩
              rw [(handleAuthInit_frame cfg _ req x).same.id_eq, hid]
              exact Function.update_self ..
    · rename_i huses
      cases hs
      obtain ⟨hold, hnew⟩ := serve_authInit cfg env hwf req
      refine ⟨fun e he _ => ⟨e, (hold e he).1, .kept rfl (hold e he).2.2 rfl⟩,
        fun e' he' hm => ?_⟩
      rcases hnew e' he' with he' | ⟨x, hx, -, rfl, -⟩
      · exact Or.inl ⟨e', he', hm, .kept rfl (hold e' he').2.2 rfl⟩
      · exact absurd ((handleAuthInit_spec cfg env req hx).2 hm).1 huses
  | cont req =>
    have htouched := fun e he hm => step_cont (e := e) hwf hs he hm
    refine ⟨htouched, fun e' he' hm => Or.inl ?_⟩
    -- the entry it comes from, and what became of that one
    have horigin : ∃ e ∈ s.server.db, e.id = e'.id ∧ e.module = some .plain := by
      obtain ⟨env', hserver⟩ := step_server hs
      rw [hserver] at he'
      rcases mem_serve_authCont he' with ⟨he, -⟩ | ⟨e, he, -, rfl⟩
      · exact ⟨e', he, rfl, hm⟩
      · obtain ⟨hframe, hmodule⟩ := handleAuthCont_frame cfg env' req e
        exact ⟨e, he, hframe.same.id_eq.symm, hmodule ▸ hm⟩
    obtain ⟨e, he, hid, hplain⟩ := horigin
    obtain ⟨e'', he'', ht⟩ := htouched e he hplain
    obtain rfl := Table.eq_of_key_eq (step_wf hwf hs).ids he'' he' (ht.id_eq.trans hid)
    exact ⟨e, he, hplain, ht⟩

/-! ### Runs -/

section Run

variable {s s' : PlainSt} {l : Req × Env} {ls : List (Req × Env)}

/-- The invariant of an entry: while its authentication goes on, the counter of the context is the
number of the passwords tried, and all of them were wrong; in the end there were at most
`MAX_PASSWORD_TRIES`, and if all of these were wrong the entry has failed. -/
structure TriesInv (e : ClientEntry) (t : List Event) (ctx : Option PlainCtx) : Prop where
  counted : e.status = .init ∨ e.status = .cont → ∃ c, ctx = some c ∧
    (tries t).length = c.retries ∧ (wrong t).length = c.retries ∧ c.retries < maxPasswordTries
  le : (tries t).length ≤ maxPasswordTries
  failed : (wrong t).length = maxPasswordTries → e.status = .failed

theorem tries_call (id : ℕ) (ctx : Option AuthMod) (ret : ℤ) :
    tries (.call id .plain .authPass ctx ret :: evs) = ret :: tries evs := rfl

theorem wrong_call (id : ℕ) (ctx : Option AuthMod) (ret : ℤ) (h : tries evs = []) :
    wrong (.call id .plain .authPass ctx ret :: evs) = if ret = 0 then [] else [ret] := by
  rw [wrong, tries_call, h]
  by_cases hret : ret = 0 <;> simp [hret]

theorem Fresh.inv (h : Fresh s e) : TriesInv e (history e.id s.server.trace) (s.ctxs e.id) := by
  have hwrong : wrong (history e.id s.server.trace) = [] := by
    rw [wrong, h.tries_eq]
    rfl
  refine ⟨fun hopen => ?_, by rw [h.tries_eq]; exact Nat.zero_le _, ?_⟩
  · rcases h.open_ctx with hfailed | ⟨c, hc, hzero⟩
    · rw [hfailed] at hopen
      rcases hopen with h | h <;> cases h
    · rw [h.tries_eq, hwrong]
      exact ⟨c, hc, hzero.symm, hzero.symm, by rw [hzero]; decide⟩
  · rw [hwrong]
    nofun

/-- The invariant goes from an entry to what a request makes of it. -/
theorem Touched.inv (ht : Touched cfg crypt env s s' e e')
    (h : TriesInv e (history e.id s.server.trace) (s.ctxs e.id)) :
    TriesInv e' (history e'.id s'.server.trace) (s'.ctxs e'.id) := by
  rw [ht.id_eq]
  cases ht with
  | kept hentry hhist hctx =>
    rw [hentry, hhist, hctx]
    exact h
  | refused hentry hhist hctx =>
    have htries := tries_handleAuthRes cfg env e (-1)
    have hfailed : e'.status = .failed := by
      rw [hentry]
      exact handleAuthRes_error (by decide) (by decide)
    rw [hhist, hctx]
    refine ⟨fun hopen => ?_, ?_, fun _ => hfailed⟩
    · rw [hfailed] at hopen
      rcases hopen with h | h <;> cases h
    · rw [tries_append, htries, List.append_nil]
      exact h.le
  | tried ctx ctx' pass ret hopen hctx hpass hentry hhist hctx' =>
    obtain ⟨c, hc, hlen, hwrong, hlt⟩ := h.counted hopen
    obtain rfl := Option.some.inj (hctx.symm.trans hc)
    have htries := tries_handleAuthRes cfg (contEnv env ret) (e.setStatus .cont) ret
    have hlen' : (tries (history e.id s'.server.trace)).length = ctx.retries + 1 := by
      rw [hhist, tries_append, List.length_append, hlen, tries_call, htries]
      rfl
    have hwrong' : (wrong (history e.id s'.server.trace)).length =
        ctx.retries + if ret = 0 then 0 else 1 := by
      rw [hhist, wrong_append, List.length_append, hwrong, wrong_call _ _ _ htries]
      split_ifs <;> rfl
    have hstatus := handleAuthRes_status cfg (contEnv env ret) (e.setStatus .cont) ret
    refine ⟨fun hopen' => ⟨ctx', hctx', ?_⟩, ?_, fun hall => ?_⟩
    · -- the entry waits for another password only if the module asked for one
      have hcont : ret = errAuthContinue := by
        rw [hentry] at hopen'
        cases hstatus with
        | failed h => rcases hopen' with h' | h' <;> cases h.symm.trans h'
        | goesOn _ hres => exact hres
        | completed h => rcases hopen' with h' | h' <;> cases h.symm.trans h'
      subst hcont
      rcases plainAuthPass_spec hpass with h₀ | ⟨hcount, ⟨-, hmore⟩ | ⟨h₁, -⟩⟩
      · cases h₀
      · rw [hlen', hwrong', hcount]
        refine ⟨rfl, rfl, ?_⟩
        simp only [maxPasswordTries] at hmore ⊢
        omega
      · cases h₁
    · rw [hlen']
      exact hlt
    · rw [hwrong'] at hall
      by_cases h₀ : ret = 0
      · rw [if_pos h₀] at hall
        omega
      · rw [if_neg h₀] at hall
        rcases plainAuthPass_spec hpass with h | ⟨-, ⟨-, hmore⟩ | ⟨rfl, -⟩⟩
        · exact absurd h h₀
        · simp only [maxPasswordTries] at hmore hall
          omega
        · rw [hentry]
          exact handleAuthRes_error (by decide) (by decide)

/-- A failed entry stays failed, and no password is tried for it. -/
theorem Touched.failed (ht : Touched cfg crypt env s s' e e') (hf : e.status = .failed) :
    e'.sid = e.sid ∧ e'.module = e.module ∧ e'.status = .failed ∧
      tries (history e.id s'.server.trace) = tries (history e.id s.server.trace) := by
  cases ht with
  | kept hentry hhist hctx =>
    rw [hentry, hhist]
    exact ⟨rfl, rfl, hf, rfl⟩
  | refused hentry hhist hctx =>
    have hframe := handleAuthRes_frame cfg env e (-1)
    rw [hentry, hhist, tries_append, tries_handleAuthRes, List.append_nil]
    exact ⟨hframe.same.sid_eq, hframe.module_eq,
      handleAuthRes_error (by decide) (by decide), rfl⟩
  | tried ctx ctx' pass ret hopen =>
    rw [hf] at hopen
    rcases hopen with h | h <;> cases h

/-- **A wrong password is reported to main once**, if a report can be made. -/
theorem Touched.points (ht : Touched cfg crypt env s s' e e') (hplain : e.module = some .plain)
    {ret : ℤ} (hret : ret ≠ 0) (htried : tries (history e.id s'.server.trace) =
      tries (history e.id s.server.trace) ++ [ret]) :
    points (history e.id s'.server.trace) = points (history e.id s.server.trace) ++
      if Reports cfg env then [(e.remoteIp, cfg.banPointsWrongPassword)] else [] := by
  cases ht with
  | kept hentry hhist hctx =>
    rw [hhist] at htried
    exact absurd (congrArg List.length htried) (by simp)
  | refused hentry hhist hctx =>
    rw [hhist, tries_append, tries_handleAuthRes, List.append_nil] at htried
    exact absurd (congrArg List.length htried) (by simp)
  | tried ctx ctx' pass ret' hopen hctx hpass hentry hhist hctx' =>
    rw [hhist, tries_append, tries_call, tries_handleAuthRes, List.append_cancel_left_eq] at htried
    obtain rfl := (List.cons.inj htried).1
    have hres : PlainTries.points
        (handleAuthRes cfg (contEnv env ret') (e.setStatus .cont) ret').events = _ :=
      points_handleAuthRes rfl hplain rfl hret
    rw [hhist, points_append]
    exact congrArg _ hres

/-- All the entries of the plain backend. -/
structure AllTries (s : PlainSt) : Prop where
  wf : WF s.server
  inv : ∀ e ∈ s.server.db, e.module = some .plain →
    TriesInv e (history e.id s.server.trace) (s.ctxs e.id)

theorem AllTries.step (h : AllTries s) (hs : s.step cfg crypt l = some s') : AllTries s' := by
  refine ⟨step_wf h.wf hs, fun e' he' hm => ?_⟩
  rcases (step_entries h.wf hs).2 e' he' hm with ⟨e, he, hplain, ht⟩ | hfresh
  · exact ht.inv (h.inv e he hplain)
  · exact hfresh.inv

theorem AllTries.run (h : AllTries s) (hrun : (plainMachine cfg crypt).run s ls = some s') :
    AllTries s' :=
  (Machine.always_of_step (C := fun _ _ => True) (fun _ _ _ h _ hs => h.step hs) h
    (Machine.meets_true s ls)).last hrun

theorem allTries_start : AllTries plainStart :=
  ⟨start_wf, fun _ h => absurd h List.not_mem_nil⟩

/-- What became of a failed entry. -/
structure StaysFailed (e : ClientEntry) (t : List ℤ) (s : PlainSt) : Prop where
  wf : WF s.server
  found : ∃ e' ∈ s.server.db, e'.id = e.id ∧ e'.sid = e.sid ∧ e'.module = some .plain ∧
    e'.status = .failed
  tries_eq : tries (history e.id s.server.trace) = t

theorem StaysFailed.step {t : List ℤ} (h : StaysFailed e t s)
    (hs : s.step cfg crypt l = some s') : StaysFailed e t s' := by
  obtain ⟨x, hx, hid, hsid, hm, hf⟩ := h.found
  obtain ⟨x', hx', ht⟩ := (step_entries h.wf hs).1 x hx hm
  obtain ⟨hsid', hm', hf', htries⟩ := ht.failed hf
  rw [hid, h.tries_eq] at htries
  exact ⟨step_wf h.wf hs,
    ⟨x', hx', ht.id_eq.trans hid, hsid'.trans hsid, hm'.trans hm, hf'⟩, htries⟩

/-- **Password attempts with the plain backend**, in every run of the requests of any clients: no
entry gets more than `MAX_PASSWORD_TRIES` evaluations; after that many wrong ones it has failed;
a failed entry stays failed and gets no further evaluation; and where a report can be made, what
the request with a wrong password reports adds the points to the address of the client once. -/
theorem plain_tries (hrun : (plainMachine cfg crypt).run plainStart ls = some s)
    (he : e ∈ s.server.db) (hplain : e.module = some .plain) :
    (tries (history e.id s.server.trace)).length ≤ maxPasswordTries ∧
    ((wrong (history e.id s.server.trace)).length = maxPasswordTries → e.status = .failed) ∧
    (e.status = .failed → ∀ ls' s', (plainMachine cfg crypt).run s ls' = some s' →
      (∃ e' ∈ s'.server.db, e'.id = e.id ∧ e'.sid = e.sid ∧ e'.status = .failed) ∧
        tries (history e.id s'.server.trace) = tries (history e.id s.server.trace)) ∧
    ∀ l s' ret, (plainMachine cfg crypt).step s l = some s' → ret ≠ 0 →
      tries (history e.id s'.server.trace) = tries (history e.id s.server.trace) ++ [ret] →
        ∃ reports, points (history e.id s'.server.trace) =
            points (history e.id s.server.trace) ++ reports ∧
          ∀ bans now stored db, handleBanIps bans now stored db reports =
            if Reports cfg l.2 then
              (Main.addIpToBanList bans db now e.remoteIp (.ofNat cfg.banPointsWrongPassword)
                stored).1
            else db := by
  have hall := allTries_start.run hrun
  have hinv := hall.inv e he hplain
  refine ⟨hinv.le, hinv.failed, fun hf ls' s' hrun' => ?_, fun l s' ret hs hret htried => ?_⟩
  · have hstays : StaysFailed e (tries (history e.id s.server.trace)) s' :=
      (Machine.always_of_step (C := fun _ _ => True) (fun _ _ _ h _ hs => h.step hs)
        ⟨hall.wf, ⟨e, he, rfl, rfl, hplain, hf⟩, rfl⟩ (Machine.meets_true s ls')).last hrun'
    obtain ⟨e', he', hid, hsid, -, hf'⟩ := hstays.found
    exact ⟨⟨e', he', hid, hsid, hf'⟩, hstays.tries_eq⟩
  · obtain ⟨e', -, ht⟩ := (step_entries hall.wf hs).1 e he hplain
    refine ⟨_, ht.points hplain hret htried, fun bans now stored db => ?_⟩
    split <;> rfl

end Run

namespace Sample

/-- A user `u` with the password `p`. -/
def file : Bytes := [117, 58, 103, 58, 120, 121, 10]

def hash : Crypt := fun pass salt => some (if pass = [112] then salt else [])

def config (maxBanScore : ℕ) : Config :=
  { SecMod.Sample.config ⟨true, authTypePlain, some .plain⟩ none with maxBanScore := maxBanScore }

def environ : Env := SecMod.Sample.environ 1000

/-- The first request of a client. -/
def init : Req × Env :=
  (.init (SecMod.Sample.initMsg false authTypePlain) (some file), environ)

/-- A request with a password. -/
def password (c : UInt8) : Req × Env := (.cont ⟨SecMod.Sample.sid, some [c]⟩, environ)

/-- What became of the client: the status, the results of the passwords, the points. -/
def outcome (s : PlainSt) : List Status × List ℤ × List (Bytes × ℕ) :=
  (s.server.db.map ClientEntry.status, tries (history 0 s.server.trace),
    points (history 0 s.server.trace))

end Sample

/-- Without a ban score, without memory, or where the report is not sent, a wrong password adds no
points; and three evaluations are not a failure if the last password is right. -/
theorem plain_tries_exceptions :
    ((plainMachine (Sample.config 0) Sample.hash).run plainStart
      [Sample.init, Sample.password 97]).map Sample.outcome =
        some ([.cont], [errAuthContinue], []) ∧
    ((plainMachine (Sample.config 80) Sample.hash).run plainStart
      [Sample.init, ((Sample.password 97).1, { Sample.environ with mem := false })]).map
        Sample.outcome = some ([.cont], [errAuthContinue], []) ∧
    ((plainMachine (Sample.config 80) Sample.hash).run plainStart
      [Sample.init, ((Sample.password 97).1, { Sample.environ with banReply := .notSent })]).map
        Sample.outcome = some ([.failed], [errAuthContinue], []) ∧
    ((plainMachine (Sample.config 80) Sample.hash).run plainStart
      [Sample.init, Sample.password 97, Sample.password 98, Sample.password 112]).map
        Sample.outcome =
          some ([.completed], [errAuthContinue, errAuthContinue, 0],
            [([49], 10), ([49], 10)]) :=
  ⟨rfl, rfl, rfl, rfl⟩

/-- The server after a wrong password. -/
def Sample.tried : PlainSt :=
  ((plainMachine (Sample.config 80) Sample.hash).run plainStart
    [Sample.init, Sample.password 97]).getD plainStart

theorem plain_tries_sample :
    (tries (history 0 Sample.tried.server.trace)).length ≤ maxPasswordTries := by
  have hrun : (plainMachine (Sample.config 80) Sample.hash).run plainStart
      [Sample.init, Sample.password 97] = some Sample.tried := rfl
  obtain ⟨e, he, hid, hplain⟩ : ∃ e, Sample.tried.server.db.head? = some e ∧ e.id = 0 ∧
      e.module = some .plain := ⟨_, rfl, rfl, rfl⟩
  have h := (plain_tries hrun (List.mem_of_head? he) hplain).1
  rwa [hid] at h

end Step

end PlainTries

end SecMod

end Ocserv
