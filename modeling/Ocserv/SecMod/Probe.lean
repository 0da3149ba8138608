import Ocserv.SecMod.Coherence

/-!
# Sec-mod: a login with every method

For every method that can be chosen there is a run that logs in with it and opens a session, with
any other options (`probe_run`).  So the condition of `Ocserv.SecMod.Coherence` is exact.

* `coherent_iff` : no handler goes through a `NULL` module and every callback is given a context
  of its own module, along every run, exactly for the options that meet `PermCfg.Coherent`.
-/

namespace Ocserv

namespace SecMod

open Sample
open Worker (ascii)

variable {p : PermCfg} {cfg : Config} {s s' : SecModSt} {e e₁ : ClientEntry}

/-! ### Logging in -/

/-- A login with a certificate, one of whose groups has no name. -/
def Sample.probeMsg (authType : ℕ) : AuthInitMsg :=
  { initMsg true authType with certGroupNames := [[]] }

theorem generateCookie_environ (cfg : Config) (now : ℕ) (e : ClientEntry) :
    ∃ msg, generateCookie cfg (environ now) e = some (msg, 1 :: e.sid) := by
  simp only [generateCookie]
  split <;> exact ⟨_, rfl⟩

theorem handleAuthRes_accepted (cfg : Config) (now : ℕ) (e : ClientEntry) :
    (handleAuthRes cfg (environ now) e 0).entry.status = .completed ∧
      (handleAuthRes cfg (environ now) e 0).entry.cookie = 1 :: e.sid := by
  have hok (e : ClientEntry) : (sendAuthReplyOk cfg (environ now) e).orFail.entry =
      { e with cookie := 1 :: e.sid, msgStr := none } := by
    obtain ⟨msg, hmsg⟩ := generateCookie_environ cfg now e
    simp only [sendAuthReplyOk, hmsg]
    rfl
  have hsuccess (e : ClientEntry) :
      (handleAuthSuccess cfg (environ now) e).entry.status = .completed ∧
        (handleAuthSuccess cfg (environ now) e).entry.cookie = 1 :: e.sid := by
    simp only [handleAuthSuccess, Out.after, hok, getAuthUser]
    split <;> exact ⟨rfl, rfl⟩
  cases hm : e.module with
  | none =>
    have heq : (handleAuthRes cfg (environ now) e 0).entry =
        (handleAuthSuccess cfg (environ now) e).entry := by
      simp only [handleAuthRes, getAuthMsg, hm]
      rfl
    rw [heq]
    exact hsuccess e
  | some m =>
    have heq : (handleAuthRes cfg (environ now) e 0).entry =
        (handleAuthSuccess cfg (environ now) { e with msgStr := none }).entry := by
      simp only [handleAuthRes, getAuthMsg, hm]
      rfl
    rw [heq]
    exact hsuccess { e with msgStr := none }

theorem handleAuthRes_asked (cfg : Config) (now : ℕ) {e : ClientEntry} (h : e.status = .init) :
    (handleAuthRes cfg (environ now) e errAuthContinue).entry.status = .init := by
  have hcontinue {e : ClientEntry} (h : e.status = .init) :
      (handleAuthContinue cfg (environ now) e).entry.status = .init := by
    rw [handleAuthContinue, if_neg (by simp [h])]
    exact h
  cases hm : e.module with
  | none =>
    have heq : (handleAuthRes cfg (environ now) e errAuthContinue).entry =
        (handleAuthContinue cfg (environ now) e).entry := by
      simp only [handleAuthRes, getAuthMsg, hm]
      rfl
    rw [heq]
    exact hcontinue h
  | some m =>
    have hmsg : getAuthMsg (environ now) e errAuthContinue =
        ⟨{ e with msgStr := none }, [.call e.id m .authMsg e.authCtx 0], 0⟩ := by
      simp only [getAuthMsg, hm]
      rfl
    have heq : (handleAuthRes cfg (environ now) e errAuthContinue).entry =
        (handleAuthContinue cfg (environ now) { e with msgStr := none }).entry := by
      simp only [handleAuthRes, hmsg]
      rfl
    rw [heq]
    exact hcontinue h

/-- The groups and the name of the certificate are no obstacle. -/
theorem probe_checks (cfg : Config) (authType : ℕ) {e : ClientEntry}
    (hname : e.username = [] ∨ e.username = [117]) (hgroup : e.groupname = []) :
    certGroup cfg (probeMsg authType) e = some e ∧
      (checkUserGroupStatus cfg (probeMsg authType) e).2 = true := by
  constructor
  · simp [certGroup, probeMsg, initMsg]
  · rcases hname with hname | hname <;>
      simp only [checkUserGroupStatus, probeMsg, initMsg, hname, hgroup] <;>
      repeat' split
    all_goals simp_all

theorem initModule_probe (now authType : ℕ) {e : ClientEntry}
    (hname : e.username = []) (hgroup : e.groupname = []) :
    ∃ e₁ calls, initModule (environ now) (probeMsg authType) e =
        (e₁, calls, .ok e.module.isSome) ∧ SameSessions e e₁ ∧ e₁.module = e.module ∧
      (e₁.username = [] ∨ e₁.username = [117]) ∧ e₁.groupname = [] := by
  cases hm : e.module with
  | none =>
    refine ⟨e, [], ?_, .refl e, hm, .inl hname, hgroup⟩
    simp only [initModule, hm]
    rfl
  | some m =>
    refine ⟨{ e with authCtx := some m, groupname := [], username := [117] },
      [.call e.id m .authInit none errAuthContinue, .call e.id m .authGroup (some m) 0],
      ?_, ⟨rfl, rfl, rfl, rfl, rfl, rfl, rfl⟩, hm, .inr rfl, rfl⟩
    simp only [initModule, hm]
    rfl

/-- **The probe** passes every check, with any method. -/
theorem handleAuthInit_probe (now : ℕ) {authType : ℕ} {method : AuthMethod}
    (hset : setModule cfg authType = some method) (hname : e.username = [])
    (hgroup : e.groupname = []) :
    ∃ e₁ calls, SameSessions e e₁ ∧ e₁.status = .init ∧ e₁.module = method.amod ∧
      handleAuthInit cfg (environ now) (probeMsg authType) e =
        (handleAuthRes cfg (environ now) e₁
          (if method.amod.isSome then errAuthContinue else 0)).after calls := by
  obtain ⟨e₁, calls, hinit, hsame, hmodule, hname₁, hgroup₁⟩ :=
    @initModule_probe now authType (chooseMethod (probeMsg authType) method e) hname hgroup
  obtain ⟨hcert, hcheck⟩ := probe_checks cfg authType hname₁ hgroup₁
  obtain ⟨hsame₂, hmodule₂⟩ := checkUserGroupStatus_frame cfg (probeMsg authType) e₁
  generalize hres : checkUserGroupStatus cfg (probeMsg authType) e₁ = res
    at hcheck hsame₂ hmodule₂
  obtain ⟨e₂, ok⟩ := res
  obtain rfl : ok = true := hcheck
  have hchoose : SameSessions e (chooseMethod (probeMsg authType) method e) :=
    ⟨rfl, rfl, rfl, rfl, rfl, rfl, rfl⟩
  refine ⟨e₂.setStatus .init, calls ++ [.checked e₂.id],
    ((hchoose.trans hsame).trans hsame₂).trans (.setStatus _ _), rfl,
    hmodule₂.trans hmodule, ?_⟩
  have hset : setModule cfg (probeMsg authType).authType = some method := hset
  simp only [handleAuthInit, hset, hinit, hcert, hres]
  rfl

/-- The only entry is one that was made at the time `now`. -/
structure Probed (now : ℕ) (s : SecModSt) (e : ClientEntry) : Prop where
  db : s.db = [e]
  running : s.running = true
  sid_eq : e.sid = Sample.sid
  time_eq : e.time = now
  sessionIsOpen : e.sessionIsOpen = false

/-- A `SESSION_OPEN` with its cookie is accepted. -/
structure LoggedIn (e : ClientEntry) : Prop where
  status : e.status = .completed
  cookie : e.cookie = 1 :: Sample.sid

theorem probed_init {m : AuthStruct} (hm : p.Chosen m) (now : ℕ) :
    ∃ e, Probed now
        (start.serve (p.config cfg) (environ now) (.authInit (probeMsg m.type))) e ∧
      e.module = m.amod ∧ (if m.amod.isSome then e.status = .init else LoggedIn e) := by
  obtain ⟨e₀, hnew, hname, hgroup, hsid, htime, hopen⟩ : ∃ e₀,
      newClientEntry (environ now) start [49] = some e₀ ∧ e₀.username = [] ∧
      e₀.groupname = [] ∧ e₀.sid = Sample.sid ∧ e₀.time = now ∧ e₀.sessionIsOpen = false :=
    ⟨_, rfl, rfl, rfl, rfl, rfl, rfl⟩
  obtain ⟨e₁, calls, hsame, hstatus, hmodule, heq⟩ :=
    @handleAuthInit_probe (p.config cfg) e₀ now m.type m.toAuthMethod (setModule_of_chosen hm)
      hname hgroup
  generalize hres : (if m.amod.isSome then errAuthContinue else 0) = result at heq
  have hframe := handleAuthRes_frame (p.config cfg) (environ now) e₁ result
  have hall := hsame.trans hframe.same
  refine ⟨(handleAuthRes (p.config cfg) (environ now) e₁ result).entry,
    ⟨?_, rfl, hall.sid_eq.trans hsid, hall.time_eq.trans htime,
      hall.sessionIsOpen_eq.trans hopen⟩, hframe.module_eq.trans hmodule, ?_⟩
  · have hnew : newClientEntry (environ now) start (probeMsg m.type).ip = some e₀ := hnew
    simp only [SecModSt.serve, hnew, heq]
    rfl
  · split_ifs at hres ⊢ with hsome
    · rw [← hres]
      exact handleAuthRes_asked _ now hstatus
    · obtain ⟨hcompleted, hcookie⟩ := handleAuthRes_accepted (p.config cfg) now e₁
      rw [← hres]
      refine ⟨hcompleted, ?_⟩
      rw [hcookie, hsame.sid_eq, hsid]

theorem Probed.entry_eq {now : ℕ} {env : Env} (h : Probed now s e) {cmd : Cmd}
    (hcmd : cmd = .authCont ⟨Sample.sid, some [112]⟩ ∨ cmd = .sessionOpen openMsg) :
    cmd.entry env s = some e := by
  have hfind : findClientEntry s.db Sample.sid = some e := by
    simp [findClientEntry, h.db, h.sid_eq]
  rcases hcmd with rfl | rfl
  · rw [Cmd.entry, if_neg (by decide)]
    exact hfind
  · rw [Cmd.entry, if_neg (by decide)]
    exact hfind

theorem probed_cont {now : ℕ} {x : AuthMod} (h : Probed now s e) (hmodule : e.module = some x)
    (hstatus : e.status = .init) :
    ∃ e', Probed now
        (s.serve cfg (environ now) (.authCont ⟨Sample.sid, some [112]⟩)) e' ∧
      e'.module = some x ∧ LoggedIn e' := by
  obtain ⟨calls, heq⟩ : ∃ calls, handleAuthCont cfg (environ now) ⟨Sample.sid, some [112]⟩ e =
      (handleAuthRes cfg (environ now) (e.setStatus .cont) 0).after calls := by
    simp only [handleAuthCont, hstatus, hmodule]
    exact ⟨_, rfl⟩
  have hframe := handleAuthRes_frame cfg (environ now) (e.setStatus .cont) 0
  have hall := (SameSessions.setStatus e .cont).trans hframe.same
  obtain ⟨hcompleted, hcookie⟩ := handleAuthRes_accepted cfg now (e.setStatus .cont)
  rw [@serve_request cfg (environ now) s h.running (.authCont ⟨Sample.sid, some [112]⟩) trivial,
    h.entry_eq (.inl rfl)]
  refine ⟨(handleAuthRes cfg (environ now) (e.setStatus .cont) 0).entry,
    ⟨?_, rfl, hall.sid_eq.trans h.sid_eq, hall.time_eq.trans h.time_eq,
      hall.sessionIsOpen_eq.trans h.sessionIsOpen⟩, hframe.module_eq.trans hmodule, hcompleted, ?_⟩
  · have hid : (handleAuthRes cfg (environ now) (e.setStatus .cont) 0).entry.id = e.id :=
      hall.id_eq
    simp [Cmd.handle, heq, SecModSt.put, Table.update, h.db, Out.after, hid]
  · rw [hcookie]
    exact congrArg (1 :: ·) h.sid_eq

/-! ### The condition is needed -/

/-- The time of the entry has not run out at the time `0`. -/
theorem not_expired_probe (timeout : ℤ) {time : ℤ} (h : time = timeout.natAbs) :
    ¬ (time ≠ -1 ∧ ((environ 0).now : ℤ) > time + timeout) := by
  rintro ⟨-, hlate⟩
  have hnow : (environ 0).now = 0 := rfl
  rw [hnow] at hlate
  omega

theorem AuthMod.exists_asks (m : AuthMod) :
    ∃ facts, m.authInit facts (some [117]) = (.askMore, true) := by
  refine ⟨⟨true, true, true, 0, true, some false, true⟩, ?_⟩
  cases m <;> rfl

/-- A login with a method, at the time `now`. -/
def Sample.probe (m : AuthStruct) (now : ℕ) : List (Cmd × Env) :=
  (.authInit (probeMsg m.type), environ now) ::
    if m.amod.isSome then [(.authCont ⟨Sample.sid, some [112]⟩, environ now)] else []

/-- **The probe** logs in with the method, and may open a session unless PAM refuses it. -/
theorem probe_run {m : AuthStruct} (hm : p.Chosen m)
    (hopen : ∀ x a, m.amod = some x → p.acct = some a → a.amod = .pam → x = .pam) (now : ℕ) :
    ∃ s e, (machine (p.config cfg)).run start (probe m now) = some s ∧ Probed now s e ∧
      e.module = m.amod ∧ LoggedIn e ∧
      (machine (p.config cfg)).Meets (Possible p cfg) start
        (probe m now ++ [(.sessionOpen openMsg, environ 0)]) := by
  have hinit : Possible p cfg start (.authInit (probeMsg m.type), environ now) :=
    fun _ x _ _ => x.exists_asks
  have hsession {s : SecModSt} {e : ClientEntry} (he : Probed now s e)
      (hmodule : e.module = m.amod) : Possible p cfg s (.sessionOpen openMsg, environ 0) := by
    refine ⟨?_, fun _ => rfl⟩
    intro e' x a he' hx ha
    rw [he.entry_eq (.inr rfl)] at he'
    cases he'
    have hpam := hopen x a (hmodule.symm.trans hx) ha
    refine ⟨true, ?_⟩
    cases hacct : a.amod with
    | pam =>
      rw [hpam hacct]
      rfl
    | radius => rfl
  obtain ⟨e, he, hmodule, hlogin⟩ := @probed_init p cfg m hm now
  by_cases hsome : m.amod.isSome = true
  · rw [if_pos hsome] at hlogin
    obtain ⟨x, hx⟩ := Option.isSome_iff_exists.1 hsome
    obtain ⟨e', he', hmodule', hlogin'⟩ :=
      @probed_cont (p.config cfg) _ e now x he (hmodule.trans hx) hlogin
    refine ⟨_, e', ?_, he', hmodule'.trans hx.symm, hlogin', ?_⟩
    · rw [probe, if_pos hsome]
      rfl
    · rw [probe, if_pos hsome]
      refine ⟨hinit, ?_⟩
      rintro s ⟨⟩
      refine ⟨trivial, ?_⟩
      rintro s ⟨⟩
      exact ⟨hsession he' (hmodule'.trans hx.symm), fun _ _ => trivial⟩
  · rw [if_neg hsome] at hlogin
    refine ⟨_, e, ?_, he, hmodule, hlogin, ?_⟩
    · rw [probe, if_neg hsome]
      rfl
    · rw [probe, if_neg hsome]
      refine ⟨hinit, ?_⟩
      rintro s ⟨⟩
      exact ⟨hsession he hmodule, fun _ _ => trivial⟩

/-- The entry of the probe is given to `get_sup_config`, if it has a module. -/
theorem supConfigEntry_probe {x : AuthMod}
    (he : Probed (p.config cfg).cookieTimeout.natAbs s e) (hlogin : LoggedIn e)
    (hx : e.module = some x) :
    ∃ e', supConfigEntry (p.config cfg) (environ 0) openMsg e = some e' ∧
      e'.authCtx = e.authCtx := by
  have hcookie : openMsg.cookie = some e.cookie := by
    rw [hlogin.cookie]
    rfl
  rw [supConfigEntry, if_neg (not_not.2 hlogin.status),
    if_neg (not_expired_probe _ he.time_eq), if_neg (not_not.2 hcookie)]
  have hsup : (!(environ 0).mem || !(p.config cfg).supConfig) = false := rfl
  rw [hsup, if_neg Bool.false_ne_true, hx]
  split
  · exact ⟨_, rfl, rfl⟩
  · exact ⟨e, rfl, rfl⟩

/-- With accounting, the `SESSION_OPEN` of the probe goes through the module of its entry. -/
theorem handleSessionOpen_probe {acct : AcctStruct} (hacct : p.acct = some acct)
    (he : Probed (p.config cfg).cookieTimeout.natAbs s e) (hlogin : LoggedIn e)
    (hnone : e.module = none) :
    (handleSessionOpen (p.config cfg) (environ 0) openMsg e).ret = none := by
  have hcookie : openMsg.cookie = some e.cookie := by
    rw [hlogin.cookie]
    rfl
  have hneeds : needsOpen (p.config cfg) e = true := by
    cases hmod : acct.amod <;>
      simp [needsOpen, PermCfg.config, hacct, hmod, AcctModule.callbacks, he.sessionIsOpen]
  rw [handleSessionOpen, if_neg (not_not.2 hlogin.status),
    if_neg (not_expired_probe _ he.time_eq), if_neg (not_not.2 hcookie), if_pos hneeds, hnone]

/-- **Other options** have a run that is not coherent. -/
theorem coherent_of_runs {b : Build} {auth enableAuth : List Bytes} {acct : Option Bytes}
    (hparse : parseAuth b auth enableAuth acct = some p)
    (h : ∀ is, (machine (p.config cfg)).Meets (Possible p cfg) start is → CoherentRun p cfg is) :
    p.Coherent := by
  have hprobe {m : AuthStruct} (hm : p.Chosen m)
      (hopen : ∀ x a, m.amod = some x → p.acct = some a → a.amod = .pam → x = .pam) :
      ∃ s e, Probed (p.config cfg).cookieTimeout.natAbs s e ∧ e.module = m.amod ∧ LoggedIn e ∧
        HasContext e ∧
        CoherentStep p (p.config cfg) s (.sessionOpen openMsg, environ 0) := by
    obtain ⟨s, e, hrun, he, hmodule, hlogin, hmeets⟩ :=
      @probe_run p cfg m hm hopen (p.config cfg).cookieTimeout.natAbs
    have hok := ((coheres_always hmeets.left_of_append).last hrun).entries e
      (by rw [he.db]; exact List.mem_singleton_self e)
    refine ⟨s, e, he, hmodule, hlogin, hok.has.resolve_left ?_,
      ((h _ hmeets).1.right_of_append hrun).1⟩
    rw [hlogin.status]
    decide
  constructor
  · intro hacct m _ hm hnone
    obtain ⟨acct, hacct⟩ := Option.ne_none_iff_exists'.1 hacct
    obtain ⟨s, e, he, hmodule, hlogin, -, hstep⟩ := hprobe hm (by simp [hnone])
    exact hstep.module e (he.entry_eq (.inr rfl))
      (handleSessionOpen_probe hacct he hlogin (hmodule.trans hnone))
  · intro hsup m hmem hm
    by_contra hother
    -- PAM opens a session for its own entries only, and then the primary method is such a one
    obtain ⟨m', x, hm', hx, hradius, hopen⟩ : ∃ m' x, p.Chosen m' ∧ m'.amod = some x ∧
        x ≠ .radius ∧ ∀ y a, m'.amod = some y → p.acct = some a → a.amod = .pam → y = .pam := by
      by_cases hpam : p.acct.map (·.amod) = some .pam
      · obtain ⟨m', rest, hauth, henabled, htype, hx⟩ := parseAuth_pam hparse hpam
        refine ⟨m', .pam, ⟨htype, ?_⟩, hx, by decide, ?_⟩
        · simp [hauth, henabled]
        · intro y a hy _ _
          exact Option.some.inj (hy.symm.trans hx)
      · obtain ⟨hnone, hradius⟩ := not_or.1 hother
        obtain ⟨x, hx⟩ := Option.ne_none_iff_exists'.1 hnone
        refine ⟨m, x, hm, hx, fun hc => hradius (hc ▸ hx), ?_⟩
        intro y a _ ha hc
        exact absurd (by rw [ha, ← hc]; rfl) hpam
    obtain ⟨s, e, he, hmodule, hlogin, hctx, hstep⟩ := hprobe hm' hopen
    have hxe : e.module = some x := hmodule.trans hx
    obtain ⟨e', hcall, hsame⟩ := supConfigEntry_probe he hlogin hxe
    have hfits := hstep.supConfig hsup openMsg e e' rfl (he.entry_eq (.inr rfl)) hcall
    rw [hsame, hctx x hxe] at hfits
    rcases hfits with hfits | hfits
    · cases hfits
    · exact hradius (Option.some.inj hfits)

/-- **Main result.** Modules and contexts are coherent along every run exactly for the options
that meet the condition. -/
theorem coherent_iff {b : Build} {auth enableAuth : List Bytes} {acct : Option Bytes}
    (hparse : parseAuth b auth enableAuth acct = some p) (cfg : Config) :
    (∀ is, (machine (p.config cfg)).Meets (Possible p cfg) start is → CoherentRun p cfg is) ↔
      p.Coherent :=
  ⟨coherent_of_runs hparse, fun hp _ his => coherentRun hp his⟩

/-- What the samples are built with. -/
def Sample.build : Build := ⟨true, true, true⟩

/-- The other options of the samples. -/
def Sample.options : Config := config ⟨true, authTypePlain, some .plain⟩ none

/-- Radius for everything. -/
theorem coherent_iff_radius :
    ∃ p, parseAuth build [ascii "radius[/etc/rc.conf,groupconfig]"] []
        (some (ascii "radius[/etc/rc.conf]")) = some p ∧ p.supConfigType = .radius ∧
      ∀ is, (machine (p.config options)).Meets (Possible p options) start is →
        CoherentRun p options is := by
  refine ⟨_, rfl, rfl, (coherent_iff (show parseAuth build
    [ascii "radius[/etc/rc.conf,groupconfig]"] [] (some (ascii "radius[/etc/rc.conf]")) = some _
    from rfl) options).2 ⟨?_, ?_⟩⟩
  · intro _ m hm _
    rw [List.mem_singleton.1 hm]
    exact Option.some_ne_none _
  · intro _ m hm _
    rw [List.mem_singleton.1 hm]
    exact .inr rfl

/-- The module of a certificate is gone through, and the context of a password is taken for one
of radius. -/
theorem not_coherent :
    (∃ p is, parseAuth build [ascii "certificate"] [] (some (ascii "radius[/etc/rc.conf]")) =
        some p ∧ (machine (p.config options)).Meets (Possible p options) start is ∧
      ¬ CoherentRun p options is) ∧
    ∃ p is, parseAuth build [ascii "plain[/etc/passwd]"] []
        (some (ascii "radius[/etc/rc.conf,groupconfig]")) = some p ∧
      (machine (p.config options)).Meets (Possible p options) start is ∧
      ¬ CoherentRun p options is := by
  constructor
  · refine ⟨_, [(.authInit (initMsg true authTypeCertificate), environ 1000),
      (.sessionOpen openMsg, environ 1001)], rfl, ?_, ?_⟩
    · refine ⟨?_, ?_⟩
      · intro method m _ _
        exact m.exists_asks
      · rintro s ⟨⟩
        refine ⟨⟨?_, fun _ => rfl⟩, fun _ _ => trivial⟩
        rintro e m a ⟨⟩ ⟨⟩
    · intro h
      exact (h.1.2 _ rfl).1.module _ rfl rfl
  · refine ⟨_, passwordLogin ++ [(.sessionOpen openMsg, environ 1001)], rfl, ?_, ?_⟩
    · refine ⟨?_, ?_⟩
      · intro method m _ _
        exact m.exists_asks
      · rintro s ⟨⟩
        refine ⟨trivial, ?_⟩
        rintro s ⟨⟩
        refine ⟨⟨?_, fun _ => rfl⟩, fun _ _ => trivial⟩
        rintro e m a ⟨⟩ ⟨⟩ ⟨⟩
        exact ⟨true, rfl⟩
    · intro h
      have hctx := ((h.1.2 _ rfl).2 _ rfl).1.supConfig rfl openMsg _ _ rfl rfl rfl
      revert hctx
      decide

end SecMod

end Ocserv
