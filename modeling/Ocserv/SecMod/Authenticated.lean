import Ocserv.SecMod.Server

/-!
# Sec-mod: a session is opened only after authentication

Over every run of sec-mod:

* an entry whose authentication failed stays failed (`failed_stays`);
* a `SESSION_OPEN` is answered `OK` only for an entry whose authentication is completed, with the
  cookie that was issued for it, in time (`authenticated`).

The invariant of an entry is `AuthInv`: while its authentication goes on, the checks of
`AUTH_INIT` have succeeded, and once it is completed, its cookie was `Issued`.  A method without
a module (certificate authentication) is completed by these checks alone
(`authenticated_without_module`).
-/

namespace Ocserv

namespace SecMod

variable {cfg : Config} {env : Env} {s s' : SecModSt} {e : ClientEntry}

/-! ### Failed entries -/

theorem Handles.failed {cmd : Cmd} {out : SessionOut} (h : Handles cfg env e cmd out)
    (hf : e.status = .failed) : out.entry.status = .failed := by
  cases h with
  | authCont req =>
    obtain h | ⟨h | h, -⟩ := handleAuthCont_status cfg env req e []
    · exact h
    · rw [hf] at h
      cases h
    · rw [hf] at h
      cases h
  | sessionOpen req => exact (handleSessionOpen_frame _ _ req e).status.elim (·.trans hf) id
  | sessionClose req => exact (handleSessionClose_frame _ req e).status.elim (·.trans hf) id
  | cliStats req => exact (handleStatsCmd_frame _ req e).status.elim (·.trans hf) id

/-- The entry number `id` has failed, if it still exists. -/
structure FailedAt (id : ℕ) (s : SecModSt) : Prop where
  wf : WF s
  lt : id < s.nextId
  failed : ∀ e ∈ s.db, e.id = id → e.status = .failed

theorem FailedAt.step {id : ℕ} {i : Cmd × Env} (h : FailedAt id s)
    (hs : (machine cfg).step s i = some s') : FailedAt id s' := by
  obtain ⟨cmd, env⟩ := i
  obtain ⟨-, rfl⟩ := step_eq_some hs
  have hwf := h.wf.serve cfg env cmd
  have hserved := serve_cases cfg env s cmd
  generalize s.serve cfg env cmd = s' at hserved hwf
  cases hserved with
  | nothing running events hev => exact ⟨hwf, h.lt, h.failed⟩
  | found hentry hmem hout =>
    refine ⟨hwf, h.lt, ?_⟩
    intro x hx hid
    obtain rfl | ⟨hx, -⟩ := Table.mem_update hx
    · exact hout.failed (h.failed _ hmem (hout.frame.1.symm.trans hid))
    · exact h.failed x hx hid
  | @created req e hnew =>
    refine ⟨hwf, Nat.lt_succ_of_lt h.lt, ?_⟩
    intro x hx hid
    rcases List.mem_cons.1 hx with rfl | hx
    · rw [(handleAuthInit_frame _ _ req e).same.id_eq, (newClientEntry_isNew hnew).id_eq] at hid
      exact absurd h.lt (hid ▸ Nat.lt_irrefl _)
    · exact h.failed x hx hid
  | cleanup =>
    exact ⟨hwf, h.lt, fun x hx hid => h.failed x (List.mem_filter.1 hx).1 hid⟩

/-- **A failed entry stays failed**, whatever is requested. -/
theorem failed_stays (hwf : WF s) (he : e ∈ s.db) (hf : e.status = .failed)
    {js : List (Cmd × Env)} (hr : (machine cfg).run s js = some s') {e' : ClientEntry}
    (he' : e' ∈ s'.db) (hid : e'.id = e.id) : e'.status = .failed := by
  have h₀ : FailedAt e.id s :=
    ⟨hwf, hwf.lt e he, fun x hx hxid => Table.eq_of_key_eq hwf.ids hx he hxid ▸ hf⟩
  have h := Machine.always_of_step (C := fun _ _ => True) (fun _ _ _ h _ hs => h.step hs) h₀
    (Machine.meets_true (M := machine cfg) s js)
  exact (h.last hr).failed e' he' hid

/-! ### The invariant of an entry -/

/-- What the status of an entry says about what happened to it. -/
structure AuthInv (e : ClientEntry) (t : List Event) : Prop where
  checked : e.status = .init ∨ e.status = .cont → .checked e.id ∈ t
  issued : e.status = .completed → Issued e t

theorem AuthInv.of_failed {t : List Event} (h : e.status = .failed) : AuthInv e t := by
  refine ⟨fun hc => ?_, fun hc => ?_⟩
  · rw [h] at hc
    obtain hc | hc := hc <;> cases hc
  · rw [h] at hc
    cases hc

/-- What happens to the sessions of an entry does not change how its cookie was issued. -/
theorem Issued.append {e' : ClientEntry} {t evs : List Event} (h : Issued e t)
    (hid : e'.id = e.id) (hcookie : e'.cookie = e.cookie) (hmod : e'.module = e.module)
    (hev : ∀ ev ∈ evs, ev.isAuth = false) : Issued e' (t ++ evs) := by
  obtain ⟨pre, sealed, post, ht, hck, hacc, hpost⟩ := h
  refine ⟨pre, sealed, post ++ evs, ?_, hid ▸ hck, hmod ▸ hacc, fun ev hmem => ?_⟩
  · rw [ht, hid, hcookie, List.append_assoc, List.cons_append]
  · rcases List.mem_append.1 hmem with hmem | hmem
    · exact hpost ev hmem
    · exact hev ev hmem

theorem AuthInv.session {t : List Event} {out : SessionOut} (h : AuthInv e t)
    (hframe : SessionFrame e out) : AuthInv out.entry (t ++ out.events) := by
  obtain hs | hs := hframe.status
  · refine ⟨fun hc => ?_, fun hc => ?_⟩
    · exact List.mem_append_left _ (hframe.id_eq ▸ h.checked (hs ▸ hc))
    · exact (h.issued (hs ▸ hc)).append hframe.id_eq hframe.cookie_eq hframe.module_eq
        fun ev hev => (hframe.events ev hev).2
  · exact .of_failed hs

theorem AuthInv.authInit (req : AuthInitMsg) (e : ClientEntry) :
    AuthInv (handleAuthInit cfg env req e).entry
      (.created e.id e.sid :: (handleAuthInit cfg env req e).events) := by
  have hid := (handleAuthInit_frame cfg env req e).same.id_eq
  obtain h | ⟨h, hck⟩ | ⟨h, hiss⟩ := handleAuthInit_status cfg env req e
  · exact .of_failed h
  · refine ⟨fun _ => List.mem_cons_of_mem _ (hid.symm ▸ hck), ?_⟩
    intro hc
    rw [h] at hc
    cases hc
  · refine ⟨fun hc => ?_, fun _ => ?_⟩
    · rw [h] at hc
      obtain hc | hc := hc <;> cases hc
    · obtain ⟨pre, sealed, post, ht, hck, hacc, hpost⟩ := hiss
      exact ⟨.created e.id e.sid :: pre, sealed, post, by rw [ht, List.cons_append],
        List.mem_cons_of_mem _ hck, hacc, hpost⟩

theorem AuthInv.authCont {t : List Event} (h : AuthInv e t) (req : AuthContMsg) :
    AuthInv (handleAuthCont cfg env req e).entry (t ++ (handleAuthCont cfg env req e).events) := by
  have hid := (handleAuthCont_frame cfg env req e).1.same.id_eq
  obtain hs | ⟨hfrom, hs | ⟨hs, hiss⟩⟩ := handleAuthCont_status cfg env req e t
  · exact .of_failed hs
  · refine ⟨fun _ => List.mem_append_left _ (hid ▸ h.checked hfrom), ?_⟩
    intro hc
    rw [hs] at hc
    cases hc
  · refine ⟨?_, fun _ => hiss (h.checked hfrom)⟩
    intro hc
    rw [hs] at hc
    obtain hc | hc := hc <;> cases hc

/-- The invariant holds of every entry in every state of every run. -/
theorem authInv_always (is : List (Cmd × Env)) :
    (machine cfg).Always (Entries AuthInv) start is := by
  refine entries_invariant (C := fun _ _ _ _ => True) (fun env s req e _ _ => .authInit req e) ?_
    ((Machine.meets_true start is).imp fun _ _ _ _ _ => trivial)
  intro env cmd e t out hinv _ hout _
  cases hout with
  | authCont req => exact hinv.authCont req
  | sessionOpen req => exact hinv.session (handleSessionOpen_frame _ _ req e)
  | sessionClose req => exact hinv.session (handleSessionClose_frame _ req e)
  | cliStats req => exact hinv.session (handleStatsCmd_frame _ req e)

/-! ### Opening a session -/

/-- A `SESSION_OPEN` answered `OK`: the request is about an authenticated entry. -/
structure OpensAuthenticated (cfg : Config) (env : Env) (s : SecModSt) (req : SessionMsg)
    (e : ClientEntry) : Prop where
  mem : e ∈ s.db
  sid : e.sid = req.sid
  completed : e.status = .completed
  issued : Issued e (history e.id s.trace)
  cookie : req.cookie = some e.cookie
  inTime : e.time = -1 ∨ env.now ≤ e.time + cfg.cookieTimeout

/-- The sid of a request that found an entry is that of the entry. -/
theorem sid_of_entry {req : SessionMsg} (h : (Cmd.sessionOpen req).entry env s = some e) :
    e.sid = req.sid := by
  unfold Cmd.entry at h
  dsimp only at h
  split at h
  · cases h
  · exact (mem_of_findClientEntry h).2

/-- Which requests are answered `OK`. -/
theorem opensAuthenticated_of_step (hinv : Entries AuthInv s) {cmd : Cmd}
    (hs : (machine cfg).step s (cmd, env) = some s') {new : List Event}
    (hnew : s'.trace = s.trace ++ new) {who : Option ℕ} (hok : .sessionRep who .ok ∈ new) :
    ∃ req e, cmd = .sessionOpen req ∧ who = some e.id ∧ OpensAuthenticated cfg env s req e := by
  obtain ⟨hrun, rfl⟩ := step_eq_some hs
  have hserved := serve_cases cfg env s cmd
  generalize s.serve cfg env cmd = s' at hserved hnew
  cases hserved with
  | nothing running events hev =>
    rw [← List.append_cancel_left hnew] at hok
    obtain h | h := hev _ hok <;> cases h
  | @found _ e out hentry hmem hout =>
    rw [← List.append_cancel_left hnew] at hok
    cases hout with
    | authCont req =>
      exact absurd ((handleAuthCont_frame _ _ req e).1.events _ hok).2 (by simp [Event.isAuth])
    | sessionOpen req =>
      obtain h | ⟨-, hstatus, htime, hcookie⟩ :=
        handleSessionOpen_cases cfg env req e
      · obtain h | ⟨ret, h⟩ := h.events _ hok <;> cases h
      · exact ⟨req, e, rfl, ((handleSessionOpen_frame _ _ req e).events _ hok).1,
          hmem, sid_of_entry hentry, hstatus, (hinv.inv hrun e hmem).issued hstatus, hcookie, htime⟩
    | sessionClose req =>
      unfold handleSessionClose at hok
      dsimp only at hok
      repeat' split at hok
      all_goals simp at hok
    | cliStats req =>
      unfold handleStatsCmd at hok
      dsimp only at hok
      repeat' split at hok
      all_goals simp at hok
  | @created req e hentry =>
    rw [← List.append_cancel_left hnew] at hok
    rcases List.mem_cons.1 hok with h | h
    · cases h
    · exact absurd ((handleAuthInit_frame _ _ req e).events _ h).2 (by simp [Event.isAuth])
  | cleanup =>
    rw [← List.append_cancel_left hnew] at hok
    obtain ⟨x, -, hok⟩ := List.mem_flatMap.1 hok
    unfold cleanEntry authUserDeinit at hok
    repeat' split at hok
    all_goals simp at hok

/-- What holds of the state of sec-mod after any run. -/
structure Authenticated (cfg : Config) (s : SecModSt) : Prop where
  failed_stays : ∀ e ∈ s.db, e.status = .failed →
    ∀ js s', (machine cfg).run s js = some s' → ∀ e' ∈ s'.db, e'.id = e.id → e'.status = .failed
  opens : ∀ cmd env s', (machine cfg).step s (cmd, env) = some s' →
    ∀ new, s'.trace = s.trace ++ new → ∀ who, .sessionRep who .ok ∈ new →
      ∃ req e, cmd = .sessionOpen req ∧ who = some e.id ∧ OpensAuthenticated cfg env s req e

/-- **Authentication.**  In every run of sec-mod, an entry that failed stays failed, and a
`SESSION_OPEN` is answered `OK` only if the entry with its SID is completed, its checks succeeded
before its module accepted it with the result `0` (where its method has a module; without one no
module was asked), the request has the cookie issued
for it, and the entry is in use or its time has not run out. -/
theorem authenticated {is : List (Cmd × Env)} (hr : (machine cfg).run start is = some s) :
    Authenticated cfg s := by
  have hinv := (authInv_always is).last hr
  exact ⟨fun e he hf js s' hjs e' he' hid => failed_stays hinv.wf he hf hjs he' hid,
    fun cmd env s' hs new hnew who hok => opensAuthenticated_of_step hinv hs hnew hok⟩

/-! ### Two logins -/

open Sample in
theorem authenticated_password :
    let cfg := config ⟨true, authTypePlain, some .plain⟩ none
    ∃ s s', (machine cfg).run start passwordLogin = some s ∧ Authenticated cfg s ∧
      (machine cfg).step s (.sessionOpen openMsg, environ 1002) = some s' ∧
      .sessionRep (some 0) .ok ∈ s'.trace :=
  ⟨_, _, rfl, authenticated (show (machine _).run start passwordLogin = some _ from rfl), rfl,
    by decide⟩

open Sample in
/-- A session was opened for an entry for which no module was ever asked. -/
theorem authenticated_without_module :
    ∃ s, (machine (config ⟨true, authTypeCertificate, none⟩ none)).run start
        (certificateLogin ++ [(.sessionOpen openMsg, environ 1001)]) = some s ∧
      .sessionRep (some 0) .ok ∈ s.trace ∧ results (history 0 s.trace) = [] :=
  ⟨_, rfl, by decide, by decide⟩

end SecMod

end Ocserv
