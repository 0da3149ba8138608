import Ocserv.SecMod.Cleanup

/-!
# Sec-mod: how long a cookie is good for

A cookie is sealed with an expiration time when the authentication completes, but `SESSION_OPEN`
looks at `time`, which `new_client_entry`, `handle_sec_auth_session_open` and
`expire_client_entry` write, and which is `-1` while there are sessions.  The life of a cookie, as
it can be seen from outside, is a machine of its own (`Life`) that observes the requests for one
SID and the replies.

* `Use.Good` : how long a cookie should be good for.
* `cookie_lifetime_iff` : **exactly when the answer to a `SESSION_OPEN` with the cookie is the one
  that it should be**: where the time of the entry and that of the cookie do not disagree about it.
* `not_cookie_lifetime` : they do after a login in which the user took his time.
-/

namespace Ocserv

namespace SecMod

/-! ### The cookie of a reply -/

/-- The cookie a reply carries, and what is sealed in it. -/
def Event.issued? : Event → Option (Bytes × Cookie)
  | .authRepOk _ cookie sealed => some (cookie, sealed)
  | _ => none

/-- The first cookie that is issued. -/
def issued (evs : List Event) : Option (Bytes × Cookie) := evs.findSome? Event.issued?

/-- The expiration time of a cookie that is made at `now`, an `uint32`. -/
def expirationOf (cfg : Config) (now : ℕ) : ℕ := ((now + cfg.cookieTimeout) % 2 ^ 32).toNat

section

variable {cfg : Config} {env : Env} {e e₁ : ClientEntry} {evs : List Event} {out : Out}

/-- An authentication request issues a cookie exactly if it completes the authentication. -/
inductive Issues (cfg : Config) (now : ℕ) (out : Out) : Prop
  | nothing (hstatus : out.entry.status ≠ .completed)
      (hev : ∀ ev ∈ out.events, ev.issued? = none)
  | cookie (sealed : Cookie) (hstatus : out.entry.status = .completed)
      (hev : issued out.events = some (out.entry.cookie, sealed))
      (hexp : sealed.expiration = expirationOf cfg now)

theorem issued_eq_none (h : ∀ ev ∈ evs, ev.issued? = none) : issued evs = none :=
  List.findSome?_eq_none_iff.2 h

theorem issued_append {evs' : List Event} (h : ∀ ev ∈ evs, ev.issued? = none) :
    issued (evs ++ evs') = issued evs' := by
  simp only [issued, List.findSome?_append]
  rw [List.findSome?_eq_none_iff.2 h, Option.none_or]

theorem Issues.after {now : ℕ} (h : Issues cfg now out) (hev : ∀ ev ∈ evs, ev.issued? = none) :
    Issues cfg now (out.after evs) := by
  cases h with
  | nothing hstatus hout =>
    refine .nothing hstatus ?_
    intro ev hmem
    rcases List.mem_append.1 hmem with hmem | hmem
    · exact hev ev hmem
    · exact hout ev hmem
  | cookie sealed hstatus hout hexp =>
    exact .cookie sealed hstatus ((issued_append hev).trans hout) hexp

theorem addScoreToIp_issued (points : ℕ) :
    ∀ ev ∈ (addScoreToIp cfg env e points).1, ev.issued? = none := by
  intro ev hev
  simp only [addScoreToIp] at hev
  repeat' split at hev
  all_goals simp_all [Event.issued?]

theorem sendAuthReplyFailed_issued :
    ∀ ev ∈ (sendAuthReplyFailed env e).events, ev.issued? = none := by
  intro ev hev
  simp only [sendAuthReplyFailed] at hev
  split at hev <;> simp_all [Event.issued?]

theorem sendAuthReplyMsg_issued :
    ∀ ev ∈ (sendAuthReplyMsg env e).orFail.events, ev.issued? = none := by
  intro ev hev
  simp only [sendAuthReplyMsg, Out.orFail] at hev
  split at hev <;> split at hev <;> simp_all [Event.issued?]

theorem getAuthMsg_issued (result : ℤ) :
    ∀ ev ∈ (getAuthMsg env e result).events, ev.issued? = none := by
  intro ev hev
  simp only [getAuthMsg] at hev
  repeat' split at hev
  all_goals simp_all [Event.issued?]

theorem getAuthUser_issued : ∀ ev ∈ (getAuthUser env e).events, ev.issued? = none := by
  intro ev hev
  simp only [getAuthUser] at hev
  split at hev <;> simp_all [Event.issued?]

theorem handleAuthContinue_issued :
    ∀ ev ∈ (handleAuthContinue cfg env e).events, ev.issued? = none := by
  intro ev hev
  simp only [handleAuthContinue] at hev
  split at hev
  · split at hev
    · rcases List.mem_append.1 hev with hev | hev
      · exact addScoreToIp_issued _ ev hev
      · exact sendAuthReplyFailed_issued ev hev
    · rcases List.mem_append.1 hev with hev | hev
      · exact addScoreToIp_issued _ ev hev
      · exact sendAuthReplyMsg_issued ev hev
  · exact sendAuthReplyMsg_issued ev hev

theorem handleAuthFailure_issued (result : ℤ) :
    ∀ ev ∈ (handleAuthFailure cfg env e result).events, ev.issued? = none := by
  intro ev hev
  rcases List.mem_append.1 (show ev ∈ _ ++ _ from hev) with hev | hev
  · exact addScoreToIp_issued _ ev hev
  · exact sendAuthReplyFailed_issued ev hev

theorem generateCookie_expiration {made : Cookie × Bytes}
    (h : generateCookie cfg env e = some made) : made.1.expiration = expirationOf cfg env.now := by
  by_cases hpred : cfg.predictableIps = true
  · simp only [generateCookie, hpred, if_true] at h
    obtain ⟨seed, -, h⟩ := Option.bind_eq_some_iff.1 h
    obtain ⟨cookie, -, h⟩ := Option.bind_eq_some_iff.1 h
    cases h
    rfl
  · simp only [generateCookie, hpred] at h
    obtain ⟨seed, -, h⟩ := Option.bind_eq_some_iff.1 h
    obtain ⟨cookie, -, h⟩ := Option.bind_eq_some_iff.1 h
    cases h
    rfl

theorem sendAuthReplyOk_issues (hstatus : e.status = .completed) :
    Issues cfg env.now (sendAuthReplyOk cfg env e).orFail := by
  simp only [sendAuthReplyOk]
  cases hmade : generateCookie cfg env e with
  | none => exact .nothing (fun hc => by cases hc) (by simp [Out.orFail])
  | some made =>
    by_cases hsend : env.sendOk = true
    · simp only [hsend, if_true]
      exact .cookie made.1 hstatus rfl (generateCookie_expiration hmade)
    · simp only [hsend]
      exact .nothing (fun hc => by cases hc) (by simp [Out.orFail])

/-- **`handle_sec_auth_res`** issues a cookie exactly if it completes the authentication. -/
theorem handleAuthRes_issues (cfg : Config) (env : Env) {result : ℤ}
    (hstatus : result = errAuthContinue → e.status ≠ .completed) :
    Issues cfg env.now (handleAuthRes cfg env e result) := by
  have hmsg := @getAuthMsg_issued env e result
  have hmsgStatus : (getAuthMsg env e result).entry.status = e.status := by
    simp only [getAuthMsg]
    repeat' split
    all_goals rfl
  simp only [handleAuthRes]
  split
  · rename_i hret
    refine .nothing ?_ ?_ <;> rw [Out.orFail, if_pos hret]
    · intro hc
      cases hc
    · exact hmsg
  · split
    · rename_i hres
      refine Issues.after (.nothing ?_ handleAuthContinue_issued) hmsg
      intro hc
      cases @handleAuthContinue_status cfg env (getAuthMsg env e result).entry with
      | failed h => simp [h] at hc
      | goesOn h _ => exact hstatus hres (hmsgStatus ▸ h.symm.trans hc)
      | completed _ h₀ => simp [errAuthContinue] at h₀
    · split
      · refine Issues.after ?_ hmsg
        refine Issues.after (sendAuthReplyOk_issues ?_) getAuthUser_issued
        simp only [getAuthUser]
        split <;> rfl
      · refine Issues.after (.nothing ?_ (handleAuthFailure_issued result)) hmsg
        simp only [handleAuthFailure, Out.after, sendAuthReplyFailed]
        split <;> intro hc <;> cases hc

theorem initModule_issued (req : AuthInitMsg) :
    ∀ ev ∈ (initModule env req e).2.1, ev.issued? = none := by
  intro ev hev
  simp only [initModule] at hev
  repeat' split at hev
  all_goals simp_all [Event.issued?]
  all_goals obtain rfl | rfl := hev <;> rfl

theorem handleAuthRes_refuses (cfg : Config) (env : Env) :
    Issues cfg env.now (handleAuthRes cfg env e (-1)) :=
  handleAuthRes_issues cfg env fun h => absurd h (by decide)

theorem handleAuthInit_issues (cfg : Config) (env : Env) (req : AuthInitMsg) (e : ClientEntry) :
    Issues cfg env.now (handleAuthInit cfg env req e) := by
  have hcalls (e : ClientEntry) := @initModule_issued env e req
  simp only [handleAuthInit]
  split
  · exact handleAuthRes_refuses cfg env
  · rename_i method _
    specialize hcalls (chooseMethod req method e)
    split <;> rename_i hinit <;> rw [hinit] at hcalls
    · exact (handleAuthRes_issues cfg env
        fun h => absurd h (initModule_error hinit).2).after hcalls
    · split
      · exact (handleAuthRes_refuses cfg env).after hcalls
      · split
        · exact (handleAuthRes_refuses cfg env).after hcalls
        · refine (handleAuthRes_issues cfg env fun _ => by simp [ClientEntry.setStatus]).after ?_
          intro ev hev
          rcases List.mem_append.1 hev with hev | hev
          · exact hcalls ev hev
          · rw [List.mem_singleton.1 hev]
            rfl

theorem handleAuthCont_issues (cfg : Config) (env : Env) (req : AuthContMsg) (e : ClientEntry) :
    Issues cfg env.now (handleAuthCont cfg env req e) := by
  simp only [handleAuthCont]
  split
  · exact handleAuthRes_refuses cfg env
  · split
    · exact handleAuthRes_refuses cfg env
    · split
      · exact handleAuthRes_refuses cfg env
      · have hstatus : (e.setStatus .cont).status ≠ .completed := by simp [ClientEntry.setStatus]
        exact (handleAuthRes_issues cfg env fun _ => hstatus).after (by simp [Event.issued?])

end

/-! ### The life of a cookie -/

/-- A cookie that was issued. -/
structure Grant where
  cookie : Bytes
  sealed : Cookie
  /-- When `AUTH_INIT` made the entry. -/
  since : ℕ
  /-- When the cookie was made. -/
  issuedAt : ℕ
  deriving DecidableEq, Repr

/-- What is sealed is the timeout after the end of the login. -/
structure Grant.Made (cfg : Config) (grant : Grant) : Prop where
  le : grant.since ≤ grant.issuedAt
  sealed : grant.sealed.expiration = expirationOf cfg grant.issuedAt

/-- The SID of a request. -/
def Cmd.sid : Cmd → Bytes
  | .authCont req => req.sid
  | .sessionOpen req | .sessionClose req => req.sid
  | .cliStats req => req.sid
  | .authInit _ | .cleanup => []

/-- What became of the sessions of a cookie. -/
inductive Use where
  /-- No session was opened with it. -/
  | unused
  /-- `n + 1` of its sessions are open. -/
  | opened (n : ℕ)
  /-- All its sessions were closed, the last one at `c`. -/
  | closed (c : ℕ)
  deriving DecidableEq, Repr

namespace Use

/-- The number of sessions that are open. -/
def count : Use → ℕ
  | opened n => n + 1
  | unused | closed _ => 0

/-- One more session is opened. -/
def more (use : Use) : Use := .opened use.count

/-- A session is closed at `now`, if there is one. -/
def less (now : ℕ) : Use → Use
  | opened 0 => closed now
  | opened (n + 1) => opened n
  | use => use

theorem count_less (now : ℕ) (use : Use) : (use.less now).count = use.count - 1 := by
  rcases use with _ | ⟨_ | n⟩ | c <;> rfl

/-- **How long a cookie should be good for**: before its first session until the time that is
sealed in it, while it is in use, and until the timeout after its last session. -/
def Good (cfg : Config) (grant : Grant) (now : ℕ) : Use → Prop
  | unused => now ≤ grant.sealed.expiration
  | opened _ => True
  | closed c => (now : ℤ) ≤ c + cfg.cookieTimeout

end Use

/-- The life of the cookie for a SID. -/
inductive Life where
  | absent
  | authenticating (since : ℕ)
  /-- The cookie was issued.  The entry counts its timeout from `base` while there is no session:
  the `AUTH_INIT`, or the last `SESSION_CLOSE` that left none.  An `AUTH_CONT` after the login and
  a `SESSION_OPEN` that is refused revoke the cookie. -/
  | issued (grant : Grant) (use : Use) (base : ℕ) (revoked : Bool)
  deriving DecidableEq, Repr

namespace Life

/-- The number of sessions that are open. -/
def inUse : Life → ℕ
  | issued _ use _ _ => use.count
  | absent | authenticating _ => 0

/-- An authentication that started at `since` was asked for more, or completed at `now`. -/
def authenticated (since now : ℕ) (evs : List Event) : Life :=
  match SecMod.issued evs with
  | none => authenticating since
  | some (cookie, sealed) => issued ⟨cookie, sealed, since, now⟩ .unused since false

/-- An `AUTH_INIT` at `now`, which makes an entry first if it makes one. -/
def initiated (sid : Bytes) (now : ℕ) (evs : List Event) (l : Life) : Life :=
  match evs with
  | .created _ sid' :: evs => if sid' = sid then authenticated now now evs else l
  | _ => l

/-- What a request and the events it led to mean for the cookie of `sid`. -/
def next (sid : Bytes) (evs : List Event) (i : Cmd × Env) (l : Life) : Life :=
  match i.1, l with
  | .authInit _, l => initiated sid i.2.now evs l
  | .authCont req, authenticating since =>
    if req.sid = sid then authenticated since i.2.now evs else l
  | .authCont req, issued grant use base _ =>
    if req.sid = sid then issued grant use base true else l
  | .sessionOpen req, issued grant use base revoked =>
    if req.sid ≠ sid then l
    else if .ok ∈ openReplies evs then issued grant use.more base revoked
    else issued grant use base true
  | .sessionClose req, issued grant use base revoked =>
    if req.sid ≠ sid then l
    else
      issued grant (use.less i.2.now) (if (use.less i.2.now).count = 0 then i.2.now else base)
        revoked
  | _, l => l

end Life

/-- What is seen of a run: the life of the cookie for a SID, and the time. -/
structure Watch where
  life : Life := .absent
  clock : ℕ := 0
  deriving DecidableEq, Repr

/-- Sec-mod, and what is seen of the cookie for `sid`. -/
def watched (cfg : Config) (sid : Bytes) : Machine (SecModSt × Watch) (Cmd × Env) :=
  (machine cfg).observed fun w s i t =>
    ⟨w.life.next sid (t.trace.drop s.trace.length) i, i.2.now⟩

/-- The clock does not go back, entries are not cleaned up, and neither the accounting module
nor the configuration refuses a session; there are fewer sessions than an `unsigned` can count. -/
def Fair (cfg : Config) (x : SecModSt × Watch) (i : Cmd × Env) : Prop :=
  x.2.clock ≤ i.2.now ∧
    match i.1 with
    | .sessionOpen _ => 0 ≤ i.2.openSession ∧ (cfg.supConfig = true → 0 ≤ i.2.supConfig) ∧
        x.2.life.inUse + 1 < 2 ^ 32
    | .cleanup => False
    | .authInit _ | .authCont _ | .sessionClose _ | .cliStats _ => True

/-- The entry of the database with the SID, and the life of its cookie. -/
inductive Agrees (cfg : Config) (clock : ℕ) : Option ClientEntry → Life → Prop
  | absent : Agrees cfg clock none .absent
  | authenticating {e : ClientEntry} {since : ℕ} (status : e.status ≠ .completed)
      (inUse : e.inUse = 0) (time : e.time = since) (le : since ≤ clock) :
      Agrees cfg clock (some e) (.authenticating since)
  | issued {e : ClientEntry} {grant : Grant} {use : Use} {base : ℕ}
      (status : e.status = .completed) (cookie : e.cookie = grant.cookie)
      (count : e.inUse.toNat = use.count) (time : e.time = if use.count = 0 then ↑base else -1)
      (made : grant.Made cfg) : Agrees cfg clock (some e) (.issued grant use base false)
  | revoked {e : ClientEntry} {grant : Grant} {use : Use} {base : ℕ}
      (status : e.status = .failed) (made : grant.Made cfg) :
      Agrees cfg clock (some e) (.issued grant use base true)

section

variable {cfg : Config} {env : Env} {s : SecModSt} {e : ClientEntry} {sid : Bytes} {clock : ℕ}
  {l : Life}

/-- A handler writes the entry with the SID of its request. -/
theorem findClientEntry_put (hwf : WF s) (hmem : e ∈ s.db) {out : SessionOut} (fromMain : Bool)
    (hid : out.entry.id = e.id) (hsid : out.entry.sid = e.sid) :
    findClientEntry (s.put fromMain out).db sid =
      if e.sid = sid then some out.entry else findClientEntry s.db sid := by
  have hkeys : Table.update ClientEntry.id s.db out.entry =
      Table.update ClientEntry.sid s.db out.entry := by
    refine List.map_congr_left ?_
    intro x hx
    have hiff : x.id = out.entry.id ↔ x.sid = out.entry.sid := by
      rw [hid, hsid]
      exact ⟨fun h => Table.eq_of_key_eq hwf.ids hx hmem h ▸ rfl,
        fun h => Table.eq_of_key_eq hwf.sids hx hmem h ▸ rfl⟩
    simp only [hiff]
  show Table.find? ClientEntry.sid (Table.update ClientEntry.id s.db out.entry) sid = _
  rw [hkeys]
  by_cases h : e.sid = sid
  · subst h
    rw [if_pos rfl, ← hsid]
    exact Table.find?_update_self (hsid ▸ List.mem_map.2 ⟨e, hmem, rfl⟩)
  · rw [if_neg h]
    exact Table.find?_update_of_ne (hsid ▸ Ne.symm h)

/-- A request for another SID says nothing about the cookie. -/
theorem Life.next_of_ne {cmd : Cmd} {evs : List Event} (hreq : cmd.IsRequest)
    (hne : cmd.sid ≠ sid) : l.next sid evs (cmd, env) = l := by
  cases cmd with
  | authInit req => exact hreq.elim
  | authCont req =>
    have hne : req.sid ≠ sid := hne
    cases l <;> simp [Life.next, hne]
  | sessionOpen req =>
    have hne : req.sid ≠ sid := hne
    cases l <;> simp [Life.next, hne]
  | sessionClose req =>
    have hne : req.sid ≠ sid := hne
    cases l <;> simp [Life.next, hne]
  | cliStats req => simp [Life.next]
  | cleanup => exact hreq.elim

/-- Neither does a request for an entry that does not exist. -/
theorem Life.next_absent {cmd : Cmd} {evs : List Event} (hreq : cmd.IsRequest) :
    absent.next sid evs (cmd, env) = absent := by
  cases cmd with
  | authInit req => exact hreq.elim
  | authCont req => rfl
  | sessionOpen req => rfl
  | sessionClose req => rfl
  | cliStats req => rfl
  | cleanup => exact hreq.elim

theorem Cmd.entry_eq {cmd : Cmd} (hreq : cmd.IsRequest) :
    cmd.entry env s =
      if cmd.sid.length ≠ sidSize then none else findClientEntry s.db cmd.sid := by
  cases cmd with
  | authInit req => exact hreq.elim
  | authCont req => rfl
  | sessionOpen req => rfl
  | sessionClose req => rfl
  | cliStats req => rfl
  | cleanup => exact hreq.elim

theorem Agrees.mono {clock' : ℕ} {e? : Option ClientEntry} (h : Agrees cfg clock e? l)
    (hle : clock ≤ clock') : Agrees cfg clock' e? l := by
  cases h with
  | absent => exact .absent
  | authenticating status inUse time le => exact .authenticating status inUse time (le.trans hle)
  | issued status cookie count time made => exact .issued status cookie count time made
  | revoked status made => exact .revoked status made

/-- A request that leaves the fields alone that matter. -/
theorem Agrees.same {e' : ClientEntry} (h : Agrees cfg clock (some e) l)
    (hstatus : e'.status = e.status) (hcookie : e'.cookie = e.cookie)
    (hinUse : e'.inUse = e.inUse) (htime : e'.time = e.time) :
    Agrees cfg clock (some e') l := by
  cases h with
  | authenticating status inUse time le =>
    exact .authenticating (hstatus ▸ status) (hinUse ▸ inUse) (htime ▸ time) le
  | issued status cookie count time made =>
    exact .issued (hstatus ▸ status) (hcookie ▸ cookie) (hinUse ▸ count) (htime ▸ time) made
  | revoked status made => exact .revoked (hstatus ▸ status) made

/-- An authentication request leaves an entry that agrees with what is seen of it. -/
theorem Agrees.of_issues {since : ℕ} {out : Out} (hissues : Issues cfg env.now out)
    (hinUse : out.entry.inUse = 0) (htime : out.entry.time = since) (hle : since ≤ env.now) :
    Agrees cfg env.now (some out.entry) (Life.authenticated since env.now out.events) := by
  rw [Life.authenticated]
  cases hissues with
  | nothing hstatus hout =>
    rw [issued_eq_none hout]
    exact .authenticating hstatus hinUse htime hle
  | cookie sealed hstatus hout hexp =>
    rw [hout]
    exact .issued hstatus rfl (by rw [hinUse]; rfl) htime ⟨hle, hexp⟩

theorem Agrees.authCont (h : Agrees cfg clock (some e) l) (hclock : clock ≤ env.now)
    (req : AuthContMsg) (hsid : req.sid = sid) :
    Agrees cfg env.now (some (handleAuthCont cfg env req e).entry)
      (l.next sid (handleAuthCont cfg env req e).events (.authCont req, env)) := by
  have hframe := (handleAuthCont_frame cfg env req e).1.same
  have hfailed (hstatus : e.status = .completed ∨ e.status = .failed) :
      (handleAuthCont cfg env req e).entry.status = .failed := by
    rcases handleAuthCont_status cfg env req e [] with hout | ⟨hstatus', -⟩
    · exact hout
    · rcases hstatus with hs | hs <;> simp [hs] at hstatus'
  cases h with
  | authenticating status inUse time le =>
    simp only [Life.next, if_pos hsid]
    exact .of_issues (handleAuthCont_issues cfg env req e)
      (hframe.inUse_eq.trans inUse) (hframe.time_eq.trans time) (le.trans hclock)
  | issued status cookie count time made =>
    simp only [Life.next, if_pos hsid]
    exact .revoked (hfailed (.inl status)) made
  | revoked status made =>
    simp only [Life.next, if_pos hsid]
    exact .revoked (hfailed (.inr status)) made

/-- The last part of `handle_sec_auth_session_open` opens the session, unless the configuration
refuses it or sec-mod exits. -/
theorem replySession_opened (hsup : cfg.supConfig = true → 0 ≤ env.supConfig)
    (hrun : keepsRunning true (replySession cfg env e).ret = true) :
    (replySession cfg env e).entry.inUse = e.inUse + 1 := by
  simp only [replySession] at hrun ⊢
  split at hrun
  · simp at hrun
  · rename_i hmem
    rw [if_neg hmem]
    split at hrun
    · rename_i hrefused
      exact absurd (hsup hrefused.1) (Int.not_le.2 hrefused.2)
    · rename_i hrefused
      rw [if_neg hrefused]
      split at hrun
      · simp at hrun
      · rename_i hsend
        rw [if_neg hsend]

theorem inUse_add_one_ne (n : UInt32) : n + 1 ≠ n := by
  intro h
  have := congrArg UInt32.toNat h
  rw [UInt32.toNat_add] at this
  have hlt := n.toNat_lt
  have hone : (1 : UInt32).toNat = 1 := rfl
  omega

/-- A session is opened only where `e->module` is not read, or is not `NULL`. -/
theorem module_of_opened {req : SessionMsg} (h : OpenedSession e (handleSessionOpen cfg env req e))
    (hneeds : needsOpen cfg e = true) : e.module ≠ none := by
  intro hnone
  have hdeny (e' : ClientEntry) (hinUse : e'.inUse = e.inUse) :
      (denySession env e').entry.inUse = e.inUse := hinUse
  have hsame : (handleSessionOpen cfg env req e).entry.inUse = e.inUse := by
    simp only [handleSessionOpen, hneeds, hnone, if_true]
    split_ifs
    · exact hdeny _ rfl
    · exact hdeny _ rfl
    · exact hdeny _ rfl
    · rfl
  exact inUse_add_one_ne _ (h.inUse_eq.symm.trans hsame)

/-- **A `SESSION_OPEN` that is refused makes the entry fail**, unless the accounting module or the
configuration refuses it. -/
theorem handleSessionOpen_failed (req : SessionMsg) (hcompleted : e.status = .completed)
    (hopen : 0 ≤ env.openSession) (hsup : cfg.supConfig = true → 0 ≤ env.supConfig)
    (hrun : keepsRunning true (handleSessionOpen cfg env req e).ret = true)
    (hrefused : RefusedSession e (handleSessionOpen cfg env req e)) :
    (handleSessionOpen cfg env req e).entry.status = .failed := by
  have hinUse := hrefused.counters.inUse_eq
  simp only [handleSessionOpen, if_neg (not_not.2 hcompleted)] at hrun hinUse ⊢
  split
  · rfl
  · rename_i htime
    rw [if_neg htime] at hrun hinUse
    split
    · rfl
    · rename_i hcookie
      rw [if_neg hcookie] at hrun hinUse
      by_cases hneeds : needsOpen cfg e = true
      · simp only [hneeds, if_true] at hrun hinUse ⊢
        cases hm : e.module with
        | none => simp [hm, keepsRunning] at hrun
        | some m =>
          simp only [hm, if_neg (Int.not_lt.2 hopen)] at hrun hinUse
          exact absurd ((replySession_opened hsup hrun).symm.trans hinUse) (inUse_add_one_ne _)
      · simp only [hneeds] at hrun hinUse
        exact absurd ((replySession_opened hsup hrun).symm.trans hinUse) (inUse_add_one_ne _)

theorem Agrees.sessionOpen (h : Agrees cfg clock (some e) l) (req : SessionMsg)
    (hsid : req.sid = sid) (hopen : 0 ≤ env.openSession)
    (hsup : cfg.supConfig = true → 0 ≤ env.supConfig) (hcount : l.inUse + 1 < 2 ^ 32)
    (hrun : keepsRunning true (handleSessionOpen cfg env req e).ret = true) :
    Agrees cfg clock (some (handleSessionOpen cfg env req e).entry)
      (l.next sid (handleSessionOpen cfg env req e).events (.sessionOpen req, env)) := by
  cases h with
  | authenticating status inUse time le =>
    rw [handleSessionOpen_not_completed req status]
    exact .authenticating status inUse time le
  | issued status cookie count time made =>
    simp only [Life.next, if_neg (not_not.2 hsid)]
    rcases handleSessionOpen_cases cfg env req e with hout | ⟨hout, -, -, hcookie⟩
    · rw [if_neg (openReplies_of_isRefusal hout.events)]
      exact .revoked (handleSessionOpen_failed req status hopen hsup hrun hout) made
    · rw [if_pos (by rw [hout.openReplies_eq]; exact List.mem_singleton_self _)]
      refine .issued (hout.status_eq.trans status) (hout.frame.cookie_eq.trans cookie) ?_ ?_ made
      · rw [hout.inUse_eq, UInt32.toNat_add, count]
        exact Nat.mod_eq_of_lt hcount
      · rw [hout.time_eq]
        rfl
  | revoked status made =>
    have hentry : (handleSessionOpen cfg env req e).entry = e :=
      handleSessionOpen_not_completed req (by simp [status])
    simp only [Life.next, if_neg (not_not.2 hsid)]
    rcases handleSessionOpen_cases cfg env req e with hout | ⟨-, hcompleted, -⟩
    · rw [if_neg (openReplies_of_isRefusal hout.events), hentry]
      exact .revoked status made
    · cases hcompleted.symm.trans status

theorem expireClientEntry_eq (env : Env) (e : ClientEntry) :
    (expireClientEntry env e).inUse.toNat = e.inUse.toNat - 1 ∧
      (expireClientEntry env e).time =
        if e.inUse.toNat - 1 = 0 then ↑env.now else e.time := by
  by_cases hpos : 0 < e.inUse
  · have hsub : (e.inUse - 1).toNat = e.inUse.toNat - 1 :=
      UInt32.toNat_sub_of_le _ _ (UInt32.le_iff_toNat_le.2 (UInt32.lt_iff_toNat_lt.1 hpos))
    have hiff : e.inUse - 1 = 0 ↔ e.inUse.toNat - 1 = 0 := by
      rw [← hsub]
      exact ⟨fun h => by rw [h]; rfl, fun h => UInt32.toNat_inj.1 h⟩
    simp only [expireClientEntry, if_pos hpos, hiff]
    split_ifs <;> exact ⟨hsub, rfl⟩
  · have hzero : e.inUse = 0 := by
      refine UInt32.toNat_inj.1 ?_
      have := mt UInt32.lt_iff_toNat_lt.2 hpos
      exact Nat.eq_zero_of_not_pos this
    simp [expireClientEntry, hzero]

theorem Agrees.sessionClose (h : Agrees cfg clock (some e) l) (req : SessionMsg)
    (hsid : req.sid = sid)
    (hrun : keepsRunning true (handleSessionClose env req e).ret = true) :
    Agrees cfg clock (some (handleSessionClose env req e).entry)
      (l.next sid (handleSessionClose env req e).events (.sessionClose req, env)) := by
  cases h with
  | authenticating status inUse time le =>
    rw [handleSessionClose_not_completed req status]
    exact .authenticating status inUse time le
  | @issued _ grant use base status cookie count time made =>
    simp only [Life.next, if_neg (not_not.2 hsid)]
    simp only [handleSessionClose, if_neg (not_not.2 status)] at hrun ⊢
    by_cases hsend : env.sendOk = true
    · obtain ⟨hinUse, htime⟩ := expireClientEntry_eq env
        { e with
          stats := {}
          savedStats := e.savedStats.add (e.stats.report req.bytesIn req.bytesOut req.uptime) }
      obtain ⟨inUse', time', heq⟩ := expireClientEntry_frame env
        { e with
          stats := {}
          savedStats := e.savedStats.add (e.stats.report req.bytesIn req.bytesOut req.uptime) }
      simp only [hsend, Bool.not_true, Bool.false_eq_true, if_false]
      rw [heq] at hinUse htime ⊢
      dsimp only at hinUse htime
      rw [count] at hinUse htime
      refine .issued status cookie (hinUse.trans (use.count_less env.now).symm) ?_ made
      rw [Use.count_less, show time' = _ from htime]
      split_ifs with hlast
      · rfl
      -- sessions stay open
      · exact time.trans (if_neg (by omega))
    · simp [hsend] at hrun
  | revoked status made =>
    rw [handleSessionClose_not_completed req (by simp [status])]
    simp only [Life.next, if_neg (not_not.2 hsid)]
    exact .revoked status made

theorem Agrees.cliStats (h : Agrees cfg clock (some e) l) (req : CliStatsMsg) :
    Agrees cfg clock (some (handleStatsCmd cfg req e).entry) l := by
  simp only [handleStatsCmd]
  repeat' split
  all_goals exact h.same rfl rfl rfl rfl

/-! ### Runs -/

/-- What is seen of the cookie for a SID is true of the database. -/
structure Tracks (cfg : Config) (sid : Bytes) (x : SecModSt × Watch) : Prop where
  wf : WF x.1
  agrees : x.1.running = true → Agrees cfg x.2.clock (findClientEntry x.1.db sid) x.2.life

theorem Agrees.authInit (hclock : clock ≤ env.now)
    (h : Agrees cfg clock (findClientEntry s.db sid) l) (req : AuthInitMsg) :
    Agrees cfg env.now (findClientEntry (s.serve cfg env (.authInit req)).db sid)
      (l.next sid ((s.serve cfg env (.authInit req)).trace.drop s.trace.length)
        (.authInit req, env)) := by
  simp only [SecModSt.serve]
  split
  · simpa [Life.next, Life.initiated] using h.mono hclock
  · rename_i e hnew
    have hisNew := newClientEntry_isNew hnew
    have hframe := (handleAuthInit_frame cfg env req e).same
    simp only [List.drop_left, Life.next, Life.initiated, findClientEntry, List.find?_cons,
      hframe.sid_eq]
    by_cases hsid : e.sid = sid
    · simp only [hsid, decide_true, if_true]
      exact .of_issues (handleAuthInit_issues cfg env req e)
        (hframe.inUse_eq.trans hisNew.inUse_eq) (hframe.time_eq.trans hisNew.time_eq) le_rfl
    · simp only [hsid, decide_false, if_false]
      exact h.mono hclock

/-- What a request does to the entry with its SID. -/
theorem Agrees.handle (h : Agrees cfg clock (some e) l) {cmd : Cmd} (hreq : cmd.IsRequest)
    (hsid : cmd.sid = sid) (hfair : Fair cfg (s, ⟨l, clock⟩) (cmd, env))
    (hrun : keepsRunning cmd.fromMain (cmd.handle cfg env e).ret = true) :
    Agrees cfg env.now (some (cmd.handle cfg env e).entry)
      (l.next sid (cmd.handle cfg env e).events (cmd, env)) := by
  obtain ⟨hclock, hfair⟩ := hfair
  cases cmd with
  | authInit req => exact hreq.elim
  | authCont req => exact h.authCont hclock req hsid
  | sessionOpen req =>
    exact (h.sessionOpen req hsid hfair.1 hfair.2.1 hfair.2.2 hrun).mono hclock
  | sessionClose req => exact (h.sessionClose req hsid hrun).mono hclock
  | cliStats req =>
    have hnext : l.next sid (handleStatsCmd cfg req e).events (.cliStats req, env) = l := by
      simp [Life.next]
    rw [Cmd.handle, hnext]
    exact (h.cliStats req).mono hclock
  | cleanup => exact hreq.elim

theorem Agrees.request (hlen : sid.length = sidSize) (hwf : WF s) (hrunning : s.running = true)
    (h : Agrees cfg clock (findClientEntry s.db sid) l) {cmd : Cmd} (hreq : cmd.IsRequest)
    (hfair : Fair cfg (s, ⟨l, clock⟩) (cmd, env))
    (hrun : (s.serve cfg env cmd).running = true) :
    Agrees cfg env.now (findClientEntry (s.serve cfg env cmd).db sid)
      (l.next sid ((s.serve cfg env cmd).trace.drop s.trace.length) (cmd, env)) := by
  rw [serve_request hrunning hreq] at hrun ⊢
  cases hentry : cmd.entry env s with
  | none =>
    show Agrees cfg env.now (findClientEntry s.db sid) _
    by_cases hsid : cmd.sid = sid
    · rw [Cmd.entry_eq hreq, hsid, if_neg (not_not.2 hlen)] at hentry
      rw [hentry] at h ⊢
      cases h
      rw [Life.next_absent hreq]
      exact .absent
    · rw [Life.next_of_ne hreq hsid]
      exact h.mono hfair.1
  | some e =>
    obtain ⟨hid, hsid', -⟩ := (cmd.handles hreq cfg env e).frame
    simp only [hentry] at hrun ⊢
    rw [findClientEntry_put hwf (entry_mem hreq hentry) _ hid hsid',
      SecModSt.put, List.drop_left]
    have hfind : e.sid = cmd.sid := by
      rw [Cmd.entry_eq hreq] at hentry
      split at hentry
      · cases hentry
      · exact (mem_of_findClientEntry hentry).2
    by_cases hsid : cmd.sid = sid
    · rw [Cmd.entry_eq hreq, hsid, if_neg (not_not.2 hlen)] at hentry
      rw [hentry] at h
      rw [if_pos (hfind.trans hsid)]
      exact h.handle hreq hsid hfair hrun
    · rw [if_neg (hfind ▸ hsid), Life.next_of_ne hreq hsid]
      exact h.mono hfair.1

theorem tracks_step (hlen : sid.length = sidSize) {x y : SecModSt × Watch} {i : Cmd × Env}
    (h : Tracks cfg sid x) (hfair : Fair cfg x i) (hstep : (watched cfg sid).step x i = some y) :
    Tracks cfg sid y := by
  obtain ⟨s, l, clock⟩ := x
  obtain ⟨cmd, env⟩ := i
  obtain ⟨hstep, hwatch⟩ := Machine.step_observed hstep
  obtain ⟨hrun, hserve⟩ := step_eq_some hstep
  refine ⟨hserve ▸ h.wf.serve cfg env cmd, ?_⟩
  intro hrun'
  rw [hwatch]
  rw [hserve] at hrun' ⊢
  cases cmd with
  | authInit req => exact .authInit hfair.1 (h.agrees hrun) req
  | cleanup => exact hfair.2.elim
  | authCont req => exact .request hlen h.wf hrun (h.agrees hrun) trivial hfair hrun'
  | sessionOpen req => exact .request hlen h.wf hrun (h.agrees hrun) trivial hfair hrun'
  | sessionClose req => exact .request hlen h.wf hrun (h.agrees hrun) trivial hfair hrun'
  | cliStats req => exact .request hlen h.wf hrun (h.agrees hrun) trivial hfair hrun'

/-- Nothing else fails: sec-mod has memory and can send its reply, and the accounting module and
the configuration agree to a session. -/
structure NothingFails (cfg : Config) (env : Env) : Prop where
  mem : env.mem = true
  sendOk : env.sendOk = true
  openSession : 0 ≤ env.openSession
  supConfig : cfg.supConfig = true → 0 ≤ env.supConfig

/-- `handle_sec_auth_session_open` reads `e->module->type` for the accounting module, where
`e->module` is `NULL`. -/
def NullModule (cfg : Config) (s : SecModSt) (sid : Bytes) : Prop :=
  ∃ e ∈ s.db, e.sid = sid ∧ needsOpen cfg e = true ∧ e.module = none

/-- The answer to a `SESSION_OPEN` is that of the handler for the entry with its SID. -/
theorem sessionReply_of_find (hlen : sid.length = sidSize) (hrunning : s.running = true)
    {req : SessionMsg} (hsid : req.sid = sid) (hfind : findClientEntry s.db sid = some e) :
    sessionReply cfg env s req = openReplies (handleSessionOpen cfg env req e).events := by
  have hreq : (Cmd.sessionOpen req).IsRequest := trivial
  have hentry : (Cmd.sessionOpen req).entry env s = some e := by
    rw [Cmd.entry_eq hreq, Cmd.sid, hsid, if_neg (not_not.2 hlen)]
    exact hfind
  have hserve := @serve_request cfg env s hrunning _ hreq
  rw [hentry] at hserve
  exact sessionReply_eq _ (congrArg SecModSt.trace hserve)

/-- **When the handler answers `OK`** to the cookie of a completed entry. -/
theorem handleSessionOpen_ok_iff {req : SessionMsg} (hstatus : e.status = .completed)
    (hcookie : req.cookie = some e.cookie) (hok : NothingFails cfg env) :
    .ok ∈ openReplies (handleSessionOpen cfg env req e).events ↔
      ¬ (needsOpen cfg e = true ∧ e.module = none) ∧
        (e.time = -1 ∨ env.now ≤ e.time + cfg.cookieTimeout) := by
  constructor
  · intro hreply
    rcases handleSessionOpen_cases cfg env req e with hout | ⟨hout, -, htime, -⟩
    · exact absurd hreply (openReplies_of_isRefusal hout.events)
    · exact ⟨fun hnull => module_of_opened hout hnull.1 hnull.2, htime⟩
  · rintro ⟨hmodule, htime⟩
    have hlate : ¬ (e.time ≠ -1 ∧ env.now > e.time + cfg.cookieTimeout) := by
      rintro ⟨hne, hgt⟩
      rcases htime with h | h
      · exact hne h
      · omega
    have hsup : ¬ (cfg.supConfig = true ∧ env.supConfig < 0) := by
      rintro ⟨h, hlt⟩
      have := hok.supConfig h
      omega
    have hreplies (e' : ClientEntry) : .ok ∈ openReplies (replySession cfg env e').events := by
      simp [replySession, hok.mem, hok.sendOk, hsup, openReplies, Event.openReply?]
    simp only [handleSessionOpen, if_neg (not_not.2 hstatus), if_neg hlate,
      if_neg (not_not.2 hcookie)]
    by_cases hneeds : needsOpen cfg e = true
    · obtain ⟨m, hm⟩ := Option.ne_none_iff_exists'.1 fun hnone => hmodule ⟨hneeds, hnone⟩
      simp only [hneeds, if_true, hm, if_neg (Int.not_lt.2 hok.openSession)]
      exact hreplies _
    · simp only [hneeds]
      exact hreplies _

theorem tracks_start : Tracks cfg sid (start, {}) := ⟨start_wf, fun _ => .absent⟩

theorem tracks_run (hlen : sid.length = sidSize) {is : List (Cmd × Env)}
    (hfair : (watched cfg sid).Meets (Fair cfg) (start, {}) is) {x : SecModSt × Watch}
    (hrun : (watched cfg sid).run (start, {}) is = some x) : Tracks cfg sid x :=
  (Machine.always_of_step (fun _ _ _ h hfair hstep => tracks_step hlen h hfair hstep)
    tracks_start hfair).last hrun

/-- Every run of sec-mod can be watched. -/
theorem exists_watch {is : List (Cmd × Env)} (hrun : (machine cfg).run start is = some s) :
    ∃ w, (watched cfg sid).run (start, {}) is = some (s, w) := by
  have hmap : ((watched cfg sid).run (start, {}) is).map Prod.fst = some s :=
    (Machine.run_observed start _ is).trans hrun
  obtain ⟨⟨_, w⟩, hwatched, rfl⟩ := Option.map_eq_some_iff.1 hmap
  exact ⟨w, hwatched⟩

/-- What is sealed in a cookie is when its login ended, and the timeout. -/
theorem grant_made (hlen : sid.length = sidSize) {is : List (Cmd × Env)}
    (hfair : (watched cfg sid).Meets (Fair cfg) (start, {}) is) {w : Watch}
    (hrun : (watched cfg sid).run (start, {}) is = some (s, w)) (hrunning : s.running = true)
    {g : Grant} {use : Use} {base : ℕ} {revoked : Bool}
    (hlife : w.life = .issued g use base revoked) : g.Made cfg := by
  have hagrees : Agrees cfg w.clock (findClientEntry s.db sid) w.life :=
    (tracks_run hlen hfair hrun).agrees hrunning
  rw [hlife] at hagrees
  generalize findClientEntry s.db sid = e? at hagrees
  cases hagrees with
  | issued _ _ _ _ made => exact made
  | revoked _ made => exact made

/-- **What the answer to a `SESSION_OPEN` with the cookie hangs on.** -/
theorem sessionReply_iff (hlen : sid.length = sidSize) {x : SecModSt × Watch}
    (h : Tracks cfg sid x) (hrunning : x.1.running = true)
    {g : Grant} {use : Use} {base : ℕ} {revoked : Bool}
    (hlife : x.2.life = .issued g use base revoked) {req : SessionMsg} (hsid : req.sid = sid)
    (hcookie : req.cookie = some g.cookie) (hok : NothingFails cfg env) :
    .ok ∈ sessionReply cfg env x.1 req ↔ revoked = false ∧ ¬ NullModule cfg x.1 sid ∧
      (use.count = 0 → (env.now : ℤ) ≤ base + cfg.cookieTimeout) := by
  have hagrees := h.agrees hrunning
  rw [hlife] at hagrees
  cases hfind : findClientEntry x.1.db sid with
  | none =>
    rw [hfind] at hagrees
    cases hagrees
  | some e =>
    obtain ⟨he, hesid⟩ := mem_of_findClientEntry hfind
    have hnull : NullModule cfg x.1 sid ↔ needsOpen cfg e = true ∧ e.module = none := by
      constructor
      · rintro ⟨e', he', hsid', hmodule⟩
        obtain rfl := Table.eq_of_key_eq h.wf.sids he' he (hsid'.trans hesid.symm)
        exact hmodule
      · exact fun hmodule => ⟨e, he, hesid, hmodule⟩
    rw [sessionReply_of_find hlen hrunning hsid hfind, hnull]
    rw [hfind] at hagrees
    cases hagrees with
    | issued status cookie count time made =>
      rw [handleSessionOpen_ok_iff status (hcookie.trans (congrArg some cookie.symm)) hok, time,
        and_iff_right rfl]
      refine and_congr_right fun _ => ?_
      by_cases hzero : use.count = 0
      · have hbase : (base : ℤ) ≠ -1 := by omega
        rw [if_pos hzero, or_iff_right hbase, imp_iff_right hzero]
      · rw [if_neg hzero]
        exact iff_of_true (.inl rfl) fun hcount => absurd hcount hzero
    | revoked status made =>
      refine iff_of_false (fun hreply => ?_) fun hrevoked => Bool.noConfusion hrevoked.1
      rcases handleSessionOpen_cases cfg env req e with hout | ⟨-, hcompleted, -⟩
      · exact openReplies_of_isRefusal hout.events hreply
      · cases hcompleted.symm.trans status

/-- Just one of the two limits is past at `now`. -/
def PastOne (limit limit' now : ℤ) : Prop :=
  limit < now ∧ now ≤ limit' ∨ limit' < now ∧ now ≤ limit

/-- The entry does not disagree with the cookie at `now`.  Its own limit counts from `base`, and it
has none while there are sessions; one that is revoked, or has no module for the accounting, gives
no session at all. -/
def LimitsAgree (cfg : Config) (g : Grant) (base : ℕ) (refused : Prop) (now : ℕ) : Use → Prop
  | .unused =>
    refused ∧ g.sealed.expiration < now ∨
      ¬ refused ∧ ¬ PastOne (base + cfg.cookieTimeout) g.sealed.expiration now
  | .opened _ => ¬ refused
  | .closed c =>
    refused ∧ c + cfg.cookieTimeout < now ∨
      ¬ refused ∧ ¬ PastOne (base + cfg.cookieTimeout) (c + cfg.cookieTimeout) now

theorem not_pastOne {limit limit' now : ℤ} :
    (now ≤ limit ↔ now ≤ limit') ↔ ¬ PastOne limit limit' now := by
  rw [PastOne]
  omega

/-- **The lifetime of a cookie.**  In every run without cleanups, by a clock that does not go back,
in which neither the accounting module nor the configuration refuses a session: a `SESSION_OPEN`
with the cookie that was issued is answered `OK` just while the cookie should be good, if and only
if the entry does not disagree with the cookie. -/
theorem cookie_lifetime_iff (hlen : sid.length = sidSize) {is : List (Cmd × Env)}
    (hfair : (watched cfg sid).Meets (Fair cfg) (start, {}) is) {w : Watch}
    (hrun : (watched cfg sid).run (start, {}) is = some (s, w)) (hrunning : s.running = true)
    {g : Grant} {use : Use} {base : ℕ} {revoked : Bool}
    (hlife : w.life = .issued g use base revoked) {req : SessionMsg} (hsid : req.sid = sid)
    (hcookie : req.cookie = some g.cookie) (hok : NothingFails cfg env) :
    (.ok ∈ sessionReply cfg env s req ↔ use.Good cfg g env.now) ↔
      LimitsAgree cfg g base (revoked = true ∨ NullModule cfg s sid) env.now use := by
  rw [sessionReply_iff hlen (tracks_run hlen hfair hrun) hrunning hlife hsid hcookie hok]
  by_cases hrefused : revoked = true ∨ NullModule cfg s sid
  · have hno : ¬ (revoked = false ∧ ¬ NullModule cfg s sid ∧
        (use.count = 0 → (env.now : ℤ) ≤ base + cfg.cookieTimeout)) := by
      rintro ⟨rfl, hmodule, -⟩
      exact hrefused.elim Bool.noConfusion hmodule
    rw [iff_false_left hno]
    rcases use with _ | n | c
    · simp only [Use.Good, LimitsAgree, hrefused, true_and, not_true_eq_false, false_and, or_false,
        not_le]
    · simp only [Use.Good, LimitsAgree, hrefused, not_true_eq_false]
    · simp only [Use.Good, LimitsAgree, hrefused, true_and, not_true_eq_false, false_and, or_false,
        Int.not_le]
  · obtain ⟨hlive, hmodule⟩ := not_or.1 hrefused
    rw [and_iff_right (Bool.eq_false_iff.2 hlive), and_iff_right hmodule]
    rcases use with _ | n | c
    · simp only [Use.Good, LimitsAgree, hrefused, false_and, false_or, not_false_eq_true, true_and,
        Use.count, true_imp_iff, ← not_pastOne, Int.ofNat_le]
    -- while there are sessions the entry has no limit
    · simp only [Use.Good, LimitsAgree, hrefused, not_false_eq_true, Use.count,
        Nat.succ_ne_zero, false_imp_iff]
    · simp only [Use.Good, LimitsAgree, hrefused, false_and, false_or, not_false_eq_true, true_and,
        Use.count, true_imp_iff, ← not_pastOne]

end

instance (cfg : Config) (x : SecModSt × Watch) : (i : Cmd × Env) → Decidable (Fair cfg x i)
  | (.sessionOpen _, env) =>
    inferInstanceAs (Decidable (x.2.clock ≤ env.now ∧ 0 ≤ env.openSession ∧
      (cfg.supConfig = true → 0 ≤ env.supConfig) ∧ x.2.life.inUse + 1 < 2 ^ 32))
  | (.cleanup, env) => inferInstanceAs (Decidable (x.2.clock ≤ env.now ∧ False))
  | (.authInit _, env) | (.authCont _, env) | (.sessionClose _, env) | (.cliStats _, env) =>
    inferInstanceAs (Decidable (x.2.clock ≤ env.now ∧ True))

/-! ### Two logins -/

/-- After the run the cookie has not been used and is good at `now`, and a `SESSION_OPEN` with it
gets the replies. -/
def AnswersUnused (cfg : Config) (is : List (Cmd × Env)) (now : ℕ) (replies : List AuthRep) :
    Prop :=
  (watched cfg Sample.sid).Meets (Fair cfg) (start, {}) is ∧
    ∃ s w g base, (watched cfg Sample.sid).run (start, {}) is = some (s, w) ∧ w.clock ≤ now ∧
      w.life = .issued g .unused base false ∧ Sample.openMsg.cookie = some g.cookie ∧
      Use.Good cfg g now .unused ∧ sessionReply cfg (Sample.environ now) s Sample.openMsg = replies

namespace Sample

def plain : Config := config ⟨true, authTypePlain, some .plain⟩ none

/-- A login for which the password comes late. -/
def slowLogin : List (Cmd × Env) :=
  [(.authInit (initMsg false authTypePlain), environ 1000),
    (.authCont ⟨sid, some [112]⟩, environ 1200)]

/-- A certificate login where there is an accounting module. -/
def certificateAccounted : Config :=
  config ⟨true, authTypeCertificate, none⟩ (some ⟨true, true, true⟩)

end Sample

open Sample in
/-- The worker closes its only session, and the client comes back in time. -/
theorem cookie_lifetime_session :
    .ok ∈ sessionReply certificate (environ 1301)
      (((watched certificate sid).run (start, {}) session).getD (start, {})).1 openMsg := by
  have hiff := cookie_lifetime_iff (show sid.length = sidSize by decide)
    (show (watched certificate sid).Meets (Fair certificate) (start, {}) session by decide)
    rfl rfl rfl (show openMsg.sid = sid from rfl) rfl
    (show NothingFails certificate (environ 1301) from ⟨rfl, rfl, by decide, by decide⟩)
  refine (hiff.2 (.inr ⟨fun hrefused => ?_, not_pastOne.1 Iff.rfl⟩)).2 ?_
  · obtain hrevoked | ⟨e, -, -, hneeds, -⟩ := hrefused
    · cases hrevoked
    · cases hneeds
  · show (1301 : ℤ) ≤ 1002 + 300
    decide

open Sample in
/-- The timeout counts from the `AUTH_INIT`, and not from the time that is sealed in the cookie; and
sec-mod crashes on an entry without a module. -/
theorem not_cookie_lifetime :
    AnswersUnused plain slowLogin 1400 [.failed] ∧
      AnswersUnused certificateAccounted certificateLogin 1002 [] := by
  constructor
  · exact ⟨by decide, _, _, _, _, rfl, by decide, rfl, rfl,
      (show 1400 ≤ 1500 by decide).trans_eq rfl, rfl⟩
  · exact ⟨by decide, _, _, _, _, rfl, by decide, rfl, rfl,
      (show 1002 ≤ 1300 by decide).trans_eq rfl, rfl⟩

end SecMod

end Ocserv
