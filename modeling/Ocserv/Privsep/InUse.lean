import Mathlib.Algebra.BigOperators.Group.List.Basic
import Ocserv.Privsep.Vouched

/-!
# Privilege separation: the sessions of main and of sec-mod

Sec-mod counts the sessions of an entry (`in_use`), and keeps the entry while there are some.  Main
opens and closes them; for main a session is a worker with `active_sid`.

* `sessions_conserved` : **the two agree**, but for the sessions whose `SESSION_OPEN` is lost after
  sec-mod has served it, whose `SESSION_CLOSE` is lost before, or whose entry has failed.
* `entry_of_session` : sec-mod keeps the entry of every session that main has.
-/

namespace Ocserv

namespace Privsep

open SecMod (Bytes Event SecModSt ClientEntry findClientEntry)
open Main (MainSt Proc)

/-! ### Sec-mod -/

section SecMod

variable {cfg : SecMod.Config} {env : SecMod.Env} {st st' : SecModSt} {e e' : ClientEntry}
  {sid : Bytes}

/-- The sessions that sec-mod counts for a SID. -/
def uses (st : SecModSt) (sid : Bytes) : ℕ :=
  (findClientEntry st.db sid).elim 0 fun e => e.inUse.toNat

theorem findClientEntry_eq_some (hwf : SecMod.WF st) :
    findClientEntry st.db sid = some e ↔ e ∈ st.db ∧ e.sid = sid := by
  constructor
  · exact SecMod.mem_of_findClientEntry
  · rintro ⟨he, rfl⟩
    exact (Table.find?_eq_some hwf.sids he : findClientEntry st.db e.sid = some e)

theorem uses_of_mem (hwf : SecMod.WF st) (he : e ∈ st.db) : uses st e.sid = e.inUse.toNat := by
  rw [uses, (findClientEntry_eq_some hwf).2 ⟨he, rfl⟩]
  rfl

theorem uses_eq_zero (h : ∀ e ∈ st.db, e.sid ≠ sid) : uses st sid = 0 := by
  have hnone : findClientEntry st.db sid = none :=
    List.find?_eq_none.2 fun e he => by simpa using h e he
  rw [uses, hnone]
  rfl

/-- The entries that have the SID in both states count the same sessions. -/
theorem uses_congr (hwf : SecMod.WF st) (hwf' : SecMod.WF st')
    (h : ∀ e ∈ st.db, e.sid = sid → e.inUse.toNat = 0 ∧ (∀ e' ∈ st'.db, e'.sid ≠ sid) ∨
      ∃ e' ∈ st'.db, e'.sid = sid ∧ e'.inUse = e.inUse)
    (h' : ∀ e' ∈ st'.db, e'.sid = sid → e'.inUse.toNat = 0 ∨ ∃ e ∈ st.db, e.sid = sid) :
    uses st' sid = uses st sid := by
  cases hfind : findClientEntry st.db sid with
  | some e =>
    obtain ⟨he, rfl⟩ := (findClientEntry_eq_some hwf).1 hfind
    obtain ⟨hzero, hgone⟩ | ⟨e', he', hsid, hinUse⟩ := h e he rfl
    · rw [uses_eq_zero hgone, uses_of_mem hwf he, hzero]
    · rw [← hsid, uses_of_mem hwf' he', hsid, uses_of_mem hwf he, hinUse]
  | none =>
    have hnone : ∀ e ∈ st.db, e.sid ≠ sid := fun e he => by
      simpa using List.find?_eq_none.1 hfind e he
    rw [uses_eq_zero hnone]
    by_cases hex : ∃ e' ∈ st'.db, e'.sid = sid
    · obtain ⟨e', he', rfl⟩ := hex
      obtain hzero | ⟨e, he, hsid⟩ := h' e' he' rfl
      · rw [uses_of_mem hwf' he', hzero]
      · exact absurd hsid (hnone e he)
    · exact uses_eq_zero fun e' he' hsid => hex ⟨e', he', hsid⟩

/-- An entry is written. -/
theorem uses_put (hwf : SecMod.WF st) (he : e ∈ st.db) {fromMain : Bool} {out : SecMod.SessionOut}
    (hwf' : SecMod.WF (st.put fromMain out)) (hid : out.entry.id = e.id)
    (hsid : out.entry.sid = e.sid) :
    uses (st.put fromMain out) sid =
      if sid = e.sid then out.entry.inUse.toNat else uses st sid := by
  have hmem : out.entry ∈ (st.put fromMain out).db := Table.mem_update_self he hid.symm
  split
  · rename_i heq
    rw [heq, ← hsid, uses_of_mem hwf' hmem]
  · rename_i hne
    refine uses_congr hwf hwf' (fun x hx hxsid => .inr ⟨x, ?_, hxsid, rfl⟩)
      fun x hx hxsid => .inr ?_
    · refine Table.mem_update_of_ne hx fun hxid => hne ?_
      rw [← hxsid, Table.eq_of_key_eq hwf.ids hx he (hxid.trans hid)]
    · obtain rfl | ⟨hx, -⟩ := Table.mem_update hx
      · exact absurd (hxsid.symm.trans hsid) hne
      · exact ⟨x, hx, hxsid⟩

/-- **Neither the workers nor the cleanup change what is counted.** -/
theorem uses_worker (hwf : SecMod.WF st) {cmd : SecMod.Cmd} (hcmd : cmd.fromMain = false)
    (hs : (SecMod.machine cfg).step st (cmd, env) = some st') (sid : Bytes) :
    uses st' sid = uses st sid := by
  obtain ⟨-, rfl⟩ := SecMod.step_eq_some hs
  have hwf' := hwf.serve cfg env cmd
  have hserved := SecMod.serve_cases cfg env st cmd
  generalize st.serve cfg env cmd = st' at hserved hwf'
  cases hserved with
  | nothing running events hev => rfl
  | @found _ e out hentry he hout =>
    have hinUse : out.entry.inUse = e.inUse := by
      cases hout with
      | authCont req => exact (SecMod.handleAuthCont_frame cfg env req e).1.same.inUse_eq
      | sessionOpen req | sessionClose req => cases hcmd
      | cliStats req =>
        show (SecMod.handleStatsCmd cfg req e).entry.inUse = e.inUse
        unfold SecMod.handleStatsCmd
        dsimp only
        repeat' split
        all_goals rfl
    rw [uses_put hwf he hwf' hout.frame.1 hout.frame.2.1]
    split
    · rename_i heq
      rw [heq, hinUse, uses_of_mem hwf he]
    · rfl
  | @created req e hnew =>
    have hnew := SecMod.newClientEntry_isNew hnew
    have hsame := (SecMod.handleAuthInit_frame cfg env req e).same
    refine uses_congr hwf hwf' (fun x hx hxsid => .inr ⟨x, List.mem_cons_of_mem _ hx, hxsid, rfl⟩)
      fun x hx hxsid => ?_
    rcases List.mem_cons.1 hx with rfl | hx
    · left
      rw [hsame.inUse_eq, hnew.inUse_eq]
      rfl
    · exact .inr ⟨x, hx, hxsid⟩
  | cleanup =>
    refine uses_congr hwf hwf' (fun x hx hxsid => ?_) fun x hx hxsid =>
      .inr ⟨x, (List.mem_filter.1 hx).1, hxsid⟩
    by_cases hexp : SecMod.expired cfg env.now x
    · left
      have hzero : x.inUse = 0 := by
        have hexp := hexp
        simp only [SecMod.expired, decide_eq_true_eq] at hexp
        exact hexp.2.2
      refine ⟨by rw [hzero]; rfl, fun y hy hysid => ?_⟩
      obtain ⟨hy, hyexp⟩ := List.mem_filter.1 hy
      have heq : y = x := Table.eq_of_key_eq hwf.sids hy hx (hysid.trans hxsid.symm)
      rw [heq, hexp] at hyexp
      cases hyexp
    · right
      exact ⟨x, List.mem_filter.2 ⟨hx, by simpa using hexp⟩, hxsid, rfl⟩

/-- **A `SESSION_OPEN` is counted** if it is answered `OK`. -/
theorem uses_sessionOpen (hwf : SecMod.WF st) {req : SecMod.SessionMsg}
    (hmax : ∀ e ∈ st.db, e.sid = req.sid → e.inUse.toNat + 1 < 2 ^ 32)
    (hs : (SecMod.machine cfg).step st (.sessionOpen req, env) = some st') (sid : Bytes) :
    uses st' sid = uses st sid + if answeredOk st st' ∧ req.sid = sid then 1 else 0 := by
  obtain ⟨-, rfl⟩ := SecMod.step_eq_some hs
  have hwf' := hwf.serve cfg env (.sessionOpen req)
  have hserved := SecMod.serve_cases cfg env st (.sessionOpen req)
  generalize st.serve cfg env (.sessionOpen req) = st' at hserved hwf'
  cases hserved with
  | nothing running events hev =>
    have hno :
        answeredOk st { st with running := running, trace := st.trace ++ events } = false := by
      rw [answeredOk, List.drop_left, List.any_eq_false]
      intro ev hmem
      obtain rfl | rfl := hev ev hmem <;> simp [Event.isOpened]
    rw [if_neg fun h => by rw [hno] at h; cases h.1]
    rfl
  | @found _ e out hentry he hout =>
    have hsid := SecMod.sid_of_entry hentry
    rw [SecMod.Cmd.fromMain] at hwf' ⊢
    have hanswer : answeredOk st (st.put true out) = out.events.any Event.isOpened := by
      rw [answeredOk, show (st.put true out).trace = st.trace ++ out.events from rfl,
        List.drop_left]
    rw [uses_put hwf he hwf' hout.frame.1 hout.frame.2.1, hanswer]
    cases hout with
    | sessionOpen =>
      obtain href | ⟨hopened, -⟩ := SecMod.handleSessionOpen_cases cfg env req e
      · have hno : (SecMod.handleSessionOpen cfg env req e).events.any Event.isOpened = false := by
          rw [List.any_eq_false]
          intro ev hmem
          obtain rfl | ⟨ret, rfl⟩ := href.events ev hmem <;> simp [Event.isOpened]
        rw [hno, href.counters.inUse_eq]
        split
        · rename_i heq
          rw [heq, uses_of_mem hwf he]
          simp
        · simp
      · have hyes : (SecMod.handleSessionOpen cfg env req e).events.any Event.isOpened = true := by
          obtain ⟨pre, hpre, -⟩ := hopened.events
          rw [hpre, List.any_append]
          simp [Event.isOpened]
        have hsucc : (e.inUse + 1).toNat = e.inUse.toNat + 1 := by
          have hlt := hmax e he hsid
          rw [UInt32.toNat_add, UInt32.toNat_one]
          omega
        rw [hyes, hopened.inUse_eq, hsucc, ← hsid]
        split
        · rename_i heq
          rw [heq, uses_of_mem hwf he]
          simp
        · rename_i hne
          rw [if_neg fun h => hne h.2.symm]
          rfl

/-- A session is opened only for a whole SID. -/
theorem length_of_answeredOk {req : SecMod.SessionMsg}
    (hs : (SecMod.machine cfg).step st (.sessionOpen req, env) = some st')
    (hok : answeredOk st st' = true) : req.sid.length = SecMod.sidSize := by
  by_contra hlen
  obtain ⟨-, rfl⟩ := SecMod.step_eq_some hs
  simp only [SecMod.SecModSt.serve, ne_eq, hlen, not_false_eq_true, if_true] at hok
  rw [answeredOk, SecMod.SecModSt.reply, List.drop_left, List.any_eq_true] at hok
  obtain ⟨ev, hev, hopened⟩ := hok
  rw [SecMod.sendFailedSessionOpenReply_events _ ev hev] at hopened
  cases hopened

/-- The entry of the SID is not completed: a `SESSION_CLOSE` for it is ignored. -/
def failed (st : SecModSt) (sid : Bytes) : Bool :=
  (findClientEntry st.db sid).any fun e => decide (e.status ≠ .completed)

/-- **A `SESSION_CLOSE` is counted** if it finds its entry completed. -/
theorem uses_sessionClose (hwf : SecMod.WF st) {req : SecMod.SessionMsg}
    (hpos : 0 < uses st req.sid) (hlen : req.sid.length = SecMod.sidSize)
    (hs : (SecMod.machine cfg).step st (.sessionClose req, env) = some st')
    (hrunning : st'.running = true) (sid : Bytes) :
    uses st' sid + (if req.sid = sid then 1 else 0) =
      uses st sid + if req.sid = sid ∧ failed st req.sid then 1 else 0 := by
  cases hfind : findClientEntry st.db req.sid with
  | none =>
    rw [uses, hfind] at hpos
    exact absurd hpos (Nat.lt_irrefl 0)
  | some e =>
    obtain ⟨he, hsid⟩ := (findClientEntry_eq_some hwf).1 hfind
    have hstep : st' = st.put true (SecMod.handleSessionClose env req e) := by
      rw [(SecMod.step_eq_some hs).2, SecMod.SecModSt.serve]
      simp only [hlen, hfind, ne_eq, not_true_eq_false, if_false]
    have hfailed : failed st req.sid = decide (e.status ≠ .completed) := by
      rw [failed, hfind]
      rfl
    have hframe := SecMod.handleSessionClose_frame env req e
    have hwf' := hwf.serve cfg env (.sessionClose req)
    rw [← (SecMod.step_eq_some hs).2, hstep] at hwf'
    rw [hstep, uses_put hwf he hwf' hframe.id_eq hframe.sid_eq, hfailed]
    have hcount : (SecMod.handleSessionClose env req e).entry.inUse.toNat + 1 =
        e.inUse.toNat + if e.status ≠ .completed then 1 else 0 := by
      by_cases hcompleted : e.status = .completed
      · have hpos : 0 < e.inUse.toNat := by rwa [← uses_of_mem hwf he, hsid]
        have hsub : (e.inUse - 1).toNat = e.inUse.toNat - 1 :=
          UInt32.toNat_sub_of_le _ _ (UInt32.le_iff_toNat_le.2 hpos)
        have hgt : e.inUse > 0 := UInt32.lt_iff_toNat_lt.2 hpos
        rw [if_neg (not_not.2 hcompleted)]
        rw [hstep] at hrunning
        unfold SecMod.handleSessionClose at hrunning ⊢
        rw [if_neg (not_not.2 hcompleted)] at hrunning ⊢
        dsimp only at hrunning ⊢
        split at hrunning
        · cases hrunning
        · rename_i hsend
          rw [if_neg hsend]
          simp only [SecMod.expireClientEntry, if_pos hgt]
          split
          all_goals
            dsimp only
            omega
      · rw [if_pos hcompleted, SecMod.handleSessionClose, if_pos hcompleted]
        split <;> rfl
    split
    · rename_i heq
      rw [heq, uses_of_mem hwf he, if_pos hsid.symm, hcount]
      simp [hsid]
    · rename_i hne
      have hno : ¬ req.sid = sid := fun h => hne (h.symm.trans hsid.symm)
      rw [if_neg hno, if_neg fun h => hno h.1]

end SecMod

/-! ### Main -/

section Main

variable {st st' : MainSt} {p q : Proc} {sid : Bytes}

/-- The worker has the session. -/
def has (p : Proc) (sid : Bytes) : ℕ := if p.activeSid = true ∧ p.sid = sid then 1 else 0

/-- The sessions that main has for a SID. -/
def workers (st : MainSt) (sid : Bytes) : ℕ := (st.procs.map fun p => has p sid).sum

theorem has_congr (h : p.user = q.user) : has p sid = has q sid := by
  simp only [Proc.user, Prod.mk.injEq] at h
  rw [has, has, h.1, h.2.2]

theorem workers_cons (hwf : (st.procs.map Proc.id).Nodup) (hp : p ∈ st.procs) :
    workers st sid =
      has p sid + ((Table.others Proc.id st.procs p.id).map fun q => has q sid).sum := by
  rw [workers, ((Table.perm_cons_others hwf hp).map _).sum_eq, List.map_cons, List.sum_cons]

theorem workers_removeProc (hwf : (st.procs.map Proc.id).Nodup) (hp : p ∈ st.procs)
    (hid : q.id = p.id) : workers (Main.removeProc st q) sid + has p sid = workers st sid := by
  rw [workers_cons hwf hp, ← hid, Nat.add_comm]
  rfl

theorem workers_put (hwf : (st.procs.map Proc.id).Nodup) (hp : p ∈ st.procs) (hid : q.id = p.id) :
    workers (st.put q) sid + has p sid = workers st sid + has q sid := by
  have hperm : (st.put q).procs.Perm (q :: Table.others Proc.id st.procs q.id) :=
    Table.update_perm hwf (hid ▸ List.mem_map_of_mem hp)
  rw [workers_cons hwf hp, workers, (hperm.map _).sum_eq, List.map_cons, List.sum_cons, hid]
  omega

/-- The handler of a request does not touch the sessions of the other workers. -/
theorem handleCookieReq_workers (plat : Main.Platform) (cfg : Main.Config) (env : Main.Env)
    (hwf : Main.WF st) (p : Proc) (req : Bytes) :
    let out := Main.handleCookieReq plat cfg env st p req
    out.proc.id = p.id ∧ out.st.procs.map (fun q => (q.id, q.user)) =
      st.procs.map fun q => (q.id, q.user) := by
  dsimp only
  rw [Main.handleCookieReq]
  split
  · exact ⟨rfl, rfl⟩
  · have hres := (Main.handleCookieAuthRes_frame plat cfg env
      (Main.handleAuthCookieReq cfg env st p req).st
      (Main.handleAuthCookieReq cfg env st p req).proc
      (Main.handleAuthCookieReq cfg env st p req).ret).1
    obtain ⟨hframe, hdisp⟩ := Main.handleAuthCookieReq_cases cfg env st p req
    refine ⟨hres.id_eq.trans hframe.id_eq, ?_⟩
    rw [Main.authCookieReq, hres.procs_eq]
    cases hdisp with
    | nobody hprocs => rw [hprocs]
    | old old hsearch hprocs =>
      rw [hprocs]
      refine Table.map_update (fun q : Proc => (q.id, q.user)) fun x hx hid => ?_
      rw [Table.eq_of_key_eq hwf.ids hx (hwf.search hsearch).1 hid]
      rfl

/-- What main waits for counts as a session: one that sec-mod has opened, or has not yet closed. -/
def pending (call : Option Call) (sid : Bytes) : ℕ :=
  match call with
  | some (.opened _ _ _ sid' true) | some (.closing sid') => if sid' = sid then 1 else 0
  | _ => 0

theorem pending_closing (p : Proc) : pending (closing p) sid = has p sid := by
  rw [closing, has]
  by_cases hactive : p.activeSid = true
  · simp [hactive, pending]
  · simp [hactive, pending]

/-- **A request that is handled to its end**: the session of its worker is there, or is closed. -/
theorem workers_finish (sv : Server) {s : Sys} (hwf : Main.WF s.main) (hp : p ∈ s.main.procs)
    (req : Bytes) (env : Main.Env) :
    workers (sv.finish s p req env).main sid + pending (sv.finish s p req env).call sid +
        has p sid =
      workers s.main sid +
        has (Main.handleCookieReq sv.plat sv.main env s.main p req).proc sid := by
  obtain ⟨hid, hmap⟩ := handleCookieReq_workers sv.plat sv.main env hwf p req
  show workers (Main.Out.finish _) sid + pending (if _ then _ else _) sid + _ = _
  generalize Main.handleCookieReq sv.plat sv.main env s.main p req = out at hid hmap
  have hids : (out.st.procs.map Proc.id).Nodup := by
    have hproj := congrArg (List.map Prod.fst) hmap
    rw [List.map_map, List.map_map] at hproj
    exact (show out.st.procs.map Proc.id = s.main.procs.map Proc.id from hproj) ▸ hwf.ids
  have hsum : workers out.st sid = workers s.main sid := by
    have hproj := congrArg (List.map fun u : ℕ × Bytes × Bytes × Bool =>
      if u.2.2.2 = true ∧ u.2.1 = sid then 1 else 0) hmap
    rw [List.map_map, List.map_map] at hproj
    exact congrArg List.sum hproj
  -- The worker is in the table as it was.
  have hp : (p.id, p.user) ∈ s.main.procs.map fun q => (q.id, q.user) := List.mem_map_of_mem hp
  obtain ⟨x, hx, hxeq⟩ := List.mem_map.1 (hmap ▸ hp)
  obtain ⟨hxid, hxuser⟩ := Prod.mk.inj hxeq
  rw [Main.Out.finish, ← hsum, ← has_congr hxuser]
  split
  · have hremove : workers (Main.removeProc out.st out.proc) sid + has x sid = workers out.st sid :=
      workers_removeProc hids hx (hid.trans hxid.symm)
    rw [pending_closing]
    omega
  · have hput : workers (out.st.put out.proc) sid + has x sid =
        workers out.st sid + has out.proc sid := workers_put hids hx (hid.trans hxid.symm)
    rw [show pending none sid = 0 from rfl]
    omega

end Main

/-! ### The request for a session -/

section Asks

variable {sv : Server} {env : Main.Env} {p : Proc} {req sid : Bytes}

/-- What is in the reply does not decide whether the cookie is opened. -/
theorem openCookie_reply {cfg : Main.Config} {r r' : Main.SessionReply} {cookie : Main.Cookie}
    (h : (Main.openCookie cfg { env with sessionOpen := some r } p req).2 = some cookie)
    (hreply : env.sessionOpen = some r') : (Main.openCookie cfg env p req).2 = some cookie := by
  unfold Main.openCookie at h ⊢
  dsimp only at h ⊢
  repeat' split at h
  all_goals simp_all

theorem handleCookieReq_user (plat : Main.Platform) (cfg : Main.Config) (env : Main.Env)
    (st : MainSt) (req : Bytes) (hidle : p.status = .inactive) :
    (Main.handleCookieReq plat cfg env st p req).proc.user =
      (Main.openCookie cfg env p req).1.user := by
  rw [Main.handleCookieReq, if_neg (not_not.2 hidle), Main.authCookieReq]
  exact (Main.handleCookieAuthRes_user _ _ _).1.trans (Main.handleAuthCookieReq_user ..).1

theorem has_of_not_active (h : p.activeSid = false) : has p sid = 0 := by
  rw [has, if_neg]
  rw [h]
  exact fun hp => by cases hp.1

/-- Without a reply there is no session. -/
theorem has_of_noReply (sv : Server) (st : MainSt) (req : Bytes) (hno : env.sessionOpen = none)
    (hidle : p.status = .inactive) (hactive : p.activeSid = false) :
    has (Main.handleCookieReq sv.plat sv.main env st p req).proc sid = 0 := by
  rw [has_congr (handleCookieReq_user _ _ _ _ _ hidle)]
  obtain ⟨-, hsame⟩ | ⟨cookie, -, hopens⟩ := Main.openCookie_cases sv.main env p req
  · exact has_of_not_active (hsame.trans hactive)
  · have hreplied := hopens.replied
    rw [hno] at hreplied
    cases hreplied

theorem idle_of_asks (h : sv.asks env p req = some sid) : p.status = .inactive := by
  rw [Server.asks, Option.ite_none_left_eq_some] at h
  exact not_not.1 h.1

/-- With a reply the worker has the session that main asked for. -/
theorem has_of_reply (st : MainSt) (hasks : sv.asks env p req = some sid)
    {reply : Main.SessionReply} (hreply : env.sessionOpen = some reply) (sid' : Bytes) :
    has (Main.handleCookieReq sv.plat sv.main env st p req).proc sid' =
      if sid = sid' then 1 else 0 := by
  have hidle := idle_of_asks hasks
  rw [Server.asks, Option.ite_none_left_eq_some] at hasks
  obtain ⟨cookie, hopen, rfl⟩ := Option.map_eq_some_iff.1 hasks.2
  have hopen := openCookie_reply hopen hreply
  rw [has_congr (handleCookieReq_user _ _ _ _ _ hidle)]
  obtain ⟨hnone, -⟩ | ⟨cookie', hsome, hopens⟩ := Main.openCookie_cases sv.main env p req
  · rw [hnone] at hopen
    cases hopen
  · obtain rfl : cookie' = cookie := Option.some.inj (hsome.symm.trans hopen)
    rw [has, hopens.active, hopens.sid]
    simp

end Asks

/-! ### Both together -/

variable {sv : Server} {s s' : Sys} {n : Bytes → ℕ}

/-- The sessions that sec-mod counts, and main does not have any more: a call is lost after sec-mod
has opened the session or before it has closed it, or the entry has failed when it is closed. -/
def leaks (s : Sys) (l : Label) (sid : Bytes) : ℕ :=
  match l, s.call with
  | .lost, call => pending call sid
  | .serve _ _, some (.closing sid') => if sid' = sid ∧ failed s.secMod sid' then 1 else 0
  | _, _ => 0

/-- The counter does not overflow. -/
def fits (s : Sys) (l : Label) : Bool :=
  match l, s.call with
  | .serve _ _, some (.opening _ _ _ sid) => uses s.secMod sid + 1 < 2 ^ 32
  | _, _ => true

/-- The worker that main is at work for. -/
def CallOk (sv : Server) (st : MainSt) (call : Option Call) : Prop :=
  match call with
  | some (.opening id req env sid) | some (.opened id req env sid _) =>
    ∃ p, st.find id = some p ∧ sv.asks env p req = some sid
  | some (.closing _) | none => True

theorem CallOk.of_closing (sv : Server) (st : MainSt) (p : Proc) : CallOk sv st (closing p) := by
  rw [closing]
  split <;> trivial

/-- Main and sec-mod agree, but for the sessions that leaked. -/
structure Agree (sv : Server) (n : Bytes → ℕ) (s : Sys) : Prop where
  inv : Inv sv s
  secMod : SecMod.WF s.secMod
  call : CallOk sv s.main s.call
  length : s.secMod.running = true → ∀ sid, 0 < uses s.secMod sid → sid.length = SecMod.sidSize
  uses : s.secMod.running = true → ∀ sid,
    uses s.secMod sid = workers s.main sid + pending s.call sid + n sid

theorem Agree.start : Agree sv 0 Privsep.start :=
  ⟨Inv.start, SecMod.start_wf, trivial, fun _ _ h => absurd h (Nat.lt_irrefl 0), fun _ _ => rfl⟩

section Finish

variable {id : ℕ} {p : Proc} {req sid : Bytes} {env : Main.Env}

/-- A request that is handled to its end: what main waited for is the session of its worker, or
leaks. -/
theorem Agree.finish (h : Agree sv n s) (hinv : Inv sv (sv.finish s p req env))
    (hfind : s.main.find id = some p) (lost : Bytes → ℕ)
    (hhas : ∀ sid, has (Main.handleCookieReq sv.plat sv.main env s.main p req).proc sid + lost sid =
      pending s.call sid + has p sid) : Agree sv (n + lost) (sv.finish s p req env) := by
  refine ⟨hinv, h.secMod, ?_, h.length, fun hrunning sid => ?_⟩
  · rw [Server.finish]
    dsimp only
    split
    · exact .of_closing ..
    · trivial
  · have hfinish := @workers_finish p sid sv s h.inv.mainWf (Table.mem_of_find? hfind).1 req env
    have huses := h.uses hrunning sid
    have hhas := hhas sid
    show Privsep.uses s.secMod sid = _ + (n sid + lost sid)
    omega

theorem Agree.has_of_idle (h : Agree sv n s) (hfind : s.main.find id = some p)
    (hidle : p.status = .inactive) (sid : Bytes) : has p sid = 0 :=
  has_of_not_active ((h.inv.workers p (Table.mem_of_find? hfind).1).idle hidle)

/-- A request that gives its worker no session. -/
theorem Agree.finish_noReply (h : Agree sv n s) (hinv : Inv sv (sv.finish s p req env))
    (hfind : s.main.find id = some p) (hidle : p.status = .inactive)
    (hno : env.sessionOpen = none) : Agree sv (n + pending s.call) (sv.finish s p req env) := by
  refine h.finish hinv hfind (pending s.call) fun sid => ?_
  rw [has_of_noReply sv s.main req hno hidle
    ((h.inv.workers p (Table.mem_of_find? hfind).1).idle hidle), h.has_of_idle hfind hidle,
    Nat.add_comm]

/-- A request that gives its worker the session that sec-mod has opened. -/
theorem Agree.finish_reply (h : Agree sv n s) (hinv : Inv sv (sv.finish s p req env))
    (hfind : s.main.find id = some p) {menv : Main.Env}
    (hcall : s.call = some (.opened id req menv sid true))
    (hasks : sv.asks env p req = some sid) {reply : Main.SessionReply}
    (hreply : env.sessionOpen = some reply) : Agree sv n (sv.finish s p req env) := by
  refine add_zero n ▸ h.finish hinv hfind 0 fun sid' => ?_
  rw [has_of_reply s.main hasks hreply, hcall, h.has_of_idle hfind (idle_of_asks hasks)]
  rfl

end Finish

/-- Sec-mod serves a request. -/
theorem Agree.serve (h : Agree sv n s) {i : SecMod.Cmd × SecMod.Env} {st : SecModSt}
    {call : Option Call} {inStep : Bool}
    (hinv : Inv sv { s with secMod := st, call := call, inStep := inStep })
    (hs : (SecMod.machine sv.secMod).step s.secMod i = some st) (hcall : CallOk sv s.main call)
    (lost : Bytes → ℕ)
    (hlength : st.running = true → ∀ sid, Privsep.uses s.secMod sid < Privsep.uses st sid →
      sid.length = SecMod.sidSize)
    (huses : st.running = true → ∀ sid, Privsep.uses st sid + pending s.call sid =
      Privsep.uses s.secMod sid + pending call sid + lost sid) :
    Agree sv (n + lost) { s with secMod := st, call := call, inStep := inStep } := by
  obtain ⟨cmd, env⟩ := i
  obtain ⟨hrunning, rfl⟩ := SecMod.step_eq_some hs
  refine ⟨hinv, h.secMod.serve sv.secMod env cmd, hcall, fun hst sid hpos => ?_,
    fun hst sid => ?_⟩
  · by_cases hlt : Privsep.uses s.secMod sid < Privsep.uses (s.secMod.serve sv.secMod env cmd) sid
    · exact hlength hst sid hlt
    · exact h.length hrunning sid (hpos.trans_le (not_lt.1 hlt))
  · have hold := h.uses hrunning sid
    have hnew := huses hst sid
    show _ = _ + (n sid + lost sid)
    dsimp only at hnew ⊢
    omega

/-- The request of a worker that main handles at once. -/
theorem Agree.step_cookieReq (h : Agree sv n s) {id : ℕ} {req : Bytes} {env : Main.Env}
    {cenv : Cookies.Env} (hs : sv.machine.step s (.cookieReq id req env cenv) = some s') :
    Agree sv n s' := by
  have hinv' := h.inv.step hs
  have hs := act_of_step hs
  simp only [Server.act, Option.ite_none_left_eq_some] at hs
  obtain ⟨hnot, hs⟩ := hs
  obtain ⟨p, hfind, rfl⟩ := Option.map_eq_some_iff.1 hs
  have hcall : s.call = none := by
    cases hcall : s.call with
    | none => rfl
    | some call => simp [hcall] at hnot
  cases hasks : sv.asks { env with decryptCookie := sv.decryptCookie cenv, sessionOpen := none } p
      req with
  | some sid =>
    simp only [hasks] at hinv' ⊢
    refine ⟨hinv', h.secMod, ⟨p, hfind, hasks⟩, h.length, fun hrunning sid' => ?_⟩
    rw [h.uses hrunning sid', hcall]
    rfl
  | none =>
    simp only [hasks] at hinv' ⊢
    by_cases hidle : p.status = .inactive
    · have hfinish := h.finish_noReply hinv' hfind hidle rfl
      rw [hcall] at hfinish
      exact hfinish
    · refine add_zero n ▸ h.finish hinv' hfind 0 fun sid => ?_
      rw [Main.handleCookieReq, if_pos hidle, hcall]
      exact Nat.add_comm _ _

/-- A call of main that sec-mod serves. -/
theorem Agree.step_serve (h : Agree sv n s) {stats : SecMod.Stats} {env : SecMod.Env}
    (hfits : fits s (.serve stats env)) (hs : sv.machine.step s (.serve stats env) = some s') :
    Agree sv (n + leaks s (.serve stats env)) s' := by
  have hinv' := h.inv.step hs
  have hs := act_of_step hs
  have hcall := h.call
  rw [Server.act] at hs
  split at hs
  · rename_i id req menv sid hopening
    rw [hopening] at hcall
    simp only [fits, hopening, decide_eq_true_eq] at hfits
    obtain ⟨st, hst, rfl⟩ := Option.map_eq_some_iff.1 hs
    have huses := uses_sessionOpen h.secMod
      (fun e he hsid => uses_of_mem h.secMod he ▸ hsid ▸ hfits) hst
    refine h.serve hinv' hst hcall _ (fun _ sid' hlt => ?_) fun _ sid' => ?_
    · rw [huses] at hlt
      by_cases hopened : answeredOk s.secMod st = true ∧ sid = sid'
      · rw [← hopened.2]
        exact length_of_answeredOk hst hopened.1
      · rw [if_neg hopened] at hlt
        exact absurd hlt (Nat.lt_irrefl _)
    · have hleaks : leaks s (.serve stats env) sid' = 0 := by simp only [leaks, hopening]
      rw [huses, hleaks, hopening, show pending (some (.opening id req menv sid)) sid' = 0 from rfl]
      cases hok : answeredOk s.secMod st with
      | true => simp [pending]
      | false => simp [pending]
  · rename_i sid hclosing
    obtain ⟨st, hst, rfl⟩ := Option.map_eq_some_iff.1 hs
    have hrunning := (SecMod.step_eq_some hst).1
    have hpos : 0 < Privsep.uses s.secMod sid := by
      rw [h.uses hrunning sid, hclosing, pending, if_pos rfl]
      omega
    have huses := fun hrun sid' =>
      uses_sessionClose h.secMod hpos (h.length hrunning sid hpos) hst hrun sid'
    refine h.serve hinv' hst trivial _ (fun hrun sid' hlt => ?_) fun hrun sid' => ?_
    · have huses := huses hrun sid'
      have hle : (if sid = sid' ∧ failed s.secMod sid = true then 1 else 0) ≤
          if sid = sid' then 1 else 0 := by
        split
        · rename_i hsid
          rw [if_pos hsid.1]
        · exact Nat.zero_le _
      dsimp only at huses
      omega
    · have hleaks : leaks s (.serve stats env) sid' =
          if sid = sid' ∧ failed s.secMod sid then 1 else 0 := by simp only [leaks, hclosing]
      rw [hleaks, hclosing]
      exact huses hrun sid'
  all_goals cases hs

theorem Agree.step (h : Agree sv n s) {l : Label} (hfits : fits s l)
    (hs : sv.machine.step s l = some s') : Agree sv (n + leaks s l) s' := by
  have hinv' := h.inv.step hs
  cases l with
  | connect pid =>
    have hs := act_of_step hs
    simp only [Server.act, Option.ite_none_right_eq_some, Option.some.injEq] at hs
    obtain ⟨⟨hnone, -⟩, rfl⟩ := hs
    refine ⟨hinv', h.secMod, ?_, h.length, fun hrunning sid => ?_⟩
    · rw [Option.isNone_iff_eq_none] at hnone
      show CallOk sv _ s.call
      rw [hnone]
      trivial
    · have hnew : workers (Main.newProc s.main pid) sid = workers s.main sid := by
        rw [workers, Main.newProc, List.map_cons, List.sum_cons, has_of_not_active rfl,
          Nat.zero_add]
        rfl
      rw [h.uses hrunning sid, hnew]
      rfl
  | cookieReq id req env cenv => exact h.step_cookieReq hs
  | remove id =>
    have hs := act_of_step hs
    simp only [Server.act, Option.ite_none_left_eq_some] at hs
    obtain ⟨hnot, hs⟩ := hs
    obtain ⟨p, hfind, rfl⟩ := Option.map_eq_some_iff.1 hs
    refine ⟨hinv', h.secMod, .of_closing .., h.length, fun hrunning sid => ?_⟩
    have hcall : s.call = none := by
      cases hcall : s.call with
      | none => rfl
      | some call => simp [hcall] at hnot
    have huses := h.uses hrunning sid
    rw [hcall, show pending none sid = 0 from rfl] at huses
    dsimp only
    rw [huses, Nat.add_zero, pending_closing,
      workers_removeProc h.inv.mainWf.ids (Table.mem_of_find? hfind).1 rfl]
    rfl
  | answer reply =>
    have hs := act_of_step hs
    have hcall := h.call
    rw [Server.act] at hs
    split at hs
    · rename_i id req env sid ok hopened
      rw [hopened] at hcall
      obtain ⟨q, hq, hasks⟩ := hcall
      obtain ⟨p, hfind, rfl⟩ := Option.map_eq_some_iff.1 hs
      obtain rfl : q = p := Option.some.inj (hq.symm.trans hfind)
      cases ok with
      | true => exact h.finish_reply hinv' hfind hopened hasks rfl
      | false =>
        have hfinish := h.finish_noReply hinv' hfind (idle_of_asks hasks) rfl
        rw [hopened] at hfinish
        exact hfinish
    all_goals cases hs
  | lost =>
    have hs := act_of_step hs
    have hcall := h.call
    rw [Server.act] at hs
    split at hs
    · rename_i id req env sid hopening
      rw [hopening] at hcall
      obtain ⟨q, hq, hasks⟩ := hcall
      obtain ⟨p, hfind, rfl⟩ := Option.map_eq_some_iff.1 hs
      obtain rfl : q = p := Option.some.inj (hq.symm.trans hfind)
      exact h.finish_noReply hinv' hfind (idle_of_asks hasks) rfl
    · rename_i id req env sid ok hopened
      rw [hopened] at hcall
      obtain ⟨q, hq, hasks⟩ := hcall
      obtain ⟨p, hfind, rfl⟩ := Option.map_eq_some_iff.1 hs
      obtain rfl : q = p := Option.some.inj (hq.symm.trans hfind)
      exact h.finish_noReply hinv' hfind (idle_of_asks hasks) rfl
    · rename_i sid hclosing
      cases hs
      refine ⟨hinv', h.secMod, trivial, h.length, fun hrunning sid' => ?_⟩
      rw [h.uses hrunning sid']
      show _ = workers s.main sid' + 0 + (n sid' + pending s.call sid')
      omega
    · cases hs
  | serve stats env => exact h.step_serve hfits hs
  | worker cmd env cenv =>
    have hs := act_of_step hs
    simp only [Server.act, Option.ite_none_left_eq_some] at hs
    obtain ⟨hworker, hs⟩ := hs
    obtain ⟨st, hst, rfl⟩ := Option.map_eq_some_iff.1 hs
    have huses := uses_worker h.secMod (Bool.eq_false_iff.2 hworker) hst
    refine h.serve hinv' hst h.call _ (fun _ sid hlt => ?_) fun _ sid => by rw [huses]; rfl
    rw [huses] at hlt
    exact absurd hlt (Nat.lt_irrefl _)

/-- Main and sec-mod agree at the end of every run. -/
theorem agree_run {ls : List Label} (hfits : sv.machine.Meets (fun s l => fits s l) start ls)
    (hr : sv.machine.run start ls = some s) : Agree sv (sv.machine.total leaks start ls) s := by
  have hstep : ∀ n s l s', Agree sv n s → fits s l → sv.machine.step s l = some s' →
      Agree sv (n + leaks s l) s' := fun n s l s' h hfits hs => h.step hfits hs
  exact zero_add (sv.machine.total leaks start ls) ▸
    Machine.total_of_step hstep Agree.start hfits hr

/-- **What sec-mod counts is what main has, and what leaked.**  However the requests of the workers
and the calls of main interleave: while sec-mod runs, the counter of an entry is the number of the
workers that have its SID as their session, with the one that main is about to give or to close, and
with those that leaked. -/
theorem sessions_conserved {ls : List Label}
    (hfits : sv.machine.Meets (fun s l => fits s l) start ls)
    (hr : sv.machine.run start ls = some s) (hrunning : s.secMod.running = true) (sid : Bytes) :
    uses s.secMod sid =
      workers s.main sid + pending s.call sid + sv.machine.total leaks start ls sid :=
  (agree_run hfits hr).uses hrunning sid

open Sample in
set_option maxRecDepth 10000 in
/-- After a login the worker is removed, and the `SESSION_CLOSE` is lost. -/
theorem sessions_conserved_lost :
    ∃ s, server.machine.run start (login ++ [.remove 0, .lost]) = some s ∧
      uses s.secMod SecMod.Sample.sid = workers s.main SecMod.Sample.sid + 1 :=
  ⟨_, rfl, @sessions_conserved server _ (login ++ [.remove 0, .lost]) (by decide +kernel) rfl rfl
    SecMod.Sample.sid⟩

/-- **Sec-mod keeps the entry of a session.** -/
theorem entry_of_session {ls : List Label}
    (hfits : sv.machine.Meets (fun s l => fits s l) start ls)
    (hr : sv.machine.run start ls = some s) (hrunning : s.secMod.running = true) {p : Proc}
    (hp : p ∈ s.main.procs) (hactive : p.activeSid = true) :
    ∃ e ∈ s.secMod.db, e.sid = p.sid ∧ 0 < e.inUse.toNat := by
  have h := agree_run hfits hr
  have huses := h.uses hrunning p.sid
  have hhas : has p p.sid = 1 := if_pos ⟨hactive, rfl⟩
  rw [workers_cons h.inv.mainWf.ids hp, hhas] at huses
  cases hfind : findClientEntry s.secMod.db p.sid with
  | none =>
    rw [Privsep.uses, hfind] at huses
    simp only [Option.elim_none] at huses
    omega
  | some e =>
    obtain ⟨he, hsid⟩ := (findClientEntry_eq_some h.secMod).1 hfind
    rw [← hsid, uses_of_mem h.secMod he, hsid] at huses
    exact ⟨e, he, hsid, by omega⟩

open Sample in
set_option maxRecDepth 10000 in
theorem entry_of_session_login : ∃ s, server.machine.run start login = some s ∧
    ∃ e ∈ s.secMod.db, e.sid = SecMod.Sample.sid ∧ 0 < e.inUse.toNat :=
  ⟨_, rfl, @entry_of_session server _ login (by decide +kernel) rfl rfl _ List.mem_cons_self rfl⟩

end Privsep

end Ocserv
