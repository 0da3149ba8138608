import Ocserv.Main.Users
import Ocserv.Privsep.Server
import Ocserv.SecMod.Signed

/-!
# Privilege separation: sec-mod vouches for every session

A worker may send any bytes to main, at any time.  If main gives it a session all the same, then
sec-mod has authenticated its user: `vouched`.

What main and sec-mod do together is, for each of them, a run of its own machine (`Inv.secMod`,
`Inv.main`), so that what holds of their runs holds here.
-/

namespace Ocserv

namespace Privsep

open ProtobufC (toCString Message cookieDescriptor)
open SecMod (Bytes Event SecModSt strlcpy maxUsernameSize)
open Main (MainSt Proc)

variable {sv : Server} {s s' : Sys} {t : List Event}

/-- The cookies that sec-mod makes. -/
def Server.Made (sv : Server) (c : SecMod.Cookie) (cookie : Bytes) : Prop :=
  ∃ cenv, sv.encryptCookie cenv c = some cookie

/-- Sec-mod has issued the cookie: the checks of an entry succeeded, the module of its method
accepted it, and after that its cookie was sent, and a session opened. -/
def Granted (sv : Server) (t : List Event) (cookie : Bytes) (sealed : SecMod.Cookie) : Prop :=
  ∃ id pre post, SecMod.history id t = pre ++ .authRepOk id cookie sealed :: post ∧
    .checked id ∈ pre ∧ (∃ method ∈ sv.secMod.auth, SecMod.Accepted method.amod pre) ∧
    .sessionRep (some id) .ok ∈ post ∧ sv.Made sealed cookie

/-- The session of a worker is one that sec-mod has opened, for the same user. -/
def Vouched (sv : Server) (t : List Event) (p : Proc) : Prop :=
  ∃ cookie sealed, Granted sv t cookie sealed ∧ p.sid = sealed.sid ∧
    p.username = strlcpy maxUsernameSize (toCString sealed.username).1

theorem Granted.append {cookie : Bytes} {sealed : SecMod.Cookie} (h : Granted sv t cookie sealed)
    (new : List Event) : Granted sv (t ++ new) cookie sealed := by
  obtain ⟨id, pre, post, ht, hchecked, haccepted, hopened, hmade⟩ := h
  refine ⟨id, pre, post ++ SecMod.history id new, ?_, hchecked, haccepted,
    List.mem_append_left _ hopened, hmade⟩
  rw [SecMod.history_append, ht, List.append_assoc, List.cons_append]

theorem Granted.made {cookie : Bytes} {sealed : SecMod.Cookie} (h : Granted sv t cookie sealed) :
    sv.Made sealed cookie := by
  obtain ⟨id, pre, post, -, -, -, -, hmade⟩ := h
  exact hmade

theorem Vouched.append {p : Proc} (h : Vouched sv t p) (new : List Event) :
    Vouched sv (t ++ new) p := by
  obtain ⟨cookie, sealed, hgranted, hp⟩ := h
  exact ⟨cookie, sealed, hgranted.append new, hp⟩

theorem Vouched.congr {p q : Proc} (h : Vouched sv t p) (huser : q.user = p.user) :
    Vouched sv t q := by
  obtain ⟨cookie, sealed, hgranted, hsid, husername⟩ := h
  simp only [Proc.user, Prod.mk.injEq] at huser
  exact ⟨cookie, sealed, hgranted, huser.1.trans hsid, huser.2.1.trans husername⟩

/-! ### Cookies -/

/-- **A cookie that sec-mod made is opened by main as what was sealed.** -/
theorem decryptCookie_made {cenv : Cookies.Env} {sealed : SecMod.Cookie} {cookie : Main.Cookie}
    {req : Bytes} (hmade : sv.Made sealed req) (hsize : req.length < 2 ^ 16)
    (h : sv.decryptCookie cenv req = some cookie) :
    cookie.sid = sealed.sid ∧ cookie.username = some (toCString sealed.username).1 := by
  obtain ⟨cenv', hmade⟩ := hmade
  rw [Server.decryptCookie] at h
  cases hopen : Cookies.decryptCookie sv.gcm cenv sv.key req with
  | error f =>
    rw [hopen] at h
    cases h
  | ok o =>
    cases o with
    | none =>
      rw [hopen] at h
      cases h
    | some msg =>
      have henv := Cookies.ok_of_decryptCookie hopen
      have hagain := Cookies.decryptCookie_encryptCookie henv rfl (by omega) hmade
      rw [hopen, Cookies.received_cookieMsg, Except.ok.injEq, Option.some.injEq] at hagain
      rw [hopen, hagain] at h
      obtain rfl := Option.some.inj h
      exact ⟨rfl, rfl⟩

/-! ### Sec-mod -/

/-- A request to sec-mod adds to what happened. -/
theorem step_trace {cfg : SecMod.Config} {st st' : SecModSt} {i : SecMod.Cmd × SecMod.Env}
    (h : (SecMod.machine cfg).step st i = some st') : ∃ new, st'.trace = st.trace ++ new := by
  obtain ⟨cmd, env⟩ := i
  obtain ⟨-, rfl⟩ := SecMod.step_eq_some h
  have hserved := SecMod.serve_cases cfg env st cmd
  generalize st.serve cfg env cmd = st' at hserved
  cases hserved with
  | nothing running events hev => exact ⟨events, rfl⟩
  | found => exact ⟨_, rfl⟩
  | created => exact ⟨_, rfl⟩
  | cleanup => exact ⟨_, rfl⟩

/-- A run of sec-mod that makes its cookies with the key. -/
def SecModRun (sv : Server) (st : SecModSt) : Prop :=
  ∃ js, (SecMod.machine sv.secMod).run SecMod.start js = some st ∧
    (SecMod.machine sv.secMod).Meets (SecMod.OnEntry (SecMod.Makes sv.Made)) SecMod.start js

theorem SecModRun.step {st st' : SecModSt} (h : SecModRun sv st) {i : SecMod.Cmd × SecMod.Env}
    (hs : (SecMod.machine sv.secMod).step st i = some st')
    (hmakes : i.1.fromMain = false → ∀ c cookie, i.2.Made c cookie → sv.Made c cookie) :
    SecModRun sv st' := by
  obtain ⟨js, hrun, hmeets⟩ := h
  refine ⟨js ++ [i], Machine.run_append_eq_some.2 ⟨st, hrun, by simp [Machine.run, hs]⟩,
    hmeets.append fun u hu => ?_⟩
  exact ⟨fun e _ => hmakes, fun _ _ => trivial⟩

theorem SecModRun.grants {st : SecModSt} (h : SecModRun sv st) :
    SecMod.Entries (SecMod.Grants sv.secMod sv.Made) st := by
  obtain ⟨js, hrun, hmeets⟩ := h
  exact (SecMod.grant_always hmeets).last hrun

/-- **A `SESSION_OPEN` that is answered `OK` is for a cookie that was issued.** -/
theorem SecModRun.granted {st st' : SecModSt} (h : SecModRun sv st) {req : SecMod.SessionMsg}
    {env : SecMod.Env} {cookie : Bytes} (hcookie : req.cookie = some cookie)
    (hs : (SecMod.machine sv.secMod).step st (.sessionOpen req, env) = some st')
    (hok : answeredOk st st' = true) : ∃ sealed, Granted sv st'.trace cookie sealed := by
  have hrunning := (SecMod.step_eq_some hs).1
  obtain ⟨new, hnew⟩ := step_trace hs
  rw [answeredOk, hnew, List.drop_left, List.any_eq_true] at hok
  obtain ⟨ev, hev, hopened⟩ := hok
  obtain ⟨who, rfl⟩ : ∃ who, ev = .sessionRep who .ok := by
    cases ev with
    | sessionRep who rep =>
      cases rep with
      | ok => exact ⟨who, rfl⟩
      | msg | failed => cases hopened
    | _ => cases hopened
  obtain ⟨js, hrun, -⟩ := id h
  obtain ⟨req', e, hcmd, rfl, hopens⟩ :=
    (SecMod.authenticated hrun).opens _ env st' hs new hnew who hev
  obtain rfl := SecMod.Cmd.sessionOpen.inj hcmd
  have hgrants := h.grants.inv hrunning e hopens.mem
  obtain ⟨pre, sealed, post, ht, hchecked, haccepted, -⟩ := hopens.issued
  obtain rfl : cookie = e.cookie := Option.some.inj (hcookie.symm.trans hopens.cookie)
  have hmethod : ∃ method ∈ sv.secMod.auth, SecMod.Accepted method.amod pre := by
    obtain hfailed | ⟨method, hmem, hmodule⟩ := hgrants.method
    · cases hfailed.symm.trans hopens.completed
    · exact ⟨method, hmem, hmodule ▸ haccepted⟩
  have hmade : sv.Made sealed e.cookie :=
    (hgrants.signed _ (ht ▸ List.mem_append_right _ List.mem_cons_self) _ _ rfl).2
  refine ⟨sealed, e.id, pre, post ++ SecMod.history e.id new, ?_, hchecked, hmethod,
    List.mem_append_right _ (List.mem_filter.2 ⟨hev, decide_eq_true rfl⟩), hmade⟩
  rw [hnew, SecMod.history_append, ht, List.append_assoc, List.cons_append]

/-! ### Both together -/

/-- What main waits for comes of a request that it read. -/
def CallInv (sv : Server) (t : List Event) : Option Call → Prop
  | some (.opening _ req env _) =>
    req.length < 2 ^ 16 ∧ ∃ cenv, env.decryptCookie = sv.decryptCookie cenv
  | some (.opened _ req env _ ok) =>
    req.length < 2 ^ 16 ∧ (∃ cenv, env.decryptCookie = sv.decryptCookie cenv) ∧
      (ok = true → ∃ sealed, Granted sv t req sealed)
  | some (.closing _) | none => True

theorem CallInv.append {call : Option Call} (h : CallInv sv t call) (new : List Event) :
    CallInv sv (t ++ new) call := by
  match call, h with
  | some (.opening ..), h => exact h
  | some (.opened ..), h =>
    exact ⟨h.1, h.2.1, fun hok => (h.2.2 hok).imp fun _ hgranted => hgranted.append new⟩
  | some (.closing _), h => trivial
  | none, h => trivial

/-- A worker has a session if it is accepted, and then sec-mod vouches for it. -/
structure WorkerInv (sv : Server) (t : List Event) (p : Proc) : Prop where
  idle : p.status = .inactive → p.activeSid = false
  accepted : p.status = .completed → p.activeSid = true
  vouched : p.activeSid = true → Vouched sv t p

theorem WorkerInv.congr {p q : Proc} (h : WorkerInv sv t p) (huser : q.user = p.user)
    (hstatus : q.status = p.status) : WorkerInv sv t q := by
  have hactive : q.activeSid = p.activeSid := congrArg (fun u => u.2.2) huser
  refine ⟨fun hidle => hactive ▸ h.idle (hstatus ▸ hidle),
    fun hacc => hactive ▸ h.accepted (hstatus ▸ hacc), fun hact => ?_⟩
  exact (h.vouched (hactive ▸ hact)).congr huser

/-- What holds of the system in every state. -/
structure Inv (sv : Server) (s : Sys) : Prop where
  secMod : SecModRun sv s.secMod
  main : ∃ ks, (Main.machine sv.plat sv.main).run Main.start ks = some s.main
  workers : ∀ p ∈ s.main.procs, WorkerInv sv s.secMod.trace p
  call : CallInv sv s.secMod.trace s.call

theorem Inv.start : Inv sv Privsep.start :=
  ⟨⟨[], rfl, trivial⟩, ⟨[], rfl⟩, fun _ hp => absurd hp List.not_mem_nil, trivial⟩

/-- Main does a step of its own. -/
theorem main_step {st st' : MainSt} {k : Main.Label}
    (h : ∃ ks, (Main.machine sv.plat sv.main).run Main.start ks = some st)
    (hs : (Main.machine sv.plat sv.main).step st k = some st') :
    ∃ ks, (Main.machine sv.plat sv.main).run Main.start ks = some st' := by
  obtain ⟨ks, hrun⟩ := h
  exact ⟨ks ++ [k], Machine.run_append_eq_some.2 ⟨st, hrun, by simp [Machine.run, hs]⟩⟩

theorem Inv.mainWf (h : Inv sv s) : Main.WF s.main := by
  obtain ⟨ks, hrun⟩ := h.main
  exact (Main.wf_always ks).last hrun

/-- **A request that is handled to its end.** -/
theorem Inv.finish (h : Inv sv s) {id : ℕ} {p : Proc} (hfind : s.main.find id = some p)
    {req : Bytes} {env : Main.Env}
    (hgrant : ∀ cookie, env.decryptCookie req = some cookie → env.sessionOpen.isSome →
      req.length < 2 ^ 16 ∧ (∃ cenv, env.decryptCookie = sv.decryptCookie cenv) ∧
        ∃ sealed, Granted sv s.secMod.trace req sealed) :
    Inv sv (sv.finish s p req env) := by
  have hp := (Table.mem_of_find? hfind).1
  refine ⟨h.secMod, main_step h.main (k := .cookieReq id req env) ?_, fun q hq => ?_, ?_⟩
  · simp only [Main.machine, hfind, Option.map_some]
    rfl
  · obtain ⟨rfl, hret⟩ | ⟨q₀, hq₀, -, huser, hstatus⟩ :=
      Main.finish_procs sv.plat sv.main env s.main p req h.mainWf q hq
    · obtain ⟨-, hneg, -⟩ | ⟨hne, hcase⟩ :=
        Main.handleCookieReq_proc sv.plat sv.main env s.main req (h.workers p hp).idle
      · exact absurd hneg (not_lt.2 hret)
      · obtain ⟨hactive, hnot⟩ | ⟨cookie, hopens⟩ := hcase
        · refine ⟨fun hidle => absurd hidle hne, fun hacc => absurd hacc hnot, fun hact => ?_⟩
          rw [hactive] at hact
          cases hact
        · refine ⟨fun hidle => absurd hidle hne, fun _ => hopens.active, fun _ => ?_⟩
          obtain ⟨hsize, ⟨cenv, hcenv⟩, sealed, hgranted⟩ :=
            hgrant cookie hopens.decrypted hopens.replied
          obtain ⟨hsid, husername⟩ := decryptCookie_made hgranted.made hsize
            ((congrFun hcenv req).symm.trans hopens.decrypted)
          obtain ⟨username, hsome, hproc⟩ := hopens.username
          obtain rfl := Option.some.inj (husername.symm.trans hsome)
          exact ⟨req, sealed, hgranted, hopens.sid.trans hsid, hproc⟩
    · exact (h.workers q₀ hq₀).congr huser hstatus
  · show CallInv sv s.secMod.trace (if _ then _ else _)
    rw [closing]
    repeat' split
    all_goals trivial

/-- Sec-mod serves a request. -/
theorem Inv.serve (h : Inv sv s) {i : SecMod.Cmd × SecMod.Env} {st : SecModSt} {call : Option Call}
    {inStep : Bool} (hs : (SecMod.machine sv.secMod).step s.secMod i = some st)
    (hmakes : i.1.fromMain = false → ∀ c cookie, i.2.Made c cookie → sv.Made c cookie)
    (hcall : CallInv sv st.trace call) :
    Inv sv { s with secMod := st, call := call, inStep := inStep } := by
  obtain ⟨new, hnew⟩ := step_trace hs
  refine ⟨h.secMod.step hs hmakes, h.main, fun p hp => ?_, hcall⟩
  have hp := h.workers p hp
  exact ⟨hp.idle, hp.accepted, fun hactive => hnew ▸ (hp.vouched hactive).append new⟩

theorem act_of_step {l : Label} (hs : sv.machine.step s l = some s') : sv.act s l = some s' :=
  (Option.ite_none_right_eq_some.1 hs).2

theorem Inv.step (h : Inv sv s) {l : Label} (hs : sv.machine.step s l = some s') : Inv sv s' := by
  have hs := act_of_step hs
  cases l with
  | connect pid =>
    simp only [Server.act, Option.ite_none_right_eq_some, Option.some.injEq] at hs
    obtain ⟨⟨-, hpid⟩, rfl⟩ := hs
    refine ⟨h.secMod, main_step h.main (k := .connect pid) (if_pos hpid), fun p hp => ?_, h.call⟩
    rcases List.mem_cons.1 hp with rfl | hp
    · exact ⟨fun _ => rfl, (fun h => by cases h), (fun h => by cases h)⟩
    · exact h.workers p hp
  | cookieReq id req env cenv =>
    simp only [Server.act, Option.ite_none_left_eq_some] at hs
    obtain ⟨hnot, hs⟩ := hs
    obtain ⟨p, hfind, rfl⟩ := Option.map_eq_some_iff.1 hs
    split
    · exact ⟨h.secMod, h.main, h.workers, by omega, cenv, rfl⟩
    · exact h.finish hfind fun _ _ hsome => by cases hsome
  | remove id =>
    simp only [Server.act, Option.ite_none_left_eq_some] at hs
    obtain ⟨-, hs⟩ := hs
    obtain ⟨p, hfind, rfl⟩ := Option.map_eq_some_iff.1 hs
    refine ⟨h.secMod, main_step h.main (k := .remove id) ?_, fun q hq => ?_, ?_⟩
    · simp only [Main.machine, hfind, Option.map_some]
    · exact h.workers q (Table.mem_others.1 hq).1
    · show CallInv sv s.secMod.trace (closing p)
      rw [closing]
      split <;> trivial
  | answer reply =>
    have hcall := h.call
    rw [Server.act] at hs
    split at hs
    · rename_i id req env sid ok hopened
      rw [hopened] at hcall
      obtain ⟨p, hfind, rfl⟩ := Option.map_eq_some_iff.1 hs
      refine h.finish hfind fun cookie _ hsome => ⟨hcall.1, hcall.2.1, hcall.2.2 ?_⟩
      by_contra hok
      dsimp only at hsome
      rw [if_neg hok] at hsome
      cases hsome
    all_goals cases hs
  | lost =>
    rw [Server.act] at hs
    split at hs
    · obtain ⟨p, hfind, rfl⟩ := Option.map_eq_some_iff.1 hs
      exact h.finish hfind fun _ _ hsome => by cases hsome
    · obtain ⟨p, hfind, rfl⟩ := Option.map_eq_some_iff.1 hs
      exact h.finish hfind fun _ _ hsome => by cases hsome
    · cases hs
      exact ⟨h.secMod, h.main, h.workers, trivial⟩
    · cases hs
  | serve stats env =>
    have hcall := h.call
    rw [Server.act] at hs
    split at hs
    · rename_i id req menv sid hopening
      rw [hopening] at hcall
      obtain ⟨st, hst, rfl⟩ := Option.map_eq_some_iff.1 hs
      exact h.serve hst (fun hworker => by cases hworker)
        ⟨hcall.1, hcall.2, fun hok => h.secMod.granted rfl hst hok⟩
    · obtain ⟨st, hst, rfl⟩ := Option.map_eq_some_iff.1 hs
      exact h.serve hst (fun hworker => by cases hworker) trivial
    all_goals cases hs
  | worker cmd env cenv =>
    simp only [Server.act, Option.ite_none_left_eq_some] at hs
    obtain ⟨-, hs⟩ := hs
    obtain ⟨st, hst, rfl⟩ := Option.map_eq_some_iff.1 hs
    obtain ⟨new, hnew⟩ := step_trace hst
    exact h.serve hst (fun _ c cookie hmade => ⟨cenv, hmade⟩) (hnew ▸ h.call.append new)

/-- The invariant holds in every state of every run. -/
theorem inv_always (sv : Server) (ls : List Label) : sv.machine.Always (Inv sv) start ls :=
  Machine.always_of_step (fun _ _ _ h _ hs => h.step hs) Inv.start (Machine.meets_true start ls)

/-- **Sec-mod vouches for every session.**  Whatever the workers send, and however their requests
and those of main interleave, as long as no report of sec-mod crosses a call of main: a worker that
has a session, or that main has accepted, has the SID and the user name of a cookie that sec-mod
issued after the checks of the user and of his module succeeded, and sec-mod has opened a session
for that cookie. -/
theorem vouched {ls : List Label} (hr : sv.machine.run start ls = some s) {p : Proc}
    (hp : p ∈ s.main.procs) (hactive : p.activeSid = true ∨ p.status = .completed) :
    Vouched sv s.secMod.trace p := by
  have hinv := ((inv_always sv ls).last hr).workers p hp
  exact hinv.vouched (hactive.elim id hinv.accepted)

/-! ### A login -/

namespace Sample

def server : Server where
  plat := Main.Sample.platform
  main := Main.Sample.config
  secMod := SecMod.Sample.config ⟨true, SecMod.authTypePlain, some .plain⟩ none
  gcm := Cookies.Sample.gcm
  key := Cookies.Sample.key

/-- The cookie of the client of `SecMod.Sample.passwordLogin`. -/
def cookie : Bytes :=
  (server.encryptCookie Cookies.Sample.env
    ⟨[117], [], [], [49], false, 1, SecMod.Sample.sid, 1300⟩).getD []

/-- A client authenticates itself, connects, and gets its session. -/
def login : List Label :=
  (SecMod.Sample.passwordLogin.map fun i => .worker i.1 i.2 Cookies.Sample.env) ++
    [.connect 10, .cookieReq 0 cookie (Main.Sample.environ [] 0 none) Cookies.Sample.env,
      .serve {} (SecMod.Sample.environ 1002), .answer emptyReply]

end Sample

open Sample in
set_option maxRecDepth 10000 in
theorem vouched_login : ∃ s, server.machine.run start login = some s ∧
    ∃ p ∈ s.main.procs, p.activeSid = true ∧ Vouched server s.secMod.trace p :=
  ⟨_, rfl, _, List.mem_cons_self, rfl,
    vouched (show server.machine.run start login = some _ from rfl) List.mem_cons_self (.inl rfl)⟩

end Privsep

end Ocserv
