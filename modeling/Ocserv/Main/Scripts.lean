import Ocserv.Main.ProcTable
import Ocserv.Trace

/-!
# Main: the connect and the disconnect script

When the tunnel of a worker is open, `user_connected` notes the user in utmp and starts the connect
script (`src/main-user.c`).  The request of the worker is answered when the script is over:
`cleanup_children` (`src/main.c`) finds the worker in `script_list` by the pid of the child that
terminated, and hands the exit status to `handle_script_exit` (`src/main-misc.c`).  Without a
connect script the request is answered at once.  `remove_proc` takes the user out of utmp and
starts the disconnect script, if the worker has the status `PS_AUTH_COMPLETED`.

`scriptMachine` is main with the scripts, and a trace of what it asked, checked and told.
`ScriptSt.authCookieReq_eq` connects its requests with those of `Main.machine`, where the return
value of `user_connected` is given.
-/

namespace Ocserv

namespace Main

open SecMod (Bytes Status)

/-- What main does, in order; `up` tells the connect script from the disconnect script. -/
inductive Event where
  /-- `session_open` was answered `OK`. -/
  | sessionOpened (id : ℕ)
  | roamingPassed (id : ℕ)
  /-- `check_multiple_users` passed. -/
  | multipleUsersPassed (id : ℕ)
  /-- `open_tun` succeeded. -/
  | tunOpened (id : ℕ)
  /-- `add_utmp_entry` was called. -/
  | utmpAdded (id : ℕ)
  /-- `remove_utmp_entry` was called. -/
  | utmpRemoved (id : ℕ)
  /-- There is no script to start. -/
  | noScript (id : ℕ) (up : Bool)
  | scriptStarted (id : ℕ) (pid : ℤ) (up : Bool)
  /-- `waitpid` returned a child. -/
  | childExited (pid : ℤ) (status : BitVec 32)
  /-- The status of the worker was set to `PS_AUTH_COMPLETED`. -/
  | completed (id : ℕ)
  /-- An `AUTH_COOKIE_REP` was sent. -/
  | replied (id : ℕ) (ok : Bool)
  | removed (id : ℕ)
  deriving DecidableEq, Repr

/-- `script_wait_st`. -/
structure ScriptWait where
  pid : ℤ
  proc : ℕ
  deriving DecidableEq, Repr

/-- The state of main with its scripts. -/
structure ScriptSt where
  st : MainSt
  scripts : List ScriptWait
  /-- The children that have not been waited for. -/
  children : List ℤ
  trace : List Event

/-- What a handler does, with the scripts. -/
structure ScriptOut where
  st : ScriptSt
  proc : Proc
  ret : ℤ

/-- What `call_script` finds: whether the script is configured, the result of `fork`, and whether
`add_to_script_list` finds memory. -/
structure ScriptCall where
  script : Bool
  fork : Option ℤ
  mem : Bool
  deriving DecidableEq, Repr

/-- `WIFEXITED`. -/
def wifexited (status : BitVec 32) : Bool := status &&& 0x7f = 0

/-- `WEXITSTATUS`. -/
def wexitstatus (status : BitVec 32) : ℤ := ((status &&& 0xff00) >>> 8).toNat

variable (plat : Platform) (cfg : Config)

namespace ScriptSt

def log (s : ScriptSt) (ev : Event) : ScriptSt := { s with trace := s.trace ++ [ev] }

/-- Write to a `proc_st` through its pointer. -/
def put (s : ScriptSt) (p : Proc) : ScriptSt := { s with st := s.st.put p }

/-- `add_to_script_list`. -/
def addToScriptList (s : ScriptSt) (mem : Bool) (pid : ℤ) (p : Proc) : ScriptSt :=
  if mem then { s with scripts := ⟨pid, p.id⟩ :: s.scripts } else s

/-- `remove_from_script_list`. -/
def removeFromScriptList (s : ScriptSt) (p : Proc) : ScriptSt :=
  { s with scripts := s.scripts.eraseP (·.proc = p.id) }

/-- `call_script`. -/
def callScript (s : ScriptSt) (p : Proc) (up : Bool) (call : ScriptCall) : ScriptSt × ℤ :=
  if !call.script then (s.log (.noScript p.id up), 0)
  else
    match call.fork with
    | none => (s, -1)
    | some pid =>
      let s := { s with children := pid :: s.children }.log (.scriptStarted p.id pid up)
      if up then (s.addToScriptList call.mem pid p, errWaitForScript) else (s, 0)

/-- `user_connected`. -/
def userConnected (s : ScriptSt) (p : Proc) (call : ScriptCall) : ScriptSt × ℤ :=
  let r := (s.log (.utmpAdded p.id)).callScript p true call
  if r.2 < 0 then r else (r.1, 0)

/-- `user_disconnected`. -/
def userDisconnected (s : ScriptSt) (p : Proc) (call : ScriptCall) : ScriptSt :=
  ((s.log (.utmpRemoved p.id)).callScript p false call).1

/-- `handle_script_exit`. -/
def handleScriptExit (s : ScriptSt) (p : Proc) (sendOk : Bool) (code : ℤ) : ScriptOut :=
  if code = 0 then
    let p := { p with status := .completed }
    let s := s.log (.completed p.id)
    if sendOk then ⟨s.log (.replied p.id true), p, 0⟩ else ⟨s, p, errBadCommand⟩
  else if sendOk then ⟨s.log (.replied p.id false), p, 0⟩
  else ⟨s, p, errBadCommand⟩

/-- `accept_user`. -/
def acceptUser (env : Env) (call : ScriptCall) (s : ScriptSt) (p : Proc) : ScriptOut :=
  let multiple := checkMultipleUsers cfg s.st p
  if multiple < 0 then ⟨s, p, multiple⟩
  else
    let s := s.log (.multipleUsersPassed p.id)
    let out := openTun plat cfg env s.st p
    let s := { s with st := out.st }
    if out.ret < 0 then ⟨s, out.proc, -1⟩
    else
      let r := (s.log (.tunOpened p.id)).userConnected out.proc call
      ⟨r.1, out.proc, r.2⟩

/-- `handle_cookie_auth_res` before `finished`. -/
def cookieAuthStatus (env : Env) (call : ScriptCall) (s : ScriptSt) (p : Proc) (result : ℤ) :
    ScriptOut :=
  if result = 0 then
    let out := s.acceptUser plat cfg env call p
    if out.ret < 0 then { out with proc := { out.proc with status := .failed } }
    else
      { out with
        st := out.st.log (.completed p.id)
        proc := { out.proc with status := .completed } }
  else ⟨s, { p with status := .failed }, if result < 0 then result else errBadCommand⟩

/-- `handle_cookie_auth_res`. -/
def handleCookieAuthRes (env : Env) (call : ScriptCall) (s : ScriptSt) (p : Proc) (result : ℤ) :
    ScriptOut :=
  let out := s.cookieAuthStatus plat cfg env call p result
  if out.ret = errWaitForScript then { out with ret := 0 }
  else
    let out := out.st.handleScriptExit out.proc env.sendOk out.ret
    if out.ret < 0 then { out with proc := { out.proc with status := .failed } } else out

/-- What `handle_auth_cookie_req` asks sec-mod and checks. -/
def cookieEvents (env : Env) (p : Proc) (req : Bytes) : List Event :=
  match openCookie cfg env p req with
  | (_, none) => []
  | (p, some cookie) =>
    .sessionOpened p.id :: if mayRoam env p cookie then [.roamingPassed p.id] else []

/-- `handle_auth_cookie_req` and `handle_cookie_auth_res`. -/
def authCookieReq (env : Env) (call : ScriptCall) (s : ScriptSt) (p : Proc) (req : Bytes) :
    ScriptOut :=
  let out := handleAuthCookieReq cfg env s.st p req
  let s := { s with st := out.st, trace := s.trace ++ cookieEvents cfg env p req }
  s.handleCookieAuthRes plat cfg env call out.proc out.ret

/-- `AUTH_COOKIE_REQ` in `handle_commands`. -/
def handleCookieReq (env : Env) (call : ScriptCall) (s : ScriptSt) (p : Proc) (req : Bytes) :
    ScriptOut :=
  if p.status ≠ .inactive then ⟨s, p, errBadCommand⟩ else s.authCookieReq plat cfg env call p req

/-- `remove_proc`. -/
def removeProc (s : ScriptSt) (p : Proc) (call : ScriptCall) : ScriptSt :=
  let s := s.removeFromScriptList p
  let s := if p.status = .completed then s.userDisconnected p call else s
  { s with st := Main.removeProc s.st p }.log (.removed p.id)

/-- One turn of `cleanup_children`. -/
def cleanupChild (s : ScriptSt) (pid : ℤ) (status : BitVec 32) (sendOk : Bool)
    (call : ScriptCall) : ScriptSt :=
  let s := { s with children := s.children.erase pid }.log (.childExited pid status)
  match s.scripts.find? (·.pid = pid) with
  | none => s
  | some w =>
    let s := { s with scripts := s.scripts.eraseP (·.pid = pid) }
    match s.st.find w.proc with
    | none => s
    | some p =>
      let out := s.handleScriptExit p sendOk (wexitstatus status)
      if out.ret < 0 then out.st.removeProc out.proc call else out.st.put out.proc

/-- The kernel gives a child a pid that no child has. -/
def Fresh (s : ScriptSt) (call : ScriptCall) : Prop := ∀ pid ∈ call.fork, pid ∉ s.children

instance (s : ScriptSt) (call : ScriptCall) : Decidable (s.Fresh call) := by
  unfold Fresh
  infer_instance

end ScriptSt

/-- A worker whose request failed is removed. -/
def ScriptOut.finish (out : ScriptOut) (call : ScriptCall) : ScriptSt :=
  if out.ret < 0 then out.st.removeProc out.proc call else out.st.put out.proc

/-- What main does next; `up` and `down` are what the calls of the connect script and of the
disconnect script find. -/
inductive ScriptLabel where
  | connect (pid : ℤ)
  | cookieReq (id : ℕ) (req : Bytes) (env : Env) (up down : ScriptCall)
  | childExit (pid : ℤ) (status : BitVec 32) (sendOk : Bool) (down : ScriptCall)
  | remove (id : ℕ) (down : ScriptCall)

/-- The machine of main with its scripts. -/
def scriptMachine : Machine ScriptSt ScriptLabel where
  step s
    | .connect pid =>
      if 0 < pid ∧ pid ∉ s.children then
        some { s with st := newProc s.st pid, children := pid :: s.children }
      else none
    | .cookieReq id req env up down =>
      if s.Fresh up ∧ s.Fresh down then
        (s.st.find id).map fun p => (s.handleCookieReq plat cfg env up p req).finish down
      else none
    | .childExit pid status sendOk down =>
      if pid ∈ s.children ∧ ({ s with children := s.children.erase pid } : ScriptSt).Fresh down then
        some (s.cleanupChild pid status sendOk down)
      else none
    | .remove id down =>
      if s.Fresh down then (s.st.find id).map fun p => s.removeProc p down else none

/-- Main when it starts. -/
def scriptStart : ScriptSt := ⟨start, [], [], []⟩

/-! ### The same without the scripts -/

/-- What `user_connected` returns. -/
def ScriptCall.result (call : ScriptCall) : ℤ :=
  if !call.script then 0 else if call.fork.isSome then errWaitForScript else -1

/-- The part of main that the machine without the scripts has. -/
def ScriptOut.out (out : ScriptOut) : Out := ⟨out.st.st, out.proc, out.ret⟩

variable {plat : Platform} {cfg : Config} {env : Env} {call down : ScriptCall} {s s' : ScriptSt}
  {p q : Proc} {id : ℕ}

theorem userConnected_spec (s : ScriptSt) (p : Proc) (call : ScriptCall) :
    (s.userConnected p call).2 = call.result ∧ (s.userConnected p call).1.st = s.st := by
  unfold ScriptSt.userConnected ScriptSt.callScript ScriptCall.result
  cases call.script with
  | false => exact ⟨rfl, rfl⟩
  | true =>
    cases call.fork with
    | none => exact ⟨rfl, rfl⟩
    | some pid =>
      refine ⟨rfl, ?_⟩
      dsimp [errWaitForScript]
      unfold ScriptSt.addToScriptList
      split <;> rfl

theorem acceptUser_out (s : ScriptSt) (p : Proc) :
    (s.acceptUser plat cfg env call p).out =
      acceptUser plat cfg { env with userConnected := call.result } s.st p := by
  have hopen : openTun plat cfg { env with userConnected := call.result } s.st p =
      openTun plat cfg env s.st p := rfl
  unfold ScriptSt.acceptUser acceptUser
  rw [hopen]
  dsimp only
  split
  · rfl
  · show ScriptOut.out (if (openTun plat cfg env s.st p).ret < 0 then _ else _) = _
    split
    · rfl
    · obtain ⟨hret, hst⟩ := userConnected_spec
        (({ s.log (.multipleUsersPassed p.id) with
          st := (openTun plat cfg env s.st p).st } : ScriptSt).log (.tunOpened p.id))
        (openTun plat cfg env s.st p).proc call
      exact Out.mk.injEq .. |>.mpr ⟨hst, rfl, hret⟩

theorem handleScriptExit_out (env : Env) (s : ScriptSt) (p : Proc) (code : ℤ) :
    (s.handleScriptExit p env.sendOk code).out =
      ⟨s.st, { p with status := (handleScriptExit env p.status code).1 },
        (handleScriptExit env p.status code).2⟩ := by
  unfold ScriptSt.handleScriptExit handleScriptExit
  split <;> dsimp only <;> split <;> rfl

/-- **The requests are those of main without the scripts.** -/
theorem authCookieReq_out (plat : Platform) (cfg : Config) (env : Env) (call : ScriptCall)
    (s : ScriptSt) (p : Proc) (req : Bytes) :
    (s.authCookieReq plat cfg env call p req).out =
      authCookieReq plat cfg { env with userConnected := call.result } s.st p req := by
  have hcookie : handleAuthCookieReq cfg { env with userConnected := call.result } s.st p req =
      handleAuthCookieReq cfg env s.st p req := rfl
  unfold ScriptSt.authCookieReq authCookieReq
  rw [hcookie]
  generalize handleAuthCookieReq cfg env s.st p req = out
  dsimp only
  generalize hs₁ : ({ s with st := out.st, trace := _ } : ScriptSt) = s₁
  have hst : s₁.st = out.st := by rw [← hs₁]
  have hstatus : (s₁.cookieAuthStatus plat cfg env call out.proc out.ret).out =
      cookieAuthStatus plat cfg { env with userConnected := call.result } out.st out.proc
        out.ret := by
    unfold ScriptSt.cookieAuthStatus cookieAuthStatus
    rw [← hst, ← acceptUser_out]
    generalize s₁.acceptUser plat cfg env call out.proc = acc
    split
    · dsimp only [ScriptOut.out]
      split <;> rfl
    · rfl
  unfold ScriptSt.handleCookieAuthRes handleCookieAuthRes
  rw [← hstatus]
  generalize s₁.cookieAuthStatus plat cfg env call out.proc out.ret = res
  dsimp only [ScriptOut.out]
  split
  · rfl
  · have hexit := handleScriptExit_out env res.st res.proc res.ret
    generalize res.st.handleScriptExit res.proc env.sendOk res.ret = fin at hexit ⊢
    obtain ⟨hst', hproc, hret⟩ := Out.mk.injEq .. |>.mp hexit
    have hsame : handleScriptExit { env with userConnected := call.result } res.proc.status
        res.ret = handleScriptExit env res.proc.status res.ret := rfl
    rw [hsame, ← hret, ← hst']
    split <;> rw [hproc]

/-! ### What a request does -/

/-- The worker an event is about. -/
def Event.id? : Event → Option ℕ
  | .sessionOpened id | .roamingPassed id | .multipleUsersPassed id | .tunOpened id
  | .utmpAdded id | .utmpRemoved id | .noScript id _ | .scriptStarted id _ _ | .completed id
  | .replied id _ | .removed id => some id
  | .childExited _ _ => none

/-- A check that precedes the tunnel. -/
def Event.isCheck : Event → Bool
  | .sessionOpened _ | .roamingPassed _ | .multipleUsersPassed _ => true
  | _ => false

/-- What is checked until the tunnel is open. -/
def checks (id : ℕ) : List Event :=
  [.sessionOpened id, .roamingPassed id, .multipleUsersPassed id, .tunOpened id]

/-- The reply to a request, if it can be sent. -/
def replies (sendOk : Bool) (id : ℕ) (ok : Bool) : List Event :=
  if sendOk then [.replied id ok] else []

/-- All checks pass and the tunnel opens, so that `user_connected` is called. -/
def Connects (plat : Platform) (cfg : Config) (env : Env) (s : MainSt) (p : Proc) (req : Bytes) :
    Prop :=
  let out := handleAuthCookieReq cfg env s p req
  out.ret = 0 ∧ ¬ checkMultipleUsers cfg out.st out.proc < 0 ∧
    ¬ (openTun plat cfg env out.st out.proc).ret < 0

instance (plat : Platform) (cfg : Config) (env : Env) (s : MainSt) (p : Proc) (req : Bytes) :
    Decidable (Connects plat cfg env s p req) := by
  unfold Connects
  infer_instance

/-- The events of a request that is denied: a check failed, or the connect script could not be
started. -/
def Denies (plat : Platform) (cfg : Config) (env : Env) (call : ScriptCall) (s : MainSt) (p : Proc)
    (req : Bytes) (evs : List Event) : Prop :=
  (¬ Connects plat cfg env s p req ∧ ∀ ev ∈ evs, ev.id? = some p.id ∧ ev.isCheck = true) ∨
    Connects plat cfg env s p req ∧ call.script = true ∧ call.fork = none ∧
      evs = checks p.id ++ [.utmpAdded p.id]

/-- What becomes of a request. -/
inductive Served (plat : Platform) (cfg : Config) (env : Env) (call : ScriptCall) (s : ScriptSt)
    (p : Proc) (req : Bytes) (out : ScriptOut) : Prop
  | denied (evs : List Event) (hev : Denies plat cfg env call s.st p req evs)
      (hscripts : out.st.scripts = s.scripts) (hchildren : out.st.children = s.children)
      (htrace : out.st.trace = s.trace ++ (evs ++ replies env.sendOk p.id false))
      (hstatus : out.proc.status = .failed)
      (hret : out.ret = if env.sendOk then 0 else errBadCommand)
  | waits (pid : ℤ) (hconn : Connects plat cfg env s.st p req) (hscript : call.script = true)
      (hfork : call.fork = some pid)
      (hscripts : out.st.scripts = if call.mem then ⟨pid, p.id⟩ :: s.scripts else s.scripts)
      (hchildren : out.st.children = pid :: s.children)
      (htrace : out.st.trace =
        s.trace ++ (checks p.id ++ [.utmpAdded p.id, .scriptStarted p.id pid true]))
      (hstatus : out.proc.status = .failed) (hret : out.ret = 0)
  | accepted (hconn : Connects plat cfg env s.st p req) (hscript : call.script = false)
      (hscripts : out.st.scripts = s.scripts) (hchildren : out.st.children = s.children)
      (htrace : out.st.trace = s.trace ++ (checks p.id ++ ([.utmpAdded p.id, .noScript p.id true,
        .completed p.id, .completed p.id] ++ replies env.sendOk p.id true)))
      (hstatus : out.proc.status = if env.sendOk then .completed else .failed)
      (hret : out.ret = if env.sendOk then 0 else errBadCommand)

theorem handleAuthCookieReq_ret (cfg : Config) (env : Env) (s : MainSt) (p : Proc) (req : Bytes) :
    (handleAuthCookieReq cfg env s p req).ret = 0 ∨
      (handleAuthCookieReq cfg env s p req).ret = -1 := by
  have hadd : ∀ (s : MainSt) (id : ℕ), (procTableAdd env s id).2 = 0 ∨
      (procTableAdd env s id).2 = -1 := by
    intro s id
    unfold procTableAdd
    dsimp only
    repeat' split
    all_goals simp
  unfold handleAuthCookieReq
  split
  · exact .inr rfl
  · split
    · exact .inr rfl
    · rename_i p' cookie _ _
      have hold : (replaceOld s p' cookie).ret = 0 ∨ (replaceOld s p' cookie).ret = -1 := by
        unfold replaceOld
        repeat' split
        all_goals simp
      dsimp only
      split
      · exact hold
      · exact hadd ..

/-- The checks of the cookie. -/
theorem cookieEvents_check (cfg : Config) (env : Env) (p : Proc) (req : Bytes) :
    ∀ ev ∈ ScriptSt.cookieEvents cfg env p req, ev.id? = some p.id ∧ ev.isCheck = true := by
  have hid := (openCookie_frame cfg env p req).1
  unfold ScriptSt.cookieEvents
  split
  · exact fun ev hev => absurd hev List.not_mem_nil
  · rename_i p' cookie hopen
    rw [hopen] at hid
    intro ev hev
    rcases List.mem_cons.1 hev with rfl | hev
    · exact ⟨congrArg some hid, rfl⟩
    · split at hev
      · rw [List.mem_singleton.1 hev]
        exact ⟨congrArg some hid, rfl⟩
      · cases hev

/-- A request that is accepted has passed them. -/
theorem cookieEvents_eq {s : MainSt} {req : Bytes}
    (h : (handleAuthCookieReq cfg env s p req).ret = 0) :
    ScriptSt.cookieEvents cfg env p req = [.sessionOpened p.id, .roamingPassed p.id] := by
  have refused (h : (-1 : ℤ) = 0) : False := absurd h (by decide)
  have hid := (openCookie_frame cfg env p req).1
  unfold handleAuthCookieReq at h
  unfold ScriptSt.cookieEvents
  cases hopen : openCookie cfg env p req with
  | mk p' cookie =>
  rw [hopen] at hid h
  cases cookie with
  | none => exact (refused h).elim
  | some cookie =>
    dsimp only at h hid ⊢
    cases hroam : mayRoam env p' cookie with
    | false =>
      rw [hroam] at h
      exact (refused h).elim
    | true => rw [if_pos rfl, hid]

/-- `user_connected`, when the tunnel is open. -/
theorem userConnected_cases (s : ScriptSt) (p : Proc) (call : ScriptCall) :
    let r := s.userConnected p call
    (call.script = true ∧ call.fork = none ∧ r = (s.log (.utmpAdded p.id), -1)) ∨
      (∃ pid, call.script = true ∧ call.fork = some pid ∧ r =
        ({ s with
          scripts := if call.mem then ⟨pid, p.id⟩ :: s.scripts else s.scripts
          children := pid :: s.children
          trace := s.trace ++ [.utmpAdded p.id, .scriptStarted p.id pid true] },
          errWaitForScript)) ∨
      (call.script = false ∧
        r = ((s.log (.utmpAdded p.id)).log (.noScript p.id true), 0)) := by
  unfold ScriptSt.userConnected ScriptSt.callScript
  cases call.script with
  | false => exact .inr (.inr ⟨rfl, rfl⟩)
  | true =>
    cases call.fork with
    | none => exact .inl ⟨rfl, rfl, rfl⟩
    | some pid =>
      refine .inr (.inl ⟨pid, rfl, rfl, ?_⟩)
      dsimp [errWaitForScript, ScriptSt.log]
      rw [List.append_assoc]
      unfold ScriptSt.addToScriptList
      split <;> rfl

/-- `handle_script_exit`. -/
theorem handleScriptExit_spec (s : ScriptSt) (p : Proc) (sendOk : Bool) (code : ℤ) :
    s.handleScriptExit p sendOk code =
      ⟨{ s with trace := s.trace ++ ((if code = 0 then [.completed p.id] else []) ++
          replies sendOk p.id (decide (code = 0))) },
        { p with status := if code = 0 then .completed else p.status },
        if sendOk then 0 else errBadCommand⟩ := by
  unfold ScriptSt.handleScriptExit replies ScriptSt.log
  by_cases hcode : code = 0 <;> cases sendOk <;> simp [hcode]

/-- `handle_cookie_auth_res`, after the user has been denied. -/
theorem handleCookieAuthRes_of_denied {result : ℤ} {out : ScriptOut}
    (hout : s.cookieAuthStatus plat cfg env call p result = out) (hret : out.ret = -1)
    (hstatus : out.proc.status = .failed) :
    s.handleCookieAuthRes plat cfg env call p result =
      ⟨{ out.st with trace := out.st.trace ++ replies env.sendOk out.proc.id false }, out.proc,
        if env.sendOk then 0 else errBadCommand⟩ := by
  obtain ⟨st, p', ret⟩ := out
  obtain rfl : ret = -1 := hret
  unfold ScriptSt.handleCookieAuthRes
  rw [hout]
  dsimp only
  rw [if_neg (by decide), handleScriptExit_spec]
  have hsame : ({ p' with status := .failed } : Proc) = p' := by
    rw [← show p'.status = .failed from hstatus]
  cases env.sendOk <;> simp [errBadCommand, hsame]

/-- `handle_cookie_auth_res`, after the user has been accepted. -/
theorem handleCookieAuthRes_of_accepted {result : ℤ} {out : ScriptOut}
    (hout : s.cookieAuthStatus plat cfg env call p result = out) (hret : out.ret = 0) :
    s.handleCookieAuthRes plat cfg env call p result =
      ⟨{ out.st with
          trace := out.st.trace ++ ([.completed out.proc.id] ++
            replies env.sendOk out.proc.id true) },
        { out.proc with status := if env.sendOk then .completed else .failed },
        if env.sendOk then 0 else errBadCommand⟩ := by
  obtain ⟨st, p', ret⟩ := out
  obtain rfl : ret = 0 := hret
  unfold ScriptSt.handleCookieAuthRes
  rw [hout]
  dsimp only
  rw [if_neg (by decide), handleScriptExit_spec]
  cases env.sendOk <;> simp [errBadCommand]

theorem checkMultipleUsers_ret (cfg : Config) (s : MainSt) (p : Proc) :
    checkMultipleUsers cfg s p = 0 ∨ checkMultipleUsers cfg s p = -1 := by
  unfold checkMultipleUsers
  dsimp only
  repeat' split
  all_goals simp

/-- The request after the checks of the cookie, when the tunnel is open. -/
theorem acceptUser_of_tunOpen (call : ScriptCall) (hmultiple : ¬ checkMultipleUsers cfg s.st p < 0)
    (htun : ¬ (openTun plat cfg env s.st p).ret < 0) :
    s.acceptUser plat cfg env call p =
      let tun := openTun plat cfg env s.st p
      let r := (({ s.log (.multipleUsersPassed p.id) with st := tun.st } : ScriptSt).log
        (.tunOpened p.id)).userConnected tun.proc call
      ⟨r.1, tun.proc, r.2⟩ :=
  (if_neg hmultiple).trans (if_neg htun)

/-- The request after the checks of the cookie. -/
theorem acceptUser_cases (plat : Platform) (cfg : Config) (env : Env) (call : ScriptCall)
    (s : ScriptSt) (p : Proc) :
    let out := s.acceptUser plat cfg env call p
    let tun := openTun plat cfg env s.st p
    (checkMultipleUsers cfg s.st p < 0 ∧ out = ⟨s, p, -1⟩) ∨
      (¬ checkMultipleUsers cfg s.st p < 0 ∧ tun.ret < 0 ∧
        out = ⟨{ s.log (.multipleUsersPassed p.id) with st := tun.st }, tun.proc, -1⟩) ∨
      (¬ checkMultipleUsers cfg s.st p < 0 ∧ ¬ tun.ret < 0) := by
  unfold ScriptSt.acceptUser
  dsimp only
  by_cases hmultiple : checkMultipleUsers cfg s.st p < 0
  · rw [if_pos hmultiple]
    obtain h | h := checkMultipleUsers_ret cfg s.st p
    · omega
    · exact .inl ⟨hmultiple, by rw [h]⟩
  · rw [if_neg hmultiple]
    by_cases htun : (openTun plat cfg env s.st p).ret < 0
    · exact .inr (.inl ⟨hmultiple, htun, if_pos htun⟩)
    · exact .inr (.inr ⟨hmultiple, htun⟩)

/-- `handle_cookie_auth_res` before `finished`, for a cookie that is right. -/
theorem cookieAuthStatus_zero (plat : Platform) (cfg : Config) (env : Env) (call : ScriptCall)
    (s : ScriptSt) (p : Proc) :
    s.cookieAuthStatus plat cfg env call p 0 =
      let out := s.acceptUser plat cfg env call p
      if out.ret < 0 then { out with proc := { out.proc with status := .failed } }
      else
        { out with
          st := out.st.log (.completed p.id)
          proc := { out.proc with status := .completed } } :=
  if_pos rfl

section

variable {s₁ : ScriptSt} {p' : Proc} {req : Bytes}

/-- The connect script, when the tunnel is open. -/
theorem served_of_tunOpen (hconn : Connects plat cfg env s.st p req) (hid : p'.id = p.id)
    (hscripts : s₁.scripts = s.scripts) (hchildren : s₁.children = s.children)
    (htrace : s₁.trace = s.trace ++ [.sessionOpened p.id, .roamingPassed p.id])
    (hmultiple : ¬ checkMultipleUsers cfg s₁.st p' < 0)
    (htun : ¬ (openTun plat cfg env s₁.st p').ret < 0) :
    Served plat cfg env call s p req (s₁.handleCookieAuthRes plat cfg env call p' 0) := by
  have hstatus := cookieAuthStatus_zero plat cfg env call s₁ p'
  have htid := (openTun_frame plat cfg env s₁.st p').id_eq
  have hacc := acceptUser_of_tunOpen call hmultiple htun
  generalize openTun plat cfg env s₁.st p' = tun at htid hacc
  dsimp only at hacc
  obtain ⟨hscript, hfork, hr⟩ | ⟨pid, hscript, hfork, hr⟩ | ⟨hscript, hr⟩ :=
    userConnected_cases (({ s₁.log (.multipleUsersPassed p'.id) with st := tun.st } :
      ScriptSt).log (.tunOpened p'.id)) tun.proc call
  · rw [hacc, hr] at hstatus
    rw [handleCookieAuthRes_of_denied hstatus rfl rfl]
    refine .denied (checks p.id ++ [.utmpAdded p.id]) (.inr ⟨hconn, hscript, hfork, rfl⟩)
      hscripts hchildren ?_ rfl rfl
    show s₁.trace ++ [.multipleUsersPassed p'.id] ++ [.tunOpened p'.id] ++
      [.utmpAdded tun.proc.id] ++ replies env.sendOk tun.proc.id false = _
    rw [htrace, htid, hid]
    simp [checks]
  · rw [hacc, hr] at hstatus
    unfold ScriptSt.handleCookieAuthRes
    rw [hstatus]
    refine .waits pid hconn hscript hfork ?_ ?_ ?_ rfl rfl
    · show (if call.mem then ⟨pid, tun.proc.id⟩ :: s₁.scripts else s₁.scripts) = _
      rw [hscripts, htid, hid]
    · show pid :: s₁.children = _
      rw [hchildren]
    · show s₁.trace ++ [.multipleUsersPassed p'.id] ++ [.tunOpened p'.id] ++
        [.utmpAdded tun.proc.id, .scriptStarted tun.proc.id pid true] = _
      rw [htrace, htid, hid]
      simp [checks]
  · rw [hacc, hr] at hstatus
    rw [handleCookieAuthRes_of_accepted hstatus rfl]
    refine .accepted hconn hscript hscripts hchildren ?_ rfl rfl
    show s₁.trace ++ [.multipleUsersPassed p'.id] ++ [.tunOpened p'.id] ++
      [.utmpAdded tun.proc.id] ++ [.noScript tun.proc.id true] ++ [.completed p'.id] ++
      ([.completed tun.proc.id] ++ replies env.sendOk tun.proc.id true) = _
    rw [htrace, htid, hid]
    simp [checks]

/-- The checks after the cookie's. -/
theorem served_of_cookie (hconnects : Connects plat cfg env s.st p req ↔
      ¬ checkMultipleUsers cfg s₁.st p' < 0 ∧ ¬ (openTun plat cfg env s₁.st p').ret < 0)
    (hid : p'.id = p.id) (hscripts : s₁.scripts = s.scripts) (hchildren : s₁.children = s.children)
    (htrace : s₁.trace = s.trace ++ [.sessionOpened p.id, .roamingPassed p.id]) :
    Served plat cfg env call s p req (s₁.handleCookieAuthRes plat cfg env call p' 0) := by
  have hstatus := cookieAuthStatus_zero plat cfg env call s₁ p'
  have htid := (openTun_frame plat cfg env s₁.st p').id_eq
  obtain ⟨hmultiple, hacc⟩ | ⟨-, htun, hacc⟩ | ⟨hmultiple, htun⟩ :=
    acceptUser_cases plat cfg env call s₁ p'
  · rw [hacc] at hstatus
    rw [handleCookieAuthRes_of_denied hstatus rfl rfl]
    refine .denied [.sessionOpened p.id, .roamingPassed p.id] (.inl ⟨?_, ?_⟩) hscripts
      hchildren ?_ rfl rfl
    · exact fun hconn => (hconnects.1 hconn).1 hmultiple
    · simp [Event.id?, Event.isCheck]
    · show s₁.trace ++ replies env.sendOk p'.id false = _
      rw [htrace, hid, List.append_assoc]
  · rw [hacc] at hstatus
    rw [handleCookieAuthRes_of_denied hstatus rfl rfl]
    refine .denied [.sessionOpened p.id, .roamingPassed p.id, .multipleUsersPassed p.id]
      (.inl ⟨?_, ?_⟩) hscripts hchildren ?_ rfl rfl
    · exact fun hconn => (hconnects.1 hconn).2 htun
    · simp [Event.id?, Event.isCheck]
    · show s₁.trace ++ [.multipleUsersPassed p'.id] ++
        replies env.sendOk (openTun plat cfg env s₁.st p').proc.id false = _
      rw [htrace, htid, hid]
      simp
  · exact served_of_tunOpen (hconnects.2 ⟨hmultiple, htun⟩) hid hscripts hchildren htrace
      hmultiple htun

end

/-- **A request** is denied, waits for the connect script, or is accepted. -/
theorem authCookieReq_served (plat : Platform) (cfg : Config) (env : Env) (call : ScriptCall)
    (s : ScriptSt) (p : Proc) (req : Bytes) :
    Served plat cfg env call s p req (s.authCookieReq plat cfg env call p req) := by
  have hid := (handleAuthCookieReq_cases cfg env s.st p req).1.id_eq
  unfold ScriptSt.authCookieReq
  dsimp only
  obtain hret | hret := handleAuthCookieReq_ret cfg env s.st p req
  · rw [cookieEvents_eq hret, hret]
    exact served_of_cookie (and_iff_right hret) hid rfl rfl rfl
  · rw [hret]
    have hstatus : ScriptSt.cookieAuthStatus plat cfg env call { s with
          st := (handleAuthCookieReq cfg env s.st p req).st
          trace := s.trace ++ ScriptSt.cookieEvents cfg env p req }
        (handleAuthCookieReq cfg env s.st p req).proc (-1) = ⟨_, _, -1⟩ := rfl
    rw [handleCookieAuthRes_of_denied hstatus rfl rfl]
    have hnot : ¬ Connects plat cfg env s.st p req := by
      rintro ⟨hzero, -⟩
      exact absurd (hret.symm.trans hzero) (by decide)
    refine .denied (ScriptSt.cookieEvents cfg env p req)
      (.inl ⟨hnot, cookieEvents_check cfg env p req⟩) rfl rfl ?_ rfl rfl
    rw [← hid, ← List.append_assoc]

end Main

end Ocserv
