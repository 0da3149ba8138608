import Ocserv.Ipc.Cookies
import Ocserv.Main.Workers
import Ocserv.SecMod.Authenticated
import Ocserv.SecMod.RefCount

/-!
# Privilege separation: main and sec-mod together

The workers are not trusted: one that has authenticated its client with sec-mod has a cookie, and
what it sends to main is that cookie.  Main opens it with the key that it shares with sec-mod
(`handle_auth_cookie_req` of `src/main-auth.c`), and asks sec-mod to open the session
(`session_open` of `src/main-sec-mod-cmd.c`); when a worker is removed, main closes its session
(`session_close`, called by `remove_proc` of `src/main-misc.c`).  While main waits for an answer it
does nothing else, but sec-mod serves the workers.

Sec-mod calls main on the same channel, to report a failed login (`SM_CMD_AUTH_BAN_IP`).  A report
that crosses a call of main is taken for the answer to it, and the call for the answer to the
report; what the two read after that is left over from messages, and no part of this model.  A run
ends there, and where sec-mod cannot read the answer to a report.

`Server.machine` is both of them, with the call that main waits for.  A worker sends what it wants
to either of them at any time.
-/

namespace Ocserv

namespace Privsep

open ProtobufC (Message cookieDescriptor)
open scoped ProtobufC
open SecMod (Bytes Event SecModSt)
open Main (MainSt Proc SessionReply)

/-- What does not change while the server runs.  Main draws the key when it starts, and gives it to
sec-mod. -/
structure Server where
  plat : Main.Platform
  main : Main.Config
  secMod : SecMod.Config
  gcm : Cookies.Gcm
  key : Bytes

/-- What main waits for. -/
inductive Call where
  /-- `SESSION_OPEN` for the worker `id`, whose request is being handled. -/
  | opening (id : ℕ) (req : Bytes) (env : Main.Env) (sid : Bytes)
  /-- Sec-mod has served it; the reply is `OK` or not. -/
  | opened (id : ℕ) (req : Bytes) (env : Main.Env) (sid : Bytes) (ok : Bool)
  /-- `SESSION_CLOSE`. -/
  | closing (sid : Bytes)

structure Sys where
  main : MainSt
  secMod : SecModSt
  call : Option Call
  /-- Every report was answered. -/
  inStep : Bool

/-- What happens next. -/
inductive Label where
  /-- Main forks a worker. -/
  | connect (pid : ℤ)
  /-- Main reads the `AUTH_COOKIE_REQ` of a worker. -/
  | cookieReq (id : ℕ) (req : Bytes) (env : Main.Env) (cenv : Cookies.Env)
  /-- Main notices the end of a worker. -/
  | remove (id : ℕ)
  /-- Main reads the reply to its `SESSION_OPEN`, which has `reply` if it is `OK`. -/
  | answer (reply : SessionReply)
  /-- The call of main fails: it cannot be sent, or the reply does not come or is of no use.
  Nothing of it stays in the channel. -/
  | lost
  /-- Sec-mod serves the call of main, which reports `stats`. -/
  | serve (stats : SecMod.Stats) (env : SecMod.Env)
  /-- Sec-mod serves a worker, or cleans up. -/
  | worker (cmd : SecMod.Cmd) (env : SecMod.Env) (cenv : Cookies.Env)

/-! ### Cookies -/

/-- What main reads of a cookie. -/
def mainCookie (msg : Message cookieDescriptor) : Main.Cookie :=
  match msg.members (0 : Fin 8), msg.members (3 : Fin 8), msg.members (6 : Fin 8),
    msg.members (5 : Fin 8) with
  | .required username, .required ip, .required sid, .required (seed : UInt32) =>
    ⟨username.map Subtype.val, ip.map Subtype.val, sid, seed.toBitVec⟩

variable (sv : Server)

/-- `decrypt_cookie`, by main. -/
def Server.decryptCookie (cenv : Cookies.Env) (req : Bytes) : Option Main.Cookie :=
  match Cookies.decryptCookie sv.gcm cenv sv.key req with
  | .ok (some msg) => some (mainCookie msg)
  | .ok none | .error _ => none

/-- `encrypt_cookie`, by sec-mod. -/
def Server.encryptCookie (cenv : Cookies.Env) (c : SecMod.Cookie) : Option Bytes :=
  Cookies.encryptCookie sv.gcm cenv sv.key (Cookies.cookieMsg c)

/-! ### Main -/

/-- A reply without anything. -/
def emptyReply : SessionReply := ⟨none, none, none, none, none, none, none⟩

/-- The SID for which `handle_auth_cookie_req` calls `session_open`, if it comes to that. -/
def Server.asks (env : Main.Env) (p : Proc) (req : Bytes) : Option Bytes :=
  if p.status ≠ .inactive then none
  else
    (Main.openCookie sv.main { env with sessionOpen := some emptyReply } p req).2.map
      Main.Cookie.sid

/-- `session_close` in `remove_proc`. -/
def closing (p : Proc) : Option Call := if p.activeSid then some (.closing p.sid) else none

/-- The request of the worker is handled to its end. -/
def Server.finish (s : Sys) (p : Proc) (req : Bytes) (env : Main.Env) : Sys :=
  let out := Main.handleCookieReq sv.plat sv.main env s.main p req
  { s with main := out.finish, call := if out.ret < 0 then closing out.proc else none }

/-! ### The step -/

/-- Sec-mod has answered `OK`. -/
def answeredOk (s t : SecModSt) : Bool := (t.trace.drop s.trace.length).any Event.isOpened

/-- A report of sec-mod to main. -/
def isReport : Event → Bool
  | .banIp .. => true
  | _ => false

/-- Sec-mod has sent a report. -/
def reports (s t : SecModSt) : Bool := (t.trace.drop s.trace.length).any isReport

/-- A report of sec-mod comes to main, and its answer back: main does not wait itself, and sec-mod
reads the answer. -/
def answered (s : Sys) (env : SecMod.Env) : Bool :=
  match s.call, env.banReply with
  | none, .reply _ => true
  | _, _ => false

/-- What one of the two does next, while they are in step.  The length of a message to main is a
`uint16_t`. -/
def Server.act (s : Sys) : Label → Option Sys
  | .connect pid =>
    if s.call.isNone ∧ 0 < pid then some { s with main := Main.newProc s.main pid } else none
  | .cookieReq id req env cenv =>
    if s.call.isSome ∨ 2 ^ 16 ≤ req.length then none
    else
      (s.main.find id).map fun p =>
        let env := { env with decryptCookie := sv.decryptCookie cenv, sessionOpen := none }
        match sv.asks env p req with
        | some sid => { s with call := some (.opening id req env sid) }
        | none => sv.finish s p req env
  | .remove id =>
    if s.call.isSome then none
    else
      (s.main.find id).map fun p =>
        { s with main := Main.removeProc s.main p, call := closing p }
  | .answer reply =>
    match s.call with
    | some (.opened id req env _ ok) =>
      (s.main.find id).map fun p =>
        sv.finish s p req { env with sessionOpen := if ok then some reply else none }
    | some (.opening ..) | some (.closing _) | none => none
  | .lost =>
    match s.call with
    | some (.opening id req env _) | some (.opened id req env _ _) =>
      (s.main.find id).map fun p => sv.finish s p req { env with sessionOpen := none }
    | some (.closing _) => some { s with call := none }
    | none => none
  | .serve stats env =>
    match s.call with
    | some (.opening id req menv sid) =>
      ((SecMod.machine sv.secMod).step s.secMod (.sessionOpen ⟨sid, some req, some stats.uptime,
        some stats.bytesIn, some stats.bytesOut⟩, env)).map fun t =>
          { s with secMod := t, call := some (.opened id req menv sid (answeredOk s.secMod t)) }
    | some (.closing sid) =>
      ((SecMod.machine sv.secMod).step s.secMod (.sessionClose ⟨sid, none, some stats.uptime,
        some stats.bytesIn, some stats.bytesOut⟩, env)).map fun t =>
          { s with secMod := t, call := none }
    | some (.opened ..) | none => none
  | .worker cmd env cenv =>
    if cmd.fromMain then none
    else
      ((SecMod.machine sv.secMod).step s.secMod
        (cmd, { env with encryptCookie := sv.encryptCookie cenv })).map fun t =>
          { s with secMod := t, inStep := !reports s.secMod t || answered s env }

def Server.step (s : Sys) (l : Label) : Option Sys := if s.inStep then sv.act s l else none

/-- The machine of main and sec-mod. -/
def Server.machine : Machine Sys Label := ⟨sv.step⟩

/-- When the server starts. -/
def start : Sys := ⟨Main.start, SecMod.start, none, true⟩

end Privsep

end Ocserv
