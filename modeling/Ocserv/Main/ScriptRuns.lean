import Ocserv.Main.Scripts

/-!
# Main: runs with the scripts

The scripts depend on little of the state of main: on the status of each worker, the workers that
wait for a script and the children.  `View` is this, with the trace; `Moves` says what one step
does to it (`step_moves`).

`ScriptInv` holds in every state of every run (`scriptInv_always`): each entry of `script_list` is
a different child and a different worker that main still has, with the status `PS_AUTH_FAILED`
until the script is over.  So `cleanup_children` never meets a worker that was freed.
-/

namespace Ocserv

namespace Main

open SecMod (Bytes Status)
open Trace (history)

variable {plat : Platform} {cfg : Config} {s s' : ScriptSt} {p q : Proc} {id : ℕ}

/-- The part of the state on which the scripts depend. -/
structure View where
  status : ℕ → Option Status
  nextProc : ℕ
  scripts : List ScriptWait
  children : List ℤ
  trace : List Event

def ScriptSt.view (s : ScriptSt) : View where
  status id := (s.st.find id).map Proc.status
  nextProc := s.st.nextProc
  scripts := s.scripts
  children := s.children
  trace := s.trace

/-- The events of `call_script` for the disconnect script. -/
def downEvents (id : ℕ) (down : ScriptCall) : List Event :=
  if !down.script then [.noScript id false]
  else down.fork.toList.map fun pid => .scriptStarted id pid false

/-- The child that runs the disconnect script. -/
def downChildren (down : ScriptCall) : List ℤ := if !down.script then [] else down.fork.toList

namespace View

variable {v : View}

def log (v : View) (evs : List Event) : View := { v with trace := v.trace ++ evs }

def set (v : View) (id : ℕ) (status : Status) : View :=
  { v with status := Function.update v.status id (some status) }

/-- `remove_proc` of a worker that has a status now. -/
def remove (v : View) (id : ℕ) (status : Status) (down : ScriptCall) : View where
  status := Function.update v.status id none
  nextProc := v.nextProc
  scripts := v.scripts.eraseP (·.proc = id)
  children := if status = .completed then downChildren down ++ v.children else v.children
  trace := v.trace ++
    ((if status = .completed then .utmpRemoved id :: downEvents id down else []) ++ [.removed id])

/-- A reply is sent and the worker keeps a status, or it cannot be sent and the worker, which has
another one then, is removed. -/
def answer (v : View) (id : ℕ) (sendOk ok : Bool) (kept lost : Status) (down : ScriptCall) : View :=
  if sendOk then (v.log [.replied id ok]).set id kept else v.remove id lost down

end View

/-- **What one step does** to the scripts. -/
inductive Moves (plat : Platform) (cfg : Config) (s : ScriptSt) : ScriptLabel → View → Prop
  | connect {pid : ℤ} (hfresh : pid ∉ s.children) :
    Moves plat cfg s (.connect pid)
      { s.view.set s.st.nextProc .inactive with
        nextProc := s.st.nextProc + 1, children := pid :: s.children }
  | denied {id : ℕ} {req : Bytes} {env : Env} {up down : ScriptCall} {p : Proc} {evs : List Event}
      (hfind : s.st.find id = some p) (hidle : p.status = .inactive)
      (hev : Denies plat cfg env up s.st p req evs) :
    Moves plat cfg s (.cookieReq id req env up down)
      ((s.view.log evs).answer id env.sendOk false .failed .failed down)
  | waits {id : ℕ} {req : Bytes} {env : Env} {up down : ScriptCall} {p : Proc} {pid : ℤ}
      (hfind : s.st.find id = some p) (hidle : p.status = .inactive)
      (hconn : Connects plat cfg env s.st p req) (hscript : up.script = true)
      (hfork : up.fork = some pid) (hfresh : pid ∉ s.children) :
    Moves plat cfg s (.cookieReq id req env up down)
      { (s.view.log (checks id ++ [.utmpAdded id, .scriptStarted id pid true])).set id .failed with
        scripts := if up.mem then ⟨pid, id⟩ :: s.scripts else s.scripts
        children := pid :: s.children }
  | accepted {id : ℕ} {req : Bytes} {env : Env} {up down : ScriptCall} {p : Proc}
      (hfind : s.st.find id = some p) (hidle : p.status = .inactive)
      (hconn : Connects plat cfg env s.st p req) (hscript : up.script = false) :
    Moves plat cfg s (.cookieReq id req env up down)
      ((s.view.log (checks id ++ [.utmpAdded id, .noScript id true, .completed id,
        .completed id])).answer id env.sendOk true .completed .failed down)
  | unexpected {id : ℕ} {req : Bytes} {env : Env} {up down : ScriptCall} {p : Proc}
      (hfind : s.st.find id = some p) (hstatus : p.status ≠ .inactive) :
    Moves plat cfg s (.cookieReq id req env up down) (s.view.remove id p.status down)
  | removed {id : ℕ} {down : ScriptCall} {p : Proc} (hfind : s.st.find id = some p) :
    Moves plat cfg s (.remove id down) (s.view.remove id p.status down)
  | reaped {pid : ℤ} {status : BitVec 32} {sendOk : Bool} {down : ScriptCall}
      (hnone : ∀ w ∈ s.scripts, w.pid ≠ pid) :
    Moves plat cfg s (.childExit pid status sendOk down)
      { s.view.log [.childExited pid status] with children := s.children.erase pid }
  | exited {w : ScriptWait} {status : BitVec 32} {sendOk : Bool} {down : ScriptCall}
      (hw : w ∈ s.scripts) :
    Moves plat cfg s (.childExit w.pid status sendOk down)
      (let v : View :=
        { s.view.log [.childExited w.pid status] with
          children := s.children.erase w.pid, scripts := s.scripts.eraseP (·.pid = w.pid) }
      if wexitstatus status = 0 then
        (v.log [.completed w.proc]).answer w.proc sendOk true .completed .completed down
      else v.answer w.proc sendOk false .failed .failed down)

/-! ### The step of the machine -/

theorem userDisconnected_spec (s : ScriptSt) (p : Proc) (down : ScriptCall) :
    s.userDisconnected p down =
      { s with
        children := downChildren down ++ s.children
        trace := s.trace ++ .utmpRemoved p.id :: downEvents p.id down } := by
  unfold ScriptSt.userDisconnected ScriptSt.callScript downChildren downEvents
  cases down.script with
  | false => simp [ScriptSt.log]
  | true => cases down.fork <;> simp [ScriptSt.log]

theorem removeProc_spec (s : ScriptSt) (p : Proc) (down : ScriptCall) :
    s.removeProc p down =
      { st := Main.removeProc s.st p
        scripts := s.scripts.eraseP (·.proc = p.id)
        children := if p.status = .completed then downChildren down ++ s.children else s.children
        trace := s.trace ++ ((if p.status = .completed then
          .utmpRemoved p.id :: downEvents p.id down else []) ++ [.removed p.id]) } := by
  unfold ScriptSt.removeProc ScriptSt.removeFromScriptList
  by_cases hstatus : p.status = .completed
  · simp [hstatus, userDisconnected_spec, ScriptSt.log]
  · simp [hstatus, ScriptSt.log]

theorem view_removeProc (h : (s.st.procs.map Proc.id).Nodup) (p : Proc) (down : ScriptCall) :
    (s.removeProc p down).view = s.view.remove p.id p.status down := by
  rw [removeProc_spec]
  unfold ScriptSt.view View.remove
  dsimp only
  congr 1
  funext id
  have hfind : (Main.removeProc s.st p).find id = if id = p.id then none else s.st.find id :=
    Table.find?_others h p.id id
  rw [hfind]
  by_cases hid : id = p.id
  · rw [if_pos hid, hid, Function.update_self]
    rfl
  · rw [if_neg hid, Function.update_of_ne hid]

theorem view_put (h : p.id ∈ s.st.procs.map Proc.id) :
    (s.put p).view = s.view.set p.id p.status := by
  unfold ScriptSt.put ScriptSt.view View.set
  dsimp only
  congr 1
  funext id
  by_cases hid : id = p.id
  · have hself : (s.st.put p).find p.id = some p := Table.find?_update_self h
    rw [hid, hself, Function.update_self]
    rfl
  · have hother : (s.st.put p).find id = s.st.find id := Table.find?_update_of_ne hid
    rw [hother, Function.update_of_ne hid]

/-- The end of a handler. -/
theorem view_answer (out : ScriptOut) {kept lost : Status} (sendOk ok : Bool)
    (hids : (out.st.st.procs.map Proc.id).Nodup)
    (hmem : out.proc.id ∈ out.st.st.procs.map Proc.id) (v : View)
    (hview : out.st.view = v.log (replies sendOk out.proc.id ok))
    (hstatus : out.proc.status = if sendOk then kept else lost)
    (hret : out.ret = if sendOk then 0 else errBadCommand) (down : ScriptCall) :
    (out.finish down).view = v.answer out.proc.id sendOk ok kept lost down := by
  unfold ScriptOut.finish View.answer
  rw [hret]
  cases sendOk with
  | false =>
    rw [if_pos (by decide), view_removeProc hids, hview, hstatus]
    simp [View.log, replies]
  | true =>
    rw [if_neg (by decide), view_put hmem, hview, hstatus]
    rfl

/-- **Other workers keep their status** when a worker asks for a session. -/
theorem authCookieReq_status (plat : Platform) (cfg : Config) {s : MainSt} (h : WF s) (env : Env)
    (p : Proc) (req : Bytes) :
    let out := authCookieReq plat cfg env s p req
    (∀ id, (out.st.find id).map Proc.status = (s.find id).map Proc.status) ∧
      out.st.nextProc = s.nextProc := by
  dsimp only [authCookieReq]
  obtain ⟨hcookie, hdisp⟩ := handleAuthCookieReq_cases cfg env s p req
  generalize handleAuthCookieReq cfg env s p req = out at hcookie hdisp
  obtain ⟨hres, -⟩ := handleCookieAuthRes_frame plat cfg env out.st out.proc out.ret
  refine ⟨?_, hres.nextProc_eq.trans hcookie.nextProc_eq⟩
  intro id
  unfold MainSt.find
  rw [hres.procs_eq]
  cases hdisp with
  | nobody hprocs => rw [hprocs]
  | old old hsearch hprocs =>
    obtain ⟨hold, -, -, -⟩ := h.search hsearch
    rw [hprocs]
    by_cases hid : id = old.id
    · have hself : Table.find? Proc.id (s.put old.displaced).procs old.id = some old.displaced :=
        Table.find?_update_self (a := old.displaced) (List.mem_map.2 ⟨old, hold, rfl⟩)
      have hfind : Table.find? Proc.id s.procs old.id = some old := find_eq_some h.ids hold
      rw [hid, hself, hfind]
      rfl
    · have hother : Table.find? Proc.id (s.put old.displaced).procs id =
          Table.find? Proc.id s.procs id := Table.find?_update_of_ne (a := old.displaced) hid
      rw [hother]

/-- **A request of an idle worker.** -/
theorem authCookieReq_moves (h : WF s.st) {id : ℕ} (hfind : s.st.find id = some p)
    (hidle : p.status = .inactive) {env : Env} {up down : ScriptCall} (hfresh : s.Fresh up)
    (req : Bytes) :
    let out := s.authCookieReq plat cfg env up p req
    Moves plat cfg s (.cookieReq id req env up down) (out.finish down).view := by
  obtain ⟨hp, rfl⟩ := Table.mem_of_find? hfind
  have hserved := authCookieReq_served plat cfg env up s p req
  have hout := authCookieReq_out plat cfg env up s p req
  have hids := authCookieReq_ids plat cfg { env with userConnected := up.result } s.st p req
  have hstatus := authCookieReq_status plat cfg h
    { env with userConnected := up.result } p req
  dsimp only
  dsimp only at hids hstatus
  rw [← hout] at hids hstatus
  generalize s.authCookieReq plat cfg env up p req = out at hserved hids hstatus ⊢
  obtain ⟨hid, hkeys⟩ : out.proc.id = p.id ∧
      out.st.st.procs.map Proc.id = s.st.procs.map Proc.id := hids
  have hnodup : (out.st.st.procs.map Proc.id).Nodup := hkeys ▸ h.ids
  have hmem : out.proc.id ∈ out.st.st.procs.map Proc.id := by
    rw [hid, hkeys]
    exact List.mem_map_of_mem hp
  have hview : out.st.view =
      { s.view with
        scripts := out.st.scripts, children := out.st.children, trace := out.st.trace } := by
    unfold ScriptSt.view
    rw [show out.st.st.nextProc = s.st.nextProc from hstatus.2]
    congr 1
    funext id
    exact hstatus.1 id
  cases hserved with
  | denied evs hev hscripts hchildren htrace hfailed hret =>
    rw [hscripts, hchildren, htrace] at hview
    have hend := view_answer out env.sendOk false hnodup hmem (s.view.log evs)
      (by rw [hview, hid]; simp [View.log, ScriptSt.view]) (hfailed.trans (ite_self _).symm) hret
      down
    rw [hend, hid]
    exact .denied hfind hidle hev
  | waits pid hconn hscript hfork hscripts hchildren htrace hfailed hret =>
    have hend : (out.finish down).view = out.st.view.set out.proc.id out.proc.status := by
      unfold ScriptOut.finish
      rw [hret, if_neg (by decide), view_put hmem]
    rw [hend, hview, hfailed, hid, hscripts, hchildren, htrace]
    exact .waits hfind hidle hconn hscript hfork (hfresh pid (by rw [hfork]; rfl))
  | accepted hconn hscript hscripts hchildren htrace hstat hret =>
    rw [hscripts, hchildren, htrace] at hview
    have hend := view_answer out env.sendOk true hnodup hmem
      (s.view.log (checks p.id ++
        [.utmpAdded p.id, .noScript p.id true, .completed p.id, .completed p.id]))
      (by rw [hview, hid]; simp [View.log, ScriptSt.view]) hstat hret down
    rw [hend, hid]
    exact .accepted hfind hidle hconn hscript

theorem removeProc_st (s : ScriptSt) (p : Proc) (down : ScriptCall) :
    (s.removeProc p down).st = Main.removeProc s.st p := by
  rw [removeProc_spec]

theorem finish_st (out : ScriptOut) (down : ScriptCall) :
    (out.finish down).st = out.out.finish := by
  unfold ScriptOut.finish Out.finish ScriptOut.out
  dsimp only
  split
  · exact removeProc_st ..
  · rfl

/-- Writing another status keeps the tables right. -/
theorem WF.putStatus {s : MainSt} (h : WF s) (hp : p ∈ s.procs) {status : Status}
    (hstatus : status ≠ .inactive) : WF (s.put { p with status := status }) :=
  h.put hp rfl rfl hstatus (.inl rfl) rfl (.inl rfl)

/-- The view, after the answer to a worker whose script is over. -/
theorem handleScriptExit_view (hids : (s.st.procs.map Proc.id).Nodup) (hp : p ∈ s.st.procs)
    (hfailed : p.status = .failed) (sendOk : Bool) (code : ℤ) (down : ScriptCall) :
    ((s.handleScriptExit p sendOk code).finish down).view =
      if code = 0 then
        (s.view.log [.completed p.id]).answer p.id sendOk true .completed .completed down
      else s.view.answer p.id sendOk false .failed .failed down := by
  have hmem : p.id ∈ s.st.procs.map Proc.id := List.mem_map_of_mem hp
  rw [handleScriptExit_spec]
  have hend := view_answer ⟨{ s with trace := s.trace ++
        ((if code = 0 then [.completed p.id] else []) ++
          replies sendOk p.id (decide (code = 0))) },
      { p with status := if code = 0 then .completed else p.status },
      if sendOk then 0 else errBadCommand⟩ sendOk (decide (code = 0)) hids
    hmem (s.view.log (if code = 0 then [.completed p.id] else []))
    (by simp [View.log, ScriptSt.view]) (ite_self _).symm rfl down
  rw [hend, hfailed]
  by_cases hcode : code = 0
  · simp only [hcode, if_true, decide_true]
  · simp [hcode, View.log]

/-- The tables, after the answer to a worker whose script is over. -/
theorem handleScriptExit_wf (h : WF s.st) (hp : p ∈ s.st.procs) (hfailed : p.status = .failed)
    (sendOk : Bool) (code : ℤ) (down : ScriptCall) :
    WF ((s.handleScriptExit p sendOk code).finish down).st := by
  have hfinish : ∀ (status : Status) (ret : ℤ), status ≠ .inactive →
      WF (⟨s.st, { p with status := status }, ret⟩ : Out).finish := by
    intro status ret hstatus
    unfold Out.finish
    split
    · exact h.removeProc _
    · exact h.putStatus hp hstatus
  rw [handleScriptExit_spec, finish_st]
  refine hfinish _ _ ?_
  split
  · decide
  · rw [hfailed]
    decide

/-- **The end of a script.** -/
theorem cleanupChild_moves (h : WF s.st)
    (hwaits : ∀ w ∈ s.scripts, s.view.status w.proc = some .failed) (pid : ℤ)
    (status : BitVec 32) (sendOk : Bool) (down : ScriptCall) :
    Moves plat cfg s (.childExit pid status sendOk down)
        (s.cleanupChild pid status sendOk down).view ∧
      WF (s.cleanupChild pid status sendOk down).st := by
  unfold ScriptSt.cleanupChild
  dsimp only [ScriptSt.log]
  cases hw : s.scripts.find? (·.pid = pid) with
  | none =>
    refine ⟨.reaped ?_, h⟩
    intro w hmem hpid
    exact List.find?_eq_none.1 hw w hmem (decide_eq_true hpid)
  | some w =>
    have hmem := List.mem_of_find?_eq_some hw
    obtain rfl : w.pid = pid := by simpa using List.find?_some hw
    obtain ⟨p, hfind, hfailed⟩ := Option.map_eq_some_iff.1 (hwaits w hmem)
    obtain ⟨hp, hid⟩ := Table.mem_of_find? hfind
    generalize hs₁ : ({ s with
      scripts := s.scripts.eraseP (·.pid = w.pid), children := s.children.erase w.pid,
      trace := s.trace ++ [.childExited w.pid status] } : ScriptSt) = s₁
    have hst : s₁.st = s.st := by rw [← hs₁]
    have hview : s₁.view =
        { s.view.log [.childExited w.pid status] with
          children := s.children.erase w.pid, scripts := s.scripts.eraseP (·.pid = w.pid) } := by
      rw [← hs₁]
      rfl
    dsimp only
    rw [hfind]
    show Moves plat cfg s _ ((s₁.handleScriptExit p sendOk (wexitstatus status)).finish down).view ∧
      WF ((s₁.handleScriptExit p sendOk (wexitstatus status)).finish down).st
    rw [← hst] at h hp
    refine ⟨?_, handleScriptExit_wf h hp hfailed sendOk (wexitstatus status) down⟩
    rw [handleScriptExit_view h.ids hp hfailed, hview, hid]
    exact .exited hmem

/-- The view, after a connection. -/
theorem view_newProc (s : ScriptSt) (pid : ℤ) :
    ({ s with st := newProc s.st pid, children := pid :: s.children } : ScriptSt).view =
      { s.view.set s.st.nextProc .inactive with
        nextProc := s.st.nextProc + 1, children := pid :: s.children } := by
  unfold ScriptSt.view View.set
  dsimp only
  congr 1
  funext id
  have hfind : (newProc s.st pid).find id =
      if id = s.st.nextProc then (newProc s.st pid).procs.head? else s.st.find id := by
    exact Table.find?_cons ..
  rw [hfind]
  by_cases hid : id = s.st.nextProc
  · rw [if_pos hid, hid, Function.update_self]
    rfl
  · rw [if_neg hid, Function.update_of_ne hid]

/-- **One step** of the machine is one of the moves. -/
theorem step_moves (h : WF s.st) (hwaits : ∀ w ∈ s.scripts, s.view.status w.proc = some .failed)
    {i : ScriptLabel} (hs : (scriptMachine plat cfg).step s i = some s') :
    Moves plat cfg s i s'.view ∧ WF s'.st := by
  cases i with
  | connect pid =>
    simp only [scriptMachine, Option.ite_none_right_eq_some, Option.some.injEq] at hs
    obtain ⟨⟨hpid, hfresh⟩, rfl⟩ := hs
    refine ⟨?_, h.newProc hpid⟩
    rw [view_newProc]
    exact .connect hfresh
  | cookieReq id req env up down =>
    simp only [scriptMachine, Option.ite_none_right_eq_some] at hs
    obtain ⟨⟨hup, -⟩, hs⟩ := hs
    obtain ⟨p, hfind, rfl⟩ := Option.map_eq_some_iff.1 hs
    obtain ⟨hp, hid⟩ := Table.mem_of_find? hfind
    unfold ScriptSt.handleCookieReq
    split
    · rename_i hstatus
      have hremoved : (⟨s, p, errBadCommand⟩ : ScriptOut).finish down = s.removeProc p down :=
        if_pos (show errBadCommand < 0 by decide)
      rw [hremoved, view_removeProc h.ids, removeProc_st, hid]
      exact ⟨.unexpected hfind hstatus, h.removeProc p⟩
    · rename_i hidle
      rw [not_not] at hidle
      refine ⟨authCookieReq_moves h hfind hidle hup req, ?_⟩
      rw [finish_st, authCookieReq_out]
      exact h.step (i := .cookieReq id req { env with userConnected := up.result })
        (Option.map_eq_some_iff.2 ⟨p, hfind, by
          unfold Main.handleCookieReq
          rw [if_neg (not_not.2 hidle)]⟩)
  | childExit pid status sendOk down =>
    simp only [scriptMachine, Option.ite_none_right_eq_some, Option.some.injEq] at hs
    obtain ⟨-, rfl⟩ := hs
    exact cleanupChild_moves h hwaits pid status sendOk down
  | remove id down =>
    simp only [scriptMachine, Option.ite_none_right_eq_some] at hs
    obtain ⟨-, hs⟩ := hs
    obtain ⟨p, hfind, rfl⟩ := Option.map_eq_some_iff.1 hs
    rw [view_removeProc h.ids, removeProc_st, (Table.mem_of_find? hfind).2]
    exact ⟨.removed hfind, h.removeProc p⟩

/-! ### Workers that wait for a script -/

/-- Workers and scripts are numbered. -/
structure ViewInv (v : View) : Prop where
  lt : ∀ id, v.status id ≠ none → id < v.nextProc
  old : ∀ ev ∈ v.trace, ∀ id, ev.id? = some id → id < v.nextProc
  /-- Nothing has happened to an idle worker. -/
  fresh : ∀ id, v.status id = some .inactive → history Event.id? id v.trace = []
  waits : ∀ w ∈ v.scripts, v.status w.proc = some .failed
  procs : (v.scripts.map ScriptWait.proc).Nodup
  pids : (v.scripts.map ScriptWait.pid).Nodup
  child : ∀ w ∈ v.scripts, w.pid ∈ v.children

/-- A worker that is no longer idle, or is removed, and waits for no script. -/
theorem ViewInv.leave {v v' : View} (h : ViewInv v) {id : ℕ} (hid : v.status id ≠ none)
    {status : Option Status} (hstatus : v'.status = Function.update v.status id status)
    (hne : status ≠ some .inactive) (hnext : v'.nextProc = v.nextProc) (evs : List Event)
    (htrace : v'.trace = v.trace ++ evs) (hev : ∀ ev ∈ evs, ∀ k, ev.id? = some k → k = id)
    (hscripts : v'.scripts.Sublist v.scripts) (hout : ∀ w ∈ v'.scripts, w.proc ≠ id)
    (hchild : ∀ w ∈ v'.scripts, w.pid ∈ v'.children) : ViewInv v' where
  lt k hk := by
    rw [hnext]
    by_cases hkid : k = id
    · exact hkid ▸ h.lt id hid
    · rw [hstatus, Function.update_of_ne hkid] at hk
      exact h.lt k hk
  old ev hmem k hk := by
    rw [hnext]
    rw [htrace] at hmem
    rcases List.mem_append.1 hmem with hmem | hmem
    · exact h.old ev hmem k hk
    · exact hev ev hmem k hk ▸ h.lt id hid
  fresh k hk := by
    by_cases hkid : k = id
    · rw [hstatus, hkid, Function.update_self] at hk
      exact absurd hk hne
    · rw [hstatus, Function.update_of_ne hkid] at hk
      rw [htrace, Trace.history_append_of_none fun ev hmem hev' => hkid (hev ev hmem k hev')]
      exact h.fresh k hk
  waits w hw := by
    rw [hstatus, Function.update_of_ne (hout w hw)]
    exact h.waits w (hscripts.subset hw)
  procs := h.procs.sublist (hscripts.map _)
  pids := h.pids.sublist (hscripts.map _)
  child := hchild

/-- What happens when a worker is removed. -/
def removeEvents (id : ℕ) (status : Status) (down : ScriptCall) : List Event :=
  (if status = .completed then .utmpRemoved id :: downEvents id down else []) ++ [.removed id]

theorem mem_removeEvents {id : ℕ} {status : Status} {down : ScriptCall} {ev : Event}
    (h : ev ∈ removeEvents id status down) :
    ev = .removed id ∨ status = .completed ∧ (ev = .utmpRemoved id ∨ ev = .noScript id false ∨
      ∃ pid, ev = .scriptStarted id pid false) := by
  rcases List.mem_append.1 h with h | h
  · split at h
    · rename_i hstatus
      refine .inr ⟨hstatus, ?_⟩
      rcases List.mem_cons.1 h with rfl | h
      · exact .inl rfl
      · unfold downEvents at h
        split at h
        · exact .inr (.inl (List.mem_singleton.1 h))
        · obtain ⟨pid, -, rfl⟩ := List.mem_map.1 h
          exact .inr (.inr ⟨pid, rfl⟩)
    · cases h
  · exact .inl (List.mem_singleton.1 h)

theorem removeEvents_id (id : ℕ) (status : Status) (down : ScriptCall) :
    ∀ ev ∈ removeEvents id status down, ev.id? = some id := by
  intro ev hev
  obtain rfl | ⟨-, rfl | rfl | ⟨pid, rfl⟩⟩ := mem_removeEvents hev <;> rfl

namespace ViewInv

variable {v : View}

theorem remove (h : ViewInv v) (hid : v.status id ≠ none) (evs : List Event)
    (hev : ∀ ev ∈ evs, ev.id? = some id) (status : Status) (down : ScriptCall) :
    ViewInv ((v.log evs).remove id status down) := by
  have hothers : v.scripts.eraseP (·.proc = id) = Table.others ScriptWait.proc v.scripts id :=
    Table.eraseP_eq_others h.procs id
  refine h.leave hid rfl nofun rfl (evs ++ removeEvents id status down) ?_ ?_
    List.eraseP_sublist ?_ ?_
  · exact List.append_assoc ..
  · intro ev hmem k hk
    have : ev.id? = some id := by
      rcases List.mem_append.1 hmem with hmem | hmem
      · exact hev ev hmem
      · exact removeEvents_id id status down ev hmem
    rw [this] at hk
    exact (Option.some.inj hk).symm
  · intro w hw
    have hw : w ∈ v.scripts.eraseP (·.proc = id) := hw
    rw [hothers] at hw
    exact (Table.mem_others.1 hw).2
  · intro w hw
    have hchild := h.child w (List.eraseP_subset hw)
    show w.pid ∈ if status = .completed then downChildren down ++ v.children else v.children
    split
    · exact List.mem_append_right _ hchild
    · exact hchild

theorem answer (h : ViewInv v) (hid : v.status id ≠ none) (hout : ∀ w ∈ v.scripts, w.proc ≠ id)
    (evs : List Event) (hev : ∀ ev ∈ evs, ev.id? = some id) (sendOk ok : Bool) (kept : Status)
    (hkept : kept ≠ .inactive) (lost : Status) (down : ScriptCall) :
    ViewInv ((v.log evs).answer id sendOk ok kept lost down) := by
  unfold View.answer
  split
  · refine h.leave hid rfl ?_ rfl (evs ++ [.replied id ok]) ?_ ?_ (.refl _) hout h.child
    · exact fun heq => hkept (Option.some.inj heq)
    · exact List.append_assoc ..
    · intro ev hmem k hk
      have : ev.id? = some id := by
        rcases List.mem_append.1 hmem with hmem | hmem
        · exact hev ev hmem
        · rw [List.mem_singleton.1 hmem]
          rfl
      rw [this] at hk
      exact (Option.some.inj hk).symm
  · exact h.remove hid evs hev lost down

/-- A child has been waited for. -/
theorem reap (h : ViewInv v) (pid : ℤ) (status : BitVec 32) :
    ViewInv { v.log [.childExited pid status] with
      children := v.children.erase pid, scripts := v.scripts.eraseP (·.pid = pid) } := by
  have hothers : v.scripts.eraseP (·.pid = pid) = Table.others ScriptWait.pid v.scripts pid :=
    Table.eraseP_eq_others h.pids pid
  refine ⟨h.lt, ?_, ?_, fun w hw => h.waits w (List.eraseP_subset hw),
    h.procs.sublist (List.eraseP_sublist.map _), h.pids.sublist (List.eraseP_sublist.map _), ?_⟩
  · intro ev hmem k hk
    rcases List.mem_append.1 hmem with hmem | hmem
    · exact h.old ev hmem k hk
    · rw [List.mem_singleton.1 hmem] at hk
      cases hk
  · intro k hk
    have hnone : ∀ ev ∈ [Event.childExited pid status], ev.id? ≠ some k := by
      intro ev hmem
      rw [List.mem_singleton.1 hmem]
      nofun
    show history Event.id? k (v.trace ++ [.childExited pid status]) = []
    rw [Trace.history_append_of_none hnone]
    exact h.fresh k hk
  · intro w hw
    have hw : w ∈ v.scripts.eraseP (·.pid = pid) := hw
    rw [hothers] at hw
    obtain ⟨hmem, hne⟩ := Table.mem_others.1 hw
    exact (List.mem_erase_of_ne hne).2 (h.child w hmem)

/-- The scripts that others wait for, when one is over. -/
theorem out_of_exited (h : ViewInv v) {w : ScriptWait} (hw : w ∈ v.scripts) :
    ∀ x ∈ v.scripts.eraseP (·.pid = w.pid), x.proc ≠ w.proc := by
  intro x hx heq
  rw [show v.scripts.eraseP (·.pid = w.pid) = Table.others ScriptWait.pid v.scripts w.pid from
    Table.eraseP_eq_others h.pids w.pid] at hx
  obtain ⟨hmem, hne⟩ := Table.mem_others.1 hx
  exact hne (congrArg ScriptWait.pid (Table.eq_of_key_eq h.procs hmem hw heq))

/-- A worker that is idle waits for no script. -/
theorem out_of_idle (h : ViewInv v) (hidle : v.status id = some .inactive) :
    ∀ w ∈ v.scripts, w.proc ≠ id := by
  rintro w hw rfl
  rw [h.waits w hw] at hidle
  cases hidle

/-- A new worker. -/
theorem connect (h : ViewInv v) (pid : ℤ) :
    ViewInv { v.set v.nextProc .inactive with
      nextProc := v.nextProc + 1, children := pid :: v.children } := by
  have other : ∀ k, k ≠ v.nextProc → (v.set v.nextProc .inactive).status k = v.status k := by
    intro k hne
    exact Function.update_of_ne hne ..
  refine ⟨?_, ?_, ?_, ?_, h.procs, h.pids, ?_⟩
  · intro k hk
    by_cases hnew : k = v.nextProc
    · exact hnew ▸ Nat.lt_succ_self _
    · exact Nat.lt_succ_of_lt (h.lt k (other k hnew ▸ hk))
  · intro ev hev k hk
    exact Nat.lt_succ_of_lt (h.old ev hev k hk)
  · intro k hk
    by_cases hnew : k = v.nextProc
    · refine Trace.history_of_none ?_
      intro ev hev hk'
      exact absurd (h.old ev hev k hk') (hnew ▸ Nat.lt_irrefl _)
    · exact h.fresh k ((other k hnew).symm.trans hk)
  · intro w hw
    have hwait := h.waits w hw
    have hne : w.proc ≠ v.nextProc := by
      refine (h.lt w.proc ?_).ne
      rw [hwait]
      exact Option.some_ne_none _
    exact (other w.proc hne).trans hwait
  · intro w hw
    exact List.mem_cons_of_mem _ (h.child w hw)

/-- The connect script of an idle worker is started. -/
theorem startScript (h : ViewInv v) (hidle : v.status id = some .inactive) {pid : ℤ}
    (hfresh : pid ∉ v.children) (mem : Bool) :
    ViewInv
      { (v.log (checks id ++ [.utmpAdded id, .scriptStarted id pid true])).set id .failed with
        scripts := if mem then ⟨pid, id⟩ :: v.scripts else v.scripts
        children := pid :: v.children } := by
  have hne : v.status id ≠ none := by
    rw [hidle]
    exact Option.some_ne_none _
  have hout := h.out_of_idle hidle
  have hbase : ViewInv ((v.log (checks id ++
      [.utmpAdded id, .scriptStarted id pid true])).set id .failed) := by
    refine h.leave hne rfl (by decide) rfl _ rfl ?_ (.refl _) hout h.child
    simp [checks, Event.id?]
  cases mem with
  | false =>
    refine ⟨hbase.lt, hbase.old, hbase.fresh, hbase.waits, h.procs, h.pids, ?_⟩
    intro w hw
    exact List.mem_cons_of_mem _ (h.child w hw)
  | true =>
    refine ⟨hbase.lt, hbase.old, hbase.fresh, ?_, ?_, ?_, ?_⟩
    · intro w hw
      rcases List.mem_cons.1 hw with rfl | hw
      · exact Function.update_self ..
      · exact hbase.waits w hw
    · refine List.nodup_cons.2 ⟨?_, h.procs⟩
      intro hmem
      obtain ⟨w, hw, hproc⟩ := List.mem_map.1 hmem
      exact hout w hw hproc
    · refine List.nodup_cons.2 ⟨?_, h.pids⟩
      intro hmem
      obtain ⟨w, hw, rfl⟩ := List.mem_map.1 hmem
      exact hfresh (h.child w hw)
    · intro w hw
      rcases List.mem_cons.1 hw with rfl | hw
      · exact List.mem_cons_self
      · exact List.mem_cons_of_mem _ (h.child w hw)

end ViewInv

/-- The status of a worker that is found. -/
theorem view_status (hfind : s.st.find id = some p) : s.view.status id = some p.status :=
  congrArg (Option.map Proc.status) hfind

theorem view_idle (hfind : s.st.find id = some p) (hidle : p.status = .inactive) :
    s.view.status id = some .inactive :=
  (view_status hfind).trans (congrArg some hidle)

/-- The events of a request that is denied are about its worker. -/
theorem Denies.about {env : Env} {up : ScriptCall} {req : Bytes} {evs : List Event}
    (h : Denies plat cfg env up s.st p req evs) : ∀ ev ∈ evs, ev.id? = some p.id := by
  obtain ⟨-, hev⟩ | ⟨-, -, -, rfl⟩ := h
  · exact fun ev hmem => (hev ev hmem).1
  · simp [checks, Event.id?]

/-- **One move** keeps the invariant. -/
theorem ViewInv.moves (h : ViewInv s.view) {i : ScriptLabel} {v' : View}
    (hm : Moves plat cfg s i v') : ViewInv v' := by
  have ne_none : ∀ {id : ℕ} {p : Proc}, s.st.find id = some p → s.view.status id ≠ none := by
    intro id p hfind hnone
    rw [view_status hfind] at hnone
    cases hnone
  cases hm with
  | @connect pid hfresh => exact h.connect pid
  | @denied id req env up down p evs hfind hidle hev =>
    obtain rfl := (Table.mem_of_find? hfind).2
    exact h.answer (ne_none hfind) (h.out_of_idle (view_idle hfind hidle)) evs hev.about _ _
      .failed (by decide) _ _
  | @waits id req env up down p pid hfind hidle hconn hscript hfork hfresh =>
    exact h.startScript (view_idle hfind hidle) hfresh up.mem
  | @accepted id req env up down p hfind hidle hconn hscript =>
    refine h.answer (ne_none hfind) (h.out_of_idle (view_idle hfind hidle)) _ ?_ _ _ .completed
      (by decide) _ _
    simp [checks, Event.id?]
  | @unexpected id req env up down p hfind hstatus =>
    have hremove := h.remove (ne_none hfind) [] (List.forall_mem_nil _) p.status down
    rwa [View.log, List.append_nil] at hremove
  | @removed id down p hfind =>
    have hremove := h.remove (ne_none hfind) [] (List.forall_mem_nil _) p.status down
    rwa [View.log, List.append_nil] at hremove
  | @reaped pid status sendOk down hnone =>
    have hreap := h.reap pid status
    rwa [List.eraseP_of_forall_not fun w hw => by simpa using hnone w hw] at hreap
  | @exited w status sendOk down hw =>
    have hreap := h.reap w.pid status
    have hne : s.view.status w.proc ≠ none := by
      rw [h.waits w hw]
      exact Option.some_ne_none _
    dsimp only
    split
    · refine hreap.answer hne (h.out_of_exited hw) _ ?_ _ _ .completed (by decide) _ _
      simp [Event.id?]
    · have hans := hreap.answer hne (h.out_of_exited hw) [] (List.forall_mem_nil _) sendOk false
        .failed (by decide) .failed down
      rwa [View.log, List.append_nil] at hans

/-- The workers that wait are there. -/
structure ScriptInv (s : ScriptSt) : Prop where
  wf : WF s.st
  view : ViewInv s.view

theorem scriptStart_inv : ScriptInv scriptStart :=
  ⟨start_wf, nofun, nofun, nofun, nofun, .nil, .nil, nofun⟩

theorem ScriptInv.step (h : ScriptInv s) {i : ScriptLabel}
    (hs : (scriptMachine plat cfg).step s i = some s') :
    Moves plat cfg s i s'.view ∧ ScriptInv s' := by
  obtain ⟨hm, hwf⟩ := step_moves h.wf h.view.waits hs
  exact ⟨hm, hwf, h.view.moves hm⟩

/-- **No worker that waits for a script is freed**, in any state of any run. -/
theorem scriptInv_always (is : List ScriptLabel) :
    (scriptMachine plat cfg).Always ScriptInv scriptStart is :=
  Machine.always_of_step (fun _ _ _ h _ hs => (h.step hs).2) scriptStart_inv
    (Machine.meets_true scriptStart is)

end Main

end Ocserv
