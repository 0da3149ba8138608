import Ocserv.Main.ScriptRuns

/-!
# Main: a session is accepted only after its checks

`cleanup_children` takes `WEXITSTATUS` of the status of a child without `WIFEXITED`; of a script
that was killed by a signal this is zero, and `handle_script_exit` accepts the session.

A run in which no script that a worker waits for ends in this way is `Gated`
(`gated_always`): a worker gets the status `PS_AUTH_COMPLETED`, and the reply `OK`, only after its
session was opened, the checks passed, the tunnel was opened, and the connect script, if there is
one, terminated normally with exit status 0.
-/

namespace Ocserv

namespace Main

open SecMod (Bytes Status)
open Trace (Guarded)

/-- How the child that runs the script ends. -/
def firstExit (pid : ℤ) : List Event → Option (BitVec 32)
  | [] => none
  | .childExited pid' status :: t => if pid' = pid then some status else firstExit pid t
  | _ :: t => firstExit pid t

/-- How the connect script of a worker ends. -/
def scriptExit (id : ℕ) : List Event → Option (BitVec 32)
  | [] => none
  | .scriptStarted id' pid true :: t => if id' = id then firstExit pid t else scriptExit id t
  | _ :: t => scriptExit id t

/-- There is no connect script, or it terminated normally with exit status 0. -/
def ScriptDone (t : List Event) (id : ℕ) : Prop :=
  .noScript id true ∈ t ∨
    (scriptExit id t).any (fun status => wifexited status && wexitstatus status = 0) = true

/-- What must have happened before a session is accepted. -/
def Passed (t : List Event) (id : ℕ) : Prop := (∀ ev ∈ checks id, ev ∈ t) ∧ ScriptDone t id

/-- What must have happened before an event. -/
def Allowed (past : List Event) : Event → Prop
  | .completed id | .replied id true => Passed past id
  | _ => True

instance (t : List Event) (id : ℕ) : Decidable (Passed t id) := by
  unfold Passed ScriptDone
  infer_instance

instance (past : List Event) (ev : Event) : Decidable (Allowed past ev) := by
  unfold Allowed
  split <;> infer_instance

/-- A session is accepted only after all this. -/
def Gated (s : ScriptSt) : Prop := Guarded Allowed [] s.trace

instance (s : ScriptSt) : Decidable (Gated s) :=
  inferInstanceAs (Decidable (Guarded Allowed [] s.trace))

/-- A script that a worker waits for, and whose exit status is taken for 0, terminated
normally. -/
def ExitsNormally (s : ScriptSt) : ScriptLabel → Prop
  | .childExit pid status _ _ =>
    (∃ w ∈ s.scripts, w.pid = pid) → wexitstatus status = 0 → wifexited status = true
  | _ => True

instance (s : ScriptSt) : (i : ScriptLabel) → Decidable (ExitsNormally s i)
  | .childExit pid status _ _ => inferInstanceAs (Decidable
      ((∃ w ∈ s.scripts, w.pid = pid) → wexitstatus status = 0 → wifexited status = true))
  | .connect .. | .cookieReq .. | .remove .. => .isTrue trivial

variable {plat : Platform} {cfg : Config} {s s' : ScriptSt} {t u : List Event} {id : ℕ} {pid : ℤ}

/-! ### The end of the script -/

theorem firstExit_append (h : ∀ status, .childExited pid status ∉ t) :
    firstExit pid (t ++ u) = firstExit pid u := by
  induction t with
  | nil => rfl
  | cons ev t ih =>
    have ih := ih fun status hmem => h status (List.mem_cons_of_mem _ hmem)
    cases ev with
    | childExited pid' status =>
      have hne : pid' ≠ pid := by
        rintro rfl
        exact h status List.mem_cons_self
      rw [List.cons_append, firstExit, if_neg hne, ih]
    | _ => exact ih

theorem scriptExit_append (h : ∀ ev ∈ t, ev.id? ≠ some id) :
    scriptExit id (t ++ u) = scriptExit id u := by
  induction t with
  | nil => rfl
  | cons ev t ih =>
    have ih := ih fun e he => h e (List.mem_cons_of_mem _ he)
    have hne := h ev List.mem_cons_self
    cases ev with
    | scriptStarted id' pid up =>
      cases up with
      | false => exact ih
      | true =>
        have hne : id' ≠ id := fun heq => hne (congrArg some heq)
        rw [List.cons_append, scriptExit, if_neg hne, ih]
    | _ => exact ih

/-- The connect script of the worker is running, and the checks have passed: what happens next
decides. -/
structure Running (t : List Event) (w : ScriptWait) : Prop where
  checked : ∀ ev ∈ checks w.proc, ev ∈ t
  exit : ∀ u, scriptExit w.proc (t ++ u) = firstExit w.pid u

theorem Running.append {w : ScriptWait} (h : Running t w)
    (hu : ∀ status, .childExited w.pid status ∉ u) : Running (t ++ u) w where
  checked ev hev := List.mem_append_left _ (h.checked ev hev)
  exit u' := by rw [List.append_assoc, h.exit, firstExit_append hu]

/-- The connect script is started. -/
theorem running_of_started (hnone : ∀ ev ∈ t, ev.id? ≠ some id) (pid : ℤ) :
    Running (t ++ (checks id ++ [.utmpAdded id, .scriptStarted id pid true])) ⟨pid, id⟩ where
  checked ev hev := List.mem_append_right _ (List.mem_append_left _ hev)
  exit u := by
    rw [List.append_assoc, scriptExit_append hnone]
    show (if id = id then firstExit pid u else _) = _
    rw [if_pos rfl]

/-- It terminates normally with exit status 0. -/
theorem Running.passed {w : ScriptWait} (h : Running t w) {status : BitVec 32}
    (hexit : wifexited status = true) (hcode : wexitstatus status = 0) (u : List Event) :
    Passed (t ++ .childExited w.pid status :: u) w.proc := by
  refine ⟨fun ev hev => List.mem_append_left _ (h.checked ev hev), .inr ?_⟩
  rw [h.exit, firstExit, if_pos rfl, Option.any_some, hexit, hcode]
  rfl

/-! ### One move -/

theorem allowed_failed (past : List Event) (id : ℕ) : Allowed past (.replied id false) := trivial

/-- The trace is gated, and the scripts that workers wait for are running. -/
structure GateInv (v : View) : Prop where
  gated : Guarded Allowed [] v.trace
  running : ∀ w ∈ v.scripts, Running v.trace w

namespace GateInv

variable {v : View}

/-- Events that are no exits of children. -/
theorem log (h : GateInv v) (evs : List Event) (hallowed : Guarded Allowed v.trace evs)
    (hexit : ∀ ev ∈ evs, ev.id? ≠ none) : GateInv (v.log evs) where
  gated := h.gated.append hallowed
  running w hw := (h.running w hw).append fun _ hmem => hexit _ hmem rfl

theorem remove (h : GateInv v) (id : ℕ) (status : Status) (down : ScriptCall) :
    GateInv (v.remove id status down) := by
  have hallowed : Guarded Allowed v.trace (removeEvents id status down) := by
    refine Trace.guarded_of_all ?_
    intro past ev hev
    obtain rfl | ⟨-, rfl | rfl | ⟨pid, rfl⟩⟩ := mem_removeEvents hev <;> trivial
  have hlog := h.log _ hallowed fun ev hev hnone => by
    rw [removeEvents_id id status down ev hev] at hnone
    cases hnone
  exact ⟨hlog.gated, fun w hw => hlog.running w (List.eraseP_subset hw)⟩

theorem answer (h : GateInv v) {id : ℕ} {ok : Bool} (hok : Allowed v.trace (.replied id ok))
    (sendOk : Bool) (kept lost : Status) (down : ScriptCall) :
    GateInv (v.answer id sendOk ok kept lost down) := by
  unfold View.answer
  split
  · have hlog := h.log [.replied id ok] ⟨hok, trivial⟩ (by simp [Event.id?])
    exact ⟨hlog.gated, hlog.running⟩
  · exact h.remove id lost down

/-- A child has been waited for. -/
theorem reap (h : GateInv v) (hpids : (v.scripts.map ScriptWait.pid).Nodup) (pid : ℤ)
    (status : BitVec 32) :
    GateInv { v.log [.childExited pid status] with
      children := v.children.erase pid, scripts := v.scripts.eraseP (·.pid = pid) } := by
  refine ⟨h.gated.append ⟨trivial, trivial⟩, ?_⟩
  intro w hw
  have hw : w ∈ v.scripts.eraseP (·.pid = pid) := hw
  rw [Table.eraseP_eq_others hpids pid] at hw
  obtain ⟨hmem, hne⟩ := Table.mem_others.1 hw
  refine (h.running w hmem).append ?_
  intro st hev
  cases List.mem_singleton.1 hev
  exact hne rfl

/-- **One move** whose script, if there is one, ends normally. -/
theorem moves (h : GateInv s.view) (hinv : ViewInv s.view) {i : ScriptLabel}
    (hi : ExitsNormally s i) {v' : View} (hm : Moves plat cfg s i v') : GateInv v' := by
  cases hm with
  | connect hfresh => exact ⟨h.gated, h.running⟩
  | @denied id req env up down p evs hfind hidle hev =>
    refine (h.log evs (Trace.guarded_of_all fun past ev hmem => ?_) fun ev hmem => ?_).answer
      (allowed_failed _ id) _ _ _ _
    · obtain ⟨-, hcheck⟩ | ⟨-, -, -, rfl⟩ := hev
      · have := (hcheck ev hmem).2
        cases ev <;> trivial
      · revert hmem
        simp only [checks, List.mem_append, List.mem_cons, List.not_mem_nil, or_false]
        rintro ((rfl | rfl | rfl | rfl) | rfl) <;> trivial
    · rw [hev.about ev hmem]
      exact Option.some_ne_none _
  | @waits id req env up down p pid hfind hidle hconn hscript hfork hfresh =>
    have hnone : ∀ ev ∈ s.view.trace, ev.id? ≠ some id := by
      intro ev hmem hev
      have hmem : ev ∈ Trace.history Event.id? id s.view.trace := Trace.mem_history.2 ⟨hmem, hev⟩
      rw [hinv.fresh id (view_idle hfind hidle)] at hmem
      cases hmem
    have hlog := h.log (checks id ++ [.utmpAdded id, .scriptStarted id pid true])
      (by simp [Guarded, checks, Allowed]) (by simp [checks, Event.id?])
    refine ⟨hlog.gated, ?_⟩
    intro w hw
    cases hmem : up.mem with
    | false =>
      rw [hmem] at hw
      exact hlog.running w hw
    | true =>
      rw [hmem] at hw
      rcases List.mem_cons.1 hw with rfl | hw
      · exact running_of_started hnone pid
      · exact hlog.running w hw
  | @accepted id req env up down p hfind hidle hconn hscript =>
    refine (h.log _ ?_ ?_).answer ?_ _ _ _ _
    · simp [Guarded, checks, Allowed, Passed, ScriptDone]
    · simp [checks, Event.id?]
    · simp [View.log, checks, Allowed, Passed, ScriptDone]
  | unexpected hfind hstatus => exact h.remove _ _ _
  | removed hfind => exact h.remove _ _ _
  | @reaped pid status sendOk down hnone =>
    have hreap := h.reap hinv.pids pid status
    rwa [List.eraseP_of_forall_not fun w hw => by simpa using hnone w hw] at hreap
  | @exited w status sendOk down hw =>
    have hreap := h.reap hinv.pids w.pid status
    have hrun := h.running w hw
    dsimp only
    split
    · rename_i hcode
      have hexit := hi ⟨w, hw, rfl⟩ hcode
      have hdone : Guarded Allowed (s.trace ++ [.childExited w.pid status]) [.completed w.proc] :=
        ⟨hrun.passed hexit hcode [], trivial⟩
      refine (hreap.log [.completed w.proc] hdone (by simp [Event.id?])).answer ?_ _ _ _ _
      · show Passed (s.trace ++ [.childExited w.pid status] ++ [.completed w.proc]) w.proc
        rw [List.append_assoc]
        exact hrun.passed hexit hcode [.completed w.proc]
    · exact hreap.answer (allowed_failed _ w.proc) _ _ _ _

end GateInv

/-! ### Runs -/

/-- **Connect-script gating.**  In a run in which each script that a worker waits for, and whose
exit status is taken for 0, terminated normally, a session is accepted only after it was opened,
the roaming check and `check_multiple_users` passed, `open_tun` succeeded, and the connect script,
if there is one, terminated normally with exit status 0. -/
theorem gated_always {is : List ScriptLabel}
    (h : (scriptMachine plat cfg).Meets ExitsNormally scriptStart is) :
    (scriptMachine plat cfg).Always Gated scriptStart is := by
  have hstart : ScriptInv scriptStart ∧ GateInv scriptStart.view :=
    ⟨scriptStart_inv, trivial, nofun⟩
  refine (Machine.always_of_step (P := fun s => ScriptInv s ∧ GateInv s.view) ?_ hstart h).imp
    fun s hs => hs.2.gated
  rintro s i s' ⟨hinv, hgate⟩ hi hs
  obtain ⟨hm, hinv'⟩ := hinv.step hs
  exact ⟨hinv', hgate.moves hinv.view hi hm⟩

namespace Sample

/-- The connect script is started as a child. -/
def connectScript (pid : ℤ) : ScriptCall := ⟨true, some pid, true⟩

def noScript : ScriptCall := ⟨false, none, true⟩

/-- A worker asks for a session and waits for the connect script, which ends with a status. -/
def waitsForScript (status : BitVec 32) : List ScriptLabel :=
  [.connect 100, .cookieReq 0 [1] (environ [0] 5 none) (connectScript 200) noScript,
    .childExit 200 status true noScript]

end Sample

open Sample in
theorem gated_always_exited :
    (scriptMachine platform config).Always Gated scriptStart (waitsForScript 0) :=
  gated_always (by decide)

open Sample in
/-- The connect script is killed by signal 9, and the session is accepted. -/
theorem not_gated_killed :
    ∃ s, (scriptMachine platform config).run scriptStart (waitsForScript 9) = some s ∧
      .replied 0 true ∈ s.trace ∧ ¬ Gated s := by
  refine ⟨_, rfl, ?_⟩
  decide

end Main

end Ocserv
