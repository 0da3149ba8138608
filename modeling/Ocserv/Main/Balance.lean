import Ocserv.Main.ScriptRuns

/-!
# Main: the notices of a session balance

`user_connected` calls `add_utmp_entry` before it is known what becomes of the session, and
`remove_proc` calls `remove_utmp_entry` and starts the disconnect script only for the status
`PS_AUTH_COMPLETED`.  A session whose connect script cannot be started, fails, or is still running
when the worker is removed, or whose worker cannot be told that it was accepted, stays in utmp.

A run in which none of this happens is balanced (`balanced_always`).
-/

namespace Ocserv

namespace Main

open SecMod (Bytes Status)
open Trace (history)

/-! ### The notices -/

def Event.isUtmpAdded : Event → Bool
  | .utmpAdded _ => true
  | _ => false

def Event.isUtmpRemoved : Event → Bool
  | .utmpRemoved _ => true
  | _ => false

def Event.isCompleted : Event → Bool
  | .completed _ => true
  | _ => false

/-- The disconnect script was started, or there is none. -/
def Event.isDown : Event → Bool
  | .scriptStarted _ _ up | .noScript _ up => !up
  | _ => false

def Event.isRemoved : Event → Bool
  | .removed _ => true
  | _ => false

/-- The notices of one session, counted. -/
structure Counts where
  utmpAdded : ℕ
  utmpRemoved : ℕ
  downs : ℕ
  completed : Bool
  removed : Bool
  deriving DecidableEq, Repr

/-- The notices of a session. -/
def counts (h : List Event) : Counts where
  utmpAdded := h.countP Event.isUtmpAdded
  utmpRemoved := h.countP Event.isUtmpRemoved
  downs := h.countP Event.isDown
  completed := h.any Event.isCompleted
  removed := h.any Event.isRemoved

/-- The user was put into utmp and taken out equally often, once at most, and the disconnect script
was started once if the session was accepted, and not otherwise. -/
def Counts.Balanced (c : Counts) : Prop :=
  c.utmpAdded = c.utmpRemoved ∧ c.utmpAdded ≤ 1 ∧ c.downs = if c.completed then 1 else 0

instance (c : Counts) : Decidable c.Balanced := by
  unfold Counts.Balanced
  infer_instance

/-- The notices of every worker that has been removed balance. -/
def Balanced (s : ScriptSt) : Prop :=
  ∀ id, .removed id ∈ s.trace → (counts (history Event.id? id s.trace)).Balanced

/-! ### When they balance -/

/-- The disconnect script can be started, if there is one. -/
def ScriptCall.Starts (down : ScriptCall) : Prop := down.script = true → down.fork.isSome = true

instance (down : ScriptCall) : Decidable down.Starts := by
  unfold ScriptCall.Starts
  infer_instance

/-- The worker that is removed waits for no script, and the disconnect script can be started if
its session was accepted. -/
def EndsWell (s : ScriptSt) (p : Proc) (down : ScriptCall) : Prop :=
  (∀ w ∈ s.scripts, w.proc ≠ p.id) ∧ (p.status = .completed → down.Starts)

instance (s : ScriptSt) (p : Proc) (down : ScriptCall) : Decidable (EndsWell s p down) := by
  unfold EndsWell
  infer_instance

/-- Nothing goes wrong after a user has been put into utmp.  If there is a connect script, it can
be started, the worker is put into `script_list`, and the exit status is 0; without one, the worker
can be told.  No worker is removed while its script runs, and the disconnect script can be
started. -/
def GoesWell (plat : Platform) (cfg : Config) (s : ScriptSt) : ScriptLabel → Prop
  | .connect _ => True
  | .cookieReq id req env up down =>
    ∀ p ∈ s.st.find id,
      if p.status = .inactive then
        Connects plat cfg env s.st p req →
          if up.script then up.fork.isSome = true ∧ up.mem = true else env.sendOk = true
      else EndsWell s p down
  | .childExit pid status sendOk down =>
    (∃ w ∈ s.scripts, w.pid = pid) →
      wexitstatus status = 0 ∧ (sendOk = false → down.Starts)
  | .remove id down => ∀ p ∈ s.st.find id, EndsWell s p down

instance (plat : Platform) (cfg : Config) (s : ScriptSt) (i : ScriptLabel) :
    Decidable (GoesWell plat cfg s i) := by
  unfold GoesWell
  split <;> infer_instance

variable {plat : Platform} {cfg : Config} {s s' : ScriptSt} {h h' : List Event} {id : ℕ}

/-! ### Counting -/

/-- The notices of a session that is not in utmp. -/
def Counts.none : Counts := ⟨0, 0, 0, false, false⟩

/-- The notices of a session that waits for the connect script. -/
def Counts.waiting : Counts := ⟨1, 0, 0, false, false⟩

/-- The notices of a session that was accepted. -/
def Counts.accepted : Counts := ⟨1, 0, 0, true, false⟩

def Counts.add (c d : Counts) : Counts where
  utmpAdded := c.utmpAdded + d.utmpAdded
  utmpRemoved := c.utmpRemoved + d.utmpRemoved
  downs := c.downs + d.downs
  completed := c.completed || d.completed
  removed := c.removed || d.removed

theorem counts_append (h h' : List Event) : counts (h ++ h') = (counts h).add (counts h') := by
  simp [counts, Counts.add, List.countP_append, List.any_append]

/-- The checks put nobody into utmp. -/
theorem counts_of_check (hcheck : ∀ ev ∈ h, ev.isCheck = true) : counts h = .none := by
  induction h with
  | nil => rfl
  | cons ev h ih =>
    have hev : counts [ev] = .none := by
      have := hcheck ev List.mem_cons_self
      cases ev <;> first | rfl | cases this
    rw [← List.singleton_append, counts_append, hev,
      ih fun e he => hcheck e (List.mem_cons_of_mem _ he)]
    rfl

/-- What is counted when a worker is removed. -/
theorem counts_removeEvents (id : ℕ) (status : Status) {down : ScriptCall}
    (hstarts : status = .completed → down.Starts) :
    counts (removeEvents id status down) =
      if status = .completed then ⟨0, 1, 1, false, true⟩ else ⟨0, 0, 0, false, true⟩ := by
  unfold removeEvents
  split
  · rename_i hstatus
    have hstarts := hstarts hstatus
    unfold downEvents ScriptCall.Starts at *
    cases hscript : down.script with
    | false => rfl
    | true =>
      obtain ⟨pid, hfork⟩ := Option.isSome_iff_exists.1 (hstarts hscript)
      rw [hfork]
      rfl
  · rfl

/-! ### The ledger -/

/-- What has been counted so far for a worker: until it is removed, by its status and whether it
waits for the connect script. -/
def Ledger (v : View) (id : ℕ) : Prop :=
  match v.status id with
  | none => (counts (history Event.id? id v.trace)).Balanced
  | some .completed => counts (history Event.id? id v.trace) = .accepted
  | some _ => counts (history Event.id? id v.trace) =
      if ∃ w ∈ v.scripts, w.proc = id then .waiting else .none

/-- Nothing has changed for the worker. -/
theorem Ledger.frame {v v' : View} (h : Ledger v id) (hstatus : v'.status id = v.status id)
    (hhist : history Event.id? id v'.trace = history Event.id? id v.trace)
    (hscripts : (∃ w ∈ v'.scripts, w.proc = id) ↔ ∃ w ∈ v.scripts, w.proc = id) :
    Ledger v' id := by
  unfold Ledger at h ⊢
  simp only [hstatus, hhist, hscripts]
  exact h

/-- Something has happened to one worker only. -/
theorem ledger_of_one {v v' : View} (h : ∀ k, Ledger v k) (id : ℕ) (evs : List Event)
    (htrace : v'.trace = v.trace ++ evs) (hev : ∀ ev ∈ evs, ∀ k, ev.id? = some k → k = id)
    (hstatus : ∀ k, k ≠ id → v'.status k = v.status k)
    (hscripts : ∀ w, w.proc ≠ id → (w ∈ v'.scripts ↔ w ∈ v.scripts)) (hself : Ledger v' id) :
    ∀ k, Ledger v' k := by
  intro k
  by_cases hk : k = id
  · exact hk ▸ hself
  · refine (h k).frame (hstatus k hk) ?_ ?_
    · rw [htrace, Trace.history_append_of_none fun ev hmem hev' => hk (hev ev hmem k hev')]
    · constructor
      · rintro ⟨w, hw, rfl⟩
        exact ⟨w, (hscripts w hk).1 hw, rfl⟩
      · rintro ⟨w, hw, rfl⟩
        exact ⟨w, (hscripts w hk).2 hw, rfl⟩

/-- What is counted for a worker with a status that waits for no script. -/
def Counts.of (status : Status) : Counts := if status = .completed then .accepted else .none

theorem Ledger.of_status {v : View} {status : Status} (h : Ledger v id)
    (hstatus : v.status id = some status) (hout : ∀ w ∈ v.scripts, w.proc ≠ id) :
    counts (history Event.id? id v.trace) = .of status := by
  have hnone : ¬ ∃ w ∈ v.scripts, w.proc = id := fun ⟨w, hw, hid⟩ => hout w hw hid
  unfold Ledger at h
  simp only [hstatus, if_neg hnone] at h
  cases status <;> exact h

theorem Ledger.of_waiting {v : View} (h : Ledger v id) (hstatus : v.status id = some .failed)
    (hw : ∃ w ∈ v.scripts, w.proc = id) : counts (history Event.id? id v.trace) = .waiting := by
  unfold Ledger at h
  simpa only [hstatus, if_pos hw] using h

theorem ledger_of_counts {v : View} (status : Status) (hstatus : v.status id = some status)
    (hout : ∀ w ∈ v.scripts, w.proc ≠ id)
    (hcount : counts (history Event.id? id v.trace) = .of status) : Ledger v id := by
  have hnone : ¬ ∃ w ∈ v.scripts, w.proc = id := fun ⟨w, hw, hid⟩ => hout w hw hid
  unfold Ledger
  simp only [hstatus, if_neg hnone]
  cases status <;> exact hcount

/-- The view `b` is `v` after something has happened to one worker, which keeps its status. -/
structure Touched (v b : View) (id : ℕ) (evs : List Event) : Prop where
  trace_eq : b.trace = v.trace ++ evs
  about : ∀ ev ∈ evs, ∀ k, ev.id? = some k → k = id
  status_eq : b.status = v.status
  scripts : ∀ w, w.proc ≠ id → (w ∈ b.scripts ↔ w ∈ v.scripts)

theorem touched_log (v : View) {evs : List Event} (hev : ∀ ev ∈ evs, ev.id? = some id) :
    Touched v (v.log evs) id evs :=
  ⟨rfl, fun ev hmem k hk => by
    rw [hev ev hmem] at hk
    exact (Option.some.inj hk).symm, rfl, fun _ _ => .rfl⟩

namespace Touched

variable {v b : View} {evs : List Event}

/-- The worker is removed then. -/
theorem remove (ht : Touched v b id evs) (h : ∀ k, Ledger v k)
    (hprocs : (b.scripts.map ScriptWait.proc).Nodup) {status : Status} {down : ScriptCall}
    (hstarts : status = .completed → down.Starts)
    (hcount : counts (history Event.id? id b.trace) = .of status) :
    ∀ k, Ledger (b.remove id status down) k := by
  have hothers : b.scripts.eraseP (·.proc = id) = Table.others ScriptWait.proc b.scripts id :=
    Table.eraseP_eq_others hprocs id
  have hremove := removeEvents_id id status down
  refine ledger_of_one h id (evs ++ removeEvents id status down) ?_ ?_ ?_ ?_ ?_
  · exact (congrArg (· ++ removeEvents id status down) ht.trace_eq).trans (List.append_assoc ..)
  · intro ev hmem k hk
    rcases List.mem_append.1 hmem with hmem | hmem
    · exact ht.about ev hmem k hk
    · rw [hremove ev hmem] at hk
      exact (Option.some.inj hk).symm
  · intro k hk
    exact (Function.update_of_ne hk ..).trans (congrFun ht.status_eq k)
  · intro w hne
    show w ∈ b.scripts.eraseP (·.proc = id) ↔ _
    rw [hothers, Table.mem_others, and_iff_left hne, ht.scripts w hne]
  · have hnone : (b.remove id status down).status id = Option.none := Function.update_self ..
    have htrace : (b.remove id status down).trace = b.trace ++ removeEvents id status down := rfl
    unfold Ledger
    simp only [hnone]
    rw [htrace, Trace.history_append, Trace.history_of_all hremove, counts_append, hcount,
      counts_removeEvents id status hstarts, Counts.of]
    split <;> decide

/-- Its request is answered then. -/
theorem answer (ht : Touched v b id evs) (h : ∀ k, Ledger v k)
    (hprocs : (b.scripts.map ScriptWait.proc).Nodup) (hout : ∀ w ∈ b.scripts, w.proc ≠ id)
    {sendOk ok : Bool} {kept lost : Status} {down : ScriptCall}
    (hkept : sendOk = true → counts (history Event.id? id b.trace) = .of kept)
    (hlost : sendOk = false → (lost = .completed → down.Starts) ∧
      counts (history Event.id? id b.trace) = .of lost) :
    ∀ k, Ledger (b.answer id sendOk ok kept lost down) k := by
  unfold View.answer
  split
  · rename_i hsend
    refine ledger_of_one h id (evs ++ [.replied id ok]) ?_ ?_ ?_ ht.scripts ?_
    · exact (congrArg (· ++ [Event.replied id ok]) ht.trace_eq).trans (List.append_assoc ..)
    · intro ev hmem k hk
      rcases List.mem_append.1 hmem with hmem | hmem
      · exact ht.about ev hmem k hk
      · rw [List.mem_singleton.1 hmem] at hk
        exact (Option.some.inj hk).symm
    · intro k hk
      exact (Function.update_of_ne hk ..).trans (congrFun ht.status_eq k)
    · refine ledger_of_counts kept (Function.update_self ..) hout ?_
      show counts (history Event.id? id (b.trace ++ [.replied id ok])) = _
      rw [Trace.history_append, counts_append, hkept hsend]
      have hreply : history Event.id? id [.replied id ok] = [.replied id ok] :=
        Trace.history_of_all (by simp [Event.id?])
      rw [hreply, Counts.of]
      split <;> rfl
  · rename_i hsend
    obtain ⟨hstarts, hcount⟩ := hlost (Bool.eq_false_iff.2 hsend)
    exact ht.remove h hprocs hstarts hcount

end Touched

/-! ### One move -/

theorem GoesWell.of_connects {req : Bytes} {env : Env} {up down : ScriptCall} {p : Proc}
    (hi : GoesWell plat cfg s (.cookieReq id req env up down)) (hfind : s.st.find id = some p)
    (hidle : p.status = .inactive) (hconn : Connects plat cfg env s.st p req) :
    if up.script then up.fork.isSome = true ∧ up.mem = true else env.sendOk = true := by
  have hwell := hi p hfind
  rw [if_pos hidle] at hwell
  exact hwell hconn

/-- Nothing has happened to an idle worker. -/
theorem history_of_idle (hinv : ViewInv s.view) (hidle : s.view.status id = some .inactive)
    {evs : List Event} (hev : ∀ ev ∈ evs, ev.id? = some id) :
    history Event.id? id (s.view.trace ++ evs) = evs := by
  rw [Trace.history_append, hinv.fresh id hidle, Trace.history_of_all hev, List.nil_append]

/-- A new worker. -/
theorem ledger_connect (h : ∀ k, Ledger s.view k) (hinv : ViewInv s.view) (pid : ℤ) :
    ∀ k, Ledger { s.view.set s.st.nextProc .inactive with
      nextProc := s.st.nextProc + 1, children := pid :: s.children } k := by
  refine ledger_of_one h s.st.nextProc [] (List.append_nil _).symm nofun
    (fun k hk => Function.update_of_ne hk ..) (fun _ _ => .rfl) ?_
  refine ledger_of_counts .inactive (Function.update_self ..) ?_ ?_
  · intro w hw hid
    have hlt := hinv.lt w.proc (by rw [hinv.waits w hw]; exact Option.some_ne_none _)
    exact absurd hlt (hid ▸ Nat.lt_irrefl _)
  · have hnone : history Event.id? s.st.nextProc s.view.trace = [] := by
      refine Trace.history_of_none ?_
      intro ev hev hid
      exact absurd (hinv.old ev hev _ hid) (Nat.lt_irrefl _)
    show counts (history Event.id? s.st.nextProc s.view.trace) = _
    rw [hnone]
    rfl

/-- A worker that is removed and waits for no script. -/
theorem ledger_removed (h : ∀ k, Ledger s.view k) (hinv : ViewInv s.view) {p : Proc}
    {down : ScriptCall} (hfind : s.st.find id = some p) (hends : EndsWell s p down) :
    ∀ k, Ledger (s.view.remove id p.status down) k := by
  obtain rfl := (Table.mem_of_find? hfind).2
  have htouched : Touched s.view s.view p.id [] :=
    ⟨(List.append_nil _).symm, nofun, rfl, fun _ _ => .rfl⟩
  exact htouched.remove h hinv.procs hends.2 ((h p.id).of_status (view_status hfind) hends.1)

/-- A request that is denied. -/
theorem ledger_denied (h : ∀ k, Ledger s.view k) (hinv : ViewInv s.view)
    (hidle : s.view.status id = some .inactive) {evs : List Event}
    (hev : ∀ ev ∈ evs, ev.id? = some id) (hcheck : ∀ ev ∈ evs, ev.isCheck = true) (sendOk : Bool)
    (down : ScriptCall) :
    ∀ k, Ledger ((s.view.log evs).answer id sendOk false .failed .failed down) k := by
  have hcount : counts (history Event.id? id (s.view.log evs).trace) = .of .failed := by
    show counts (history Event.id? id (s.view.trace ++ evs)) = _
    rw [history_of_idle hinv hidle hev]
    exact counts_of_check hcheck
  exact (touched_log s.view hev).answer h hinv.procs (hinv.out_of_idle hidle) (fun _ => hcount)
    fun _ => ⟨fun hstatus => absurd hstatus (by decide), hcount⟩

/-- A worker that is put into `script_list`. -/
theorem ledger_waits (h : ∀ k, Ledger s.view k) (hinv : ViewInv s.view)
    (hidle : s.view.status id = some .inactive) (pid : ℤ) :
    ∀ k, Ledger
      { (s.view.log (checks id ++ [.utmpAdded id, .scriptStarted id pid true])).set id .failed with
        scripts := ⟨pid, id⟩ :: s.scripts
        children := pid :: s.children } k := by
  have hev : ∀ ev ∈ checks id ++ [.utmpAdded id, .scriptStarted id pid true],
      ev.id? = some id := by
    simp [checks, Event.id?]
  refine ledger_of_one h id _ rfl ?_ (fun k hk => Function.update_of_ne hk ..) ?_ ?_
  · intro ev hmem k hk
    rw [hev ev hmem] at hk
    exact (Option.some.inj hk).symm
  · intro w hne
    exact List.mem_cons.trans (or_iff_right fun heq => hne (congrArg ScriptWait.proc heq))
  · have hstatus : Function.update s.view.status id (some .failed) id = some .failed :=
      Function.update_self ..
    have hwaits : ∃ w ∈ ⟨pid, id⟩ :: s.scripts, w.proc = id :=
      ⟨⟨pid, id⟩, List.mem_cons_self, rfl⟩
    unfold Ledger
    simp only [View.log, View.set, hstatus, if_pos hwaits]
    rw [history_of_idle hinv hidle hev]
    rfl

/-- A worker that is told that it was accepted, where there is no connect script. -/
theorem ledger_accepted (h : ∀ k, Ledger s.view k) (hinv : ViewInv s.view)
    (hidle : s.view.status id = some .inactive) {sendOk : Bool} (hsend : sendOk = true)
    (down : ScriptCall) :
    ∀ k, Ledger ((s.view.log (checks id ++ [.utmpAdded id, .noScript id true, .completed id,
      .completed id])).answer id sendOk true .completed .failed down) k := by
  have hev : ∀ ev ∈ checks id ++ [.utmpAdded id, .noScript id true, .completed id,
      .completed id], ev.id? = some id := by
    simp [checks, Event.id?]
  refine (touched_log s.view hev).answer h hinv.procs (hinv.out_of_idle hidle) ?_ ?_
  · intro _
    exact (congrArg counts (history_of_idle hinv hidle hev)).trans rfl
  · intro hlost
    rw [hsend] at hlost
    cases hlost

/-- A script that ends with exit status 0. -/
theorem ledger_exited (h : ∀ k, Ledger s.view k) (hinv : ViewInv s.view) {w : ScriptWait}
    (hw : w ∈ s.scripts) (status : BitVec 32) {sendOk : Bool} {down : ScriptCall}
    (hstarts : sendOk = false → down.Starts) :
    ∀ k, Ledger ((View.log { s.view.log [.childExited w.pid status] with
      children := s.children.erase w.pid
      scripts := s.scripts.eraseP (·.pid = w.pid) } [.completed w.proc]).answer w.proc sendOk true
        .completed .completed down) k := by
  have hothers : s.view.scripts.eraseP (·.pid = w.pid) =
      Table.others ScriptWait.pid s.view.scripts w.pid := Table.eraseP_eq_others hinv.pids w.pid
  generalize hb : ({ s.view.log [.childExited w.pid status] with
    children := s.children.erase w.pid
    scripts := s.scripts.eraseP (·.pid = w.pid) } : View).log [.completed w.proc] = b
  have htouched : Touched s.view b w.proc [.childExited w.pid status, .completed w.proc] := by
    rw [← hb]
    refine ⟨List.append_assoc .., by simp [Event.id?], rfl, ?_⟩
    intro x hne
    show x ∈ s.view.scripts.eraseP (·.pid = w.pid) ↔ _
    rw [hothers, Table.mem_others, and_iff_left_iff_imp]
    intro hx hpid
    exact hne (congrArg ScriptWait.proc (Table.eq_of_key_eq hinv.pids hx hw hpid))
  have hcount : counts (history Event.id? w.proc b.trace) = .of .completed := by
    have hwaiting := (h w.proc).of_waiting (hinv.waits w hw) ⟨w, hw, rfl⟩
    have hhist : history Event.id? w.proc [.childExited w.pid status, .completed w.proc] =
        [.completed w.proc] := by
      simp [history, Event.id?]
    rw [htouched.trace_eq, Trace.history_append, counts_append, hwaiting, hhist]
    rfl
  have hscripts : b.scripts = s.view.scripts.eraseP (·.pid = w.pid) := by
    rw [← hb]
    rfl
  refine htouched.answer h ?_ ?_ (fun _ => hcount) fun hlost => ⟨fun _ => hstarts hlost, hcount⟩
  · rw [hscripts]
    exact hinv.procs.sublist (List.eraseP_sublist.map _)
  · rw [hscripts]
    exact hinv.out_of_exited hw

/-- **One move** in which nothing goes wrong. -/
theorem ledger_moves (h : ∀ k, Ledger s.view k) (hinv : ViewInv s.view) {i : ScriptLabel}
    (hi : GoesWell plat cfg s i) {v' : View} (hm : Moves plat cfg s i v') : ∀ k, Ledger v' k := by
  cases hm with
  | @connect pid hfresh => exact ledger_connect h hinv pid
  | @denied id req env up down p evs hfind hidle hev =>
    have hcheck : ∀ ev ∈ evs, ev.isCheck = true := by
      obtain ⟨-, hev⟩ | ⟨hconn, hscript, hfork, -⟩ := hev
      · exact fun ev hmem => (hev ev hmem).2
      · have hup := hi.of_connects hfind hidle hconn
        rw [if_pos hscript, hfork] at hup
        exact absurd hup.1 (by decide)
    obtain rfl := (Table.mem_of_find? hfind).2
    exact ledger_denied h hinv (view_idle hfind hidle) hev.about hcheck _ _
  | @waits id req env up down p pid hfind hidle hconn hscript hfork hfresh =>
    have hup := hi.of_connects hfind hidle hconn
    rw [if_pos hscript] at hup
    rw [if_pos hup.2]
    exact ledger_waits h hinv (view_idle hfind hidle) pid
  | @accepted id req env up down p hfind hidle hconn hscript =>
    have hsend := hi.of_connects hfind hidle hconn
    rw [if_neg (by rw [hscript]; decide)] at hsend
    exact ledger_accepted h hinv (view_idle hfind hidle) hsend down
  | @unexpected id req env up down p hfind hstatus =>
    have hwell := hi p hfind
    rw [if_neg hstatus] at hwell
    exact ledger_removed h hinv hfind hwell
  | removed hfind => exact ledger_removed h hinv hfind (hi _ hfind)
  | @reaped pid status sendOk down hnone =>
    intro k
    refine (h k).frame rfl ?_ .rfl
    exact Trace.history_append_of_none (by simp [Event.id?])
  | @exited w status sendOk down hw =>
    obtain ⟨hcode, hstarts⟩ := hi ⟨w, hw, rfl⟩
    dsimp only
    rw [if_pos hcode]
    exact ledger_exited h hinv hw status hstarts

/-! ### Runs -/

/-- A worker that was removed is one that main does not have. -/
theorem balanced_of_ledger (h : ∀ k, Ledger s.view k) : Balanced s := by
  intro id hmem
  have hmem : .removed id ∈ history Event.id? id s.view.trace := Trace.mem_history.2 ⟨hmem, rfl⟩
  have hremoved : (counts (history Event.id? id s.view.trace)).removed = true :=
    List.any_eq_true.2 ⟨_, hmem, rfl⟩
  have hledger := h id
  unfold Ledger at hledger
  cases hstatus : s.view.status id with
  | none =>
    simp only [hstatus] at hledger
    exact hledger
  | some status =>
    -- nobody was removed who still has a status
    have hpresent : (counts (history Event.id? id s.view.trace)).removed = false := by
      simp only [hstatus] at hledger
      cases status <;> dsimp only at hledger <;> rw [hledger] <;> first | rfl | (split <;> rfl)
    rw [hremoved] at hpresent
    cases hpresent

/-- **The notices of a session balance** in a run in which nothing goes wrong after a user has been
put into utmp: when a worker has been removed, `add_utmp_entry` and `remove_utmp_entry` were called
equally often, and the disconnect script was started once if the session was accepted. -/
theorem balanced_always {is : List ScriptLabel}
    (h : (scriptMachine plat cfg).Meets (GoesWell plat cfg) scriptStart is) :
    (scriptMachine plat cfg).Always Balanced scriptStart is := by
  have hstart : ScriptInv scriptStart ∧ ∀ k, Ledger scriptStart.view k :=
    ⟨scriptStart_inv, fun k => ⟨rfl, Nat.zero_le _, rfl⟩⟩
  refine (Machine.always_of_step (P := fun s => ScriptInv s ∧ ∀ k, Ledger s.view k) ?_ hstart
    h).imp fun s hs => balanced_of_ledger hs.2
  rintro s i s' ⟨hinv, hledger⟩ hi hs
  obtain ⟨hm, hinv'⟩ := hinv.step hs
  exact ⟨hinv', ledger_moves hledger hinv.view hi hm⟩

namespace Sample

/-- A worker gets a session, told by its connect script, and is removed. -/
def session (status : BitVec 32) : List ScriptLabel :=
  [.connect 100, .cookieReq 0 [1] (environ [0] 5 none) ⟨true, some 200, true⟩ ⟨true, none, true⟩,
    .childExit 200 status true ⟨true, none, true⟩, .remove 0 ⟨true, some 300, true⟩]

end Sample

open Sample in
theorem balanced_always_session :
    (scriptMachine platform config).Always Balanced scriptStart (session 0) :=
  balanced_always (by decide)

open Sample in
/-- The connect script ends with exit status 1: the user is put into utmp, and never taken out. -/
theorem not_balanced_scriptFailed :
    ∃ s, (scriptMachine platform config).run scriptStart (session 0x100) = some s ∧
      ¬ Balanced s := by
  refine ⟨_, rfl, ?_⟩
  intro h
  exact absurd (h 0 (by decide)) (by decide)

end Main

end Ocserv
