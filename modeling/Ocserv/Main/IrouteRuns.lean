import Ocserv.Main.Iroutes
import Ocserv.Main.ScriptRuns

/-!
# Main: the internal routes of a session, over runs

`new_proc` gives a session no internal routes; it gets them when `session_open` is answered.  A
worker is idle until it asks for a session, and waits for one script at most, so it is answered once
(`unanswered_always`): `apply_iroutes` never meets a session that is marked, and the routes of one
that is marked do not change.

* `after` : the session of a worker after a trace of main, and the commands that ran for it.
* `iroutes_all_or_nothing` : in every state of every run, all the routes of a session are installed
  and it is marked, or none is.
-/

namespace Ocserv

namespace Main

open SecMod (Bytes Status)
open Trace (Guarded history)

variable {plat : Platform} {cfg : Config} {s s' : ScriptSt} {t u past : List Event} {id : ℕ}

/-! ### A worker is answered once -/

/-- The worker has not been answered. -/
def Silent (t : List Event) (id : ℕ) : Prop := ∀ ok, .replied id ok ∉ t

/-- A worker that has been answered opens no session and is not answered again. -/
def Unanswered (past : List Event) : Event → Prop
  | .sessionOpened id | .tunOpened id | .replied id _ => Silent past id
  | _ => True

theorem silent_append : Silent (t ++ u) id ↔ Silent t id ∧ Silent u id := by
  simp only [Silent, List.mem_append, not_or]
  exact forall_and

theorem silent_of_id (h : ∀ ev ∈ t, ev.id? ≠ some id) : Silent t id :=
  fun _ hmem => h _ hmem rfl

theorem silent_of_history (h : history Event.id? id t = []) : Silent t id :=
  silent_of_id fun ev hmem hev => by
    have : ev ∈ history Event.id? id t := Trace.mem_history.2 ⟨hmem, hev⟩
    rw [h] at this
    cases this

theorem silent_removeEvents (k : ℕ) (status : Status) (down : ScriptCall) :
    Silent (removeEvents k status down) id := by
  intro ok hmem
  obtain h | ⟨-, h | h | ⟨pid, h⟩⟩ := mem_removeEvents hmem <;> cases h

/-- What happens to a worker before it is answered. -/
theorem unanswered_of_silent (hpast : Silent past id) (hu : Silent u id)
    (hev : ∀ ev ∈ u, ∀ k, ev.id? = some k → k = id) : Guarded Unanswered past u := by
  induction u generalizing past with
  | nil => trivial
  | cons ev u ih =>
    have hev₀ := hev ev List.mem_cons_self
    have hcons := silent_append (t := [ev]).1 hu
    refine ⟨?_, ih (silent_append.2 ⟨hpast, hcons.1⟩) hcons.2 fun e he =>
      hev e (List.mem_cons_of_mem _ he)⟩
    cases ev with
    | sessionOpened k | tunOpened k | replied k ok =>
      obtain rfl := hev₀ k rfl
      exact hpast
    | _ => trivial

/-- Each worker is answered once, and those that wait for a script have not been. -/
structure AnswerInv (v : View) : Prop where
  guarded : Guarded Unanswered [] v.trace
  waiting : ∀ w ∈ v.scripts, Silent v.trace w.proc

namespace AnswerInv

variable {v : View}

/-- Something happens to a worker that has not been answered. -/
theorem log (h : AnswerInv v) {evs : List Event} (hsilent : Silent v.trace id)
    (hevs : ∀ k, Silent evs k) (hev : ∀ ev ∈ evs, ev.id? = some id) : AnswerInv (v.log evs) where
  guarded := by
    refine h.guarded.append (unanswered_of_silent hsilent (hevs id) fun ev hmem k hk => ?_)
    rw [hev ev hmem] at hk
    exact (Option.some.inj hk).symm
  waiting w hw := silent_append.2 ⟨h.waiting w hw, hevs w.proc⟩

theorem remove (h : AnswerInv v) (id : ℕ) (status : Status) (down : ScriptCall) :
    AnswerInv (v.remove id status down) where
  guarded := by
    refine h.guarded.append (Trace.guarded_of_all fun past ev hev => ?_)
    obtain rfl | ⟨-, rfl | rfl | ⟨pid, rfl⟩⟩ := mem_removeEvents hev <;> trivial
  waiting w hw := silent_append.2
    ⟨h.waiting w (List.eraseP_subset hw), silent_removeEvents id status down⟩

theorem answer (h : AnswerInv v) (hsilent : Silent v.trace id)
    (hout : ∀ w ∈ v.scripts, w.proc ≠ id) (sendOk ok : Bool) (kept lost : Status)
    (down : ScriptCall) : AnswerInv (v.answer id sendOk ok kept lost down) := by
  unfold View.answer
  split
  · refine ⟨h.guarded.append ⟨hsilent, trivial⟩, fun w hw => ?_⟩
    refine silent_append.2 ⟨h.waiting w hw, fun ok' hmem => ?_⟩
    cases List.mem_singleton.1 hmem
    exact hout w hw rfl
  · exact h.remove id lost down

/-- A child has been waited for. -/
theorem reap (h : AnswerInv v) (pid : ℤ) (status : BitVec 32) (children : List ℤ) :
    AnswerInv { v.log [.childExited pid status] with
      children := children, scripts := v.scripts.eraseP (·.pid = pid) } where
  guarded := h.guarded.append ⟨trivial, trivial⟩
  waiting w hw := silent_append.2
    ⟨h.waiting w (List.eraseP_subset hw), silent_of_id (by simp [Event.id?])⟩

theorem silent_idle (hinv : ViewInv v) (hidle : v.status id = some .inactive) :
    Silent v.trace id :=
  silent_of_history (hinv.fresh id hidle)

/-- **One move.** -/
theorem moves (h : AnswerInv s.view) (hinv : ViewInv s.view) {i : ScriptLabel} {v' : View}
    (hm : Moves plat cfg s i v') : AnswerInv v' := by
  cases hm with
  | connect hfresh => exact ⟨h.guarded, h.waiting⟩
  | @denied id req env up down p evs hfind hidle hev =>
    have hidle := view_idle hfind hidle
    have hsilent := silent_idle hinv hidle
    have hevs : ∀ k, Silent evs k := by
      intro k ok hmem
      obtain ⟨-, hcheck⟩ | ⟨-, -, -, rfl⟩ := hev
      · have := (hcheck _ hmem).2
        cases this
      · simp [checks] at hmem
    have hid := (Table.mem_of_find? hfind).2
    have hlog := h.log hsilent hevs fun ev hmem => (hev.about ev hmem).trans (congrArg some hid)
    exact hlog.answer (silent_append.2 ⟨hsilent, hevs id⟩) (hinv.out_of_idle hidle) _ _ _ _ _
  | @waits id req env up down p pid hfind hidle hconn hscript hfork hfresh =>
    have hsilent := silent_idle hinv (view_idle hfind hidle)
    have hevs : ∀ k, Silent (checks id ++ [.utmpAdded id, .scriptStarted id pid true]) k :=
      fun k ok hmem => by simp [checks] at hmem
    have hlog := h.log hsilent hevs (by simp [checks, Event.id?])
    refine ⟨hlog.guarded, fun w hw => ?_⟩
    cases hmem : up.mem with
    | false =>
      rw [hmem] at hw
      exact hlog.waiting w hw
    | true =>
      rw [hmem] at hw
      rcases List.mem_cons.1 hw with rfl | hw
      · exact silent_append.2 ⟨hsilent, hevs id⟩
      · exact hlog.waiting w hw
  | @accepted id req env up down p hfind hidle hconn hscript =>
    have hidle := view_idle hfind hidle
    have hsilent := silent_idle hinv hidle
    have hevs : ∀ k, Silent (checks id ++
        [.utmpAdded id, .noScript id true, .completed id, .completed id]) k :=
      fun k ok hmem => by simp [checks] at hmem
    have hlog := h.log hsilent hevs (by simp [checks, Event.id?])
    exact hlog.answer (silent_append.2 ⟨hsilent, hevs id⟩) (hinv.out_of_idle hidle) _ _ _ _ _
  | unexpected hfind hstatus => exact h.remove _ _ _
  | removed hfind => exact h.remove _ _ _
  | @reaped pid status sendOk down hnone =>
    have hreap := h.reap pid status (s.children.erase pid)
    rwa [List.eraseP_of_forall_not fun w hw => by simpa using hnone w hw] at hreap
  | @exited w status sendOk down hw =>
    have hreap := h.reap w.pid status (s.children.erase w.pid)
    have hsilent : Silent (s.trace ++ [.childExited w.pid status]) w.proc :=
      silent_append.2 ⟨h.waiting w hw, silent_of_id (by simp [Event.id?])⟩
    have hout := hinv.out_of_exited hw
    dsimp only
    split
    · have hevs : ∀ k, Silent [.completed w.proc] k := fun k ok hmem => by simp at hmem
      have hlog := hreap.log hsilent hevs (by simp [Event.id?])
      exact hlog.answer (silent_append.2 ⟨hsilent, hevs w.proc⟩) hout _ _ _ _ _
    · exact hreap.answer hsilent hout _ _ _ _ _

end AnswerInv

/-- **A worker is answered once**, and nothing is opened for it afterwards. -/
theorem unanswered_always (is : List ScriptLabel) :
    (scriptMachine plat cfg).Always (fun s => Guarded Unanswered [] s.trace) scriptStart is := by
  have hstart : ScriptInv scriptStart ∧ AnswerInv scriptStart.view :=
    ⟨scriptStart_inv, trivial, nofun⟩
  refine (Machine.always_of_step (P := fun s => ScriptInv s ∧ AnswerInv s.view) ?_ hstart
    (Machine.meets_true _ _)).imp fun s hs => hs.2.guarded
  rintro s i s' ⟨hinv, hanswer⟩ - hs
  obtain ⟨hm, hinv'⟩ := hinv.step hs
  exact ⟨hinv', hanswer.moves hinv.view hm⟩

namespace Iroutes

/-! ### The session of a worker -/

/-- What an event finds: the internal routes in the answer of sec-mod, the device, the settings at
that time, and how the commands go. -/
structure World where
  iroutes : List Bytes
  tunName : Bytes
  cmds : RouteCmds
  adds : ℕ → Spawn
  dels : ℕ → Spawn

/-- Both commands are set, and those that delete routes succeed. -/
structure World.Ready (w : World) : Prop where
  add : w.cmds.routeAddCmd ≠ none
  del : w.cmds.routeDelCmd ≠ none
  deletes : ∀ j, w.dels j = .exited 0

/-- The session of a new worker: `new_proc` fills it with zeros. -/
def IProc.new : IProc := ⟨.inactive, [], [], -1, false⟩

/-- What an event about its worker does to a session, with the commands that ran for it. -/
def follow (w : World) (x : IProc × List Command) : Event → IProc × List Command
  | .sessionOpened _ => ({ x.1 with iroutes := w.iroutes }, x.2)
  | .tunOpened _ => ({ x.1 with tunName := w.tunName }, x.2)
  -- the reply is what `handle_script_exit` sends before it calls `apply_iroutes`
  | .replied _ ok =>
    let out := handleScriptExit w.cmds w.adds w.dels true (if ok then 0 else 1) x.1
    (out.1, x.2 ++ out.2.1)
  -- `remove_proc` calls `remove_iroutes`
  | .removed _ =>
    let out := removeIroutes w.cmds w.dels x.1
    (out.1, x.2 ++ out.2)
  | _ => x

/-- The session of a worker after a trace of main, and the commands that ran for it; `worlds` says
what each event finds. -/
def after (worlds : ℕ → World) (id : ℕ) (t : List Event) : IProc × List Command :=
  t.zipIdx.foldl (fun x e => if e.1.id? = some id then follow (worlds e.2) x e.1 else x)
    (.new, [])

variable {worlds : ℕ → World} {m : Multiset Route}

theorem after_concat (worlds : ℕ → World) (id : ℕ) (t : List Event) (ev : Event) :
    after worlds id (t ++ [ev]) =
      if ev.id? = some id then follow (worlds t.length) (after worlds id t) ev
      else after worlds id t := by
  rw [after, List.zipIdx_append, List.foldl_append, Nat.zero_add]
  rfl

/-- All the routes of the session are installed, over `m`, or none is, and a later `remove_iroutes`
deletes each of them that is installed, once, and no other. -/
def SettledLater (m : Multiset Route) (x : IProc × List Command) : Prop :=
  ∀ cmds dels, cmds.routeDelCmd ≠ none → (∀ j, dels j = .exited 0) →
    Settled cmds dels x.1.routes m x.1 x.2

/-- When the worker is told that it is accepted, its routes are installed if every command that adds
one succeeds, and otherwise none is. -/
def AppliedAt (worlds : ℕ → World) (id : ℕ) (past : List Event) (ev : Event) : Prop :=
  ev = .replied id true → ∀ m, Applies (worlds past.length).adds m (after worlds id past).1
    (applyIroutes (worlds past.length).cmds (worlds past.length).adds (worlds past.length).dels
      (after worlds id past).1)

theorem SettledLater.unmarked {x : IProc × List Command} (h : SettledLater m x)
    (hmark : x.1.appliedIroutes = false) : installed m x.2 = m := by
  obtain ⟨h', -⟩ | ⟨-, h'⟩ := (h ⟨none, some []⟩ (fun _ => .exited 0) (Option.some_ne_none _)
    fun _ => rfl).all_or_nothing
  · rw [hmark] at h'
    cases h'
  · exact h'

/-- More commands for a session for which none has an effect yet. -/
theorem settled_append {cmds : RouteCmds} {dels : ℕ → Spawn} {rs : List Route} {q : IProc}
    {ran ran' : List Command} (hran : installed m ran = m) (h : Settled cmds dels rs m q ran') :
    Settled cmds dels rs m q (ran ++ ran') := by
  have hinstalled : installed m (ran ++ ran') = installed m ran' := by
    rw [installed_append, hran]
  refine ⟨?_, ?_, ?_, h.unmarked⟩
  · rw [hinstalled]
    exact h.all_or_nothing
  · rw [hinstalled]
    exact h.deleted_once
  · rw [hinstalled]
    exact h.removed

/-- `handle_script_exit` keeps the routes of the session. -/
theorem handleScriptExit_routes (w : World) (sendOk : Bool) (code : ℤ) (p : IProc) :
    (handleScriptExit w.cmds w.adds w.dels sendOk code p).1.routes = p.routes := by
  have happly (p : IProc) : (applyIroutes w.cmds w.adds w.dels p).1.routes = p.routes := by
    unfold applyIroutes
    split
    · rfl
    · split <;> rfl
  unfold handleScriptExit
  dsimp only
  split_ifs
  · rfl
  · exact happly { p with status := .completed }
  · rfl
  · rfl

/-- The commands that `handle_script_exit` runs are those of the reply that it sends. -/
theorem follow_handleScriptExit (w : World) (s : ScriptSt) (p : Proc) (sendOk : Bool) (code : ℤ)
    (x : IProc × List Command) :
    (((s.handleScriptExit p sendOk code).st.trace.drop s.trace.length).foldl (follow w) x).2 =
      x.2 ++ (handleScriptExit w.cmds w.adds w.dels sendOk code x.1).2.1 := by
  rw [handleScriptExit_spec]
  dsimp only
  rw [List.drop_left]
  unfold handleScriptExit replies
  by_cases hcode : code = 0 <;> cases sendOk <;>
    simp [hcode, Iroutes.follow, handleScriptExit]

/-- The session of a worker that has not been answered is not marked; in any case it is settled. -/
structure SessionInv (m : Multiset Route) (t : List Event) (id : ℕ) (x : IProc × List Command) :
    Prop where
  settled : SettledLater m x
  fresh : Silent t id → x.1.appliedIroutes = false

theorem sessionInv_new (m : Multiset Route) (id : ℕ) : SessionInv m [] id (.new, []) :=
  ⟨fun _ _ _ _ => settled_of_none rfl rfl, fun _ => rfl⟩

/-- The session of a worker that has not been answered gets its routes, or its device. -/
theorem SessionInv.opens {x : IProc × List Command} (h : SessionInv m t id x)
    (hsilent : Silent t id) {q : IProc} (hq : q.appliedIroutes = x.1.appliedIroutes) (ev : Event) :
    SessionInv m (t ++ [ev]) id (q, x.2) := by
  have hmark := h.fresh hsilent
  have hmark' : q.appliedIroutes = false := hq.trans hmark
  exact ⟨fun _ _ _ _ => settled_of_none hmark' (h.settled.unmarked hmark), fun _ => hmark'⟩

/-- **One event** of a worker that is answered once. -/
theorem SessionInv.follow {x : IProc × List Command} (h : SessionInv m t id x) {ev : Event}
    (hev : ev.id? = some id) (hguard : Unanswered t ev) {w : World} (hw : w.Ready) :
    SessionInv m (t ++ [ev]) id (follow w x ev) := by
  -- nothing but an answer ends the silence
  have hother (hx : Iroutes.follow w x ev = x) : SessionInv m (t ++ [ev]) id x :=
    ⟨h.settled, fun hsilent => h.fresh (silent_append.1 hsilent).1⟩
  cases ev with
  | sessionOpened k =>
    obtain rfl : k = id := Option.some.inj hev
    exact h.opens hguard (q := { x.1 with iroutes := w.iroutes }) rfl _
  | tunOpened k =>
    obtain rfl : k = id := Option.some.inj hev
    exact h.opens hguard (q := { x.1 with tunName := w.tunName }) rfl _
  | replied k ok =>
    obtain rfl : k = id := Option.some.inj hev
    have hmark := h.fresh hguard
    refine ⟨fun cmds dels hdel hok => ?_, fun hsilent => ?_⟩
    · have hsettled := settled_handleScriptExit w.adds m hmark hw.add hw.del hdel hw.deletes hok
        true (if ok then 0 else 1)
      rw [← handleScriptExit_routes w true (if ok then 0 else 1) x.1] at hsettled
      exact settled_append (h.settled.unmarked hmark) hsettled
    · exact absurd List.mem_cons_self ((silent_append.1 hsilent).2 ok)
  | removed k =>
    have hsettled := h.settled w.cmds w.dels hw.del hw.deletes
    have hran : installed m (x.2 ++ (removeIroutes w.cmds w.dels x.1).2) = m := by
      rw [installed_append]
      exact hsettled.removed
    exact ⟨fun _ _ _ _ => settled_of_none hsettled.unmarked hran, fun _ => hsettled.unmarked⟩
  | _ => exact hother rfl

/-- **A trace** in which each worker is answered once. -/
theorem sessionInv_after (hready : ∀ i, (worlds i).Ready) (m : Multiset Route) (id : ℕ)
    (h : Guarded Unanswered [] t) : SessionInv m t id (after worlds id t) := by
  induction t using List.reverseRecOn with
  | nil => exact sessionInv_new m id
  | append_singleton t ev ih =>
    obtain ⟨hguard, hev, -⟩ := Trace.guarded_append.1 h
    have hinv := ih hguard
    rw [after_concat]
    split
    · rename_i hid
      exact hinv.follow hid hev (hready _)
    · exact ⟨hinv.settled, fun hsilent => hinv.fresh (silent_append.1 hsilent).1⟩

/-- `apply_iroutes` meets sessions that are not marked. -/
theorem appliedAt_of_unanswered (hready : ∀ i, (worlds i).Ready) (id : ℕ)
    (h : Guarded Unanswered [] t) : Guarded (AppliedAt worlds id) [] t := by
  induction t using List.reverseRecOn with
  | nil => trivial
  | append_singleton t ev ih =>
    obtain ⟨hguard, hev, -⟩ := Trace.guarded_append.1 h
    refine (ih hguard).append ⟨fun heq m => ?_, trivial⟩
    subst heq
    have hinv := sessionInv_after hready m id hguard
    have hw := hready t.length
    exact applyIroutes_spec hw.add hw.del hw.deletes _ m (hinv.fresh hev)

/-- **The internal routes of a session are installed all or none**, in every state of every run of
main, whatever the commands that add routes return, if both commands are set and those that delete
routes succeed: all of them and the session is marked if every command that adds one succeeds, and
otherwise none, and it is not marked.  And `remove_iroutes` deletes what is installed, each route
once, and nothing else. -/
theorem iroutes_all_or_nothing (hready : ∀ i, (worlds i).Ready) (m : Multiset Route) (id : ℕ)
    (is : List ScriptLabel) :
    (scriptMachine plat cfg).Always (fun s => SettledLater m (after worlds id s.trace) ∧
      Guarded (AppliedAt worlds id) [] s.trace) scriptStart is :=
  (unanswered_always is).imp fun _ h =>
    ⟨(sessionInv_after hready m id h).settled, appliedAt_of_unanswered hready id h⟩

/-- A session with the route `r` on the device `t`, whose commands succeed. -/
def sampleWorld : World :=
  ⟨[[114]], [116], ⟨some [], some []⟩, fun _ => .exited 0, fun _ => .exited 0⟩

theorem sampleWorld_ready : sampleWorld.Ready :=
  ⟨Option.some_ne_none _, Option.some_ne_none _, fun _ => rfl⟩

/-- A worker connects and asks for a session; there is no script. -/
def sampleRun : List ScriptLabel :=
  [.connect 100,
    .cookieReq 0 [1] (Sample.environ [0] 5 none) ⟨false, none, true⟩ ⟨false, none, true⟩]

theorem iroutes_all_or_nothing_session :
    ∃ s, (scriptMachine Sample.platform Sample.config).run scriptStart sampleRun = some s ∧
      (after (fun _ => sampleWorld) 0 s.trace).1.appliedIroutes = true ∧
      SettledLater 0 (after (fun _ => sampleWorld) 0 s.trace) := by
  refine ⟨_, rfl, by decide, ?_⟩
  have halways := @iroutes_all_or_nothing Sample.platform Sample.config (fun _ => sampleWorld)
    (fun _ => sampleWorld_ready) 0 0 sampleRun
  exact (halways.last rfl).1

end Iroutes

end Main

end Ocserv
