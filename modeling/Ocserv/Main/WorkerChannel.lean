import Ocserv.Main.CommandSocket
import Ocserv.Main.Gating

/-!
# The channel between main and a worker

A `CMD_UDP_FD` that gets on the command socket of a worker before the reply that the worker waits
for is taken for the reply, and the call fails.  Main finds a worker for a datagram as soon as the
worker is in its tables, which is while the `AUTH_COOKIE_REQ` waits for the connect script.

* `Uncrossed` : no datagram is for a worker that waits for a reply not yet sent, a request is sent
  only when the socket is empty, and main does not close the socket of a worker that waits.
* `Aligned` : each worker has read what it should, and will.
* `aligned_always` : the channels of a run in which no step crosses a call are aligned.
-/

namespace Ocserv

namespace Main

open SecMod (Bytes Status)
open Worker (UdpFdMsg cmdUdpFd KnownHeader forwardUdpToOwner_iff)

variable {plat : Platform} {cfg : Config} {unixConnFile : Bool} {s s' : ChannelSt} {id : ℕ}

/-! ### The property -/

/-- The worker will get the reply to its call: the reply is the first message on the socket, or
the socket is empty and main has the request still to read, or runs the connect script. -/
def Awaits (s : ChannelSt) (id : ℕ) (c : Call) : Prop :=
  (∃ m ∈ (s.socket id).toWorker.head?, m.Answers c) ∨
    (s.socket id).toWorker = [] ∧ s.closed id = false ∧
      ((s.socket id).toMain = [c] ∨
        ∃ w ∈ s.main.scripts, w.proc = id ∧ w.pid ∈ s.main.children)

/-- **The channels are aligned.**  Every call that returned got its own reply, and
`handle_worker_commands` only `CMD_UDP_FD`; every call that has not returned will get its reply,
and when there is none, the socket has only `CMD_UDP_FD`. -/
structure Aligned (s : ChannelSt) : Prop where
  right : ∀ id, ∀ e ∈ (s.socket id).log, e.Right
  awaits : ∀ id, (s.socket id).exited = false → ∀ c ∈ (s.socket id).waiting, Awaits s id c
  udpFd : ∀ id, (s.socket id).exited = false → (s.socket id).waiting = none →
    ∀ m ∈ (s.socket id).toWorker, m.cmd = cmdUdpFd

/-! ### The condition -/

/-- No worker of main waits for a reply that has not been sent. -/
def NobodyWaits (s : ChannelSt) : Prop := ∀ p ∈ s.main.st.procs, ¬ (s.socket p.id).Unanswered

/-- Main answers the request `c` of a worker that waits for the reply, or starts the connect script
and lists it. -/
def Answers (plat : Platform) (cfg : Config) (s : ChannelSt) (id : ℕ) (c : Call)
    (h : CommandsEnv) : Prop :=
  match c.req with
  | .authCookie req =>
    ∀ p ∈ s.main.st.find id, p.status = .inactive ∧
      if Connects plat cfg h.env s.main.st p req ∧ h.up.script = true ∧ h.up.fork.isSome then
        h.up.mem = true
      else h.env.sendOk = true
  | .resumeFetch => s.resumeReqs id = 0 ∧ h.env.sendOk = true
  | .banIp => False

/-- **No step crosses a call.** -/
def Uncrossed (plat : Platform) (cfg : Config) (unixConnFile : Bool) (s : ChannelSt) :
    ChannelLabel → Prop
  | .request id _ => (s.socket id).toWorker = []
  | .datagram buffer addr e =>
    let env := s.forwardEnv unixConnFile addr e
    ∀ id ∈ env.owner buffer, KnownHeader buffer → env.Ready id → e.send = true →
      ¬ (s.socket id).Unanswered
  | .handleCommands id h =>
    ∀ c ∈ (s.socket id).toMain.head?,
      if h.read = true ∧ c.req = .banIp then NobodyWaits s
      else (s.socket id).Unanswered → h.read = true ∧ Answers plat cfg s id c h
  | .childExit pid _ sendOk _ =>
    ∀ w ∈ s.main.scripts, w.pid = pid → (s.socket w.proc).Unanswered → sendOk = true
  | .remove id _ => ¬ (s.socket id).Unanswered
  | .terminate => NobodyWaits s
  | .connect _ _ | .recvMsg _ | .enterLoop _ | .handleWorkerCommands _ | .exit _ _ => True

/-! ### Steps of main -/

section Steps

variable {v v' v'' : View} {st : ScriptSt} {m : ScriptSt}

/-- A step of main that is not about a worker. -/
structure Frame (v v' : View) (id : ℕ) : Prop where
  trace : ∃ evs, v'.trace = v.trace ++ evs ∧ ∀ ev ∈ evs, ev.id? ≠ some id
  status_eq : v'.status id = v.status id
  scripts : ∀ w, w.proc = id → (w ∈ v'.scripts ↔ w ∈ v.scripts)

namespace Frame

theorem trans (h : Frame v v' id) (h' : Frame v' v'' id) : Frame v v'' id := by
  obtain ⟨evs, htrace, hev⟩ := h.trace
  obtain ⟨evs', htrace', hev'⟩ := h'.trace
  refine ⟨⟨evs ++ evs', ?_, ?_⟩, h'.status_eq.trans h.status_eq, ?_⟩
  · rw [htrace', htrace, List.append_assoc]
  · intro ev hmem
    rcases List.mem_append.1 hmem with hmem | hmem
    · exact hev ev hmem
    · exact hev' ev hmem
  · intro w hw
    exact (h'.scripts w hw).trans (h.scripts w hw)

theorem log (v : View) (evs : List Event) (h : ∀ ev ∈ evs, ev.id? ≠ some id) :
    Frame v (v.log evs) id :=
  ⟨⟨evs, rfl, h⟩, rfl, fun _ _ => Iff.rfl⟩

/-- The events are about another worker. -/
theorem logOf (v : View) {k : ℕ} (hk : k ≠ id) (evs : List Event)
    (h : ∀ ev ∈ evs, ev.id? = some k) : Frame v (v.log evs) id := by
  refine log v evs fun ev hev hid => hk ?_
  exact Option.some.inj ((h ev hev).symm.trans hid)

theorem set (v : View) {k : ℕ} (hk : k ≠ id) (status : Status) : Frame v (v.set k status) id :=
  ⟨⟨[], (List.append_nil _).symm, nofun⟩, Function.update_of_ne hk.symm .., fun _ _ => Iff.rfl⟩

theorem remove (v : View) {k : ℕ} (hk : k ≠ id) (status : Status) (down : ScriptCall) :
    Frame v (v.remove k status down) id := by
  refine ⟨⟨removeEvents k status down, rfl, ?_⟩, Function.update_of_ne hk.symm .., ?_⟩
  · intro ev hev hid
    exact hk (Option.some.inj ((removeEvents_id k status down ev hev).symm.trans hid))
  · rintro w rfl
    exact List.mem_eraseP_of_neg (by simpa using hk.symm)

theorem answer (v : View) {k : ℕ} (hk : k ≠ id) (sendOk ok : Bool) (kept lost : Status)
    (down : ScriptCall) : Frame v (v.answer k sendOk ok kept lost down) id := by
  unfold View.answer
  split
  · exact (logOf v hk [.replied k ok] (by simp [Event.id?])).trans (set _ hk kept)
  · exact remove v hk lost down

end Frame

/-- The worker that a step of main is about. -/
def ScriptLabel.about (st : ScriptSt) : ScriptLabel → Option ℕ
  | .connect _ => some st.st.nextProc
  | .cookieReq id .. | .remove id _ => some id
  | .childExit pid .. => (st.scripts.find? (·.pid = pid)).map ScriptWait.proc

/-- **The other workers.** -/
theorem Moves.frame (hinv : ViewInv st.view) {i : ScriptLabel} (hm : Moves plat cfg st i v')
    (hid : i.about st ≠ some id) : Frame st.view v' id := by
  have ne : ∀ {k : ℕ}, i.about st = some k → k ≠ id := by
    rintro k hk rfl
    exact hid hk
  cases hm with
  | connect hfresh =>
    have hset := Frame.set st.view (ne rfl) .inactive
    exact ⟨hset.trace, hset.status_eq, hset.scripts⟩
  | @denied k req env up down p evs hfind hidle hev =>
    obtain rfl := (Table.mem_of_find? hfind).2
    exact (Frame.logOf _ (ne rfl) evs hev.about).trans (.answer _ (ne rfl) ..)
  | @waits k req env up down p pid hfind hidle hconn hscript hfork hfresh =>
    have hlog := (Frame.logOf st.view (ne rfl)
      (checks k ++ [.utmpAdded k, .scriptStarted k pid true]) (by simp [checks, Event.id?])).trans
      (.set _ (ne rfl) .failed)
    refine ⟨hlog.trace, hlog.status_eq, ?_⟩
    rintro w rfl
    show w ∈ (if up.mem then ⟨pid, k⟩ :: st.scripts else st.scripts) ↔ w ∈ st.scripts
    split
    · rw [List.mem_cons, or_iff_right]
      rintro rfl
      exact ne rfl rfl
    · rfl
  | accepted hfind hidle hconn hscript =>
    exact (Frame.logOf _ (ne rfl) _ (by simp [checks, Event.id?])).trans (.answer _ (ne rfl) ..)
  | unexpected hfind hstatus => exact .remove _ (ne rfl) ..
  | removed hfind => exact .remove _ (ne rfl) ..
  | @reaped pid status sendOk down hnone =>
    have hlog : Frame st.view (st.view.log [.childExited pid status]) id :=
      .log st.view [.childExited pid status] (by simp [Event.id?])
    exact ⟨hlog.trace, hlog.status_eq, hlog.scripts⟩
  | @exited w status sendOk down hw =>
    have hfound : st.scripts.find? (·.pid = w.pid) = some w := Table.find?_eq_some hinv.pids hw
    have hne : w.proc ≠ id := ne (congrArg (Option.map ScriptWait.proc) hfound)
    have hreap : Frame st.view { st.view.log [.childExited w.pid status] with
        children := st.children.erase w.pid
        scripts := st.scripts.eraseP (·.pid = w.pid) } id := by
      refine ⟨⟨[.childExited w.pid status], rfl, by simp [Event.id?]⟩, rfl, ?_⟩
      rintro x rfl
      refine ⟨fun hx => List.eraseP_subset hx, ?_⟩
      intro hx
      have hpid : x.pid ≠ w.pid := by
        intro heq
        exact hne (congrArg ScriptWait.proc (Table.eq_of_key_eq hinv.pids hw hx heq.symm))
      exact (List.mem_eraseP_of_neg (by simpa using hpid)).2 hx
    dsimp only
    split
    · exact (hreap.trans (.logOf _ hne _ (by simp [Event.id?]))).trans (.answer _ hne ..)
    · exact hreap.trans (.answer _ hne ..)

/-- A step of main that answers the worker it is about, or makes it wait for its script. -/
inductive Answered (v v' : View) (id : ℕ) : Prop
  | replied (ok : Bool) (evs : List Event) (htrace : v'.trace = v.trace ++ evs)
      (hreps : ∀ call, cookieReps call id evs = [.authCookieRep call ok])
      (hout : ∀ w ∈ v'.scripts, w.proc ≠ id)
  | waits (evs : List Event) (htrace : v'.trace = v.trace ++ evs)
      (hreps : ∀ call, cookieReps call id evs = []) (w : ScriptWait) (hw : w ∈ v'.scripts)
      (hproc : w.proc = id) (hlive : v'.status id ≠ none)

theorem cookieReps_append (call id : ℕ) (evs evs' : List Event) :
    cookieReps call id (evs ++ evs') = cookieReps call id evs ++ cookieReps call id evs' :=
  List.filterMap_append ..

/-- Events about other workers. -/
theorem cookieReps_of_other {call : ℕ} {evs : List Event} (h : ∀ ev ∈ evs, ev.id? ≠ some id) :
    cookieReps call id evs = [] := by
  refine List.filterMap_eq_nil_iff.2 ?_
  intro ev hev
  have hne := h ev hev
  cases ev with
  | replied k ok => exact if_neg fun hk => hne (congrArg some hk)
  | _ => rfl

theorem Denies.cookieReps {env : Env} {up : ScriptCall} {req : Bytes} {p : Proc} {st : MainSt}
    {evs : List Event} (h : Denies plat cfg env up st p req evs) (call id : ℕ) :
    cookieReps call id evs = [] := by
  obtain ⟨-, hcheck⟩ | ⟨-, -, -, rfl⟩ := h
  · refine List.filterMap_eq_nil_iff.2 ?_
    intro ev hev
    have hcheck := (hcheck ev hev).2
    cases ev with
    | replied k ok => cases hcheck
    | _ => rfl
  · rfl

/-- The reply to a request. -/
theorem Moves.cookieReq_answered (hinv : ViewInv st.view) {env : Env} {up down : ScriptCall}
    {req : Bytes} {p : Proc} (hm : Moves plat cfg st (.cookieReq id req env up down) v')
    (hfind : st.st.find id = some p) (hidle : p.status = .inactive)
    (hsent : if Connects plat cfg env st.st p req ∧ up.script = true ∧ up.fork.isSome then
      up.mem = true else env.sendOk = true) : Answered st.view v' id := by
  have hout : ∀ w ∈ st.scripts, w.proc ≠ id := hinv.out_of_idle (view_idle hfind hidle)
  cases hm with
  | @denied _ _ _ _ _ p' evs hfind' hidle' hev =>
    obtain rfl : p = p' := Option.some.inj (hfind.symm.trans hfind')
    have hnot : ¬ (Connects plat cfg env st.st p req ∧ up.script = true ∧ up.fork.isSome) := by
      rintro ⟨hconn, -, hsome⟩
      obtain ⟨hnot, -⟩ | ⟨-, -, hfork, -⟩ := hev
      · exact hnot hconn
      · rw [hfork] at hsome
        cases hsome
    rw [if_neg hnot] at hsent
    unfold View.answer
    rw [if_pos hsent]
    refine .replied false (evs ++ [.replied id false]) ?_ ?_ hout
    · exact List.append_assoc st.view.trace evs [.replied id false]
    · intro call
      rw [cookieReps_append, hev.cookieReps]
      simp [cookieReps]
  | @waits _ _ _ _ _ p' pid hfind' hidle' hconn hscript hfork hfresh =>
    obtain rfl : p = p' := Option.some.inj (hfind.symm.trans hfind')
    rw [if_pos ⟨hconn, hscript, by rw [hfork]; rfl⟩] at hsent
    refine .waits _ rfl (fun call => by simp [cookieReps, checks]) ⟨pid, id⟩ ?_ rfl ?_
    · show _ ∈ if up.mem then ⟨pid, id⟩ :: st.scripts else st.scripts
      rw [if_pos hsent]
      exact List.mem_cons_self
    · show Function.update st.view.status id (some .failed) id ≠ none
      rw [Function.update_self]
      exact Option.some_ne_none _
  | @accepted _ _ _ _ _ p' hfind' hidle' hconn hscript =>
    rw [if_neg (fun h => by simp [hscript] at h)] at hsent
    unfold View.answer
    rw [if_pos hsent]
    refine .replied true _ (List.append_assoc ..) ?_ hout
    intro call
    simp [cookieReps, checks]
  | unexpected hfind' hstatus =>
    obtain rfl := Option.some.inj (hfind.symm.trans hfind')
    exact absurd hidle hstatus

/-- The reply when the script is over. -/
theorem Moves.childExit_answered (hinv : ViewInv st.view) {w : ScriptWait} {status : BitVec 32}
    {down : ScriptCall} (hm : Moves plat cfg st (.childExit w.pid status true down) v')
    (hw : w ∈ st.scripts) : Answered st.view v' w.proc := by
  have hout := hinv.out_of_exited hw
  generalize hpid : w.pid = pid at hm
  cases hm with
  | reaped hnone => exact absurd hpid (hnone w hw)
  | @exited x _ _ _ hx =>
    obtain rfl := Table.eq_of_key_eq hinv.pids hw hx hpid
    dsimp only
    split
    · refine .replied true [.childExited w.pid status, .completed w.proc, .replied w.proc true]
        ?_ (fun call => by simp [cookieReps]) hout
      simp [View.answer, View.log, View.set]
    · refine .replied false [.childExited w.pid status, .replied w.proc false] ?_
        (fun call => by simp [cookieReps]) hout
      simp [View.answer, View.log, View.set]

end Steps

/-! ### Where the call of a worker is -/

/-- Where the call of a worker is.  `live` says that main has the socket open, and `scripted` that
the worker waits for its connect script. -/
inductive Stage (l : CmdSocket) (cookieCall : ℕ) (live scripted : Prop) : Prop
  /-- There is no call. -/
  | idle (hwaiting : l.waiting = none) (htoMain : l.toMain = [])
      (hudp : ∀ m ∈ l.toWorker, m.cmd = cmdUdpFd) (hout : ¬ scripted)
  /-- Main has not read the request. -/
  | asked (c : Call) (hwaiting : l.waiting = some c) (htoMain : l.toMain = [c])
      (htoWorker : l.toWorker = []) (hlive : live) (hout : ¬ scripted)
  /-- Main runs the connect script. -/
  | script (c : Call) (req : Bytes) (hwaiting : l.waiting = some c) (hreq : c.req = .authCookie req)
      (htoMain : l.toMain = []) (htoWorker : l.toWorker = []) (hnum : cookieCall = c.num)
      (hlive : live) (hin : scripted)
  /-- Main has sent the reply. -/
  | answered (c : Call) (m : Message) (rest : List Message) (hwaiting : l.waiting = some c)
      (htoMain : l.toMain = []) (htoWorker : l.toWorker = m :: rest) (hm : m.Answers c)
      (hudp : ∀ m ∈ rest, m.cmd = cmdUdpFd) (hout : ¬ scripted)
  /-- The worker has exited. -/
  | exited (hexited : l.exited = true) (hwaiting : l.waiting = none)

namespace Stage

variable {l l' : CmdSocket} {cookieCall cookieCall' : ℕ} {live live' scripted scripted' : Prop}

theorem congr (h : Stage l cookieCall live scripted) (hlive : live → live')
    (hscripted : scripted' ↔ scripted) : Stage l cookieCall live' scripted' := by
  cases h with
  | idle hwaiting htoMain hudp hout => exact .idle hwaiting htoMain hudp (hout ∘ hscripted.1)
  | asked c hwaiting htoMain htoWorker hl hout =>
    exact .asked c hwaiting htoMain htoWorker (hlive hl) (hout ∘ hscripted.1)
  | script c req hwaiting hreq htoMain htoWorker hnum hl hin =>
    exact .script c req hwaiting hreq htoMain htoWorker hnum (hlive hl) (hscripted.2 hin)
  | answered c m rest hwaiting htoMain htoWorker hm hudp hout =>
    exact .answered c m rest hwaiting htoMain htoWorker hm hudp (hout ∘ hscripted.1)
  | exited hexited hwaiting => exact .exited hexited hwaiting

/-- A worker that has its reply, or waits for none, does not depend on main. -/
theorem settled (h : Stage l cookieCall live scripted) (hl : ¬ l.Unanswered)
    (hscripted : scripted' → scripted) : Stage l cookieCall' live' scripted' := by
  cases h with
  | idle hwaiting htoMain hudp hout => exact .idle hwaiting htoMain hudp (hout ∘ hscripted)
  | asked c hwaiting htoMain htoWorker hlive hout =>
    exact absurd (CmdSocket.unanswered hwaiting htoWorker) hl
  | script c req hwaiting hreq htoMain htoWorker hnum hlive hin =>
    exact absurd (CmdSocket.unanswered hwaiting htoWorker) hl
  | answered c m rest hwaiting htoMain htoWorker hm hudp hout =>
    exact .answered c m rest hwaiting htoMain htoWorker hm hudp (hout ∘ hscripted)
  | exited hexited hwaiting => exact .exited hexited hwaiting

/-- The socket of a worker that waits is open. -/
theorem live_of_unanswered (h : Stage l cookieCall live scripted) (hl : l.Unanswered) : live := by
  obtain ⟨hwait, hempty⟩ := hl
  cases h with
  | idle hwaiting => exact absurd hwaiting hwait
  | asked c hwaiting htoMain htoWorker hlive hout => exact hlive
  | script c req hwaiting hreq htoMain htoWorker hnum hlive hin => exact hlive
  | answered c m rest hwaiting htoMain htoWorker hm hudp hout =>
    rw [hempty] at htoWorker
    cases htoWorker
  | exited hexited hwaiting => exact absurd hwaiting hwait

theorem pushUdp (h : Stage l cookieCall live scripted) (hl : ¬ l.Unanswered) (msg : UdpFdMsg) :
    Stage (l.push [.udpFd msg]) cookieCall live scripted := by
  have udp : ∀ {ms : List Message}, (∀ m ∈ ms, m.cmd = cmdUdpFd) →
      ∀ m ∈ ms ++ [.udpFd msg], m.cmd = cmdUdpFd := by
    intro ms hms m hm
    rcases List.mem_append.1 hm with hm | hm
    · exact hms m hm
    · rw [List.mem_singleton.1 hm]
      rfl
  cases h with
  | idle hwaiting htoMain hudp hout => exact .idle hwaiting htoMain (udp hudp) hout
  | asked c hwaiting htoMain htoWorker hlive hout =>
    exact absurd (CmdSocket.unanswered hwaiting htoWorker) hl
  | script c req hwaiting hreq htoMain htoWorker hnum hlive hin =>
    exact absurd (CmdSocket.unanswered hwaiting htoWorker) hl
  | answered c m rest hwaiting htoMain htoWorker hm hudp hout =>
    refine .answered c m (rest ++ [.udpFd msg]) hwaiting htoMain ?_ hm (udp hudp) hout
    show l.toWorker ++ _ = _
    rw [htoWorker, List.cons_append]
  | exited hexited hwaiting => exact .exited hexited hwaiting

theorem request (h : Stage l cookieCall live scripted) (hlive : live) (hempty : l.toWorker = [])
    {req : Request} (hl : l.request req = some l') :
    Stage l' cookieCall live scripted ∧ l'.log = l.log := by
  unfold CmdSocket.request at hl
  split at hl
  · cases hl
  · rename_i hruns
    split at hl
    · cases hl
    · rename_i hnone
      cases hl
      refine ⟨?_, rfl⟩
      cases h with
      | idle hwaiting htoMain hudp hout =>
        refine .asked ⟨l.calls, req⟩ rfl ?_ hempty hlive hout
        show l.toMain ++ _ = _
        rw [htoMain, List.nil_append]
      | exited hexited hwaiting =>
        rw [not_not] at hruns
        exact absurd (hexited.symm.trans hruns.1) (by decide)
      | asked c hwaiting | script c req hwaiting | answered c m rest hwaiting =>
        rw [hwaiting] at hnone
        cases hnone

/-- **A call gets its own reply.** -/
theorem recvMsg (h : Stage l cookieCall live scripted) {closed : Bool}
    (hclosed : closed = true → ¬ live) (hl : l.recvMsg closed = some l') :
    Stage l' cookieCall live scripted ∧ ∃ e : Received, e.Right ∧ l'.log = l.log ++ [e] := by
  unfold CmdSocket.recvMsg at hl
  cases h with
  | idle hwaiting | exited hexited hwaiting =>
    rw [hwaiting] at hl
    cases hl
  | asked c hwaiting htoMain htoWorker hlive hout =>
    rw [hwaiting, htoWorker] at hl
    cases closed with
    | false => cases hl
    | true => exact absurd hlive (hclosed rfl)
  | script c req hwaiting hreq htoMain htoWorker hnum hlive hin =>
    rw [hwaiting, htoWorker] at hl
    cases closed with
    | false => cases hl
    | true => exact absurd hlive (hclosed rfl)
  | answered c m rest hwaiting htoMain htoWorker hm hudp hout =>
    rw [hwaiting, htoWorker] at hl
    cases hl
    refine ⟨.idle rfl htoMain hudp hout, CmdSocket.receive c m, ?_, rfl⟩
    unfold CmdSocket.receive
    rw [if_pos hm.1]
    exact hm.2

theorem enterLoop (h : Stage l cookieCall live scripted) (hl : l.enterLoop = some l') :
    Stage l' cookieCall live scripted ∧ l'.log = l.log := by
  unfold CmdSocket.enterLoop at hl
  split at hl
  · cases hl
    refine ⟨?_, rfl⟩
    cases h with
    | idle hwaiting htoMain hudp hout => exact .idle hwaiting htoMain hudp hout
    | asked c hwaiting htoMain htoWorker hlive hout =>
      exact .asked c hwaiting htoMain htoWorker hlive hout
    | script c req hwaiting hreq htoMain htoWorker hnum hlive hin =>
      exact .script c req hwaiting hreq htoMain htoWorker hnum hlive hin
    | answered c m rest hwaiting htoMain htoWorker hm hudp hout =>
      exact .answered c m rest hwaiting htoMain htoWorker hm hudp hout
    | exited hexited hwaiting => exact .exited hexited hwaiting
  · cases hl

/-- **The data loop gets the sockets.** -/
theorem handleWorkerCommands (h : Stage l cookieCall live scripted)
    (hl : l.handleWorkerCommands = some l') :
    Stage l' cookieCall live scripted ∧ ∃ e : Received, e.Right ∧ l'.log = l.log ++ [e] := by
  unfold CmdSocket.handleWorkerCommands at hl
  split at hl
  · rename_i hloop
    obtain ⟨-, hnone, hruns, -⟩ := hloop
    split at hl
    · cases hl
    · rename_i m rest hmsgs
      cases hl
      cases h with
      | idle hwaiting htoMain hudp hout =>
        rw [hmsgs] at hudp
        refine ⟨.idle hwaiting htoMain (fun m hm => hudp m (List.mem_cons_of_mem _ hm)) hout,
          .udpFd, trivial, ?_⟩
        rw [if_pos (hudp m List.mem_cons_self)]
      | exited hexited hwaiting => exact absurd (hexited.symm.trans hruns) (by decide)
      | asked c hwaiting | script c req hwaiting | answered c m rest hwaiting =>
        rw [hwaiting] at hnone
        cases hnone
  · cases hl

end Stage

/-- Where the call of the worker number `id` is. -/
def StageAt (s : ChannelSt) (id : ℕ) : Prop :=
  Stage (s.socket id) (s.cookieCall id) (s.closed id = false)
    (∃ w ∈ s.main.scripts, w.proc = id)

/-- The invariant of the channels. -/
structure ChannelInv (s : ChannelSt) : Prop where
  script : ScriptInv s.main
  stage : ∀ id, StageAt s id
  right : ∀ id, ∀ e ∈ (s.socket id).log, e.Right

theorem ChannelInv.aligned (h : ChannelInv s) : Aligned s := by
  have runs : ∀ {id : ℕ}, (s.socket id).exited = false → (s.socket id).exited = true → False := by
    intro id hno hyes
    exact absurd (hno.symm.trans hyes) (by decide)
  refine ⟨h.right, fun id hruns c hc => ?_, fun id hruns hnone m hm => ?_⟩
  · have hc : (s.socket id).waiting = some c := hc
    cases h.stage id with
    | idle hwaiting =>
      rw [hwaiting] at hc
      cases hc
    | asked c' hwaiting htoMain htoWorker hlive hout =>
      obtain rfl : c' = c := Option.some.inj (hwaiting.symm.trans hc)
      exact .inr ⟨htoWorker, hlive, .inl htoMain⟩
    | script c' req hwaiting hreq htoMain htoWorker hnum hlive hin =>
      obtain ⟨w, hw, hproc⟩ := hin
      exact .inr ⟨htoWorker, hlive, .inr ⟨w, hw, hproc, h.script.view.child w hw⟩⟩
    | answered c' m rest hwaiting htoMain htoWorker hm hudp hout =>
      obtain rfl : c' = c := Option.some.inj (hwaiting.symm.trans hc)
      exact .inl ⟨m, by rw [htoWorker]; rfl, hm⟩
    | exited hexited hwaiting => exact (runs hruns hexited).elim
  · cases h.stage id with
    | idle hwaiting htoMain hudp hout => exact hudp m hm
    | exited hexited hwaiting => exact (runs hruns hexited).elim
    | asked c hwaiting | script c req hwaiting | answered c m rest hwaiting =>
      rw [hwaiting] at hnone
      cases hnone

theorem channelStart_inv : ChannelInv channelStart := by
  refine ⟨scriptStart_inv, fun id => .idle rfl rfl nofun ?_, nofun⟩
  rintro ⟨w, hw, -⟩
  cases hw

/-! ### One step -/

section Step

variable {i : ScriptLabel} {m : ScriptSt} {l : CmdSocket}

theorem closed_eq (s : ChannelSt) (id : ℕ) :
    s.closed id = false ↔ s.ended = false ∧ s.main.view.status id ≠ none := by
  unfold ChannelSt.closed ScriptSt.view
  cases hfind : s.main.st.find id <;> simp [hfind]

/-- A step of main and its effect on the sockets. -/
theorem mainStep_eq_some (hinv : ScriptInv s.main)
    (hs : s.mainStep plat cfg i = some s') :
    ∃ m, s' = s.afterMain m ∧ Moves plat cfg s.main i m.view ∧ ScriptInv m := by
  obtain ⟨m, hm, rfl⟩ := Option.map_eq_some_iff.1 hs
  obtain ⟨hmoves, hinv'⟩ := hinv.step hm
  exact ⟨m, rfl, hmoves, hinv'⟩

theorem socket_afterMain {evs : List Event} (htrace : m.trace = s.main.trace ++ evs) :
    (s.afterMain m).socket id = (s.socket id).push (cookieReps (s.cookieCall id) id evs) := by
  unfold ChannelSt.afterMain
  dsimp only
  rw [htrace, List.drop_left]

theorem push_nil (l : CmdSocket) : l.push [] = l := by
  unfold CmdSocket.push
  rw [List.append_nil]

/-- A step of main that is not about a worker leaves its call alone. -/
theorem StageAt.frame (h : StageAt s id) (hframe : Frame s.main.view m.view id) :
    StageAt (s.afterMain m) id := by
  obtain ⟨evs, htrace, hev⟩ := hframe.trace
  unfold StageAt
  rw [socket_afterMain htrace, cookieReps_of_other hev, push_nil]
  refine Stage.congr h (fun hlive => ?_) ?_
  · obtain ⟨hended, hstatus⟩ := (closed_eq s id).1 hlive
    exact (closed_eq _ id).2 ⟨hended, hframe.status_eq ▸ hstatus⟩
  · constructor
    · rintro ⟨w, hw, hproc⟩
      exact ⟨w, (hframe.scripts w hproc).1 hw, hproc⟩
    · rintro ⟨w, hw, hproc⟩
      exact ⟨w, (hframe.scripts w hproc).2 hw, hproc⟩

/-- A step of main answers the request that it serves, or starts the connect script. -/
theorem stageAt_answered {c : Call} {req : Bytes} (hwaiting : (s.socket id).waiting = some c)
    (hreq : c.req = .authCookie req) (htoMain : (s.socket id).toMain = [])
    (htoWorker : (s.socket id).toWorker = []) (hnum : s.cookieCall id = c.num)
    (hended : s.ended = false) (h : Answered s.main.view m.view id) :
    StageAt (s.afterMain m) id := by
  cases h with
  | replied ok evs htrace hreps hout =>
    unfold StageAt
    rw [socket_afterMain htrace, hreps, hnum]
    refine .answered c (.authCookieRep c.num ok) [] hwaiting htoMain ?_ ⟨?_, rfl⟩ nofun ?_
    · show (s.socket id).toWorker ++ _ = _
      rw [htoWorker, List.nil_append]
    · rw [hreq]
      rfl
    · rintro ⟨w, hw, hproc⟩
      exact hout w hw hproc
  | waits evs htrace hreps w hw hproc hlive =>
    unfold StageAt
    rw [socket_afterMain htrace, hreps, push_nil]
    exact .script c req hwaiting hreq htoMain htoWorker hnum ((closed_eq _ id).2 ⟨hended, hlive⟩)
      ⟨w, hw, hproc⟩

/-- Main removes a worker that waits for nothing it has not sent. -/
theorem StageAt.removed (h : StageAt s id) (hl : ¬ (s.socket id).Unanswered) {down : ScriptCall}
    (hm : Moves plat cfg s.main (.remove id down) m.view) (hinv : ScriptInv s.main) :
    StageAt (s.afterMain m) id := by
  generalize hv : m.view = v' at hm
  cases hm with
  | @removed _ _ p hfind =>
    have htrace : m.trace = s.main.trace ++ removeEvents id p.status down :=
      congrArg View.trace hv
    have hscripts : m.scripts = Table.others ScriptWait.proc s.main.scripts id :=
      (congrArg View.scripts hv).trans (Table.eraseP_eq_others hinv.view.procs id)
    have hreps : cookieReps (s.cookieCall id) id (removeEvents id p.status down) = [] := by
      refine List.filterMap_eq_nil_iff.2 ?_
      intro ev hev
      obtain rfl | ⟨-, rfl | rfl | ⟨pid, rfl⟩⟩ := mem_removeEvents hev <;> rfl
    unfold StageAt
    rw [socket_afterMain htrace, hreps, push_nil]
    refine Stage.settled h hl ?_
    rintro ⟨w, hw, hproc⟩
    rw [show (s.afterMain m).main.scripts = _ from hscripts] at hw
    exact absurd hproc (Table.mem_others.1 hw).2

/-- A step of main, when it is clear what becomes of the worker that it is about. -/
theorem ChannelInv.mainStep (hinv : ScriptInv s.main)
    (hright : ∀ id, ∀ e ∈ (s.socket id).log, e.Right)
    (hothers : ∀ k, i.about s.main ≠ some k → StageAt s k)
    (hown : ∀ k m, i.about s.main = some k → Moves plat cfg s.main i m.view →
      StageAt (s.afterMain m) k)
    (hs : s.mainStep plat cfg i = some s') : ChannelInv s' := by
  obtain ⟨m, rfl, hm, hinv'⟩ := mainStep_eq_some hinv hs
  refine ⟨hinv', ?_, hright⟩
  intro k
  by_cases hk : i.about s.main = some k
  · exact hown k m hk hm
  · exact (hothers k hk).frame (hm.frame hinv.view hk)

/-- Another socket is written. -/
theorem stageAt_setSocket_of_ne {k : ℕ} (hk : k ≠ id) (l : CmdSocket) :
    StageAt (s.setSocket id l) k ↔ StageAt s k := by
  unfold StageAt ChannelSt.setSocket
  dsimp only
  rw [Function.update_of_ne hk]
  rfl

/-- The invariant while main, or a worker, is at work on the socket of the worker. -/
structure AtSocket (s : ChannelSt) (id : ℕ) : Prop where
  script : ScriptInv s.main
  others : ∀ k, k ≠ id → StageAt s k
  right : ∀ k, ∀ e ∈ (s.socket k).log, e.Right

theorem ChannelInv.atSocket (h : ChannelInv s) (id : ℕ) : AtSocket s id :=
  ⟨h.script, fun k _ => h.stage k, h.right⟩

/-- A socket is written. -/
theorem AtSocket.write (h : AtSocket s id) (hlog : ∀ e ∈ l.log, e.Right) :
    AtSocket (s.setSocket id l) id := by
  refine ⟨h.script, fun k hk => (stageAt_setSocket_of_ne hk l).2 (h.others k hk), ?_⟩
  intro k
  show ∀ e ∈ (Function.update s.socket id l k).log, e.Right
  by_cases hk : k = id
  · rw [hk, Function.update_self]
    exact hlog
  · rw [Function.update_of_ne hk]
    exact h.right k

theorem AtSocket.setSocket (h : AtSocket s id)
    (hl : Stage l (s.cookieCall id) (s.closed id = false) (∃ w ∈ s.main.scripts, w.proc = id))
    (hlog : ∀ e ∈ l.log, e.Right) : ChannelInv (s.setSocket id l) := by
  have hwrite := h.write hlog
  refine ⟨hwrite.script, ?_, hwrite.right⟩
  intro k
  by_cases hk : k = id
  · subst hk
    show Stage (Function.update s.socket k l k) _ _ _
    rw [Function.update_self]
    exact hl
  · exact hwrite.others k hk

/-- A worker reads a message. -/
theorem right_snoc {log : List Received} (h : ∀ e ∈ log, e.Right) {e : Received} (he : e.Right) :
    ∀ e' ∈ log ++ [e], e'.Right := by
  intro e' hmem
  rcases List.mem_append.1 hmem with hmem | hmem
  · exact h e' hmem
  · exact List.mem_singleton.1 hmem ▸ he

/-- A worker whose socket is open is one of main. -/
theorem exists_of_open (h : s.closed id = false) : ∃ p, s.main.st.find id = some p := by
  obtain ⟨-, hstatus⟩ := (closed_eq s id).1 h
  exact Option.ne_none_iff_exists'.1 fun hnone : s.main.st.find id = none =>
    hstatus (congrArg (Option.map Proc.status) hnone)

theorem NobodyWaits.not_unanswered (h : NobodyWaits s) (hstage : StageAt s id) :
    ¬ (s.socket id).Unanswered := by
  intro hl
  obtain ⟨p, hfind⟩ := exists_of_open (Stage.live_of_unanswered hstage hl)
  obtain ⟨hp, rfl⟩ := Table.mem_of_find? hfind
  exact h p hp hl

/-- Main ends while no worker waits. -/
theorem ChannelInv.terminate (h : ChannelInv s) (hnobody : NobodyWaits s) :
    ChannelInv { s with ended := true } :=
  ⟨h.script, fun k => Stage.settled (h.stage k) (hnobody.not_unanswered (h.stage k)) id, h.right⟩

/-- Main starts with an `AUTH_COOKIE_REQ`. -/
theorem AtSocket.cookieCall (h : AtSocket s id) (num : ℕ) :
    AtSocket { s with cookieCall := Function.update s.cookieCall id num } id := by
  refine ⟨h.script, ?_, h.right⟩
  intro k hk
  unfold StageAt
  dsimp only
  rw [Function.update_of_ne hk]
  exact h.others k hk

/-- **Main serves the request** of a worker that waits for the reply. -/
theorem AtSocket.answers (h : AtSocket s id) {c : Call} {e : CommandsEnv}
    (hwaiting : (s.socket id).waiting = some c) (htoMain : (s.socket id).toMain = [])
    (htoWorker : (s.socket id).toWorker = []) (hlive : s.closed id = false)
    (hout : ¬ ∃ w ∈ s.main.scripts, w.proc = id) (hread : e.read = true)
    (hanswers : Answers plat cfg s id c e) (hs : s.handleCommands plat cfg id c e = some s') :
    ChannelInv s' := by
  obtain ⟨num, req⟩ := c
  unfold ChannelSt.handleCommands at hs
  rw [hread, if_neg (by decide)] at hs
  cases req with
  | authCookie req =>
    have hcall := h.cookieCall num
    refine ChannelInv.mainStep hcall.script hcall.right (fun k hk => ?_) ?_ hs
    · exact hcall.others k fun heq => hk (congrArg some heq.symm)
    · rintro k m ⟨⟩ hm
      obtain ⟨hended, -⟩ := (closed_eq s id).1 hlive
      obtain ⟨p, hfind⟩ := exists_of_open hlive
      obtain ⟨hidle, hsent⟩ := hanswers p hfind
      exact stageAt_answered hwaiting rfl htoMain htoWorker (Function.update_self ..) hended
        (hm.cookieReq_answered h.script.view hfind hidle hsent)
  | resumeFetch =>
    obtain ⟨hreqs, hsend⟩ := hanswers
    dsimp only at hs
    rw [hreqs, hsend] at hs
    cases hs
    refine AtSocket.setSocket ⟨h.script, h.others, h.right⟩ ?_ (h.right id)
    refine .answered ⟨num, .resumeFetch⟩ (.resumeFetchRep num) [] hwaiting htoMain ?_ ⟨rfl, rfl⟩
      nofun hout
    show (s.socket id).toWorker ++ _ = _
    rw [htoWorker, List.nil_append]
  | banIp => exact hanswers.elim

/-- Main serves a request of a worker that has exited. -/
theorem AtSocket.exited (h : AtSocket s id) {c : Call} {e : CommandsEnv}
    (hexited : (s.socket id).exited = true) (hwaiting : (s.socket id).waiting = none)
    (hnobody : e.read = true → c.req = .banIp → NobodyWaits s)
    (hs : s.handleCommands plat cfg id c e = some s') : ChannelInv s' := by
  have hinv : ChannelInv s := by
    refine ⟨h.script, ?_, h.right⟩
    intro k
    by_cases hk : k = id
    · exact hk ▸ .exited hexited hwaiting
    · exact h.others k hk
  -- what main does to the worker does not matter
  have main : ∀ {i : ScriptLabel} {t : ChannelSt}, AtSocket t id →
      (t.socket id).exited = true → (t.socket id).waiting = none → i.about t.main = some id →
      t.mainStep plat cfg i = some s' → ChannelInv s' := by
    intro i t ht hexited hwaiting habout hs
    refine ChannelInv.mainStep ht.script ht.right (fun k hk => ht.others k ?_) ?_ hs
    · rintro rfl
      exact hk habout
    · intro k m hk hm
      obtain rfl : id = k := Option.some.inj (habout.symm.trans hk)
      exact .exited hexited hwaiting
  obtain ⟨num, req⟩ := c
  unfold ChannelSt.handleCommands at hs
  split at hs
  · exact main h hexited hwaiting rfl hs
  · rename_i hread
    cases req with
    | authCookie req =>
      exact main (h.cookieCall num) hexited hwaiting
        (i := .cookieReq id req e.env e.up e.down) rfl hs
    | resumeFetch =>
      dsimp only at hs
      split at hs
      · exact main h hexited hwaiting rfl hs
      · split at hs
        · cases hs
          exact AtSocket.setSocket ⟨h.script, h.others, h.right⟩ (.exited hexited hwaiting)
            (h.right id)
        · have hreqs : AtSocket { s with
              resumeReqs := Function.update s.resumeReqs id (s.resumeReqs id + 1) } id :=
            ⟨h.script, h.others, h.right⟩
          exact main hreqs hexited hwaiting (i := .remove id e.down) rfl hs
    | banIp =>
      cases hs
      exact hinv.terminate (hnobody (by simpa using hread) rfl)

/-- **A new worker.** -/
theorem ChannelInv.newWorker (h : ChannelInv s) {pid : ℤ} (addr : Bytes)
    (hs : s.mainStep plat cfg (.connect pid) = some s') :
    ChannelInv (s'.newWorker s.main.st.nextProc addr) := by
  obtain ⟨m, rfl, hm, hinv'⟩ := mainStep_eq_some h.script hs
  have hat : AtSocket (s.afterMain m) s.main.st.nextProc := by
    refine ⟨hinv', ?_, h.right⟩
    intro k hk
    exact (h.stage k).frame (hm.frame h.script.view fun heq => hk (Option.some.inj heq).symm)
  have hidle : m.view.status s.main.st.nextProc = some .inactive := by
    generalize hv : m.view = v' at hm
    cases hm with
    | connect hfresh => exact Function.update_self ..
  have hsocket : ChannelInv ((s.afterMain m).setSocket s.main.st.nextProc .fresh) := by
    refine hat.setSocket (.idle rfl rfl nofun ?_) nofun
    rintro ⟨w, hw, hproc⟩
    exact hinv'.view.out_of_idle hidle w hw hproc
  exact ⟨hsocket.script, hsocket.stage, hsocket.right⟩

/-- **Main reads a request.** -/
theorem ChannelInv.handleCommands (h : ChannelInv s) {e : CommandsEnv}
    (hi : Uncrossed plat cfg unixConnFile s (.handleCommands id e))
    (hs : (channelMachine plat cfg unixConnFile).step s (.handleCommands id e) = some s') :
    ChannelInv s' := by
  simp only [channelMachine, Option.ite_none_left_eq_some, Bool.not_eq_true] at hs
  obtain ⟨hlive, hs⟩ := hs
  split at hs
  · cases hs
  · rename_i c toMain htoMain
    have hi : if e.read = true ∧ c.req = .banIp then NobodyWaits s
        else (s.socket id).Unanswered → e.read = true ∧ Answers plat cfg s id c e :=
      hi c (by rw [htoMain]; rfl)
    have hat := (h.atSocket id).write (l := { s.socket id with toMain := toMain }) (h.right id)
    have hself : (s.setSocket id { s.socket id with toMain := toMain }).socket id =
        { s.socket id with toMain := toMain } := Function.update_self ..
    cases h.stage id with
    | asked c' hwaiting htoMain' htoWorker hlive' hout =>
      obtain ⟨rfl, rfl⟩ : c = c' ∧ toMain = [] := by simpa using htoMain.symm.trans htoMain'
      have hunanswered : (s.socket id).Unanswered :=
        CmdSocket.unanswered hwaiting htoWorker
      split at hi
      · exact absurd hunanswered (hi.not_unanswered (h.stage id))
      · obtain ⟨hread, hanswers⟩ := hi hunanswered
        refine hat.answers (c := c) ?_ ?_ ?_ hlive hout hread hanswers hs
        · rw [hself]
          exact hwaiting
        · rw [hself]
        · rw [hself]
          exact htoWorker
    | exited hexited hwaiting =>
      refine hat.exited (by rw [hself]; exact hexited) (by rw [hself]; exact hwaiting) ?_ hs
      intro hread hban
      rw [if_pos ⟨hread, hban⟩] at hi
      intro p hp
      by_cases hid : p.id = id
      · rw [hid, hself]
        exact fun hl => hl.1 hwaiting
      · rw [show (s.setSocket id _).socket p.id = s.socket p.id from Function.update_of_ne hid ..]
        exact hi p hp
    | idle hwaiting htoMain' | script c' req hwaiting hreq htoMain'
    | answered c' m rest hwaiting htoMain' =>
      rw [htoMain] at htoMain'
      cases htoMain'

/-- **A script is over.** -/
theorem ChannelInv.childExit (h : ChannelInv s) {pid : ℤ} {status : BitVec 32} {sendOk : Bool}
    {down : ScriptCall}
    (hi : Uncrossed plat cfg unixConnFile s (.childExit pid status sendOk down))
    (hs : s.mainStep plat cfg (.childExit pid status sendOk down) = some s') :
    ChannelInv s' := by
  refine ChannelInv.mainStep h.script h.right (fun k _ => h.stage k) ?_ hs
  intro k m hk hm
  obtain ⟨w, hfound, rfl⟩ := Option.map_eq_some_iff.1 hk
  have hw := List.mem_of_find?_eq_some hfound
  obtain rfl : w.pid = pid := by simpa using List.find?_some hfound
  cases h.stage w.proc with
  | script c req hwaiting hreq htoMain htoWorker hnum hlive hin =>
    obtain rfl : sendOk = true := hi w hw rfl (CmdSocket.unanswered hwaiting htoWorker)
    exact stageAt_answered hwaiting hreq htoMain htoWorker hnum ((closed_eq s w.proc).1 hlive).1
      (hm.childExit_answered h.script.view hw)
  | exited hexited hwaiting => exact .exited hexited hwaiting
  | idle hwaiting htoMain hudp hout => exact absurd ⟨w, hw, rfl⟩ hout
  | asked c hwaiting htoMain htoWorker hlive hout => exact absurd ⟨w, hw, rfl⟩ hout
  | answered c m' rest hwaiting htoMain htoWorker hm' hudp hout => exact absurd ⟨w, hw, rfl⟩ hout

/-- **A datagram.** -/
theorem ChannelInv.forward (h : ChannelInv s) {buffer : List UInt8} {addr : Bytes}
    {e : DatagramEnv} (hi : Uncrossed plat cfg unixConnFile s (.datagram buffer addr e)) :
    ChannelInv (s.forward unixConnFile buffer addr e) := by
  unfold ChannelSt.forward
  split
  · exact h
  · rename_i k msg hforward
    obtain ⟨hheader, howner, hready⟩ :=
      (forwardUdpToOwner_iff (s.forwardEnv unixConnFile addr e) buffer k).1 ⟨msg, hforward⟩
    split
    · rename_i hsend
      have hl := hi k howner hheader hready hsend
      have hset := (h.atSocket k).setSocket (Stage.pushUdp (h.stage k) hl msg) (h.right k)
      exact ⟨hset.script, hset.stage, hset.right⟩
    · exact h

/-- **One step** that crosses no call keeps the channels aligned. -/
theorem ChannelInv.step (h : ChannelInv s) {i : ChannelLabel}
    (hi : Uncrossed plat cfg unixConnFile s i)
    (hs : (channelMachine plat cfg unixConnFile).step s i = some s') : ChannelInv s' := by
  cases i with
  | connect pid addr =>
    simp only [channelMachine, Option.ite_none_left_eq_some] at hs
    obtain ⟨-, hs⟩ := hs
    obtain ⟨t, ht, rfl⟩ := Option.map_eq_some_iff.1 hs
    exact h.newWorker addr ht
  | handleCommands id e => exact h.handleCommands hi hs
  | childExit pid status sendOk down =>
    simp only [channelMachine, Option.ite_none_left_eq_some] at hs
    exact h.childExit hi hs.2
  | remove id down =>
    simp only [channelMachine, Option.ite_none_left_eq_some] at hs
    refine ChannelInv.mainStep h.script h.right (fun k _ => h.stage k) ?_ hs.2
    rintro k m ⟨⟩ hm
    exact (h.stage id).removed hi hm h.script
  | terminate =>
    cases hs
    exact h.terminate hi
  | datagram buffer addr e =>
    simp only [channelMachine, Option.ite_none_left_eq_some, Option.some.injEq] at hs
    obtain ⟨-, rfl⟩ := hs
    exact h.forward hi
  | request id req =>
    simp only [channelMachine, Option.ite_none_left_eq_some, Bool.not_eq_true] at hs
    obtain ⟨hlive, hs⟩ := hs
    obtain ⟨l, hl, rfl⟩ := Option.map_eq_some_iff.1 hs
    obtain ⟨hstage, hlog⟩ := Stage.request (h.stage id) hlive hi hl
    exact (h.atSocket id).setSocket hstage (hlog ▸ h.right id)
  | recvMsg id =>
    obtain ⟨l, hl, rfl⟩ := Option.map_eq_some_iff.1 hs
    obtain ⟨hstage, e, he, hlog⟩ := Stage.recvMsg (h.stage id)
      (fun hclosed hlive => absurd (hlive.symm.trans hclosed) (by decide)) hl
    exact (h.atSocket id).setSocket hstage (hlog ▸ right_snoc (h.right id) he)
  | enterLoop id =>
    obtain ⟨l, hl, rfl⟩ := Option.map_eq_some_iff.1 hs
    obtain ⟨hstage, hlog⟩ := Stage.enterLoop (h.stage id) hl
    exact (h.atSocket id).setSocket hstage (hlog ▸ h.right id)
  | handleWorkerCommands id =>
    obtain ⟨l, hl, rfl⟩ := Option.map_eq_some_iff.1 hs
    obtain ⟨hstage, e, he, hlog⟩ := Stage.handleWorkerCommands (h.stage id) hl
    exact (h.atSocket id).setSocket hstage (hlog ▸ right_snoc (h.right id) he)
  | exit id report =>
    cases hs
    exact (h.atSocket id).setSocket (.exited rfl rfl) (h.right id)

end Step

/-! ### Runs -/

/-- **The channels stay request/reply aligned** in every state of a run in which no step crosses a
call. -/
theorem aligned_always {ls : List ChannelLabel}
    (h : (channelMachine plat cfg unixConnFile).Meets (Uncrossed plat cfg unixConnFile)
      channelStart ls) :
    (channelMachine plat cfg unixConnFile).Always Aligned channelStart ls :=
  (Machine.always_of_step (P := ChannelInv) (fun _ _ _ h hi hs => h.step hi hs) channelStart_inv
    h).imp fun _ hs => hs.aligned

instance (s : ChannelSt) : Decidable (NobodyWaits s) := by
  unfold NobodyWaits
  infer_instance

instance (plat : Platform) (cfg : Config) (s : ChannelSt) (id : ℕ) (c : Call) (h : CommandsEnv) :
    Decidable (Answers plat cfg s id c h) := by
  unfold Answers
  split <;> infer_instance

instance (plat : Platform) (cfg : Config) (unixConnFile : Bool) (s : ChannelSt)
    (i : ChannelLabel) : Decidable (Uncrossed plat cfg unixConnFile s i) := by
  unfold Uncrossed
  split <;> infer_instance

namespace Sample

/-- The address of the client. -/
def clientAddr : Bytes := [192, 0, 2, 1]

/-- A datagram that is no hello, from the address of the client. -/
def strayDatagram : ChannelLabel :=
  .datagram ([23, 1, 0] ++ List.replicate 90 0) clientAddr ⟨1000, true, true, true⟩

/-- What main finds for the request of a session, with a connect script. -/
def cookieEnv : CommandsEnv := ⟨true, environ [0] 5 none, connectScript 200, noScript⟩

/-- A worker asks for a session, which is granted when the connect script is over; then it starts
its data loop, and a datagram comes for it. -/
def sessionThenDatagram : List ChannelLabel :=
  [.connect 100 clientAddr, .request 0 .resumeFetch, .handleCommands 0 cookieEnv, .recvMsg 0,
    .request 0 (.authCookie [1]), .handleCommands 0 cookieEnv, .childExit 200 0 true noScript,
    .recvMsg 0, .enterLoop 0, strayDatagram, .handleWorkerCommands 0]

/-- A datagram comes while the request of a session waits for the connect script. -/
def datagramDuringScript : List ChannelLabel :=
  [.connect 100 clientAddr, .request 0 (.authCookie [1]), .handleCommands 0 cookieEnv,
    strayDatagram, .recvMsg 0]

end Sample

open Sample in
theorem aligned_always_session :
    (channelMachine platform config false).Always Aligned channelStart sessionThenDatagram :=
  aligned_always (by decide)

open Sample in
/-- The worker takes the socket for the reply to its request. -/
theorem not_aligned_duringScript :
    ∃ s, (channelMachine platform config false).run channelStart datagramDuringScript = some s ∧
      (s.socket 0).log = [.badCommand] ∧ ¬ Aligned s := by
  refine ⟨_, rfl, rfl, ?_⟩
  intro h
  exact h.right 0 .badCommand List.mem_cons_self

end Main

end Ocserv
