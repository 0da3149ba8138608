import Ocserv.Machine
import Ocserv.Ipc.Framing

/-!
# The channel between main and sec-mod

Main and sec-mod share one stream socket.  Main calls sec-mod with `SM_CMD_AUTH_SESSION_OPEN` and
`SM_CMD_AUTH_SESSION_CLOSE` (`session_open`, `session_close`), sec-mod calls main with
`SM_CMD_AUTH_BAN_IP` (`sec_mod_add_score_to_ip`); a caller blocks in `recv_msg` until a message
arrives and takes it for its reply.  A side that is not in a call serves what arrives
(`handle_sec_mod_commands`, `serve_request`).

Every call has a number, which its request and its reply carry in this model only; `log` holds
what the calls of `recv_msg` and the two servers got.

* `NoCrossing` : a call starts only while nothing is under way to the caller.
* `Aligned` : where the messages of the calls under way are.
-/

namespace Ocserv

namespace Ipc

/-! ### Commands -/

def smCmdAuthSessionOpen : UInt8 := 240
def smCmdAuthSessionClose : UInt8 := 241
def smCmdAuthSessionReply : UInt8 := 242
def smCmdAuthBanIp : UInt8 := 243
def smCmdAuthBanIpReply : UInt8 := 244
def smCmdAuthCliStats : UInt8 := 245

/-- The command the caller of `cmd` passes to `recv_msg`. -/
def replyTo (cmd : UInt8) : UInt8 :=
  if cmd = smCmdAuthSessionOpen then smCmdAuthSessionReply
  else if cmd = smCmdAuthSessionClose then smCmdAuthCliStats
  else smCmdAuthBanIpReply

/-- A message and the number of the call it belongs to. -/
structure Msg where
  cmd : UInt8
  call : ℕ
  deriving DecidableEq, Repr

/-- The message that answers a request. -/
def Msg.reply (m : Msg) : Msg := ⟨replyTo m.cmd, m.call⟩

/-- What a receiver got: the reply to the call number `got` in the call number `call`; a request
it serves; or `ERR_BAD_COMMAND`. -/
inductive Event where
  | reply (call got : ℕ)
  | request (call : ℕ)
  | badCommand
  deriving DecidableEq, Repr

/-- The receiver got what it should. -/
def Event.Right : Event → Prop
  | reply call got => got = call
  | request _ => True
  | badCommand => False

instance : DecidablePred Event.Right := fun e => by
  cases e <;> unfold Event.Right <;> infer_instance

/-- The two processes and the messages between them. -/
structure Channel where
  /-- The request main waits for the reply of. -/
  main : Option Msg
  /-- The request sec-mod waits for the reply of. -/
  secMod : Option Msg
  toSecMod : List Msg
  toMain : List Msg
  /-- The number of the next call. -/
  next : ℕ
  log : List Event
  deriving DecidableEq, Repr

/-- What the two processes do.  A worker's request to sec-mod may add points to the score of its
address, which is a call to main. -/
inductive Action where
  | sessionOpen
  | sessionClose
  | mainRecv
  | handleSecModCommands
  | workerAuth (addScore : Bool)
  | secModRecv
  | serveRequest
  deriving DecidableEq, Repr

namespace Channel

/-- Main sends a request and blocks in `recv_msg`. -/
def mainCall (cmd : UInt8) (s : Channel) : Option Channel :=
  match s.main with
  | some _ => none
  | none => some { s with
      main := some ⟨cmd, s.next⟩
      toSecMod := s.toSecMod ++ [⟨cmd, s.next⟩]
      next := s.next + 1 }

/-- What `recv_msg` returns for the message `m` in the call of the request `req`. -/
def recvMsg (req m : Msg) : Event :=
  if m.cmd = replyTo req.cmd then .reply req.call m.call else .badCommand

/-- One action.  After `ERR_BAD_COMMAND` the socket is left inside a message or the process
exits; the model ends there. -/
def step (s : Channel) (a : Action) : Option Channel :=
  if .badCommand ∈ s.log then none
  else
    match a with
    | .sessionOpen => mainCall smCmdAuthSessionOpen s
    | .sessionClose => mainCall smCmdAuthSessionClose s
    | .mainRecv =>
      match s.main, s.toMain with
      | some req, m :: toMain =>
        some { s with main := none, toMain := toMain, log := s.log ++ [recvMsg req m] }
      | _, _ => none
    | .handleSecModCommands =>
      match s.main, s.toMain with
      | none, m :: toMain =>
        if m.cmd = smCmdAuthBanIp then
          some { s with
            toMain := toMain
            toSecMod := s.toSecMod ++ [m.reply]
            log := s.log ++ [.request m.call] }
        else some { s with toMain := toMain, log := s.log ++ [.badCommand] }
      | _, _ => none
    | .workerAuth addScore =>
      match s.secMod with
      | some _ => none
      | none =>
        if addScore then some { s with
          secMod := some ⟨smCmdAuthBanIp, s.next⟩
          toMain := s.toMain ++ [⟨smCmdAuthBanIp, s.next⟩]
          next := s.next + 1 }
        else some s
    | .secModRecv =>
      match s.secMod, s.toSecMod with
      | some req, m :: toSecMod =>
        some { s with secMod := none, toSecMod := toSecMod, log := s.log ++ [recvMsg req m] }
      | _, _ => none
    | .serveRequest =>
      match s.secMod, s.toSecMod with
      | none, m :: toSecMod =>
        if m.cmd = smCmdAuthSessionOpen ∨ m.cmd = smCmdAuthSessionClose then
          some { s with
            toSecMod := toSecMod
            toMain := s.toMain ++ [m.reply]
            log := s.log ++ [.request m.call] }
        else some { s with toSecMod := toSecMod, log := s.log ++ [.badCommand] }
      | _, _ => none

/-- The machine of the channel. -/
def machine : Machine Channel Action := ⟨step⟩

/-- The channel before the first call. -/
def start : Channel := ⟨none, none, [], [], 0, []⟩

/-- Every receiver got what it should. -/
def Right (s : Channel) : Prop := ∀ e ∈ s.log, e.Right

instance : DecidablePred Right := fun s => by unfold Right; infer_instance

/-- A call starts only while nothing is under way to the caller. -/
def NoCrossing (s : Channel) : Action → Prop
  | .sessionOpen | .sessionClose => s.toMain = []
  | .workerAuth true => s.toSecMod = []
  | _ => True

/-! ### The calls under way -/

/-- Where a side is in its call: the request is on its way, or the reply. -/
inductive Phase where
  | idle
  | asked (req : Msg)
  | answered (req : Msg)

namespace Phase

/-- The request the side waits for the reply of. -/
def waits : Phase → Option Msg
  | idle => none
  | asked req | answered req => some req

/-- The request, if it is on its way. -/
def request : Phase → List Msg
  | asked req => [req]
  | _ => []

/-- The reply, if it is on its way. -/
def reply : Phase → List Msg
  | answered req => [req.reply]
  | _ => []

end Phase

/-- The messages on the channel are those of the calls under way, the replies before the
requests, and not both sides wait for the other to serve a request. -/
structure Aligned (s : Channel) (p q : Phase) : Prop where
  main_eq : s.main = p.waits
  secMod_eq : s.secMod = q.waits
  toSecMod_eq : s.toSecMod = q.reply ++ p.request
  toMain_eq : s.toMain = p.reply ++ q.request
  main_cmd : ∀ req, p.waits = some req →
    req.cmd = smCmdAuthSessionOpen ∨ req.cmd = smCmdAuthSessionClose
  secMod_cmd : ∀ req, q.waits = some req → req.cmd = smCmdAuthBanIp
  not_both : p.request = [] ∨ q.request = []

/-- `recvMsg` is `recv_socket_msg` on the bytes of the message, if it arrives whole. -/
theorem recvSocketMsg_eq_recvMsg {M : Type*} {c : Codec M} {mem : Bool} {body : M} {req m : Msg}
    {wire rest : List UInt8} (hsend : sendSocketMsg c mem m.cmd body = some wire)
    (hsize : 1 ≤ c.getSize body ∧ c.getSize body < 2 ^ 16) (d : Delivery wire rest)
    (hacc : d.accepted = 3 + c.getSize body) (hheader : d.header = 3) (junk : UInt8 × UInt8) :
    ∃ segs', recvSocketMsg c true (replyTo req.cmd) junk d.segs =
      some (if recvMsg req m = .badCommand then .error .badCommand else .ok (some body),
        segs') := by
  obtain ⟨segs', hrun⟩ :=
    recvSocketMsg_sent (replyTo req.cmd) hsend hsize d hacc hheader junk
  refine ⟨segs', ?_⟩
  rw [hrun, recvMsg]
  by_cases hcmd : m.cmd = replyTo req.cmd <;> simp [hcmd]

theorem recvMsg_reply (req : Msg) : recvMsg req req.reply = .reply req.call req.call := by
  simp [recvMsg, Msg.reply]

theorem Right.snoc {s : Channel} (h : s.Right) {e : Event} (he : e.Right) :
    ∀ e' ∈ s.log ++ [e], e'.Right := by
  intro e' h'
  rcases List.mem_append.1 h' with h' | h'
  · exact h e' h'
  · exact List.mem_singleton.1 h' ▸ he

theorem mainCall_eq_some {s s' : Channel} {cmd : UInt8} :
    s.mainCall cmd = some s' ↔ s.main = none ∧ s' = { s with
      main := some ⟨cmd, s.next⟩
      toSecMod := s.toSecMod ++ [⟨cmd, s.next⟩]
      next := s.next + 1 } := by
  unfold Channel.mainCall
  split
  · rename_i h; simp [h]
  · rename_i h; simp [h, eq_comm]

/-- A call of main that does not cross keeps the channel aligned. -/
theorem Aligned.mainCall {s s' : Channel} {p q : Phase} (h : s.Aligned p q) {cmd : UInt8}
    (hcmd : cmd = smCmdAuthSessionOpen ∨ cmd = smCmdAuthSessionClose) (hC : s.toMain = [])
    (hs : s.mainCall cmd = some s') :
    s'.Aligned (.asked ⟨cmd, s.next⟩) q ∧ s'.log = s.log := by
  obtain ⟨hmain, rfl⟩ := mainCall_eq_some.1 hs
  · have hp : p.request = [] := by
      have := h.main_eq.symm.trans hmain
      cases p with
      | idle => rfl
      | asked req => cases this
      | answered req => rfl
    have hq := hC ▸ h.toMain_eq
    rw [List.nil_eq, List.append_eq_nil_iff] at hq
    refine ⟨⟨rfl, h.secMod_eq, ?_, ?_, ?_, h.secMod_cmd, .inr hq.2⟩, rfl⟩
    · simp only [h.toSecMod_eq, hp, List.append_nil]
      rfl
    · simp only [hC, hq.2]
      rfl
    · intro req hreq
      cases hreq
      exact hcmd

/-- In its `recv_msg` main finds the reply. -/
theorem Aligned.mainRecv {s : Channel} {p q : Phase} (h : s.Aligned p q) {req m : Msg}
    {toMain : List Msg} (hmain : s.main = some req) (hto : s.toMain = m :: toMain) :
    m = req.reply ∧ Aligned
      { s with main := none, toMain := toMain, log := s.log ++ [recvMsg req m] } .idle q := by
  have hto' := h.toMain_eq.symm.trans hto
  have hwait := h.main_eq.symm.trans hmain
  cases p with
  | idle => cases hwait
  | asked req' =>
    -- sec-mod is not waiting for main, so nothing else is under way to main
    have hq := h.not_both.resolve_left (by simp [Phase.request])
    rw [hq] at hto'
    cases hto'
  | answered req' =>
    cases hwait
    cases hto'
    exact ⟨rfl, rfl, h.secMod_eq, h.toSecMod_eq, rfl, (fun _ h => nomatch h), h.secMod_cmd,
      .inl rfl⟩

/-- Outside its calls main finds requests of sec-mod. -/
theorem Aligned.handleSecModCommands {s : Channel} {p q : Phase} (h : s.Aligned p q) {m : Msg}
    {toMain : List Msg} (hmain : s.main = none) (hto : s.toMain = m :: toMain) :
    m.cmd = smCmdAuthBanIp ∧ Aligned
      { s with
        toMain := toMain
        toSecMod := s.toSecMod ++ [m.reply]
        log := s.log ++ [.request m.call] } p (.answered m) := by
  have hto' := h.toMain_eq.symm.trans hto
  have hwait := h.main_eq.symm.trans hmain
  cases p with
  | asked req => cases hwait
  | answered req => cases hwait
  | idle =>
    cases q with
    | idle => cases hto'
    | answered req => cases hto'
    | asked req =>
      cases hto'
      refine ⟨h.secMod_cmd _ rfl, h.main_eq, h.secMod_eq, ?_, rfl, h.main_cmd, h.secMod_cmd,
        .inl rfl⟩
      simp only [h.toSecMod_eq]
      rfl

/-- A call of sec-mod that does not cross keeps the channel aligned. -/
theorem Aligned.secModCall {s : Channel} {p q : Phase} (h : s.Aligned p q)
    (hC : s.toSecMod = []) (hsec : s.secMod = none) :
    Aligned
      { s with
        secMod := some ⟨smCmdAuthBanIp, s.next⟩
        toMain := s.toMain ++ [⟨smCmdAuthBanIp, s.next⟩]
        next := s.next + 1 } p (.asked ⟨smCmdAuthBanIp, s.next⟩) := by
  have hq : q.request = [] := by
    have := h.secMod_eq.symm.trans hsec
    cases q with
    | idle => rfl
    | asked req => cases this
    | answered req => rfl
  have hp := hC ▸ h.toSecMod_eq
  rw [List.nil_eq, List.append_eq_nil_iff] at hp
  refine ⟨h.main_eq, rfl, ?_, ?_, h.main_cmd, ?_, .inl hp.2⟩
  · simp only [hC, hp.2]
    rfl
  · simp only [h.toMain_eq, hq, List.append_nil]
    rfl
  · intro req hreq
    cases hreq
    rfl

/-- In its `recv_msg` sec-mod finds the reply. -/
theorem Aligned.secModRecv {s : Channel} {p q : Phase} (h : s.Aligned p q) {req m : Msg}
    {toSecMod : List Msg} (hsec : s.secMod = some req) (hto : s.toSecMod = m :: toSecMod) :
    m = req.reply ∧ Aligned
      { s with secMod := none, toSecMod := toSecMod, log := s.log ++ [recvMsg req m] }
      p .idle := by
  have hto' := h.toSecMod_eq.symm.trans hto
  have hwait := h.secMod_eq.symm.trans hsec
  cases q with
  | idle => cases hwait
  | asked req' =>
    have hp := h.not_both.resolve_right (by simp [Phase.request])
    rw [hp] at hto'
    cases hto'
  | answered req' =>
    cases hwait
    cases hto'
    exact ⟨rfl, h.main_eq, rfl, rfl, h.toMain_eq, h.main_cmd, (fun _ h => nomatch h), .inr rfl⟩

/-- Outside its calls sec-mod finds requests of main. -/
theorem Aligned.serveRequest {s : Channel} {p q : Phase} (h : s.Aligned p q) {m : Msg}
    {toSecMod : List Msg} (hsec : s.secMod = none) (hto : s.toSecMod = m :: toSecMod) :
    (m.cmd = smCmdAuthSessionOpen ∨ m.cmd = smCmdAuthSessionClose) ∧ Aligned
      { s with
        toSecMod := toSecMod
        toMain := s.toMain ++ [m.reply]
        log := s.log ++ [.request m.call] } (.answered m) q := by
  have hto' := h.toSecMod_eq.symm.trans hto
  have hwait := h.secMod_eq.symm.trans hsec
  cases q with
  | asked req => cases hwait
  | answered req => cases hwait
  | idle =>
    cases p with
    | idle => cases hto'
    | answered req => cases hto'
    | asked req =>
      cases hto'
      refine ⟨h.main_cmd _ rfl, h.main_eq, h.secMod_eq, rfl, ?_, h.main_cmd, h.secMod_cmd,
        .inl rfl⟩
      simp only [h.toMain_eq]
      rfl

/-- **The step lemma.** -/
theorem step_aligned {s s' : Channel} {a : Action} (h : ∃ p q, s.Aligned p q) (hr : s.Right)
    (hC : s.NoCrossing a) (hs : s.step a = some s') : (∃ p q, s'.Aligned p q) ∧ s'.Right := by
  obtain ⟨p, q, h⟩ := h
  unfold step at hs
  split at hs
  · cases hs
  · cases a with
    | sessionOpen =>
      obtain ⟨h', hlog⟩ := h.mainCall (.inl rfl) hC hs
      exact ⟨⟨_, _, h'⟩, by rw [Right, hlog]; exact hr⟩
    | sessionClose =>
      obtain ⟨h', hlog⟩ := h.mainCall (.inr rfl) hC hs
      exact ⟨⟨_, _, h'⟩, by rw [Right, hlog]; exact hr⟩
    | mainRecv =>
      simp only at hs
      split at hs
      · rename_i req m toMain hmain hto
        cases hs
        obtain ⟨rfl, h'⟩ := h.mainRecv hmain hto
        exact ⟨⟨_, _, h'⟩, hr.snoc (by rw [recvMsg_reply]; rfl)⟩
      · cases hs
    | handleSecModCommands =>
      simp only at hs
      split at hs
      · rename_i m toMain hmain hto
        obtain ⟨hcmd, h'⟩ := h.handleSecModCommands hmain hto
        rw [if_pos hcmd] at hs
        cases hs
        exact ⟨⟨_, _, h'⟩, hr.snoc trivial⟩
      · cases hs
    | workerAuth addScore =>
      simp only at hs
      split at hs
      · cases hs
      · rename_i hsec
        cases addScore with
        | false => cases hs; exact ⟨⟨_, _, h⟩, hr⟩
        | true => cases hs; exact ⟨⟨_, _, h.secModCall hC hsec⟩, hr⟩
    | secModRecv =>
      simp only at hs
      split at hs
      · rename_i req m toSecMod hsec hto
        cases hs
        obtain ⟨rfl, h'⟩ := h.secModRecv hsec hto
        exact ⟨⟨_, _, h'⟩, hr.snoc (by rw [recvMsg_reply]; rfl)⟩
      · cases hs
    | serveRequest =>
      simp only at hs
      split at hs
      · rename_i m toSecMod hsec hto
        obtain ⟨hcmd, h'⟩ := h.serveRequest hsec hto
        rw [if_pos hcmd] at hs
        cases hs
        exact ⟨⟨_, _, h'⟩, hr.snoc trivial⟩
      · cases hs

theorem start_aligned : start.Aligned .idle .idle :=
  ⟨rfl, rfl, rfl, rfl, (fun _ h => nomatch h), (fun _ h => nomatch h), .inl rfl⟩

theorem always_aligned {as : List Action} (h : machine.Meets NoCrossing start as) :
    machine.Always (fun s => (∃ p q, s.Aligned p q) ∧ s.Right) start as :=
  Machine.always_of_step (fun _ _ _ hs hC hstep => step_aligned hs.1 hs.2 hC hstep)
    ⟨⟨_, _, start_aligned⟩, by simp [Right, start]⟩ h

/-! ### Calls that cross -/

/-- The `recv_msg` of the side that starts a call. -/
def recvOf : Action → Action
  | .workerAuth _ => .secModRecv
  | _ => .mainRecv

/-- A call of main that crosses a call of sec-mod ends in `ERR_BAD_COMMAND`. -/
theorem mainRecv_of_crossing {s s' : Channel} {p q : Phase} (h : s.Aligned p q) {cmd : UInt8}
    (hcmd : cmd = smCmdAuthSessionOpen ∨ cmd = smCmdAuthSessionClose) (hC : s.toMain ≠ [])
    (hbad : .badCommand ∉ s.log) (hs : s.mainCall cmd = some s') :
    ∃ s'', s'.step .mainRecv = some s'' ∧ .badCommand ∈ s''.log := by
  obtain ⟨hmain, rfl⟩ := mainCall_eq_some.1 hs
  cases p with
  | asked req => exact absurd (h.main_eq.symm.trans hmain) (by simp [Phase.waits])
  | answered req => exact absurd (h.main_eq.symm.trans hmain) (by simp [Phase.waits])
  | idle =>
    cases q with
    | idle => exact absurd h.toMain_eq hC
    | answered req => exact absurd h.toMain_eq hC
    | asked req =>
      have hto : s.toMain = [req] := h.toMain_eq
      have hban : req.cmd = smCmdAuthBanIp := h.secMod_cmd req rfl
      have hne : recvMsg ⟨cmd, s.next⟩ req = .badCommand := by
        rw [recvMsg, hban, if_neg]
        rcases hcmd with rfl | rfl <;> dsimp only <;> decide
      simp only [step, hbad, hto, if_false, hne]
      exact ⟨_, rfl, by simp⟩

/-- A call of sec-mod that crosses a call of main ends in `ERR_BAD_COMMAND`. -/
theorem secModRecv_of_crossing {s : Channel} {p q : Phase} (h : s.Aligned p q)
    (hC : s.toSecMod ≠ []) (hbad : .badCommand ∉ s.log) (hsec : s.secMod = none) :
    ∃ s'', step
      { s with
        secMod := some ⟨smCmdAuthBanIp, s.next⟩
        toMain := s.toMain ++ [⟨smCmdAuthBanIp, s.next⟩]
        next := s.next + 1 } .secModRecv = some s'' ∧ .badCommand ∈ s''.log := by
  cases q with
  | asked req => exact absurd (h.secMod_eq.symm.trans hsec) (by simp [Phase.waits])
  | answered req => exact absurd (h.secMod_eq.symm.trans hsec) (by simp [Phase.waits])
  | idle =>
    cases p with
    | idle => exact absurd h.toSecMod_eq hC
    | answered req => exact absurd h.toSecMod_eq hC
    | asked req =>
      have hto : s.toSecMod = [req] := h.toSecMod_eq
      have hne : recvMsg ⟨smCmdAuthBanIp, s.next⟩ req = .badCommand := by
        rw [recvMsg, if_neg]
        rcases h.main_cmd req rfl with hcmd | hcmd <;> rw [hcmd] <;> dsimp only <;> decide
      simp only [step, hbad, hto, if_false, hne]
      exact ⟨_, rfl, by simp⟩

theorem recv_of_crossing {s s' : Channel} {p q : Phase} {a : Action} (h : s.Aligned p q)
    (hC : ¬ s.NoCrossing a) (hs : s.step a = some s') :
    ∃ s'', s'.step (recvOf a) = some s'' ∧ .badCommand ∈ s''.log := by
  unfold step at hs
  split at hs
  · cases hs
  · rename_i hbad
    cases a with
    | sessionOpen => exact mainRecv_of_crossing h (.inl rfl) hC hbad hs
    | sessionClose => exact mainRecv_of_crossing h (.inr rfl) hC hbad hs
    | mainRecv => exact absurd trivial hC
    | handleSecModCommands => exact absurd trivial hC
    | workerAuth addScore =>
      simp only at hs
      split at hs
      · cases hs
      · rename_i hsec
        cases addScore with
        | false => exact absurd trivial hC
        | true => cases hs; exact secModRecv_of_crossing h hC hbad hsec
    | secModRecv => exact absurd trivial hC
    | serveRequest => exact absurd trivial hC

/-- **The channel stays request/reply aligned** in every state of a run in which no call crosses
another one; and a call after it that does cross ends in `ERR_BAD_COMMAND`. -/
theorem replies_right {as : List Action} (h : machine.Meets NoCrossing start as) :
    machine.Always Right start as ∧
    ∀ a s s', machine.run start as = some s → ¬ s.NoCrossing a → machine.step s a = some s' →
      ∃ s'', machine.step s' (recvOf a) = some s'' ∧ ¬ s''.Right := by
  refine ⟨(always_aligned h).imp fun _ h => h.2, ?_⟩
  intro a s s' hrun hC hs
  obtain ⟨⟨p, q, hal⟩, -⟩ := (always_aligned h).last hrun
  obtain ⟨s'', hs'', hbad⟩ := recv_of_crossing hal hC hs
  exact ⟨s'', hs'', fun hr => hr _ hbad⟩

instance (s : Channel) (a : Action) : Decidable (s.NoCrossing a) := by
  unfold NoCrossing
  split <;> infer_instance

/-- Main opens a session, and after it sec-mod reports a failed authentication. -/
def twoCalls : List Action :=
  [.sessionOpen, .serveRequest, .mainRecv, .workerAuth true, .handleSecModCommands, .secModRecv]

theorem replies_right_twoCalls : machine.Always Right start twoCalls :=
  (replies_right (by decide)).1

/-- Sec-mod reports a failed authentication while main opens a session. -/
theorem not_right_of_crossing :
    ∃ s, machine.run start [.workerAuth true, .sessionOpen, .mainRecv] = some s ∧ ¬ s.Right := by
  refine ⟨_, rfl, by decide⟩

end Channel

end Ipc

end Ocserv
