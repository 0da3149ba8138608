import Mathlib.Data.List.Chain
import Mathlib.Data.List.TakeWhile
import Ocserv.SecMod.Entry
import Ocserv.Trace
import Ocserv.Worker.Headers

/-!
# Sec-mod: the conversation with a PAM stack

`src/auth/pam.c` runs a PAM stack in a coroutine.  When the stack asks for something, `ocserv_conv`
switches back to the function that called it: `pam_auth_msg` gives what the stack had to say to the
client, and `pam_auth_pass` continues the stack with the answer.  Both sides use one buffer for the
messages.

* `conversation_faithful_iff` : when the client is shown the messages that come with a prompt.
-/

namespace Ocserv

namespace SecMod

namespace PamConv

open Trace (Guarded guarded_append)
open Worker (ascii cString)

/-! ### A PAM stack -/

def pamSuccess : ℤ := 0
def pamNewAuthtokReqd : ℤ := 12
def pamConvErr : ℤ := 19

/-- The style of a message: `PAM_PROMPT_ECHO_OFF` and so on. -/
inductive Style where
  | promptEchoOff
  | promptEchoOn
  | errorMsg
  | textInfo
  | other
  deriving DecidableEq, Repr

/-- `pam_message`. -/
structure Message where
  style : Style
  msg : Bytes
  deriving DecidableEq, Repr

/-- What a function of the stack does: it returns, or it calls `ocserv_conv` and goes on with the
replies. -/
inductive Conv (α : Type) where
  | ret (a : α)
  | call (msgs : List Message) (k : List (Option Bytes) → Conv α)

/-- `pam_chauthtok`, `pam_acct_mgmt` and `pam_authenticate`; the result of a function comes with the
function that may be called after it. -/
abbrev Chauthtok := Conv ℤ
abbrev AcctMgmt := Conv (ℤ × Chauthtok)
abbrev Authenticate := Conv (ℤ × AcctMgmt)

inductive PamFn where
  | authenticate
  | acctMgmt
  | chauthtok
  deriving DecidableEq, Repr

/-- What the two sides say: the messages, prompts and results of the stack and the replies that it
gets, and the calls of `pam_auth_msg` and `pam_auth_pass`. -/
inductive Event where
  | info (msg : Bytes)
  | prompt
  | reply (resp : Bytes)
  | result (f : PamFn) (pret : ℤ)
  | authMsg (ret : ℤ) (msg : Option Bytes)
  | authPass (pass : Bytes)
  | authPassRet (ret : ℤ)
  deriving DecidableEq, Repr

/-! ### The coroutine -/

/-- `PAM_S_*`. -/
inductive State where
  | init
  | waitForPass
  | complete
  deriving DecidableEq, Repr

/-- `pam_ctx_st`; the buffer is the text in it. -/
structure PamCtx where
  password : Bytes := []
  crRet : ℤ := 0
  changing : Bool := false
  msg : Bytes := []
  sentMsg : Bool := false
  state : State := .init
  deriving DecidableEq, Repr

/-- The context, and what has been said. -/
structure St where
  ctx : PamCtx
  trace : List Event

def St.log (s : St) (ev : Event) : St := { s with trace := s.trace ++ [ev] }

/-- The loop of `ocserv_conv`, until it ends with the replies, or up to the call of `co_resume`,
with the replies so far and the messages that follow. -/
def convLoop (s : St) (replies : List (Option Bytes)) :
    List Message → St × (List (Option Bytes) ⊕ List (Option Bytes) × List Message)
  | [] => (s, .inl replies)
  | m :: rest =>
    match m.style with
    | .errorMsg | .textInfo =>
      let ctx := { s.ctx with msg := s.ctx.msg ++ (cString m.msg ++ [32]), sentMsg := true }
      convLoop ({ s with ctx := ctx }.log (.info (cString m.msg))) (replies ++ [none]) rest
    | .promptEchoOff | .promptEchoOn =>
      let ctx := { s.ctx with
        -- no message, just asking for password
        msg := if s.ctx.sentMsg then s.ctx.msg else []
        sentMsg := true
        state := .waitForPass
        crRet := pamSuccess }
      ({ s with ctx := ctx }.log .prompt, .inr (replies, rest))
    | .other => convLoop s (replies ++ [none]) rest

/-- A function of the stack whose `ocserv_conv` waits in `co_resume`. -/
structure Asking (α : Type) where
  replies : List (Option Bytes)
  rest : List Message
  k : List (Option Bytes) → Conv α

/-- Run a function of the stack until it returns or asks. -/
def runConv {α : Type} : Conv α → St → St × (α ⊕ Asking α)
  | .ret a, s => (s, .inl a)
  | .call msgs k, s =>
    match convLoop s [] msgs with
    | (s, .inl replies) => runConv (k replies) s
    | (s, .inr (replies, rest)) => (s, .inr ⟨replies, rest, k⟩)

/-- What follows `co_resume` in `ocserv_conv`, and the function after it. -/
def resume {α : Type} (a : Asking α) (s : St) : St × (α ⊕ Asking α) :=
  let resp := cString s.ctx.password
  let ctx := { s.ctx with state := .init, sentMsg := false }
  match convLoop ({ s with ctx := ctx }.log (.reply resp)) (a.replies ++ [some resp]) a.rest with
  | (s, .inl replies) => runConv (a.k replies) s
  | (s, .inr (replies, rest)) => (s, .inr ⟨replies, rest, a.k⟩)

/-- Where the coroutine is: before `co_auth_user`, in a function of the stack that asks, or in the
loop at the end. -/
inductive Co where
  | ready (f : Authenticate)
  | authenticate (a : Asking (ℤ × AcctMgmt))
  | acctMgmt (a : Asking (ℤ × Chauthtok))
  | chauthtok (a : Asking ℤ)
  | wait

/-- The end of `co_auth_user`. -/
def finish (s : St) (pret : ℤ) : St × Co :=
  if pret ≠ pamSuccess then ({ s with ctx := { s.ctx with crRet := pret } }, .wait)
  else ({ s with ctx := { s.ctx with state := .complete, crRet := pamSuccess } }, .wait)

/-- `co_auth_user` in `pam_chauthtok`. -/
def afterChauthtok : St × (ℤ ⊕ Asking ℤ) → St × Co
  | (s, .inr a) => (s, .chauthtok a)
  | (s, .inl pret) => finish (s.log (.result .chauthtok pret)) pret

/-- `co_auth_user` in `pam_acct_mgmt`. -/
def afterAcctMgmt : St × (ℤ × Chauthtok ⊕ Asking (ℤ × Chauthtok)) → St × Co
  | (s, .inr a) => (s, .acctMgmt a)
  | (s, .inl (pret, chauthtok)) =>
    let s := s.log (.result .acctMgmt pret)
    if pret = pamNewAuthtokReqd then
      afterChauthtok (runConv chauthtok { s with ctx := { s.ctx with changing := true } })
    else finish s pret

/-- `co_auth_user` in `pam_authenticate`. -/
def afterAuthenticate : St × (ℤ × AcctMgmt ⊕ Asking (ℤ × AcctMgmt)) → St × Co
  | (s, .inr a) => (s, .authenticate a)
  | (s, .inl (pret, acctMgmt)) =>
    let s := s.log (.result .authenticate pret)
    if pret ≠ pamSuccess then ({ s with ctx := { s.ctx with crRet := pret } }, .wait)
    else afterAcctMgmt (runConv acctMgmt s)

/-- `co_call`, after `cr_ret` is set. -/
def coCall (s : St) (co : Co) : St × Co :=
  let s := { s with ctx := { s.ctx with crRet := pamConvErr } }
  match co with
  | .ready f => afterAuthenticate (runConv f { s with ctx := { s.ctx with state := .init } })
  | .authenticate a => afterAuthenticate (resume a s)
  | .acctMgmt a => afterAcctMgmt (resume a s)
  | .chauthtok a => afterChauthtok (resume a s)
  | .wait => (s, .wait)

/-! ### The callbacks of the module -/

def defaultText (changing : Bool) : Bytes :=
  if changing then ascii "Please enter the new password."
  else ascii "Please enter your password."

/-- The end of `pam_auth_msg`: the text of the buffer. -/
def bufferText (s : St) (co : Co) : ℤ × St × Co :=
  if s.ctx.msg.isEmpty then (0, s.log (.authMsg 0 (some (defaultText s.ctx.changing))), co)
  else
    let s := { s with ctx := { s.ctx with msg := s.ctx.msg ++ [0] } }
    (0, s.log (.authMsg 0 (some (cString s.ctx.msg))), co)

/-- `pam_auth_msg`. -/
def pamAuthMsg (s : St) (co : Co) : ℤ × St × Co :=
  match s.ctx.state with
  | .complete => (0, s.log (.authMsg 0 none), co)
  | .init =>
    let (s, co) := coCall s co
    if s.ctx.crRet ≠ pamSuccess then (errAuthFail, s.log (.authMsg errAuthFail none), co)
    else bufferText s co
  | .waitForPass => bufferText s co

/-- `MAX_PASSWORD_SIZE`. -/
def maxPasswordSize : ℕ := 64

/-- The result of `pam_auth_pass`. -/
def authPassRet (s : St) : ℤ :=
  if s.ctx.crRet ≠ pamSuccess then errAuthFail
  else if s.ctx.state ≠ .complete then errAuthContinue
  else 0

/-- `pam_auth_pass`, for the first `pass_len` bytes of the password. -/
def pamAuthPass (s : St) (co : Co) (pass : Bytes) : ℤ × St × Co :=
  let s := s.log (.authPass pass)
  if maxPasswordSize < pass.length + 1 then (-1, s.log (.authPassRet (-1)), co)
  else if s.ctx.state ≠ .waitForPass then (errAuthFail, s.log (.authPassRet errAuthFail), co)
  else
    let (s, co) := coCall { s with ctx := { s.ctx with password := pass } } co
    (authPassRet s, s.log (.authPassRet (authPassRet s)), co)

/-- The calls of sec-mod, in turn: a result other than `0` and `ERR_AUTH_CONTINUE` is the end. -/
def converse (s : St) (co : Co) : List Bytes → St
  | [] => (pamAuthMsg s co).2.1
  | pass :: passes =>
    match pamAuthMsg s co with
    | (ret, s, co) =>
      if ret ≠ 0 then s
      else
        match pamAuthPass s co (cString pass) with
        | (ret, s, co) => if ret = 0 ∨ ret = errAuthContinue then converse s co passes else s

/-- The conversation that starts with `pam_auth_init`. -/
def conversation (f : Authenticate) (passes : List Bytes) : St :=
  converse ⟨{}, []⟩ (.ready f) passes

/-! ### The right conversation -/

/-- What can be seen of a conversation: the messages that came with each prompt, those since the
last one, whether it has no reply yet, the password of the first call of `pam_auth_pass` after it,
whether the last such call had a reply, and whether a new password is asked for. -/
structure Seen where
  groups : List (List Bytes) := []
  pending : List Bytes := []
  asked : Bool := false
  pass : Option Bytes := none
  replied : Bool := false
  changing : Bool := false
  deriving DecidableEq, Repr

def Seen.step (v : Seen) : Event → Seen
  | .info msg => { v with pending := v.pending ++ [msg] }
  | .prompt =>
    { v with groups := v.groups ++ [v.pending], pending := [], asked := true, pass := none }
  | .reply _ => { v with asked := false, replied := true }
  | .result f pret => { v with
      changing := v.changing || decide (f = .acctMgmt ∧ pret = pamNewAuthtokReqd) }
  | .authMsg _ _ => v
  | .authPass pass => { v with pass := v.pass.or (some pass), replied := false }
  | .authPassRet _ => v

def seen (t : List Event) : Seen := t.foldl Seen.step {}

/-- Messages as they are shown, each with a blank. -/
def render (infos : List Bytes) : Bytes := infos.flatMap (· ++ [32])

/-- What the client is to be shown at a prompt. -/
def promptText (changing : Bool) (infos : List Bytes) : Bytes :=
  if infos.isEmpty then defaultText changing else render infos

/-- The stack accepted the user, or the user gave the new password that it required. -/
def Accepted (t : List Event) : Prop :=
  .result .authenticate pamSuccess ∈ t ∧ (.result .acctMgmt pamSuccess ∈ t ∨
    .result .acctMgmt pamNewAuthtokReqd ∈ t ∧ .result .chauthtok pamSuccess ∈ t)

/-- An event is right after what was said before: `pam_auth_msg` gives the messages of the prompt,
a prompt is answered with the next password, and `pam_auth_pass` goes on only if the prompt was
answered and accepts only a user whom the stack accepts. -/
def Right (past : List Event) : Event → Prop
  | .authMsg ret msg => (seen past).asked = true → ret = 0 ∧
      msg = some (promptText (seen past).changing ((seen past).groups.getLastD []))
  | .reply resp => (seen past).asked = true ∧ (seen past).pass = some resp
  | .authPassRet ret => (ret = 0 ∨ ret = errAuthContinue → (seen past).replied = true) ∧
      (ret = 0 → Accepted past)
  | _ => True

instance : DecidablePred Accepted := fun _ => inferInstanceAs (Decidable (_ ∧ (_ ∨ _ ∧ _)))

instance Right.decidable (past : List Event) : DecidablePred (Right past)
  | .authMsg .. => inferInstanceAs (Decidable (_ → _ ∧ _))
  | .reply _ => inferInstanceAs (Decidable (_ ∧ _))
  | .authPassRet _ => inferInstanceAs (Decidable ((_ → _) ∧ (_ → _)))
  | .info _ | .prompt | .result .. | .authPass _ => inferInstanceAs (Decidable True)

def Faithful (t : List Event) : Prop := Guarded Right [] t

instance : DecidablePred Faithful := fun t => inferInstanceAs (Decidable (Guarded Right [] t))

/-- **The condition**: where two prompts in a row come with messages, these look alike. -/
def Fresh (groups : List (List Bytes)) : Prop :=
  groups.IsChain fun infos next => infos ≠ [] → next ≠ [] → render infos = render next

/-! ### The buffer -/

variable {t : List Event} {ev : Event} {s : St} {groups : List (List Bytes)} {infos : List Bytes}

theorem seen_concat (t : List Event) (ev : Event) : seen (t ++ [ev]) = (seen t).step ev := by
  rw [seen, List.foldl_append]
  rfl

/-- The answers to sec-mod say nothing new. -/
theorem seen_authMsg (t : List Event) (ret : ℤ) (msg : Option Bytes) :
    seen (t ++ [.authMsg ret msg]) = seen t :=
  seen_concat _ _

theorem seen_authPassRet (t : List Event) (ret : ℤ) : seen (t ++ [.authPassRet ret]) = seen t :=
  seen_concat _ _

theorem faithful_concat : Faithful (t ++ [ev]) ↔ Faithful t ∧ Right t ev := by
  rw [Faithful, guarded_append, List.nil_append]
  exact and_congr_right fun _ => Iff.of_eq (and_true _)

/-- A right event changes nothing. -/
theorem faithful_concat_of {p : Prop} (hright : Right t ev) (h : Faithful t ↔ p) :
    Faithful (t ++ [ev]) ↔ p := by
  rw [faithful_concat, and_iff_left hright]
  exact h

/-- What the buffer holds after the messages of each prompt were shown. -/
def buffer (groups : List (List Bytes)) : Bytes :=
  groups.foldl (fun buf infos => if infos.isEmpty then [] else buf ++ render infos ++ [0]) []

theorem buffer_concat (groups : List (List Bytes)) (infos : List Bytes) :
    buffer (groups ++ [infos]) =
      if infos.isEmpty then [] else buffer groups ++ render infos ++ [0] := by
  rw [buffer, List.foldl_append]
  rfl

theorem render_concat (infos : List Bytes) (info : Bytes) :
    render (infos ++ [info]) = render infos ++ (info ++ [32]) := by
  rw [render, List.flatMap_append, List.flatMap_singleton]
  rfl

theorem render_ne (h : infos ≠ []) : render infos ≠ [] := by
  obtain ⟨info, rest, rfl⟩ := List.exists_cons_of_ne_nil h
  simp [render]

theorem zero_notMem_render (h : ∀ info ∈ infos, 0 ∉ info) : 0 ∉ render infos := by
  intro hc
  obtain ⟨info, hinfo, hmem⟩ := List.mem_flatMap.1 hc
  rcases List.mem_append.1 hmem with hmem | hmem
  · exact h info hinfo hmem
  · exact absurd (List.mem_singleton.1 hmem) (by decide)

theorem cString_concat {u : Bytes} (h : 0 ∉ u) (rest : Bytes) : cString (u ++ 0 :: rest) = u := by
  rw [cString, List.takeWhile_append_of_pos, List.takeWhile_cons_of_neg (by simp), List.append_nil]
  intro c hc
  have : c ≠ 0 := fun h0 => h (h0 ▸ hc)
  simpa using this

/-- What follows a terminator is not seen. -/
theorem cString_append_of_mem {u : Bytes} (h : 0 ∈ u) (rest : Bytes) :
    cString (u ++ rest) = cString u := by
  induction u with
  | nil => cases h
  | cons c u ih =>
    rw [List.cons_append, cString, cString]
    by_cases hc : c = 0
    · rw [List.takeWhile_cons_of_neg (by simpa using hc),
        List.takeWhile_cons_of_neg (by simpa using hc)]
    · have hmem : 0 ∈ u := (List.mem_cons.1 h).resolve_left (Ne.symm hc)
      rw [List.takeWhile_cons_of_pos (by simpa using hc),
        List.takeWhile_cons_of_pos (by simpa using hc)]
      exact congrArg _ (ih hmem)

theorem fresh_concat : Fresh (groups ++ [infos]) ↔ Fresh groups ∧
    (groups.getLastD [] ≠ [] → infos ≠ [] → render (groups.getLastD []) = render infos) := by
  rw [Fresh, List.isChain_append]
  refine and_congr_right fun _ => ?_
  constructor
  · intro h hlast hinfos
    cases hg : groups.getLast? with
    | none =>
      rw [List.getLast?_eq_none_iff.1 hg] at hlast
      exact absurd rfl hlast
    | some last =>
      have hd : groups.getLastD [] = last := by rw [List.getLastD_eq_getLast?, hg]; rfl
      rw [hd] at hlast ⊢
      exact h.2 last hg infos rfl hlast hinfos
  · intro h
    refine ⟨List.isChain_singleton _, fun last hlast next hnext hne hnextNe => ?_⟩
    have hd : groups.getLastD [] = last := by
      rw [List.getLastD_eq_getLast?, Option.mem_def.1 hlast]
      rfl
    obtain rfl : infos = next := Option.some.inj hnext
    rw [hd] at h
    exact h hne hnextNe

/-- The buffer is empty exactly after a prompt without messages. -/
theorem buffer_eq_nil_iff (groups : List (List Bytes)) :
    buffer groups = [] ↔ groups.getLastD [] = [] := by
  cases groups using List.reverseRecOn with
  | nil => exact iff_of_true rfl rfl
  | append_singleton groups infos =>
    rw [buffer_concat, List.getLastD_concat]
    by_cases h : infos = []
    · rw [if_pos (List.isEmpty_iff.2 h)]
      exact iff_of_true rfl h
    · rw [if_neg fun hc => h (List.isEmpty_iff.1 hc)]
      exact iff_of_false (List.append_ne_nil_of_right_ne_nil _ (List.cons_ne_nil _ _)) h

/-- **What the buffer shows after a prompt with messages**, if it showed the right ones so far. -/
theorem cString_buffer (hclean : ∀ infos ∈ groups, ∀ info ∈ infos, 0 ∉ info)
    (hfresh : Fresh groups) (hlast : groups.getLastD [] ≠ []) :
    0 ∈ buffer groups ∧ cString (buffer groups) = render (groups.getLastD []) := by
  induction groups using List.reverseRecOn with
  | nil => exact absurd rfl hlast
  | append_singleton groups infos ih =>
    obtain ⟨hfresh, hlook⟩ := fresh_concat.1 hfresh
    rw [List.getLastD_concat] at hlast ⊢
    rw [buffer_concat, if_neg fun hc => hlast (List.isEmpty_iff.1 hc)]
    refine ⟨List.mem_append_right _ List.mem_cons_self, ?_⟩
    have hinfos : ∀ info ∈ infos, 0 ∉ info :=
      hclean infos (List.mem_append_right _ List.mem_cons_self)
    by_cases hbefore : groups.getLastD [] = []
    · rw [(buffer_eq_nil_iff groups).2 hbefore, List.nil_append]
      exact cString_concat (zero_notMem_render hinfos) []
    · obtain ⟨hmem, hshown⟩ :=
        ih (fun g hg => hclean g (List.mem_append_left _ hg)) hfresh hbefore
      rw [List.append_assoc, cString_append_of_mem hmem, hshown]
      exact hlook hbefore hlast

/-- What `pam_auth_msg` finds in the buffer at a prompt. -/
def atPrompt (groups : List (List Bytes)) (infos : List Bytes) : Bytes :=
  if infos.isEmpty then [] else buffer groups ++ render infos

/-- **The text of a prompt is right** unless the messages of the prompt before are shown, and look
different. -/
theorem shown_iff (hclean : ∀ infos ∈ groups, ∀ info ∈ infos, 0 ∉ info)
    (hinfos : ∀ info ∈ infos, 0 ∉ info) (hfresh : Fresh groups) (changing : Bool) :
    (if (atPrompt groups infos).isEmpty then defaultText changing
      else cString (atPrompt groups infos ++ [0])) = promptText changing infos ↔
      Fresh (groups ++ [infos]) := by
  rw [fresh_concat, atPrompt, promptText]
  by_cases h : infos = []
  · rw [if_pos (List.isEmpty_iff.2 h), if_pos (List.isEmpty_iff.2 h), if_pos List.isEmpty_nil]
    exact iff_of_true rfl ⟨hfresh, fun _ hne => absurd h hne⟩
  · have hne : ¬ infos.isEmpty := fun hc => h (List.isEmpty_iff.1 hc)
    have hbuf : ¬ (buffer groups ++ render infos).isEmpty := fun hc =>
      render_ne h (List.append_eq_nil_iff.1 (List.isEmpty_iff.1 hc)).2
    rw [if_neg hne, if_neg hne, if_neg hbuf]
    by_cases hbefore : groups.getLastD [] = []
    · rw [(buffer_eq_nil_iff groups).2 hbefore, List.nil_append,
        cString_concat (zero_notMem_render hinfos) []]
      exact iff_of_true rfl ⟨hfresh, fun hc => absurd hbefore hc⟩
    · obtain ⟨hmem, hshown⟩ := cString_buffer hclean hfresh hbefore
      rw [List.append_assoc, cString_append_of_mem hmem, hshown]
      exact ⟨fun heq => ⟨hfresh, fun _ _ => heq⟩, fun hc => hc.2 hbefore h⟩

/-- The buffer once the text was shown. -/
theorem shown_buffer (groups : List (List Bytes)) (infos : List Bytes) :
    (if (atPrompt groups infos).isEmpty then [] else atPrompt groups infos ++ [0]) =
      buffer (groups ++ [infos]) := by
  rw [buffer_concat, atPrompt]
  by_cases h : infos = []
  · rw [if_pos (List.isEmpty_iff.2 h), if_pos (List.isEmpty_iff.2 h)]
    rfl
  · have hne : ¬ infos.isEmpty := fun hc => h (List.isEmpty_iff.1 hc)
    have hbuf : ¬ (buffer groups ++ render infos).isEmpty := fun hc =>
      render_ne h (List.append_eq_nil_iff.1 (List.isEmpty_iff.1 hc)).2
    rw [if_neg hne, if_neg hne, if_neg hbuf]

/-! ### The coroutine while it runs -/

/-- No message has a terminator. -/
def Clean (v : Seen) : Prop :=
  (∀ infos ∈ v.groups, ∀ info ∈ infos, 0 ∉ info) ∧ ∀ info ∈ v.pending, 0 ∉ info

/-- The stack runs: the buffer has the messages that were shown, and those since the last prompt.
`replied` is whether this is on behalf of a password, and `past` what the stack said before. -/
structure Running (replied : Bool) (past : List Event) (s : St) : Prop where
  sub : ∀ ev ∈ past, ev ∈ s.trace
  state : s.ctx.state = .init
  asked : (seen s.trace).asked = false
  replied_eq : (seen s.trace).replied = replied
  msg : s.ctx.msg = buffer (seen s.trace).groups ++ render (seen s.trace).pending
  sentMsg : s.ctx.sentMsg = !(seen s.trace).pending.isEmpty
  changing : s.ctx.changing = (seen s.trace).changing
  clean : Clean (seen s.trace)
  faithful : Faithful s.trace ↔ Fresh (seen s.trace).groups

/-- The stack waits for a password; the text of the prompt has not been shown. -/
structure Asked (replied : Bool) (past : List Event) (s : St) : Prop where
  sub : ∀ ev ∈ past, ev ∈ s.trace
  state : s.ctx.state = .waitForPass
  crRet : s.ctx.crRet = pamSuccess
  asked : (seen s.trace).asked = true
  replied_eq : (seen s.trace).replied = replied
  pending : (seen s.trace).pending = []
  pass : (seen s.trace).pass = none
  changing : s.ctx.changing = (seen s.trace).changing
  clean : Clean (seen s.trace)
  groups : ∃ groups infos, (seen s.trace).groups = groups ++ [infos] ∧
    s.ctx.msg = atPrompt groups infos ∧ (Faithful s.trace ↔ Fresh groups)

/-- What a part of the stack leads to: it ends, or it asks. -/
def Goes {β γ : Type} (replied : Bool) (past : List Event) : St × (β ⊕ γ) → Prop
  | (s, .inl _) => Running replied past s
  | (s, .inr _) => Asked replied past s

variable {replied : Bool} {past : List Event} {α : Type}

theorem zero_notMem_cString (u : Bytes) : 0 ∉ cString u := fun h => by
  have := List.mem_takeWhile_imp h
  simp at this

theorem Running.info (h : Running replied past s) (msg : Bytes) :
    Running replied past ({ s with ctx := { s.ctx with
      msg := s.ctx.msg ++ (cString msg ++ [32])
      sentMsg := true } }.log (.info (cString msg))) := by
  have hseen : seen (s.trace ++ [.info (cString msg)]) =
      { seen s.trace with pending := (seen s.trace).pending ++ [cString msg] } := seen_concat _ _
  refine ⟨fun ev hev => List.mem_append_left _ (h.sub ev hev), h.state, ?_, ?_, ?_, ?_, ?_, ?_, ?_⟩
  all_goals dsimp only [St.log]; rw [hseen]
  · exact h.asked
  · exact h.replied_eq
  · dsimp only
    rw [render_concat, h.msg, List.append_assoc]
  · simp
  · exact h.changing
  · refine ⟨h.clean.1, fun info hinfo => ?_⟩
    rcases List.mem_append.1 hinfo with hinfo | hinfo
    · exact h.clean.2 info hinfo
    · rw [List.mem_singleton.1 hinfo]
      exact zero_notMem_cString msg
  · exact faithful_concat_of trivial h.faithful

theorem Running.prompt (h : Running replied past s) :
    Asked replied past ({ s with ctx := { s.ctx with
      msg := if s.ctx.sentMsg then s.ctx.msg else []
      sentMsg := true
      state := .waitForPass
      crRet := pamSuccess } }.log .prompt) := by
  have hseen : seen (s.trace ++ [.prompt]) = { seen s.trace with
      groups := (seen s.trace).groups ++ [(seen s.trace).pending]
      pending := []
      asked := true
      pass := none } := seen_concat _ _
  refine ⟨fun ev hev => List.mem_append_left _ (h.sub ev hev), rfl, rfl, ?_, ?_, ?_, ?_, ?_, ?_, ?_⟩
  all_goals dsimp only [St.log]; rw [hseen]
  · exact h.replied_eq
  · exact h.changing
  · refine ⟨fun infos hinfos => ?_, fun _ hinfo => absurd hinfo List.not_mem_nil⟩
    rcases List.mem_append.1 hinfos with hinfos | hinfos
    · exact h.clean.1 infos hinfos
    · rw [List.mem_singleton.1 hinfos]
      exact h.clean.2
  · refine ⟨_, _, rfl, ?_, ?_⟩
    · rw [atPrompt, h.sentMsg, h.msg]
      cases (seen s.trace).pending.isEmpty <;> rfl
    · exact faithful_concat_of trivial h.faithful

theorem said_concat (h : ∀ e ∈ past, e ∈ t) : ∀ e ∈ past ++ [ev], e ∈ t ++ [ev] := by
  intro e he
  rcases List.mem_append.1 he with he | he
  · exact List.mem_append_left _ (h e he)
  · exact List.mem_append_right _ he

theorem Running.result (h : Running replied past s) {f : PamFn} {pret : ℤ}
    (hf : ¬ (f = .acctMgmt ∧ pret = pamNewAuthtokReqd)) :
    Running replied (past ++ [.result f pret]) (s.log (.result f pret)) := by
  have hseen : seen (s.trace ++ [.result f pret]) = seen s.trace := by
    rw [seen_concat, Seen.step, decide_eq_false hf, Bool.or_false]
  refine ⟨said_concat h.sub, h.state, ?_, ?_, ?_, ?_, ?_, ?_, ?_⟩
  all_goals dsimp only [St.log]; rw [hseen]
  · exact h.asked
  · exact h.replied_eq
  · exact h.msg
  · exact h.sentMsg
  · exact h.changing
  · exact h.clean
  · exact faithful_concat_of trivial h.faithful

/-- The password has to be changed. -/
theorem Running.newAuthtokReqd (h : Running replied past s) :
    Running replied (past ++ [.result .acctMgmt pamNewAuthtokReqd])
      { s.log (.result .acctMgmt pamNewAuthtokReqd) with
        ctx := { s.ctx with changing := true } } := by
  have hseen : seen (s.trace ++ [.result .acctMgmt pamNewAuthtokReqd]) =
      { seen s.trace with changing := true } := by
    rw [seen_concat, Seen.step, decide_eq_true ⟨rfl, rfl⟩, Bool.or_true]
  refine ⟨said_concat h.sub, h.state, ?_, ?_, ?_, ?_, ?_, ?_, ?_⟩
  all_goals dsimp only [St.log]; rw [hseen]
  · exact h.asked
  · exact h.replied_eq
  · exact h.msg
  · exact h.sentMsg
  · exact h.clean
  · exact faithful_concat_of trivial h.faithful

theorem convLoop_goes (h : Running replied past s) (msgs : List Message)
    (replies : List (Option Bytes)) : Goes replied past (convLoop s replies msgs) := by
  induction msgs generalizing s replies with
  | nil => exact h
  | cons m rest ih =>
    rw [convLoop]
    cases m.style with
    | promptEchoOff | promptEchoOn => exact h.prompt
    | errorMsg | textInfo => exact ih (h.info m.msg) _
    | other => exact ih h _

theorem runConv_goes (h : Running replied past s) (c : Conv α) :
    Goes replied past (runConv c s) := by
  induction c generalizing s with
  | ret a => exact h
  | call msgs k ih =>
    have hloop := convLoop_goes h msgs []
    rw [runConv]
    split <;> rename_i heq <;> rw [heq] at hloop
    · exact ih _ hloop
    · exact hloop

/-! ### The two sides -/

/-- The text of the prompt was shown, and a password is to be given. -/
structure Told (past : List Event) (s : St) : Prop where
  sub : ∀ ev ∈ past, ev ∈ s.trace
  state : s.ctx.state = .waitForPass
  asked : (seen s.trace).asked = true
  pending : (seen s.trace).pending = []
  pass : (seen s.trace).pass = none
  msg : s.ctx.msg = buffer (seen s.trace).groups
  changing : s.ctx.changing = (seen s.trace).changing
  clean : Clean (seen s.trace)
  faithful : Faithful s.trace ↔ Fresh (seen s.trace).groups

/-- The stack has ended. -/
structure Ended (replied : Bool) (s : St) : Prop where
  asked : (seen s.trace).asked = false
  replied_eq : (seen s.trace).replied = replied
  complete : s.ctx.crRet = pamSuccess → s.ctx.state = .complete ∧ Accepted s.trace
  faithful : Faithful s.trace ↔ Fresh (seen s.trace).groups

/-- What the stack said before it asks in one of its functions. -/
def Co.said : Co → Option (List Event)
  | .ready _ | .wait => none
  | .authenticate _ => some []
  | .acctMgmt _ => some [.result .authenticate pamSuccess]
  | .chauthtok _ =>
    some [.result .authenticate pamSuccess, .result .acctMgmt pamNewAuthtokReqd]

/-- What `co_call` leads to. -/
inductive Called (replied : Bool) : St × Co → Prop
  | asks {s : St} {co : Co} (past : List Event) (hco : co.said = some past)
      (h : Asked replied past s) : Called replied (s, co)
  | ended {s : St} (h : Ended replied s) : Called replied (s, .wait)

theorem Running.fails (h : Running replied past s) {pret : ℤ} (hne : pret ≠ pamSuccess) :
    Ended replied { s with ctx := { s.ctx with crRet := pret } } :=
  ⟨h.asked, h.replied_eq, fun hc => absurd hc hne, h.faithful⟩

theorem finish_called (h : Running replied past s) {pret : ℤ}
    (haccepted : pret = pamSuccess → Accepted past) : Called replied (finish s pret) := by
  rw [finish]
  split_ifs with hne
  · exact .ended (h.fails hne)
  · obtain ⟨hauth, hacct⟩ := haccepted (not_not.1 hne)
    refine .ended ⟨h.asked, h.replied_eq, fun _ => ⟨rfl, h.sub _ hauth, ?_⟩, h.faithful⟩
    exact hacct.imp (h.sub _) fun hacct => ⟨h.sub _ hacct.1, h.sub _ hacct.2⟩

theorem afterChauthtok_called {out : St × (ℤ ⊕ Asking ℤ)}
    (h : Goes replied [.result .authenticate pamSuccess, .result .acctMgmt pamNewAuthtokReqd] out) :
    Called replied (afterChauthtok out) := by
  obtain ⟨s, pret | a⟩ := out
  · have hf : ¬ (PamFn.chauthtok = .acctMgmt ∧ pret = pamNewAuthtokReqd) := fun hc => nomatch hc.1
    refine finish_called (Running.result h hf) ?_
    rintro rfl
    exact ⟨by simp, Or.inr ⟨by simp, by simp⟩⟩
  · exact .asks _ rfl h

theorem afterAcctMgmt_called {out : St × (ℤ × Chauthtok ⊕ Asking (ℤ × Chauthtok))}
    (h : Goes replied [.result .authenticate pamSuccess] out) :
    Called replied (afterAcctMgmt out) := by
  obtain ⟨s, ⟨pret, chauthtok⟩ | a⟩ := out
  · rw [afterAcctMgmt]
    dsimp only
    split_ifs with hreqd
    · subst hreqd
      exact afterChauthtok_called (runConv_goes (Running.newAuthtokReqd h) chauthtok)
    · refine finish_called (Running.result h fun hc => hreqd hc.2) ?_
      rintro rfl
      exact ⟨by simp, Or.inl (by simp)⟩
  · exact .asks _ rfl h

theorem afterAuthenticate_called {out : St × (ℤ × AcctMgmt ⊕ Asking (ℤ × AcctMgmt))}
    (h : Goes replied [] out) : Called replied (afterAuthenticate out) := by
  obtain ⟨s, ⟨pret, acctMgmt⟩ | a⟩ := out
  · have hf : ¬ (PamFn.authenticate = .acctMgmt ∧ pret = pamNewAuthtokReqd) :=
      fun hc => nomatch hc.1
    have hresult := Running.result h hf
    rw [afterAuthenticate]
    dsimp only
    split_ifs with hne
    · exact .ended (hresult.fails hne)
    · obtain rfl := not_not.1 hne
      exact afterAcctMgmt_called (runConv_goes hresult acctMgmt)
  · exact .asks _ rfl h

/-- The state in which `pam_auth_pass` calls the coroutine. -/
def given (s : St) (pass : Bytes) : St :=
  { s.log (.authPass pass) with ctx := { s.ctx with password := pass } }

/-- **The password is the reply to the prompt.** -/
theorem Told.reply (h : Told past s) (pass : Bytes) (ret : ℤ) :
    Running true past ({ given s pass with ctx := { (given s pass).ctx with
      crRet := ret, state := .init, sentMsg := false } }.log (.reply pass)) := by
  have hgiven : seen (s.trace ++ [Event.authPass pass]) = { seen s.trace with
      pass := some pass
      replied := false } := by
    rw [seen_concat, Seen.step, h.pass]
    rfl
  have hseen : seen (s.trace ++ [Event.authPass pass] ++ [.reply pass]) = { seen s.trace with
      pass := some pass
      asked := false
      replied := true } := by
    rw [seen_concat, hgiven]
    rfl
  refine ⟨fun ev hev => List.mem_append_left _ (List.mem_append_left _ (h.sub ev hev)), rfl,
    ?_, ?_, ?_, ?_, ?_, ?_, ?_⟩
  all_goals dsimp only [St.log, given]; rw [hseen]
  · dsimp only
    rw [h.msg, h.pending]
    exact (List.append_nil _).symm
  · dsimp only
    rw [h.pending]
    rfl
  · exact h.changing
  · exact h.clean
  · have hright : Right (s.trace ++ [Event.authPass pass]) (.reply pass) := by
      rw [Right, hgiven]
      exact ⟨h.asked, rfl⟩
    exact faithful_concat_of hright (faithful_concat_of trivial h.faithful)

theorem resume_goes {pass : Bytes} (h : Told past s) (hpass : cString pass = pass) (ret : ℤ)
    (a : Asking α) : Goes true past
      (resume a { given s pass with ctx := { (given s pass).ctx with crRet := ret } }) := by
  have hpass' : cString ({ given s pass with
      ctx := { (given s pass).ctx with crRet := ret } } : St).ctx.password = pass := hpass
  rw [resume]
  dsimp only
  rw [hpass']
  have hloop := convLoop_goes (h.reply pass ret) a.rest (a.replies ++ [some pass])
  split <;> rename_i heq <;> rw [heq] at hloop
  · exact runConv_goes hloop _
  · exact hloop

theorem coCall_called {pass : Bytes} {co : Co} (h : Told past s) (hco : co.said = some past)
    (hpass : cString pass = pass) : Called true (coCall (given s pass) co) := by
  cases co with
  | ready f => cases hco
  | wait => cases hco
  | authenticate a =>
    cases hco
    exact afterAuthenticate_called (resume_goes h hpass pamConvErr a)
  | acctMgmt a =>
    cases hco
    exact afterAcctMgmt_called (resume_goes h hpass pamConvErr a)
  | chauthtok a =>
    cases hco
    exact afterChauthtok_called (resume_goes h hpass pamConvErr a)

/-- The first call of the coroutine. -/
theorem coCall_ready (f : Authenticate) : Called false (coCall ⟨{}, []⟩ (.ready f)) := by
  refine afterAuthenticate_called (runConv_goes ⟨?_, rfl, rfl, rfl, rfl, rfl, rfl, ?_, ?_⟩ f)
  · exact fun ev hev => absurd hev List.not_mem_nil
  · exact ⟨fun _ h => absurd h List.not_mem_nil, fun _ h => absurd h List.not_mem_nil⟩
  · exact iff_of_true trivial List.isChain_nil

/-- The text is said, and the buffer has what was shown. -/
theorem Asked.authMsg (h : Asked replied past s) {text buf : Bytes}
    (hbuf : buf = buffer (seen s.trace).groups)
    (hfaithful : Faithful (s.trace ++ [.authMsg 0 (some text)]) ↔ Fresh (seen s.trace).groups) :
    Told past ({ s with ctx := { s.ctx with msg := buf } }.log (.authMsg 0 (some text))) := by
  refine ⟨fun ev hev => List.mem_append_left _ (h.sub ev hev), h.state, ?_, ?_, ?_, ?_, ?_, ?_, ?_⟩
  all_goals dsimp only [St.log]; rw [seen_authMsg]
  · exact h.asked
  · exact h.pending
  · exact h.pass
  · exact hbuf
  · exact h.changing
  · exact h.clean
  · exact hfaithful

/-- **`pam_auth_msg` at a prompt.** -/
theorem bufferText_told (h : Asked replied past s) (co : Co) :
    ∃ s', bufferText s co = (0, s', co) ∧ Told past s' := by
  obtain ⟨groups, infos, hgroups, hmsg, hfaithful⟩ := h.groups
  have hclean := h.clean.1
  rw [hgroups] at hclean
  have hshown (hfresh : Fresh groups) := shown_iff
    (fun g hg => hclean g (List.mem_append_left _ hg))
    (hclean infos (List.mem_append_right _ List.mem_cons_self)) hfresh s.ctx.changing
  have hbuffer := shown_buffer groups infos
  rw [← hmsg] at hshown hbuffer
  -- the trace is right up to here if the groups before look alike
  have hright (text : Bytes) (hiff : Fresh groups →
      (text = promptText s.ctx.changing infos ↔ Fresh (groups ++ [infos]))) :
      Faithful (s.trace ++ [.authMsg 0 (some text)]) ↔ Fresh (seen s.trace).groups := by
    rw [faithful_concat, hfaithful]
    have hevent : Right s.trace (.authMsg 0 (some text)) ↔
        text = promptText s.ctx.changing infos := by
      rw [Right, hgroups, List.getLastD_concat, h.changing]
      exact ⟨fun hr => Option.some.inj (hr h.asked).2, fun heq _ => ⟨rfl, congrArg _ heq⟩⟩
    rw [hgroups]
    constructor
    · rintro ⟨hfresh, hr⟩
      exact (hiff hfresh).1 (hevent.1 hr)
    · intro hfresh
      have hbefore := (fresh_concat.1 hfresh).1
      exact ⟨hbefore, hevent.2 ((hiff hbefore).2 hfresh)⟩
  rw [← hgroups] at hbuffer
  rw [bufferText]
  by_cases hempty : s.ctx.msg.isEmpty
  · rw [if_pos hempty] at hbuffer
    rw [if_pos hempty]
    have hbuf : s.ctx.msg = buffer (seen s.trace).groups :=
      (List.isEmpty_iff.1 hempty).trans hbuffer
    refine ⟨_, rfl, h.authMsg hbuf (hright _ fun hfresh => ?_)⟩
    have := hshown hfresh
    rwa [if_pos hempty] at this
  · rw [if_neg hempty] at hbuffer
    rw [if_neg hempty]
    refine ⟨_, rfl, h.authMsg hbuffer (hright _ fun hfresh => ?_)⟩
    have := hshown hfresh
    rwa [if_neg hempty] at this

/-! ### The conversation -/

/-- What was said is right if and only if the condition holds for it. -/
def Settled (s : St) : Prop := Faithful s.trace ↔ Fresh (seen s.trace).groups

/-- The stack accepted the user. -/
structure Complete (s : St) : Prop where
  state : s.ctx.state = .complete
  asked : (seen s.trace).asked = false
  faithful : Settled s

/-- Where the two sides are before a call of `pam_auth_msg`. -/
inductive Phase : St → Co → Prop
  | ready (f : Authenticate) : Phase ⟨{}, []⟩ (.ready f)
  | asks {s : St} {co : Co} {replied : Bool} {past : List Event} (hco : co.said = some past)
      (h : Asked replied past s) : Phase s co
  | complete {s : St} {co : Co} (h : Complete s) : Phase s co

/-- Where they are after it. -/
inductive Shown (s : St) (co : Co) : Prop
  | told (past : List Event) (hco : co.said = some past) (h : Told past s)
  | complete (h : Complete s)

/-- Nothing is shown that does not belong to a prompt. -/
theorem settled_authMsg {ret : ℤ} {msg : Option Bytes} (h : Settled s)
    (hasked : (seen s.trace).asked = false) : Settled (s.log (.authMsg ret msg)) := by
  have hright : Right s.trace (.authMsg ret msg) := fun hc => by
    rw [hasked] at hc
    cases hc
  rw [Settled, St.log]
  dsimp only
  rw [seen_authMsg]
  exact faithful_concat_of hright h

theorem settled_authPassRet {ret : ℤ} (h : Settled s)
    (hright : Right s.trace (.authPassRet ret)) : Settled (s.log (.authPassRet ret)) := by
  rw [Settled, St.log]
  dsimp only
  rw [seen_authPassRet]
  exact faithful_concat_of hright h

theorem settled_authPass {pass : Bytes} (h : Settled s) : Settled (s.log (.authPass pass)) := by
  have hseen : (seen (s.trace ++ [.authPass pass])).groups = (seen s.trace).groups := by
    rw [seen_concat]
    rfl
  rw [Settled, St.log]
  dsimp only
  rw [hseen]
  exact faithful_concat_of trivial h

/-- Nothing is said to a user whom the stack has accepted, or only the text of the buffer. -/
theorem Complete.authMsg (h : Complete s) (buf : Bytes) (ret : ℤ) (msg : Option Bytes) :
    Complete ({ s with ctx := { s.ctx with msg := buf } }.log (.authMsg ret msg)) := by
  refine ⟨h.state, ?_, settled_authMsg h.faithful h.asked⟩
  dsimp only [St.log]
  rw [seen_authMsg]
  exact h.asked

/-- The text for a stack that has accepted the user without a prompt. -/
theorem bufferText_complete (h : Complete s) (co : Co) :
    ∃ s', bufferText s co = (0, s', co) ∧ Complete s' := by
  rw [bufferText]
  split_ifs
  · exact ⟨_, rfl, h.authMsg _ _ _⟩
  · exact ⟨_, rfl, h.authMsg _ _ _⟩

/-- The result of `pam_auth_pass` is said. -/
theorem Asked.authPassRet (h : Asked replied past s) {ret : ℤ}
    (hright : Right s.trace (.authPassRet ret)) :
    Asked replied past (s.log (.authPassRet ret)) := by
  obtain ⟨groups, infos, hgroups, hmsg, hfaithful⟩ := h.groups
  refine ⟨fun ev hev => List.mem_append_left _ (h.sub ev hev), h.state, h.crRet, ?_, ?_, ?_, ?_,
    ?_, ?_, groups, infos, ?_, hmsg, ?_⟩
  all_goals dsimp only [St.log]; try rw [seen_authPassRet]
  · exact h.asked
  · exact h.replied_eq
  · exact h.pending
  · exact h.pass
  · exact h.changing
  · exact h.clean
  · exact hgroups
  · exact faithful_concat_of hright hfaithful

/-- **A call of `pam_auth_msg`.** -/
theorem pamAuthMsg_spec {co : Co} (h : Phase s co) :
    Settled (pamAuthMsg s co).2.1 ∧
      ((pamAuthMsg s co).1 = 0 → Shown (pamAuthMsg s co).2.1 (pamAuthMsg s co).2.2) := by
  cases h with
  | ready f =>
    have hcalled := coCall_ready f
    rw [pamAuthMsg]
    dsimp only
    generalize coCall ⟨{}, []⟩ (.ready f) = out at hcalled
    cases hcalled with
    | asks past hco hasked =>
      obtain ⟨s', htext, htold⟩ := bufferText_told hasked _
      dsimp only
      rw [if_neg (not_not.2 hasked.crRet), htext]
      exact ⟨htold.faithful, fun _ => .told past hco htold⟩
    | ended hended =>
      dsimp only
      split_ifs with hret
      · have hfail : errAuthFail ≠ 0 := by decide
        exact ⟨settled_authMsg hended.faithful hended.asked, fun hc => absurd hc hfail⟩
      · have hcomplete : Complete _ :=
          ⟨(hended.complete (not_not.1 hret)).1, hended.asked, hended.faithful⟩
        obtain ⟨s', htext, hcomplete'⟩ := bufferText_complete hcomplete .wait
        rw [htext]
        exact ⟨hcomplete'.faithful, fun _ => .complete hcomplete'⟩
  | asks hco hasked =>
    obtain ⟨s', htext, htold⟩ := bufferText_told hasked co
    rw [pamAuthMsg, hasked.state]
    dsimp only
    rw [htext]
    exact ⟨htold.faithful, fun _ => .told _ hco htold⟩
  | complete hcomplete =>
    have hsaid := hcomplete.authMsg s.ctx.msg 0 none
    rw [pamAuthMsg, hcomplete.state]
    exact ⟨hsaid.faithful, fun _ => .complete hsaid⟩

/-- `pam_auth_pass` does not go on. -/
theorem settled_refused {ret : ℤ} (h : Settled s) (hret : ¬ (ret = 0 ∨ ret = errAuthContinue)) :
    Settled (s.log (.authPassRet ret)) :=
  settled_authPassRet h ⟨fun hc => absurd hc hret, fun hc => absurd (Or.inl hc) hret⟩

/-- What the coroutine leaves to `pam_auth_pass`. -/
theorem authPassRet_spec {co : Co} (h : Called true (s, co)) :
    if authPassRet s = 0 ∨ authPassRet s = errAuthContinue then
      Phase (s.log (.authPassRet (authPassRet s))) co
    else Settled (s.log (.authPassRet (authPassRet s))) := by
  cases h with
  | asks past hco hasked =>
    have hret : authPassRet s = errAuthContinue := by
      rw [authPassRet, if_neg (not_not.2 hasked.crRet), if_pos (by rw [hasked.state]; nofun)]
    have hright : Right s.trace (.authPassRet errAuthContinue) :=
      ⟨fun _ => hasked.replied_eq, fun hc => absurd hc (by decide)⟩
    rw [hret, if_pos (Or.inr rfl)]
    exact .asks hco (hasked.authPassRet hright)
  | ended hended =>
    by_cases hcr : s.ctx.crRet = pamSuccess
    · obtain ⟨hstate, haccepted⟩ := hended.complete hcr
      have hret : authPassRet s = 0 := by
        rw [authPassRet, if_neg (not_not.2 hcr), if_neg (not_not.2 hstate)]
      have hright : Right s.trace (.authPassRet 0) :=
        ⟨fun _ => hended.replied_eq, fun _ => haccepted⟩
      rw [hret, if_pos (Or.inl rfl)]
      refine .complete ⟨hstate, ?_, settled_authPassRet hended.faithful hright⟩
      dsimp only [St.log]
      rw [seen_authPassRet]
      exact hended.asked
    · have hret : authPassRet s = errAuthFail := by rw [authPassRet, if_pos hcr]
      have hne : ¬ (errAuthFail = 0 ∨ errAuthFail = errAuthContinue) := by decide
      rw [hret, if_neg hne]
      exact settled_refused hended.faithful hne

/-- **A call of `pam_auth_pass`.** -/
theorem pamAuthPass_spec {co : Co} {pass : Bytes} (h : Shown s co) (hpass : cString pass = pass) :
    if (pamAuthPass s co pass).1 = 0 ∨ (pamAuthPass s co pass).1 = errAuthContinue then
      Phase (pamAuthPass s co pass).2.1 (pamAuthPass s co pass).2.2
    else Settled (pamAuthPass s co pass).2.1 := by
  have hsettled : Settled (s.log (.authPass pass)) := by
    cases h with
    | told past hco htold => exact settled_authPass htold.faithful
    | complete hcomplete => exact settled_authPass hcomplete.faithful
  rw [pamAuthPass]
  dsimp only
  split
  · have hne : ¬ ((-1 : ℤ) = 0 ∨ -1 = errAuthContinue) := by decide
    rw [if_neg hne]
    exact settled_refused hsettled hne
  · split
    · have hne : ¬ (errAuthFail = 0 ∨ errAuthFail = errAuthContinue) := by decide
      rw [if_neg hne]
      exact settled_refused hsettled hne
    · rename_i hstate
      cases h with
      | complete hcomplete =>
        have hwait : s.ctx.state = .waitForPass := not_not.1 hstate
        rw [hcomplete.state] at hwait
        cases hwait
      | told past hco htold => exact authPassRet_spec (coCall_called htold hco hpass)

theorem cString_cString (u : Bytes) : cString (cString u) = cString u :=
  List.takeWhile_idem

theorem converse_settled {co : Co} (h : Phase s co) (passes : List Bytes) :
    Settled (converse s co passes) := by
  induction passes generalizing s co with
  | nil => exact (pamAuthMsg_spec h).1
  | cons pass passes ih =>
    obtain ⟨hsettled, hshown⟩ := pamAuthMsg_spec h
    rw [converse]
    dsimp only
    split
    · exact hsettled
    · rename_i hret
      have hpass := pamAuthPass_spec (hshown (not_not.1 hret)) (cString_cString pass)
      split <;> rename_i hgo
      · rw [if_pos hgo] at hpass
        exact ih hpass
      · rw [if_neg hgo] at hpass
        exact hpass

namespace Sample

/-- A stack that asks once for each of the messages, and accepts. -/
def stack : List Message → Authenticate
  | [] => .ret (pamSuccess, .ret (pamSuccess, .ret pamSuccess))
  | m :: rest => .call [m, ⟨.promptEchoOff, []⟩] fun _ => stack rest

end Sample

/-- With the same message twice the conversation is right to its end. -/
example : let trace := (conversation
    (Sample.stack [⟨.textInfo, [97]⟩, ⟨.errorMsg, [97]⟩]) [[112], [113]]).trace
    Faithful trace ∧ .authPassRet 0 ∈ trace := by
  decide

end PamConv

end SecMod

end Ocserv
