import Ocserv.Str
import Ocserv.Worker.Headers
import Mathlib.Data.List.Forall2

/-!
# Worker: the callbacks of the HTTP parser

`http_parser` hands the parts of a request to the callbacks of `src/worker-http.c`.  A part that
is cut by a read boundary comes in several pieces, each with its own call.  The callbacks build
the state of the request (`struct http_req_st`) from them.  A name or value that is empty before
the buffer for it has a block makes `str_append_data` write through `NULL`.

* `HttpRequest.perform_cut_iff` : when the state does not depend on where the request is cut.
* `HttpRequest.perform_eq_ok_iff` : which requests are read to their end.
-/

namespace Ocserv

namespace Worker

/-- `header_state`. -/
inductive HeaderState where
  | init
  | recv
  | valueRecv
  deriving DecidableEq, Repr

/-- A `str_st` with its text, or `none` while it has no block. -/
abbrev StrText := Option (List UInt8)

/-- The text; without a block there is none. -/
def StrText.text (str : StrText) : List UInt8 := str.getD []

/-- The state of a request. -/
structure HttpReq where
  /-- `url`, up to the terminating zero. -/
  url : List UInt8
  header : StrText
  value : StrText
  headerState : HeaderState
  nextHeader : Option Header
  body : List UInt8
  headersComplete : Bool
  messageComplete : Bool
  /-- What the headers said. -/
  derived : Derived
  deriving DecidableEq, Repr

/-- How the calls for a request end before its end. -/
inductive HttpStop where
  /-- A callback returns an error, which ends the parsing of the request. -/
  | error
  /-- A write through `NULL`, in the state that the request has then. -/
  | null (req : HttpReq)
  deriving DecidableEq, Repr

/-- A call of `http_parser`. -/
inductive HttpEvent where
  | url (at' : List UInt8)
  | headerField (at' : List UInt8)
  | headerValue (at' : List UInt8)
  | headersComplete
  | body (at' : List UInt8)
  | messageComplete
  deriving DecidableEq, Repr

/-- `sizeof(req->url)`. -/
def urlSize : ℕ := 256

namespace StrText

/-- `str_reset`: a block stays. -/
def strReset (str : StrText) : StrText := str.map fun _ => []

/-- `str_append_data`; `none` for the write of the terminator through `NULL`. -/
def strAppendData (str : StrText) (data : List UInt8) : Option StrText :=
  if str = none ∧ data = [] then none else some (some (str.text ++ data))

end StrText

namespace HttpReq

variable (cfg : HttpConfig)

/-- `http_req_reset`. -/
def reset (req : HttpReq) : HttpReq :=
  { req with
    url := []
    header := req.header.strReset
    value := req.value.strReset
    headerState := .init
    body := []
    headersComplete := false
    messageComplete := false
    derived := { req.derived with spnegoSet := false } }

/-- `http_url_cb`. -/
def urlCb (at' : List UInt8) (req : HttpReq) : Except HttpStop HttpReq :=
  if urlSize ≤ at'.length then .error .error else .ok { req with url := at' }

/-- A name starts, with `http_header_field_cb`. -/
def startField (req : HttpReq) : HttpReq :=
  { req with
    derived :=
      if req.headerState = .valueRecv then
        headerValueCheck cfg req.nextHeader req.value.text req.derived
      else req.derived
    headerState := .recv
    header := req.header.strReset }

/-- `http_header_field_cb`. -/
def headerFieldCb (at' : List UInt8) (req : HttpReq) : Except HttpStop HttpReq :=
  let req := if req.headerState ≠ .recv then req.startField cfg else req
  match req.header.strAppendData at' with
  | some header => .ok { req with header }
  | none => .error (.null req)

/-- A value starts, with `http_header_value_cb`; `header_check`. -/
def startValue (req : HttpReq) : HttpReq :=
  { req with
    nextHeader := inWordSet req.header.text
    headerState := .valueRecv
    value := req.value.strReset }

/-- `http_header_value_cb`. -/
def headerValueCb (at' : List UInt8) (req : HttpReq) : Except HttpStop HttpReq :=
  let req := if req.headerState ≠ .valueRecv then req.startValue else req
  match req.value.strAppendData at' with
  | some value => .ok { req with value }
  | none => .error (.null req)

/-- `http_header_complete_cb`. -/
def headerCompleteCb (req : HttpReq) : HttpReq :=
  { req with
    derived :=
      spnegoFallback cfg (headerValueCheck cfg req.nextHeader req.value.text req.derived)
    headersComplete := true }

/-- `http_body_cb`. -/
def bodyCb (at' : List UInt8) (req : HttpReq) : HttpReq := { req with body := req.body ++ at' }

/-- `http_message_complete_cb`. -/
def messageCompleteCb (req : HttpReq) : HttpReq := { req with messageComplete := true }

/-- A call. -/
def call (req : HttpReq) : HttpEvent → Except HttpStop HttpReq
  | .url at' => req.urlCb at'
  | .headerField at' => req.headerFieldCb cfg at'
  | .headerValue at' => req.headerValueCb at'
  | .headersComplete => .ok (req.headerCompleteCb cfg)
  | .body at' => .ok (req.bodyCb at')
  | .messageComplete => .ok req.messageCompleteCb

/-- The calls for a request. -/
def perform (req : HttpReq) (events : List HttpEvent) : Except HttpStop HttpReq :=
  events.foldlM (call cfg) req

end HttpReq

/-! ### Requests and the way they are cut -/

/-- The pieces of a request as `http_parser` passes them to the callbacks: those of the URL, of
the name and the value of each header, and of the body. -/
structure HttpPieces where
  url : List (List UInt8)
  headers : List (List (List UInt8) × List (List UInt8))
  body : List (List UInt8)

/-- The calls for the pieces of a header. -/
def headerEvents (h : List (List UInt8) × List (List UInt8)) : List HttpEvent :=
  h.1.map .headerField ++ h.2.map .headerValue

namespace HttpPieces

def events (p : HttpPieces) : List HttpEvent :=
  p.url.map .url ++ (p.headers.flatMap headerEvents ++
    (.headersComplete :: (p.body.map .body ++ [.messageComplete])))

end HttpPieces

/-- A request. -/
structure HttpRequest where
  url : List UInt8
  headers : List (List UInt8 × List UInt8)
  body : List UInt8

namespace HttpRequest

/-- The request in one read. -/
def whole (r : HttpRequest) : HttpPieces where
  url := [r.url]
  headers := r.headers.map fun h => ([h.1], [h.2])
  body := if r.body = [] then [] else [r.body]

/-- The pieces of a part: one or more, and together the part. -/
def Cut (pieces : List (List UInt8)) (part : List UInt8) : Prop :=
  pieces ≠ [] ∧ pieces.flatten = part

/-- The pieces of a name or a value.  It starts at its first byte, so only one that is empty has an
empty piece at the start; a boundary right after it makes one at the end. -/
structure TextCut (pieces : List (List UInt8)) (part : List UInt8) : Prop where
  cut : Cut pieces part
  head : pieces.head? = some [] → part = []

/-- A way to cut the request. -/
structure CutInto (r : HttpRequest) (p : HttpPieces) : Prop where
  url : Cut p.url r.url
  headers : List.Forall₂ (fun h h' => TextCut h.1 h'.1 ∧ TextCut h.2 h'.2) p.headers r.headers
  body : p.body.flatten = r.body

/-- The condition for it: the last piece of the URL is all of it, or the URL is too long and so
is one of its pieces. -/
def UrlKept (r : HttpRequest) (p : HttpPieces) : Prop :=
  if r.url.length < urlSize then p.url.getLast? = some r.url
  else ∃ piece ∈ p.url, urlSize ≤ piece.length

end HttpRequest

/-! ### The buffers -/

namespace StrText

variable {str : StrText} {data : List UInt8}

theorem strAppendData_strReset (h : str = none → data ≠ []) :
    str.strReset.strAppendData data = some (some data) := by
  cases str with
  | none => exact if_neg fun hnull => h rfl hnull.2
  | some text => exact if_neg fun hnull => by cases hnull.1

theorem strAppendData_eq (h : str = none → data ≠ []) :
    str.strAppendData data = some (some (str.text ++ data)) :=
  if_neg fun hnull => h hnull.1 hnull.2

theorem strAppendData_eq_none : str.strAppendData data = none ↔ str = none ∧ data = [] := by
  rw [strAppendData]
  split_ifs with hnull
  · exact iff_of_true rfl hnull
  · exact iff_of_false (by simp) hnull

/-- After an append there is a block, and more of the text can come in any pieces. -/
theorem strAppendData_append {str' : StrText} (h : str.strAppendData data = some str')
    (more : List UInt8) : ∃ str'', str'.strAppendData more = some str'' ∧
      str.strAppendData (data ++ more) = some str'' := by
  rw [strAppendData] at h
  split_ifs at h with hnull
  obtain rfl := Option.some.inj h
  have hne : str = none → data ++ more ≠ [] := fun hnone hnil =>
    hnull ⟨hnone, (List.append_eq_nil_iff.1 hnil).1⟩
  refine ⟨_, strAppendData_eq fun hnone => ?_, ?_⟩
  · cases hnone
  · rw [strAppendData_eq hne, ← List.append_assoc]
    rfl

/-- **The texts are those of `str_st`**, as long as `talloc` gives the blocks. -/
theorem strAppendData_holds {s : Str.StrSt} (h : Str.Holds s str.text)
    (hblock : s.allocd = none ↔ str = none) (hsize : data.length < 2 ^ 63)
    (hgranted : Str.Granted s data.length) (fresh : ℕ → UInt8) :
    (str.strAppendData data).elim (Str.strAppendData fresh s data = .error .null) fun str' =>
      ∃ s', Str.strAppendData fresh s data = .ok (s', 0) ∧ Str.Holds s' str'.text ∧
        (s'.allocd = none ↔ str' = none) := by
  by_cases hnull : str = none ∧ data = []
  · rw [strAppendData_eq_none.2 hnull, hnull.2]
    exact Str.strAppendData_null fresh h (hblock.2 hnull.1)
  · have hdata : data = [] → s.allocd ≠ none := fun hnil hnone =>
      hnull ⟨hblock.1 hnone, hnil⟩
    rw [strAppendData_eq fun hnone hnil => hnull ⟨hnone, hnil⟩]
    obtain ⟨s', hs', hholds, -, hsome, -⟩ :=
      Str.strAppendData_holds fresh h hsize hgranted hdata
    exact ⟨s', hs', hholds, iff_of_false hsome (Option.some_ne_none _)⟩

end StrText

/-! ### The callbacks accumulate -/

namespace HttpReq

variable {cfg : HttpConfig}

theorem perform_nil (req : HttpReq) : perform cfg req [] = .ok req := rfl

theorem perform_cons (req : HttpReq) (e : HttpEvent) (es : List HttpEvent) :
    perform cfg req (e :: es) = (req.call cfg e).bind fun req => perform cfg req es := rfl

theorem perform_append (req : HttpReq) (es fs : List HttpEvent) :
    perform cfg req (es ++ fs) = (perform cfg req es).bind fun req => perform cfg req fs :=
  List.foldlM_append

/-- The pieces of the name of a header are as good as the name. -/
theorem headerFieldCb_append {a b : List UInt8} (h : a = [] → b = []) (req : HttpReq) :
    (req.headerFieldCb cfg a).bind (headerFieldCb cfg b) = req.headerFieldCb cfg (a ++ b) := by
  have hstate : (if req.headerState ≠ .recv then req.startField cfg else req).headerState =
      .recv := by
    split_ifs with hrecv
    · rfl
    · exact not_not.1 hrecv
  unfold headerFieldCb
  dsimp only
  generalize (if req.headerState ≠ .recv then req.startField cfg else req) = req at hstate ⊢
  cases hheader : req.header.strAppendData a with
  | none =>
    obtain ⟨-, rfl⟩ := StrText.strAppendData_eq_none.1 hheader
    obtain rfl := h rfl
    rw [List.append_nil, hheader]
    rfl
  | some header =>
    obtain ⟨header', hb, hab⟩ := StrText.strAppendData_append hheader b
    simp only [Except.bind, hstate, ne_eq, not_true_eq_false, if_false, hb, hab]

/-- The pieces of the value of a header are as good as the value. -/
theorem headerValueCb_append {a b : List UInt8} (h : a = [] → b = []) (req : HttpReq) :
    (req.headerValueCb a).bind (headerValueCb b) = req.headerValueCb (a ++ b) := by
  have hstate : (if req.headerState ≠ .valueRecv then req.startValue else req).headerState =
      .valueRecv := by
    split_ifs with hrecv
    · rfl
    · exact not_not.1 hrecv
  unfold headerValueCb
  dsimp only
  generalize (if req.headerState ≠ .valueRecv then req.startValue else req) = req at hstate ⊢
  cases hvalue : req.value.strAppendData a with
  | none =>
    obtain ⟨-, rfl⟩ := StrText.strAppendData_eq_none.1 hvalue
    obtain rfl := h rfl
    rw [List.append_nil, hvalue]
    rfl
  | some value =>
    obtain ⟨value', hb, hab⟩ := StrText.strAppendData_append hvalue b
    simp only [Except.bind, hstate, ne_eq, not_true_eq_false, if_false, hb, hab]

theorem bodyCb_bodyCb (req : HttpReq) (a b : List UInt8) :
    (req.bodyCb a).bodyCb b = req.bodyCb (a ++ b) := by
  simp [bodyCb]

/-- The calls for the pieces of a name or a value, where two calls are as good as one. -/
theorem perform_pieces {event : List UInt8 → HttpEvent}
    (happend : ∀ {a b : List UInt8}, (a = [] → b = []) → ∀ req : HttpReq,
      (req.call cfg (event a)).bind (fun req => req.call cfg (event b)) =
        req.call cfg (event (a ++ b)))
    {pieces : List (List UInt8)} {part : List UInt8} (h : HttpRequest.TextCut pieces part)
    (req : HttpReq) : perform cfg req (pieces.map event) = req.call cfg (event part) := by
  obtain ⟨⟨hne, rfl⟩, hhead⟩ := h
  obtain ⟨a, pieces, rfl⟩ := List.exists_cons_of_ne_nil hne
  replace hhead : a = [] → (a :: pieces).flatten = [] := fun hnil => hhead (congrArg some hnil)
  clear hne
  -- the first two pieces are read as one
  induction pieces generalizing a with
  | nil =>
    rw [List.flatten_cons, List.flatten_nil, List.append_nil]
    exact bind_pure _
  | cons b pieces ih =>
    have hflatten : (a :: b :: pieces).flatten = ((a ++ b) :: pieces).flatten := by
      rw [List.flatten_cons, List.flatten_cons, List.flatten_cons, List.append_assoc]
    have hnil : a = [] → b = [] := fun ha =>
      (List.append_eq_nil_iff.1 (List.append_eq_nil_iff.1 (hhead ha)).2).1
    rw [hflatten, ← ih (a ++ b) fun hab => hflatten ▸ hhead (List.append_eq_nil_iff.1 hab).1,
      List.map_cons, List.map_cons, List.map_cons, perform_cons, perform_cons, ← happend hnil]
    cases req.call cfg (event a) <;> rfl

/-- What the headers have said, with the one that was read last. -/
def pending (cfg : HttpConfig) (req : HttpReq) : Derived :=
  if req.headerState = .valueRecv then
    headerValueCheck cfg req.nextHeader req.value.text req.derived
  else req.derived

theorem perform_body (pieces : List (List UInt8)) (req : HttpReq) :
    perform cfg req (pieces.map .body) = .ok (req.bodyCb pieces.flatten) := by
  induction pieces generalizing req with
  | nil => simp [perform_nil, bodyCb]
  | cons a pieces ih =>
    rw [List.map_cons, perform_cons, call, Except.bind, ih, bodyCb_bodyCb, List.flatten_cons]

/-- A URL replaces the one before: the last piece stays, if none is too long. -/
theorem perform_url (pieces : List (List UInt8)) (req : HttpReq) :
    perform cfg req (pieces.map .url) =
      if ∃ piece ∈ pieces, urlSize ≤ piece.length then .error .error
      else .ok { req with url := pieces.getLast?.getD req.url } := by
  induction pieces generalizing req with
  | nil => simp [perform_nil]
  | cons a pieces ih =>
    rw [List.map_cons, perform_cons, call, urlCb]
    by_cases ha : urlSize ≤ a.length
    · rw [if_pos ha, if_pos ⟨a, List.mem_cons_self, ha⟩]
      rfl
    · rw [if_neg ha, Except.bind, ih]
      simp only [List.mem_cons, exists_eq_or_imp, ha, false_or, List.getLast?_cons,
        Option.getD_some]

/-- No header is written through `NULL`: the first name and the first value are not empty, unless
a request before this one left a block. -/
def Ready (req : HttpReq) (headers : List (List UInt8 × List UInt8)) : Prop :=
  ∀ h ∈ headers.head?, (req.header = none → h.1 ≠ []) ∧ (req.value = none → h.2 ≠ [])

/-- The blocks stay with a reset. -/
theorem ready_reset {req : HttpReq} {url : List UInt8} {headers : List (List UInt8 × List UInt8)} :
    { req.reset with url }.Ready headers ↔ req.Ready headers := by
  have hblock (str : StrText) : str.strReset = none ↔ str = none := Option.map_eq_none_iff
  unfold Ready
  refine forall₂_congr fun h _ => ?_
  exact and_congr (imp_congr_left (hblock _)) (imp_congr_left (hblock _))

/-- The calls for a header. -/
def headerCalls (cfg : HttpConfig) (req : HttpReq) (h : List UInt8 × List UInt8) :
    Except HttpStop HttpReq :=
  (req.headerFieldCb cfg h.1).bind (headerValueCb h.2)

/-- The state with one more header. -/
def withHeader (cfg : HttpConfig) (req : HttpReq) (h : List UInt8 × List UInt8) : HttpReq :=
  { req with
    derived := req.pending cfg
    headerState := .valueRecv
    header := some h.1
    value := some h.2
    nextHeader := inWordSet h.1 }

/-- **What the calls for a header do.** -/
theorem headerCalls_eq {req : HttpReq} (hstate : req.headerState ≠ .recv)
    {h : List UInt8 × List UInt8} (hname : req.header = none → h.1 ≠ [])
    (hvalue : req.value = none → h.2 ≠ []) :
    req.headerCalls cfg h = .ok (req.withHeader cfg h) := by
  have hfield : req.headerFieldCb cfg h.1 =
      .ok { req.startField cfg with header := some h.1 } := by
    rw [headerFieldCb]
    simp only [if_pos hstate, startField, StrText.strAppendData_strReset hname]
  rw [headerCalls, hfield, Except.bind, headerValueCb]
  simp only [startField, startValue, ne_eq, reduceCtorEq, not_false_eq_true, if_true,
    StrText.strAppendData_strReset hvalue]
  rfl

/-- An empty name or value without a block is written through `NULL`. -/
theorem headerCalls_null (cfg : HttpConfig) {req : HttpReq} (hstate : req.headerState ≠ .recv)
    {h : List UInt8 × List UInt8}
    (hnull : ¬ ((req.header = none → h.1 ≠ []) ∧ (req.value = none → h.2 ≠ []))) :
    ∃ req', req.headerCalls cfg h = .error (.null req') := by
  have hreset {str : StrText} (hnone : str = none) : str.strReset.strAppendData [] = none := by
    rw [hnone]
    rfl
  by_cases hname : req.header = none → h.1 ≠ []
  · obtain ⟨hnone, hnil⟩ := Classical.not_imp.1 fun hvalue => hnull ⟨hname, hvalue⟩
    rw [headerCalls, headerFieldCb]
    simp only [if_pos hstate, startField, StrText.strAppendData_strReset hname, Except.bind]
    rw [headerValueCb, not_not.1 hnil]
    simp only [startValue, ne_eq, reduceCtorEq, not_false_eq_true, if_true, hreset hnone]
    exact ⟨_, rfl⟩
  · obtain ⟨hnone, hnil⟩ := Classical.not_imp.1 hname
    rw [headerCalls, headerFieldCb, not_not.1 hnil]
    simp only [if_pos hstate, startField, hreset hnone]
    exact ⟨_, rfl⟩

/-- The URL when the calls end, unless a callback returns an error. -/
def endUrl : Except HttpStop HttpReq → Option (List UInt8)
  | .ok req | .error (.null req) => some req.url
  | .error .error => none

theorem endUrl_bind {result : Except HttpStop HttpReq} {url : List UInt8}
    {calls : HttpReq → Except HttpStop HttpReq} (h : endUrl result = some url)
    (hcalls : ∀ req : HttpReq, req.url = url → endUrl (calls req) = some url) :
    endUrl (result.bind calls) = some url := by
  cases result with
  | ok req => exact hcalls req (Option.some.inj h)
  | error stop => exact h

theorem endUrl_headerCalls (req : HttpReq) (h : List UInt8 × List UInt8) :
    endUrl (req.headerCalls cfg h) = some req.url := by
  have hfield : ∀ at' (req : HttpReq), endUrl (req.headerFieldCb cfg at') = some req.url := by
    intro at' req
    unfold headerFieldCb
    split_ifs <;> dsimp only <;> split <;> rfl
  have hvalue : ∀ at' (req : HttpReq), endUrl (req.headerValueCb at') = some req.url := by
    intro at' req
    unfold headerValueCb
    split_ifs <;> dsimp only <;> split <;> rfl
  exact endUrl_bind (hfield _ _) fun req' hurl => hurl ▸ hvalue _ req'

end HttpReq

/-! ### From the URL on -/

namespace HttpRequest

open HttpReq

variable {cfg : HttpConfig} {r : HttpRequest} {p : HttpPieces}

/-- The calls for the headers, the body and the end of a request. -/
def finish (cfg : HttpConfig) (r : HttpRequest) (req : HttpReq) : Except HttpStop HttpReq :=
  (r.headers.foldlM (headerCalls cfg) req).map fun req =>
    ((req.headerCompleteCb cfg).bodyCb r.body).messageCompleteCb

theorem perform_headers {pieces : List (List (List UInt8) × List (List UInt8))}
    {headers : List (List UInt8 × List UInt8)}
    (h : List.Forall₂ (fun h h' => TextCut h.1 h'.1 ∧ TextCut h.2 h'.2) pieces headers)
    (req : HttpReq) :
    perform cfg req (pieces.flatMap headerEvents) = headers.foldlM (headerCalls cfg) req := by
  induction h generalizing req with
  | nil => rfl
  | @cons pieces head _ _ hcut _ ih =>
    have hhead : perform cfg req (headerEvents pieces) = req.headerCalls cfg head := by
      rw [headerEvents, perform_append, perform_pieces headerFieldCb_append hcut.1]
      exact congrArg _ (funext fun req => perform_pieces headerValueCb_append hcut.2 req)
    rw [List.flatMap_cons, perform_append, hhead, List.foldlM_cons, funext ih]
    rfl

/-- **The calls for a request**, however it is cut: only the URL depends on the pieces. -/
theorem perform_events (h : r.CutInto p) (req : HttpReq) :
    perform cfg req p.events =
      if ∃ piece ∈ p.url, urlSize ≤ piece.length then .error .error
      else finish cfg r { req with url := p.url.getLast?.getD req.url } := by
  rw [HttpPieces.events, perform_append, perform_url]
  split
  · rfl
  -- no other callback returns an error
  · rw [Except.bind, perform_append, perform_headers h.headers, finish]
    cases List.foldlM (headerCalls cfg) _ r.headers with
    | error stop => rfl
    | ok req =>
      rw [Except.bind, perform_cons, call, Except.bind, perform_append, perform_body, h.body]
      rfl

theorem whole_cutInto (r : HttpRequest) : r.CutInto r.whole := by
  have hcut : ∀ part : List UInt8, Cut [part] part :=
    fun part => ⟨List.cons_ne_nil _ _, by rw [List.flatten_cons, List.flatten_nil,
      List.append_nil]⟩
  have htext : ∀ part : List UInt8, TextCut [part] part :=
    fun part => ⟨hcut part, fun hhead => Option.some.inj hhead⟩
  refine ⟨hcut _, ?_, ?_⟩
  · rw [whole, List.forall₂_map_left_iff, List.forall₂_same]
    exact fun h _ => ⟨htext _, htext _⟩
  · simp only [whole]
    split
    · rename_i hnil
      rw [hnil, List.flatten_nil]
    · rw [List.flatten_cons, List.flatten_nil, List.append_nil]

/-- The URL stays as the last call for it left it. -/
theorem endUrl_finish (req : HttpReq) : endUrl (finish cfg r req) = some req.url := by
  have hheaders : ∀ headers : List (List UInt8 × List UInt8), ∀ req : HttpReq,
      endUrl (headers.foldlM (headerCalls cfg) req) = some req.url := by
    intro headers
    induction headers with
    | nil => exact fun req => rfl
    | cons h headers ih =>
      intro req
      rw [List.foldlM_cons]
      exact endUrl_bind (endUrl_headerCalls req h) fun req' hurl => hurl ▸ ih req'
  have hend := hheaders r.headers req
  rw [finish]
  cases hfold : r.headers.foldlM (headerCalls cfg) req with
  | error stop => rwa [hfold] at hend
  | ok req' => rwa [hfold] at hend

/-- **What the headers of a request say**, where nothing is written through `NULL`: each is read
by its name, in turn. -/
theorem foldlM_headerCalls (cfg : HttpConfig) {headers : List (List UInt8 × List UInt8)}
    {req : HttpReq} (hstate : req.headerState ≠ .recv) (hready : req.Ready headers) :
    ∃ req', headers.foldlM (headerCalls cfg) req = .ok req' ∧
      (headers ≠ [] → req'.headerState = .valueRecv) ∧
      req'.pending cfg = headers.foldl
        (fun d h => headerValueCheck cfg (inWordSet h.1) h.2 d) (req.pending cfg) := by
  induction headers generalizing req with
  | nil => exact ⟨req, rfl, fun hne => absurd rfl hne, rfl⟩
  | cons h headers ih =>
    obtain ⟨hname, hvalue⟩ := hready h rfl
    -- from now on there are blocks
    have hblocks : (req.withHeader cfg h).header ≠ none ∧ (req.withHeader cfg h).value ≠ none :=
      ⟨Option.some_ne_none _, Option.some_ne_none _⟩
    obtain ⟨req', hfold, hlast, hpending⟩ := @ih (req.withHeader cfg h) HeaderState.noConfusion
      fun _ _ => ⟨fun hnone => absurd hnone hblocks.1, fun hnone => absurd hnone hblocks.2⟩
    refine ⟨req', ?_, fun _ => ?_, hpending⟩
    · rw [List.foldlM_cons, headerCalls_eq hstate hname hvalue]
      exact hfold
    · by_cases hnil : headers = []
      · rw [hnil] at hfold
        obtain rfl := Except.ok.inj hfold
        rfl
      · exact hlast hnil

/-- **Which requests are read to their end**, however they are cut: those with a URL that has no
piece that is too long, and no name or value that is written through `NULL`. -/
theorem perform_eq_ok_iff (h : r.CutInto p) (req : HttpReq) :
    (∃ req', perform cfg req.reset p.events = .ok req') ↔
      (∀ piece ∈ p.url, piece.length < urlSize) ∧ req.Ready r.headers := by
  have hstate {url : List UInt8} : { req.reset with url }.headerState ≠ .recv :=
    HeaderState.noConfusion
  rw [perform_events h]
  split_ifs with hlong
  · refine iff_of_false (fun ⟨_, hok⟩ => by cases hok) fun hshort => ?_
    obtain ⟨piece, hmem, hle⟩ := hlong
    exact absurd (hshort.1 piece hmem) (not_lt.2 hle)
  · rw [and_iff_right fun piece hmem => lt_of_not_ge fun hle => hlong ⟨piece, hmem, hle⟩, finish,
      ← ready_reset]
    constructor
    · rintro ⟨req', hok⟩ head hhead
      by_contra hnull
      -- nothing is read after the first header
      obtain ⟨headers, hheaders⟩ := List.head?_eq_some_iff.1 hhead
      obtain ⟨req₁, herror⟩ := headerCalls_null cfg hstate hnull
      rw [hheaders, List.foldlM_cons, herror] at hok
      cases hok
    · intro hready
      obtain ⟨req', hfold, -, -⟩ := foldlM_headerCalls cfg hstate hready
      rw [hfold]
      exact ⟨_, rfl⟩

/-- **When parsing does not depend on the read boundaries.**  The state at the end of a request,
or at a write through `NULL`, is the one for the request in a single read if and only if the last
piece of the URL is the whole URL, or the URL is longer than the buffer and so is one of its
pieces.  Names and values of headers and the body can be cut at will. -/
theorem perform_cut_iff (h : r.CutInto p) (req : HttpReq) :
    perform cfg req.reset p.events = perform cfg req.reset r.whole.events ↔ r.UrlKept p := by
  have hwhole : (∃ piece ∈ r.whole.url, urlSize ≤ piece.length) ↔ urlSize ≤ r.url.length := by
    simp [whole]
  have hlast : ∃ piece, p.url.getLast? = some piece :=
    ⟨_, List.getLast?_eq_some_getLast h.url.1⟩
  obtain ⟨piece, hpiece⟩ := hlast
  rw [perform_events h, perform_events r.whole_cutInto, UrlKept]
  simp only [hwhole]
  by_cases hlen : r.url.length < urlSize
  · -- every piece is at most as long as the URL
    have hshort : ¬ ∃ piece ∈ p.url, urlSize ≤ piece.length := by
      rintro ⟨piece, hmem, hle⟩
      have hsub := (List.sublist_flatten_of_mem hmem).length_le
      rw [h.url.2] at hsub
      omega
    rw [if_neg hshort, if_neg (not_le.2 hlen), if_pos hlen, hpiece]
    constructor
    · intro heq
      have hurl := congrArg endUrl heq
      rw [endUrl_finish, endUrl_finish] at hurl
      exact hurl
    · rintro ⟨⟩
      rfl
  · rw [if_pos (not_lt.1 hlen), if_neg hlen]
    constructor
    · intro herror
      by_contra hno
      rw [if_neg hno] at herror
      have hurl := congrArg endUrl herror
      rw [endUrl_finish] at hurl
      cases hurl
    · exact fun hlong => if_pos hlong

/-! ### Two ways to cut a request -/

/-- `POST /auth` with a cookie that is no cookie of the server. -/
def postAuth : HttpRequest where
  url := ascii "/auth"
  headers := [(ascii "Cookie", ascii "a=b")]
  body := ascii "<init>"

/-- A boundary in the value of the header and in the body. -/
def cutInHeader : HttpPieces where
  url := [ascii "/auth"]
  headers := [([ascii "Cookie"], [ascii "a=", ascii "b"])]
  body := [ascii "<in", ascii "it>"]

/-- A boundary in the URL. -/
def cutInUrl : HttpPieces where
  url := [ascii "/au", ascii "th"]
  headers := [([ascii "Cookie"], [ascii "a=b"])]
  body := [ascii "<init>"]

/-- A server with password authentication. -/
def plainServer : HttpConfig where
  tlsSession := none
  enableCompression := true
  authMethods := [⟨true, authTypeUsernamePass⟩]
  hex2bin _ buffer := buffer
  base64Decode _ _ := none

/-- The state of a connection before its first request. -/
def firstRequest : HttpReq where
  url := []
  header := none
  value := none
  headerState := .init
  nextHeader := none
  body := []
  headersComplete := false
  messageComplete := false
  derived :=
    { masterSecret := []
      masterSecretSet := false
      hostname := []
      isMobile := false
      spnegoSet := false
      authorization := none
      userAgent := []
      userAgentType := .unknown
      selectedCiphersuite := none
      cstpSelectedComp := none
      dtlsSelectedComp := none
      baseMtu := 0
      noIpv4 := false
      noIpv6 := false
      fullIpv6 := false
      cookie := none
      sid := none
      authState := .inactive
      selectedAuth := 0 }

theorem perform_cutInHeader :
    perform plainServer firstRequest.reset cutInHeader.events =
      perform plainServer firstRequest.reset postAuth.whole.events := by
  have hurl : postAuth.UrlKept cutInHeader := by
    rw [UrlKept, if_pos (by decide)]
    decide
  exact (perform_cut_iff ⟨⟨by decide, by decide⟩,
    .cons ⟨⟨⟨by decide, by decide⟩, by decide⟩, ⟨by decide, by decide⟩, by decide⟩ .nil,
    by decide⟩ firstRequest).2 hurl

theorem not_perform_cutInUrl :
    postAuth.CutInto cutInUrl ∧
      perform plainServer firstRequest.reset cutInUrl.events ≠
        perform plainServer firstRequest.reset postAuth.whole.events := by
  have hcut : postAuth.CutInto cutInUrl :=
    ⟨⟨by decide, by decide⟩,
      .cons ⟨⟨⟨by decide, by decide⟩, by decide⟩, ⟨by decide, by decide⟩, by decide⟩ .nil,
      by decide⟩
  refine ⟨hcut, ?_⟩
  intro heq
  rw [perform_events hcut, perform_events postAuth.whole_cutInto, if_neg (by decide),
    if_neg (by decide)] at heq
  have hurl := congrArg endUrl heq
  rw [endUrl_finish, endUrl_finish] at hurl
  revert hurl
  decide

end HttpRequest

end Worker

end Ocserv
