import Ocserv.Gl.Base64
import Ocserv.Lines
import Ocserv.Worker.Http

/-!
# Worker: the cookie of a client

`post_common_handler` of `src/worker-auth.c` gives the cookie of the session to the client, as a
text of base64 in a `Set-Cookie` header.  The client sends it back when it connects, in a `Cookie`
header that may have other cookies too, and `header_value_check` of `src/worker-http.c` decodes it.

* `cookie_restored` : **the worker has the bytes again**, wherever the request is cut.
-/

namespace Ocserv

namespace Worker

open Base64 (encode)

/-- `BASE64_LENGTH` -/
def base64Length (inlen : ℕ) : ℕ := (inlen + 2) / 3 * 4

/-- The `Set-Cookie` header of `post_common_handler`, with `str_cookie` up to its terminator. -/
def setCookie (cookie : List UInt8) : Option (List UInt8) :=
  (Gl.base64Encode cookie (base64Length cookie.length + 1)).map fun strCookie =>
    ascii "Set-Cookie: webvpn=" ++ cString strCookie ++ ascii "; Secure\r\n"

/-- What a client keeps of the header: the name and the value. -/
def cookiePair (header : List UInt8) : List UInt8 :=
  (header.drop (ascii "Set-Cookie: ").length).takeWhile (· ≠ 59)

/-- `base64_decode`, as `header_value_check` calls it. -/
def base64Decode (size : ℕ) (text : List UInt8) : Option (List UInt8) :=
  match Gl.base64Decode text size with
  | some (true, out) => some out
  | some (false, _) | none => none

/-- Another cookie of the client. -/
structure OtherCookie (token : List UInt8) : Prop where
  separator : 59 ∉ token
  zero : 0 ∉ token
  name : ¬ ascii "webvpn=" <+: token.dropWhile cIsspace

/-- What a client sends in `Cookie`: its cookies, with white space around the one of the worker. -/
def cookieValue (before : List (List UInt8)) (space : List UInt8) (pair : List UInt8)
    (space' : List UInt8) (after : List (List UInt8)) : List UInt8 :=
  [59].intercalate (before ++ (space ++ pair ++ space') :: after)

/-! ### The text of a cookie -/

/-- A character of a text of base64 is no separator, no white space and not zero. -/
theorem plain_of_mem_encode {bytes : List UInt8} {c : UInt8} (h : c ∈ encode bytes) :
    c ≠ 0 ∧ c ≠ 59 ∧ cIsspace c = false := by
  have hall : ∀ d ∈ Base64.pad :: Base64.alphabet, d ≠ 0 ∧ d ≠ 59 ∧ cIsspace d = false := by
    decide +kernel
  obtain hmem | rfl := Base64.mem_encode h
  · exact hall c (List.mem_cons_of_mem _ hmem)
  · exact hall _ List.mem_cons_self

theorem setCookie_eq (cookie : List UInt8) :
    setCookie cookie =
      some (ascii "Set-Cookie: webvpn=" ++ encode cookie ++ ascii "; Secure\r\n") := by
  have hlen : (encode cookie).length = base64Length cookie.length := Base64.length_encode cookie
  have hstring : cString (encode cookie ++ [0]) = encode cookie :=
    Lines.takeWhile_append_sep (fun h => (plain_of_mem_encode h).1 rfl) []
  have hroom : ¬ (base64Length cookie.length + 1) % 4 = 0 := by
    rw [base64Length]
    omega
  rw [setCookie, Gl.base64Encode, if_neg fun hfast => hroom hfast.1, Gl.base64EncodeLoop_eq,
    List.take_of_length_le (by rw [List.length_append, hlen, List.length_singleton]),
    Option.map_some, hstring]

theorem cookiePair_setCookie {cookie header : List UInt8} (h : setCookie cookie = some header) :
    cookiePair header = ascii "webvpn=" ++ encode cookie := by
  rw [setCookie_eq] at h
  obtain rfl := Option.some.inj h
  have hname : ascii "Set-Cookie: webvpn=" = ascii "Set-Cookie: " ++ ascii "webvpn=" := by decide
  have hend : ascii "; Secure\r\n" = 59 :: ascii " Secure\r\n" := by decide
  have hplain : 59 ∉ ascii "webvpn=" ++ encode cookie := by
    rw [List.mem_append, not_or]
    exact ⟨by decide, fun h => (plain_of_mem_encode h).2.1 rfl⟩
  rw [cookiePair, hname, List.append_assoc, List.append_assoc, List.drop_left, ← List.append_assoc,
    hend, Lines.takeWhile_append_sep hplain]

theorem base64Decode_encode (cookie : List UInt8) :
    base64Decode (encode cookie).length (encode cookie) = some cookie := by
  have hlen := Base64.length_encode cookie
  rw [base64Decode, Gl.base64Decode_of_some (Base64.decode_encode cookie),
    List.take_of_length_le (by omega)]

/-! ### One header -/

variable {cfg : HttpConfig} {d : Derived}

/-- What the headers say of the cookie. -/
def Derived.auth (d : Derived) : Option (List UInt8) × AuthState := (d.cookie, d.authState)

theorem cookieToken_other {token : List UInt8} (h : OtherCookie token) :
    (cookieToken cfg d token).auth = d.auth := by
  rw [cookieToken]
  dsimp only
  rw [if_neg (by rw [List.isPrefixOf_iff_prefix]; exact h.name)]
  split
  · split <;> rfl
  · rfl

theorem trimEnd_append {text space : List UInt8} (hne : text ≠ [])
    (htext : ∀ c ∈ text, cIsspace c = false) (hspace : ∀ c ∈ space, cIsspace c = true) :
    trimEnd (text ++ space) = text := by
  have hskip : (text ++ space).reverse.dropWhile cIsspace = text.reverse := by
    have hlast : text.reverse.dropWhile cIsspace = text.reverse := by
      cases hrev : text.reverse with
      | nil => rfl
      | cons c cs =>
        have hc : c ∈ text := List.mem_reverse.1 (hrev ▸ List.mem_cons_self)
        rw [List.dropWhile_cons_of_neg (by rw [htext c hc]; exact Bool.false_ne_true)]
    rw [List.reverse_append, List.dropWhile_append_of_pos fun c hc =>
      hspace c (List.mem_reverse.1 hc), hlast]
  rw [trimEnd, hskip, List.reverse_reverse]
  cases text with
  | nil => exact absurd rfl hne
  | cons c cs => rfl

/-- **The token with the cookie.** -/
theorem cookieToken_pair (hcfg : cfg.base64Decode = base64Decode) {cookie : List UInt8}
    (hne : cookie ≠ []) {space space' : List UInt8} (hspace : ∀ c ∈ space, cIsspace c = true)
    (hspace' : ∀ c ∈ space', cIsspace c = true) :
    (cookieToken cfg d (space ++ (ascii "webvpn=" ++ encode cookie) ++ space')).auth =
      (some cookie, .cookie) := by
  have hstart : (space ++ (ascii "webvpn=" ++ encode cookie) ++ space').dropWhile cIsspace =
      ascii "webvpn=" ++ (encode cookie ++ space') := by
    rw [List.append_assoc, List.dropWhile_append_of_pos hspace, List.append_assoc]
    rfl
  have htext : encode cookie ≠ [] := by
    intro hnil
    have hlen := Base64.length_encode cookie
    have hpos := List.length_pos_of_ne_nil hne
    rw [hnil, List.length_nil] at hlen
    omega
  have hname : (ascii "webvpn=").length = 7 := by decide
  rw [cookieToken]
  dsimp only
  rw [hstart, if_pos (by rw [List.isPrefixOf_iff_prefix]; exact List.prefix_append _ _), ← hname,
    List.drop_left, trimEnd_append htext (fun c hc => (plain_of_mem_encode hc).2.2) hspace', hcfg,
    base64Decode_encode]
  rfl

theorem mem_of_mem_intercalate {tokens : List (List UInt8)} {c x : UInt8}
    (h : c ∈ [x].intercalate tokens) : c = x ∨ ∃ t ∈ tokens, c ∈ t := by
  induction tokens with
  | nil => cases h
  | cons t tokens ih =>
    cases tokens with
    | nil =>
      rw [List.intercalate_singleton] at h
      exact .inr ⟨t, List.mem_cons_self, h⟩
    | cons u tokens =>
      rw [List.intercalate_cons_cons, List.mem_append, List.mem_append, List.mem_singleton] at h
      obtain (h | h) | h := h
      · exact .inr ⟨t, List.mem_cons_self, h⟩
      · exact .inl h
      · obtain h | ⟨t', ht', h⟩ := ih h
        · exact .inl h
        · exact .inr ⟨t', List.mem_cons_of_mem _ ht', h⟩

theorem foldl_other {tokens : List (List UInt8)} (h : ∀ t ∈ tokens, OtherCookie t) :
    (tokens.foldl (cookieToken cfg) d).auth = d.auth := by
  induction tokens generalizing d with
  | nil => rfl
  | cons t tokens ih =>
    rw [List.foldl_cons, ih fun t ht => h t (List.mem_cons_of_mem _ ht),
      cookieToken_other (h t List.mem_cons_self)]

/-- **The cookie is found among the others.** -/
theorem headerValueCheck_cookie (hcfg : cfg.base64Decode = base64Decode)
    {cookie header : List UInt8} (hne : cookie ≠ []) (hset : setCookie cookie = some header)
    {before after : List (List UInt8)} (hothers : ∀ t ∈ before ++ after, OtherCookie t)
    {space space' : List UInt8} (hspace : ∀ c ∈ space, cIsspace c = true)
    (hspace' : ∀ c ∈ space', cIsspace c = true) :
    (headerValueCheck cfg (some .cookie)
      (cookieValue before space (cookiePair header) space' after) d).auth =
        (some cookie, .cookie) := by
  have hbefore : ∀ t ∈ before, OtherCookie t := fun t ht =>
    hothers t (List.mem_append_left _ ht)
  have hafter : ∀ t ∈ after, OtherCookie t := fun t ht => hothers t (List.mem_append_right _ ht)
  have hweb : ∀ c ∈ ascii "webvpn=", c ≠ 0 ∧ c ≠ 59 := by decide +kernel
  have hblank : ∀ c, cIsspace c = true → c ≠ 0 ∧ c ≠ 59 := by
    rintro c hc
    constructor <;> rintro rfl <;> cases hc
  have htoken : ∀ c ∈ space ++ cookiePair header ++ space', c ≠ 0 ∧ c ≠ 59 := by
    intro c hc
    rw [cookiePair_setCookie hset] at hc
    simp only [List.mem_append] at hc
    obtain (hc | hc | hc) | hc := hc
    · exact hblank c (hspace c hc)
    · exact hweb c hc
    · exact ⟨(plain_of_mem_encode hc).1, (plain_of_mem_encode hc).2.1⟩
    · exact hblank c (hspace' c hc)
  have htokenNe : space ++ cookiePair header ++ space' ≠ [] := by
    rw [cookiePair_setCookie hset]
    simp [ascii]
  -- The tokens are those that were joined.
  have hsplit : (cookieValue before space (cookiePair header) space' after).splitOn 59 =
      before ++ (space ++ cookiePair header ++ space') :: after := by
    refine List.splitOn_intercalate 59 (fun t ht => ?_) (by simp)
    obtain ht | ht := List.mem_append.1 ht
    · exact (hbefore t ht).separator
    · obtain rfl | ht := List.mem_cons.1 ht
      · exact fun hmem => (htoken 59 hmem).2 rfl
      · exact (hafter t ht).separator
  have hzero : cString (cookieValue before space (cookiePair header) space' after) =
      cookieValue before space (cookiePair header) space' after := by
    refine Lines.takeWhile_of_notMem fun hmem => ?_
    obtain hsep | ⟨t, ht, hmem⟩ := mem_of_mem_intercalate hmem
    · cases hsep
    · obtain ht | ht := List.mem_append.1 ht
      · exact (hbefore t ht).zero hmem
      · obtain rfl | ht := List.mem_cons.1 ht
        · exact (htoken 0 hmem).1 rfl
        · exact (hafter t ht).zero hmem
  have hvalue : cookieValue before space (cookiePair header) space' after ≠ [] := by
    intro hnil
    rw [hnil, List.splitOn_nil] at hsplit
    have hmem : space ++ cookiePair header ++ space' ∈ [[]] :=
      hsplit ▸ List.mem_append_right _ List.mem_cons_self
    exact htokenNe (List.mem_singleton.1 hmem)
  have hfilter {tokens : List (List UInt8)} (h : ∀ t ∈ tokens, OtherCookie t) :
      ∀ t ∈ tokens.filter (· ≠ []), OtherCookie t := fun t ht => h t (List.mem_filter.1 ht).1
  rw [headerValueCheck, if_neg hvalue, hzero, strtok, hsplit, List.filter_append, List.filter_cons,
    if_pos (decide_eq_true htokenNe), List.foldl_append, List.foldl_cons,
    foldl_other (hfilter hafter), cookiePair_setCookie hset,
    cookieToken_pair hcfg hne hspace hspace']

/-! ### The whole request -/

theorem headerValueCheck_other {name : Option Header} (h : name ≠ some .cookie)
    (value : List UInt8) : (headerValueCheck cfg name value d).auth = d.auth := by
  unfold headerValueCheck
  repeat' split
  all_goals first | rfl | exact absurd rfl h

theorem inWordSet_cookie {name : List UInt8} :
    inWordSet name = some .cookie ↔ name = ascii "Cookie" := by
  constructor
  · intro h
    have hcookie : ∀ p ∈ wordlist, p.2 = .cookie → p.1 = ascii "Cookie" := by decide
    obtain ⟨p, hfind, hp⟩ := Option.map_eq_some_iff.1 h
    have hname : p.1 = name := by simpa using List.find?_some hfind
    rw [← hname]
    exact hcookie p (List.mem_of_find?_eq_some hfind) hp
  · rintro rfl
    decide

/-- What the headers of a request say at its end. -/
theorem derived_finish (cfg : HttpConfig) {r : HttpRequest} (h : r.headers ≠ []) {req : HttpReq}
    (hstate : req.headerState = .init) (hready : req.Ready r.headers) :
    ∃ req', HttpRequest.finish cfg r req = .ok req' ∧ req'.derived = spnegoFallback cfg
      (r.headers.foldl (fun d h => headerValueCheck cfg (inWordSet h.1) h.2 d) req.derived) := by
  have hinit : req.headerState ≠ .recv := by
    rw [hstate]
    exact HeaderState.noConfusion
  obtain ⟨req', hfold, hlast, hpending⟩ :=
    HttpRequest.foldlM_headerCalls cfg hinit hready
  rw [HttpReq.pending, if_pos (hlast h), HttpReq.pending, if_neg (by rw [hstate]; decide)]
    at hpending
  rw [HttpRequest.finish, hfold]
  exact ⟨_, rfl, congrArg (spnegoFallback cfg) hpending⟩

theorem spnegoFallback_auth : (spnegoFallback cfg d).auth = d.auth := by
  rw [spnegoFallback]
  split <;> rfl

theorem foldl_headers {headers : List (List UInt8 × List UInt8)}
    (h : ∀ h ∈ headers, h.1 ≠ ascii "Cookie") :
    (headers.foldl (fun d h => headerValueCheck cfg (inWordSet h.1) h.2 d) d).auth = d.auth := by
  induction headers generalizing d with
  | nil => rfl
  | cons head headers ih =>
    have hname : inWordSet head.1 ≠ some .cookie := fun hname =>
      h head List.mem_cons_self (inWordSet_cookie.1 hname)
    rw [List.foldl_cons, ih fun x hx => h x (List.mem_cons_of_mem _ hx),
      headerValueCheck_other hname]

/-- **The worker has the cookie again.** -/
theorem cookie_restored (hcfg : cfg.base64Decode = base64Decode) {cookie header : List UInt8}
    (hne : cookie ≠ []) (hset : setCookie cookie = some header)
    {before after : List (List UInt8)} (hothers : ∀ t ∈ before ++ after, OtherCookie t)
    {space space' : List UInt8} (hspace : ∀ c ∈ space, cIsspace c = true)
    (hspace' : ∀ c ∈ space', cIsspace c = true) {r : HttpRequest}
    {headers headers' : List (List UInt8 × List UInt8)}
    (hheaders : r.headers = headers ++
      (ascii "Cookie", cookieValue before space (cookiePair header) space' after) :: headers')
    (hlast : ∀ h ∈ headers', h.1 ≠ ascii "Cookie") {p : HttpPieces} (hcut : r.CutInto p)
    (hurl : ∀ piece ∈ p.url, piece.length < urlSize) {req : HttpReq}
    (hready : req.Ready r.headers) :
    ∃ req', HttpReq.perform cfg req.reset p.events = .ok req' ∧
      req'.derived.auth = (some cookie, .cookie) := by
  have hnoLong : ¬ ∃ piece ∈ p.url, urlSize ≤ piece.length := by
    rintro ⟨piece, hmem, hlong⟩
    exact absurd (hurl piece hmem) (not_lt.2 hlong)
  have hname : inWordSet (ascii "Cookie") = some .cookie := inWordSet_cookie.2 rfl
  have hheader : r.headers ≠ [] := by
    rw [hheaders]
    simp
  have hready' : { req.reset with url := p.url.getLast?.getD req.reset.url }.Ready r.headers :=
    HttpReq.ready_reset.2 hready
  obtain ⟨req', hfinish, hderived⟩ := derived_finish cfg hheader rfl hready'
  rw [HttpRequest.perform_events hcut, if_neg hnoLong]
  refine ⟨req', hfinish, ?_⟩
  rw [hderived, spnegoFallback_auth, hheaders, List.foldl_append,
    List.foldl_cons, foldl_headers hlast, hname]
  exact headerValueCheck_cookie hcfg hne hset hothers hspace hspace'

end Worker

end Ocserv
