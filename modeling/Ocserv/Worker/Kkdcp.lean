import Ocserv.Config.Kkdcp
import Ocserv.Lines

/-!
# Worker: KKDCP requests

`http_post_url_handler` of `src/worker-http.c` and `post_kkdcp_handler` of `src/worker-kkdcp.c`, up
to the server that is connected: the searches in the table that `parse_kkdcp` builds.

* `served_iff` : when every url of a configuration is found, every realm of it leads to a server
  that is configured for it, and every other realm to the first server of the url.
-/

namespace Ocserv

namespace Kkdcp

open Worker

/-! ### The functions of the source -/

/-- `post_auth_handler` and `post_kkdcp_handler`. -/
inductive Handler where
  | auth
  | kkdcp
  deriving DecidableEq, Repr

/-- `known_urls`, with the handlers for POST; `compat` is `ANYCONNECT_CLIENT_COMPAT`. -/
def knownUrls (compat : Bool) : List (List UInt8 × Option Handler) :=
  [(ascii "/", some .auth), (ascii "/auth", some .auth)] ++
    if compat then
      ["/1/index.html", "/1/Linux", "/1/Linux_64", "/1/Windows", "/1/Darwin_i386",
        "/1/binaries/vpndownloader.sh", "/1/VPNManifest.xml", "/1/binaries/update.txt", "/profiles",
        "/+CSCOT+/", "/logout"].map fun url => (ascii url, none)
    else []

variable {σ : Type}

/-- The slots in use. -/
def CfgSt.slots (config : CfgSt σ) : List (KkdcpSt σ) := config.kkdcp.take config.kkdcpSize

/-- `http_post_url_handler`. -/
def httpPostUrlHandler (compat : Bool) (config : CfgSt σ) (url : List UInt8) : Option Handler :=
  match (knownUrls compat).find? (·.1 = url) with
  | some p => p.2
  | none => if config.slots.any (·.url = some url) then some .kkdcp else none

/-- `sizeof(realm)`. -/
def realmSize : ℕ := 128

/-- `BUF_SIZE`. -/
def bufSize : ℕ := 16 * 1024

/-- What `asn1_der_decoding` finds in a `KDC-PROXY-MESSAGE`. -/
structure Message where
  kerbMessage : List UInt8
  targetDomain : Option (List UInt8)

/-- `asn1_read_value` for a string: the bytes, if there is such an element and they fit into the
buffer. -/
structure Asn1 where
  readValue : Option (List UInt8) → ℕ → Option (List UInt8)
  readValue_none : ∀ n, readValue none n = none
  readValue_fits : ∀ v n, v.length ≤ n → readValue (some v) n = some v
  readValue_long : ∀ v n, n < v.length → readValue (some v) n = none

/-- A request to a url, with the message that its body is decoded to. -/
structure Request where
  url : List UInt8
  bodyLength : ℕ
  message : Option Message

/-- `der_decode`: the message, and the bytes of `realm` before a zero byte. -/
def derDecode (asn1 : Asn1) (message : Option Message) : Option (List UInt8 × List UInt8) := do
  let message ← message
  let out ← asn1.readValue (some message.kerbMessage) bufSize
  -- a realm that is not given, or does not fit, is empty
  return (out, cString ((asn1.readValue message.targetDomain realmSize).getD []))

/-- `strcmp` of a stored realm with the buffer, which has no terminator if it is full. -/
def strcmpRealm (stored realm : List UInt8) : Except Failure Bool :=
  if realm.length < realmSize then .ok (stored = realm)
  else if realm <+: stored then .error .outside
  else .ok false

/-- The loop over the realms of a url; `kr` is the default. -/
def searchRealm (realm : List UInt8) (kr : KkdcpRealmSt σ) :
    List (KkdcpRealmSt σ) → Except Failure (KkdcpRealmSt σ)
  | [] => .ok kr
  | r :: realms => do
    let same ← strcmpRealm r.realm realm
    if same then return r else searchRealm realm kr realms

/-- `kr` of `post_kkdcp_handler`. -/
def selectRealm (realm : List UInt8) (realms : List (KkdcpRealmSt σ)) :
    Except Failure (Option (KkdcpRealmSt σ)) :=
  match realms with
  | [] => .ok none
  | kr :: _ =>
    if realm ≠ [] ∧ 1 < realms.length then do
      let kr ← searchRealm realm kr realms
      return some kr
    else .ok (some kr)

/-- `post_kkdcp_handler`: the server that is connected, if there is one. -/
def postKkdcpHandler (asn1 : Asn1) (config : CfgSt σ) (req : Request) :
    Except Failure (Option σ) :=
  match config.slots.find? (·.url = some req.url) with
  | none => .ok none
  | some kkdcp =>
    if req.bodyLength = 0 then .ok none
    else
      match derDecode asn1 req.message with
      | none => .ok none
      | some (_, realm) => do
        let kr ← selectRealm realm kkdcp.realms
        return kr.map (·.server)

/-! ### What is asked of a configuration -/

/-- A request with a message for a Kerberos server, which asks for the realm `domain`. -/
structure Request.AsksFor (req : Request) (url : List UInt8) (domain : Option (List UInt8)) :
    Prop where
  url : req.url = url
  body : req.bodyLength ≠ 0
  message : ∃ kerb, kerb.length ≤ bufSize ∧ req.message = some ⟨kerb, domain⟩

/-- The table serves the configured entries. -/
structure Serves (compat : Bool) (asn1 : Asn1) (config : CfgSt σ) (es : List (Entry σ)) :
    Prop where
  /-- Every url is found. -/
  handler : ∀ e ∈ es, httpPostUrlHandler compat config e.path = some .kkdcp
  /-- A configured realm leads to a server that is configured for it. -/
  realm : ∀ e ∈ es, ∀ req : Request, req.AsksFor e.path (some e.line.realm) →
    ∃ e' ∈ es, e'.path = e.path ∧ e'.line.realm = e.line.realm ∧
      postKkdcpHandler asn1 config req = .ok (some e'.server)
  /-- Any other realm, or none, leads to the server of the first line of the url. -/
  default : ∀ e ∈ es, ∀ (req : Request) (domain : Option (List UInt8)),
    req.AsksFor e.path domain →
    (∀ e' ∈ es, e'.path = e.path → domain ≠ some e'.line.realm) →
    ∃ first, (under e.path es).head? = some first ∧
      postKkdcpHandler asn1 config req = .ok (some first.server)

/-- `parse_kkdcp` builds a table that serves the lines. -/
def Served (compat : Bool) (asn1 : Asn1)
    (resolve : ℕ → SockType → List UInt8 → List UInt8 → σ) (lines : List Line) : Prop :=
  ∃ config, parseKkdcp (fun i t host port => some (resolve i t host port)) (lines.map Line.text) =
      .ok config ∧ Serves compat asn1 config (configured resolve 0 lines)

/-- When a configuration is served. -/
structure Servable (compat : Bool) (es : List (Entry σ)) : Prop where
  placed : Placed [] es
  unknown : ∀ e ∈ es, ∀ p ∈ knownUrls compat, p.1 ≠ e.path
  /-- Where a url has several lines, what is stored as the realm of one is shorter than the buffer,
  and the first line with this text has the server of the first line. -/
  first : ∀ e ∈ es, 1 < (under e.path es).length → e.line.stored.length < realmSize ∧
    ∀ e₀ ∈ (under e.path es).head?, ∀ e' ∈ (under e.path es).find? (·.line.stored = e.line.stored),
      e'.server = e₀.server

/-! ### The search for a realm -/

variable {stored realm : List UInt8} {kr : KkdcpRealmSt σ} {realms : List (KkdcpRealmSt σ)}

theorem strcmpRealm_eq (h : realm.length < realmSize ∨ stored.length < realmSize) :
    strcmpRealm stored realm = .ok (stored = realm) := by
  rw [strcmpRealm]
  split_ifs with hshort hprefix
  · rfl
  · have hle := hprefix.length_le
    omega
  · have hne : ¬ stored = realm := fun heq => hprefix (heq ▸ List.prefix_refl _)
    rw [decide_eq_false hne]

/-- The loop finds the first realm with the text. -/
theorem searchRealm_eq (h : ∀ r ∈ realms, realm.length < realmSize ∨ r.realm.length < realmSize) :
    searchRealm realm kr realms = .ok ((realms.find? (·.realm = realm)).getD kr) := by
  induction realms with
  | nil => rfl
  | cons r realms ih =>
    rw [searchRealm, strcmpRealm_eq (h r List.mem_cons_self), List.find?_cons,
      ih fun r' hr' => h r' (List.mem_cons_of_mem _ hr')]
    cases decide (r.realm = realm) <;> rfl

/-- A full buffer is read beyond its end. -/
theorem searchRealm_full (hfull : ¬ realm.length < realmSize)
    (h : ∃ r ∈ realms, realm <+: r.realm) : searchRealm realm kr realms = .error .outside := by
  induction realms with
  | nil =>
    obtain ⟨r, hr, -⟩ := h
    cases hr
  | cons r realms ih =>
    rw [searchRealm, strcmpRealm, if_neg hfull]
    split_ifs with hprefix
    · rfl
    · obtain ⟨r', hr', hprefix'⟩ := h
      rcases List.mem_cons.1 hr' with rfl | hr'
      · exact absurd hprefix' hprefix
      · exact ih ⟨r', hr', hprefix'⟩

theorem find?_realmSt (l : List (Entry σ)) : (l.map Entry.realmSt).find? (·.realm = realm) =
    (l.find? (·.line.stored = realm)).map Entry.realmSt := by
  rw [List.find?_map]
  rfl

/-- **The default is the only choice** where every stored text first stands with the server of the
first line. -/
theorem selectRealm_first (realm : List UInt8) {l : List (Entry σ)} {e₀ : Entry σ}
    (h : 1 < (e₀ :: l).length → ∀ e ∈ e₀ :: l, e.line.stored.length < realmSize ∧
      ∀ e' ∈ (e₀ :: l).find? (·.line.stored = e.line.stored), e'.server = e₀.server) :
    ∃ kr, selectRealm realm ((e₀ :: l).map Entry.realmSt) = .ok (some kr) ∧
      kr.server = e₀.server := by
  rw [selectRealm.eq_def, List.map_cons]
  simp only [← List.map_cons, List.length_map]
  split_ifs with hseveral
  · have h := h hseveral.2
    have hshort : ∀ r ∈ (e₀ :: l).map Entry.realmSt,
        realm.length < realmSize ∨ r.realm.length < realmSize := by
      intro r hr
      obtain ⟨e, he, rfl⟩ := List.mem_map.1 hr
      exact .inr (h e he).1
    rw [searchRealm_eq hshort, find?_realmSt]
    refine ⟨_, rfl, ?_⟩
    cases hfind : (e₀ :: l).find? (·.line.stored = realm) with
    | none => rfl
    | some e =>
      have hstored : e.line.stored = realm := by simpa using List.find?_some hfind
      exact (h e (List.mem_of_find?_eq_some hfind)).2 e (hstored.symm ▸ hfind)
  · exact ⟨_, rfl, rfl⟩

/-! ### The searches in the table -/

variable {compat : Bool} {asn1 : Asn1} {n : ℕ} {path : List UInt8} {urls : List (List UInt8)}
  {es : List (Entry σ)} {e : Entry σ} {config : CfgSt σ} {req : Request}
  {domain : Option (List UInt8)}

theorem find?_group (hmem : path ∈ urls) :
    (urls.map (group es)).find? (·.url = some path) = some (group es path) := by
  induction urls with
  | nil => cases hmem
  | cons url urls ih =>
    rw [List.map_cons, List.find?_cons]
    by_cases heq : url = path
    · subst heq
      simp [group]
    · have hne : ¬ (group es url).url = some path := fun h => heq (Option.some.inj h)
      rw [decide_eq_false hne]
      exact ih ((List.mem_cons.1 hmem).resolve_left fun h => heq h.symm)

/-- The realm that the search compares. -/
def realmOf (asn1 : Asn1) (domain : Option (List UInt8)) : List UInt8 :=
  cString ((asn1.readValue domain realmSize).getD [])

/-- **What a request leads to**: the realm that is selected among those of its url. -/
theorem postKkdcpHandler_eq (h : Filled n urls es config) (hmem : path ∈ urls)
    (hreq : req.AsksFor path domain) : postKkdcpHandler asn1 config req =
      (selectRealm (realmOf asn1 domain) ((under path es).map Entry.realmSt)).map
        (·.map (·.server)) := by
  obtain ⟨kerb, hkerb, hmessage⟩ := hreq.message
  have hslots : config.slots = urls.map (group es) := h.take
  have hdecode : derDecode asn1 req.message = some (kerb, realmOf asn1 domain) := by
    rw [derDecode, hmessage]
    change (asn1.readValue (some kerb) bufSize).bind _ = _
    rw [asn1.readValue_fits kerb bufSize hkerb]
    rfl
  rw [postKkdcpHandler, hslots, hreq.url, find?_group hmem]
  simp only [if_neg hreq.body, hdecode]
  change (selectRealm _ ((under path es).map Entry.realmSt) >>= _) = _
  cases selectRealm (realmOf asn1 domain) ((under path es).map Entry.realmSt) <;> rfl

theorem not_kkdcp_of_known {p : List UInt8 × Option Handler} (hp : p ∈ knownUrls compat) :
    p.2 ≠ some .kkdcp := by
  cases compat <;> revert p <;> decide

/-- The urls that are found. -/
theorem httpPostUrlHandler_eq_kkdcp_iff {url : List UInt8} :
    httpPostUrlHandler compat config url = some .kkdcp ↔
      (∀ p ∈ knownUrls compat, p.1 ≠ url) ∧ Found config url := by
  rw [httpPostUrlHandler]
  cases hfind : (knownUrls compat).find? (·.1 = url) with
  | some p =>
    refine iff_of_false (not_kkdcp_of_known (List.mem_of_find?_eq_some hfind)) fun h => ?_
    exact h.1 p (List.mem_of_find?_eq_some hfind) (by simpa using List.find?_some hfind)
  | none =>
    have hnone : ∀ p ∈ knownUrls compat, p.1 ≠ url := by
      intro p hp heq
      have h := List.find?_eq_none.1 hfind p hp
      simp [heq] at h
    have hfound : config.slots.any (·.url = some url) = true ↔ Found config url := by
      simp [CfgSt.slots, Found]
    rw [and_iff_right hnone, ← hfound]
    simp

/-! ### Configurations that are served -/

/-- What is stored tells the realm. -/
theorem Line.realm_of_stored {l l' : Line} (h : l.stored = l'.stored) : l.realm = l'.realm := by
  have hword (l : Line) : l.stored.takeWhile (· ≠ 32) = l.realm :=
    Lines.takeWhile_append_sep l.space_notMem_realm _
  rw [← hword l, h, hword]

theorem mem_under : e ∈ under path es ↔ e ∈ es ∧ e.path = path := by
  rw [under, List.mem_filter, decide_eq_true_iff]

/-- The first line of a url. -/
theorem exists_head_under (he : e ∈ es) : ∃ e₀ l, under e.path es = e₀ :: l :=
  List.exists_cons_of_ne_nil (List.ne_nil_of_mem (mem_under.2 ⟨he, rfl⟩))

/-- The first line with what is stored for another. -/
theorem exists_find?_stored (he : e ∈ es) :
    ∃ e', (under e.path es).find? (·.line.stored = e.line.stored) = some e' ∧ e' ∈ es ∧
      e'.path = e.path ∧ e'.line.stored = e.line.stored := by
  cases hfind : (under e.path es).find? (·.line.stored = e.line.stored) with
  | none =>
    have h := List.find?_eq_none.1 hfind e (mem_under.2 ⟨he, rfl⟩)
    simp at h
  | some e' =>
    obtain ⟨he', hpath⟩ := mem_under.1 (List.mem_of_find?_eq_some hfind)
    exact ⟨e', rfl, he', hpath, by simpa using List.find?_some hfind⟩

/-- **A table of lines at their places serves them** if every stored text first stands with the
default. -/
theorem Servable.serves (h : Servable compat es) (hfilled : Filled n urls es config) :
    Serves compat asn1 config es := by
  -- any request is answered by the first server of its url
  have hanswer {e : Entry σ} (he : e ∈ es) {req : Request} {domain : Option (List UInt8)}
      (hreq : req.AsksFor e.path domain) {e₀ : Entry σ} {l : List (Entry σ)}
      (hl : under e.path es = e₀ :: l) :
      postKkdcpHandler asn1 config req = .ok (some e₀.server) := by
    have hmem : e.path ∈ urls := (hfilled.mem_iff _).2 ⟨e, he, rfl⟩
    have hfirst : 1 < (e₀ :: l).length → ∀ e' ∈ e₀ :: l, e'.line.stored.length < realmSize ∧
        ∀ e'' ∈ (e₀ :: l).find? (·.line.stored = e'.line.stored), e''.server = e₀.server := by
      intro hseveral e' he'
      obtain ⟨he', hpath⟩ := mem_under.1 (hl ▸ he')
      have hfirst := h.first e' he' (by rwa [hpath, hl])
      rw [hpath, hl] at hfirst
      exact ⟨hfirst.1, hfirst.2 e₀ rfl⟩
    obtain ⟨kr, hselect, hserver⟩ := selectRealm_first (realmOf asn1 domain) hfirst
    rw [postKkdcpHandler_eq hfilled hmem hreq, hl, hselect, ← hserver]
    rfl
  refine ⟨fun e he => ?_, fun e he req hreq => ?_, fun e he req domain hreq _ => ?_⟩
  · refine httpPostUrlHandler_eq_kkdcp_iff.2 ⟨h.unknown e he, group es e.path, ?_, rfl⟩
    rw [hfilled.take]
    exact List.mem_map_of_mem ((hfilled.mem_iff _).2 ⟨e, he, rfl⟩)
  · obtain ⟨e₀, l, hl⟩ := exists_head_under he
    have hanswer := hanswer he hreq hl
    by_cases hseveral : 1 < (under e.path es).length
    · obtain ⟨e', hfind, he', hpath, hstored⟩ := exists_find?_stored he
      refine ⟨e', he', hpath, Line.realm_of_stored hstored, ?_⟩
      rw [hanswer, (h.first e he hseveral).2 e₀ (by rw [hl]; rfl) e' hfind]
    · have hself : e ∈ e₀ :: l := hl ▸ mem_under.2 ⟨he, rfl⟩
      have hnil : l = [] := by
        rw [hl, List.length_cons] at hseveral
        exact List.length_eq_zero_iff.1 (by omega)
      rw [hnil, List.mem_singleton] at hself
      exact ⟨e, he, rfl, rfl, hself ▸ hanswer⟩
  · obtain ⟨e₀, l, hl⟩ := exists_head_under he
    exact ⟨e₀, by rw [hl]; rfl, hanswer he hreq hl⟩

/-- Every request to a configured url is answered. -/
theorem Serves.answered (h : Serves compat asn1 config es) (he : e ∈ es)
    (hreq : req.AsksFor e.path domain) :
    ∃ server, postKkdcpHandler asn1 config req = .ok (some server) := by
  by_cases hdomain : ∀ e' ∈ es, e'.path = e.path → domain ≠ some e'.line.realm
  · obtain ⟨first, -, hpost⟩ := h.default e he req domain hreq hdomain
    exact ⟨_, hpost⟩
  · push Not at hdomain
    obtain ⟨e', he', hpath, rfl⟩ := hdomain
    obtain ⟨e'', -, -, -, hpost⟩ := h.realm e' he' req (hpath ▸ hreq)
    exact ⟨_, hpost⟩

/-- A realm that fits into the buffer is what is compared. -/
theorem realmOf_some (hfits : realm.length ≤ realmSize) (hnul : 0 ∉ realm) :
    realmOf asn1 (some realm) = realm := by
  rw [realmOf, asn1.readValue_fits realm realmSize hfits, Option.getD_some, cString,
    List.takeWhile_eq_self_iff]
  intro a ha
  exact decide_eq_true fun h => hnul (h ▸ ha)

variable (asn1) in
/-- The request that the search is for, where there are several realms. -/
theorem postKkdcpHandler_several (hfilled : Filled n urls es config) (he : e ∈ es)
    (hreq : req.AsksFor e.path (some realm)) (hseveral : 1 < (under e.path es).length)
    (hfits : realm.length ≤ realmSize) (hnul : 0 ∉ realm) (hne : realm ≠ []) :
    ∃ kr, postKkdcpHandler asn1 config req =
      (searchRealm realm kr ((under e.path es).map Entry.realmSt)).map
        fun kr => some kr.server := by
  have hmem : e.path ∈ urls := (hfilled.mem_iff _).2 ⟨e, he, rfl⟩
  obtain ⟨e₀, l, hl⟩ := exists_head_under he
  refine ⟨e₀.realmSt, ?_⟩
  rw [postKkdcpHandler_eq hfilled hmem hreq, realmOf_some hfits hnul, hl, List.map_cons,
    selectRealm, if_pos ⟨hne, by rwa [← List.map_cons, List.length_map, ← hl]⟩]
  cases searchRealm realm e₀.realmSt (e₀.realmSt :: l.map Entry.realmSt) <;> rfl

/-- **A table that serves the lines** has every stored text first with the default. -/
theorem Serves.first (h : Serves compat asn1 config es) (hfilled : Filled n urls es config)
    (he : e ∈ es) (hseveral : 1 < (under e.path es).length) :
    e.line.stored.length < realmSize ∧
      ∀ e₀ ∈ (under e.path es).head?,
        ∀ e' ∈ (under e.path es).find? (·.line.stored = e.line.stored), e'.server = e₀.server := by
  have hasks (domain : Option (List UInt8)) :
      Request.AsksFor ⟨e.path, 1, some ⟨[], domain⟩⟩ e.path domain :=
    ⟨rfl, Nat.one_ne_zero, [], Nat.zero_le _, rfl⟩
  -- a long text fills the buffer, which is then read beyond its end
  have hshort {e' : Entry σ} (he' : e' ∈ under e.path es) :
      e'.line.stored.length < realmSize := by
    by_contra hlong
    have hlen : (e'.line.stored.take realmSize).length = realmSize :=
      List.length_take_of_le (not_lt.1 hlong)
    have hne : e'.line.stored.take realmSize ≠ [] := by
      intro hnil
      rw [hnil] at hlen
      exact absurd hlen (by decide)
    obtain ⟨kr, hpost⟩ := postKkdcpHandler_several asn1 hfilled he
      (hasks (some (e'.line.stored.take realmSize))) hseveral hlen.le
      (fun hmem => e'.line.stored_no_nul ((List.take_sublist _ _).mem hmem)) hne
    obtain ⟨server, hanswer⟩ := h.answered he (hasks (some (e'.line.stored.take realmSize)))
    have hprefix : ∃ r ∈ (under e.path es).map Entry.realmSt,
        e'.line.stored.take realmSize <+: r.realm :=
      ⟨e'.realmSt, List.mem_map_of_mem he', List.take_prefix _ _⟩
    rw [searchRealm_full (by omega) hprefix, hanswer] at hpost
    cases hpost
  refine ⟨hshort (mem_under.2 ⟨he, rfl⟩), fun e₀ he₀ e' he' => ?_⟩
  have hself := hshort (mem_under.2 ⟨he, rfl⟩)
  obtain ⟨kr, hpost⟩ := postKkdcpHandler_several asn1 hfilled he
    (hasks (some e.line.stored)) hseveral hself.le e.line.stored_no_nul
    (List.ne_nil_of_mem e.line.space_mem_stored)
  rw [searchRealm_eq fun _ _ => .inl hself, find?_realmSt, Option.mem_def.1 he'] at hpost
  -- what is stored has a space, so it is not a realm
  obtain ⟨first, hfirst, hdefault⟩ := h.default e he _ _ (hasks (some e.line.stored))
    fun e' _ _ heq => e'.line.space_notMem_realm (Option.some.inj heq ▸ e.line.space_mem_stored)
  rw [hdefault] at hpost
  rw [Option.mem_def, hfirst] at he₀
  cases he₀
  exact (Option.some.inj (Except.ok.inj hpost)).symm

section Parse

variable {resolve : ℕ → SockType → List UInt8 → List UInt8 → σ} {lines : List Line}

theorem parseKkdcp_text : parseKkdcp (fun i t host port => some (resolve i t host port))
    (lines.map Line.text) = addAll ([] : List (Entry σ)).length
      ⟨List.replicate lines.length ⟨none, []⟩, 0⟩ (configured resolve 0 lines) := by
  rw [parseKkdcp, List.length_map, parseFrom_text]
  rfl

/-- There is a slot for every line. -/
theorem configured_fits :
    ([] : List (Entry σ)).length + (configured resolve 0 lines).length ≤ lines.length := by
  rw [length_configured, List.length_nil, Nat.zero_add]

theorem Served.servable (h : Served compat asn1 resolve lines) :
    Servable compat (configured resolve 0 lines) := by
  obtain ⟨config, hcall, hserves⟩ := h
  rw [parseKkdcp_text] at hcall
  have hurl (e : Entry σ) (he : e ∈ configured resolve 0 lines) :=
    httpPostUrlHandler_eq_kkdcp_iff.1 (hserves.handler e he)
  have hplaced := placed_of_addAll (Filled.empty lines.length) configured_fits hcall
    fun e he => (hurl e he).2
  obtain ⟨urls, config', hcall', hfilled⟩ :=
    filled_of_placed (Filled.empty lines.length) hplaced configured_fits
  obtain rfl : config = config' := Except.ok.inj (hcall.symm.trans hcall')
  exact ⟨hplaced, fun e he => (hurl e he).1, fun e he => hserves.first hfilled he⟩

theorem Servable.served (h : Servable compat (configured resolve 0 lines)) :
    Served compat asn1 resolve lines := by
  obtain ⟨urls, config, hcall, hfilled⟩ :=
    filled_of_placed (Filled.empty lines.length) h.placed configured_fits
  exact ⟨config, parseKkdcp_text.trans hcall, h.serves hfilled⟩

end Parse

/-- **Main result.** A configuration is served exactly if no url is new after a repeated one, is
repeated too often or is one of the worker's own, and where a url has several lines, what is stored
for each leads to the server of the first. -/
theorem served_iff (compat : Bool) (asn1 : Asn1)
    (resolve : ℕ → SockType → List UInt8 → List UInt8 → σ) (lines : List Line) :
    Served compat asn1 resolve lines ↔ Servable compat (configured resolve 0 lines) :=
  ⟨Served.servable, Servable.served⟩

/-- Of two realms of a url the second leads to the server of the first. -/
theorem not_served_two : ¬ ∀ (compat : Bool) (asn1 : Asn1)
    (resolve : ℕ → SockType → List UInt8 → List UInt8 → List UInt8) (lines : List Line),
    Served compat asn1 resolve lines := by
  intro h
  let asn1 : Asn1 := {
    readValue v n := v.filter (·.length ≤ n)
    readValue_none _ := rfl
    readValue_fits v n hfits := by simp [hfits]
    readValue_long v n hlong := by simp [hlong] }
  let first : Line := ⟨ascii "/kerberos", [], ascii "A.ORG", [], .dgram, ascii "a", ascii "88",
    by decide, by decide, by decide, by decide, by decide, by decide, by decide⟩
  let second : Line := ⟨ascii "/kerberos", [], ascii "B.ORG", [], .dgram, ascii "b", ascii "88",
    by decide, by decide, by decide, by decide, by decide, by decide, by decide⟩
  have hservable := (h false asn1 (fun _ _ host _ => host) [first, second]).servable
  have hserver := (hservable.first ⟨second, ascii "b"⟩ (by simp [configured, second])
    (by decide)).2 ⟨first, ascii "a"⟩ rfl ⟨second, ascii "b"⟩ rfl
  exact absurd hserver (by decide)

end Kkdcp

end Ocserv
