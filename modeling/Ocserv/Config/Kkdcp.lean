import Mathlib.Data.List.Nodup
import Ocserv.Worker.Headers

/-!
# KKDCP: the table of the configuration

`parse_kkdcp` of `src/config.c`: the lines `SERVER-PATH KERBEROS-REALM PROTOCOL@SERVER:PORT` are put
into a table of urls, each with a table of realms.  `getaddrinfo` is a parameter; `σ` is what is
stored of its result.

* `parseLine_text` : what is taken from a line.  The string of the realm is not ended, it is stored
  with the protocol and the host.
* `parseKkdcp_filled` : the table that is built, if every new url comes before the first repeated
  one.
* `placed_of_parseKkdcp` : the other lists of lines give no table in which every url is found.
-/

namespace Ocserv

namespace Kkdcp

open Worker

/-! ### The function of the source -/

/-- How the program ends: `exit(1)`, or an access through `NULL` or outside of a buffer. -/
inductive Failure where
  | exit
  | null
  | outside
  deriving DecidableEq, Repr

/-- `ai_socktype` of the hints. -/
inductive SockType where
  | dgram
  | stream
  deriving DecidableEq, Repr

/-- The protocol of a line. -/
def SockType.proto : SockType → List UInt8
  | .dgram => ascii "udp@"
  | .stream => ascii "tcp@"

/-- `MAX_KRB_REALMS`. -/
def maxKrbRealms : ℕ := 16

/-- `kkdcp_realm_st`. -/
structure KkdcpRealmSt (σ : Type) where
  realm : List UInt8
  server : σ
  deriving DecidableEq, Repr

/-- `kkdcp_st`; `realms` are the first `realms_size` ones. -/
structure KkdcpSt (σ : Type) where
  url : Option (List UInt8)
  realms : List (KkdcpRealmSt σ)
  deriving DecidableEq, Repr

/-- `cfg_st`, as far as it is about KKDCP. -/
structure CfgSt (σ : Type) where
  kkdcp : List (KkdcpSt σ)
  kkdcpSize : ℕ
  deriving DecidableEq, Repr

/-- The strings that a line is cut into. -/
structure LineParts where
  path : List UInt8
  realm : List UInt8
  socktype : SockType
  server : List UInt8
  port : List UInt8
  deriving DecidableEq, Repr

/-- `ai_socktype`, from the start of the server. -/
def socktypeOf (server : List UInt8) : Except Failure SockType :=
  if SockType.dgram.proto <+: server then .ok .dgram
  else if SockType.stream.proto <+: server then .ok .stream
  else .error .exit

/-- The first part of the loop of `parse_kkdcp`. -/
def parseLine (line : List UInt8) : Except Failure LineParts :=
  match strchr 32 line with
  | none => .error .exit
  | some i =>
    let realm := (line.drop (i + 1)).dropWhile cIsspace
    match strchr 32 realm with
    | none => .error .exit
    | some j => do
      let server := (realm.drop j).dropWhile cIsspace
      let socktype ← socktypeOf server
      let server := server.drop 4
      match strchr 58 server with
      | none => .error .exit
      | some k =>
        -- `*port = 0` is the end of the string `realm`, too
        .ok ⟨line.take i, realm.take (realm.length - server.length + k), socktype, server.take k,
          server.drop (k + 1)⟩

variable {σ : Type}

/-- The loop that looks for a path that is already added; `j` is the index. -/
def findPath (path : List UInt8) : ℕ → Option ℕ → List (KkdcpSt σ) → Except Failure (Option ℕ)
  | _, kkdcp, [] => .ok kkdcp
  | j, kkdcp, slot :: slots =>
    match slot.url with
    | none => .error .null
    | some url => findPath path (j + 1) (if path = url then some j else kkdcp) slots

/-- The second part of the loop, for the line with the index `i`. -/
def addRealm (i : ℕ) (path : List UInt8) (realm : KkdcpRealmSt σ) (config : CfgSt σ) :
    Except Failure (CfgSt σ) := do
  let kkdcp ← findPath path 0 none (config.kkdcp.take config.kkdcpSize)
  let config : CfgSt σ :=
    if kkdcp = none then
      ⟨config.kkdcp.modify i fun slot => { slot with url := some path }, config.kkdcpSize + 1⟩
    else config
  let slot := kkdcp.getD i
  if maxKrbRealms ≤ (config.kkdcp[slot]?.map (·.realms.length)).getD 0 then .error .exit
  else
    return { config with
      kkdcp := config.kkdcp.modify slot fun slot => { slot with realms := slot.realms ++ [realm] } }

/-- The loop of `parse_kkdcp`, from the line with the index `i`. -/
def parseFrom (getaddrinfo : ℕ → SockType → List UInt8 → List UInt8 → Option σ) :
    ℕ → CfgSt σ → List (List UInt8) → Except Failure (CfgSt σ)
  | _, config, [] => .ok config
  | i, config, line :: urlfw => do
    let parts ← parseLine line
    match getaddrinfo i parts.socktype parts.server parts.port with
    | none => .error .exit
    | some server =>
      let config ← addRealm i parts.path ⟨parts.realm, server⟩ config
      parseFrom getaddrinfo (i + 1) config urlfw

/-- `parse_kkdcp`; `getaddrinfo` is also given the index of the line. -/
def parseKkdcp (getaddrinfo : ℕ → SockType → List UInt8 → List UInt8 → Option σ)
    (urlfw : List (List UInt8)) : Except Failure (CfgSt σ) :=
  parseFrom getaddrinfo 0 ⟨List.replicate urlfw.length ⟨none, []⟩, 0⟩ urlfw

/-! ### Lines -/

/-- A well-formed line. -/
structure Line where
  path : List UInt8
  /-- White space behind the first separator. -/
  gap : List UInt8
  realm : List UInt8
  /-- White space behind the second separator. -/
  gap' : List UInt8
  socktype : SockType
  host : List UInt8
  port : List UInt8
  path_word : 32 ∉ path
  realm_ne_nil : realm ≠ []
  realm_word : (realm.all fun b => !cIsspace b) = true
  gap_space : gap.all cIsspace = true
  gap'_space : gap'.all cIsspace = true
  host_word : 58 ∉ host
  no_nul : 0 ∉ path ++ realm ++ host ++ port

namespace Line

/-- The realm as it is stored: its string ends before the port. -/
def stored (l : Line) : List UInt8 := l.realm ++ 32 :: (l.gap' ++ (l.socktype.proto ++ l.host))

/-- The value of the option. -/
def text (l : Line) : List UInt8 := l.path ++ 32 :: (l.gap ++ (l.stored ++ 58 :: l.port))

end Line

theorem socktypeOf_proto (t : SockType) (s : List UInt8) : socktypeOf (t.proto ++ s) = .ok t := by
  cases t with
  | dgram => rw [socktypeOf, if_pos (List.prefix_append _ _)]
  | stream =>
    rw [socktypeOf, if_neg, if_pos (List.prefix_append _ _)]
    rintro ⟨r, hr⟩
    exact absurd (List.cons.inj hr).1 (by decide)

theorem dropWhile_gap {gap s : List UInt8} (hgap : gap.all cIsspace = true) {a : UInt8}
    (ha : cIsspace a = false) : (gap ++ a :: s).dropWhile cIsspace = a :: s := by
  rw [List.dropWhile_append_of_pos (List.all_eq_true.1 hgap),
    List.dropWhile_cons_of_neg (by rw [ha]; decide)]

/-- What stands behind the first separator. -/
theorem drop_separator (s t : List UInt8) (c : UInt8) : (s ++ c :: t).drop (s.length + 1) = t := by
  rw [← List.drop_drop, List.drop_left, List.drop_one, List.tail_cons]

theorem SockType.length_proto (t : SockType) : t.proto.length = 4 := by
  cases t <;> rfl

/-- The first byte of a protocol is not white space. -/
theorem SockType.exists_proto (t : SockType) : ∃ a r, t.proto = a :: r ∧ cIsspace a = false := by
  cases t <;> exact ⟨_, _, rfl, by decide⟩

namespace Line

variable (l : Line)

theorem path_no_nul : 0 ∉ l.path := fun h => l.no_nul (by simp [h])

theorem realm_no_nul : 0 ∉ l.realm := fun h => l.no_nul (by simp [h])

theorem host_no_nul : 0 ∉ l.host := fun h => l.no_nul (by simp [h])

theorem cIsspace_realm {b : UInt8} (hb : b ∈ l.realm) : cIsspace b = false := by
  simpa using List.all_eq_true.1 l.realm_word b hb

theorem space_notMem_realm : 32 ∉ l.realm := fun h => absurd (l.cIsspace_realm h) (by decide)

theorem space_mem_stored : 32 ∈ l.stored := by simp [stored]

theorem stored_no_nul : 0 ∉ l.stored := by
  have hgap : 0 ∉ l.gap' := fun h => absurd (List.all_eq_true.1 l.gap'_space 0 h) (by decide)
  have hproto : 0 ∉ l.socktype.proto := by cases l.socktype <;> decide
  simp [stored, l.realm_no_nul, hgap, hproto, l.host_no_nul]

end Line

/-- **What is taken from a line.** -/
theorem parseLine_text (l : Line) :
    parseLine l.text = .ok ⟨l.path, l.stored, l.socktype, l.host, l.port⟩ := by
  have hpath : strchr 32 l.text = some l.path.length :=
    strchr_append (by decide) l.path_word l.path_no_nul _
  have hrealm : (l.text.drop (l.path.length + 1)).dropWhile cIsspace =
      l.stored ++ 58 :: l.port := by
    obtain ⟨a, r, hr⟩ := List.exists_cons_of_ne_nil l.realm_ne_nil
    have ha : cIsspace a = false := l.cIsspace_realm (hr ▸ List.mem_cons_self)
    rw [Line.text, drop_separator, Line.stored, hr]
    exact dropWhile_gap l.gap_space ha
  have hstored : l.stored ++ 58 :: l.port =
      l.realm ++ 32 :: (l.gap' ++ (l.socktype.proto ++ (l.host ++ 58 :: l.port))) := by
    simp [Line.stored]
  have hspace : strchr 32 (l.stored ++ 58 :: l.port) = some l.realm.length := by
    rw [hstored]
    exact strchr_append (by decide) l.space_notMem_realm l.realm_no_nul _
  have hserver : ((l.stored ++ 58 :: l.port).drop l.realm.length).dropWhile cIsspace =
      l.socktype.proto ++ (l.host ++ 58 :: l.port) := by
    obtain ⟨a, r, hproto, ha⟩ := l.socktype.exists_proto
    rw [hstored, List.drop_left, List.dropWhile_cons_of_pos (by decide), hproto]
    exact dropWhile_gap l.gap'_space ha
  have hport : strchr 58 (l.host ++ 58 :: l.port) = some l.host.length :=
    strchr_append (by decide) l.host_word l.host_no_nul _
  have hafter : (l.socktype.proto ++ (l.host ++ 58 :: l.port)).drop 4 = l.host ++ 58 :: l.port := by
    rw [← l.socktype.length_proto, List.drop_left]
  -- where the string of the realm ends
  have hend : (l.stored ++ 58 :: l.port).length - (l.host ++ 58 :: l.port).length + l.host.length =
      l.stored.length := by
    simp only [Line.stored, List.length_append, List.length_cons]
    omega
  simp only [parseLine, hpath, hrealm, hspace, hserver, socktypeOf_proto, hafter, hport]
  change Except.ok _ = _
  rw [hend, List.take_left, List.take_left, drop_separator, Line.text, List.take_left]

/-! ### Entries -/

/-- A line with the server that `getaddrinfo` finds for it. -/
structure Entry (σ : Type) where
  line : Line
  server : σ

namespace Entry

/-- The url of an entry. -/
def path (e : Entry σ) : List UInt8 := e.line.path

/-- What is stored for an entry. -/
def realmSt (e : Entry σ) : KkdcpRealmSt σ := ⟨e.line.stored, e.server⟩

end Entry

/-- The entries of the lines, the first of which has the index `i`. -/
def configured (resolve : ℕ → SockType → List UInt8 → List UInt8 → σ) : ℕ → List Line →
    List (Entry σ)
  | _, [] => []
  | i, l :: lines => ⟨l, resolve i l.socktype l.host l.port⟩ :: configured resolve (i + 1) lines

/-- The entries are added in turn. -/
def addAll : ℕ → CfgSt σ → List (Entry σ) → Except Failure (CfgSt σ)
  | _, config, [] => .ok config
  | i, config, e :: es => do
    let config ← addRealm i e.path e.realmSt config
    addAll (i + 1) config es

theorem length_configured (resolve : ℕ → SockType → List UInt8 → List UInt8 → σ) (i : ℕ)
    (lines : List Line) : (configured resolve i lines).length = lines.length := by
  induction lines generalizing i with
  | nil => rfl
  | cons l lines ih => rw [configured, List.length_cons, List.length_cons, ih]

theorem parseFrom_text (resolve : ℕ → SockType → List UInt8 → List UInt8 → σ) (i : ℕ)
    (config : CfgSt σ) (lines : List Line) :
    parseFrom (fun i t host port => some (resolve i t host port)) i config (lines.map Line.text) =
      addAll i config (configured resolve i lines) := by
  induction lines generalizing i config with
  | nil => rfl
  | cons l lines ih =>
    rw [List.map_cons, parseFrom, parseLine_text, configured, addAll]
    change (addRealm i l.path _ config >>= _) = (addRealm i l.path _ config >>= _)
    congr
    funext config
    exact ih (i + 1) config

/-! ### The table -/

/-- The entries of a url. -/
def under (url : List UInt8) (es : List (Entry σ)) : List (Entry σ) := es.filter (·.path = url)

/-- The table of a url. -/
def group (es : List (Entry σ)) (url : List UInt8) : KkdcpSt σ :=
  ⟨some url, (under url es).map Entry.realmSt⟩

/-- The table for the entries: one slot for each url, in the order of their first lines, and the
others unused. -/
structure Filled (n : ℕ) (urls : List (List UInt8)) (es : List (Entry σ)) (config : CfgSt σ) :
    Prop where
  nodup : urls.Nodup
  mem_iff : ∀ url, url ∈ urls ↔ ∃ e ∈ es, e.path = url
  kkdcp : config.kkdcp = urls.map (group es) ++ List.replicate (n - urls.length) ⟨none, []⟩
  size : config.kkdcpSize = urls.length
  length_le : urls.length ≤ es.length
  /-- The number of slots is that of the lines as long as no url is repeated. -/
  length_eq_iff : urls.length = es.length ↔ (es.map Entry.path).Nodup

variable {n i : ℕ} {path : List UInt8} {urls : List (List UInt8)} {es : List (Entry σ)}
  {e : Entry σ} {config : CfgSt σ}

theorem under_append : under path (es ++ [e]) =
    if e.path = path then under path es ++ [e] else under path es := by
  rw [under, List.filter_append, under]
  split_ifs with h
  · rw [List.filter_cons_of_pos (by simpa using h), List.filter_nil]
  · rw [List.filter_cons_of_neg (by simpa using h), List.filter_nil, List.append_nil]

/-- A loop over slots that have urls finds the index of the url. -/
theorem findPath_map (hurls : urls.Nodup) (es : List (Entry σ)) (j : ℕ) (kkdcp : Option ℕ) :
    findPath path j kkdcp (urls.map (group es)) =
      .ok (if path ∈ urls then some (j + urls.idxOf path) else kkdcp) := by
  induction urls generalizing j kkdcp with
  | nil => rfl
  | cons url urls ih =>
    obtain ⟨hnotin, hurls⟩ := List.nodup_cons.1 hurls
    rw [List.map_cons, findPath]
    change findPath path (j + 1) (if path = url then some j else kkdcp) _ = _
    rw [ih hurls]
    by_cases heq : path = url
    · subst heq
      simp [hnotin]
    · have hne : ¬ url = path := fun h => heq h.symm
      simp only [List.mem_cons, heq, false_or, if_false, List.idxOf_cons_ne _ hne]
      split_ifs
      · rw [Nat.succ_eq_add_one, Nat.add_assoc, Nat.add_comm 1]
      · rfl

/-- A change of the slot of a url. -/
theorem modify_idxOf {α : Type} {g : List UInt8 → α} {f : α → α} (hurls : urls.Nodup)
    (hmem : path ∈ urls) (t : List α) :
    (urls.map g ++ t).modify (urls.idxOf path) f =
      urls.map (fun url => if url = path then f (g url) else g url) ++ t := by
  induction urls with
  | nil => cases hmem
  | cons url urls ih =>
    obtain ⟨hnotin, hurls⟩ := List.nodup_cons.1 hurls
    by_cases heq : url = path
    · subst heq
      have hmap : urls.map (fun v => if v = url then f (g v) else g v) = urls.map g :=
        List.map_congr_left fun v hv => if_neg fun (h : v = url) => hnotin (h ▸ hv)
      rw [List.idxOf_cons_self, List.map_cons, List.cons_append, List.modify_zero_cons,
        List.map_cons, if_pos rfl, hmap, List.cons_append]
    · have hmem : path ∈ urls := (List.mem_cons.1 hmem).resolve_left fun h => heq h.symm
      rw [List.idxOf_cons_ne _ heq, List.map_cons, List.cons_append, List.modify_succ_cons,
        ih hurls hmem, List.map_cons, if_neg heq, List.cons_append]

/-- A change of the first element behind a list. -/
theorem modify_length {α : Type} (l t : List α) (a : α) (f : α → α) :
    (l ++ a :: t).modify l.length f = l ++ f a :: t := by
  induction l with
  | nil => rfl
  | cons b l ih =>
    rw [List.cons_append, List.length_cons, List.modify_succ_cons, ih, List.cons_append]

/-- The slots in use. -/
theorem Filled.take (h : Filled n urls es config) :
    config.kkdcp.take config.kkdcpSize = urls.map (group es) := by
  have hlen : (urls.map (group es)).length = urls.length := List.length_map _
  rw [h.kkdcp, h.size, ← hlen, List.take_left]

theorem Filled.empty (n : ℕ) : Filled n [] [] (⟨List.replicate n ⟨none, []⟩, 0⟩ : CfgSt σ) :=
  ⟨List.nodup_nil, by simp, by simp, rfl, le_refl _, by simp⟩

theorem group_append_of_ne (hne : e.path ≠ path) : group (es ++ [e]) path = group es path := by
  rw [group, under_append, if_neg hne, group]

theorem group_append_self : group (es ++ [e]) e.path =
    ⟨some e.path, (group es e.path).realms ++ [e.realmSt]⟩ := by
  rw [group, under_append, if_pos rfl, List.map_append, group]
  rfl

/-- **A line with a url that is there.** -/
theorem Filled.addRealm_mem (h : Filled n urls es config) (hmem : e.path ∈ urls) :
    addRealm i e.path e.realmSt config =
      if maxKrbRealms ≤ (under e.path es).length then .error .exit
      else .ok ⟨urls.map (group (es ++ [e])) ++ List.replicate (n - urls.length) ⟨none, []⟩,
        urls.length⟩ := by
  have hfind : findPath e.path 0 none (config.kkdcp.take config.kkdcpSize) =
      .ok (some (urls.idxOf e.path)) := by
    rw [h.take, findPath_map h.nodup, if_pos hmem, Nat.zero_add]
  have hslot : config.kkdcp[urls.idxOf e.path]? = some (group es e.path) := by
    have hlt : urls.idxOf e.path < urls.length := List.idxOf_lt_length_of_mem hmem
    rw [h.kkdcp, List.getElem?_append_left (by rwa [List.length_map]), List.getElem?_map,
      List.getElem?_idxOf hmem]
    rfl
  have hlen : (group es e.path).realms.length = (under e.path es).length := List.length_map _
  have hmap : (urls.map fun url =>
      if url = e.path then { group es url with realms := (group es url).realms ++ [e.realmSt] }
      else group es url) = urls.map (group (es ++ [e])) := by
    refine List.map_congr_left fun url _ => ?_
    split_ifs with heq
    · rw [heq, group_append_self]
      rfl
    · exact (group_append_of_ne fun h => heq h.symm).symm
  simp only [addRealm, hfind]
  change (if maxKrbRealms ≤ (config.kkdcp[urls.idxOf e.path]?.map (·.realms.length)).getD 0 then _
    else Except.ok (⟨config.kkdcp.modify (urls.idxOf e.path) _, config.kkdcpSize⟩ : CfgSt σ)) = _
  rw [hslot, Option.map_some, Option.getD_some, hlen]
  split_ifs
  · rfl
  · have hmodify := modify_idxOf (g := group es)
      (f := fun slot => { slot with realms := slot.realms ++ [e.realmSt] }) h.nodup hmem
      (List.replicate (n - urls.length) ⟨none, []⟩)
    rw [hmap, ← h.kkdcp] at hmodify
    rw [hmodify, h.size]

/-- A line with a new url: it takes the slot with the index of the line. -/
theorem Filled.addRealm_new (h : Filled n urls es config) (hnew : e.path ∉ urls)
    (hi : urls.length ≤ i) : addRealm i e.path e.realmSt config =
      .ok ⟨config.kkdcp.modify i fun slot => ⟨some e.path, slot.realms ++ [e.realmSt]⟩,
        urls.length + 1⟩ := by
  have hfind : findPath e.path 0 none (config.kkdcp.take config.kkdcpSize) = .ok none := by
    rw [h.take, findPath_map h.nodup, if_neg hnew]
  -- the slots behind those in use have no realms
  have hempty : ((config.kkdcp.modify i fun slot => { slot with url := some e.path })[i]?.map
      (·.realms.length)).getD 0 = 0 := by
    have hlen : (urls.map (group es)).length ≤ i := by rwa [List.length_map]
    rw [List.getElem?_modify_eq, h.kkdcp, List.getElem?_append_right hlen, List.getElem?_replicate]
    split_ifs <;> rfl
  simp only [addRealm, hfind]
  change (if maxKrbRealms ≤ ((config.kkdcp.modify i fun slot =>
    { slot with url := some e.path })[i]?.map (·.realms.length)).getD 0 then _ else _) = _
  rw [hempty, if_neg (by decide)]
  change Except.ok (⟨(config.kkdcp.modify i _).modify i _, config.kkdcpSize + 1⟩ : CfgSt σ) = _
  rw [List.modify_modify_eq, h.size]
  rfl

theorem Filled.append_mem (h : Filled n urls es config) (hmem : e.path ∈ urls) :
    Filled n urls (es ++ [e])
      ⟨urls.map (group (es ++ [e])) ++ List.replicate (n - urls.length) ⟨none, []⟩,
        urls.length⟩ where
  nodup := h.nodup
  mem_iff url := by
    rw [h.mem_iff]
    constructor
    · rintro ⟨e', he', hpath⟩
      exact ⟨e', List.mem_append_left _ he', hpath⟩
    · rintro ⟨e', he', rfl⟩
      rcases List.mem_append.1 he' with he' | he'
      · exact ⟨e', he', rfl⟩
      · rw [List.mem_singleton.1 he']
        exact (h.mem_iff _).1 hmem
  kkdcp := rfl
  size := rfl
  length_le := by
    rw [List.length_append, List.length_singleton]
    exact h.length_le.trans (Nat.le_succ _)
  length_eq_iff := by
    have hle := h.length_le
    refine iff_of_false (by rw [List.length_append, List.length_singleton]; omega) fun hnodup => ?_
    obtain ⟨e', he', hpath⟩ := (h.mem_iff _).1 hmem
    rw [List.map_append, List.map_singleton, ← List.concat_eq_append, List.nodup_concat] at hnodup
    exact hnodup.1 (hpath ▸ List.mem_map_of_mem he')

/-- **A line with a new url**, if no url was repeated before. -/
theorem Filled.append_new (h : Filled n urls es config) (hnew : e.path ∉ urls)
    (hlen : urls.length = es.length) (hn : es.length < n) :
    Filled n (urls ++ [e.path]) (es ++ [e])
      ⟨config.kkdcp.modify es.length fun slot => ⟨some e.path, slot.realms ++ [e.realmSt]⟩,
        urls.length + 1⟩ where
  nodup := by
    rw [← List.concat_eq_append, List.nodup_concat]
    exact ⟨hnew, h.nodup⟩
  mem_iff url := by
    rw [List.mem_append, h.mem_iff, List.mem_singleton]
    constructor
    · rintro (⟨e', he', hpath⟩ | rfl)
      · exact ⟨e', List.mem_append_left _ he', hpath⟩
      · exact ⟨e, by simp, rfl⟩
    · rintro ⟨e', he', rfl⟩
      rcases List.mem_append.1 he' with he' | he'
      · exact .inl ⟨e', he', rfl⟩
      · exact .inr (by rw [List.mem_singleton.1 he'])
  kkdcp := by
    obtain ⟨m, hm⟩ : ∃ m, n - urls.length = m + 1 := ⟨n - urls.length - 1, by omega⟩
    have hm' : n - (urls ++ [e.path]).length = m := by
      rw [List.length_append, List.length_singleton]
      omega
    have hlength : (urls.map (group es)).length = es.length := by rw [List.length_map, hlen]
    have hold : urls.map (group (es ++ [e])) = urls.map (group es) :=
      List.map_congr_left fun url hurl => group_append_of_ne fun heq => hnew (heq ▸ hurl)
    have hunder : under e.path es = [] := by
      rw [under, List.filter_eq_nil_iff]
      intro e' he' hpath
      exact hnew ((h.mem_iff _).2 ⟨e', he', of_decide_eq_true hpath⟩)
    have hself : group (es ++ [e]) e.path = ⟨some e.path, [] ++ [e.realmSt]⟩ := by
      rw [group_append_self, group, hunder]
      rfl
    change config.kkdcp.modify es.length _ = _
    rw [h.kkdcp, hm, List.replicate_succ, ← hlength, modify_length, hm', List.map_append, hold,
      List.map_singleton, hself, List.append_assoc, List.singleton_append]
  size := by rw [List.length_append, List.length_singleton]
  length_le := by
    rw [List.length_append, List.length_append, hlen]
    rfl
  length_eq_iff := by
    have hnodup := h.length_eq_iff.1 hlen
    refine iff_of_true (by rw [List.length_append, List.length_append, hlen]; rfl) ?_
    rw [List.map_append, List.map_singleton, ← List.concat_eq_append, List.nodup_concat]
    exact ⟨fun hmem => hnew ((h.mem_iff _).2 (List.mem_map.1 hmem)), hnodup⟩

/-! ### Which tables are built -/

/-- A line with a url that is there comes after fewer than `MAX_KRB_REALMS` lines of it, and before
a line with a new url no url is repeated; `pre` are the lines before. -/
def Placed : List (Entry σ) → List (Entry σ) → Prop
  | _, [] => True
  | pre, e :: es =>
    ((∃ e' ∈ pre, e'.path = e.path) → (under e.path pre).length < maxKrbRealms) ∧
      ((¬ ∃ e' ∈ pre, e'.path = e.path) → (pre.map Entry.path).Nodup) ∧ Placed (pre ++ [e]) es

/-- The url is in a slot in use. -/
def Found (config : CfgSt σ) (url : List UInt8) : Prop :=
  ∃ slot ∈ config.kkdcp.take config.kkdcpSize, slot.url = some url

variable {pre : List (Entry σ)} {config' : CfgSt σ}

/-- **The table that is built.** -/
theorem filled_of_placed (h : Filled n urls pre config) (hplaced : Placed pre es)
    (hn : pre.length + es.length ≤ n) :
    ∃ urls' config', addAll pre.length config es = .ok config' ∧
      Filled n urls' (pre ++ es) config' := by
  induction es generalizing pre urls config with
  | nil => exact ⟨urls, config, rfl, by rwa [List.append_nil]⟩
  | cons e es ih =>
    obtain ⟨hold, hnew, hplaced⟩ := hplaced
    rw [List.length_cons] at hn
    -- one line, whichever it is
    obtain ⟨urls₁, config₁, hcall, h₁⟩ : ∃ urls₁ config₁,
        addRealm pre.length e.path e.realmSt config = .ok config₁ ∧
          Filled n urls₁ (pre ++ [e]) config₁ := by
      by_cases hmem : e.path ∈ urls
      · have hfew := hold ((h.mem_iff _).1 hmem)
        refine ⟨_, _, ?_, h.append_mem hmem⟩
        rw [h.addRealm_mem hmem, if_neg (not_le.2 hfew)]
      · have hlen := h.length_eq_iff.2 (hnew fun hex => hmem ((h.mem_iff _).2 hex))
        exact ⟨_, _, h.addRealm_new hmem hlen.le, h.append_new hmem hlen (by omega)⟩
    have hlen : (pre ++ [e]).length = pre.length + 1 := List.length_append
    obtain ⟨urls', config', hrest, h'⟩ := ih h₁ hplaced (by omega)
    refine ⟨urls', config', ?_, ?_⟩
    · rw [addAll, hcall, ← hlen]
      exact hrest
    · rwa [List.append_assoc] at h'

/-- The loop stops at a slot that has no url. -/
theorem findPath_null {slots : List (KkdcpSt σ)} (h : ∃ slot ∈ slots, slot.url = none) (j : ℕ)
    (kkdcp : Option ℕ) : findPath path j kkdcp slots = .error .null := by
  induction slots generalizing j kkdcp with
  | nil =>
    obtain ⟨slot, hmem, -⟩ := h
    cases hmem
  | cons slot slots ih =>
    rw [findPath]
    cases hslot : slot.url with
    | none => rfl
    | some url =>
      obtain ⟨slot', hmem, hnone⟩ := h
      rcases List.mem_cons.1 hmem with rfl | hmem
      · rw [hslot] at hnone
        cases hnone
      · exact ih ⟨slot', hmem, hnone⟩ (j + 1) _

/-- A new url after a repeated one: its slot is behind those in use, and one of these is empty. -/
theorem Filled.take_misplaced (h : Filled n urls es config) (hi : urls.length < i) (hn : i < n)
    (f : KkdcpSt σ → KkdcpSt σ) :
    (config.kkdcp.modify i f).take (urls.length + 1) = urls.map (group es) ++ [⟨none, []⟩] := by
  have hlen : (urls.map (group es) ++ [(⟨none, []⟩ : KkdcpSt σ)]).length = urls.length + 1 := by
    rw [List.length_append, List.length_map, List.length_singleton]
  obtain ⟨m, hm⟩ : ∃ m, n - urls.length = m + 1 := ⟨n - urls.length - 1, by omega⟩
  have htake : config.kkdcp.take (urls.length + 1) = urls.map (group es) ++ [⟨none, []⟩] := by
    rw [h.kkdcp, hm, List.replicate_succ, List.append_cons, ← hlen, List.take_left]
  rw [List.take_modify, htake, List.modify_eq_self (by omega)]

/-- **A table in which every url is found** is that of lines at their places. -/
theorem placed_of_addAll (h : Filled n urls pre config) (hn : pre.length + es.length ≤ n)
    (hcall : addAll pre.length config es = .ok config') (hfound : ∀ e ∈ es, Found config' e.path) :
    Placed pre es := by
  induction es generalizing pre urls config with
  | nil => trivial
  | cons e es ih =>
    rw [List.length_cons] at hn
    have hlen : (pre ++ [e]).length = pre.length + 1 := List.length_append
    rw [addAll] at hcall
    by_cases hmem : e.path ∈ urls
    · rw [h.addRealm_mem hmem] at hcall
      split_ifs at hcall with hmany
      · cases hcall
      · refine ⟨fun _ => not_le.1 hmany, fun hnew => absurd ((h.mem_iff _).1 hmem) hnew, ?_⟩
        exact ih (h.append_mem hmem) (by omega) (hlen ▸ hcall) fun e he =>
          hfound e (List.mem_cons_of_mem _ he)
    · have hle := h.length_le
      rw [h.addRealm_new hmem hle] at hcall
      by_cases hfull : urls.length = pre.length
      · refine ⟨fun hex => absurd ((h.mem_iff _).2 hex) hmem, fun _ => h.length_eq_iff.1 hfull, ?_⟩
        exact ih (h.append_new hmem hfull (by omega)) (by omega) (hlen ▸ hcall) fun e he =>
          hfound e (List.mem_cons_of_mem _ he)
      · -- the url is not in the slots in use, and the next line stops at the empty one
        have htake := h.take_misplaced (i := pre.length) (by omega) (by omega) fun slot =>
          ⟨some e.path, slot.realms ++ [e.realmSt]⟩
        cases es with
        | nil =>
          cases hcall
          obtain ⟨slot, hslot, hurl⟩ := hfound e List.mem_cons_self
          rw [htake] at hslot
          rcases List.mem_append.1 hslot with hslot | hslot
          · obtain ⟨url, hmem', rfl⟩ := List.mem_map.1 hslot
            cases hurl
            exact absurd hmem' hmem
          · rw [List.mem_singleton.1 hslot] at hurl
            cases hurl
        | cons e' es =>
          change addAll (pre.length + 1) _ (e' :: es) = _ at hcall
          rw [addAll, addRealm, htake, findPath_null ⟨⟨none, []⟩, by simp, rfl⟩] at hcall
          cases hcall

end Kkdcp

end Ocserv
