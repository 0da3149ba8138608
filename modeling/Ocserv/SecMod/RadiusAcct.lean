import Mathlib.Data.List.TakeWhile
import Ocserv.SecMod.Accounting

/-!
# Sec-mod: the accounting requests for a RADIUS server

`src/acct/radius.c`: `session_stats` and `close_session` of the module tell the server the totals
of a session.  An attribute has 32 bits, so a counter is sent as two of them, the bytes (octets)
modulo 2^32 and the number of times they wrapped (gigawords).

* `records_faithful_iff` : when the server gets the totals that sec-mod passed.
-/

namespace Ocserv

namespace SecMod

namespace RadiusAcct

/-! ### The attributes -/

/-- `PW_ACCT_STATUS_TYPE` and so on. -/
inductive Attr where
  | acctStatusType
  | acctTerminateCause
  | nasIdentifier
  | userName
  | serviceType
  | framedProtocol
  | framedIpAddress
  | callingStationId
  | acctSessionId
  | acctAuthentic
  | nasPortType
  | acctSessionTime
  | acctInputOctets
  | acctOutputOctets
  | acctInputGigawords
  | acctOutputGigawords
  deriving DecidableEq, Repr

inductive Value where
  | int (n : UInt32)
  | text (s : Bytes)
  deriving DecidableEq, Repr

/-- `VALUE_PAIR`. -/
structure ValuePair where
  attr : Attr
  value : Value
  deriving DecidableEq, Repr

/-- `PW_STATUS_ALIVE` and `PW_STATUS_STOP`. -/
def statusAlive : UInt32 := 3
def statusStop : UInt32 := 2

/-- `PW_USER_REQUEST`, `PW_FRAMED`, `PW_PPP`, `PW_RADIUS` and `PW_ASYNC`. -/
def userRequest : UInt32 := 1
def framed : UInt32 := 2
def ppp : UInt32 := 1
def radius : UInt32 := 1
def async : UInt32 := 0

/-- The part of `common_auth_info_st` that is sent. -/
structure AuthInfo where
  username : Bytes
  psid : Bytes
  remoteIp : Bytes
  ipv4 : Bytes
  deriving DecidableEq, Repr

/-- `nas_identifier`, and `inet_pton` in the byte order of the host. -/
structure AcctConfig where
  nasIdentifier : Bytes
  inetPton : Bytes → UInt32

/-- `rc_avpair_add`, for the attributes it succeeds with. -/
def rcAvpairAdd (ok : Attr → Bool) (send : List ValuePair) (p : ValuePair) :
    Option (List ValuePair) :=
  if ok p.attr then some (send ++ [p]) else none

/-- Attributes are added one after the other, until one of them cannot be. -/
def appendPairs (ok : Attr → Bool) : List ValuePair → List ValuePair → List ValuePair
  | send, [] => send
  | send, p :: ps =>
    match rcAvpairAdd ok send p with
    | none => send
    | some send => appendPairs ok send ps

/-- The attributes of `append_stats`. -/
def statsPairs (stats : Stats) : List ValuePair :=
  (if stats.uptime ≠ 0 then [⟨.acctSessionTime, .int (UInt32.ofNat stats.uptime)⟩] else []) ++
    [⟨.acctInputOctets, .int stats.bytesIn.toUInt32⟩,
      ⟨.acctOutputOctets, .int stats.bytesOut.toUInt32⟩,
      ⟨.acctInputGigawords, .int (stats.bytesIn / 4294967296).toUInt32⟩,
      -- of `bytes_in`, too
      ⟨.acctOutputGigawords, .int (stats.bytesIn / 4294967296).toUInt32⟩]

/-- `append_stats` -/
def appendStats (ok : Attr → Bool) (send : List ValuePair) (stats : Stats) : List ValuePair :=
  appendPairs ok send (statsPairs stats)

/-- The attributes of `append_acct_standard`. -/
def standardPairs (cfg : AcctConfig) (ai : AuthInfo) : List ValuePair :=
  (if cfg.nasIdentifier ≠ [] then [⟨.nasIdentifier, .text cfg.nasIdentifier⟩] else []) ++
    [⟨.userName, .text ai.username⟩, ⟨.serviceType, .int framed⟩, ⟨.framedProtocol, .int ppp⟩] ++
    (if ai.ipv4 ≠ [] then [⟨.framedIpAddress, .int (cfg.inetPton ai.ipv4)⟩] else []) ++
    [⟨.callingStationId, .text ai.remoteIp⟩, ⟨.acctSessionId, .text ai.psid⟩,
      ⟨.acctAuthentic, .int radius⟩, ⟨.nasPortType, .int async⟩]

/-- `append_acct_standard` -/
def appendAcctStandard (ok : Attr → Bool) (cfg : AcctConfig) (ai : AuthInfo)
    (send : List ValuePair) : List ValuePair :=
  appendPairs ok send (standardPairs cfg ai)

/-- `radius_acct_session_stats`: the request, if one is sent. -/
def radiusAcctSessionStats (ok : Attr → Bool) (cfg : AcctConfig) (ai : AuthInfo) (stats : Stats) :
    Option (List ValuePair) := do
  let send ← rcAvpairAdd ok [] ⟨.acctStatusType, .int statusAlive⟩
  return appendStats ok (appendAcctStandard ok cfg ai send) stats

/-- `radius_acct_close_session`: the request, if one is sent. -/
def radiusAcctCloseSession (ok : Attr → Bool) (cfg : AcctConfig) (ai : AuthInfo) (stats : Stats) :
    Option (List ValuePair) := do
  let send ← rcAvpairAdd ok [] ⟨.acctStatusType, .int statusStop⟩
  let send ← rcAvpairAdd ok send ⟨.acctTerminateCause, .int userRequest⟩
  return appendStats ok (appendAcctStandard ok cfg ai send) stats

/-! ### What the server makes of a request -/

/-- The value of a numeric attribute. -/
def lookup (record : List ValuePair) (attr : Attr) : Option UInt32 :=
  (record.find? (·.attr = attr)).bind fun p =>
    match p.value with
    | .int n => some n
    | .text _ => none

/-- `Acct-Input-Octets` and `Acct-Output-Octets`. -/
def octets : Direction → Attr
  | .bytesIn => .acctInputOctets
  | .bytesOut => .acctOutputOctets

/-- `Acct-Input-Gigawords` and `Acct-Output-Gigawords`. -/
def gigawords : Direction → Attr
  | .bytesIn => .acctInputGigawords
  | .bytesOut => .acctOutputGigawords

/-- The counter that a request stands for. -/
def decode (record : List ValuePair) (d : Direction) : Option ℕ := do
  let low ← lookup record (octets d)
  let high ← lookup record (gigawords d)
  return low.toNat + 2 ^ 32 * high.toNat

/-- A call of `session_stats` or, if `close`, of `close_session`; `ok` says which attributes can be
added during it. -/
structure Call where
  close : Bool
  ai : AuthInfo
  stats : Stats
  ok : Attr → Bool

/-- The request of a call. -/
def Call.record (cfg : AcctConfig) (call : Call) : Option (List ValuePair) :=
  if call.close then radiusAcctCloseSession call.ok cfg call.ai call.stats
  else radiusAcctSessionStats call.ok cfg call.ai call.stats

/-- The counter that the server is told. -/
def Call.decoded (cfg : AcctConfig) (call : Call) (d : Direction) : Option ℕ :=
  (call.record cfg).bind (decode · d)

/-- The server is told what was passed to the module. -/
def Call.Lossless (cfg : AcctConfig) (call : Call) : Prop :=
  ∀ d, call.decoded cfg d = some (call.stats.bytes d).toNat

/-- **Faithful records**: none of them loses anything, and the totals that the server is told do
not decrease if those of sec-mod do not. -/
structure Faithful (cfg : AcctConfig) (calls : List Call) : Prop where
  lossless : ∀ call ∈ calls, call.Lossless cfg
  monotone : (calls.map (·.stats)).Pairwise Stats.Le →
    ∀ d, (calls.filterMap (·.decoded cfg d)).Pairwise (· ≤ ·)

/-- What a request begins with. -/
def Call.head (call : Call) : List ValuePair :=
  if call.close then [⟨.acctStatusType, .int statusStop⟩, ⟨.acctTerminateCause, .int userRequest⟩]
  else [⟨.acctStatusType, .int statusAlive⟩]

/-- The attributes without which the counters are not sent can be added. -/
def Call.Complete (call : Call) : Prop :=
  ∀ p ∈ call.head ++ statsPairs call.stats, call.ok p.attr

/-- The two counters have wrapped equally often. -/
def SameGigawords (stats : Stats) : Prop := stats.bytesIn / 4294967296 = stats.bytesOut / 4294967296

/-! ### Adding attributes -/

section

variable {ok : Attr → Bool} {l l' send : List ValuePair} {p : ValuePair} {a : Attr}

theorem appendPairs_eq (ok : Attr → Bool) (send ps : List ValuePair) :
    appendPairs ok send ps = send ++ ps.takeWhile (ok ·.attr) := by
  induction ps generalizing send with
  | nil => exact (List.append_nil send).symm
  | cons p ps ih =>
    unfold appendPairs rcAvpairAdd
    rw [List.takeWhile_cons]
    by_cases hok : ok p.attr = true
    · rw [if_pos hok, if_pos hok]
      dsimp only
      rw [ih, List.append_assoc]
      rfl
    · rw [if_neg hok, if_neg hok, List.append_nil]

/-- If the last attribute was added, so were all. -/
theorem takeWhile_of_mem_last (hp : p ∉ l) (hmem : p ∈ (l ++ [p]).takeWhile (ok ·.attr)) :
    ∀ q ∈ l ++ [p], ok q.attr := by
  rw [List.takeWhile_append] at hmem
  split at hmem
  · rename_i hlen
    have hl : l.takeWhile (ok ·.attr) = l := (List.takeWhile_prefix _).eq_of_length hlen
    intro q hq
    rcases List.mem_append.1 hq with hq | hq
    · exact List.takeWhile_eq_self_iff.1 hl q hq
    · obtain rfl := List.mem_singleton.1 hq
      rw [List.mem_append] at hmem
      have hlast := hmem.resolve_left hp
      by_contra hno
      rw [List.takeWhile_cons, if_neg hno] at hlast
      cases hlast
  · exact absurd ((List.takeWhile_sublist _).mem hmem) hp

theorem lookup_append (h : ∀ p ∈ l, p.attr ≠ a) : lookup (l ++ l') a = lookup l' a := by
  have hnone : l.find? (·.attr = a) = none := by
    simpa [List.find?_eq_none] using h
  unfold lookup
  rw [List.find?_append, hnone, Option.none_or]

theorem mem_of_lookup {n : UInt32} (h : lookup l a = some n) : ∃ p ∈ l, p.attr = a := by
  obtain ⟨p, hp, -⟩ := Option.bind_eq_some_iff.1 h
  exact ⟨p, List.mem_of_find?_eq_some hp, by simpa using List.find?_some hp⟩

end

/-! ### The record of a call -/

section

variable {cfg : AcctConfig} {call : Call} {d : Direction}

theorem record_eq (cfg : AcctConfig) (call : Call) : call.record cfg =
    if ∀ p ∈ call.head, call.ok p.attr then
      some (call.head ++ (standardPairs cfg call.ai).takeWhile (call.ok ·.attr) ++
        (statsPairs call.stats).takeWhile (call.ok ·.attr))
    else none := by
  unfold Call.record Call.head radiusAcctCloseSession radiusAcctSessionStats appendStats
    appendAcctStandard rcAvpairAdd
  simp only [appendPairs_eq]
  cases call.close with
  | false =>
    rw [if_neg Bool.false_ne_true, if_neg Bool.false_ne_true]
    cases hstatus : call.ok .acctStatusType with
    | false => simp [hstatus]
    | true => simp [hstatus]
  | true =>
    rw [if_pos rfl, if_pos rfl]
    cases hstatus : call.ok .acctStatusType with
    | false => simp [hstatus]
    | true => cases hcause : call.ok .acctTerminateCause <;> simp [hstatus, hcause]

/-- The attributes that stand before the counters. -/
def otherAttrs : List Attr :=
  [.acctStatusType, .acctTerminateCause, .nasIdentifier, .userName, .serviceType, .framedProtocol,
    .framedIpAddress, .callingStationId, .acctSessionId, .acctAuthentic, .nasPortType]

theorem attr_head {p : ValuePair} (h : p ∈ call.head) : p.attr ∈ otherAttrs := by
  unfold Call.head at h
  revert p
  split <;> simp [otherAttrs]

theorem attr_standardPairs {p : ValuePair} {ai : AuthInfo} (h : p ∈ standardPairs cfg ai) :
    p.attr ∈ otherAttrs := by
  unfold standardPairs at h
  revert p
  split <;> split <;> simp [otherAttrs]

theorem lookup_record {a : Attr} (h : a ∉ otherAttrs) {record : List ValuePair}
    (hrecord : call.record cfg = some record) :
    lookup record a = lookup ((statsPairs call.stats).takeWhile (call.ok ·.attr)) a := by
  rw [record_eq] at hrecord
  split at hrecord
  · cases hrecord
    refine lookup_append fun p hp heq => ?_
    rcases List.mem_append.1 hp with hp | hp
    · exact h (heq ▸ attr_head hp)
    · exact h (heq ▸ attr_standardPairs ((List.takeWhile_sublist _).mem hp))
  · cases hrecord

/-! ### The counters -/

/-- What `append_stats` sends of a counter. -/
def sent (stats : Stats) : Direction → ℕ
  | .bytesIn => stats.bytesIn.toNat
  | .bytesOut => stats.bytesOut.toNat % 2 ^ 32 + 2 ^ 32 * (stats.bytesIn.toNat / 2 ^ 32)

theorem toNat_gigawords (n : UInt64) : (n / 4294967296).toUInt32.toNat = n.toNat / 2 ^ 32 := by
  have hlt := n.toNat_lt
  rw [UInt64.toNat_toUInt32, UInt64.toNat_div]
  exact Nat.mod_eq_of_lt (by change n.toNat / 4294967296 < _; omega)

theorem decode_statsPairs (stats : Stats) (d : Direction) :
    decode (statsPairs stats) d = some (sent stats d) := by
  have hskip : ∀ a, a ≠ .acctSessionTime → lookup (statsPairs stats) a =
      lookup [⟨.acctInputOctets, .int stats.bytesIn.toUInt32⟩,
        ⟨.acctOutputOctets, .int stats.bytesOut.toUInt32⟩,
        ⟨.acctInputGigawords, .int (stats.bytesIn / 4294967296).toUInt32⟩,
        ⟨.acctOutputGigawords, .int (stats.bytesIn / 4294967296).toUInt32⟩] a := by
    intro a ha
    refine lookup_append fun p hp heq => ha ?_
    split at hp
    · rw [← heq, List.mem_singleton.1 hp]
    · cases hp
  unfold decode
  cases d with
  | bytesIn =>
    rw [hskip _ (by decide), hskip _ (by decide)]
    change some (stats.bytesIn.toUInt32.toNat +
      2 ^ 32 * (stats.bytesIn / 4294967296).toUInt32.toNat) = some stats.bytesIn.toNat
    rw [toNat_gigawords, UInt64.toNat_toUInt32, Nat.mod_add_div]
  | bytesOut =>
    rw [hskip _ (by decide), hskip _ (by decide)]
    change some (stats.bytesOut.toUInt32.toNat +
      2 ^ 32 * (stats.bytesIn / 4294967296).toUInt32.toNat) = some (sent stats .bytesOut)
    rw [toNat_gigawords, UInt64.toNat_toUInt32]
    rfl

/-- What the server is told. -/
theorem decoded_eq (h : call.Complete) (d : Direction) :
    call.decoded cfg d = some (sent call.stats d) := by
  obtain ⟨hhead, hstats⟩ := List.forall_mem_append.1 h
  have hall : (statsPairs call.stats).takeWhile (call.ok ·.attr) = statsPairs call.stats :=
    List.takeWhile_eq_self_iff.2 hstats
  have hrecord := record_eq cfg call
  rw [if_pos hhead] at hrecord
  have hlookup : ∀ a ∉ otherAttrs, lookup _ a = lookup (statsPairs call.stats) a := fun a ha =>
    (lookup_record ha hrecord).trans (by rw [hall])
  rw [Call.decoded, hrecord, Option.bind_some, ← decode_statsPairs]
  unfold decode
  rw [hlookup _ (by cases d <;> decide), hlookup _ (by cases d <;> decide)]

/-- A counter is only sent in a complete request. -/
theorem complete_of_decoded {n : ℕ} (h : call.decoded cfg .bytesOut = some n) : call.Complete := by
  obtain ⟨record, hrecord, hdecode⟩ := Option.bind_eq_some_iff.1 h
  obtain ⟨low, -, hdecode⟩ := Option.bind_eq_some_iff.1 hdecode
  obtain ⟨high, hhigh, -⟩ := Option.bind_eq_some_iff.1 hdecode
  rw [lookup_record (by decide) hrecord] at hhigh
  obtain ⟨p, hp, hattr⟩ := mem_of_lookup hhigh
  have hhead : ∀ p ∈ call.head, call.ok p.attr := by
    rw [record_eq] at hrecord
    split at hrecord
    · assumption
    · cases hrecord
  refine List.forall_mem_append.2 ⟨hhead, ?_⟩
  -- the gigawords of the output are the last attribute
  obtain ⟨l, hl, hnot⟩ : ∃ l, statsPairs call.stats =
      l ++ [⟨.acctOutputGigawords, .int (call.stats.bytesIn / 4294967296).toUInt32⟩] ∧
      ∀ q ∈ l, q.attr ≠ .acctOutputGigawords := by
    refine ⟨_, (List.append_assoc _ [_, _, _] [_]).symm, fun q hq => ?_⟩
    split at hq
    · revert q
      simp
    · revert q
      simp
  have hmem := (List.takeWhile_sublist _).mem hp
  rw [hl] at hmem hp ⊢
  rcases List.mem_append.1 hmem with hmem | hmem
  · exact absurd hattr (hnot p hmem)
  · obtain rfl := List.mem_singleton.1 hmem
    exact takeWhile_of_mem_last (fun h => hnot _ h rfl) hp

theorem lossless_iff : call.Lossless cfg ↔ call.Complete ∧ SameGigawords call.stats := by
  have hsame : SameGigawords call.stats ↔
      call.stats.bytesIn.toNat / 2 ^ 32 = call.stats.bytesOut.toNat / 2 ^ 32 := by
    rw [SameGigawords, ← UInt64.toNat_inj, UInt64.toNat_div, UInt64.toNat_div]
    rfl
  rw [hsame]
  constructor
  · intro h
    have hcomplete := complete_of_decoded (h .bytesOut)
    refine ⟨hcomplete, ?_⟩
    have hout := Option.some.inj ((decoded_eq hcomplete .bytesOut).symm.trans (h .bytesOut))
    change call.stats.bytesOut.toNat % 2 ^ 32 + 2 ^ 32 * (call.stats.bytesIn.toNat / 2 ^ 32) =
      call.stats.bytesOut.toNat at hout
    omega
  · rintro ⟨hcomplete, hwords⟩ d
    rw [decoded_eq hcomplete]
    refine congrArg some ?_
    cases d with
    | bytesIn => rfl
    | bytesOut =>
      change call.stats.bytesOut.toNat % 2 ^ 32 + 2 ^ 32 * (call.stats.bytesIn.toNat / 2 ^ 32) =
        call.stats.bytesOut.toNat
      omega

end

/-- Without a loss the server is told the totals of sec-mod. -/
theorem filterMap_decoded {cfg : AcctConfig} {calls : List Call}
    (h : ∀ call ∈ calls, call.Lossless cfg) (d : Direction) :
    calls.filterMap (·.decoded cfg d) = (calls.map (·.stats)).map fun s => (s.bytes d).toNat := by
  rw [List.map_map, ← List.filterMap_eq_map]
  exact List.filterMap_congr fun call hcall => h call hcall d

/-- **When the accounting records are faithful**: for every sequence of calls with any totals, if
and only if the counters can be added and the two have wrapped equally often. -/
theorem records_faithful_iff (cfg : AcctConfig) (calls : List Call) :
    Faithful cfg calls ↔ ∀ call ∈ calls, call.Complete ∧ SameGigawords call.stats := by
  constructor
  · exact fun h call hcall => lossless_iff.1 (h.lossless call hcall)
  · intro h
    have hlossless : ∀ call ∈ calls, call.Lossless cfg := fun call hcall =>
      lossless_iff.2 (h call hcall)
    refine ⟨hlossless, fun hle d => ?_⟩
    rw [filterMap_decoded hlossless]
    exact List.pairwise_map.2 (hle.imp fun h => UInt64.le_iff_toNat_le.1 (h d))

/-- An interim request with 1 GiB in and 5 GiB out. -/
def fiveGiB : Call where
  close := false
  ai := ⟨[116], [], [], []⟩
  stats := ⟨1073741824, 5368709120, 3600⟩
  ok _ := true

/-- The server is told that 1 GiB went out. -/
theorem not_faithful_fiveGiB : ¬ Faithful ⟨[], fun _ => 0⟩ [fiveGiB] := by
  intro h
  have hout := h.lossless fiveGiB (List.mem_singleton.2 rfl) .bytesOut
  revert hout
  decide

end RadiusAcct

end SecMod

end Ocserv
