import Ocserv.Main.Ban

/-!
# Runs of the ban list

A run is a list of calls of the functions of `Ocserv.Main.Ban`, each at its time.  What an IP has
collected in a run is its account (`account`), which knows nothing of entries: it is computed from
the points and the times alone.

`BanKept` says what bans are for: an IP whose points reach `max_ban_score` is rejected for
`min_reauth_time`, no attempt extends this, an IP reported as banned is rejected, and one that
collects as many points again after its ban is banned again.

## Main results

* `account_tracks` : in a run whose steps are `BanEvent.Ok`, entries and accounts stay together.
* `banKept` : **such a run keeps its bans.**
* `not_banKept_bannedTwice` : points after the end of a ban do not start another one.
-/

namespace Ocserv

namespace Main

open SecMod (Bytes strlcpy maxIpStr)

/-- The calls. -/
inductive BanCall where
  | addIpToBanList (ip : Bytes) (score : UInt32) (stored : Bool)
  | checkIfBanned (ip : Bytes) (stored : Bool) (later : ℤ)
  | removeIpFromBanList (ip : Bytes)
  | cleanupBannedEntries

/-- A call at its time. -/
structure BanEvent where
  now : ℤ
  call : BanCall

namespace BanEvent

/-- The time when the call is done; a check reads the clock twice. -/
def done (ev : BanEvent) : ℤ :=
  match ev.call with
  | .checkIfBanned _ _ later => later
  | _ => ev.now

/-- Perform the call. -/
def step (cfg : BanConfig) (db : BanDb) (ev : BanEvent) : BanDb × ℤ :=
  match ev.call with
  | .addIpToBanList ip score stored => addIpToBanList cfg db ev.now ip score stored
  | .checkIfBanned ip stored later => checkIfBanned cfg db ev.now later ip stored
  | .removeIpFromBanList ip => removeIpFromBanList db ip
  | .cleanupBannedEntries => (cleanupBannedEntries cfg db ev.now, 0)

/-- The call is about the IP with the entry of `k`. -/
def Concerns (k : Bytes) (ev : BanEvent) : Prop :=
  match ev.call with
  | .addIpToBanList ip _ _ | .checkIfBanned ip _ _ | .removeIpFromBanList ip =>
    ip ≠ [] ∧ strlcpy maxIpStr ip = k
  | .cleanupBannedEntries => False

instance (k : Bytes) (ev : BanEvent) : Decidable (ev.Concerns k) :=
  match ev with
  | ⟨_, .addIpToBanList _ _ _⟩ => inferInstanceAs (Decidable (_ ∧ _))
  | ⟨_, .checkIfBanned _ _ _⟩ => inferInstanceAs (Decidable (_ ∧ _))
  | ⟨_, .removeIpFromBanList _⟩ => inferInstanceAs (Decidable (_ ∧ _))
  | ⟨_, .cleanupBannedEntries⟩ => inferInstanceAs (Decidable False)

/-- A check of the IP. -/
def Checks (k : Bytes) (ev : BanEvent) : Prop :=
  ev.Concerns k ∧ ∃ ip stored later, ev.call = .checkIfBanned ip stored later

/-- An addition for the IP. -/
def Adds (k : Bytes) (ev : BanEvent) : Prop :=
  ev.Concerns k ∧ ∃ ip score stored, ev.call = .addIpToBanList ip score stored

/-- A removal of the IP. -/
def Removes (k : Bytes) (ev : BanEvent) : Prop :=
  ev.Concerns k ∧ ∃ ip, ev.call = .removeIpFromBanList ip

/-- What the call does to the account of its IP. -/
def move (cfg : BanConfig) (ev : BanEvent) : Account.Move :=
  match ev.call with
  | .addIpToBanList _ score _ => .collect score.toNat
  | .checkIfBanned _ _ _ => .collect cfg.banPointsConnect.toNat
  | .removeIpFromBanList _ | .cleanupBannedEntries => .pardon

/-- What the call does to the account of an IP. -/
def moveFor (cfg : BanConfig) (k : Bytes) (ev : BanEvent) : Option (ℤ × Account.Move) :=
  if ev.Concerns k then some (ev.now, ev.move cfg) else none

/-- The condition for a step to keep entries and accounts together. -/
def Ok (cfg : BanConfig) (db : BanDb) (ev : BanEvent) : Prop :=
  match ev.call with
  | .addIpToBanList ip score stored =>
    ip ≠ [] → AddOk cfg ev.now score stored (db (strlcpy maxIpStr ip))
  | .checkIfBanned ip stored _ =>
    ip ≠ [] → AddOk cfg ev.now cfg.banPointsConnect stored (db (strlcpy maxIpStr ip))
  | .removeIpFromBanList _ => True
  | .cleanupBannedEntries => ∀ k, ∀ e ∈ db k, CleanupOk cfg ev.now e

end BanEvent

/-- The ban list. -/
def banList (cfg : BanConfig) : Machine BanDb BanEvent where
  step db ev := some (ev.step cfg db).1

/-- The ban list at the start. -/
def emptyBanDb : BanDb := fun _ => none

/-- The ban list after a run. -/
def banDbAfter (cfg : BanConfig) (run : List BanEvent) : BanDb :=
  run.foldl (fun db ev => (ev.step cfg db).1) emptyBanDb

/-- What a call returns after a run. -/
def returns (cfg : BanConfig) (run : List BanEvent) (ev : BanEvent) : ℤ :=
  (ev.step cfg (banDbAfter cfg run)).2

/-- What an IP has collected in a run. -/
def account (cfg : BanConfig) (run : List BanEvent) (k : Bytes) : Option (Account ℤ) :=
  Account.after cfg.rules none (run.filterMap (BanEvent.moveFor cfg k))

/-- The points an IP is given in a run. -/
def pointsOf (cfg : BanConfig) (k : Bytes) (run : List BanEvent) : ℕ :=
  ((run.filterMap (BanEvent.moveFor cfg k)).map fun m => m.2.points).sum

/-- The clock does not go back. -/
def Clocked (run : List BanEvent) : Prop :=
  run.Pairwise (fun a b => a.done ≤ b.now) ∧ ∀ ev ∈ run, ev.now ≤ ev.done

/-- With this call the points of an IP without a ban reach the maximum. -/
def Reaches (cfg : BanConfig) (run : List BanEvent) (k : Bytes) (ev : BanEvent) : Prop :=
  ev.Concerns k ∧ ∃ p, ev.move cfg = .collect p ∧
    (Account.renew cfg.rules ev.now (account cfg run k)).bannedUntil = none ∧
    cfg.maxBanScore.toNat ≤ (Account.renew cfg.rules ev.now (account cfg run k)).points + p

/-- The points of an IP reached the maximum at time `t` of the run, and it was not removed
since. -/
def ReachedAt (cfg : BanConfig) (run : List BanEvent) (k : Bytes) (t : ℤ) : Prop :=
  ∃ before ev mid, run = before ++ ev :: mid ∧ ev.now = t ∧ Reaches cfg before k ev ∧
    ∀ e ∈ mid, ¬ e.Removes k

/-- **What bans are for.** -/
structure BanKept (cfg : BanConfig) (run : List BanEvent) : Prop where
  /-- An IP whose points reach the maximum is rejected for `min_reauth_time`. -/
  rejected : ∀ before chk k t, before ++ [chk] <+: run → chk.Checks k →
    ReachedAt cfg (before ++ [chk]) k t → chk.done ≤ t + cfg.minReauthTime →
    returns cfg before chk = 1
  /-- Attempts during the ban do not extend it: the first check after it is accepted, unless a
  connection alone is worth a ban. -/
  notExtended : ∀ before ev mid chk k, before ++ ev :: mid ++ [chk] <+: run →
    Reaches cfg before k ev →
    (∀ e ∈ mid, e.Concerns k → e.now ≤ ev.now + cfg.minReauthTime ∧ ¬ e.Removes k) →
    chk.Checks k → ev.now + cfg.minReauthTime < chk.now →
    cfg.banPointsConnect < cfg.maxBanScore → returns cfg (before ++ ev :: mid) chk = 0
  /-- An IP that is reported as banned is rejected at that time. -/
  reported : ∀ before add mid chk k, before ++ add :: mid ++ [chk] <+: run → add.Adds k →
    returns cfg before add = -1 → (∀ e ∈ mid, ¬ e.Removes k) → chk.Checks k →
    chk.done = add.now → returns cfg (before ++ add :: mid) chk = 1
  /-- An IP that after its ban collects as many points as the maximum, within the time they add
  up, is banned again by the last of them. -/
  bannedAgain : ∀ before ev mid more last rest chk k,
    before ++ ev :: mid ++ more ++ last :: rest ++ [chk] <+: run → Reaches cfg before k ev →
    (∀ e ∈ mid, e.Concerns k → e.now ≤ ev.now + cfg.minReauthTime ∧ ¬ e.Removes k) →
    (∀ e ∈ more ++ [last], e.Concerns k → ev.now + cfg.minReauthTime < e.now ∧ ¬ e.Removes k ∧
      ∀ e' ∈ more, e'.Concerns k → e.now ≤ e'.now + cfg.banResetTime) →
    pointsOf cfg k more < cfg.maxBanScore.toNat →
    cfg.maxBanScore.toNat ≤ pointsOf cfg k (more ++ [last]) →
    (∀ e ∈ rest, ¬ e.Removes k) → chk.Checks k → chk.done ≤ last.now + cfg.minReauthTime →
    returns cfg (before ++ ev :: mid ++ more ++ last :: rest) chk = 1

section

variable {cfg : BanConfig} {db : BanDb} {ev : BanEvent} {run before : List BanEvent} {k : Bytes}
  {clock : ℤ} {a? : Option (Account ℤ)}

/-! ### Entries and accounts along a run -/

theorem account_append (before run : List BanEvent) :
    account cfg (before ++ run) k =
      Account.after cfg.rules (account cfg before k) (run.filterMap (BanEvent.moveFor cfg k)) := by
  rw [account, List.filterMap_append, Account.after_append]
  rfl

theorem account_concat_of_concerns (h : ev.Concerns k) :
    account cfg (before ++ [ev]) k =
      Account.move cfg.rules (account cfg before k) (ev.now, ev.move cfg) := by
  rw [account_append, List.filterMap_cons, BanEvent.moveFor, if_pos h]
  rfl

theorem account_concat_of_not_concerns (h : ¬ ev.Concerns k) :
    account cfg (before ++ [ev]) k = account cfg before k := by
  rw [account_append, List.filterMap_cons, BanEvent.moveFor, if_neg h]
  rfl

theorem banDbAfter_concat :
    banDbAfter cfg (before ++ [ev]) = (ev.step cfg (banDbAfter cfg before)).1 := by
  rw [banDbAfter, List.foldl_append]
  rfl

theorem run_banList (db : BanDb) (run : List BanEvent) :
    (banList cfg).run db run = some (run.foldl (fun db ev => (ev.step cfg db).1) db) := by
  induction run generalizing db with
  | nil => rfl
  | cons ev run ih => exact ih _

/-- A step for an IP. -/
theorem tracks_step_of_concerns (h0 : 0 < cfg.maxBanScore) (hk : ev.Concerns k)
    (h : Tracks cfg clock (db k) a?) (hle : clock ≤ ev.now) (hok : ev.Ok cfg db) :
    Tracks cfg ev.now ((ev.step cfg db).1 k)
      (Account.move cfg.rules a? (ev.now, ev.move cfg)) := by
  have hne : cfg.maxBanScore ≠ 0 := fun hz => UInt32.lt_irrefl 0 (hz ▸ h0)
  obtain ⟨now, call⟩ := ev
  cases call with
  | addIpToBanList ip score stored =>
    obtain ⟨hip, rfl⟩ := hk
    obtain ⟨e, he, -, htracks, -⟩ := tracks_addIpToBanList h0 hip rfl h hle (hok hip)
    rw [BanEvent.step, he]
    exact htracks
  | checkIfBanned ip stored later =>
    obtain ⟨hip, rfl⟩ := hk
    obtain ⟨e, he, -, htracks, -⟩ := tracks_addIpToBanList h0 hip rfl h hle (hok hip)
    rw [BanEvent.step, checkIfBanned_fst hne, he]
    exact htracks
  | removeIpFromBanList ip => exact tracks_removeIpFromBanList h0 hk.1 hk.2 (h.mono hle)
  | cleanupBannedEntries => exact hk.elim

/-- A step for another IP, or for all. -/
theorem tracks_step_of_not_concerns (h0 : 0 < cfg.maxBanScore) (hk : ¬ ev.Concerns k)
    (h : Tracks cfg clock (db k) a?) (hle : clock ≤ ev.now) (hok : ev.Ok cfg db) :
    Tracks cfg ev.now ((ev.step cfg db).1 k) a? := by
  have hne : cfg.maxBanScore ≠ 0 := fun hz => UInt32.lt_irrefl 0 (hz ▸ h0)
  obtain ⟨now, call⟩ := ev
  have hadd : ∀ ip score stored, ¬ (ip ≠ [] ∧ strlcpy maxIpStr ip = k) →
      (addIpToBanList cfg db now ip score stored).1 k = db k := by
    intro ip score stored hno
    by_cases hip : ip = []
    · rw [hip, addIpToBanList_nil]
    · exact addIpToBanList_of_ne fun heq => hno ⟨hip, heq⟩
  cases call with
  | addIpToBanList ip score stored =>
    rw [BanEvent.step, hadd ip score stored hk]
    exact h.mono hle
  | checkIfBanned ip stored later =>
    rw [BanEvent.step, checkIfBanned_fst hne, hadd ip _ stored hk]
    exact h.mono hle
  | removeIpFromBanList ip =>
    have hsame : (removeIpFromBanList db ip).1 k = db k := by
      by_cases hip : ip = []
      · rw [removeIpFromBanList, if_pos hip]
      · exact removeIpFromBanList_of_ne fun heq => hk ⟨hip, heq⟩
    rw [BanEvent.step, hsame]
    exact h.mono hle
  | cleanupBannedEntries => exact tracks_cleanup h hle (hok k)

/-- The run is clocked and its steps are `Ok`. -/
structure Sound (cfg : BanConfig) (run : List BanEvent) : Prop where
  clocked : Clocked run
  ok : (banList cfg).Meets (BanEvent.Ok cfg) emptyBanDb run

theorem Sound.of_prefix (h : Sound cfg run) (hpre : before <+: run) : Sound cfg before := by
  obtain ⟨rest, rfl⟩ := hpre
  refine ⟨⟨(List.pairwise_append.1 h.clocked.1).1, ?_⟩, h.ok.left_of_append⟩
  intro e he
  exact h.clocked.2 e (List.mem_append_left _ he)

theorem Sound.last_ok (h : Sound cfg (before ++ [ev])) : ev.Ok cfg (banDbAfter cfg before) :=
  (h.ok.right_of_append (run_banList emptyBanDb before)).1

theorem Sound.le_last (h : Sound cfg (before ++ [ev])) {e : BanEvent} (he : e ∈ before) :
    e.now ≤ ev.now :=
  le_trans (h.clocked.2 e (List.mem_append_left _ he))
    ((List.pairwise_append.1 h.clocked.1).2.2 e he ev (List.mem_singleton_self ev))

/-- **Entries and accounts stay together** in a run whose steps are `Ok`. -/
theorem account_tracks (h0 : 0 < cfg.maxBanScore) (h : Sound cfg run)
    (hclock : ∀ e ∈ run, e.now ≤ clock) :
    Tracks cfg clock (banDbAfter cfg run k) (account cfg run k) := by
  induction run using List.reverseRecOn generalizing clock with
  | nil => exact trivial
  | append_singleton before ev ih =>
    have htracks := ih (h.of_prefix (List.prefix_append _ _)) fun e he => h.le_last he
    have hle : ev.now ≤ clock :=
      hclock ev (List.mem_append_right _ (List.mem_singleton_self ev))
    rw [banDbAfter_concat]
    by_cases hk : ev.Concerns k
    · rw [account_concat_of_concerns hk]
      exact (tracks_step_of_concerns h0 hk htracks le_rfl h.last_ok).mono hle
    · rw [account_concat_of_not_concerns hk]
      exact (tracks_step_of_not_concerns h0 hk htracks le_rfl h.last_ok).mono hle

/-! ### What the calls return -/

/-- **A check answers as the account does.** -/
theorem returns_check (h0 : 0 < cfg.maxBanScore) (h : Sound cfg (before ++ [ev]))
    (hc : ev.Checks k) {a : Account ℤ} (ha : account cfg (before ++ [ev]) k = some a) :
    (∀ u, a.bannedUntil = some u → ev.done ≤ u → returns cfg before ev = 1) ∧
      (a.bannedUntil = none → returns cfg before ev = 0) := by
  have hne : cfg.maxBanScore ≠ 0 := fun hz => UInt32.lt_irrefl 0 (hz ▸ h0)
  have hbefore : Tracks cfg ev.now (banDbAfter cfg before k) (account cfg before k) :=
    account_tracks h0 (h.of_prefix (List.prefix_append _ _)) fun e he => h.le_last he
  have hok := h.last_ok
  obtain ⟨hk, ip, stored, later, hcall⟩ := hc
  obtain ⟨now, call⟩ := ev
  obtain rfl : call = .checkIfBanned ip stored later := hcall
  rw [account_concat_of_concerns hk] at ha
  obtain ⟨hip, rfl⟩ := hk
  obtain ⟨e, he, -, htracks, -⟩ := tracks_addIpToBanList h0 hip rfl hbefore le_rfl (hok hip)
  rw [Option.some.inj ha] at htracks
  have hret : returns cfg before ⟨now, .checkIfBanned ip stored later⟩ =
      if later ≤ e.expires ∧ cfg.maxBanScore ≤ e.score then 1 else 0 := checkIfBanned_snd hne he
  obtain ⟨-, hif⟩ := htracks
  rw [hret]
  by_cases hlow : e.score < cfg.maxBanScore
  · rw [if_pos hlow] at hif
    refine ⟨fun u hu _ => ?_, fun _ => if_neg fun hboth => UInt32.not_lt.2 hboth.2 hlow⟩
    rw [hif.2] at hu
    cases hu
  · rw [if_neg hlow] at hif
    constructor
    · intro u hu hle
      rw [hif] at hu
      obtain rfl := Option.some.inj hu
      exact if_pos ⟨hle, UInt32.not_lt.1 hlow⟩
    · intro hnone
      rw [hif] at hnone
      cases hnone

/-- An addition that reports a ban leaves the account banned, at least for now. -/
theorem returns_add (h0 : 0 < cfg.maxBanScore) (h : Sound cfg (before ++ [ev])) (hc : ev.Adds k)
    (hret : returns cfg before ev = -1) :
    ∃ a u, account cfg (before ++ [ev]) k = some a ∧ a.bannedUntil = some u ∧ ev.now ≤ u := by
  have hbefore : Tracks cfg ev.now (banDbAfter cfg before k) (account cfg before k) :=
    account_tracks h0 (h.of_prefix (List.prefix_append _ _)) fun e he => h.le_last he
  have hok := h.last_ok
  obtain ⟨hk, ip, score, stored, hcall⟩ := hc
  obtain ⟨now, call⟩ := ev
  obtain rfl : call = .addIpToBanList ip score stored := hcall
  rw [account_concat_of_concerns hk]
  obtain ⟨hip, rfl⟩ := hk
  obtain ⟨e, -, hreport, htracks, hle⟩ :=
    tracks_addIpToBanList h0 hip rfl hbefore le_rfl (hok hip)
  obtain ⟨-, hif⟩ := htracks
  rw [if_neg (UInt32.not_lt.2 (hreport.1 hret))] at hif
  exact ⟨_, _, rfl, hif, hle _ hif⟩

/-! ### Accounts along a run -/

/-- The points that reach the maximum start a ban. -/
theorem Reaches.account (h : Reaches cfg before k ev) : ∃ a,
    account cfg (before ++ [ev]) k = some a ∧
      a.bannedUntil = some (ev.now + cfg.minReauthTime) := by
  obtain ⟨hk, p, hmove, hnone, hp⟩ := h
  rw [account_concat_of_concerns hk, hmove]
  exact ⟨_, rfl, Account.collect_reaches hnone hp⟩

theorem BanEvent.move_ne_pardon (hk : ev.Concerns k) (h : ¬ ev.Removes k) :
    ev.move cfg ≠ .pardon := by
  obtain ⟨now, call⟩ := ev
  cases call with
  | addIpToBanList ip score stored => exact fun hno => nomatch hno
  | checkIfBanned ip stored later => exact fun hno => nomatch hno
  | removeIpFromBanList ip => exact absurd ⟨hk, ip, rfl⟩ h
  | cleanupBannedEntries => exact hk.elim

theorem mem_moves {m : ℤ × Account.Move} :
    m ∈ run.filterMap (BanEvent.moveFor cfg k) ↔
      ∃ e ∈ run, e.Concerns k ∧ m = (e.now, e.move cfg) := by
  rw [List.mem_filterMap]
  constructor
  · rintro ⟨e, he, hm⟩
    unfold BanEvent.moveFor at hm
    split at hm
    · rename_i hk
      exact ⟨e, he, hk, (Option.some.inj hm).symm⟩
    · cases hm
  · rintro ⟨e, he, hk, rfl⟩
    exact ⟨e, he, if_pos hk⟩

/-- A ban stays as it is until it ends. -/
theorem account_of_banned {a : Account ℤ} {u : ℤ} {mid : List BanEvent}
    (ha : account cfg before k = some a) (hu : a.bannedUntil = some u)
    (hmid : ∀ e ∈ mid, e.Concerns k → e.now ≤ u ∧ ¬ e.Removes k) :
    account cfg (before ++ mid) k = some a := by
  rw [account_append, ha]
  refine Account.after_of_banned hu ?_
  intro m hm
  obtain ⟨e, he, hk, rfl⟩ := mem_moves.1 hm
  exact ⟨(hmid e he hk).1, BanEvent.move_ne_pardon hk (hmid e he hk).2⟩

theorem BanEvent.Checks.not_removes (h : ev.Checks k) : ¬ ev.Removes k := by
  rintro ⟨-, ip, hremove⟩
  obtain ⟨-, ip', stored, later, hcall⟩ := h
  rw [hcall] at hremove
  cases hremove

/-- The account of a banned IP, until the end of its ban. -/
theorem account_of_reaches {mid : List BanEvent} (h : Reaches cfg before k ev)
    (hmid : ∀ e ∈ mid, e.Concerns k → e.now ≤ ev.now + cfg.minReauthTime ∧ ¬ e.Removes k) :
    ∃ a, account cfg (before ++ ev :: mid) k = some a ∧
      a.bannedUntil = some (ev.now + cfg.minReauthTime) := by
  obtain ⟨a, ha, hu⟩ := h.account
  refine ⟨a, ?_, hu⟩
  rw [← List.singleton_append, ← List.append_assoc]
  exact account_of_banned ha hu hmid

theorem BanEvent.Checks.not_removes_concat {mid : List BanEvent} (h : ev.Checks k)
    (hmid : ∀ e ∈ mid, ¬ e.Removes k) : ∀ e ∈ mid ++ [ev], ¬ e.Removes k := by
  intro e he
  rcases List.mem_append.1 he with he | he
  · exact hmid e he
  · exact List.mem_singleton.1 he ▸ h.not_removes

/-- **A ban is enforced** by every check until its end. -/
theorem returns_of_banned (h0 : 0 < cfg.maxBanScore) (h : Sound cfg (before ++ [ev]))
    (hc : ev.Checks k) {start mid : List BanEvent} (heq : before ++ [ev] = start ++ mid)
    {a : Account ℤ} {u : ℤ} (ha : account cfg start k = some a) (hu : a.bannedUntil = some u)
    (hmid : ∀ e ∈ mid, ¬ e.Removes k) (hle : ev.done ≤ u) : returns cfg before ev = 1 := by
  have hlast : ∀ e ∈ before ++ [ev], e.now ≤ u := by
    intro e he
    have hdone := h.clocked.2 ev (List.mem_append_right _ (List.mem_singleton_self ev))
    rcases List.mem_append.1 he with he | he
    · exact le_trans (h.le_last he) (le_trans hdone hle)
    · rw [List.mem_singleton.1 he]
      exact le_trans hdone hle
  have hkept : account cfg (before ++ [ev]) k = some a := by
    rw [heq]
    refine account_of_banned ha hu fun e he _ => ⟨hlast e ?_, hmid e he⟩
    rw [heq]
    exact List.mem_append_right _ he
  exact (returns_check h0 h hc hkept).1 u hu hle

/-- After a ban the points of an IP count anew. -/
theorem account_after_ban {a : Account ℤ} {u : ℤ} {more : List BanEvent}
    (ha : account cfg before k = some a) (hu : a.bannedUntil = some u)
    (hmore : ∀ e ∈ more ++ [ev], e.Concerns k → u < e.now ∧ ¬ e.Removes k ∧
      ∀ e' ∈ more, e'.Concerns k → e.now ≤ e'.now + cfg.banResetTime)
    (hlow : pointsOf cfg k more < cfg.maxBanScore.toNat)
    (hhigh : cfg.maxBanScore.toNat ≤ pointsOf cfg k (more ++ [ev])) :
    ∃ a', account cfg (before ++ more ++ [ev]) k = some a' ∧
      a'.bannedUntil = some (ev.now + cfg.minReauthTime) := by
  have hev : ev ∈ more ++ [ev] := List.mem_append_right _ (List.mem_singleton_self ev)
  -- the last call is one for the IP, since it adds to its points
  have hk : ev.Concerns k := by
    by_contra hno
    rw [pointsOf, List.filterMap_append, List.filterMap_cons, BanEvent.moveFor, if_neg hno,
      List.filterMap_nil, List.append_nil] at hhigh
    exact absurd hlow (not_lt.2 hhigh)
  obtain ⟨p, hp⟩ : ∃ p, ev.move cfg = .collect p := by
    cases hmove : ev.move cfg with
    | collect p => exact ⟨p, rfl⟩
    | pardon => exact absurd hmove (BanEvent.move_ne_pardon hk (hmore ev hev hk).2.1)
  have hsum : pointsOf cfg k (more ++ [ev]) = pointsOf cfg k more + p := by
    rw [pointsOf, List.filterMap_append, List.filterMap_cons, BanEvent.moveFor, if_pos hk, hp,
      List.map_append, List.sum_append]
    rfl
  have hlast : u < ev.now ∧ ∀ m ∈ more.filterMap (BanEvent.moveFor cfg k),
      ev.now ≤ m.1 + cfg.rules.window := by
    refine ⟨(hmore ev hev hk).1, ?_⟩
    intro m hm
    obtain ⟨e, he, hke, rfl⟩ := mem_moves.1 hm
    exact (hmore ev hev hk).2.2 e he hke
  have hmoves : ∀ m ∈ more.filterMap (BanEvent.moveFor cfg k), u < m.1 ∧ m.2 ≠ .pardon ∧
      ∀ m' ∈ more.filterMap (BanEvent.moveFor cfg k), m.1 ≤ m'.1 + cfg.rules.window := by
    intro m hm
    obtain ⟨e, he, hke, rfl⟩ := mem_moves.1 hm
    obtain ⟨hlt, hno, hwindow⟩ := hmore e (List.mem_append_left _ he) hke
    refine ⟨hlt, BanEvent.move_ne_pardon hke hno, ?_⟩
    intro m' hm'
    obtain ⟨e', he', hke', rfl⟩ := mem_moves.1 hm'
    exact hwindow e' he' hke'
  rw [account_concat_of_concerns hk, account_append, ha, hp]
  exact ⟨_, rfl, Account.collect_after_ban hu hlast hmoves hlow (hsum ▸ hhigh)⟩

/-- **A run whose steps are `Ok` keeps its bans.** -/
theorem banKept (h0 : 0 < cfg.maxBanScore) (h : Sound cfg run) : BanKept cfg run where
  rejected := by
    intro before chk k t hpre hc hreached hle
    obtain ⟨start, hit, mid, heq, rfl, hreach, hmid⟩ := hreached
    obtain ⟨a, ha, hu⟩ := hreach.account
    have heq' : before ++ [chk] = start ++ [hit] ++ mid := by rw [heq]; simp
    exact returns_of_banned h0 (h.of_prefix hpre) hc heq' ha hu hmid hle
  notExtended := by
    intro before ev mid chk k hpre hreach hmid hc hafter hconnect
    obtain ⟨a, hkept, hu⟩ := account_of_reaches hreach hmid
    -- the ban is over, and the points of the connection go to a fresh account
    have hrenew : Account.renew cfg.rules chk.now (some a) = Account.fresh chk.now :=
      Account.renew_of_over ((Account.over_of_banned hu).2 hafter)
    have hmove : chk.move cfg = .collect cfg.banPointsConnect.toNat := by
      obtain ⟨-, ip, stored, later, hcall⟩ := hc
      rw [BanEvent.move, hcall]
    have hlow : ¬ cfg.rules.limit ≤ 0 + cfg.banPointsConnect.toNat := by
      rw [Nat.zero_add]
      exact not_le.2 (UInt32.lt_iff_toNat_lt.1 hconnect)
    have hend : account cfg (before ++ ev :: mid ++ [chk]) k =
        some ⟨cfg.banPointsConnect.toNat, chk.now, none⟩ := by
      rw [account_concat_of_concerns hc.1, hkept, hmove, Account.move, Account.collect, hrenew,
        Account.charge_of_not_banned rfl, Account.fresh, if_neg hlow, Nat.zero_add]
    exact (returns_check h0 (h.of_prefix hpre) hc hend).2 rfl
  reported := by
    intro before add mid chk k hpre hadds hret hmid hc hnow
    have hsound := h.of_prefix hpre
    have heq : before ++ add :: mid ++ [chk] = before ++ [add] ++ (mid ++ [chk]) := by simp
    have hadd : Sound cfg (before ++ [add]) := hsound.of_prefix ⟨_, heq.symm⟩
    -- a report is made only while the account is banned
    obtain ⟨a, u, ha, hu, hle⟩ := returns_add h0 hadd hadds hret
    exact returns_of_banned h0 hsound hc heq ha hu (hc.not_removes_concat hmid)
      (hnow.trans_le hle)
  bannedAgain := by
    intro before ev mid more last rest chk k hpre hreach hmid hmore hlow hhigh hrest hc hle
    obtain ⟨a, hkept, hu⟩ := account_of_reaches hreach hmid
    -- the points after the ban are counted from zero
    obtain ⟨a', ha', hu'⟩ := account_after_ban hkept hu hmore hlow hhigh
    have heq : before ++ ev :: mid ++ more ++ last :: rest ++ [chk] =
        before ++ ev :: mid ++ more ++ [last] ++ (rest ++ [chk]) := by simp
    -- the second ban is enforced like the first
    exact returns_of_banned h0 (h.of_prefix hpre) hc heq ha' hu' (hc.not_removes_concat hrest) hle

end

/-! ### Two runs -/

/-- A ban of 20 seconds; the score is reset after five minutes. -/
def shortBan : BanConfig where
  maxBanScore := 50
  minReauthTime := 20
  banResetTime := 300
  banPointsConnect := 1

/-- `1.1.1.1` -/
def client : Bytes := [49, 46, 49, 46, 49, 46, 49]

/-- A connection, a misbehaving worker and a second connection during the ban. -/
def bannedOnce : List BanEvent :=
  [⟨0, .checkIfBanned client true 0⟩, ⟨10, .addIpToBanList client 49 true⟩,
    ⟨25, .checkIfBanned client true 25⟩]

/-- Points after the end of the ban. -/
def bannedTwice : List BanEvent :=
  [⟨0, .addIpToBanList client 50 true⟩, ⟨21, .addIpToBanList client 50 true⟩,
    ⟨21, .checkIfBanned client true 21⟩]

theorem banKept_bannedOnce : BanKept shortBan bannedOnce := by
  refine banKept (by decide) ⟨⟨by decide, by decide⟩, ?_⟩
  refine ⟨fun _ => by decide, fun _ h => ?_⟩
  cases h
  refine ⟨fun _ => by decide, fun _ h => ?_⟩
  cases h
  exact ⟨fun _ => by decide, fun _ _ => trivial⟩

theorem not_banKept_bannedTwice :
    0 < shortBan.maxBanScore ∧ Clocked bannedTwice ∧ ¬ BanKept shortBan bannedTwice := by
  refine ⟨by decide, ⟨by decide, by decide⟩, ?_⟩
  intro h
  -- the second addition reports a ban, and the check at the same time accepts
  have hret := h.reported [⟨0, .addIpToBanList client 50 true⟩]
    ⟨21, .addIpToBanList client 50 true⟩ [] ⟨21, .checkIfBanned client true 21⟩ client
    (List.prefix_refl _) ⟨by decide, _, _, _, rfl⟩ (by decide) (fun e he => nomatch he)
    ⟨by decide, _, _, _, rfl⟩ rfl
  revert hret
  decide

end Main

end Ocserv
