import Ocserv.Account
import Ocserv.Machine
import Ocserv.SecMod.Entry
import Mathlib.Algebra.Order.Group.Int
import Mathlib.Logic.Function.Basic

/-!
# Main: the ban list

The ban list of `src/main-ban.c`.  An entry holds the score of an IP, the time its counting
started and the time its ban ends; `add_ip_to_ban_list` and `check_if_banned` add to the score,
`remove_ip_from_ban_list` and `cleanup_banned_entries` take entries away.

The hash table has at most one entry for an IP, since one is added only where none is found; it
is the function from the IP (cut to `MAX_IP_STR`) to its entry.

What an entry stands for is an `Account` of penalty points (`Tracks`): the limit is
`max_ban_score`, a ban lasts `min_reauth_time`, points add up for `ban_reset_time`.  The
operations keep this, and so answer as the account does, where the two periods do not get into
each other's way (`AddOk`, `CleanupOk`).

## Main results

* `tracks_addIpToBanList` : adding points keeps the entry and the account together.
* `tracks_cleanup` : so does the cleanup.
-/

namespace Ocserv

namespace Main

open SecMod (Bytes strlcpy maxIpStr)

/-- The options that the ban list reads.  `max_ban_score` is an `int` that is compared as an
`unsigned`; it is not negative here. -/
structure BanConfig where
  maxBanScore : UInt32
  minReauthTime : ℤ
  banResetTime : ℤ
  banPointsConnect : UInt32

/-- `ban_entry_st`, of an IP. -/
structure BanEntry where
  score : UInt32
  /-- The time its score counting started. -/
  lastReset : ℤ
  /-- The time after the client is allowed to login. -/
  expires : ℤ
  deriving DecidableEq, Repr

/-- `ban_db`. -/
abbrev BanDb := Bytes → Option BanEntry

namespace BanEntry

/-- The score is reset when its time is over. -/
def reset (cfg : BanConfig) (now : ℤ) (e : BanEntry) : BanEntry :=
  if e.lastReset + cfg.banResetTime < now then { e with score := 0, lastReset := now } else e

/-- Add to the score; the attempts of a banned user do not move the end of the ban. -/
def addScore (cfg : BanConfig) (now : ℤ) (score : UInt32) (e : BanEntry) : BanEntry :=
  let e := if e.score < cfg.maxBanScore then { e with expires := now + cfg.minReauthTime } else e
  { e with score := e.score + score }

end BanEntry

/-- The entry of an IP, or a new one; `stored` tells whether it can be allocated and added. -/
def openEntry (cfg : BanConfig) (now : ℤ) (stored : Bool) : Option BanEntry → Option BanEntry
  | none => if stored then some { score := 0, lastReset := now, expires := 0 } else none
  | some e => some (e.reset cfg now)

/-- `add_ip_to_ban_list`. -/
def addIpToBanList (cfg : BanConfig) (db : BanDb) (now : ℤ) (ip : Bytes) (score : UInt32)
    (stored : Bool) : BanDb × ℤ :=
  if cfg.maxBanScore = 0 ∨ ip = [] then (db, 0)
  else
    match openEntry cfg now stored (db (strlcpy maxIpStr ip)) with
    | none => (db, 0)
    | some e =>
      let e := e.addScore cfg now score
      (Function.update db (strlcpy maxIpStr ip) (some e),
        if 0 < cfg.maxBanScore ∧ cfg.maxBanScore ≤ e.score then -1 else 0)

/-- `remove_ip_from_ban_list`. -/
def removeIpFromBanList (db : BanDb) (ip : Bytes) : BanDb × ℤ :=
  if ip = [] then (db, 0)
  else
    match db (strlcpy maxIpStr ip) with
    | none => (db, 0)
    | some e =>
      (Function.update db (strlcpy maxIpStr ip) (some { e with score := 0, expires := 0 }), 1)

/-- `check_if_banned` of an address whose text is `ip`.  The clock is read again after the points
for the connection are added; it shows `later` then. -/
def checkIfBanned (cfg : BanConfig) (db : BanDb) (now later : ℤ) (ip : Bytes) (stored : Bool) :
    BanDb × ℤ :=
  if cfg.maxBanScore = 0 then (db, 0)
  else
    let db := (addIpToBanList cfg db now ip cfg.banPointsConnect stored).1
    match db (strlcpy maxIpStr ip) with
    | none => (db, 0)
    | some e =>
      if e.expires < later then (db, 0)
      else if cfg.maxBanScore ≤ e.score then (db, 1)
      else (db, 0)

/-- `cleanup_banned_entries`. -/
def cleanupBannedEntries (cfg : BanConfig) (db : BanDb) (now : ℤ) : BanDb := fun ip =>
  match db ip with
  | none => none
  | some e => if e.expires ≤ now ∧ e.lastReset + cfg.banResetTime < now then none else some e

/-! ### Entries and accounts -/

/-- The rules the options stand for. -/
def BanConfig.rules (cfg : BanConfig) : BanRules ℤ :=
  ⟨cfg.maxBanScore.toNat, cfg.minReauthTime, cfg.banResetTime⟩

/-- The account that an entry stands for at a time.  Once an entry is gone, there is neither a
ban nor a window any more. -/
def Tracks (cfg : BanConfig) (clock : ℤ) : Option BanEntry → Option (Account ℤ) → Prop
  | none, none => True
  | none, some a =>
    a.since + cfg.banResetTime < clock ∧ ∀ u, a.bannedUntil = some u → u < clock
  | some _, none => False
  | some e, some a =>
    a.since = e.lastReset ∧
      if e.score < cfg.maxBanScore then a.points = e.score.toNat ∧ a.bannedUntil = none
      else a.bannedUntil = some e.expires

/-- The two periods of an entry agree at a time: the score of a banned IP is reset when its ban
has ended, and not before. -/
def PeriodsAgree (cfg : BanConfig) (now : ℤ) (e : BanEntry) : Prop :=
  cfg.maxBanScore ≤ e.score → (e.lastReset + cfg.banResetTime < now ↔ e.expires < now)

/-- The score that reaches the maximum does not overflow, and a ban that starts has not ended. -/
def ScoreFits (cfg : BanConfig) (score : UInt32) (e : BanEntry) : Prop :=
  cfg.maxBanScore.toNat ≤ e.score.toNat + score.toNat →
    cfg.maxBanScore ≤ e.score + score ∧ (e.score < cfg.maxBanScore → 0 ≤ cfg.minReauthTime)

/-- The condition for adding points to an IP. -/
def AddOk (cfg : BanConfig) (now : ℤ) (score : UInt32) (stored : Bool) (e : Option BanEntry) :
    Prop :=
  (∀ e' ∈ e, PeriodsAgree cfg now e') ∧
    ∃ e' ∈ openEntry cfg now stored e, ScoreFits cfg score e'

/-- The condition for the cleanup: it does not meet a ban in its last second. -/
def CleanupOk (cfg : BanConfig) (now : ℤ) (e : BanEntry) : Prop :=
  cfg.maxBanScore ≤ e.score → e.expires = now → now ≤ e.lastReset + cfg.banResetTime

instance (cfg : BanConfig) (now : ℤ) (e : BanEntry) : Decidable (PeriodsAgree cfg now e) :=
  inferInstanceAs (Decidable (_ → _))

instance (cfg : BanConfig) (score : UInt32) (e : BanEntry) : Decidable (ScoreFits cfg score e) :=
  inferInstanceAs (Decidable (_ → _))

instance (cfg : BanConfig) (now : ℤ) (score : UInt32) (stored : Bool) (e : Option BanEntry) :
    Decidable (AddOk cfg now score stored e) :=
  inferInstanceAs (Decidable (_ ∧ _))

section

variable {cfg : BanConfig} {clock now : ℤ} {e : BanEntry} {a : Account ℤ}
  {e? : Option BanEntry} {a? : Option (Account ℤ)} {score : UInt32} {stored : Bool}

theorem tracks_some_iff : Tracks cfg clock (some e) (some a) ↔ a.since = e.lastReset ∧
    if e.score < cfg.maxBanScore then a.points = e.score.toNat ∧ a.bannedUntil = none
    else a.bannedUntil = some e.expires := Iff.rfl

theorem Tracks.mono (h : Tracks cfg clock e? a?) (hle : clock ≤ now) : Tracks cfg now e? a? := by
  match e?, a?, h with
  | none, none, _ => exact trivial
  | none, some a, h => exact ⟨lt_of_lt_of_le h.1 hle, fun u hu => lt_of_lt_of_le (h.2 u hu) hle⟩
  | some e, some a, h => exact h

/-- The account is over when the score is reset. -/
theorem tracks_reset (h : Tracks cfg clock (some e) (some a)) (hagree : PeriodsAgree cfg now e) :
    a.Over cfg.rules now ↔ e.lastReset + cfg.banResetTime < now := by
  obtain ⟨hsince, hif⟩ := h
  by_cases hlow : e.score < cfg.maxBanScore
  · rw [if_pos hlow] at hif
    rw [Account.over_of_not_banned hif.2, hsince]
    rfl
  · rw [if_neg hlow] at hif
    rw [Account.over_of_banned hif, hagree (UInt32.not_lt.1 hlow)]

/-- The entry that points are added to stands for the renewed account. -/
theorem tracks_openEntry (h0 : 0 < cfg.maxBanScore) (h : Tracks cfg clock e? a?)
    (hle : clock ≤ now) (hagree : ∀ e' ∈ e?, PeriodsAgree cfg now e')
    (hopen : openEntry cfg now stored e? = some e) :
    Tracks cfg now (some e) (some (Account.renew cfg.rules now a?)) := by
  have hfresh : ∀ expires,
      Tracks cfg now (some ⟨0, now, expires⟩) (some (Account.fresh now)) := by
    intro expires
    refine ⟨rfl, ?_⟩
    rw [if_pos h0]
    exact ⟨rfl, rfl⟩
  match e?, a?, h with
  | none, none, _ =>
    cases stored with
    | false => cases hopen
    | true =>
      cases hopen
      exact hfresh 0
  | none, some a, h =>
    -- the entry was cleaned up, and the account is over
    have hover : a.Over cfg.rules now := by
      cases hban : a.bannedUntil with
      | none => exact (Account.over_of_not_banned hban).2 (lt_of_lt_of_le h.1 hle)
      | some u => exact (Account.over_of_banned hban).2 (lt_of_lt_of_le (h.2 u hban) hle)
    rw [Account.renew_of_over hover]
    cases stored with
    | false => cases hopen
    | true =>
      cases hopen
      exact hfresh 0
  | some e₀, some a, h =>
    have hreset := tracks_reset h (hagree e₀ rfl)
    obtain rfl : e₀.reset cfg now = e := Option.some.inj hopen
    unfold BanEntry.reset
    by_cases ho : a.Over cfg.rules now
    · rw [Account.renew_of_over ho, if_pos (hreset.1 ho)]
      exact hfresh _
    · rw [Account.renew_of_not_over ho, if_neg fun hlt => ho (hreset.2 hlt)]
      exact h

/-- Adding to the score charges the account. -/
theorem tracks_addScore (h : Tracks cfg now (some e) (some a)) (hfits : ScoreFits cfg score e) :
    Tracks cfg now (some (e.addScore cfg now score))
      (some (a.charge cfg.rules now score.toNat)) := by
  obtain ⟨hsince, hif⟩ := h
  by_cases hlow : e.score < cfg.maxBanScore
  · rw [if_pos hlow] at hif
    rw [Account.charge_of_not_banned hif.2, BanEntry.addScore, if_pos hlow, tracks_some_iff,
      hif.1]
    refine ⟨hsince, ?_⟩
    by_cases hreach : cfg.maxBanScore.toNat ≤ e.score.toNat + score.toNat
    · rw [if_neg (UInt32.not_lt.2 (hfits hreach).1)]
      exact if_pos hreach
    · have hsum : (e.score + score).toNat = e.score.toNat + score.toNat := by
        rw [UInt32.toNat_add]
        have := cfg.maxBanScore.toNat_lt
        exact Nat.mod_eq_of_lt (by omega)
      rw [if_pos (UInt32.lt_iff_toNat_lt.2 (by dsimp only; omega))]
      exact ⟨hsum.symm, if_neg hreach⟩
  · rw [if_neg hlow] at hif
    rw [Account.charge_of_banned hif, BanEntry.addScore, if_neg hlow, tracks_some_iff]
    refine ⟨hsince, ?_⟩
    have hreach : cfg.maxBanScore ≤ e.score + score := by
      refine (hfits ?_).1
      have := UInt32.le_iff_toNat_le.1 (UInt32.not_lt.1 hlow)
      omega
    rw [if_neg (UInt32.not_lt.2 hreach)]
    exact hif

/-- A ban that is in force after adding points has not ended. -/
theorem le_bannedUntil_collect {u : ℤ}
    (h : Tracks cfg now (some e) (some (Account.renew cfg.rules now a?)))
    (hfits : ScoreFits cfg score e)
    (hu : (Account.collect cfg.rules now score.toNat a?).bannedUntil = some u) : now ≤ u := by
  rcases Account.bannedUntil_collect hu with hle | ⟨hnone, hreach, rfl⟩
  · exact hle
  · obtain ⟨-, hif⟩ := h
    by_cases hlow : e.score < cfg.maxBanScore
    · rw [if_pos hlow] at hif
      rw [hif.1] at hreach
      have hperiod := (hfits hreach).2 hlow
      exact le_add_of_nonneg_right hperiod
    · rw [if_neg hlow, hnone] at hif
      cases hif

end

/-! ### The operations -/

section

variable {cfg : BanConfig} {clock now later : ℤ} {db : BanDb} {ip k : Bytes}
  {a? : Option (Account ℤ)} {score : UInt32} {stored : Bool}

/-- **Adding points** keeps the entry and the account together, and reports whether the entry has
the score of a banned IP. -/
theorem tracks_addIpToBanList (h0 : 0 < cfg.maxBanScore) (hip : ip ≠ [])
    (hk : strlcpy maxIpStr ip = k) (h : Tracks cfg clock (db k) a?) (hle : clock ≤ now)
    (hok : AddOk cfg now score stored (db k)) :
    ∃ e, (addIpToBanList cfg db now ip score stored).1 k = some e ∧
      ((addIpToBanList cfg db now ip score stored).2 = -1 ↔ cfg.maxBanScore ≤ e.score) ∧
      Tracks cfg now (some e) (some (Account.collect cfg.rules now score.toNat a?)) ∧
      ∀ u, (Account.collect cfg.rules now score.toNat a?).bannedUntil = some u → now ≤ u := by
  obtain ⟨hagree, e, hopen, hfits⟩ := hok
  have hne : ¬ (cfg.maxBanScore = 0 ∨ ip = []) := by
    rintro (hz | hnil)
    · exact absurd (hz ▸ h0) (UInt32.lt_irrefl 0)
    · exact hip hnil
  subst hk
  unfold addIpToBanList
  rw [if_neg hne, Option.mem_def.1 hopen]
  have htracks := tracks_openEntry h0 h hle hagree hopen
  refine ⟨e.addScore cfg now score, Function.update_self .., ?_, tracks_addScore htracks hfits,
    fun u hu => le_bannedUntil_collect htracks hfits hu⟩
  dsimp only
  constructor
  · intro hret
    by_contra hlow
    rw [if_neg fun hboth => hlow hboth.2] at hret
    exact absurd hret (by decide)
  · exact fun hreach => if_pos ⟨h0, hreach⟩

theorem addIpToBanList_of_ne (hk : strlcpy maxIpStr ip ≠ k) :
    (addIpToBanList cfg db now ip score stored).1 k = db k := by
  unfold addIpToBanList
  split
  · rfl
  · split
    · rfl
    · exact Function.update_of_ne (Ne.symm hk) _ _

theorem addIpToBanList_nil : (addIpToBanList cfg db now [] score stored).1 = db := by
  rw [addIpToBanList, if_pos (.inr rfl)]

/-- A check leaves the table as its points do. -/
theorem checkIfBanned_fst (h0 : cfg.maxBanScore ≠ 0) :
    (checkIfBanned cfg db now later ip stored).1 =
      (addIpToBanList cfg db now ip cfg.banPointsConnect stored).1 := by
  unfold checkIfBanned
  rw [if_neg h0]
  dsimp only
  split
  · rfl
  · split
    · rfl
    · split <;> rfl

/-- A check rejects an entry with the score of a banned IP until it expires. -/
theorem checkIfBanned_snd {e : BanEntry} (h0 : cfg.maxBanScore ≠ 0)
    (h : (addIpToBanList cfg db now ip cfg.banPointsConnect stored).1 (strlcpy maxIpStr ip) =
      some e) :
    (checkIfBanned cfg db now later ip stored).2 =
      if later ≤ e.expires ∧ cfg.maxBanScore ≤ e.score then 1 else 0 := by
  unfold checkIfBanned
  rw [if_neg h0]
  dsimp only
  rw [h]
  dsimp only
  by_cases hexp : e.expires < later
  · rw [if_pos hexp, if_neg fun hboth => not_lt.2 hboth.1 hexp]
  · rw [if_neg hexp]
    by_cases hscore : cfg.maxBanScore ≤ e.score
    · rw [if_pos hscore, if_pos ⟨not_lt.1 hexp, hscore⟩]
    · rw [if_neg hscore, if_neg fun hboth => hscore hboth.2]

theorem tracks_removeIpFromBanList (h0 : 0 < cfg.maxBanScore) (hip : ip ≠ [])
    (hk : strlcpy maxIpStr ip = k) (h : Tracks cfg clock (db k) a?) :
    Tracks cfg clock ((removeIpFromBanList db ip).1 k) (a?.map Account.pardon) := by
  subst hk
  unfold removeIpFromBanList
  rw [if_neg hip]
  split
  · rename_i hnone
    dsimp only
    rw [hnone] at h ⊢
    match a?, h with
    | none, _ => exact trivial
    | some a, h => exact ⟨h.1, fun u hu => nomatch hu⟩
  · rename_i e hsome
    rw [hsome] at h
    dsimp only
    rw [Function.update_self]
    match a?, h with
    | some a, h =>
      refine ⟨h.1, ?_⟩
      rw [if_pos h0]
      exact ⟨rfl, rfl⟩

theorem removeIpFromBanList_of_ne (hk : strlcpy maxIpStr ip ≠ k) :
    (removeIpFromBanList db ip).1 k = db k := by
  unfold removeIpFromBanList
  split
  · rfl
  · split
    · rfl
    · exact Function.update_of_ne (Ne.symm hk) _ _

/-- **The cleanup** removes only entries of accounts that are over. -/
theorem tracks_cleanup (h : Tracks cfg clock (db k) a?) (hle : clock ≤ now)
    (hok : ∀ e ∈ db k, CleanupOk cfg now e) :
    Tracks cfg now (cleanupBannedEntries cfg db now k) a? := by
  unfold cleanupBannedEntries
  split
  · rename_i hnone
    exact (hnone ▸ h).mono hle
  · rename_i e hsome
    rw [hsome] at h
    split
    · rename_i hgone
      match a?, h with
      | some a, h =>
        obtain ⟨hsince, hif⟩ := h
        refine ⟨hsince ▸ hgone.2, ?_⟩
        intro u hu
        by_cases hlow : e.score < cfg.maxBanScore
        · rw [if_pos hlow, hu] at hif
          cases hif.2
        · rw [if_neg hlow, hu] at hif
          obtain rfl := Option.some.inj hif
          -- a ban in its last second is not cleaned up
          refine lt_of_le_of_ne hgone.1 fun hexp => not_le.2 hgone.2 ?_
          exact hok e hsome (UInt32.not_lt.1 hlow) hexp
    · exact h.mono hle

end

end Main

end Ocserv
