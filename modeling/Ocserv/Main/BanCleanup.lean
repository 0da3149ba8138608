import Ocserv.Inserted
import Ocserv.Main.BanRuns
import Mathlib

/-!
# The cleanup of the ban list

`cleanup_banned_entries` removes an entry when its ban has ended and the time its score adds up
is over.  The run that kept the entry then resets it at the next addition, to what a new entry
would be: whether the cleanup was there cannot be told from what `add_ip_to_ban_list` and
`check_if_banned` return (`returns_inserted`), as long as the new entry can be allocated.
Where it cannot, an addition is lost that the kept entry would have taken
(`not_returns_inserted_noMemory`).

`remove_ip_from_ban_list` tells whether there is an entry, and may answer differently.
-/

namespace Ocserv

namespace Main

open SecMod (Bytes strlcpy maxIpStr)

/-- The entry has no ban, or its ban is over. -/
def BanEntry.BanOver (e : BanEntry) (now : ℤ) : Prop := e.expires = 0 ∨ e.expires ≤ now

namespace BanEvent

/-- A call of the cleanup. -/
def IsCleanup (ev : BanEvent) : Prop := ev.call = .cleanupBannedEntries

/-- A call of `add_ip_to_ban_list` or `check_if_banned`. -/
def Asks (ev : BanEvent) : Prop :=
  match ev.call with
  | .addIpToBanList .. | .checkIfBanned .. => True
  | .removeIpFromBanList _ | .cleanupBannedEntries => False

/-- If the list has an entry for the IP that a cleanup may have removed, as its ban and the time
its score adds up are over, another one can be allocated. -/
def CanAllocate (cfg : BanConfig) (db : BanDb) (ev : BanEvent) : Prop :=
  match ev.call with
  | .addIpToBanList ip _ stored | .checkIfBanned ip stored _ =>
    ∀ e ∈ db (strlcpy maxIpStr ip), e.BanOver ev.now →
      e.lastReset + cfg.banResetTime < ev.now → stored = true
  | .removeIpFromBanList _ | .cleanupBannedEntries => True

end BanEvent

/-- The list `t` is the list `s`, less entries whose ban is over and whose score is to be reset. -/
structure Behind (cfg : BanConfig) (clock : ℤ) (s t : BanDb) : Prop where
  entry : ∀ k, t k = s k ∨
    t k = none ∧ ∃ e, s k = some e ∧ e.BanOver clock ∧ e.lastReset + cfg.banResetTime < clock
  /-- No entry is ever added for an empty text. -/
  nil : s [] = none

section

variable {cfg : BanConfig} {clock now later : ℤ} {s t : BanDb} {ip k : Bytes} {score : UInt32}
  {stored : Bool} {ev : BanEvent}

theorem Behind.mono (h : Behind cfg clock s t) (hle : clock ≤ now) : Behind cfg now s t := by
  refine ⟨?_, h.nil⟩
  intro k
  rcases h.entry k with heq | ⟨hnone, e, hsome, hover, hlt⟩
  · exact .inl heq
  · exact .inr ⟨hnone, e, hsome, hover.imp_right (·.trans hle), lt_of_lt_of_le hlt hle⟩

/-- The lists stay together if the same entry is written to both. -/
theorem Behind.update (h : Behind cfg clock s t) (hk : k ≠ []) (e? : Option BanEntry) :
    Behind cfg clock (Function.update s k e?) (Function.update t k e?) := by
  refine ⟨fun k' => ?_, ?_⟩
  · by_cases hk' : k' = k
    · subst hk'
      rw [Function.update_self, Function.update_self]
      exact .inl rfl
    · rw [Function.update_of_ne hk', Function.update_of_ne hk']
      exact h.entry k'
  · rw [Function.update_of_ne hk.symm]
    exact h.nil

theorem strlcpy_maxIpStr_ne_nil (hip : ip ≠ []) : strlcpy maxIpStr ip ≠ [] := by
  cases ip with
  | nil => exact absurd rfl hip
  | cons b bs => exact List.cons_ne_nil b _

/-! ### The calls on both lists -/

/-- **An entry that is reset and a new one are the same** once points are added. -/
theorem addScore_reset (h0 : 0 < cfg.maxBanScore) {e : BanEntry}
    (hlt : e.lastReset + cfg.banResetTime < now) :
    (e.reset cfg now).addScore cfg now score =
      BanEntry.addScore cfg now score { score := 0, lastReset := now, expires := 0 } := by
  rw [BanEntry.reset, if_pos hlt, BanEntry.addScore, BanEntry.addScore]
  dsimp only
  rw [if_pos h0, if_pos h0]

theorem map_addScore_openEntry (score : UInt32) (h0 : 0 < cfg.maxBanScore) (h : Behind cfg now s t)
    (hmem : ∀ e ∈ s k, e.BanOver now → e.lastReset + cfg.banResetTime < now → stored = true) :
    (openEntry cfg now stored (t k)).map (BanEntry.addScore cfg now score) =
      (openEntry cfg now stored (s k)).map (BanEntry.addScore cfg now score) := by
  rcases h.entry k with heq | ⟨hnone, e, hsome, hover, hlt⟩
  · rw [heq]
  · obtain rfl := hmem e hsome hover hlt
    rw [hnone, hsome, openEntry, openEntry, if_pos rfl, Option.map_some, Option.map_some,
      addScore_reset h0 hlt]

/-- `add_ip_to_ban_list` in terms of the entry it leaves. -/
theorem addIpToBanList_eq (h0 : cfg.maxBanScore ≠ 0) (hip : ip ≠ []) (db : BanDb) :
    addIpToBanList cfg db now ip score stored =
      match (openEntry cfg now stored (db (strlcpy maxIpStr ip))).map
        (BanEntry.addScore cfg now score) with
      | none => (db, 0)
      | some e => (Function.update db (strlcpy maxIpStr ip) (some e),
          if 0 < cfg.maxBanScore ∧ cfg.maxBanScore ≤ e.score then -1 else 0) := by
  have hne : ¬ (cfg.maxBanScore = 0 ∨ ip = []) := fun h => h.elim h0 hip
  rw [addIpToBanList, if_neg hne]
  cases openEntry cfg now stored (db (strlcpy maxIpStr ip)) with
  | none => rfl
  | some e => rfl

/-- An addition answers the same in both lists and leaves the same entry. -/
theorem addIpToBanList_behind (score : UInt32) (h0 : 0 < cfg.maxBanScore) (h : Behind cfg now s t)
    (hmem : ∀ e ∈ s (strlcpy maxIpStr ip),
      e.BanOver now → e.lastReset + cfg.banResetTime < now → stored = true) :
    (addIpToBanList cfg t now ip score stored).2 = (addIpToBanList cfg s now ip score stored).2 ∧
      Behind cfg now (addIpToBanList cfg s now ip score stored).1
        (addIpToBanList cfg t now ip score stored).1 ∧
      (addIpToBanList cfg t now ip score stored).1 (strlcpy maxIpStr ip) =
        (addIpToBanList cfg s now ip score stored).1 (strlcpy maxIpStr ip) := by
  have hne : cfg.maxBanScore ≠ 0 := fun hz => UInt32.lt_irrefl 0 (hz ▸ h0)
  by_cases hip : ip = []
  · subst hip
    have hnil : ∀ db : BanDb, addIpToBanList cfg db now [] score stored = (db, 0) := fun db => by
      rw [addIpToBanList, if_pos (.inr rfl)]
    rw [hnil, hnil]
    refine ⟨rfl, h, ?_⟩
    rcases h.entry [] with heq | ⟨-, e, hsome, -⟩
    · exact heq
    · rw [h.nil] at hsome
      cases hsome
  · have hmap := map_addScore_openEntry score h0 h hmem
    rw [addIpToBanList_eq hne hip, addIpToBanList_eq hne hip, hmap]
    cases hopen : (openEntry cfg now stored (s (strlcpy maxIpStr ip))).map
        (BanEntry.addScore cfg now score) with
    | none =>
      -- no entry in the one list, and so none in the other
      refine ⟨rfl, h, ?_⟩
      rcases h.entry (strlcpy maxIpStr ip) with heq | ⟨-, e, hsome, -⟩
      · exact heq
      · rw [hsome, openEntry] at hopen
        cases hopen
    | some e =>
      refine ⟨rfl, h.update (strlcpy_maxIpStr_ne_nil hip) _, ?_⟩
      dsimp only
      rw [Function.update_self, Function.update_self]

theorem checkIfBanned_behind (later : ℤ) (h0 : 0 < cfg.maxBanScore) (h : Behind cfg now s t)
    (hmem : ∀ e ∈ s (strlcpy maxIpStr ip),
      e.BanOver now → e.lastReset + cfg.banResetTime < now → stored = true) :
    (checkIfBanned cfg t now later ip stored).2 = (checkIfBanned cfg s now later ip stored).2 ∧
      Behind cfg now (checkIfBanned cfg s now later ip stored).1
        (checkIfBanned cfg t now later ip stored).1 := by
  have hne : cfg.maxBanScore ≠ 0 := fun hz => UInt32.lt_irrefl 0 (hz ▸ h0)
  obtain ⟨-, hdb, hentry⟩ := addIpToBanList_behind cfg.banPointsConnect h0 h hmem
  rw [checkIfBanned_fst hne, checkIfBanned_fst hne]
  refine ⟨?_, hdb⟩
  rw [checkIfBanned, checkIfBanned, if_neg hne, if_neg hne]
  dsimp only
  rw [hentry]
  split
  · rfl
  · split
    · rfl
    · split <;> rfl

theorem removeIpFromBanList_behind (h : Behind cfg now s t) :
    Behind cfg now (removeIpFromBanList s ip).1 (removeIpFromBanList t ip).1 := by
  by_cases hip : ip = []
  · rw [removeIpFromBanList, removeIpFromBanList, if_pos hip, if_pos hip]
    exact h
  · rw [removeIpFromBanList, removeIpFromBanList, if_neg hip, if_neg hip]
    have hk := strlcpy_maxIpStr_ne_nil hip
    rcases h.entry (strlcpy maxIpStr ip) with heq | ⟨hnone, e, hsome, hover, hlt⟩
    · rw [heq]
      split
      · exact h
      · exact h.update hk _
    · rw [hnone, hsome]
      -- the kept entry is changed, but not the time of its reset
      refine ⟨fun k => ?_, ?_⟩
      · dsimp only
        by_cases hk' : k = strlcpy maxIpStr ip
        · rw [hk', Function.update_self]
          exact .inr ⟨hnone, _, rfl, .inl rfl, hlt⟩
        · rw [Function.update_of_ne hk']
          exact h.entry k
      · dsimp only
        rw [Function.update_of_ne hk.symm]
        exact h.nil

theorem cleanupBannedEntries_behind (h : Behind cfg now s t) :
    Behind cfg now (cleanupBannedEntries cfg s now) (cleanupBannedEntries cfg t now) := by
  refine ⟨?_, by rw [cleanupBannedEntries, h.nil]⟩
  intro k
  rcases h.entry k with heq | ⟨hnone, e, hsome, hover, hlt⟩
  · rw [cleanupBannedEntries, cleanupBannedEntries, heq]
    exact .inl rfl
  · rw [cleanupBannedEntries, cleanupBannedEntries, hnone, hsome]
    dsimp only
    split
    · exact .inl rfl
    · exact .inr ⟨rfl, e, rfl, hover, hlt⟩

/-- **A cleanup of one list** takes away only entries whose score is to be reset. -/
theorem cleanupBannedEntries_behind_right (h : Behind cfg now s t) :
    Behind cfg now s (cleanupBannedEntries cfg t now) := by
  refine ⟨?_, h.nil⟩
  intro k
  rcases h.entry k with heq | ⟨hnone, hgone⟩
  · rw [cleanupBannedEntries, heq]
    cases hsome : s k with
    | none => exact .inl rfl
    | some e =>
      dsimp only
      split
      · rename_i hold
        exact .inr ⟨rfl, e, rfl, .inr hold.1, hold.2⟩
      · exact .inl rfl
  · rw [cleanupBannedEntries, hnone]
    exact .inr ⟨rfl, hgone⟩

/-! ### Runs -/

/-- A call in both runs answers the same, if it is one that asks, and keeps the lists together. -/
theorem step_behind (h0 : 0 < cfg.maxBanScore) (h : Behind cfg ev.now s t)
    (hmem : ev.CanAllocate cfg s) :
    (ev.Asks → (ev.step cfg t).2 = (ev.step cfg s).2) ∧
      Behind cfg ev.now (ev.step cfg s).1 (ev.step cfg t).1 := by
  obtain ⟨now, call⟩ := ev
  cases call with
  | addIpToBanList ip score stored =>
    obtain ⟨hret, hdb, -⟩ := addIpToBanList_behind score h0 h hmem
    exact ⟨fun _ => hret, hdb⟩
  | checkIfBanned ip stored later =>
    obtain ⟨hret, hdb⟩ := checkIfBanned_behind later h0 h hmem
    exact ⟨fun _ => hret, hdb⟩
  | removeIpFromBanList ip => exact ⟨fun hno => hno.elim, removeIpFromBanList_behind h⟩
  | cleanupBannedEntries => exact ⟨fun hno => hno.elim, cleanupBannedEntries_behind h⟩

/-- The run with more cleanups stays behind. -/
theorem banList_invisible (h0 : 0 < cfg.maxBanScore) :
    (banList cfg).Invisible BanEvent.now BanEvent.done BanEvent.IsCleanup
      (fun db ev => ev.CanAllocate cfg db) (fun _ => True) (Behind cfg) where
  alive _ _ := trivial
  mono h hle := h.mono hle
  keep := by
    intro ev s t s' h hle hmem hstep
    cases hstep
    exact ⟨_, rfl, (step_behind h0 h hmem).2.mono hle⟩
  insert := by
    intro ev s t hcleanup _ h hle
    obtain ⟨now, call⟩ := ev
    obtain rfl : call = .cleanupBannedEntries := hcleanup
    exact ⟨_, rfl, (cleanupBannedEntries_behind_right h).mono hle⟩

theorem Clocked.machine {run : List BanEvent} (h : Clocked run) :
    Machine.Clocked BanEvent.now BanEvent.done run :=
  ⟨h.1, h.2⟩

/-- **The cleanup is invisible.**  Calls of `cleanup_banned_entries` inserted anywhere into a run
change no later answer of `add_ip_to_ban_list` or `check_if_banned`, as long as entries can be
allocated where a cleanup may have removed them. -/
theorem returns_inserted (h0 : 0 < cfg.maxBanScore) {is js : List BanEvent}
    (hins : Inserted BanEvent.IsCleanup is js) (hclock : Clocked (js ++ [ev])) (hasks : ev.Asks)
    (hmem : (banList cfg).Meets (fun db ev => ev.CanAllocate cfg db) emptyBanDb (is ++ [ev])) :
    returns cfg js ev = returns cfg is ev := by
  have hlast : ∀ j ∈ js, j.done ≤ ev.now := fun j hj =>
    (List.pairwise_append.1 hclock.1).2.2 j hj ev (List.mem_singleton_self ev)
  obtain ⟨t, ht, hbehind⟩ := (banList_invisible h0).run_self hins hclock.machine.of_append
    (fun c => ⟨fun _ => .inl rfl, rfl⟩) hmem.left_of_append (run_banList emptyBanDb is)
    trivial
  rw [run_banList] at ht
  obtain rfl := Option.some.inj ht
  have hend := hbehind ev.now hlast
  have hmemLast := (hmem.right_of_append (run_banList emptyBanDb is)).1
  exact (step_behind h0 hend hmemLast).1 hasks

end

/-- Points that are cleaned up, and a check after that. -/
theorem returns_inserted_oneCleanup :
    returns shortBan [⟨0, .addIpToBanList client 49 true⟩, ⟨301, .cleanupBannedEntries⟩]
        ⟨301, .checkIfBanned client true 301⟩ =
      returns shortBan [⟨0, .addIpToBanList client 49 true⟩]
        ⟨301, .checkIfBanned client true 301⟩ := by
  refine returns_inserted (by decide) (.keep (.insert rfl .nil)) ⟨by decide, by decide⟩ trivial ?_
  refine ⟨fun _ _ _ _ => rfl, fun _ h => ?_⟩
  cases h
  exact ⟨fun _ _ _ _ => rfl, fun _ _ => trivial⟩

/-- After the cleanup there is no memory for a new entry: the points that ban the IP where its
entry was kept are lost. -/
theorem not_returns_inserted_noMemory :
    0 < shortBan.maxBanScore ∧
      Inserted BanEvent.IsCleanup [⟨0, .addIpToBanList client 1 true⟩]
        [⟨0, .addIpToBanList client 1 true⟩, ⟨301, .cleanupBannedEntries⟩] ∧
      Clocked [⟨0, .addIpToBanList client 1 true⟩, ⟨301, .cleanupBannedEntries⟩,
        ⟨301, .addIpToBanList client 50 false⟩] ∧
      returns shortBan [⟨0, .addIpToBanList client 1 true⟩]
        ⟨301, .addIpToBanList client 50 false⟩ = -1 ∧
      returns shortBan [⟨0, .addIpToBanList client 1 true⟩, ⟨301, .cleanupBannedEntries⟩]
        ⟨301, .addIpToBanList client 50 false⟩ = 0 :=
  ⟨by decide, .keep (.insert rfl .nil), ⟨by decide, by decide⟩, by decide, by decide⟩

end Main

end Ocserv
