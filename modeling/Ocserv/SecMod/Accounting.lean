import Ocserv.SecMod.RefCount

/-!
# Sec-mod: accounting the traffic of the sessions

The sessions of an entry report their byte counters with `CLI_STATS`, and their final ones with
`SESSION_CLOSE`.  Both carry the SID only, and sec-mod keeps one record, `stats`, the maximum of
what it was told since the last `SESSION_CLOSE`; at a `SESSION_CLOSE` it is added to `saved_stats`.

* `accounting` : where no session has reported more than what the session being closed reports at
  its end, `saved_stats` is the sum of the final counters of the closed sessions, and the totals
  given to the accounting module never decrease.
* `accounting_overlap` : two sessions whose traffic is counted almost twice.
-/

namespace Ocserv

namespace SecMod

/-- The two byte counters. -/
inductive Direction where
  | bytesIn
  | bytesOut
  deriving DecidableEq, Repr

def Stats.bytes (s : Stats) : Direction → UInt64
  | .bytesIn => s.bytesIn
  | .bytesOut => s.bytesOut

def SessionMsg.bytes (m : SessionMsg) : Direction → Option UInt64
  | .bytesIn => m.bytesIn
  | .bytesOut => m.bytesOut

def CliStatsMsg.bytes (m : CliStatsMsg) : Direction → UInt64
  | .bytesIn => m.bytesIn
  | .bytesOut => m.bytesOut

/-- The final counter of a session. -/
def SessionMsg.final (m : SessionMsg) (d : Direction) : UInt64 := (m.bytes d).getD 0

/-- The final counter with which an event closes a session. -/
def Event.final? (d : Direction) : Event → Option ℕ
  | .sessionClose _ msg => some (msg.final d).toNat
  | _ => none

/-- The sum of the final counters of the sessions that were closed. -/
def closedBytes (d : Direction) (t : List Event) : ℕ := (t.filterMap (Event.final? d)).sum

def Event.totals? : Event → Option Stats
  | .sessionStats _ totals => some totals
  | _ => none

/-- The totals that were given to the accounting module. -/
def totals (t : List Event) : List Stats := t.filterMap Event.totals?

/-- Neither byte counter of the first record is larger; the uptime is not compared. -/
def Stats.Le (a b : Stats) : Prop := ∀ d, a.bytes d ≤ b.bytes d

/-! ### The condition on a request -/

/-- No session has reported more than the one being closed does at its end, and the sums do not
overflow. -/
def ClosesLargest (e : ClientEntry) (_ : List Event) (cmd : Cmd) (_ : Env) : Prop :=
  match cmd with
  | .sessionClose req => e.status = .completed ∧
      (e.stats.bytesIn ≤ req.final .bytesIn ∧ e.stats.bytesOut ≤ req.final .bytesOut) ∧
      e.savedStats.bytesIn.toNat + (req.final .bytesIn).toNat < 2 ^ 64 ∧
      e.savedStats.bytesOut.toNat + (req.final .bytesOut).toNat < 2 ^ 64
  | .cliStats req =>
      e.savedStats.bytesIn.toNat + max e.stats.bytesIn.toNat req.bytesIn.toNat < 2 ^ 64 ∧
      e.savedStats.bytesOut.toNat + max e.stats.bytesOut.toNat req.bytesOut.toNat < 2 ^ 64
  | _ => True

instance (e : ClientEntry) (t : List Event) : ∀ cmd env, Decidable (ClosesLargest e t cmd env)
  | .sessionClose _, _ => inferInstanceAs (Decidable (_ ∧ (_ ∧ _) ∧ _ ∧ _))
  | .cliStats _, _ => inferInstanceAs (Decidable (_ ∧ _))
  | .authInit _, _ | .authCont _, _ | .sessionOpen _, _ | .cleanup, _ => .isTrue trivial

/-! ### Counters -/

@[simp] theorem Stats.bytes_empty (d : Direction) : ({} : Stats).bytes d = 0 := by cases d <;> rfl

@[simp] theorem Stats.bytes_add (a b : Stats) (d : Direction) :
    (a.add b).bytes d = a.bytes d + b.bytes d := by
  cases d <;> rfl

theorem Stats.bytes_report_close (s : Stats) (m : SessionMsg) (d : Direction) :
    (s.report m.bytesIn m.bytesOut m.uptime).bytes d = maxCounter (s.bytes d) (m.bytes d) := by
  cases d <;> rfl

theorem Stats.bytes_report_stats (s : Stats) (m : CliStatsMsg) (d : Direction) :
    (s.report (some m.bytesIn) (some m.bytesOut) (some m.uptime)).bytes d =
      maxCounter (s.bytes d) (some (m.bytes d)) := by
  cases d <;> rfl

theorem maxCounter_toNat (c n : UInt64) :
    (maxCounter c (some n)).toNat = max c.toNat n.toNat := by
  unfold maxCounter
  dsimp only
  split
  · rename_i h
    have := UInt64.lt_iff_toNat_lt.1 h
    omega
  · rename_i h
    have := UInt64.le_iff_toNat_le.1 (UInt64.not_lt.1 h)
    omega

/-- A counter that is not above the reported one becomes the reported one. -/
theorem maxCounter_of_le {c : UInt64} {n : Option UInt64} (h : c ≤ n.getD 0) :
    maxCounter c n = n.getD 0 := by
  cases n with
  | none =>
    have := UInt64.le_iff_toNat_le.1 h
    exact UInt64.toNat_inj.1 (Nat.le_zero.1 this)
  | some n =>
    refine UInt64.toNat_inj.1 ?_
    rw [maxCounter_toNat]
    exact Nat.max_eq_right (UInt64.le_iff_toNat_le.1 h)

theorem toNat_add_of_lt {a b : UInt64} (h : a.toNat + b.toNat < 2 ^ 64) :
    (a + b).toNat = a.toNat + b.toNat := by
  rw [UInt64.toNat_add]
  exact Nat.mod_eq_of_lt h

/-! ### The invariant -/

variable {cfg : Config} {env : Env} {e : ClientEntry}

/-- The accounts of an entry. -/
structure Accounted (e : ClientEntry) (t : List Event) : Prop where
  saved : ∀ d, (e.savedStats.bytes d).toNat = closedBytes d t
  sorted : (totals t).Pairwise Stats.Le
  le : ∀ x ∈ totals t, ∀ d,
    (x.bytes d).toNat ≤ (e.savedStats.bytes d).toNat + (e.stats.bytes d).toNat

theorem closedBytes_append (d : Direction) (t u : List Event) :
    closedBytes d (t ++ u) = closedBytes d t + closedBytes d u := by
  rw [closedBytes, List.filterMap_append, List.sum_append]
  rfl

theorem totals_append (t u : List Event) : totals (t ++ u) = totals t ++ totals u :=
  List.filterMap_append

/-- Events that neither close a session nor report totals. -/
def Silent (t : List Event) : Prop := ∀ ev ∈ t, ev.isClosed = false ∧ ev.totals? = none

theorem Silent.of_isAuth {t : List Event} (h : ∀ ev ∈ t, ev.isAuth = true) : Silent t := by
  intro ev hev
  have := h ev hev
  cases ev <;> simp_all [Event.isAuth, Event.isClosed, Event.totals?]

theorem Silent.closedBytes {t : List Event} (h : Silent t) (d : Direction) :
    closedBytes d t = 0 := by
  have : t.filterMap (Event.final? d) = [] := by
    refine List.filterMap_eq_nil_iff.2 ?_
    intro ev hev
    have := (h ev hev).1
    cases ev <;> simp_all [Event.isClosed, Event.final?]
  rw [SecMod.closedBytes, this, List.sum_nil]

theorem Silent.totals {t : List Event} (h : Silent t) : totals t = [] :=
  List.filterMap_eq_nil_iff.2 fun ev hev => (h ev hev).2

/-- A request that leaves the accounts alone. -/
theorem Accounted.same {t evs : List Event} {e' : ClientEntry} (h : Accounted e t)
    (hstats : e'.stats = e.stats) (hsaved : e'.savedStats = e.savedStats) (hev : Silent evs) :
    Accounted e' (t ++ evs) := by
  refine ⟨fun d => ?_, ?_, ?_⟩
  · rw [closedBytes_append, hev.closedBytes, hsaved]
    exact h.saved d
  · rw [totals_append, hev.totals, List.append_nil]
    exact h.sorted
  · rw [totals_append, hev.totals, List.append_nil, hstats, hsaved]
    exact h.le

theorem Accounted.authInit {s : SecModSt} (req : AuthInitMsg) (hnew : IsNew env s e) :
    Accounted (handleAuthInit cfg env req e).entry
      (.created e.id e.sid :: (handleAuthInit cfg env req e).events) := by
  have hframe := handleAuthInit_frame cfg env req e
  have h₀ : Accounted e [] := by
    refine ⟨?_, .nil, nofun⟩
    intro d
    rw [hnew.savedStats_eq, Stats.bytes_empty]
    rfl
  refine h₀.same hframe.same.stats_eq hframe.same.savedStats_eq (.of_isAuth fun ev hev => ?_)
  rcases List.mem_cons.1 hev with rfl | hev
  · rfl
  · exact (hframe.events ev hev).2

theorem Accounted.authCont {t : List Event} (h : Accounted e t) (req : AuthContMsg) :
    Accounted (handleAuthCont cfg env req e).entry
      (t ++ (handleAuthCont cfg env req e).events) := by
  have hframe := (handleAuthCont_frame cfg env req e).1
  exact h.same hframe.same.stats_eq hframe.same.savedStats_eq
    (.of_isAuth fun ev hev => (hframe.events ev hev).2)

theorem Accounted.sessionOpen {t : List Event} (h : Accounted e t) (req : SessionMsg) :
    Accounted (handleSessionOpen cfg env req e).entry
      (t ++ (handleSessionOpen cfg env req e).events) := by
  obtain hout | ⟨hout, -⟩ := handleSessionOpen_cases cfg env req e
  · refine h.same hout.counters.stats_eq hout.counters.savedStats_eq ?_
    intro ev hev
    obtain rfl | ⟨ret, rfl⟩ := hout.events ev hev <;> exact ⟨rfl, rfl⟩
  · obtain ⟨pre, hpre, hopen⟩ := hout.events
    refine h.same hout.stats_eq hout.savedStats_eq ?_
    intro ev hev
    rcases List.mem_append.1 (hpre ▸ hev) with hev | hev
    · obtain ⟨ret, rfl⟩ := hopen ev hev
      exact ⟨rfl, rfl⟩
    · rw [List.mem_singleton.1 hev]
      exact ⟨rfl, rfl⟩

theorem Accounted.sessionClose {t : List Event} (h : Accounted e t) (req : SessionMsg)
    (hstatus : e.status = .completed)
    (hlargest : ∀ d, e.stats.bytes d ≤ req.final d)
    (hmax : ∀ d, (e.savedStats.bytes d).toNat + (req.final d).toNat < 2 ^ 64)
    (hrun : keepsRunning true (handleSessionClose env req e).ret = true) :
    Accounted (handleSessionClose env req e).entry
      (t ++ (handleSessionClose env req e).events) := by
  unfold handleSessionClose at hrun ⊢
  rw [if_neg (not_not.2 hstatus)] at hrun ⊢
  dsimp only at hrun ⊢
  split at hrun
  · simp at hrun
  · rename_i hsend
    rw [if_neg hsend]
    have hreport (d : Direction) :
        (e.stats.report req.bytesIn req.bytesOut req.uptime).bytes d = req.final d := by
      rw [Stats.bytes_report_close]
      exact maxCounter_of_le (hlargest d)
    have hsaved (d : Direction) :
        ((e.savedStats.add (e.stats.report req.bytesIn req.bytesOut req.uptime)).bytes d).toNat =
          (e.savedStats.bytes d).toNat + (req.final d).toNat := by
      rw [Stats.bytes_add, hreport, toNat_add_of_lt (hmax d)]
    obtain ⟨inUse, time, heq⟩ := expireClientEntry_frame env
      { e with
        stats := {}
        savedStats := e.savedStats.add (e.stats.report req.bytesIn req.bytesOut req.uptime) }
    rw [heq]
    refine ⟨fun d => ?_, ?_, ?_⟩
    · rw [hsaved, closedBytes_append, h.saved]
      rfl
    · rw [totals_append]
      exact (List.append_nil (totals t)).symm ▸ h.sorted
    · intro x hx d
      rw [totals_append] at hx
      have hle := h.le x ((List.append_nil (totals t)) ▸ hx) d
      have := UInt64.le_iff_toNat_le.1 (hlargest d)
      show _ ≤ _ + (({} : Stats).bytes d).toNat
      rw [hsaved, Stats.bytes_empty]
      show _ ≤ _ + 0
      omega

theorem Accounted.cliStats {t : List Event} (h : Accounted e t) (req : CliStatsMsg)
    (hmax : ∀ d, (e.savedStats.bytes d).toNat +
      max (e.stats.bytes d).toNat (req.bytes d).toNat < 2 ^ 64) :
    Accounted (handleStatsCmd cfg req e).entry (t ++ (handleStatsCmd cfg req e).events) := by
  have hstats (d : Direction) : ((e.stats.report (some req.bytesIn) (some req.bytesOut)
      (some req.uptime)).bytes d).toNat = max (e.stats.bytes d).toNat (req.bytes d).toNat := by
    rw [Stats.bytes_report_stats, maxCounter_toNat]
  generalize hs' : e.stats.report (some req.bytesIn) (some req.bytesOut) (some req.uptime) = stats'
    at hstats
  -- The counters were raised, and no totals are given to the module.
  have hquiet {e' : ClientEntry} (hsaved : e'.savedStats = e.savedStats) (he' : e'.stats = stats') :
      Accounted e' (t ++ []) := by
    rw [List.append_nil]
    refine ⟨fun d => hsaved ▸ h.saved d, h.sorted, ?_⟩
    intro x hx d
    have := h.le x hx d
    rw [hsaved, he', hstats]
    omega
  unfold handleStatsCmd
  rw [hs']
  split
  · exact h.same rfl rfl nofun
  · dsimp only
    split
    · exact hquiet rfl rfl
    · split
      · exact hquiet rfl rfl
      · have htotal (d : Direction) : ((stats'.add e.savedStats).bytes d).toNat =
            max (e.stats.bytes d).toNat (req.bytes d).toNat + (e.savedStats.bytes d).toNat := by
          have := hmax d
          rw [Stats.bytes_add, toNat_add_of_lt (by rw [hstats]; omega), hstats]
        refine ⟨fun d => ?_, ?_, ?_⟩
        · rw [closedBytes_append]
          exact h.saved d
        · rw [totals_append]
          refine List.pairwise_append.2 ⟨h.sorted, List.pairwise_singleton _ _, ?_⟩
          intro x hx y hy d
          rw [List.mem_singleton.1 hy, UInt64.le_iff_toNat_le, htotal]
          have := h.le x hx d
          omega
        · intro x hx d
          show _ ≤ _ + (stats'.bytes d).toNat
          rw [hstats]
          rw [totals_append] at hx
          rcases List.mem_append.1 hx with hx | hx
          · have := h.le x hx d
            show _ ≤ (e.savedStats.bytes d).toNat + _
            omega
          · rw [List.mem_singleton.1 hx, htotal]
            show _ ≤ (e.savedStats.bytes d).toNat + _
            omega

/-! ### Conservation -/

/-- **Accounting.**  In every run in which every `SESSION_CLOSE` finds its entry completed and
reports at least what any session of the entry has reported since the one before, and in which
the sums fit their type: `saved_stats` is at any time the sum of the final counters of the
sessions closed so far, and the totals given to the accounting module do not decrease. -/
theorem accounting {is : List (Cmd × Env)}
    (hC : (machine cfg).Meets (OnEntry ClosesLargest) start is) :
    (machine cfg).Always (fun s => s.running = true → ∀ e ∈ s.db,
      let t := history e.id s.trace
      (∀ d, (e.savedStats.bytes d).toNat = closedBytes d t) ∧ (totals t).Pairwise Stats.Le)
      start is := by
  refine (entries_invariant (I := Accounted) ?_ ?_ hC).imp
    fun s h hrun e he => ⟨(h.inv hrun e he).saved, (h.inv hrun e he).sorted⟩
  · rintro env s req e hnew -
    exact .authInit req hnew
  · rintro env cmd e t out hinv hcond hout hrun
    cases hout with
    | authCont req => exact hinv.authCont req
    | sessionOpen req => exact hinv.sessionOpen req
    | sessionClose req =>
      obtain ⟨hstatus, ⟨hin, hout⟩, hmaxIn, hmaxOut⟩ := hcond
      exact hinv.sessionClose req hstatus (by rintro (_ | _) <;> assumption)
        (by rintro (_ | _) <;> assumption) hrun
    | cliStats req =>
      obtain ⟨hin, hout⟩ := hcond
      exact hinv.cliStats req (by rintro (_ | _) <;> assumption)

namespace Sample

def statsMsg (bytesIn bytesOut : UInt64) : CliStatsMsg :=
  ⟨bytesIn, bytesOut, sid, 1, none, none, none⟩

/-- A method with a module, and an accounting module. -/
def accounted : Config := config ⟨true, authTypePlain, some .plain⟩ (some ⟨true, true, true⟩)

/-- Two sessions one after the other. -/
def twoSessions : List (Cmd × Env) :=
  passwordLogin ++
    [(.sessionOpen openMsg, environ 1001), (.cliStats (statsMsg 5 6), environ 1002),
      (.sessionClose (closeMsg 7 8), environ 1003), (.sessionOpen openMsg, environ 1004),
      (.cliStats (statsMsg 1 2), environ 1005), (.sessionClose (closeMsg 3 4), environ 1006)]

/-- Two sessions, of `5` and of `100` bytes each way; the second is opened and reports before the
first is closed. -/
def overlappingSessions : List (Cmd × Env) :=
  passwordLogin ++
    [(.sessionOpen openMsg, environ 1001), (.cliStats (statsMsg 5 5), environ 1002),
      (.sessionOpen openMsg, environ 1003), (.cliStats (statsMsg 100 100), environ 1004),
      (.sessionClose (closeMsg 5 5), environ 1005),
      (.sessionClose (closeMsg 100 100), environ 1006)]

end Sample

open Sample in
theorem accounting_twoSessions :
    (machine accounted).Always (fun s => s.running = true → ∀ e ∈ s.db,
      let t := history e.id s.trace
      (∀ d, (e.savedStats.bytes d).toNat = closedBytes d t) ∧ (totals t).Pairwise Stats.Le)
      start twoSessions :=
  accounting (by decide)

open Sample in
/-- All sessions are closed, their final counters are `5` and `100`, and `saved_stats` has `200`. -/
theorem accounting_overlap :
    (machine accounted).Meets (OnEntry ClosesOpened) start overlappingSessions ∧
    ∃ s e, (machine accounted).run start overlappingSessions = some s ∧ s.db = [e] ∧
      e.inUse = 0 ∧ closedBytes .bytesIn (history e.id s.trace) = 105 ∧
      (e.savedStats.bytes .bytesIn).toNat = 200 :=
  ⟨by decide, _, _, rfl, rfl, rfl, by decide, by decide⟩

end SecMod

end Ocserv
