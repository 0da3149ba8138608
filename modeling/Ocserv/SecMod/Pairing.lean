import Ocserv.SecMod.Accounting
import Ocserv.SecMod.Cleanup
import Ocserv.SecMod.Context

/-!
# Sec-mod: start and stop records

The accounting module is told when the first session of an entry is opened (`open_session`) and,
when the entry is deleted, what all its sessions transferred (`close_session`).  A `CLI_STATS`
comes from the worker of a session, but neither names the session: a ledger beside the run, which
knows the session of each `CLI_STATS`, has the largest counters of each session.

* `accounting_paired` : `open_session` is called at most once and before the first session is
  opened, and a deleted entry gets one `close_session` exactly if `open_session` succeeded; and
  where every `CLI_STATS` is handled while its session is open, `close_session` is given the sums
  of the ledger.
* `not_billed_late` : a `CLI_STATS` that comes after the `SESSION_CLOSE` is lost.
-/

namespace Ocserv

namespace SecMod

/-! ### The ledger -/

inductive Counter where
  | bytesIn
  | bytesOut
  | uptime
  deriving DecidableEq, Repr

def Stats.counter (s : Stats) : Counter → ℕ
  | .bytesIn => s.bytesIn.toNat
  | .bytesOut => s.bytesOut.toNat
  | .uptime => s.uptime

/-- The sessions of an entry and the largest counters that were reported for each. -/
structure Ledger where
  /-- The sessions that were opened; they are numbered from `0`. -/
  opened : ℕ := 0
  isOpen : Bool := false
  largest : ℕ → Stats := fun _ => {}

/-- A request with what it finds in its environment and, for a `CLI_STATS`, the number of the
session that it comes from. -/
abbrev Sent := (Cmd × Env) × ℕ

namespace Ledger

/-- A message of session `k` reports counters. -/
def report (l : Ledger) (k : ℕ) (bytesIn bytesOut : Option UInt64) (uptime : Option ℕ) : Ledger :=
  { l with largest := fun j =>
      if j = k then (l.largest k).report bytesIn bytesOut uptime else l.largest j }

/-- What a request for the entry means for its sessions. -/
def next (l : Ledger) (i : Sent) (evs : List Event) : Ledger :=
  match i.1.1 with
  | .sessionOpen _ =>
    if .ok ∈ openReplies evs then
      { opened := l.opened + 1
        isOpen := true
        largest := fun j => if j = l.opened then {} else l.largest j }
    else l
  | .sessionClose req =>
    { l.report (l.opened - 1) req.bytesIn req.bytesOut req.uptime with isOpen := false }
  | .cliStats req => l.report i.2 (some req.bytesIn) (some req.bytesOut) (some req.uptime)
  | .authInit _ | .authCont _ | .cleanup => l

/-- The sum over the first `n` sessions. -/
def sum (l : Ledger) (n : ℕ) (c : Counter) : ℕ :=
  ((List.range n).map fun k => (l.largest k).counter c).sum

/-- The sum over all sessions. -/
def total (l : Ledger) (c : Counter) : ℕ := l.sum l.opened c

/-- The sums fit in their type. -/
def Fits (l : Ledger) : Prop := l.total .bytesIn < 2 ^ 64 ∧ l.total .bytesOut < 2 ^ 64

instance (l : Ledger) : Decidable l.Fits := inferInstanceAs (Decidable (_ ∧ _))

theorem sum_succ (l : Ledger) (n : ℕ) (c : Counter) :
    l.sum (n + 1) c = l.sum n c + (l.largest n).counter c := by
  simp [sum, List.range_succ]

/-- Only the sessions that are summed matter. -/
theorem sum_congr {l l' : Ledger} {n : ℕ} (h : ∀ k < n, l'.largest k = l.largest k)
    (c : Counter) : l'.sum n c = l.sum n c := by
  have hmap : (List.range n).map (fun k => (l'.largest k).counter c) =
      (List.range n).map fun k => (l.largest k).counter c := by
    refine List.map_congr_left ?_
    intro k hk
    rw [h k (List.mem_range.1 hk)]
  rw [sum, hmap, sum]

theorem report_largest (l : Ledger) (k : ℕ) (bytesIn bytesOut : Option UInt64)
    (uptime : Option ℕ) :
    (l.report k bytesIn bytesOut uptime).largest k =
      (l.largest k).report bytesIn bytesOut uptime := by
  simp [report]

theorem sum_report {l : Ledger} {n k : ℕ} (h : n ≤ k) (bytesIn bytesOut : Option UInt64)
    (uptime : Option ℕ) (c : Counter) :
    (l.report k bytesIn bytesOut uptime).sum n c = l.sum n c := by
  refine sum_congr ?_ c
  intro j hj
  simp only [report]
  rw [if_neg (by omega)]

end Ledger

/-- Sec-mod, and the ledger of the entry numbered `n`. -/
def ledgered (cfg : Config) (n : ℕ) : Machine (SecModSt × Ledger) Sent :=
  ((machine cfg).relabel Prod.fst).observed fun l s i t =>
    match i.1.1.entry i.1.2 s with
    | some e => if e.id = n then l.next i (t.trace.drop s.trace.length) else l
    | none => l

/-! ### What is expected -/

def Event.isOpenSession : Event → Bool
  | .openSession .. => true
  | _ => false

def Event.isCloseSession : Event → Bool
  | .closeSession .. => true
  | _ => false

/-- `open_session` succeeded for the entry. -/
def Opened (n : ℕ) (h : List Event) : Prop := ∃ ret, 0 ≤ ret ∧ .openSession n ret ∈ h

/-- `open_session` is called at most once, and succeeds before the first session is opened. -/
structure StartsOnce (cfg : Config) (n : ℕ) (h : List Event) : Prop where
  once : h.countP Event.isOpenSession ≤ 1
  first : cfg.acct.any (·.openSession) = true →
    ∀ pre post, h = pre ++ .sessionRep (some n) .ok :: post → Opened n pre

/-- `close_session` is called once if the entry was deleted and `open_session` had succeeded, and
never otherwise. -/
structure StopsOnce (n : ℕ) (h : List Event) : Prop where
  once : .removed n ∈ h → Opened n h → h.countP Event.isCloseSession = 1
  never : .removed n ∉ h ∨ ¬ Opened n h → h.countP Event.isCloseSession = 0

/-- `close_session` is given the sums of the ledger. -/
def Billed (n : ℕ) (h : List Event) (l : Ledger) : Prop :=
  ∀ saved, .closeSession n saved ∈ h → ∀ c, saved.counter c = l.total c

/-! ### The conditions on a request -/

/-- The request meets `C` if it is for the entry numbered `n`. -/
def AtEntry (n : ℕ) (C : ClientEntry → Ledger → Sent → Prop) (x : SecModSt × Ledger)
    (i : Sent) : Prop :=
  ∀ e, i.1.1.entry i.1.2 x.1 = some e → e.id = n → C e x.2 i

/-- The entry has a module, whose `auth_init` makes a context; its sessions do not overlap. -/
def Sequential (cfg : Config) (e : ClientEntry) (l : Ledger) (i : Sent) : Prop :=
  match i.1.1 with
  | .authInit _ => MakesContext i.1.2
  | .sessionOpen req => e.module ≠ none ∧
      (l.isOpen = true → .ok ∉ openReplies (handleSessionOpen cfg i.1.2 req e).events)
  | .sessionClose _ => l.isOpen = true
  | .authCont _ | .cliStats _ | .cleanup => True

/-- A `CLI_STATS` comes while its session is open, and the sums fit in their type. -/
def Timely (_ : ClientEntry) (l : Ledger) (i : Sent) : Prop :=
  match i.1.1 with
  | .cliStats _ => l.isOpen = true ∧ i.2 + 1 = l.opened ∧ (l.next i []).Fits
  | .sessionClose _ => (l.next i []).Fits
  | .authInit _ | .authCont _ | .sessionOpen _ | .cleanup => True

/-! ### Counters -/

theorem Stats.counter_empty (c : Counter) : ({} : Stats).counter c = 0 := by cases c <;> rfl

/-- The sum of two records, if it fits. -/
theorem Stats.counter_add {a b : Stats}
    (hin : a.counter .bytesIn + b.counter .bytesIn < 2 ^ 64)
    (hout : a.counter .bytesOut + b.counter .bytesOut < 2 ^ 64) (c : Counter) :
    (a.add b).counter c = a.counter c + b.counter c := by
  cases c with
  | bytesIn => exact toNat_add_of_lt hin
  | bytesOut => exact toNat_add_of_lt hout
  | uptime => rfl

/-! ### One entry -/

variable {cfg : Config} {env : Env} {s : SecModSt} {e : ClientEntry} {n : ℕ} {l : Ledger}
  {h : List Event}

/-- The counters of an entry and of its sessions. -/
inductive Balanced (e : ClientEntry) (l : Ledger) : Prop
  | closed (notOpen : l.isOpen = false) (inUse : e.inUse = 0) (stats : e.stats = {})
      (saved : ∀ c, e.savedStats.counter c = l.total c)
  | opened (m : ℕ) (status : e.status = .completed) (isOpen : l.isOpen = true)
      (opened : l.opened = m + 1) (inUse : e.inUse = 1) (stats : e.stats = l.largest m)
      (saved : ∀ c, e.savedStats.counter c = l.sum m c)
  /-- The entry failed while it was in use, and is never deleted. -/
  | stuck (status : e.status = .failed) (inUse : e.inUse ≠ 0)

/-- A request that leaves the sessions of the entry alone. -/
theorem Balanced.same {e' : ClientEntry} (hb : Balanced e l) (hinUse : e'.inUse = e.inUse)
    (hstats : e'.stats = e.stats) (hsaved : e'.savedStats = e.savedStats)
    (hstatus : e'.status = .failed ∨ e'.status = e.status ∨ e.status ≠ .completed ∧
      e.status ≠ .failed) : Balanced e' l := by
  cases hb with
  | closed notOpen inUse stats saved =>
    exact .closed notOpen (hinUse.trans inUse) (hstats.trans stats)
      fun c => by rw [hsaved]; exact saved c
  | opened m status isOpen opened inUse stats saved =>
    by_cases hfailed : e'.status = .failed
    · exact .stuck hfailed (by rw [hinUse, inUse]; decide)
    · refine .opened m ?_ isOpen opened (hinUse.trans inUse) (hstats.trans stats)
        fun c => by rw [hsaved]; exact saved c
      rcases hstatus with hs | hs | hs
      · exact absurd hs hfailed
      · exact hs.trans status
      · exact absurd status hs.1
  | stuck status inUse =>
    refine .stuck ?_ (hinUse ▸ inUse)
    rcases hstatus with hs | hs | hs
    · exact hs
    · exact hs.trans status
    · exact absurd status hs.2

theorem Balanced.authCont (hb : Balanced e l) (req : AuthContMsg) :
    Balanced (handleAuthCont cfg env req e).entry l := by
  have hframe := (handleAuthCont_frame cfg env req e).1.same
  refine hb.same hframe.inUse_eq hframe.stats_eq hframe.savedStats_eq ?_
  rcases handleAuthCont_status cfg env req e [] with hout | ⟨hstatus, -⟩
  · exact .inl hout
  · refine .inr (.inr ?_)
    rcases hstatus with hs | hs <;> simp [hs]

theorem Balanced.sessionOpen (hb : Balanced e l) (req : SessionMsg) (k : ℕ)
    (hseq : l.isOpen = true → .ok ∉ openReplies (handleSessionOpen cfg env req e).events) :
    Balanced (handleSessionOpen cfg env req e).entry
      (l.next ((.sessionOpen req, env), k) (handleSessionOpen cfg env req e).events) := by
  simp only [Ledger.next]
  obtain hout | ⟨hout, hcompleted, -⟩ := handleSessionOpen_cases cfg env req e
  · rw [if_neg (openReplies_of_isRefusal hout.events)]
    exact hb.same hout.counters.inUse_eq hout.counters.stats_eq hout.counters.savedStats_eq
      (hout.frame.status.elim (fun hs => .inr (.inl hs)) .inl)
  · have hok : .ok ∈ openReplies (handleSessionOpen cfg env req e).events := by
      rw [hout.openReplies_eq]
      exact List.mem_singleton_self _
    rw [if_pos hok]
    cases hb with
    | closed notOpen inUse stats saved =>
      refine .opened l.opened (hout.status_eq.trans hcompleted) rfl rfl ?_ ?_ ?_
      · rw [hout.inUse_eq, inUse]
        rfl
      · simpa [hout.stats_eq] using stats
      · intro c
        rw [hout.savedStats_eq, saved, Ledger.total]
        refine (Ledger.sum_congr ?_ c).symm
        intro j hj
        exact if_neg (by omega)
    | opened m status isOpen => exact absurd hok (hseq isOpen)
    | stuck status => simp [status] at hcompleted

theorem Balanced.sessionClose (hb : Balanced e l) (req : SessionMsg) (k : ℕ)
    (evs : List Event) (hopen : l.isOpen = true)
    (hfits : (l.next ((.sessionClose req, env), k) []).Fits)
    (hrun : keepsRunning true (handleSessionClose env req e).ret = true) :
    Balanced (handleSessionClose env req e).entry
      (l.next ((.sessionClose req, env), k) evs) := by
  cases hb with
  | closed notOpen => simp [notOpen] at hopen
  | opened m status isOpen opened inUse stats saved =>
    have hm : l.opened - 1 = m := by omega
    have hsum (c : Counter) : (l.next ((.sessionClose req, env), k) evs).total c =
        l.sum m c + ((l.largest m).report req.bytesIn req.bytesOut req.uptime).counter c := by
      show (l.report (l.opened - 1) req.bytesIn req.bytesOut req.uptime).sum l.opened c = _
      rw [opened, Nat.add_sub_cancel, Ledger.sum_succ, Ledger.sum_report le_rfl,
        Ledger.report_largest]
    have hadd (c : Counter) : (e.savedStats.add
        (e.stats.report req.bytesIn req.bytesOut req.uptime)).counter c =
        (l.next ((.sessionClose req, env), k) evs).total c := by
      have hin := hfits.1
      have hout := hfits.2
      have hnext : l.next ((.sessionClose req, env), k) [] =
          l.next ((.sessionClose req, env), k) evs := rfl
      rw [hnext, hsum] at hin hout
      rw [stats, Stats.counter_add (by rw [saved]; exact hin) (by rw [saved]; exact hout), hsum,
        saved]
    simp only [handleSessionClose, if_neg (not_not.2 status)] at hrun ⊢
    by_cases hsend : env.sendOk = true
    · simp only [hsend, Bool.not_true, Bool.false_eq_true, if_false]
      simp only [expireClientEntry, inUse]
      exact .closed rfl rfl rfl hadd
    · simp [hsend] at hrun
  | stuck status inUse =>
    rw [handleSessionClose_not_completed req (by simp [status])]
    exact .stuck status inUse

theorem Balanced.cliStats (hb : Balanced e l) (req : CliStatsMsg) {k : ℕ} (evs : List Event)
    (hopen : l.isOpen = true) (hk : k + 1 = l.opened) :
    Balanced (handleStatsCmd cfg req e).entry (l.next ((.cliStats req, env), k) evs) := by
  cases hb with
  | closed notOpen => simp [notOpen] at hopen
  | opened m status isOpen opened inUse stats saved =>
    obtain rfl : k = m := by omega
    have hbalanced {e' : ClientEntry} (hstatus : e'.status = e.status)
        (hinUse : e'.inUse = e.inUse) (hsaved : e'.savedStats = e.savedStats)
        (hstats : e'.stats =
          e.stats.report (some req.bytesIn) (some req.bytesOut) (some req.uptime)) :
        Balanced e' (l.next ((.cliStats req, env), k) evs) := by
      refine .opened k (hstatus.trans status) isOpen opened (hinUse.trans inUse) ?_ ?_
      · rw [hstats, stats]
        exact (Ledger.report_largest l k _ _ _).symm
      · intro c
        rw [hsaved, saved]
        exact (Ledger.sum_report le_rfl _ _ _ c).symm
    simp only [handleStatsCmd, if_neg (not_not.2 status)]
    repeat' split
    all_goals exact hbalanced rfl rfl rfl rfl
  | stuck status inUse =>
    rw [handleStatsCmd_not_completed req (by simp [status])]
    exact .stuck status inUse

/-! ### Calls of the accounting module -/

/-- What a `SESSION_OPEN` does with the accounting module: it is not asked, it refuses, or it
agrees. -/
inductive AsksModule (cfg : Config) (e : ClientEntry) (out : SessionOut) : Prop
  | not (same : out.entry.sessionIsOpen = e.sessionIsOpen)
      (reps : ∀ ev ∈ out.events, ∃ rep, ev = .sessionRep (some e.id) rep)
      (ok : .sessionRep (some e.id) .ok ∈ out.events → needsOpen cfg e = false)
  | refuses (ret : ℤ) (evs : List Event) (needs : needsOpen cfg e = true) (neg : ret < 0)
      (completed : e.status = .completed) (failed : out.entry.status = .failed)
      (same : out.entry.sessionIsOpen = e.sessionIsOpen)
      (events : out.events = .openSession e.id ret :: evs)
      (reps : ∀ ev ∈ evs, ev = .sessionRep (some e.id) .failed)
  | agrees (ret : ℤ) (evs : List Event) (needs : needsOpen cfg e = true) (nonneg : 0 ≤ ret)
      (hasModule : e.module ≠ none) (completed : e.status = .completed)
      (isOpen : out.entry.sessionIsOpen = true)
      (events : out.events = .openSession e.id ret :: evs)
      (reps : ∀ ev ∈ evs, ∃ rep, ev = .sessionRep (some e.id) rep)

theorem replySession_reps (e : ClientEntry) :
    (replySession cfg env e).entry.sessionIsOpen = e.sessionIsOpen ∧
      ∀ ev ∈ (replySession cfg env e).events, ∃ rep, ev = .sessionRep (some e.id) rep := by
  simp only [replySession]
  split
  · exact ⟨rfl, by simp⟩
  · split
    · exact ⟨rfl, fun ev hev => ⟨_, sendFailedSessionOpenReply_events _ ev hev⟩⟩
    · split
      · exact ⟨rfl, by simp⟩
      · exact ⟨rfl, by simp⟩

theorem handleSessionOpen_asks (cfg : Config) (env : Env) (req : SessionMsg) (e : ClientEntry) :
    AsksModule cfg e (handleSessionOpen cfg env req e) := by
  have hdeny (e' : ClientEntry) (hid : e'.id = e.id)
      (hsame : e'.sessionIsOpen = e.sessionIsOpen) : AsksModule cfg e (denySession env e') := by
    have hev : ∀ ev ∈ (denySession env e').events, ev = .sessionRep (some e.id) .failed :=
      fun ev hev => hid ▸ sendFailedSessionOpenReply_events _ ev hev
    exact .not hsame (fun ev hmem => ⟨_, hev ev hmem⟩) fun hok => by cases hev _ hok
  simp only [handleSessionOpen]
  split
  · exact hdeny e rfl rfl
  · rename_i hstatus
    split
    · exact hdeny _ rfl rfl
    · split
      · exact hdeny _ rfl rfl
      · by_cases hneeds : needsOpen cfg e = true
        · simp only [hneeds, if_true]
          split
          · exact .not rfl (by simp) (by simp)
          · rename_i hm
            have hmodule : e.module ≠ none := by simp [hm]
            by_cases hneg : env.openSession < 0
            · simp only [if_pos hneg]
              exact .refuses env.openSession _ hneeds hneg (not_not.1 hstatus) rfl rfl rfl
                (sendFailedSessionOpenReply_events _)
            · simp only [if_neg hneg]
              obtain ⟨hopen, hreps⟩ :=
                @replySession_reps cfg env { e with sessionIsOpen := true }
              exact .agrees env.openSession _ hneeds (Int.not_lt.1 hneg) hmodule
                (not_not.1 hstatus) hopen rfl hreps
        · simp only [hneeds]
          obtain ⟨hopen, hreps⟩ := @replySession_reps cfg env e
          exact .not hopen hreps fun _ => by simpa using hneeds

/-- The calls of the accounting module for an entry of the database. -/
structure Paired (cfg : Config) (e : ClientEntry) (h : List Event) : Prop where
  notRemoved : .removed e.id ∉ h
  notStopped : h.countP Event.isCloseSession = 0
  notStarted : e.sessionIsOpen = false → ¬ Opened e.id h ∧
    (h.countP Event.isOpenSession = 0 ∨ h.countP Event.isOpenSession = 1 ∧ e.status = .failed)
  started : e.sessionIsOpen = true → Opened e.id h ∧ h.countP Event.isOpenSession = 1 ∧
    cfg.acct.any (·.openSession) = true ∧ e.module ≠ none ∧ HasContext e
  first : cfg.acct.any (·.openSession) = true →
    ∀ pre post, h = pre ++ .sessionRep (some e.id) .ok :: post → Opened e.id pre
  context : e.status = .failed ∨ HasContext e

theorem Opened.mono {h evs : List Event} (ho : Opened n h) : Opened n (h ++ evs) := by
  obtain ⟨ret, hret, hmem⟩ := ho
  exact ⟨ret, hret, List.mem_append_left _ hmem⟩

/-- The first session of a longer history was opened after `open_session`. -/
theorem first_append {ev : Event} {h evs : List Event}
    (hfirst : ∀ pre post, h = pre ++ ev :: post → Opened n pre)
    (hevs : ∀ pre post, evs = pre ++ ev :: post → Opened n (h ++ pre)) :
    ∀ pre post, h ++ evs = pre ++ ev :: post → Opened n pre := by
  intro pre post heq
  rcases List.append_eq_append_iff.1 heq with ⟨pre', rfl, hevs'⟩ | ⟨rest, rfl, hrest⟩
  · exact hevs pre' post hevs'
  · cases rest with
    | nil =>
      have := hevs [] post hrest.symm
      rwa [List.append_nil, List.append_nil] at this
    | cons ev' rest =>
      obtain ⟨rfl, -⟩ := List.cons.inj hrest
      exact hfirst pre rest rfl

/-- An event that says nothing about the accounting module. -/
def Event.isQuiet : Event → Bool
  | .openSession .. | .closeSession .. | .removed _ => false
  | _ => true

theorem countP_quiet {evs : List Event} (hev : ∀ ev ∈ evs, ev.isQuiet = true) :
    evs.countP Event.isOpenSession = 0 ∧ evs.countP Event.isCloseSession = 0 := by
  constructor
  · refine List.countP_eq_zero.2 ?_
    intro ev hmem
    have := hev ev hmem
    cases ev <;> simp_all [Event.isQuiet, Event.isOpenSession]
  · refine List.countP_eq_zero.2 ?_
    intro ev hmem
    have := hev ev hmem
    cases ev <;> simp_all [Event.isQuiet, Event.isCloseSession]

theorem Opened.of_quiet {h evs : List Event} (hev : ∀ ev ∈ evs, ev.isQuiet = true)
    (ho : Opened n (h ++ evs)) : Opened n h := by
  obtain ⟨ret, hret, hmem⟩ := ho
  rcases List.mem_append.1 hmem with hmem | hmem
  · exact ⟨ret, hret, hmem⟩
  · exact absurd (hev _ hmem) (by simp [Event.isQuiet])

/-- A request that does not ask the accounting module. -/
theorem Paired.quiet {e' : ClientEntry} {evs : List Event} (hp : Paired cfg e h)
    (hid : e'.id = e.id) (hopen : e'.sessionIsOpen = e.sessionIsOpen)
    (hstatus : e.status = .failed → e'.status = .failed) (hcontext : SameContext e e')
    (hev : ∀ ev ∈ evs, ev.isQuiet = true)
    (hok : .sessionRep (some e.id) .ok ∈ evs → cfg.acct.any (·.openSession) = true →
      Opened e.id h) : Paired cfg e' (h ++ evs) := by
  obtain ⟨hnoOpen, hnoClose⟩ := countP_quiet hev
  refine ⟨?_, ?_, ?_, ?_, ?_, ?_⟩
  · intro hmem
    rcases List.mem_append.1 hmem with hmem | hmem
    · exact hp.notRemoved (hid ▸ hmem)
    · exact absurd (hev _ hmem) (by simp [Event.isQuiet])
  · rw [List.countP_append, hp.notStopped, hnoClose]
  · intro hclosed
    obtain ⟨hnot, hcount⟩ := hp.notStarted (hopen ▸ hclosed)
    rw [hid, List.countP_append, hnoOpen]
    exact ⟨fun ho => hnot (.of_quiet hev ho), hcount.imp_right fun h => ⟨h.1, hstatus h.2⟩⟩
  · intro hopened
    obtain ⟨ho, hcount, hacct, hmodule, hctx⟩ := hp.started (hopen ▸ hopened)
    rw [hid, List.countP_append, hnoOpen, hcontext.module_eq]
    exact ⟨ho.mono, hcount, hacct, hmodule, hctx.of_same hcontext⟩
  · intro hacct
    rw [hid]
    refine first_append (hp.first hacct) ?_
    rintro pre post rfl
    exact (hok (List.mem_append_right _ (List.mem_cons_self ..)) hacct).mono
  · exact hp.context.imp hstatus fun h => h.of_same hcontext

theorem Event.isQuiet_of_isAuth {ev : Event} (hauth : ev.isAuth = true) :
    ev.isQuiet = true ∧ ev.openReply? = none := by
  cases ev <;> simp_all [Event.isAuth, Event.isQuiet, Event.openReply?]

theorem Paired.authInit (req : AuthInitMsg) (hnew : newClientEntry env s req.ip = some e)
    (hmakes : MakesContext env) : Paired cfg (handleAuthInit cfg env req e).entry
      (.created e.id e.sid :: (handleAuthInit cfg env req e).events) := by
  obtain ⟨hctx, hclosed⟩ := newClientEntry_fresh hnew
  have hframe := handleAuthInit_frame cfg env req e
  have hauth : ∀ ev ∈ .created e.id e.sid :: (handleAuthInit cfg env req e).events,
      ev.isAuth = true := by
    intro ev hev
    rcases List.mem_cons.1 hev with rfl | hev
    · rfl
    · exact (hframe.events ev hev).2
  generalize Event.created e.id e.sid :: (handleAuthInit cfg env req e).events = evs at hauth
  have hquiet : ∀ ev ∈ evs, ev.isQuiet = true :=
    fun ev hev => (Event.isQuiet_of_isAuth (hauth ev hev)).1
  obtain ⟨hnoOpen, hnoClose⟩ := countP_quiet hquiet
  refine ⟨?_, hnoClose, ?_, ?_, ?_, (handleAuthInit_context cfg env req hctx).2 hmakes⟩
  · intro hmem
    exact absurd (hquiet _ hmem) (by simp [Event.isQuiet])
  · intro _
    refine ⟨?_, .inl hnoOpen⟩
    rintro ⟨ret, -, hmem⟩
    exact absurd (hquiet _ hmem) (by simp [Event.isQuiet])
  · intro hopened
    simp [hframe.same.sessionIsOpen_eq, hclosed] at hopened
  · rintro - pre post rfl
    have := hauth _ (List.mem_append_right _ (List.mem_cons_self ..))
    simp [Event.isAuth] at this

theorem Paired.authCont (hp : Paired cfg e h) (req : AuthContMsg) :
    Paired cfg (handleAuthCont cfg env req e).entry
      (h ++ (handleAuthCont cfg env req e).events) := by
  have hframe := (handleAuthCont_frame cfg env req e).1
  refine hp.quiet hframe.same.id_eq hframe.same.sessionIsOpen_eq ?_
    (handleAuthCont_context cfg env req e)
    (fun ev hev => (Event.isQuiet_of_isAuth (hframe.events ev hev).2).1) ?_
  · intro hfailed
    rcases handleAuthCont_status cfg env req e [] with hout | ⟨hstatus, -⟩
    · exact hout
    · simp [hfailed] at hstatus
  · intro hok
    have := (hframe.events _ hok).2
    simp [Event.isAuth] at this

/-- The events before a call of `open_session` are not changed by it. -/
theorem Paired.asked (hp : Paired cfg e h) (ret : ℤ) :
    .removed e.id ∉ h ++ [.openSession e.id ret] ∧
      (h ++ [Event.openSession e.id ret]).countP Event.isCloseSession = 0 ∧
      (h ++ [Event.openSession e.id ret]).countP Event.isOpenSession =
        h.countP Event.isOpenSession + 1 ∧
      (cfg.acct.any (·.openSession) = true →
        ∀ pre post, h ++ [.openSession e.id ret] = pre ++ .sessionRep (some e.id) .ok :: post →
          Opened e.id pre) := by
  refine ⟨?_, ?_, ?_, ?_⟩
  · simpa using hp.notRemoved
  · rw [List.countP_append, hp.notStopped]
    rfl
  · rw [List.countP_append]
    rfl
  · intro hacct
    refine first_append (hp.first hacct) ?_
    intro pre post heq
    have hmem : Event.sessionRep (some e.id) .ok ∈ [Event.openSession e.id ret] := by
      rw [heq]
      exact List.mem_append_right _ (List.mem_cons_self ..)
    simp at hmem

theorem Paired.refused {ret : ℤ} (hp : Paired cfg e h) (hclosed : e.sessionIsOpen = false)
    (hcompleted : e.status = .completed) (hneg : ret < 0) :
    Paired cfg (e.setStatus .failed) (h ++ [.openSession e.id ret]) := by
  obtain ⟨hremoved, hstopped, hcount, hfirst⟩ := hp.asked ret
  obtain ⟨hnot, hzero⟩ := hp.notStarted hclosed
  have hzero : h.countP Event.isOpenSession = 0 :=
    hzero.resolve_right fun hc => by simp [hcompleted] at hc
  refine ⟨hremoved, hstopped, fun _ => ⟨?_, .inr ⟨?_, rfl⟩⟩, fun hopen => ?_, hfirst, .inl rfl⟩
  · rintro ⟨ret', hret', hmem⟩
    rcases List.mem_append.1 hmem with hmem | hmem
    · exact hnot ⟨ret', hret', hmem⟩
    · cases List.mem_singleton.1 hmem
      omega
  · rw [hcount, hzero]
  · exact absurd (hclosed.symm.trans hopen) Bool.false_ne_true

theorem Paired.agreed {ret : ℤ} (hp : Paired cfg e h)
    (hacct : cfg.acct.any (·.openSession) = true) (hclosed : e.sessionIsOpen = false)
    (hmodule : e.module ≠ none) (hcompleted : e.status = .completed) (hnonneg : 0 ≤ ret) :
    Paired cfg { e with sessionIsOpen := true } (h ++ [.openSession e.id ret]) := by
  obtain ⟨hremoved, hstopped, hcount, hfirst⟩ := hp.asked ret
  obtain ⟨hnot, hzero⟩ := hp.notStarted hclosed
  have hzero : h.countP Event.isOpenSession = 0 :=
    hzero.resolve_right fun hc => by simp [hcompleted] at hc
  have hctx : HasContext e := hp.context.resolve_left (by simp [hcompleted])
  refine ⟨hremoved, hstopped, fun hopen => ?_, fun _ => ?_, hfirst, .inr hctx⟩
  · cases hopen
  · exact ⟨⟨ret, hnonneg, List.mem_append_right _ (List.mem_singleton_self _)⟩,
      by rw [hcount, hzero], hacct, hmodule, hctx⟩

theorem Paired.sessionOpen (hp : Paired cfg e h) (req : SessionMsg) :
    Paired cfg (handleSessionOpen cfg env req e).entry
      (h ++ (handleSessionOpen cfg env req e).events) := by
  have hframe := handleSessionOpen_frame cfg env req e
  have hcontext := handleSessionOpen_context cfg env req e
  have hstatus : e.status = .failed → (handleSessionOpen cfg env req e).entry.status = .failed :=
    fun hfailed => hframe.status.elim (fun h => h.trans hfailed) id
  have hneeded (hneeds : needsOpen cfg e = true) :
      cfg.acct.any (·.openSession) = true ∧ e.sessionIsOpen = false := by
    simpa [needsOpen] using hneeds
  cases handleSessionOpen_asks cfg env req e with
  | not same reps ok =>
    refine hp.quiet hframe.id_eq same hstatus hcontext ?_ ?_
    · intro ev hev
      obtain ⟨rep, rfl⟩ := reps ev hev
      rfl
    · intro hok hacct
      refine (hp.started ?_).1
      simpa [needsOpen, hacct] using ok hok
  | refuses ret evs needs neg completed failed same events reps =>
    have hasked := hp.refused (hneeded needs).2 completed neg
    rw [events, List.append_cons]
    refine hasked.quiet hframe.id_eq same (fun _ => failed) ⟨hcontext.1, hcontext.2⟩ ?_ ?_
    · intro ev hev
      rw [reps ev hev]
      rfl
    · intro hok
      cases reps _ hok
  | agrees ret evs needs nonneg hasModule completed isOpen events reps =>
    have hasked := hp.agreed (hneeded needs).1 (hneeded needs).2 hasModule completed nonneg
    rw [events, List.append_cons]
    refine hasked.quiet hframe.id_eq isOpen hstatus ⟨hcontext.1, hcontext.2⟩ ?_ ?_
    · intro ev hev
      obtain ⟨rep, rfl⟩ := reps ev hev
      rfl
    · intro _ _
      exact (hasked.started rfl).1

theorem Paired.sessionClose (hp : Paired cfg e h) (req : SessionMsg) :
    Paired cfg (handleSessionClose env req e).entry
      (h ++ (handleSessionClose env req e).events) := by
  simp only [handleSessionClose]
  split
  · split <;> exact hp.quiet rfl rfl id ⟨rfl, rfl⟩ (by simp [Event.isQuiet]) (by simp)
  · split
    · exact hp.quiet rfl rfl id ⟨rfl, rfl⟩ (by simp [Event.isQuiet]) (by simp)
    · obtain ⟨inUse, time, heq⟩ := expireClientEntry_frame env
        { e with
          stats := {}
          savedStats := e.savedStats.add (e.stats.report req.bytesIn req.bytesOut req.uptime) }
      rw [heq]
      exact hp.quiet rfl rfl id ⟨rfl, rfl⟩ (by simp [Event.isQuiet]) (by simp)

theorem Paired.cliStats (hp : Paired cfg e h) (req : CliStatsMsg) :
    Paired cfg (handleStatsCmd cfg req e).entry
      (h ++ (handleStatsCmd cfg req e).events) := by
  simp only [handleStatsCmd]
  repeat' split
  all_goals
    exact hp.quiet rfl rfl id ⟨rfl, rfl⟩ (by simp [Event.isQuiet]) (by simp)

/-! ### The end of an entry -/

/-- What is expected of the calls for the entry numbered `n`; of the sums, under `T`. -/
structure Expected (cfg : Config) (T : Prop) (n : ℕ) (h : List Event) (l : Ledger) : Prop where
  starts : StartsOnce cfg n h
  stops : StopsOnce n h
  billed : T → Billed n h l

theorem Paired.expected (hp : Paired cfg e h) (T : Prop) (l : Ledger) :
    Expected cfg T e.id h l := by
  refine ⟨⟨?_, hp.first⟩, ⟨fun hr => absurd hr hp.notRemoved, fun _ => hp.notStopped⟩, ?_⟩
  · cases hopen : e.sessionIsOpen with
    | false => rcases (hp.notStarted hopen).2 with hc | hc <;> omega
    | true => exact (hp.started hopen).2.1.le
  · intro _ saved hmem
    have := List.countP_eq_zero.1 hp.notStopped _ hmem
    simp [Event.isCloseSession] at this

/-- An accounting module that is told of the start is told of the end. -/
def HasStop (cfg : Config) : Prop :=
  cfg.acct.any (·.openSession) = true → cfg.acct.any (·.closeSession) = true

/-- What is done for an entry that is deleted. -/
theorem Paired.cleanEntry_eq (hp : Paired cfg e h) (hstop : HasStop cfg) :
    (e.sessionIsOpen = false ∧ (cleanEntry cfg e).countP Event.isCloseSession = 0) ∨
      e.sessionIsOpen = true ∧ (cleanEntry cfg e).countP Event.isCloseSession = 1 := by
  simp only [cleanEntry, authUserDeinit]
  cases hopen : e.sessionIsOpen with
  | false =>
    refine .inl ⟨rfl, ?_⟩
    split <;> simp [Event.isCloseSession]
  | true =>
    obtain ⟨-, -, hacct, hmodule, hctx⟩ := hp.started hopen
    obtain ⟨m, hm⟩ := Option.ne_none_iff_exists'.1 hmodule
    refine .inr ⟨rfl, ?_⟩
    simp [hm, hctx m hm, hstop hacct]
    rfl

theorem cleanEntry_mem {ev : Event} (hev : ev ∈ cleanEntry cfg e) :
    ev = .closeSession e.id e.savedStats ∨ (∃ m ctx, ev = .call e.id m .authDeinit ctx 0) ∨
      ev = .removed e.id := by
  simp only [cleanEntry, authUserDeinit] at hev
  split at hev
  · split at hev <;> simp at hev <;> grind
  · simp at hev
    exact .inr (.inr hev)

theorem Paired.removed (hp : Paired cfg e h) (hstop : HasStop cfg) {T : Prop}
    (hb : T → ∀ c, e.savedStats.counter c = l.total c) :
    Expected cfg T e.id (h ++ cleanEntry cfg e) l := by
  have hpresent := hp.expected T l
  have hopened : Opened e.id (h ++ cleanEntry cfg e) → Opened e.id h := by
    rintro ⟨ret, hret, hmem⟩
    rcases List.mem_append.1 hmem with hmem | hmem
    · exact ⟨ret, hret, hmem⟩
    · rcases cleanEntry_mem hmem with hev | ⟨m, ctx, hev⟩ | hev <;> cases hev
  have hremoved : .removed e.id ∈ h ++ cleanEntry cfg e :=
    List.mem_append_right _ (List.mem_append_right _ (List.mem_singleton_self _))
  refine ⟨⟨?_, ?_⟩, ⟨?_, ?_⟩, ?_⟩
  · have hnone : (cleanEntry cfg e).countP Event.isOpenSession = 0 := by
      refine List.countP_eq_zero.2 ?_
      intro ev hev
      obtain rfl | ⟨m, ctx, rfl⟩ | rfl := cleanEntry_mem hev <;> simp [Event.isOpenSession]
    rw [List.countP_append, hnone]
    exact hpresent.starts.once
  · intro hacct
    refine first_append (hp.first hacct) ?_
    intro pre post heq
    have hmem : .sessionRep (some e.id) .ok ∈ cleanEntry cfg e := by
      rw [heq]
      exact List.mem_append_right _ (List.mem_cons_self ..)
    rcases cleanEntry_mem hmem with hev | ⟨m, ctx, hev⟩ | hev <;> cases hev
  · intro _ ho
    rw [List.countP_append, hp.notStopped]
    rcases hp.cleanEntry_eq hstop with ⟨hclosed, -⟩ | ⟨-, hcount⟩
    · exact absurd (hopened ho) (hp.notStarted hclosed).1
    · rw [hcount]
  · intro hnever
    rw [List.countP_append, hp.notStopped]
    rcases hp.cleanEntry_eq hstop with ⟨-, hcount⟩ | ⟨hopen, -⟩
    · rw [hcount]
    · exact (hnever.resolve_left (not_not.2 hremoved) (hp.started hopen).1.mono).elim
  · intro hT saved hmem
    rcases List.mem_append.1 hmem with hmem | hmem
    · exact hpresent.billed hT saved hmem
    · rcases cleanEntry_mem hmem with hev | ⟨m, ctx, hev⟩ | hev <;> cases hev
      exact hb hT

/-! ### Runs -/

/-- The entry numbered `n` along a run, with its ledger. -/
structure Follows (cfg : Config) (T : Prop) (n : ℕ) (x : SecModSt × Ledger) : Prop where
  wf : WF x.1
  unborn : x.1.nextId ≤ n → x.2 = {}
  present : x.1.running = true → ∀ e ∈ x.1.db, e.id = n →
    Paired cfg e (history n x.1.trace) ∧ (T → Balanced e x.2)
  gone : n < x.1.nextId → (∀ e ∈ x.1.db, e.id ≠ n) → Expected cfg T n (history n x.1.trace) x.2

/-- A request for the entry. -/
theorem Paired.handle {T : Prop} {k : ℕ} {cmd : Cmd} (hreq : cmd.IsRequest)
    (hp : Paired cfg e h) (hb : T → Balanced e l) (hseq : Sequential cfg e l ((cmd, env), k))
    (htimely : T → Timely e l ((cmd, env), k))
    (hrun : keepsRunning cmd.fromMain (cmd.handle cfg env e).ret = true) :
    Paired cfg (cmd.handle cfg env e).entry (h ++ (cmd.handle cfg env e).events) ∧
      (T → Balanced (cmd.handle cfg env e).entry
        (l.next ((cmd, env), k) (cmd.handle cfg env e).events)) := by
  cases cmd with
  | authInit req => exact hreq.elim
  | authCont req => exact ⟨hp.authCont req, fun hT => (hb hT).authCont req⟩
  | sessionOpen req => exact ⟨hp.sessionOpen req, fun hT => (hb hT).sessionOpen req k hseq.2⟩
  | sessionClose req =>
    exact ⟨hp.sessionClose req, fun hT => (hb hT).sessionClose req k _ hseq (htimely hT) hrun⟩
  | cliStats req =>
    exact ⟨hp.cliStats req, fun hT =>
      (hb hT).cliStats req _ (htimely hT).1 (htimely hT).2.1⟩
  | cleanup => exact hreq.elim

theorem step_ledgered {x y : SecModSt × Ledger} {cmd : Cmd} {k : ℕ}
    (hstep : (ledgered cfg n).step x ((cmd, env), k) = some y) :
    x.1.running = true ∧ y.1 = x.1.serve cfg env cmd ∧
      y.2 = match cmd.entry env x.1 with
        | some e => if e.id = n then
            x.2.next ((cmd, env), k) ((x.1.serve cfg env cmd).trace.drop x.1.trace.length) else x.2
        | none => x.2 := by
  obtain ⟨hstep, hledger⟩ := Machine.step_observed hstep
  obtain ⟨hrun, hserve⟩ := step_eq_some (i := (cmd, env)) hstep
  rw [hserve] at hledger
  exact ⟨hrun, hserve, hledger⟩

/-- Events that are not about the entry do not change what is known of it. -/
theorem history_other {t evs : List Event} (hev : ∀ ev ∈ evs, ev.id? ≠ some n) :
    history n (t ++ evs) = history n t := by
  rw [history_append, history_of_ne hev, List.append_nil]

theorem Follows.request {T : Prop} {k : ℕ} {cmd : Cmd} (hreq : cmd.IsRequest)
    (hf : Follows cfg T n (s, l)) (hrun : s.running = true)
    (hseq : AtEntry n (Sequential cfg) (s, l) ((cmd, env), k))
    (htimely : T → AtEntry n Timely (s, l) ((cmd, env), k)) {y : SecModSt × Ledger}
    (hstep : (ledgered cfg n).step (s, l) ((cmd, env), k) = some y) : Follows cfg T n y := by
  obtain ⟨s', l'⟩ := y
  obtain ⟨-, hserve, hledger⟩ := step_ledgered hstep
  obtain rfl : s' = _ := hserve
  obtain rfl : l' = _ := hledger
  have hwf := hf.wf.serve cfg env cmd
  rw [serve_request hrun hreq] at hwf ⊢
  cases hentry : cmd.entry env s with
  | none =>
    rw [hentry] at hwf
    have hhistory : history n (s.trace ++ (cmd.refusal env).1) = history n s.trace :=
      history_other (refusal_events n)
    refine ⟨hwf, hf.unborn, fun _ e he hid => ?_, fun hlt hgone => ?_⟩
    · show Paired cfg e (history n (s.trace ++ (cmd.refusal env).1)) ∧ _
      rw [hhistory]
      exact hf.present hrun e he hid
    · show Expected cfg T n (history n (s.trace ++ (cmd.refusal env).1)) _
      rw [hhistory]
      exact hf.gone hlt hgone
  | some e =>
    rw [hentry] at hwf
    obtain ⟨hid, hsid, hev⟩ := (cmd.handles hreq cfg env e).frame
    have hmem := entry_mem hreq hentry
    refine ⟨hwf, fun hle => ?_, fun hrun' e' he' hid' => ?_, fun hlt hgone => ?_⟩
    · have hne : e.id ≠ n := by
        have hlt : e.id < s.nextId := hf.wf.lt e hmem
        have hle : s.nextId ≤ n := hle
        omega
      simp only [if_neg hne]
      exact hf.unborn hle
    · show Paired cfg e' (history n (s.trace ++ (cmd.handle cfg env e).events)) ∧ _
      obtain rfl | ⟨hold, hne⟩ := Table.mem_update he'
      · have hn : e.id = n := hid.symm.trans hid'
        obtain ⟨hp, hb⟩ := hf.present hrun e hmem hn
        have hall : ∀ ev ∈ (cmd.handle cfg env e).events, ev.id? = some n := hn ▸ hev
        rw [history_append, history_of_all hall]
        simp only [if_pos hn]
        have hdrop : (s.put cmd.fromMain (cmd.handle cfg env e)).trace.drop s.trace.length =
            (cmd.handle cfg env e).events := List.drop_left
        rw [hdrop]
        exact hp.handle hreq hb (hseq e hentry hn) (fun hT => htimely hT e hentry hn) hrun'
      · have hne' : e.id ≠ n := fun hn => hne (hid'.trans (hn.symm.trans hid.symm))
        simp only [if_neg hne']
        rw [history_other fun ev hmem' h => ?_]
        · exact hf.present hrun e' hold hid'
        · rw [hev ev hmem'] at h
          exact hne' (Option.some.inj h)
    · show Expected cfg T n (history n (s.trace ++ (cmd.handle cfg env e).events)) _
      have hne : e.id ≠ n := by
        have hmem' : (cmd.handle cfg env e).entry ∈
            (s.put cmd.fromMain (cmd.handle cfg env e)).db :=
          Table.mem_update_self hmem hid.symm
        exact hid ▸ hgone _ hmem'
      simp only [if_neg hne]
      rw [history_other fun ev hmem' h => ?_]
      · refine hf.gone hlt fun e' he' hid' => ?_
        have hother : e'.id ≠ (cmd.handle cfg env e).entry.id := by
          rw [hid, hid']
          exact hne.symm
        exact hgone e' (Table.mem_update_of_ne he' hother) hid'
      · rw [hev ev hmem'] at h
        exact hne (Option.some.inj h)

theorem Follows.authInit {T : Prop} {k : ℕ} {req : AuthInitMsg} (hf : Follows cfg T n (s, l))
    (hrun : s.running = true)
    (hseq : AtEntry n (Sequential cfg) (s, l) ((.authInit req, env), k)) {y : SecModSt × Ledger}
    (hstep : (ledgered cfg n).step (s, l) ((.authInit req, env), k) = some y) :
    Follows cfg T n y := by
  obtain ⟨s', l'⟩ := y
  obtain ⟨-, hserve, hledger⟩ := step_ledgered hstep
  obtain rfl : s' = _ := hserve
  obtain rfl : l' = _ := hledger
  have hwf := hf.wf.serve cfg env (.authInit req)
  have hledger : (match (Cmd.authInit req).entry env s with
      | some e => if e.id = n then l.next ((.authInit req, env), k)
          ((s.serve cfg env (.authInit req)).trace.drop s.trace.length) else l
      | none => l) = l := by
    split
    · split <;> rfl
    · rfl
  simp only [hledger]
  simp only [SecModSt.serve] at hwf ⊢
  cases hnew : newClientEntry env s req.ip with
  | none => exact hf
  | some e =>
    rw [hnew] at hwf
    have hisNew := newClientEntry_isNew hnew
    have hframe := handleAuthInit_frame cfg env req e
    have hall : ∀ ev ∈ .created e.id e.sid :: (handleAuthInit cfg env req e).events,
        ev.id? = some e.id := by
      intro ev hev
      rcases List.mem_cons.1 hev with rfl | hev
      · rfl
      · exact (hframe.events ev hev).1
    have hother (hne : n ≠ s.nextId) : history n (s.trace ++ .created e.id e.sid ::
        (handleAuthInit cfg env req e).events) = history n s.trace := by
      refine history_other ?_
      intro ev hev h
      rw [hall ev hev, hisNew.id_eq] at h
      exact hne (Option.some.inj h).symm
    refine ⟨hwf, fun hle => hf.unborn (Nat.le_of_succ_le hle), fun _ e' he' hid' => ?_,
      fun hlt hgone => ?_⟩
    · show Paired cfg e' (history n (s.trace ++ .created e.id e.sid ::
        (handleAuthInit cfg env req e).events)) ∧ (T → Balanced e' l)
      rcases List.mem_cons.1 he' with rfl | he'
      · obtain rfl : s.nextId = n := hisNew.id_eq.symm.trans (hframe.same.id_eq.symm.trans hid')
        have hold : history s.nextId s.trace = [] := by
          refine history_of_ne ?_
          intro ev hev h
          exact Nat.lt_irrefl _ (hf.wf.trace ev hev _ h)
        have hempty : l = {} := hf.unborn le_rfl
        rw [history_append, hold, ← hisNew.id_eq, history_of_all hall]
        refine ⟨.authInit req hnew (hseq e hnew hisNew.id_eq), fun _ => ?_⟩
        rw [hempty]
        refine .closed rfl (hframe.same.inUse_eq.trans hisNew.inUse_eq)
          (hframe.same.stats_eq.trans hisNew.stats_eq) ?_
        intro c
        rw [hframe.same.savedStats_eq, hisNew.savedStats_eq, Stats.counter_empty]
        rfl
      · have hlt := hf.wf.lt e' he'
        rw [hother (by have : e'.id < s.nextId := hlt; omega)]
        exact hf.present hrun e' he' hid'
    · show Expected cfg T n (history n (s.trace ++ .created e.id e.sid ::
        (handleAuthInit cfg env req e).events)) l
      have hne : n ≠ s.nextId := fun h =>
        hgone _ (List.mem_cons_self ..) (hframe.same.id_eq.trans (hisNew.id_eq.trans h.symm))
      rw [hother hne]
      have hlt : n < s.nextId + 1 := hlt
      exact hf.gone (show n < s.nextId by omega) fun e' he' => hgone e' (List.mem_cons_of_mem _ he')

/-- What is done for the entries that are deleted, seen from one of them. -/
theorem history_cleanup {es : List ClientEntry} (hids : (es.map ClientEntry.id).Nodup)
    (he : e ∈ es) : history e.id (es.flatMap (cleanEntry cfg)) = cleanEntry cfg e := by
  induction es with
  | nil => cases he
  | cons x es ih =>
    obtain ⟨hx, hids⟩ := List.nodup_cons.1 hids
    rw [List.flatMap_cons, history_append]
    rcases List.mem_cons.1 he with rfl | he
    · rw [history_of_all (cleanEntry_events e), history_of_ne, List.append_nil]
      intro ev hev h
      obtain ⟨y, hy, hev⟩ := List.mem_flatMap.1 hev
      rw [cleanEntry_events y ev hev] at h
      exact hx (List.mem_map.2 ⟨y, hy, Option.some.inj h⟩)
    · rw [ih hids he, history_of_ne, List.nil_append]
      intro ev hev h
      rw [cleanEntry_events x ev hev] at h
      exact hx (List.mem_map.2 ⟨e, he, (Option.some.inj h).symm⟩)

theorem Follows.cleanup {T : Prop} {k : ℕ} (hstop : HasStop cfg) (hf : Follows cfg T n (s, l))
    (hrun : s.running = true) {y : SecModSt × Ledger}
    (hstep : (ledgered cfg n).step (s, l) ((.cleanup, env), k) = some y) :
    Follows cfg T n y := by
  obtain ⟨s', l'⟩ := y
  obtain ⟨-, hserve, hledger⟩ := step_ledgered hstep
  obtain rfl : s' = _ := hserve
  obtain rfl : l' = l := hledger
  have hother (h : ∀ e ∈ s.db, expired cfg env.now e = true → e.id ≠ n) :
      history n (s.serve cfg env .cleanup).trace = history n s.trace := by
    refine history_other ?_
    intro ev hev hid
    obtain ⟨e, he, hexp, hn⟩ := cleanup_events hev hid
    exact h e he hexp hn
  refine ⟨hf.wf.serve cfg env .cleanup, hf.unborn, fun _ e he hid => ?_, fun hlt hgone => ?_⟩
  · obtain ⟨he, hkept⟩ := List.mem_filter.1 he
    rw [hother fun e' he' hexp hid' => ?_]
    · exact hf.present hrun e he hid
    · rw [Table.eq_of_key_eq hf.wf.ids he' he (hid'.trans hid.symm)] at hexp
      simp [hexp] at hkept
  · by_cases hpresent : ∃ e ∈ s.db, e.id = n
    · obtain ⟨e, he, rfl⟩ := hpresent
      have hexp : expired cfg env.now e = true := by
        by_contra hc
        exact hgone e (List.mem_filter.2 ⟨he, by simpa using hc⟩) rfl
      obtain ⟨hp, hb⟩ := hf.present hrun e he rfl
      have hids : ((s.db.filter fun e => expired cfg env.now e).map ClientEntry.id).Nodup :=
        hf.wf.ids.sublist (List.filter_sublist.map _)
      show Expected cfg T e.id (history e.id (s.trace ++
        (s.db.filter fun e => expired cfg env.now e).flatMap (cleanEntry cfg))) l'
      rw [history_append, history_cleanup hids (List.mem_filter.2 ⟨he, hexp⟩)]
      refine hp.removed hstop fun hT => ?_
      have hzero : e.inUse = 0 := by
        simp only [expired, decide_eq_true_eq] at hexp
        exact hexp.2.2
      cases hb hT with
      | closed notOpen inUse stats saved => exact saved
      | opened m status isOpen opened inUse => simp [hzero] at inUse
      | stuck status inUse => exact absurd hzero inUse
    · have hnone : ∀ e ∈ s.db, e.id ≠ n := fun e he hid => hpresent ⟨e, he, hid⟩
      rw [hother fun e he _ => hnone e he]
      exact hf.gone hlt hnone

theorem follows_step {T : Prop} (hstop : HasStop cfg) {x y : SecModSt × Ledger} {i : Sent}
    (hf : Follows cfg T n x)
    (hseq : AtEntry n (Sequential cfg) x i) (htimely : T → AtEntry n Timely x i)
    (hstep : (ledgered cfg n).step x i = some y) : Follows cfg T n y := by
  obtain ⟨s, l⟩ := x
  obtain ⟨⟨cmd, env⟩, k⟩ := i
  have hrun := (step_ledgered hstep).1
  cases cmd with
  | authInit req => exact hf.authInit hrun hseq hstep
  | authCont req =>
    have hreq : (Cmd.authCont req).IsRequest := trivial
    exact hf.request hreq hrun hseq htimely hstep
  | sessionOpen req =>
    have hreq : (Cmd.sessionOpen req).IsRequest := trivial
    exact hf.request hreq hrun hseq htimely hstep
  | sessionClose req =>
    have hreq : (Cmd.sessionClose req).IsRequest := trivial
    exact hf.request hreq hrun hseq htimely hstep
  | cliStats req =>
    have hreq : (Cmd.cliStats req).IsRequest := trivial
    exact hf.request hreq hrun hseq htimely hstep
  | cleanup => exact hf.cleanup hstop hrun hstep

theorem Follows.expected {T : Prop} {x : SecModSt × Ledger} (hf : Follows cfg T n x)
    (hrun : x.1.running = true) : Expected cfg T n (history n x.1.trace) x.2 := by
  by_cases hborn : n < x.1.nextId
  · by_cases hpresent : ∃ e ∈ x.1.db, e.id = n
    · obtain ⟨e, he, rfl⟩ := hpresent
      exact (hf.present hrun e he rfl).1.expected T x.2
    · exact hf.gone hborn fun e he hid => hpresent ⟨e, he, hid⟩
  · have hnone : history n x.1.trace = [] := by
      refine history_of_ne ?_
      intro ev hev h
      exact hborn (hf.wf.trace ev hev n h)
    rw [hnone]
    refine ⟨⟨Nat.zero_le _, fun _ pre post h => ?_⟩, ⟨fun h => ?_, fun _ => rfl⟩, fun _ _ h => ?_⟩
    · simp at h
    · cases h
    · cases h

/-- **Main result.**  In every run in which the entry has a module, whose `auth_init` makes a
context, and its sessions do not overlap: `open_session` is called at most once for it and has
succeeded before the first session is opened, and `close_session` is called once if the entry was
deleted and `open_session` had succeeded, and never otherwise.  If moreover every `CLI_STATS` is
handled while its session is open, and the sums fit in their type, `close_session` is given the
sums over the sessions of the largest counters reported for each. -/
theorem accounting_paired (hstop : HasStop cfg) (n : ℕ) {is : List Sent}
    (hseq : (ledgered cfg n).Meets (AtEntry n (Sequential cfg)) (start, {}) is) :
    (ledgered cfg n).Always (fun x => x.1.running = true →
        StartsOnce cfg n (history n x.1.trace) ∧ StopsOnce n (history n x.1.trace))
      (start, {}) is ∧
    ((ledgered cfg n).Meets (AtEntry n Timely) (start, {}) is →
      (ledgered cfg n).Always (fun x => x.1.running = true → Billed n (history n x.1.trace) x.2)
        (start, {}) is) := by
  have hstart (T : Prop) : Follows cfg T n (start, {}) :=
    ⟨start_wf, fun _ => rfl, fun _ _ h => absurd h List.not_mem_nil,
      fun h => absurd h (Nat.not_lt_zero _)⟩
  constructor
  · refine (Machine.always_of_step (P := Follows cfg False n)
      (fun x i y hf hseq hstep => follows_step hstop hf hseq nofun hstep)
      (hstart False) hseq).imp ?_
    intro x hf hrun
    exact ⟨(hf.expected hrun).starts, (hf.expected hrun).stops⟩
  · intro htimely
    refine (Machine.always_of_step (P := Follows cfg True n)
      (fun x i y hf hC hstep => follows_step hstop hf hC.1 (fun _ => hC.2) hstep)
      (hstart True) (hseq.and htimely)).imp ?_
    intro x hf hrun
    exact (hf.expected hrun).billed trivial

/-! ### Two orders -/

instance (n : ℕ) (C : ClientEntry → Ledger → Sent → Prop) [∀ e l i, Decidable (C e l i)]
    (x : SecModSt × Ledger) (i : Sent) : Decidable (AtEntry n C x i) :=
  match h : i.1.1.entry i.1.2 x.1 with
  | none => .isTrue (by simp [AtEntry, h])
  | some e => decidable_of_iff (e.id = n → C e x.2 i) (by simp [AtEntry, h])

instance (env : Env) : Decidable (MakesContext env) := inferInstanceAs (Decidable (_ → _))

instance (cfg : Config) (e : ClientEntry) (l : Ledger) (i : Sent) :
    Decidable (Sequential cfg e l i) := by
  unfold Sequential
  split <;> infer_instance

instance (e : ClientEntry) (l : Ledger) (i : Sent) : Decidable (Timely e l i) := by
  unfold Timely
  split <;> infer_instance

namespace Sample

/-- Requests of which every `CLI_STATS` comes from the session `k`. -/
def sentBy (k : ℕ) (is : List (Cmd × Env)) : List Sent := is.map fun i => (i, k)

/-- A session whose last `CLI_STATS` comes before its `SESSION_CLOSE`. -/
def statsFirst : List Sent := sentBy 0 (passwordLogin ++
  [(.sessionOpen openMsg, environ 1001), (.cliStats (statsMsg 5 6), environ 1002),
    (.sessionClose (closeMsg 0 0), environ 1003), (.cleanup, environ 1400)])

/-- The other order. -/
def closeFirst : List Sent := sentBy 0 (passwordLogin ++
  [(.sessionOpen openMsg, environ 1001), (.sessionClose (closeMsg 0 0), environ 1002),
    (.cliStats (statsMsg 5 6), environ 1003), (.cleanup, environ 1400)])

end Sample

open Sample in
theorem accounting_paired_statsFirst :
    (ledgered accounted 0).Always (fun x => x.1.running = true →
        StartsOnce accounted 0 (history 0 x.1.trace) ∧ StopsOnce 0 (history 0 x.1.trace))
      (start, {}) statsFirst ∧
    (ledgered accounted 0).Always (fun x => x.1.running = true →
      Billed 0 (history 0 x.1.trace) x.2) (start, {}) statsFirst :=
  have h := @accounting_paired accounted (fun _ => rfl) 0 statsFirst
    (show (ledgered accounted 0).Meets (AtEntry 0 (Sequential accounted)) (start, {}) statsFirst
      by decide)
  ⟨h.1, h.2 (by decide)⟩

open Sample in
/-- A `CLI_STATS` that comes after the `SESSION_CLOSE` of its session: the session transferred
five bytes, and `close_session` is told that there were none. -/
theorem not_billed_late :
    (ledgered accounted 0).Meets (AtEntry 0 (Sequential accounted)) (start, {}) closeFirst ∧
    ∃ s l, (ledgered accounted 0).run (start, {}) closeFirst = some (s, l) ∧
      s.running = true ∧ .closeSession 0 {} ∈ history 0 s.trace ∧ l.total .bytesIn = 5 ∧
      ¬ Billed 0 (history 0 s.trace) l := by
  obtain ⟨s, l, hrun, hrunning, hclose, htotal⟩ : ∃ s l,
      (ledgered accounted 0).run (start, {}) closeFirst = some (s, l) ∧ s.running = true ∧
        .closeSession 0 {} ∈ history 0 s.trace ∧ l.total .bytesIn = 5 :=
    ⟨_, _, rfl, rfl, by decide, rfl⟩
  refine ⟨by decide, s, l, hrun, hrunning, hclose, htotal, ?_⟩
  intro hbilled
  have := hbilled {} hclose .bytesIn
  rw [htotal, Stats.counter_empty] at this
  exact absurd this (by decide)

end SecMod

end Ocserv
