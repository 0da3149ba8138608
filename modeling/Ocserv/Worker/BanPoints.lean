import Ocserv.Main.BanRuns

/-!
# Worker: the points for its client

A worker collects ban points for its client and reports them to main with `CMD_BAN_IP`
(`ws_add_score_to_ip` and `exit_worker` of `src/worker-vpn.c`); main adds them to its ban list
(`handle_commands` of `src/main-misc.c`).

The points were conserved if main had added, after the final call, what was passed to
`ws_add_score_to_ip` until then.  But what is collected locally is never sent: a call reports its
own points or none, and the final call reports those it is called with, which are 0.  So the
points are conserved in exactly the runs in which every call with points is a report that main
carries out (`Delivered`).  There is one such call in a run at most, since the reply to it is sent
to a `proc_st` that is `NULL`, and main ends.

## Main results

* `BanSystem.added_le` : main never adds more than was passed.
* `BanSystem.conserved_iff` : **the points are conserved** if and only if every call with points
  is delivered.
-/

namespace Ocserv

namespace Worker

open Main (BanConfig BanDb addIpToBanList openEntry emptyBanDb shortBan client)
open SecMod (Bytes strlcpy maxIpStr)

/-- `ban_ip_msg` -/
structure BanIpMsg where
  ip : Bytes
  score : UInt32
  deriving DecidableEq, Repr

/-- `AUTH_REP` in a `ban_ip_reply_msg`. -/
inductive AuthRep where
  | ok
  | failed
  deriving DecidableEq, Repr

/-- The options that the worker reads. -/
structure BanOptions where
  maxBanScore : UInt32
  banPointsWrongPassword : UInt32

/-- The fields of `worker_st`. -/
structure BanWorker where
  remoteIpStr : Bytes
  banPoints : UInt32
  /-- The process has not called `exit`. -/
  running : Bool
  deriving DecidableEq, Repr

/-- `ws_add_score_to_ip` up to the sending: the worker, and the message it sends. -/
def wsAddScoreToIp (opts : BanOptions) (ws : BanWorker) (points : UInt32) (final : Bool) :
    BanWorker × Option BanIpMsg :=
  if opts.maxBanScore = 0 then (ws, none)
  -- in the final call no score is added
  else if final then (ws, some ⟨ws.remoteIpStr, points⟩)
  else
    let ws := { ws with banPoints := ws.banPoints + points }
    if points < opts.banPointsWrongPassword then (ws, none)
    else (ws, some ⟨ws.remoteIpStr, points⟩)

/-- The rest of `ws_add_score_to_ip`, after the message was sent; `reply` is what `recv_msg`
receives. -/
def recvBanIpReply (ws : BanWorker) (final : Bool) (reply : Option AuthRep) : BanWorker :=
  if final then ws
  else
    match reply with
    | none => ws
    | some .ok => ws
    | some .failed => { ws with running := false }

/-- `send_msg_to_worker`: it reads the descriptor in the `proc_st`, so with a null pointer main
does not survive it. -/
def sendMsgToWorker (proc : Option ℕ) (reply : AuthRep) : Option (ℕ × AuthRep) :=
  proc.map fun fd => (fd, reply)

/-- `handle_commands` for `CMD_BAN_IP`: the ban list, and the reply if main survives sending
it. -/
def handleBanIp (cfg : BanConfig) (db : BanDb) (now : ℤ) (msg : BanIpMsg) (stored : Bool) :
    BanDb × Option AuthRep :=
  let (db, ret) := addIpToBanList cfg db now msg.ip msg.score stored
  (db, (sendMsgToWorker none (if ret < 0 then .failed else .ok)).map Prod.snd)

/-- `add_ip_to_ban_list` comes to the addition. -/
def Adds (cfg : BanConfig) (db : BanDb) (now : ℤ) (ip : Bytes) (stored : Bool) : Prop :=
  cfg.maxBanScore ≠ 0 ∧ ip ≠ [] ∧
    (openEntry cfg now stored (db (strlcpy maxIpStr ip))).isSome = true

instance (cfg : BanConfig) (db : BanDb) (now : ℤ) (ip : Bytes) (stored : Bool) :
    Decidable (Adds cfg db now ip stored) :=
  inferInstanceAs (Decidable (_ ∧ _))

/-! ### A worker and main -/

/-- A worker and main.  `passed` and `added` are the points that were passed to
`ws_add_score_to_ip`, and those of them that main added. -/
structure BanSystem where
  ws : BanWorker
  db : BanDb
  mainRunning : Bool
  passed : ℕ
  added : ℕ

/-- What happens to a message: it is sent, main reads it whole at time `now`, and the allocation
of an entry works out. -/
structure BanDelivery where
  sent : Bool
  read : Bool
  now : ℤ
  stored : Bool
  deriving DecidableEq, Repr

inductive BanAction where
  | wsAddScoreToIp (points : UInt32) (final : Bool) (d : BanDelivery)
  | exitWorker (d : BanDelivery)

namespace BanSystem

variable (opts : BanOptions) (cfg : BanConfig)

/-- Main reads a message. -/
def handle (s : BanSystem) (d : BanDelivery) (msg : BanIpMsg) : BanSystem × Option AuthRep :=
  if d.sent && d.read && s.mainRunning then
    let r := handleBanIp cfg s.db d.now msg d.stored
    ({ s with
        db := r.1
        mainRunning := r.2.isSome
        added :=
          if Adds cfg s.db d.now msg.ip d.stored then s.added + msg.score.toNat else s.added },
      r.2)
  else (s, none)

/-- A call of `ws_add_score_to_ip`. -/
def addScore (s : BanSystem) (points : UInt32) (final : Bool) (d : BanDelivery) : BanSystem :=
  let r := wsAddScoreToIp opts s.ws points final
  let s := { s with passed := s.passed + points.toNat }
  match r.2 with
  | none => { s with ws := r.1 }
  | some msg =>
    let h := handle cfg s d msg
    { h.1 with ws := if d.sent then recvBanIpReply r.1 final h.2 else r.1 }

/-- `exit_worker` -/
def exitWorker (s : BanSystem) (d : BanDelivery) : BanSystem :=
  let s := if 0 < s.ws.banPoints then addScore opts cfg s 0 true d else s
  { s with ws := { s.ws with running := false } }

def step (s : BanSystem) (a : BanAction) : Option BanSystem :=
  if s.ws.running then
    match a with
    | .wsAddScoreToIp points final d => some (addScore opts cfg s points final d)
    | .exitWorker d => some (exitWorker opts cfg s d)
  else none

def machine : Machine BanSystem BanAction := ⟨step opts cfg⟩

/-- A worker for a client, and main with a ban list. -/
def start (ip : Bytes) (db : BanDb) : BanSystem := ⟨⟨ip, 0, true⟩, db, true, 0, 0⟩

/-- The call reports its points, and main adds them. -/
def Reported (s : BanSystem) (points : UInt32) (final : Bool) (d : BanDelivery) : Prop :=
  opts.maxBanScore ≠ 0 ∧ (final = true ∨ opts.banPointsWrongPassword ≤ points) ∧
    (d.sent && d.read && s.mainRunning) = true ∧ Adds cfg s.db d.now s.ws.remoteIpStr d.stored

instance (s : BanSystem) (points : UInt32) (final : Bool) (d : BanDelivery) :
    Decidable (Reported opts cfg s points final d) :=
  inferInstanceAs (Decidable (_ ∧ _))

/-- A call with points is reported. -/
def Delivered (s : BanSystem) : BanAction → Prop
  | .wsAddScoreToIp points final d => points ≠ 0 → Reported opts cfg s points final d
  | .exitWorker _ => True

instance (s : BanSystem) : (a : BanAction) → Decidable (Delivered opts cfg s a)
  | .wsAddScoreToIp _ _ _ => inferInstanceAs (Decidable (_ → _))
  | .exitWorker _ => inferInstanceAs (Decidable True)

variable {opts cfg} {s t : BanSystem} {points : UInt32} {final : Bool} {d : BanDelivery}
  {a : BanAction}

/-! ### One call -/

/-- Main does not survive a report. -/
theorem handleBanIp_reply (db : BanDb) (now : ℤ) (msg : BanIpMsg) (stored : Bool) :
    (handleBanIp cfg db now msg stored).2 = none := rfl

/-- The message of a call. -/
theorem wsAddScoreToIp_snd (ws : BanWorker) : (wsAddScoreToIp opts ws points final).2 =
    if opts.maxBanScore ≠ 0 ∧ (final = true ∨ opts.banPointsWrongPassword ≤ points) then
      some ⟨ws.remoteIpStr, points⟩
    else none := by
  unfold wsAddScoreToIp
  by_cases hmax : opts.maxBanScore = 0
  · rw [if_pos hmax, if_neg fun h => h.1 hmax]
  · rw [if_neg hmax]
    cases final with
    | true => rw [if_pos rfl, if_pos ⟨hmax, .inl rfl⟩]
    | false =>
      rw [if_neg Bool.false_ne_true]
      dsimp only
      by_cases hlow : points < opts.banPointsWrongPassword
      · rw [if_pos hlow, if_neg]
        rintro ⟨-, hfinal | hle⟩
        · cases hfinal
        · exact UInt32.not_lt.2 hle hlow
      · rw [if_neg hlow, if_pos ⟨hmax, .inr (UInt32.not_lt.1 hlow)⟩]

variable (cfg) in
theorem handle_added (s : BanSystem) (d : BanDelivery) (msg : BanIpMsg) :
    (handle cfg s d msg).1.passed = s.passed ∧
      (handle cfg s d msg).1.added =
        if (d.sent && d.read && s.mainRunning) = true ∧ Adds cfg s.db d.now msg.ip d.stored then
          s.added + msg.score.toNat
        else s.added := by
  unfold handle
  by_cases hread : (d.sent && d.read && s.mainRunning) = true
  · rw [if_pos hread]
    refine ⟨rfl, ?_⟩
    dsimp only
    by_cases hadds : Adds cfg s.db d.now msg.ip d.stored
    · rw [if_pos hadds, if_pos (And.intro hread hadds)]
    · rw [if_neg hadds, if_neg fun h => hadds (And.right h)]
  · rw [if_neg hread, if_neg fun h => hread h.1]
    exact ⟨rfl, rfl⟩

variable (opts cfg) in
/-- **One call**: its points are passed, and added if it is reported. -/
theorem addScore_spec (s : BanSystem) (points : UInt32) (final : Bool) (d : BanDelivery) :
    (addScore opts cfg s points final d).passed = s.passed + points.toNat ∧
      (addScore opts cfg s points final d).added =
        if Reported opts cfg s points final d then s.added + points.toNat else s.added := by
  unfold addScore
  dsimp only
  rw [wsAddScoreToIp_snd]
  by_cases hmsg : opts.maxBanScore ≠ 0 ∧ (final = true ∨ opts.banPointsWrongPassword ≤ points)
  · rw [if_pos hmsg]
    obtain ⟨hpassed, hadded⟩ := handle_added cfg
      { s with passed := s.passed + points.toNat } d ⟨s.ws.remoteIpStr, points⟩
    refine ⟨hpassed, hadded.trans ?_⟩
    by_cases hrest : (d.sent && d.read && s.mainRunning) = true ∧
        Adds cfg s.db d.now s.ws.remoteIpStr d.stored
    · rw [if_pos hrest, if_pos (show Reported .. from ⟨hmsg.1, hmsg.2, hrest⟩)]
    · rw [if_neg hrest, if_neg fun h : Reported opts cfg s points final d => hrest h.2.2]
  · rw [if_neg hmsg, if_neg fun h : Reported opts cfg s points final d => hmsg ⟨h.1, h.2.1⟩]
    exact ⟨rfl, rfl⟩

variable (opts cfg) in
theorem exitWorker_spec (s : BanSystem) (d : BanDelivery) :
    (exitWorker opts cfg s d).passed = s.passed ∧
      (exitWorker opts cfg s d).added = s.added := by
  unfold exitWorker
  dsimp only
  split
  · obtain ⟨hpassed, hadded⟩ := addScore_spec opts cfg s 0 true d
    refine ⟨hpassed, hadded.trans ?_⟩
    split <;> rfl
  · exact ⟨rfl, rfl⟩

/-! ### Runs -/

/-- **One step**: main adds what is passed if the step is delivered, and less if it is not. -/
theorem step_spec (h : step opts cfg s a = some t) : s.added ≤ s.passed → t.added ≤ t.passed ∧
    (t.added = t.passed ↔ s.added = s.passed ∧ Delivered opts cfg s a) := by
  intro hle
  unfold step at h
  split at h
  · cases a with
    | wsAddScoreToIp points final d =>
      cases h
      obtain ⟨hpassed, hadded⟩ := addScore_spec opts cfg s points final d
      have hpoints : points ≠ 0 ↔ 0 < points.toNat := by
        rw [Nat.pos_iff_ne_zero, ne_eq, ne_eq, ← UInt32.toNat_inj]
        rfl
      rw [hpassed, hadded, Delivered, hpoints]
      by_cases hrep : Reported opts cfg s points final d
      · rw [if_pos hrep]
        simp only [hrep, implies_true, and_true]
        omega
      · rw [if_neg hrep]
        simp only [hrep, imp_false]
        omega
    | exitWorker d =>
      cases h
      obtain ⟨hpassed, hadded⟩ := exitWorker_spec opts cfg s d
      rw [hpassed, hadded]
      exact ⟨hle, iff_self_and.2 fun _ => trivial⟩
  · cases h

theorem run_spec {as : List BanAction} (h : (machine opts cfg).run s as = some t)
    (hle : s.added ≤ s.passed) : t.added ≤ t.passed ∧
      (t.added = t.passed ↔
        s.added = s.passed ∧ (machine opts cfg).Meets (Delivered opts cfg) s as) := by
  induction as generalizing s with
  | nil =>
    cases h
    exact ⟨hle, iff_self_and.2 fun _ => trivial⟩
  | cons a as ih =>
    obtain ⟨s', hs', h⟩ := Machine.run_cons_eq_some.1 h
    obtain ⟨hle', hiff⟩ := step_spec hs' hle
    obtain ⟨hle'', hiff'⟩ := ih h hle'
    refine ⟨hle'', ?_⟩
    rw [hiff', hiff]
    constructor
    · rintro ⟨⟨heq, hdel⟩, hmeets⟩
      refine ⟨heq, hdel, ?_⟩
      intro u hu
      cases hs'.symm.trans hu
      exact hmeets
    · rintro ⟨heq, hdel, hmeets⟩
      exact ⟨⟨heq, hdel⟩, hmeets s' hs'⟩

/-- Main never adds more than was passed. -/
theorem added_le {ip : Bytes} {db : BanDb} {as : List BanAction}
    (h : (machine opts cfg).run (start ip db) as = some t) : t.added ≤ t.passed :=
  (run_spec h le_rfl).1

/-- **The points are conserved** if and only if every call with points is a report that main
carries out. -/
theorem conserved_iff {ip : Bytes} {db : BanDb} {as : List BanAction}
    (h : (machine opts cfg).run (start ip db) as = some t) :
    t.added = t.passed ↔
      (machine opts cfg).Meets (Delivered opts cfg) (start ip db) as := by
  rw [(run_spec h le_rfl).2]
  exact and_iff_right rfl

/-! ### Two runs -/

/-- The default points for a wrong password. -/
def defaultOptions : BanOptions where
  maxBanScore := 50
  banPointsWrongPassword := 10

/-- A wrong password that main hears of. -/
def onePassword : List BanAction :=
  [.wsAddScoreToIp 10 false ⟨true, true, 0, true⟩, .exitWorker ⟨false, false, 0, false⟩]

/-- A KKDCP request; all messages would arrive. -/
def oneKkdcp : List BanAction :=
  [.wsAddScoreToIp 1 false ⟨true, true, 0, true⟩, .exitWorker ⟨true, true, 1, true⟩]

theorem conserved_onePassword : ∃ t,
    (machine defaultOptions shortBan).run (start client emptyBanDb) onePassword = some t ∧
      t.added = t.passed := by
  refine ⟨_, rfl, ?_⟩
  have hmeets : (machine defaultOptions shortBan).Meets (Delivered defaultOptions shortBan)
      (start client emptyBanDb) onePassword := by decide
  exact (conserved_iff rfl).2 hmeets

theorem not_conserved_oneKkdcp : ∃ t,
    (machine defaultOptions shortBan).run (start client emptyBanDb) oneKkdcp = some t ∧
      t.passed = 1 ∧ t.added = 0 :=
  ⟨_, rfl, rfl, rfl⟩

end BanSystem

end Worker

end Ocserv
