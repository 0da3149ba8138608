import Ocserv.Main.Gating

/-!
# Main: the limit on the connections of one user

`check_multiple_users` (`src/main-auth.c`) counts the workers of the list that have the name of the
user.  A worker that was displaced, or whose request was refused, stays in the list until its end
is noticed.

* `sameUser_limit_iff` : at every request that is accepted, in every run, the limit is applied to
  the live connections of the user exactly if the workers that linger make no difference;
* `not_limit_reconnect` : a client that may have one connection and connects again is refused.
-/

namespace Ocserv

namespace Main

open SecMod (Bytes)

variable {plat : Platform} {cfg : Config} {s s' : MainSt} {p q : Proc}

/-- The worker has a connection of a user: main accepted it or waits for its connect script, and it
was not displaced. -/
def Live (scripts : List ScriptWait) (q : Proc) : Prop :=
  (q.status = .completed ∨ ∃ w ∈ scripts, w.proc = q.id) ∧ q.sigterm = false

instance (scripts : List ScriptWait) (q : Proc) : Decidable (Live scripts q) :=
  inferInstanceAs (Decidable (_ ∧ _))

/-- Another worker with the name of the user of `p`. -/
def SameUser (p q : Proc) : Prop := q.id ≠ p.id ∧ q.username = p.username

instance (p q : Proc) : Decidable (SameUser p q) := inferInstanceAs (Decidable (_ ∧ _))

/-- The live connections of the user of `p`, with that of `p` itself. -/
def liveConnections (scripts : List ScriptWait) (s : MainSt) (p : Proc) : ℕ :=
  1 + s.procs.countP fun q => SameUser p q ∧ Live scripts q

/-- The workers with the name of the user of `p` that main still lists, but which serve nobody. -/
def lingering (scripts : List ScriptWait) (s : MainSt) (p : Proc) : ℕ :=
  s.procs.countP fun q => SameUser p q ∧ ¬ Live scripts q

/-- The live connections of the user exceed the limit, or the workers that linger do not reach it
together with them. -/
def LingerFree (cfg : Config) (scripts : List ScriptWait) (s : MainSt) (p : Proc) : Prop :=
  cfg.maxSameClients < liveConnections scripts s p ∨
    liveConnections scripts s p + lingering scripts s p ≤ cfg.maxSameClients

/-- `check_multiple_users` refuses the connection exactly if the live ones exceed the limit. -/
def LimitExact (cfg : Config) (scripts : List ScriptWait) (s : MainSt) (p : Proc) : Prop :=
  checkMultipleUsers cfg s p < 0 ↔ cfg.maxSameClients < liveConnections scripts s p

/-- A count is the sum of the counts with and without a further property. -/
theorem countP_split {α : Type} (l : List α) (P Q : α → Prop) [DecidablePred P]
    [DecidablePred Q] :
    (l.countP fun x => P x) = (l.countP fun x => P x ∧ Q x) + l.countP fun x => P x ∧ ¬ Q x := by
  induction l with
  | nil => rfl
  | cons x l ih =>
    rw [List.countP_cons, List.countP_cons, List.countP_cons, ih]
    by_cases hP : P x
    · by_cases hQ : Q x
      · simp only [hP, hQ, and_self, not_true_eq_false, and_false, decide_true, decide_false,
          if_true, if_false, Bool.false_eq_true]
        omega
      · simp only [hP, hQ, and_self, not_false_eq_true, and_false, decide_true, decide_false,
          if_true, if_false, Bool.false_eq_true]
        omega
    · simp only [hP, false_and, decide_false, if_false, Bool.false_eq_true, Nat.add_zero]

/-- `check_multiple_users` counts the live connections and the workers that linger. -/
theorem checkMultipleUsers_neg_iff (scripts : List ScriptWait) (hmax : 0 < cfg.maxSameClients)
    (hpid : ∀ q ∈ s.procs, 0 < q.pid) :
    checkMultipleUsers cfg s p < 0 ↔
      cfg.maxSameClients < liveConnections scripts s p + lingering scripts s p := by
  have hsame : (s.procs.countP fun q => q.id ≠ p.id ∧ q.pid ≠ -1 ∧ q.username = p.username) =
      s.procs.countP fun q => SameUser p q := by
    refine List.countP_congr ?_
    intro q hq
    have := hpid q hq
    have hne : q.pid ≠ -1 := by omega
    rw [decide_eq_true_iff, decide_eq_true_iff]
    exact ⟨fun h => ⟨h.1, h.2.2⟩, fun h => ⟨h.1, hne, h.2⟩⟩
  have hsplit := countP_split s.procs (SameUser p) (Live scripts)
  rw [checkMultipleUsers, if_neg (by omega), hsame, hsplit, liveConnections, lingering]
  rw [Nat.add_assoc]
  dsimp only
  split
  · rename_i hmore
    exact iff_of_true (by decide) hmore
  · rename_i hmore
    exact iff_of_false (by decide) hmore

/-- The step lemma of `sameUser_limit_iff`. -/
theorem limitExact_iff (scripts : List ScriptWait) (hmax : 0 < cfg.maxSameClients)
    (hpid : ∀ q ∈ s.procs, 0 < q.pid) :
    LimitExact cfg scripts s p ↔ LingerFree cfg scripts s p := by
  rw [LimitExact, checkMultipleUsers_neg_iff scripts hmax hpid, LingerFree]
  omega

/-- The workers main has when `check_multiple_users` is called have a pid. -/
theorem pid_pos_of_cookieReq (cfg : Config) (env : Env) (h : WF s) (p : Proc) (req : Bytes) :
    ∀ q ∈ (handleAuthCookieReq cfg env s p req).st.procs, 0 < q.pid := by
  intro q hq
  obtain ⟨-, hdisp⟩ := handleAuthCookieReq_cases cfg env s p req
  cases hdisp with
  | nobody hprocs => exact h.pid q (hprocs ▸ hq)
  | old old hsearch hprocs =>
    obtain ⟨hold, -⟩ := h.search hsearch
    rw [hprocs] at hq
    obtain rfl | ⟨hq, -⟩ := Table.mem_update hq
    · exact h.pid old hold
    · exact h.pid q hq

/-- The state and the worker when `check_multiple_users` is called, if the request of the step was
accepted. -/
def checked (cfg : Config) (s : ScriptSt) : ScriptLabel → Option (MainSt × Proc)
  | .cookieReq id req env _ _ =>
    (s.st.find id).bind fun p =>
      let out := handleAuthCookieReq cfg env s.st p req
      if p.status = .inactive ∧ out.ret = 0 then some (out.st, out.proc) else none
  | _ => none

/-- **The limit for one user.**  In every run, at every `AUTH_COOKIE_REQ` that is accepted:
`check_multiple_users` refuses the connection exactly if the live connections of the user exceed
the limit, if and only if they do so without the workers that linger, or not even with them. -/
theorem sameUser_limit_iff (hmax : 0 < cfg.maxSameClients) (is : List ScriptLabel) :
    (scriptMachine plat cfg).Meets (fun s i => ∀ s₁ p₁, checked cfg s i = some (s₁, p₁) →
      (LimitExact cfg s.scripts s₁ p₁ ↔ LingerFree cfg s.scripts s₁ p₁)) scriptStart is := by
  refine (scriptInv_always is).meets ?_
  intro s i hinv s₁ p₁ h
  cases i with
  | cookieReq id req env up down =>
    obtain ⟨p, -, haccept⟩ := Option.bind_eq_some_iff.1 h
    simp only [Option.ite_none_right_eq_some, Option.some.injEq, Prod.mk.injEq] at haccept
    obtain ⟨-, rfl, rfl⟩ := haccept
    exact limitExact_iff s.scripts hmax (pid_pos_of_cookieReq cfg env hinv.wf p req)
  | connect pid => cases h
  | childExit pid status sendOk down => cases h
  | remove id down => cases h

namespace Sample

/-- One connection for every user. -/
def oneEach : Config := { config with maxSameClients := 1 }

/-- A client connects, and connects once more. -/
def firstAndSecond : List ScriptLabel :=
  [.connect 10, .cookieReq 0 [1] (environ [0] 5 none) noScript noScript, .connect 11]

/-- The second connection sends the cookie of the first. -/
def sameCookie : ScriptLabel := .cookieReq 1 [1] (environ [0, 1] 5 none) noScript noScript

end Sample

open Sample in
theorem sameUser_limit_iff_oneEach :
    (scriptMachine platform oneEach).Meets (fun s i => ∀ s₁ p₁,
      checked oneEach s i = some (s₁, p₁) →
        (LimitExact oneEach s.scripts s₁ p₁ ↔ LingerFree oneEach s.scripts s₁ p₁))
      scriptStart (firstAndSecond ++ [sameCookie]) :=
  sameUser_limit_iff (by decide) _

open Sample in
/-- The second connection displaces the first, is the only live one of the user, and is refused. -/
theorem not_limit_reconnect :
    ∃ s s₁ p₁, (scriptMachine platform oneEach).run scriptStart firstAndSecond = some s ∧
      checked oneEach s sameCookie = some (s₁, p₁) ∧ liveConnections s.scripts s₁ p₁ = 1 ∧
        ¬ LimitExact oneEach s.scripts s₁ p₁ := by
  refine ⟨_, _, _, rfl, rfl, by decide, ?_⟩
  intro h
  exact absurd (h.1 (by decide)) (by decide)

end Main

end Ocserv
