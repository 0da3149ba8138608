import Mathlib.Order.Lattice
import Mathlib.Algebra.GroupWithZero.Nat
import Mathlib.Algebra.BigOperators.Group.List.Defs

/-!
# Penalty accounts

An account collects points.  Points that are collected within a window after its first ones add
up; when they reach a limit the account is *banned* for a period.  What is collected during a ban
changes nothing, and what is collected after its end, or after the end of the window, goes to a
fresh account.  A *pardon* takes the points and the ban away.

## Main definitions

* `Account.collect R now p a` : the account after `p` points at time `now`.
* `Account.after R a ms` : the account after the moves `ms`, each with its time.

## Main results

* `Account.after_of_banned` : **a ban is not extended**: moves before its end that are no pardons
  leave the account as it is.
* `Account.after_below` : the points of one window add up as long as they stay below the limit.
* `Account.collect_reaches` : the points that reach the limit start a ban.
* `Account.collect_after_ban` : after a ban the points count anew.
-/

namespace Ocserv

/-- The limit, the period of a ban and the window in which points add up. -/
structure BanRules (T : Type*) where
  limit : ℕ
  period : T
  window : T

/-- An account: its points, the beginning of its window and the end of its ban. -/
structure Account (T : Type*) where
  points : ℕ
  since : T
  bannedUntil : Option T
  deriving DecidableEq

/-- What happens to an account. -/
inductive Account.Move where
  | collect (points : ℕ)
  | pardon

namespace Account

variable {T : Type*} [LinearOrder T] [Add T] (R : BanRules T)

/-- An account without points. -/
def fresh (now : T) : Account T := ⟨0, now, none⟩

/-- The ban has ended; without a ban, the window has. -/
def Over (now : T) (a : Account T) : Prop :=
  match a.bannedUntil with
  | some u => u < now
  | none => a.since + R.window < now

instance (now : T) (a : Account T) : Decidable (a.Over R now) :=
  match h : a.bannedUntil with
  | some u => decidable_of_iff (u < now) (by rw [Over, h])
  | none => decidable_of_iff (a.since + R.window < now) (by rw [Over, h])

/-- The account that points of time `now` go to. -/
def renew (now : T) : Option (Account T) → Account T
  | none => fresh now
  | some a => if a.Over R now then fresh now else a

/-- Collect points, in an account that has been renewed. -/
def charge (now : T) (p : ℕ) (a : Account T) : Account T :=
  match a.bannedUntil with
  | some _ => a
  | none =>
    { a with
      points := a.points + p
      bannedUntil := if R.limit ≤ a.points + p then some (now + R.period) else none }

/-- Collect points. -/
def collect (now : T) (p : ℕ) (a : Option (Account T)) : Account T :=
  (renew R now a).charge R now p

/-- Take the points and the ban away. -/
def pardon (a : Account T) : Account T := ⟨0, a.since, none⟩

/-- A move at time `now`. -/
def move (a : Option (Account T)) : T × Move → Option (Account T)
  | (now, .collect p) => some (collect R now p a)
  | (_, .pardon) => a.map pardon

/-- The account after a list of moves. -/
def after (a : Option (Account T)) (ms : List (T × Move)) : Option (Account T) :=
  ms.foldl (move R) a

/-- The points of a move. -/
def Move.points : Move → ℕ
  | .collect p => p
  | .pardon => 0

variable {R} {a : Account T} {b : Option (Account T)} {now u : T} {p : ℕ}

/-! ### Renewal -/

theorem over_of_banned (h : a.bannedUntil = some u) : a.Over R now ↔ u < now := by
  rw [Over, h]

theorem over_of_not_banned (h : a.bannedUntil = none) :
    a.Over R now ↔ a.since + R.window < now := by
  rw [Over, h]

theorem renew_of_over (h : a.Over R now) : renew R now (some a) = fresh now := if_pos h

theorem renew_of_not_over (h : ¬ a.Over R now) : renew R now (some a) = a := if_neg h

/-! ### Collecting -/

omit [LinearOrder T] in
theorem charge_of_banned (h : a.bannedUntil = some u) : a.charge R now p = a := by
  rw [charge, h]

omit [LinearOrder T] in
theorem charge_of_not_banned (h : a.bannedUntil = none) :
    a.charge R now p = ⟨a.points + p, a.since,
      if R.limit ≤ a.points + p then some (now + R.period) else none⟩ := by
  rw [charge, h]

/-- During a ban nothing changes. -/
theorem collect_of_banned (h : a.bannedUntil = some u) (hu : now ≤ u) :
    collect R now p (some a) = a := by
  have hover : ¬ a.Over R now := fun ho => not_lt.2 hu ((over_of_banned h).1 ho)
  rw [collect, renew_of_not_over hover, charge_of_banned h]

/-- **The points that reach the limit start a ban.** -/
theorem collect_reaches (h : (renew R now b).bannedUntil = none)
    (hp : R.limit ≤ (renew R now b).points + p) :
    (collect R now p b).bannedUntil = some (now + R.period) := by
  rw [collect, charge_of_not_banned h]
  exact if_pos hp

/-- A ban is one that has not ended, or these points start it. -/
theorem bannedUntil_collect (h : (collect R now p b).bannedUntil = some u) :
    now ≤ u ∨ (renew R now b).bannedUntil = none ∧ R.limit ≤ (renew R now b).points + p ∧
      u = now + R.period := by
  unfold collect at h
  cases hb : (renew R now b).bannedUntil with
  | none =>
    rw [charge_of_not_banned hb] at h
    dsimp only at h
    split at h
    · rename_i hp
      exact .inr ⟨rfl, hp, (Option.some.inj h).symm⟩
    · cases h
  | some v =>
    rw [charge_of_banned hb, hb] at h
    obtain rfl := Option.some.inj h
    cases b with
    | none => cases hb
    | some a =>
      by_cases ho : a.Over R now
      · rw [renew_of_over ho] at hb
        cases hb
      · rw [renew_of_not_over ho] at hb
        exact .inl (not_lt.1 fun hlt => ho ((over_of_banned hb).2 hlt))

/-! ### Lists of moves -/

theorem after_append (a : Option (Account T)) (ms ns : List (T × Move)) :
    after R a (ms ++ ns) = after R (after R a ms) ns := List.foldl_append ..

/-- **A ban is not extended.**  Moves before its end that are no pardons leave the account as it
is. -/
theorem after_of_banned (h : a.bannedUntil = some u) {ms : List (T × Move)}
    (hms : ∀ m ∈ ms, m.1 ≤ u ∧ m.2 ≠ .pardon) : after R (some a) ms = some a := by
  induction ms with
  | nil => rfl
  | cons m ms ih =>
    obtain ⟨now, move⟩ := m
    obtain ⟨hm, hrest⟩ := List.forall_mem_cons.1 hms
    cases move with
    | pardon => exact absurd rfl hm.2
    | collect p =>
      have hsame : Account.move R (some a) (now, .collect p) = some a :=
        congrArg some (collect_of_banned h hm.1)
      rw [after, List.foldl_cons, hsame]
      exact ih hrest

/-- **The points of one window add up** as long as they stay below the limit. -/
theorem after_below (h : a.bannedUntil = none) {ms : List (T × Move)}
    (hms : ∀ m ∈ ms, m.1 ≤ a.since + R.window ∧ m.2 ≠ .pardon)
    (hp : a.points + (ms.map fun m => m.2.points).sum < R.limit) :
    after R (some a) ms =
      some ⟨a.points + (ms.map fun m => m.2.points).sum, a.since, none⟩ := by
  induction ms generalizing a with
  | nil =>
    obtain ⟨points, since, bannedUntil⟩ := a
    obtain rfl : bannedUntil = none := h
    rfl
  | cons m ms ih =>
    obtain ⟨now, move⟩ := m
    obtain ⟨hm, hrest⟩ := List.forall_mem_cons.1 hms
    cases move with
    | pardon => exact absurd rfl hm.2
    | collect p =>
      rw [List.map_cons, List.sum_cons, Move.points, ← Nat.add_assoc] at hp ⊢
      have hover : ¬ a.Over R now := fun ho => not_lt.2 hm.1 ((over_of_not_banned h).1 ho)
      have hlow : ¬ R.limit ≤ a.points + p := by omega
      have hone : Account.move R (some a) (now, .collect p) =
          some ⟨a.points + p, a.since, none⟩ := by
        rw [Account.move, collect, renew_of_not_over hover, charge_of_not_banned h,
          if_neg hlow]
      rw [after, List.foldl_cons, hone]
      exact ih rfl hrest hp

/-- **After a ban the points count anew**, and again reach the limit. -/
theorem collect_after_ban (h : a.bannedUntil = some u) {ms : List (T × Move)}
    (hlast : u < now ∧ ∀ m ∈ ms, now ≤ m.1 + R.window)
    (hms : ∀ m ∈ ms, u < m.1 ∧ m.2 ≠ .pardon ∧ ∀ m' ∈ ms, m.1 ≤ m'.1 + R.window)
    (hlow : (ms.map fun m => m.2.points).sum < R.limit)
    (hp : R.limit ≤ (ms.map fun m => m.2.points).sum + p) :
    (collect R now p (after R (some a) ms)).bannedUntil = some (now + R.period) := by
  -- the first move after the ban opens a fresh account
  cases ms with
  | nil =>
    have hrenew : renew R now (after R (some a) []) = fresh now :=
      renew_of_over ((over_of_banned h).2 hlast.1)
    refine collect_reaches (by rw [hrenew]; rfl) ?_
    rw [hrenew]
    exact hp
  | cons m ms =>
    obtain ⟨start, move⟩ := m
    obtain ⟨hm, hrest⟩ := List.forall_mem_cons.1 hms
    cases move with
    | pardon => exact absurd rfl hm.2.1
    | collect q =>
      -- the first points open an account, to which the others are added
      rw [List.map_cons, List.sum_cons, Move.points] at hlow hp
      have hfirst : Account.move R (some a) (start, .collect q) = some ⟨q, start, none⟩ := by
        have hq : ¬ R.limit ≤ 0 + q := by omega
        rw [Account.move, collect, renew_of_over ((over_of_banned h).2 hm.1),
          charge_of_not_banned rfl, fresh, if_neg hq, Nat.zero_add]
      have hafter : after R (some a) ((start, .collect q) :: ms) =
          some ⟨q + (ms.map fun m => m.2.points).sum, start, none⟩ := by
        rw [after, List.foldl_cons, hfirst]
        refine after_below rfl (fun m' hm' => ⟨?_, (hrest m' hm').2.1⟩) hlow
        exact (hrest m' hm').2.2 _ List.mem_cons_self
      rw [hafter]
      have hover : ¬ Over R now ⟨q + (ms.map fun m => m.2.points).sum, start, none⟩ :=
        fun ho => not_lt.2 (hlast.2 _ List.mem_cons_self) ((over_of_not_banned rfl).1 ho)
      refine collect_reaches ?_ ?_
      · rw [renew_of_not_over hover]
      · rw [renew_of_not_over hover]
        exact hp

end Account

end Ocserv
