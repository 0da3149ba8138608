import Ocserv.Worker.Mtu
import Mathlib.Logic.Function.Iterate

/-!
# Worker: DTLS MTU discovery

`mtu_not_ok` after a packet that was too large and `mtu_ok` after one that went through search
for the largest payload of the path: first down in steps of two thirds, then by bisection.

* `Mtu.Discovers` : what the search promises for a path of payload `path`.
* `Mtu.discovers_iff` : when it keeps the promise.
-/

namespace Ocserv

namespace Worker

namespace Mtu

/-- A packet of the current size is tried on a path whose largest deliverable payload is `path`.
`none` once the UDP channel is disabled. -/
def probe (min path : ℕ) (s : Mtu) : Option Mtu :=
  if path < s.connMtu then (s.mtuNotOk min).toOption else some s.mtuOk

/-- `n` packets in a row. -/
def probes (min path : ℕ) : ℕ → Mtu → Option Mtu
  | 0, s => some s
  | n + 1, s => (s.probe min path).bind fun s => probes min path n s

/-- The state after the DTLS handshake: `mtu_discovery_init` and `mtu_set`. -/
def discoveryStart (mtu : ℕ) : Mtu := ⟨mtu, mtu, mtu⟩

/-- The search that starts at `mtu` works on the path: the UDP channel is never disabled, the
current MTU stays between the last good and the last bad one, and it gets to `path`. -/
def Discovers (min path mtu : ℕ) : Prop :=
  (∀ n, ∃ s, (discoveryStart mtu).probes min path n = some s ∧
    s.lastGoodMtu ≤ s.connMtu ∧ s.connMtu ≤ s.lastBadMtu) ∧
  ∃ n s, (discoveryStart mtu).probes min path n = some s ∧ s.connMtu = path

/-- One step down of `mtu_not_ok`. -/
def twoThirds (mtu : ℕ) : ℕ := 2 * mtu / 3

/-- The condition for it: if the search comes down from an MTU `n` that is too large to the
minimum itself, then the middle between the minimum and `n` is not too large (`mtu_not_ok` gives
up when the last good MTU is the minimum). -/
def FirstMiddleFits (min path mtu : ℕ) : Prop :=
  ∀ k, path < twoThirds^[k] mtu → twoThirds (twoThirds^[k] mtu) ≤ min →
    (min + twoThirds^[k] mtu) / 2 ≤ path

/-! ### One probe -/

section Probe

variable {min path : ℕ} {s : Mtu}

theorem probe_of_le (h : s.connMtu ≤ path) : s.probe min path = some s.mtuOk :=
  if_neg (not_lt.2 h)

theorem probe_of_lt (h : path < s.connMtu) : s.probe min path = (s.mtuNotOk min).toOption :=
  if_pos h

/-- The UDP channel is disabled when the last good MTU is the minimum. -/
theorem mtuNotOk_of_eq (h : s.lastGoodMtu = min) : (s.mtuNotOk min).toOption = none := by
  simp only [mtuNotOk, if_pos h]
  rfl

/-- On the way down, the next MTU is two thirds of this one. -/
theorem mtuNotOk_of_le (h : s.lastGoodMtu ≠ min) (hle : s.connMtu ≤ s.lastGoodMtu)
    (hsmall : 2 * s.connMtu < 2 ^ 32) :
    (s.mtuNotOk min).toOption =
      some ⟨max (twoThirds s.connMtu) min, max (twoThirds s.connMtu) min, s.connMtu⟩ := by
  simp only [mtuNotOk, if_neg h, ge_iff_le, if_pos hle, mtuSet, Nat.mod_eq_of_lt hsmall]
  rfl

/-- In the bisection, the search falls back to the last good MTU. -/
theorem mtuNotOk_of_lt (h : s.lastGoodMtu ≠ min) (hlt : s.lastGoodMtu < s.connMtu) :
    (s.mtuNotOk min).toOption = some ⟨s.lastGoodMtu, s.lastGoodMtu, s.connMtu⟩ := by
  simp only [mtuNotOk, if_neg h, ge_iff_le, if_neg (not_le.2 hlt), mtuSet]
  rfl

/-- `mtu_ok` goes to the middle, unless nothing is left in between. -/
theorem mtuOk_eq (hlt : s.connMtu < s.lastBadMtu) (hbad : s.lastBadMtu < 2 ^ 31) :
    s.mtuOk = if s.lastBadMtu = s.connMtu + 1 then s
      else ⟨(s.connMtu + s.lastBadMtu) / 2, s.connMtu, s.lastBadMtu⟩ := by
  have hsucc : (s.connMtu + 1) % 2 ^ 32 = s.connMtu + 1 := Nat.mod_eq_of_lt (by omega)
  have hsum : (s.connMtu + s.lastBadMtu) % 2 ^ 32 = s.connMtu + s.lastBadMtu :=
    Nat.mod_eq_of_lt (by omega)
  simp only [mtuOk, hsucc, hsum, mtuSet, hlt.ne', or_false]

end Probe

/-! ### The invariant of the search -/

/-- The search is on its way down: every MTU so far was too large, or it has just arrived at one
that is not. -/
structure Descent (min path : ℕ) (s : Mtu) : Prop where
  good_eq : s.lastGoodMtu = s.connMtu
  conn_gt : path < s.connMtu
  conn_le : s.connMtu ≤ s.lastBadMtu
  conn_small : 2 * s.connMtu < 2 ^ 32
  fits : FirstMiddleFits min path s.connMtu

/-- The bisection: `path` is between the last good and the last bad MTU.  When the last good MTU
is the minimum, what is tried next is not too large. -/
structure Bisection (min path : ℕ) (s : Mtu) : Prop where
  min_le : min ≤ s.lastGoodMtu
  good_le : s.lastGoodMtu ≤ path
  bad_gt : path < s.lastBadMtu
  good_le_conn : s.lastGoodMtu ≤ s.connMtu
  conn_lt : s.connMtu < s.lastBadMtu
  bad_small : s.lastBadMtu < 2 ^ 31
  next_fits : s.lastGoodMtu = min → s.connMtu ≤ path ∧
    (s.connMtu = min → (min + s.lastBadMtu) / 2 ≤ path)

/-- The search is under way, or it started at `path` itself. -/
def Searching (min path : ℕ) (s : Mtu) : Prop :=
  Descent min path s ∨ Bisection min path s ∨ s = discoveryStart path

theorem FirstMiddleFits.tail {min path mtu : ℕ} (h : FirstMiddleFits min path mtu) :
    FirstMiddleFits min path (twoThirds mtu) := by
  intro k
  have hk := h (k + 1)
  rwa [Function.iterate_succ_apply] at hk

section Search

variable {min path : ℕ} {s : Mtu}

theorem twoThirds_lt {n : ℕ} (h : 0 < n) : twoThirds n < n := by
  unfold twoThirds
  omega

/-- **A step down** goes on, or arrives at an MTU from which the bisection starts. -/
theorem Descent.probe (hmin : min ≤ path) (h : Descent min path s) :
    ∃ s', s.probe min path = some s' ∧
      ((Descent min path s' ∧ s'.connMtu < s.connMtu) ∨ Bisection min path s') := by
  obtain ⟨hgood, hgt, hle, hsmall, hfits⟩ := h
  have hne : s.lastGoodMtu ≠ min := by omega
  rw [probe_of_lt hgt, mtuNotOk_of_le hne hgood.ge hsmall]
  refine ⟨_, rfl, ?_⟩
  have hlt : twoThirds s.connMtu < s.connMtu := twoThirds_lt (by omega)
  -- the next MTU is too large again, or it is the good end of an interval
  by_cases hnext : path < twoThirds s.connMtu
  · have hmax : max (twoThirds s.connMtu) min = twoThirds s.connMtu := by omega
    rw [hmax]
    exact .inl ⟨⟨rfl, hnext, hlt.le, by dsimp only; omega, hfits.tail⟩, hlt⟩
  · refine .inr ⟨?_, ?_, hgt, le_rfl, ?_, by dsimp only; omega, ?_⟩
    · exact Nat.le_max_right _ _
    · exact Nat.max_le.2 ⟨not_lt.1 hnext, hmin⟩
    · exact Nat.max_lt.2 ⟨hlt, hmin.trans_lt hgt⟩
    · intro heq
      dsimp only at heq ⊢
      rw [heq]
      exact ⟨hmin, fun _ => hfits 0 hgt (by rw [Function.iterate_zero_apply]; omega)⟩

/-- **A step of the bisection** stays in it; it finds `path`, or the interval shrinks, or the
current MTU comes closer to the last bad one. -/
theorem Bisection.probe (h : Bisection min path s) :
    ∃ s', s.probe min path = some s' ∧ Bisection min path s' ∧
      (s.connMtu = path ∨ s'.lastBadMtu - s'.lastGoodMtu < s.lastBadMtu - s.lastGoodMtu ∨
        (s'.lastBadMtu - s'.lastGoodMtu ≤ s.lastBadMtu - s.lastGoodMtu ∧
          s'.lastBadMtu - s'.connMtu < s.lastBadMtu - s.connMtu)) := by
  obtain ⟨hmin, hgood, hbad, hgc, hcb, hsmall, hnext⟩ := h
  by_cases hle : s.connMtu ≤ path
  · rw [probe_of_le hle, mtuOk_eq hcb hsmall]
    refine ⟨_, rfl, ?_⟩
    -- an interval of width one ends the search at `path`
    by_cases hone : s.lastBadMtu = s.connMtu + 1
    · rw [if_pos hone]
      exact ⟨⟨hmin, hgood, hbad, hgc, hcb, hsmall, hnext⟩, .inl (by omega)⟩
    · rw [if_neg hone]
      refine ⟨⟨?_, hle, hbad, ?_, ?_, hsmall, ?_⟩, .inr (.inr ⟨?_, ?_⟩)⟩ <;> dsimp only
      · omega
      · omega
      · omega
      · intro heq
        have hgm : s.lastGoodMtu = min := by omega
        have hfit := (hnext hgm).2 heq
        rw [heq]
        exact ⟨hfit, by omega⟩
      · omega
      · omega
  · have hgt : path < s.connMtu := not_le.1 hle
    -- `mtu_not_ok` would give up if the last good MTU were the minimum
    have hne : s.lastGoodMtu ≠ min := fun heq => hle (hnext heq).1
    rw [probe_of_lt hgt, mtuNotOk_of_lt hne (by omega)]
    refine ⟨_, rfl, ⟨hmin, hgood, hgt, le_rfl, ?_, ?_, ?_⟩, .inr (.inl ?_)⟩ <;> dsimp only
    · omega
    · omega
    · exact fun heq => absurd heq hne
    · omega

theorem Searching.bounds (h : Searching min path s) :
    s.lastGoodMtu ≤ s.connMtu ∧ s.connMtu ≤ s.lastBadMtu := by
  rcases h with h | h | rfl
  · exact ⟨h.good_eq.le, h.conn_le⟩
  · exact ⟨h.good_le_conn, h.conn_lt.le⟩
  · exact ⟨le_rfl, le_rfl⟩

theorem mtuOk_discoveryStart (mtu : ℕ) : (discoveryStart mtu).mtuOk = discoveryStart mtu :=
  if_pos (.inr rfl)

/-- **One probe** keeps the search under way. -/
theorem Searching.probe (hmin : min ≤ path) (h : Searching min path s) :
    ∃ s', s.probe min path = some s' ∧ Searching min path s' := by
  rcases h with h | h | rfl
  · obtain ⟨s', hs', ⟨hd, -⟩ | hb⟩ := h.probe hmin
    · exact ⟨s', hs', .inl hd⟩
    · exact ⟨s', hs', .inr (.inl hb)⟩
  · obtain ⟨s', hs', hb, -⟩ := h.probe
    exact ⟨s', hs', .inr (.inl hb)⟩
  · refine ⟨_, probe_of_le le_rfl, .inr (.inr (mtuOk_discoveryStart path))⟩

/-- **The search is never given up.** -/
theorem Searching.probes (hmin : min ≤ path) (h : Searching min path s) (n : ℕ) :
    ∃ s', s.probes min path n = some s' ∧ Searching min path s' := by
  induction n generalizing s with
  | zero => exact ⟨s, rfl, h⟩
  | succ n ih =>
    obtain ⟨t, ht, htS⟩ := h.probe hmin
    obtain ⟨s', hs', hS⟩ := ih htS
    exact ⟨s', by rw [Mtu.probes, ht]; exact hs', hS⟩

theorem probes_succ {t : Mtu} {n : ℕ} (h : s.probe min path = some t) :
    s.probes min path (n + 1) = t.probes min path n := by
  rw [probes, h]
  rfl

/-- The bisection finds `path`: by induction on the width of the interval, and for one width on
the distance from the last bad MTU. -/
theorem Bisection.finds (width dist : ℕ) : ∀ s, Bisection min path s →
    s.lastBadMtu - s.lastGoodMtu ≤ width → s.lastBadMtu - s.connMtu ≤ dist →
    ∃ n s', s.probes min path n = some s' ∧ s'.connMtu = path := by
  induction width generalizing dist with
  | zero =>
    intro s hb hw
    have := hb.good_le
    have := hb.bad_gt
    omega
  | succ width ihw =>
    induction dist with
    | zero =>
      intro s hb _ hd
      have := hb.conn_lt
      omega
    | succ dist ihd =>
      intro s hb hw hd
      obtain ⟨t, ht, htb, hpath | hshrink | ⟨hsame, hcloser⟩⟩ := hb.probe
      · exact ⟨0, s, rfl, hpath⟩
      · obtain ⟨n, s', hs', hp⟩ := ihw _ t htb (by omega) le_rfl
        exact ⟨n + 1, s', by rw [probes_succ ht]; exact hs', hp⟩
      · obtain ⟨n, s', hs', hp⟩ := ihd t htb (by omega) (by omega)
        exact ⟨n + 1, s', by rw [probes_succ ht]; exact hs', hp⟩

/-- The way down ends: by induction on the current MTU. -/
theorem Descent.finds (hmin : min ≤ path) (mtu : ℕ) : ∀ s, Descent min path s →
    s.connMtu ≤ mtu → ∃ n s', s.probes min path n = some s' ∧ s'.connMtu = path := by
  induction mtu with
  | zero =>
    intro s hd hle
    have := hd.conn_gt
    omega
  | succ mtu ih =>
    intro s hd hle
    obtain ⟨t, ht, ⟨htd, hlt⟩ | htb⟩ := hd.probe hmin
    · obtain ⟨n, s', hs', hp⟩ := ih t htd (by omega)
      exact ⟨n + 1, s', by rw [probes_succ ht]; exact hs', hp⟩
    · obtain ⟨n, s', hs', hp⟩ := htb.finds _ _ t le_rfl le_rfl
      exact ⟨n + 1, s', by rw [probes_succ ht]; exact hs', hp⟩

/-! ### Where the search gives up -/

theorem probes_add {t : Mtu} {m : ℕ} (n : ℕ) (h : s.probes min path m = some t) :
    s.probes min path (m + n) = t.probes min path n := by
  induction m generalizing s with
  | zero =>
    cases h
    rw [Nat.zero_add]
  | succ m ih =>
    rw [probes, Option.bind_eq_some_iff] at h
    obtain ⟨r, hr, hrt⟩ := h
    rw [Nat.succ_add, probes_succ hr]
    exact ih hrt

theorem iterate_twoThirds_le (n k : ℕ) : twoThirds^[k] n ≤ n := by
  induction k generalizing n with
  | zero => exact le_rfl
  | succ k ih =>
    rw [Function.iterate_succ_apply]
    refine (ih _).trans ?_
    unfold twoThirds
    omega

/-- While the MTUs are too large, the search goes down in steps of two thirds. -/
theorem probes_descent (hmin : min ≤ path) (k : ℕ) (hgood : s.lastGoodMtu = s.connMtu)
    (hsmall : 2 * s.connMtu < 2 ^ 32) (hk : path < twoThirds^[k] s.connMtu) :
    ∃ bad, s.probes min path k =
      some ⟨twoThirds^[k] s.connMtu, twoThirds^[k] s.connMtu, bad⟩ := by
  induction k generalizing s with
  | zero =>
    obtain ⟨conn, good, bad⟩ := s
    cases hgood
    exact ⟨bad, rfl⟩
  | succ k ih =>
    rw [Function.iterate_succ_apply] at hk ⊢
    have hnext : path < twoThirds s.connMtu := hk.trans_le (iterate_twoThirds_le _ k)
    have hlt : twoThirds s.connMtu ≤ s.connMtu := iterate_twoThirds_le s.connMtu 1
    have hmax : max (twoThirds s.connMtu) min = twoThirds s.connMtu := by omega
    have hstep : s.probe min path =
        some ⟨twoThirds s.connMtu, twoThirds s.connMtu, s.connMtu⟩ := by
      rw [probe_of_lt (hnext.trans_le hlt), mtuNotOk_of_le (by omega) hgood.ge hsmall, hmax]
    rw [probes_succ hstep]
    exact ih rfl (by dsimp only; omega) hk

/-- From an MTU that is too large, with the minimum as the next step and a middle that is too
large, three probes disable the UDP channel. -/
theorem probes_giveUp {n bad : ℕ} (hmin : min ≤ path) (hn : path < n) (hsmall : 2 * n < 2 ^ 32)
    (hdown : twoThirds n ≤ min) (hmid : path < (min + n) / 2) :
    probes min path 3 ⟨n, n, bad⟩ = none := by
  have hfirst : probe min path ⟨n, n, bad⟩ = some ⟨min, min, n⟩ := by
    rw [probe_of_lt hn, mtuNotOk_of_le (by dsimp only; omega) le_rfl hsmall,
      Nat.max_eq_right hdown]
  have hsecond : probe min path ⟨min, min, n⟩ = some ⟨(min + n) / 2, min, n⟩ := by
    rw [probe_of_le hmin, mtuOk_eq (by dsimp only; omega) (by dsimp only; omega),
      if_neg (by dsimp only; omega)]
  have hthird : probe min path ⟨(min + n) / 2, min, n⟩ = none := by
    rw [probe_of_lt hmid]
    exact mtuNotOk_of_eq rfl
  rw [probes_succ hfirst, probes_succ hsecond, probes, hthird]
  rfl

end Search

/-! ### The result -/

/-- **When MTU discovery works.**  On a path whose payload lies between the minimum and the
initial MTU, the search finds it and never disables the UDP channel if and only if the first
middle is not too large after a descent to the minimum.  (`connect_handler` starts with an MTU
smaller than its buffer, so that no sum wraps.) -/
theorem discovers_iff (ipv6 : Bool) (path mtu : ℕ) (hmin : minMtu ipv6 ≤ path)
    (hpath : path ≤ mtu) (hmtu : mtu < 2 ^ 31) :
    Discovers (minMtu ipv6) path mtu ↔ FirstMiddleFits (minMtu ipv6) path mtu := by
  have hsmall : 2 * mtu < 2 ^ 32 := by omega
  constructor
  · rintro ⟨hnever, -⟩ k hk hdown
    by_contra hmid
    obtain ⟨bad, hbad⟩ := probes_descent (s := discoveryStart mtu) hmin k rfl hsmall hk
    obtain ⟨s, hs, -⟩ := hnever (k + 3)
    have hle := iterate_twoThirds_le mtu k
    rw [probes_add 3 hbad] at hs
    have hnone : probes (minMtu ipv6) path 3 ⟨twoThirds^[k] mtu, twoThirds^[k] mtu, bad⟩ = none :=
      probes_giveUp hmin hk (by omega) hdown (not_le.1 hmid)
    cases hs.symm.trans hnone
  · intro hfits
    have hstart : Searching (minMtu ipv6) path (discoveryStart mtu) := by
      by_cases heq : mtu = path
      · exact .inr (.inr (by rw [heq]))
      · exact .inl ⟨rfl, lt_of_le_of_ne hpath (Ne.symm heq), le_rfl, hsmall, hfits⟩
    refine ⟨fun n => ?_, ?_⟩
    · obtain ⟨s, hs, hS⟩ := hstart.probes hmin n
      exact ⟨s, hs, hS.bounds⟩
    · rcases hstart with hd | hb | heq
      · exact hd.finds hmin _ _ le_rfl
      · exact hb.finds _ _ _ le_rfl le_rfl
      · exact ⟨0, _, rfl, congrArg connMtu heq⟩

/-- Between two bounds, as for an IPv4 client with an MTU of 1400 and a path of 1300 bytes. -/
theorem discovers_ipv4_1300 : Discovers (minMtu false) 1300 1400 := by
  refine (discovers_iff false 1300 1400 (by decide) (by decide) (by decide)).2 ?_
  intro k hk hdown
  -- two thirds of an MTU above 1300 are above the minimum
  exfalso
  have hmin : minMtu false = 257 := rfl
  rw [hmin] at hdown
  unfold twoThirds at hdown
  change 1300 < (fun n => 2 * n / 3)^[k] 1400 at hk
  change 2 * (fun n => 2 * n / 3)^[k] 1400 / 3 ≤ 257 at hdown
  omega

/-- An IPv6 client with an MTU of 1400 on a path of 1300 bytes: 1400 is too large, 1281 (the
minimum) goes through, 1340 is too large, and the UDP channel is disabled. -/
theorem not_discovers_ipv6_1300 : ¬ Discovers (minMtu true) 1300 1400 := by
  rintro ⟨hnever, -⟩
  obtain ⟨s, hs, -⟩ := hnever 3
  have hnone : (discoveryStart 1400).probes (minMtu true) 1300 3 = none := by decide
  rw [hnone] at hs
  cases hs

end Mtu

end Worker

end Ocserv
