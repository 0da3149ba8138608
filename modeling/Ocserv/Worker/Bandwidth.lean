import Mathlib.Tactic.Linarith
import Mathlib.Data.List.Pairwise
import Ocserv.Machine

/-!
# Worker: the bandwidth limit

`bandwidth_update` of `src/worker-bandwidth.h` and `_bandwidth_update` of
`src/worker-bandwidth.c` decide for every packet whether it passes.  Time is cut into counts of at
least 500 ms; a count has a budget in kilobytes, and what the last count left over is added to the
next one.

* `Bounded` : between any two packets of a run no more passes than the limit allows in that time
  and a burst that is the same for all runs.
* `Fair` : the packet that opens a count is within its budget, and what the accounts of the count
  before leave out is paid for by its length.
* `bandwidth_iff` : the limit is kept in all runs only when there is none; in runs whose steps are
  `Fair` it is kept.

What the accounts leave out: the bytes of a count are divided by 1000 and scaled to 500 ms, both
rounded down, and the packet that opens a count passes whatever its size.
-/

namespace Ocserv

namespace Worker

namespace Bandwidth

/-- `struct timespec`. -/
structure Timespec where
  tvSec : ℕ
  tvNsec : ℕ
  normal : tvNsec < 10 ^ 9

/-- The milliseconds `timespec_sub_ms` reads off a time. -/
def Timespec.ms (t : Timespec) : ℕ := t.tvSec * 1000 + t.tvNsec / (1000 * 1000)

def Timespec.ns (t : Timespec) : ℕ := t.tvSec * 10 ^ 9 + t.tvNsec

/-- The time of a number of milliseconds. -/
def Timespec.ofMs (ms : ℕ) : Timespec := ⟨ms / 1000, ms % 1000 * (1000 * 1000), by omega⟩

/-- `timespec_sub_ms`: the difference is returned as an `unsigned int`. -/
def timespecSubMs (a b : Timespec) : UInt32 := UInt32.ofInt (a.ms - b.ms)

/-- `COUNT_UPDATE_MS`. -/
def countUpdateMs : UInt64 := 500

/-- `bandwidth_st`. -/
structure BandwidthSt where
  countStart : Timespec
  transferredBytes : UInt64
  allowedKb : UInt64
  allowedKbPerCount : UInt64
  kbPerSec : UInt64

/-- `bandwidth_init`. -/
def bandwidthInit (kbPerSec : UInt64) : BandwidthSt where
  countStart := ⟨0, 0, by decide⟩
  transferredBytes := 0
  allowedKb := 0
  allowedKbPerCount := kbPerSec * countUpdateMs / 1000
  kbPerSec := kbPerSec

/-- `_bandwidth_update`; `ssize_t` is `Int64`, and `MIN` compares after the conversion to
`size_t`. -/
def _bandwidthUpdate (b : BandwidthSt) (bytes : UInt64) (now : Timespec) : Bool × BandwidthSt :=
  let diff := timespecSubMs now b.countStart
  if diff.toUInt64 ≥ countUpdateMs then
    let transferredKb := b.transferredBytes / 1000
    let transferredKb := transferredKb * countUpdateMs / diff.toUInt64
    let remain := (b.allowedKb - transferredKb).toInt64
    let t := (b.allowedKbPerCount + remain.toUInt64).toInt64
    (true, { b with
      countStart := now
      allowedKb := if t.toUInt64 < b.kbPerSec then t.toUInt64 else b.kbPerSec
      transferredBytes := bytes })
  else
    let sum := b.transferredBytes + bytes
    if sum > b.allowedKb * 1000 then (false, b) else (true, { b with transferredBytes := sum })

/-- `bandwidth_update`. -/
def bandwidthUpdate (b : BandwidthSt) (bytes : UInt64) (now : Timespec) : Bool × BandwidthSt :=
  if b.kbPerSec = 0 then (true, b) else _bandwidthUpdate b bytes now

/-! ### Runs -/

/-- A packet and the time it is given to the limiter. -/
structure Packet where
  bytes : UInt64
  now : Timespec

/-- The limiter, given one packet after the other. -/
def machine : Machine BandwidthSt Packet where
  step b p := some (bandwidthUpdate b p.bytes p.now).2

/-- The limiter after the packets. -/
def after : BandwidthSt → List Packet → BandwidthSt
  | b, [] => b
  | b, p :: ps => after (bandwidthUpdate b p.bytes p.now).2 ps

/-- The bytes of the packets that pass. -/
def acceptedBytes : BandwidthSt → List Packet → ℕ
  | _, [] => 0
  | b, p :: ps =>
    (if (bandwidthUpdate b p.bytes p.now).1 then p.bytes.toNat else 0) +
      acceptedBytes (bandwidthUpdate b p.bytes p.now).2 ps

/-- The times do not decrease. -/
def Ordered (ps : List Packet) : Prop := ps.Pairwise fun p q => p.now.ns ≤ q.now.ns

/-- The length of the interval between the first and the last of the packets, in nanoseconds. -/
def duration (p : Packet) (ps : List Packet) : ℕ :=
  ((p :: ps).getLast (List.cons_ne_nil p ps)).now.ns - p.now.ns

/-- In the interval from `p` on no more than `1000 * kbPerSec` bytes a second pass, and `burst`
bytes more. -/
def WithinRate (kbPerSec burst : ℕ) (b : BandwidthSt) (p : Packet) (ps : List Packet) : Prop :=
  acceptedBytes b (p :: ps) * 10 ^ 6 ≤ kbPerSec * duration p ps + burst * 10 ^ 6

/-- Every interval of every run is within the rate, with one burst for all of them. -/
def Bounded (kbPerSec : UInt64) : Prop :=
  ∃ burst, ∀ earlier p ps, Ordered (earlier ++ p :: ps) →
    WithinRate kbPerSec.toNat burst (after (bandwidthInit kbPerSec) earlier) p ps

/-- The packet opens a count. -/
def Opens (b : BandwidthSt) (p : Packet) : Prop :=
  500 ≤ (timespecSubMs p.now b.countStart).toNat

instance (b : BandwidthSt) (p : Packet) : Decidable (Opens b p) :=
  inferInstanceAs (Decidable (_ ≤ _))

/-- The kilobytes the accounts say the count has transferred, scaled to 500 ms. -/
def transferredKb (b : BandwidthSt) (p : Packet) : ℕ :=
  b.transferredBytes.toNat / 1000 * 500 / (timespecSubMs p.now b.countStart).toNat

/-- No subtraction and no multiplication of the step wraps.  That `timespec_sub_ms` returns the
milliseconds since the start of the count as an `unsigned int` is not among them: after 2³² ms the
count goes on. -/
def NoWrap (b : BandwidthSt) (p : Packet) : Prop :=
  if Opens b p then
    b.transferredBytes.toNat / 1000 * 500 < 2 ^ 64 ∧ transferredKb b p ≤ b.allowedKb.toNat
  else b.allowedKb.toNat * 1000 < 2 ^ 64

/-- No subtraction and no multiplication wraps, in no run. -/
def NeverWraps (kbPerSec : UInt64) : Prop :=
  kbPerSec.toNat * 500 < 2 ^ 64 ∧
    ∀ ps, Ordered ps → machine.Meets NoWrap (bandwidthInit kbPerSec) ps

/-- What a bandwidth limit promises. -/
structure Limited (kbPerSec : UInt64) : Prop where
  bounded : 0 < kbPerSec → Bounded kbPerSec
  neverWraps : 0 < kbPerSec → NeverWraps kbPerSec
  unlimited : kbPerSec = 0 → ∀ ps, machine.Meets
    (fun b p => (bandwidthUpdate b p.bytes p.now).1 = true) (bandwidthInit kbPerSec) ps

/-- The budget of the count the packet opens, in kilobytes. -/
def nextAllowedKb (b : BandwidthSt) (p : Packet) : ℕ :=
  min (b.kbPerSec.toNat * 500 / 1000 + (b.allowedKb.toNat - transferredKb b p)) b.kbPerSec.toNat

/-- A packet that opens a count is within the new budget, and the bytes of the closed count that
its accounts leave out are no more than the limit allows in the time it lasted beyond 500 ms (or
it lasted a second, in which the whole budget comes back).  Any other packet is of a size that
does not overflow the sum. -/
def Fair (b : BandwidthSt) (p : Packet) : Prop :=
  let diff := (timespecSubMs p.now b.countStart).toNat
  if Opens b p then
    p.bytes.toNat ≤ 1000 * nextAllowedKb b p ∧
      (1000 ≤ diff ∨
        b.transferredBytes.toNat ≤
          1000 * transferredKb b p + b.kbPerSec.toNat * (diff - 500))
  else b.transferredBytes.toNat + p.bytes.toNat < 2 ^ 64

instance (b : BandwidthSt) (p : Packet) : Decidable (Fair b p) :=
  inferInstanceAs (Decidable (if Opens b p then _ ∧ (_ ∨ _) else _))

/-! ### One step -/

variable {kb : ℕ} {b : BandwidthSt} {p : Packet} {ps : List Packet}

@[simp] theorem Timespec.ms_ofMs (n : ℕ) : (Timespec.ofMs n).ms = n := by
  simp only [Timespec.ms, Timespec.ofMs]
  omega

@[simp] theorem Timespec.ns_ofMs (n : ℕ) : (Timespec.ofMs n).ns = n * 10 ^ 6 := by
  simp only [Timespec.ns, Timespec.ofMs]
  omega

theorem Timespec.ms_eq (t : Timespec) : t.ms = t.ns / 10 ^ 6 := by
  have := t.normal
  simp only [Timespec.ms, Timespec.ns]
  omega

theorem Timespec.ms_mono {s t : Timespec} (h : s.ns ≤ t.ns) : s.ms ≤ t.ms := by
  rw [Timespec.ms_eq, Timespec.ms_eq]
  exact Nat.div_le_div_right h

theorem toNat_timespecSubMs {s t : Timespec} (h : s.ms ≤ t.ms) :
    (timespecSubMs t s).toNat = (t.ms - s.ms) % 2 ^ 32 := by
  rw [timespecSubMs, ← Int.ofNat_sub h, UInt32.ofInt]
  simp only [UInt32.toNat_ofNat']
  omega

@[simp] theorem toNat_countUpdateMs : countUpdateMs.toNat = 500 := rfl

theorem transferredKb_le (ho : Opens b p) :
    transferredKb b p ≤ b.transferredBytes.toNat / 1000 := by
  rw [Opens] at ho
  exact Nat.div_le_of_le_mul (by rw [Nat.mul_comm]; exact Nat.mul_le_mul_right _ ho)

/-- What the limiter keeps for a limit of `kb` kilobytes a second. -/
structure Valid (kb : ℕ) (b : BandwidthSt) : Prop where
  pos : 0 < kb
  scales : kb ≤ 2 ^ 64 / 500
  rate : b.kbPerSec.toNat = kb
  perCount : b.allowedKbPerCount.toNat = kb * 500 / 1000
  allowed : b.allowedKb.toNat ≤ kb

theorem valid_init {n : UInt64} (hpos : 0 < n.toNat) (hscales : n.toNat ≤ 2 ^ 64 / 500) :
    Valid n.toNat (bandwidthInit n) where
  pos := hpos
  scales := hscales
  rate := rfl
  perCount := by
    have : (n * countUpdateMs).toNat = n.toNat * 500 := by
      rw [UInt64.toNat_mul, toNat_countUpdateMs]
      omega
    simp only [bandwidthInit]
    rw [UInt64.toNat_div, this]
    rfl
  allowed := Nat.zero_le _

theorem Valid.charge (hv : Valid kb b) (bytes : UInt64) :
    Valid kb { b with transferredBytes := bytes } :=
  ⟨hv.pos, hv.scales, hv.rate, hv.perCount, hv.allowed⟩

theorem Valid.update_eq (hv : Valid kb b) (p : Packet) :
    bandwidthUpdate b p.bytes p.now = _bandwidthUpdate b p.bytes p.now := by
  have hne : b.kbPerSec ≠ 0 := by
    intro h
    have := hv.rate
    rw [h] at this
    exact absurd this.symm (Nat.pos_iff_ne_zero.1 hv.pos)
  rw [bandwidthUpdate, if_neg hne]

theorem opens_iff : Opens b p ↔ (timespecSubMs p.now b.countStart).toUInt64 ≥ countUpdateMs := by
  rw [Opens, ge_iff_le, UInt64.le_iff_toNat_le, UInt32.toNat_toUInt64, toNat_countUpdateMs]

/-- **A packet that opens a count passes**, and gives the count its budget. -/
theorem update_opens (hv : Valid kb b) (ho : Opens b p)
    (hle : transferredKb b p ≤ b.allowedKb.toNat) :
    (bandwidthUpdate b p.bytes p.now).1 = true ∧
      (bandwidthUpdate b p.bytes p.now).2 = { b with
        countStart := p.now
        allowedKb := UInt64.ofNat (nextAllowedKb b p)
        transferredBytes := p.bytes } := by
  have hscales := hv.scales
  have hallowed := hv.allowed
  set tk := (b.transferredBytes / 1000) * countUpdateMs /
    (timespecSubMs p.now b.countStart).toUInt64 with htk
  have htk' : tk.toNat = transferredKb b p := by
    have hmul : (b.transferredBytes / 1000 * countUpdateMs).toNat =
        b.transferredBytes.toNat / 1000 * 500 := by
      have hlt := b.transferredBytes.toNat_lt
      have hdiv : (b.transferredBytes / 1000).toNat = b.transferredBytes.toNat / 1000 := rfl
      rw [UInt64.toNat_mul, hdiv, toNat_countUpdateMs]
      omega
    rw [htk, UInt64.toNat_div, hmul, UInt32.toNat_toUInt64]
    rfl
  have hremain : (b.allowedKb - tk).toNat = b.allowedKb.toNat - transferredKb b p := by
    rw [UInt64.toNat_sub_of_le _ _ (UInt64.le_iff_toNat_le.2 (htk' ▸ hle)), htk']
  have ht : (b.allowedKbPerCount + (b.allowedKb - tk)).toNat =
      kb * 500 / 1000 + (b.allowedKb.toNat - transferredKb b p) := by
    rw [UInt64.toNat_add, hremain, hv.perCount]
    exact Nat.mod_eq_of_lt (by omega)
  have hnext : (if b.allowedKbPerCount + (b.allowedKb - tk) < b.kbPerSec then
      b.allowedKbPerCount + (b.allowedKb - tk) else b.kbPerSec) =
        UInt64.ofNat (nextAllowedKb b p) := by
    rw [nextAllowedKb, hv.rate, ← ht]
    split_ifs with hlt
    · rw [UInt64.lt_iff_toNat_lt, hv.rate] at hlt
      rw [Nat.min_eq_left hlt.le, UInt64.ofNat_toNat]
    · rw [UInt64.lt_iff_toNat_lt, hv.rate] at hlt
      rw [Nat.min_eq_right (Nat.not_lt.1 hlt), ← hv.rate, UInt64.ofNat_toNat]
  rw [hv.update_eq, _bandwidthUpdate]
  simp only [if_pos (opens_iff.1 ho), UInt64.toUInt64_toInt64, ← htk, hnext, and_self]

/-- Any other packet passes if the bytes of the count stay within its budget. -/
theorem update_within (hv : Valid kb b) (hsmall : kb ≤ 2 ^ 64 / 1000) (ho : ¬ Opens b p)
    (hsum : b.transferredBytes.toNat + p.bytes.toNat < 2 ^ 64) :
    bandwidthUpdate b p.bytes p.now =
      if 1000 * b.allowedKb.toNat < b.transferredBytes.toNat + p.bytes.toNat then (false, b)
      else (true, { b with transferredBytes := b.transferredBytes + p.bytes }) := by
  have hallowed := hv.allowed
  have hbudget : (b.allowedKb * 1000).toNat = b.allowedKb.toNat * 1000 := by
    have h1000 : (1000 : UInt64).toNat = 1000 := rfl
    rw [UInt64.toNat_mul, h1000]
    omega
  have hadd : (b.transferredBytes + p.bytes).toNat =
      b.transferredBytes.toNat + p.bytes.toNat := by
    rw [UInt64.toNat_add]
    omega
  rw [hv.update_eq, _bandwidthUpdate]
  simp only [if_neg (mt opens_iff.2 ho), gt_iff_lt, UInt64.lt_iff_toNat_lt, hbudget, hadd]
  rw [Nat.mul_comm b.allowedKb.toNat 1000]

theorem nextAllowedKb_le (b : BandwidthSt) (p : Packet) :
    nextAllowedKb b p ≤ b.kbPerSec.toNat := Nat.min_le_right _ _

theorem toNat_nextAllowedKb (b : BandwidthSt) (p : Packet) :
    (UInt64.ofNat (nextAllowedKb b p)).toNat = nextAllowedKb b p := by
  have hle := nextAllowedKb_le b p
  have hlt := b.kbPerSec.toNat_lt
  rw [UInt64.toNat_ofNat']
  omega

/-! ### Fair runs

What is left of the budget of a count, in bytes, is the potential: a step that passes bytes takes
them from it, and a step that opens a count adds at most what the limit allows in the time of the
closed one. -/

/-- The invariant of fair runs: the bytes of the count are within its budget. -/
structure Within (kb : ℕ) (b : BandwidthSt) : Prop extends Valid kb b where
  small : kb ≤ 2 ^ 64 / 1000
  within : b.transferredBytes.toNat ≤ 1000 * b.allowedKb.toNat

/-- What is left of the budget. -/
def room (b : BandwidthSt) : ℕ := 1000 * b.allowedKb.toNat - b.transferredBytes.toNat

theorem Within.room_le (hw : Within kb b) : room b ≤ 1000 * kb := by
  have := hw.allowed
  unfold room
  omega

theorem Within.transferredKb_le (hw : Within kb b) (ho : Opens b p) :
    transferredKb b p ≤ b.allowedKb.toNat := by
  have := Bandwidth.transferredKb_le ho
  have := hw.within
  omega

/-- What one fair step does. -/
theorem Within.step (hw : Within kb b) (hf : Fair b p) (htime : b.countStart.ns ≤ p.now.ns) :
    let b' := (bandwidthUpdate b p.bytes p.now).2
    let passed := if (bandwidthUpdate b p.bytes p.now).1 then p.bytes.toNat else 0
    Within kb b' ∧
      ((b'.countStart = p.now ∧ passed + room b' ≤ 1000 * kb ∧
          passed + room b' ≤ room b + kb * (p.now.ms - b.countStart.ms)) ∨
        (b'.countStart = b.countStart ∧ passed + room b' ≤ room b)) := by
  have hwithin := hw.within
  unfold Fair at hf
  dsimp only at hf ⊢
  split at hf
  · rename_i ho
    obtain ⟨hbytes, haccount⟩ := hf
    obtain ⟨hres, hst⟩ := update_opens hw.toValid ho (hw.transferredKb_le ho)
    have hle := hw.transferredKb_le ho
    have hnext := toNat_nextAllowedKb b p
    have hcap : nextAllowedKb b p ≤ kb := hw.rate ▸ nextAllowedKb_le b p
    rw [hres, hst]
    refine ⟨⟨⟨hw.pos, hw.scales, hw.rate, hw.perCount, hnext.trans_le hcap⟩, hw.small, ?_⟩,
      Or.inl ⟨rfl, ?_, ?_⟩⟩
    · simpa only [hnext] using hbytes
    · simp only [room, hnext, if_true]
      omega
    · -- the budget of the new count against what was left of the old one
      have hsub : (timespecSubMs p.now b.countStart).toNat ≤ p.now.ms - b.countStart.ms := by
        rw [toNat_timespecSubMs (Timespec.ms_mono htime)]
        exact Nat.mod_le _ _
      have hmono : kb * (timespecSubMs p.now b.countStart).toNat ≤
          kb * (p.now.ms - b.countStart.ms) := Nat.mul_le_mul_left kb hsub
      have hgrow : nextAllowedKb b p ≤
          kb * 500 / 1000 + (b.allowedKb.toNat - transferredKb b p) := by
        rw [nextAllowedKb, hw.rate]
        exact Nat.min_le_left _ _
      simp only [room, hnext, if_true]
      rcases haccount with hsec | haccount
      · have := Nat.mul_le_mul_left kb hsec
        omega
      · rw [Opens] at ho
        rw [hw.rate, Nat.mul_sub] at haccount
        have := Nat.mul_le_mul_left kb ho
        omega
  · rename_i ho
    rw [update_within hw.toValid hw.small ho hf]
    split
    · exact ⟨hw, Or.inr ⟨rfl, by simp⟩⟩
    · rename_i hlt
      have hadd : (b.transferredBytes + p.bytes).toNat =
          b.transferredBytes.toNat + p.bytes.toNat := by
        rw [UInt64.toNat_add]
        omega
      refine ⟨⟨hw.toValid.charge _, hw.small, ?_⟩, Or.inr ⟨rfl, ?_⟩⟩
      · simp only [hadd]
        omega
      · simp only [room, hadd, if_true]
        omega

theorem Within.noWrap (hw : Within kb b) (p : Packet) : NoWrap b p := by
  have hlt := b.transferredBytes.toNat_lt
  have hsmall := hw.small
  have hallowed := hw.allowed
  unfold NoWrap
  split
  · rename_i ho
    exact ⟨by omega, hw.transferredKb_le ho⟩
  · omega

/-- What a fair run keeps: the invariant, and that no count starts after a later packet. -/
structure Timely (kb : ℕ) (b : BandwidthSt) (ps : List Packet) : Prop extends Within kb b where
  ordered : Ordered ps
  started : ∀ p ∈ ps, b.countStart.ns ≤ p.now.ns
  fair : machine.Meets Fair b ps

theorem Timely.time (ht : Timely kb b (p :: ps)) : b.countStart.ns ≤ p.now.ns :=
  ht.started p List.mem_cons_self

theorem Timely.head (ht : Timely kb b (p :: ps)) {q : Packet} (hq : q ∈ ps) :
    p.now.ns ≤ q.now.ns := List.rel_of_pairwise_cons ht.ordered hq

theorem Timely.tail (ht : Timely kb b (p :: ps)) :
    Timely kb (bandwidthUpdate b p.bytes p.now).2 ps := by
  obtain ⟨hw, hstart⟩ := ht.toWithin.step ht.fair.1 ht.time
  refine ⟨hw, ht.ordered.of_cons, fun q hq => ?_, ht.fair.2 _ rfl⟩
  rcases hstart with ⟨hnow, -, -⟩ | ⟨hsame, -⟩
  · rw [hnow]
    exact ht.head hq
  · rw [hsame]
    exact ht.started q (List.mem_cons_of_mem p hq)

theorem Timely.left_of_append {later : List Packet} (ht : Timely kb b (ps ++ later)) :
    Timely kb b ps :=
  ⟨ht.toWithin, (List.pairwise_append.1 ht.ordered).1,
    fun p hp => ht.started p (List.mem_append_left later hp), ht.fair.left_of_append⟩

theorem Timely.after {earlier : List Packet} (ht : Timely kb b (earlier ++ ps)) :
    Timely kb (after b earlier) ps := by
  induction earlier generalizing b with
  | nil => exact ht
  | cons p earlier ih => exact ih ht.tail

theorem Timely.noWrap (ht : Timely kb b ps) : machine.Meets NoWrap b ps := by
  induction ps generalizing b with
  | nil => trivial
  | cons p ps ih =>
    refine ⟨ht.noWrap p, fun b' hb' => ?_⟩
    cases hb'
    exact ih ht.tail

/-- From a state on, what passes is what is left of the budget and what the limit allows from the
start of the count on. -/
theorem Timely.acceptedBytes_le (ht : Timely kb b ps) {last : Timespec}
    (hstart : b.countStart.ns ≤ last.ns) (hlast : ∀ p ∈ ps, p.now.ns ≤ last.ns) :
    acceptedBytes b ps ≤ room b + kb * (last.ms - b.countStart.ms) := by
  induction ps generalizing b with
  | nil => exact Nat.zero_le _
  | cons p ps ih =>
    have hp := hlast p List.mem_cons_self
    have hps := fun q hq => hlast q (List.mem_cons_of_mem p hq)
    rw [acceptedBytes]
    rcases (ht.toWithin.step ht.fair.1 ht.time).2 with ⟨hnow, -, hpassed⟩ | ⟨hsame, hpassed⟩
    · have hrest := ih ht.tail (by rw [hnow]; exact hp) hps
      have hstep := Timespec.ms_mono ht.time
      have hend := Timespec.ms_mono hp
      rw [hnow] at hrest
      have hsplit : kb * (last.ms - b.countStart.ms) =
          kb * (p.now.ms - b.countStart.ms) + kb * (last.ms - p.now.ms) := by
        rw [← Nat.mul_add]
        congr 1
        omega
      omega
    · have hrest := ih ht.tail (by rw [hsame]; exact hstart) hps
      rw [hsame] at hrest
      omega

/-- The same for an interval: before its first new count what is left of the budget passes, and
the budget of the new count is bounded, however long the count before was. -/
theorem Timely.acceptedBytes_interval (ht : Timely kb b ps) {first last : Timespec}
    (hfirst : ∀ p ∈ ps, first.ns ≤ p.now.ns) (hlast : ∀ p ∈ ps, p.now.ns ≤ last.ns) :
    acceptedBytes b ps ≤ room b + 1000 * kb + kb * (last.ms - first.ms) := by
  induction ps generalizing b with
  | nil => exact Nat.zero_le _
  | cons p ps ih =>
    have hp := hlast p List.mem_cons_self
    have hps := fun q hq => hlast q (List.mem_cons_of_mem p hq)
    rw [acceptedBytes]
    rcases (ht.toWithin.step ht.fair.1 ht.time).2 with ⟨hnow, hcap, -⟩ | ⟨-, hpassed⟩
    · have hrest := ht.tail.acceptedBytes_le (by rw [hnow]; exact hp) hps
      have hstep := Timespec.ms_mono (hfirst p List.mem_cons_self)
      rw [hnow] at hrest
      have hmono : kb * (last.ms - p.now.ms) ≤ kb * (last.ms - first.ms) :=
        Nat.mul_le_mul_left kb (by omega)
      omega
    · have hrest := ih ht.tail (fun q hq => hfirst q (List.mem_cons_of_mem p hq)) hps
      omega

theorem Timely.withinRate (ht : Timely kb b (p :: ps)) : WithinRate kb (2001 * kb) b p ps := by
  set q := (p :: ps).getLast (List.cons_ne_nil p ps) with hq
  have hfirst : ∀ r ∈ p :: ps, p.now.ns ≤ r.now.ns := by
    intro r hr
    rcases List.mem_cons.1 hr with rfl | hr
    · exact le_rfl
    · exact ht.head hr
  have hlast : ∀ r ∈ p :: ps, r.now.ns ≤ q.now.ns := fun r hr =>
    List.Pairwise.rel_getLast_of_rel_getLast_getLast ht.ordered hr le_rfl
  have hbytes := ht.acceptedBytes_interval hfirst hlast
  have hroom := ht.room_le
  have hms : (q.now.ms - p.now.ms) * 10 ^ 6 ≤ q.now.ns - p.now.ns + 10 ^ 6 := by
    rw [Timespec.ms_eq, Timespec.ms_eq]
    omega
  have hmul : kb * (q.now.ms - p.now.ms) * 10 ^ 6 ≤
      kb * (q.now.ns - p.now.ns) + kb * 10 ^ 6 := by
    rw [Nat.mul_assoc, ← Nat.mul_add]
    exact Nat.mul_le_mul_left kb hms
  rw [WithinRate, duration, ← hq]
  calc acceptedBytes b (p :: ps) * 10 ^ 6
      ≤ (2000 * kb + kb * (q.now.ms - p.now.ms)) * 10 ^ 6 :=
        Nat.mul_le_mul_right _ (by linarith)
    _ = 2000 * kb * 10 ^ 6 + kb * (q.now.ms - p.now.ms) * 10 ^ 6 := Nat.add_mul ..
    _ ≤ kb * (q.now.ns - p.now.ns) + 2001 * kb * 10 ^ 6 := by linarith

/-! ### Runs beyond the limit -/

/-- One packet every 500 ms, `n` times, after the first `500 * k` ms. -/
def steady (bytes : UInt64) : ℕ → ℕ → List Packet
  | _, 0 => []
  | k, n + 1 => ⟨bytes, Timespec.ofMs (500 * (k + 1))⟩ :: steady bytes (k + 1) n

theorem steady_later {bytes : UInt64} {k n : ℕ} (h : p ∈ steady bytes k n) :
    500 * (k + 1) * 10 ^ 6 ≤ p.now.ns := by
  induction n generalizing k with
  | zero => cases h
  | succ n ih =>
    rcases List.mem_cons.1 h with rfl | h
    · rw [Timespec.ns_ofMs]
    · have := ih h
      linarith

theorem ordered_steady (bytes : UInt64) (k n : ℕ) : Ordered (steady bytes k n) := by
  induction n generalizing k with
  | zero => exact List.Pairwise.nil
  | succ n ih =>
    refine List.Pairwise.cons (fun q hq => ?_) (ih (k + 1))
    have := steady_later hq
    rw [Timespec.ns_ofMs]
    linarith

theorem getLast_steady (bytes : UInt64) (k n : ℕ) (h : steady bytes k (n + 1) ≠ []) :
    (steady bytes k (n + 1)).getLast h = ⟨bytes, Timespec.ofMs (500 * (k + n + 1))⟩ := by
  induction n generalizing k with
  | zero => rfl
  | succ n ih =>
    have hne : steady bytes (k + 1) (n + 1) ≠ [] := List.cons_ne_nil _ _
    refine (List.getLast_cons hne).trans ?_
    rw [ih (k + 1) hne, Nat.add_right_comm k 1 n]
    rfl

/-- A packet 500 ms after the start of the count opens the next one. -/
theorem update_500 {k : ℕ} (hv : Valid kb b) (hstart : b.countStart.ms = 500 * k)
    (hle : b.transferredBytes.toNat / 1000 ≤ b.allowedKb.toNat) (bytes : UInt64) :
    let r := bandwidthUpdate b bytes (Timespec.ofMs (500 * (k + 1)))
    r.1 = true ∧ Valid kb r.2 ∧ r.2.countStart.ms = 500 * (k + 1) ∧ r.2.transferredBytes = bytes ∧
      r.2.allowedKb.toNat =
        min (kb * 500 / 1000 + (b.allowedKb.toNat - b.transferredBytes.toNat / 1000)) kb := by
  set p : Packet := ⟨bytes, Timespec.ofMs (500 * (k + 1))⟩ with hp
  have hdiff : (timespecSubMs p.now b.countStart).toNat = 500 := by
    rw [toNat_timespecSubMs, hstart, hp, Timespec.ms_ofMs]
    · omega
    · rw [hstart, hp, Timespec.ms_ofMs]
      omega
  have htk : transferredKb b p = b.transferredBytes.toNat / 1000 := by
    rw [transferredKb, hdiff, Nat.mul_div_cancel _ (by decide)]
  obtain ⟨hres, hst⟩ := update_opens hv (show Opens b p from hdiff.ge) (htk ▸ hle)
  have hallowed := toNat_nextAllowedKb b p
  have hcap := hv.rate ▸ nextAllowedKb_le b p
  refine ⟨hres, ?_⟩
  rw [hst]
  refine ⟨⟨hv.pos, hv.scales, hv.rate, hv.perCount, hallowed.trans_le hcap⟩,
    Timespec.ms_ofMs _, rfl, ?_⟩
  rw [hallowed, nextAllowedKb, htk, hv.rate]

theorem start_init (n : UInt64) : (bandwidthInit n).countStart.ms = 500 * 0 := by
  simp [bandwidthInit, Timespec.ms]

/-- A count whose kilobytes, rounded down, are its budget. -/
structure Even (kb k : ℕ) (b : BandwidthSt) : Prop extends Valid kb b where
  start : b.countStart.ms = 500 * k
  even : b.transferredBytes.toNat / 1000 = b.allowedKb.toNat

theorem Even.step {k : ℕ} (he : Even kb k b) {bytes : UInt64}
    (hbytes : bytes.toNat / 1000 = kb * 500 / 1000) :
    (bandwidthUpdate b bytes (Timespec.ofMs (500 * (k + 1)))).1 = true ∧
      Even kb (k + 1) (bandwidthUpdate b bytes (Timespec.ofMs (500 * (k + 1)))).2 := by
  obtain ⟨hres, hv, hstart, htransferred, hallowed⟩ :=
    update_500 he.toValid he.start he.even.le bytes
  refine ⟨hres, hv, hstart, ?_⟩
  rw [htransferred, hallowed, hbytes, he.even]
  omega

theorem Even.acceptedBytes {k : ℕ} (he : Even kb k b) {bytes : UInt64}
    (hbytes : bytes.toNat / 1000 = kb * 500 / 1000) (n : ℕ) :
    acceptedBytes b (steady bytes k n) = n * bytes.toNat := by
  induction n generalizing k b with
  | zero => exact (Nat.zero_mul _).symm
  | succ n ih =>
    obtain ⟨hres, hnext⟩ := he.step hbytes
    rw [steady, Bandwidth.acceptedBytes, hres, if_pos rfl, ih hnext, Nat.add_mul, Nat.one_mul,
      Nat.add_comm]

/-- **No limit is kept**: 999 bytes more than the budget pass in every count. -/
theorem not_bounded {n : UInt64} (hpos : 0 < n.toNat) (hsmall : n.toNat ≤ 2 ^ 64 / 1000) :
    ¬ Bounded n := by
  rintro ⟨burst, hb⟩
  set bytes := UInt64.ofNat (n.toNat * 500 / 1000 * 1000 + 999) with hdef
  have hbytes : bytes.toNat = n.toNat * 500 / 1000 * 1000 + 999 := by
    rw [hdef, UInt64.toNat_ofNat']
    omega
  have he : Even n.toNat 0 (bandwidthInit n) :=
    ⟨valid_init hpos (hsmall.trans (by decide)), start_init n, Nat.zero_div 1000⟩
  have hrun := hb [] _ (steady bytes 1 burst) (ordered_steady bytes 0 (burst + 1))
  have hlast := getLast_steady bytes 0 burst (List.cons_ne_nil _ _)
  have hround : ∀ m, (m * 1000 + 999) / 1000 = m := by omega
  have hsum := he.acceptedBytes ((congrArg (· / 1000) hbytes).trans (hround _)) (burst + 1)
  have hduration : duration ⟨bytes, Timespec.ofMs (500 * (0 + 1))⟩ (steady bytes 1 burst) =
      500 * burst * 10 ^ 6 := by
    rw [duration]
    change ((steady bytes 0 (burst + 1)).getLast _).now.ns - _ = _
    rw [hlast, Timespec.ns_ofMs, Timespec.ns_ofMs]
    omega
  rw [WithinRate, hduration] at hrun
  change Bandwidth.acceptedBytes (bandwidthInit n) (steady bytes 0 (burst + 1)) * 10 ^ 6 ≤ _
    at hrun
  rw [hsum] at hrun
  have hmore : n.toNat * 500 + 499 ≤ bytes.toNat := by
    have hodd : ∀ m, m * 500 + 499 ≤ m * 500 / 1000 * 1000 + 999 := by omega
    rw [hbytes]
    exact hodd n.toNat
  have hscaled : (burst + 1) * (n.toNat * 500 + 499) ≤ (burst + 1) * bytes.toNat :=
    Nat.mul_le_mul_left _ hmore
  nlinarith

/-- Where a second's bytes do not fit in a `size_t`, the budget in bytes wraps. -/
theorem not_neverWraps {n : UInt64} (hbig : 2 ^ 64 / 1000 < n.toNat) : ¬ NeverWraps n := by
  rintro ⟨hscale, hmeets⟩
  -- two counts without a byte, then a packet in the second of them
  have hordered : Ordered (steady 0 0 2 ++ [⟨0, Timespec.ofMs 1000⟩]) := by
    simp [Ordered, steady]
  obtain ⟨-, hrun⟩ := hmeets _ hordered
  obtain ⟨-, hrun⟩ := hrun _ rfl
  obtain ⟨hwrap, -⟩ := hrun _ rfl
  obtain ⟨-, hv₁, hstart₁, hbytes₁, hallowed₁⟩ :=
    update_500 (valid_init (by omega) (by omega)) (start_init n) (Nat.zero_div 1000).le 0
  obtain ⟨-, hv₂, hstart₂, -, hallowed₂⟩ :=
    update_500 hv₁ hstart₁ (by rw [hbytes₁]; exact Nat.zero_le _) 0
  rw [hallowed₁, hbytes₁] at hallowed₂
  have hdiff := toNat_timespecSubMs (t := Timespec.ofMs 1000) hstart₂.le
  rw [NoWrap, if_neg, hallowed₂] at hwrap
  · have hallowed : (bandwidthInit n).allowedKb.toNat = 0 := rfl
    have hbytes : (bandwidthInit n).transferredBytes.toNat = 0 := rfl
    simp only [hallowed, hbytes, UInt64.toNat_zero, Nat.zero_div, Nat.sub_zero] at hwrap
    omega
  · rw [Opens, hdiff, hstart₂]
    simp

/-- Without a limit every packet passes. -/
theorem accepted_of_unlimited (hb : b.kbPerSec = 0) (ps : List Packet) :
    machine.Meets (fun b p => (bandwidthUpdate b p.bytes p.now).1 = true) b ps := by
  have hall : machine.Always (fun b => b.kbPerSec = 0) b ps :=
    Machine.always_of_step (C := fun _ _ => True) (fun b p b' hb _ hstep => by
      rw [machine, Option.some_inj, bandwidthUpdate, if_pos hb] at hstep
      exact hstep ▸ hb) hb (Machine.meets_true b ps)
  exact hall.meets fun b p hb => by rw [bandwidthUpdate, if_pos hb]

/-- **A bandwidth limit is kept exactly when there is none**; in the runs whose steps are fair it
is kept, with twice a second's bytes and a millisecond's as the burst. -/
theorem bandwidth_iff (kbPerSec : UInt64) :
    (Limited kbPerSec ↔ kbPerSec = 0) ∧
      (0 < kbPerSec.toNat → kbPerSec.toNat ≤ 2 ^ 64 / 1000 → ∀ ps, Ordered ps →
        machine.Meets Fair (bandwidthInit kbPerSec) ps →
          machine.Meets NoWrap (bandwidthInit kbPerSec) ps ∧
            ∀ earlier p interval later, ps = earlier ++ p :: interval ++ later →
              WithinRate kbPerSec.toNat (2001 * kbPerSec.toNat)
                (after (bandwidthInit kbPerSec) earlier) p interval) := by
  refine ⟨⟨fun hl => ?_, ?_⟩, fun hpos hsmall ps hordered hfair => ?_⟩
  · by_contra hne
    have hpos : 0 < kbPerSec := UInt64.pos_iff_ne_zero.2 hne
    rcases Nat.lt_or_ge (2 ^ 64 / 1000) kbPerSec.toNat with hbig | hsmall
    · exact not_neverWraps hbig (hl.neverWraps hpos)
    · exact not_bounded (UInt64.lt_iff_toNat_lt.1 hpos) hsmall (hl.bounded hpos)
  · rintro rfl
    exact ⟨fun h => absurd h (by decide), fun h => absurd h (by decide),
      fun _ ps => accepted_of_unlimited rfl ps⟩
  · have hv := valid_init hpos (hsmall.trans (by decide))
    have ht : Timely kbPerSec.toNat (bandwidthInit kbPerSec) ps :=
      ⟨⟨hv, hsmall, Nat.zero_le _⟩, hordered,
        fun p _ => by simp [bandwidthInit, Timespec.ns], hfair⟩
    refine ⟨ht.noWrap, ?_⟩
    rintro earlier p interval later rfl
    exact ht.left_of_append.after.withinRate

/-- 999 bytes every half second pass a limit of one kilobyte a second. -/
theorem not_limited_one : ¬ Limited 1 := fun hl =>
  not_bounded (n := 1) (by decide) (by decide) (hl.bounded (by decide))

/-- A fair run under a limit of 100 kilobytes a second. -/
def fairRun : List Packet :=
  [⟨1400, Timespec.ofMs 600⟩, ⟨1400, Timespec.ofMs 700⟩, ⟨1400, Timespec.ofMs 1300⟩]

theorem bandwidth_iff_hundred :
    machine.Meets NoWrap (bandwidthInit 100) fairRun ∧
      WithinRate 100 200100 (bandwidthInit 100) ⟨1400, Timespec.ofMs 600⟩
        [⟨1400, Timespec.ofMs 700⟩, ⟨1400, Timespec.ofMs 1300⟩] := by
  have hordered : Ordered fairRun := by simp [Ordered, fairRun]
  have h := (bandwidth_iff 100).2 (by decide) (by decide) fairRun hordered (by decide)
  exact ⟨h.1, h.2 [] _ _ [] rfl⟩

end Bandwidth

end Worker

end Ocserv
