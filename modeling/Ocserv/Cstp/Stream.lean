import Mathlib.Algebra.GroupWithZero.Nat
import Mathlib.Data.List.Basic

/-!
# CSTP frames over a plain stream

The receiving side of the worker's TLS channel (`tls_mainloop` and `parse_cstp_data` of
`src/worker-vpn.c`) when there is no TLS session: `recv` returns what has arrived on the stream,
and what it returns is parsed as one frame.

* `Frame.encode` : the bytes of a frame;
* `packets` : what a run over the results of `recv` passes to `parse_data`;
* `Cut` : the results of `recv` on a given stream.

What `parse_data` does with a packet (decompress, write to the tun device, answer, exit) is a
parameter: a function of the packet and of the state `σ` of the rest of the worker, `none` when
it makes the worker leave its loop.
-/

namespace Ocserv

namespace Cstp

/-- A CSTP frame; the length in the header has 16 bits. -/
structure Frame where
  head : UInt8
  payload : List UInt8
  fits : payload.length < 2 ^ 16

/-- The bytes of a packet: `STF`, 1, the length, the type, 0, the payload. -/
def encodePacket : UInt8 × List UInt8 → List UInt8
  | (head, payload) =>
    [0x53, 0x54, 0x46, 1, UInt8.ofNat (payload.length / 2 ^ 8), UInt8.ofNat payload.length,
      head, 0] ++ payload

/-- What `parse_data` is given of a frame. -/
def Frame.packet (f : Frame) : UInt8 × List UInt8 := (f.head, f.payload)

/-- The bytes of a frame. -/
def Frame.encode (f : Frame) : List UInt8 := encodePacket f.packet

/-- `parse_cstp_data` up to the call of `parse_data`: the type and the payload, or `none` where it
returns `-1`. -/
def parseCstpData (buf : List UInt8) : Option (UInt8 × List UInt8) :=
  if buf.length < 8 then none
  else if buf.getD 0 0 ≠ 0x53 ∨ buf.getD 1 0 ≠ 0x54 ∨ buf.getD 2 0 ≠ 0x46 ∨ buf.getD 3 0 ≠ 1 ∨
      buf.getD 7 0 ≠ 0 then none
  else
    let pktlen := (buf.getD 4 0).toNat <<< 8 + (buf.getD 5 0).toNat
    if buf.length ≠ 8 + pktlen then none else some (buf.getD 6 0, buf.drop 8)

/-- A result of `recv`: bytes (none at the end of the stream), `EAGAIN` or `EINTR`, or a fatal
error.  With bytes comes the answer of `_bandwidth_update`, should it be asked. -/
inductive RecvResult where
  | data (bytes : List UInt8) (allowed : Bool)
  | again
  | error
  deriving DecidableEq, Repr

/-- `bandwidth_update`. -/
def bandwidthUpdate (kbPerSec : ℕ) (allowed : Bool) : Bool :=
  if kbPerSec = 0 then true else allowed

variable {σ : Type}

/-- `tls_mainloop` without a session: the packet passed to `parse_data`, if any, and the state
of the worker if it goes on. -/
def tlsMainloop (parseData : σ → UInt8 × List UInt8 → Option σ) (kbPerSec : ℕ) (s : σ) :
    RecvResult → List (UInt8 × List UInt8) × Option σ
  | .error => ([], none)
  | .again => ([], some s)
  | .data buf allowed =>
    -- the client disconnected
    if buf.length = 0 then ([], none)
    else if buf.length ≥ 8 then
      if bandwidthUpdate kbPerSec allowed then
        match parseCstpData buf with
        | none => ([], none)
        | some p => ([p], parseData s p)
      else ([], some s)
    else ([], some s)

/-- The packets passed to `parse_data` by the calls of `tls_mainloop` on the results of
`recv`. -/
def packets (parseData : σ → UInt8 × List UInt8 → Option σ) (kbPerSec : ℕ) :
    σ → List RecvResult → List (UInt8 × List UInt8)
  | _, [] => []
  | s, r :: rs =>
    match tlsMainloop parseData kbPerSec s r with
    | (ps, none) => ps
    | (ps, some s') => ps ++ packets parseData kbPerSec s' rs

/-- The size of `ws->buffer`. -/
def bufferSize : ℕ := 16 * 1024

/-- The bytes of a result of `recv`. -/
def RecvResult.bytes? : RecvResult → Option (List UInt8)
  | data bytes _ => some bytes
  | _ => none

/-- A way the stream `bytes` is cut by the calls of `recv`, with spurious wake-ups between. -/
structure Cut (bytes : List UInt8) where
  results : List RecvResult
  ne_error : .error ∉ results
  size : ∀ chunk ∈ results.filterMap RecvResult.bytes?, chunk ≠ [] ∧ chunk.length ≤ bufferSize
  flatten_eq : (results.filterMap RecvResult.bytes?).flatten = bytes

/-- The chunks of a cut. -/
def Cut.chunks {bytes : List UInt8} (c : Cut bytes) : List (List UInt8) :=
  c.results.filterMap RecvResult.bytes?

/-- The results of a `recv` that returns one frame at a time, as `gnutls_record_recv` does. -/
def records (frames : List Frame) : List RecvResult :=
  frames.map fun f => .data f.encode true

/-! ### Frames and chunks -/

@[simp] theorem length_encodePacket (p : UInt8 × List UInt8) :
    (encodePacket p).length = 8 + p.2.length := by
  simp [encodePacket]; omega

/-- A frame is parsed to its packet. -/
theorem parseCstpData_encode (f : Frame) : parseCstpData f.encode = some f.packet := by
  have hlen := f.fits
  have hsum : (UInt8.ofNat (f.payload.length / 2 ^ 8)).toNat <<< 8 +
      (UInt8.ofNat f.payload.length).toNat = f.payload.length := by
    rw [UInt8.toNat_ofNat', UInt8.toNat_ofNat', Nat.shiftLeft_eq]
    omega
  simp only [parseCstpData, Frame.encode, length_encodePacket]
  simp only [encodePacket, Frame.packet, List.cons_append, List.nil_append, List.getD_cons_succ,
    List.getD_cons_zero, hsum]
  simp

/-- What is parsed to a packet is exactly its frame. -/
theorem parseCstpData_some {buf : List UInt8} {p : UInt8 × List UInt8}
    (h : parseCstpData buf = some p) : buf = encodePacket p := by
  unfold parseCstpData at h
  split at h
  · cases h
  · rename_i h8
    obtain ⟨n, hn⟩ : ∃ n, buf.length = n + 8 := ⟨buf.length - 8, by omega⟩
    match buf, hn with
    | b0 :: b1 :: b2 :: b3 :: b4 :: b5 :: b6 :: b7 :: payload, _ =>
      simp only [List.getD_cons_succ, List.getD_cons_zero, List.length_cons, List.drop_succ_cons,
        List.drop_zero] at h
      split at h
      · cases h
      · rename_i hmagic
        simp only [not_or, not_not] at hmagic
        obtain ⟨rfl, rfl, rfl, rfl, rfl⟩ := hmagic
        split at h
        · cases h
        · rename_i hlen
          cases h
          have h4 := b4.toNat_lt
          have h5 := b5.toNat_lt
          rw [Nat.shiftLeft_eq] at hlen
          have hb4 : UInt8.ofNat (payload.length / 2 ^ 8) = b4 :=
            UInt8.toNat.inj (by rw [UInt8.toNat_ofNat']; omega)
          have hb5 : UInt8.ofNat payload.length = b5 :=
            UInt8.toNat.inj (by rw [UInt8.toNat_ofNat']; omega)
          simp only [encodePacket, hb4, hb5]
          rfl

/-! ### Runs -/

/-- `parse_data` that always lets the worker go on. -/
def keepGoing : Unit → UInt8 × List UInt8 → Option Unit := fun _ _ => some ()

/-- Spurious wake-ups and the answers of a limiter that is off do not matter. -/
theorem packets_congr (parseData : σ → UInt8 × List UInt8 → Option σ) {rs : List RecvResult}
    (hrs : .error ∉ rs) (s : σ) :
    packets parseData 0 s rs =
      packets parseData 0 s ((rs.filterMap RecvResult.bytes?).map fun b => .data b true) := by
  induction rs generalizing s with
  | nil => rfl
  | cons r rs ih =>
    have hrs' : .error ∉ rs := fun h => hrs (List.mem_cons_of_mem _ h)
    cases r with
    | error => exact absurd List.mem_cons_self hrs
    | again => exact ih hrs' s
    | data bytes allowed =>
      simp only [List.filterMap_cons, RecvResult.bytes?, List.map_cons, packets]
      rw [show tlsMainloop parseData 0 s (.data bytes allowed) =
        tlsMainloop parseData 0 s (.data bytes true) from rfl]
      split
      · rfl
      · rw [ih hrs']

/-- A chunk that is a frame. -/
theorem tlsMainloop_encode (parseData : σ → UInt8 × List UInt8 → Option σ) (s : σ) (f : Frame) :
    tlsMainloop parseData 0 s (.data f.encode true) = ([f.packet], parseData s f.packet) := by
  have hlen : 8 ≤ f.encode.length := by rw [Frame.encode, length_encodePacket]; omega
  rw [tlsMainloop, if_neg (by omega), if_pos hlen]
  simp [bandwidthUpdate, parseCstpData_encode]

theorem packets_records (frames : List Frame) (s : Unit) :
    packets keepGoing 0 s (records frames) = frames.map Frame.packet := by
  induction frames generalizing s with
  | nil => rfl
  | cons f frames ih =>
    rw [records, List.map_cons, packets, tlsMainloop_encode]
    exact congrArg (f.packet :: ·) (ih ())

/-- The packets of a run come from different bytes of the stream, and from all of them only if
every chunk is a frame. -/
theorem packets_chunks {chunks : List (List UInt8)} (hne : ∀ chunk ∈ chunks, chunk ≠ [])
    (s : Unit) :
    let ps := packets keepGoing 0 s (chunks.map fun b => .data b true)
    (ps.map encodePacket).flatten.length ≤ chunks.flatten.length ∧
      (chunks.flatten.length ≤ (ps.map encodePacket).flatten.length →
        chunks = ps.map encodePacket) := by
  obtain rfl : s = () := rfl
  induction chunks with
  | nil => simp [packets]
  | cons chunk chunks ih =>
    have hpos := List.length_pos_iff.2 (hne chunk List.mem_cons_self)
    obtain ⟨hle, heq⟩ := ih fun c hc => hne c (List.mem_cons_of_mem _ hc)
    simp only [List.map_cons, packets]
    simp only [tlsMainloop, bandwidthUpdate, if_true, List.flatten_cons, List.length_append]
    rw [if_neg (by omega)]
    by_cases h8 : chunk.length ≥ 8
    · rw [if_pos h8]
      cases hparse : parseCstpData chunk with
      | none =>
        simp only [List.map_nil, List.flatten_nil, List.length_nil]
        exact ⟨by omega, by omega⟩
      | some p =>
        have hp := parseCstpData_some hparse
        simp only [keepGoing, List.cons_append, List.nil_append, List.map_cons, List.flatten_cons,
          List.length_append, ← hp]
        exact ⟨by omega, fun h => by rw [← heq (by omega)]⟩
    · rw [if_neg h8]
      simp only [List.nil_append]
      exact ⟨by omega, by omega⟩

/-- For one `parse_data` only the chunks up to the packet that makes it leave matter. -/
theorem packets_of_take (parseData : σ → UInt8 × List UInt8 → Option σ) {frames : List Frame}
    {chunks : List (List UInt8)} (hne : ∀ chunk ∈ chunks, chunk ≠ [])
    (hflatten : chunks.flatten = (frames.map Frame.encode).flatten) (s : σ)
    (h : chunks.take (packets parseData 0 s (records frames)).length =
      (frames.map Frame.encode).take (packets parseData 0 s (records frames)).length) :
    packets parseData 0 s (chunks.map fun b => .data b true) =
      packets parseData 0 s (records frames) := by
  induction frames generalizing s chunks with
  | nil =>
    cases chunks with
    | nil => rfl
    | cons chunk chunks =>
      exact absurd (List.append_eq_nil_iff.1 hflatten).1 (hne chunk List.mem_cons_self)
  | cons f frames ih =>
    rw [records, List.map_cons, packets, tlsMainloop_encode] at h ⊢
    rw [List.map_cons] at h
    cases hgo : parseData s f.packet with
    | none =>
      -- the worker leaves after the first chunk
      rw [hgo] at h
      obtain ⟨chunks, rfl⟩ : ∃ rest, chunks = f.encode :: rest := by
        cases chunks with
        | nil => cases h
        | cons chunk chunks => exact ⟨chunks, congrArg (· :: chunks) (List.cons.inj h).1⟩
      rw [List.map_cons, packets, tlsMainloop_encode, hgo]
    | some s' =>
      rw [hgo] at h
      dsimp only at h
      rw [List.singleton_append, List.length_cons, List.take_succ_cons] at h
      cases chunks with
      | nil => cases h
      | cons chunk chunks =>
        rw [List.take_succ_cons] at h
        obtain ⟨rfl, hrest⟩ := List.cons.inj h
        rw [List.map_cons, packets, tlsMainloop_encode, hgo]
        exact congrArg (f.packet :: ·) (ih (fun c hc => hne c (List.mem_cons_of_mem _ hc))
          (List.append_cancel_left hflatten) s' hrest)

/-- **CSTP framing over a plain stream.**  The worker passes the frames of the stream to
`parse_data` as if each `recv` returned one of them, whatever it then does with them, if and
only if each `recv` did return one of them. -/
theorem packets_cut_iff (frames : List Frame) (c : Cut (frames.map Frame.encode).flatten) :
    (∀ (σ : Type) (parseData : σ → UInt8 × List UInt8 → Option σ) (s : σ),
      packets parseData 0 s c.results = packets parseData 0 s (records frames)) ↔
      c.chunks = frames.map Frame.encode := by
  constructor
  · intro h
    have hps := h Unit keepGoing ()
    rw [packets_congr keepGoing c.ne_error, packets_records] at hps
    obtain ⟨-, heq⟩ := packets_chunks (fun chunk hc => (c.size chunk hc).1) ()
    rw [hps, c.flatten_eq, List.map_map] at heq
    exact heq (Nat.le_refl _)
  · intro h σ parseData s
    rw [packets_congr parseData c.ne_error, ← Cut.chunks, h, List.map_map]
    rfl

/-- Two data frames. -/
def twoFrames : List Frame := [⟨0, [1], by decide⟩, ⟨0, [2], by decide⟩]

/-- They arrive in one `recv`. -/
def coalesced : Cut (twoFrames.map Frame.encode).flatten where
  results := [.data (twoFrames.map Frame.encode).flatten true]
  ne_error := by simp
  size := by decide
  flatten_eq := by decide

theorem packets_coalesced :
    packets keepGoing 0 () coalesced.results = [] ∧
      packets keepGoing 0 () (records twoFrames) = [(0, [1]), (0, [2])] := by
  decide

end Cstp

end Ocserv
