import Ocserv.Cstp.Stream
import Ocserv.Lzs.RoundTrip
import Ocserv.Worker.Dtls

/-!
# Worker: a packet of the tun device

`tun_mainloop` of `src/worker-vpn.c`: a packet is read to `ws->buffer + 8`, compressed to
`ws->decomp + 8` with the method of the channel it is expected to go through, and sent over DTLS,
or over TLS if DTLS is not active or the packet is too large for it.  The bytes before the packet
are for the header: one byte for DTLS, eight for CSTP, in the buffer in which the packet is then.

* `Buffers` : the two buffers, as memory.
* `ToSend.Carries` : each channel has a packet in one of them that its type describes.
* `transmitted_iff` : when exactly one frame is sent, decodes to the packet, and is counted once.
-/

namespace Ocserv

namespace Worker

namespace TunSend

open Cstp (bufferSize)

/-! ### The buffers -/

/-- `ws->buffer` and `ws->decomp`. -/
inductive Buf where
  | buffer
  | decomp
  deriving DecidableEq, Repr

abbrev Buffers := Buf → ℕ → UInt8

/-- Bytes are written to a buffer, from `off` on. -/
def Buffers.store (mem : Buffers) (b : Buf) (off : ℕ) (bytes : List UInt8) : Buffers := fun b' i =>
  if b' = b ∧ off ≤ i ∧ i < off + bytes.length then bytes.getD (i - off) 0 else mem b' i

/-- `n` bytes of a buffer, from `off` on. -/
def Buffers.load (mem : Buffers) (b : Buf) (off n : ℕ) : List UInt8 :=
  (List.range' off n).map (mem b)

/-! ### The compression methods -/

/-- `OC_COMP_LZ4` and `OC_COMP_LZS`. -/
inductive CompId where
  | lz4
  | lzs
  deriving DecidableEq, Repr

/-- `compress` and `decompress` of a `compression_method_st`: the value returned, and what is
written to the destination. -/
structure Method where
  compress : ℕ → List UInt8 → ℤ × List UInt8
  decompress : (ℕ → UInt8) → ℕ → List UInt8 → ℤ × (ℕ → UInt8)

/-- The functions of the LZ4 library. -/
structure Lz4 where
  /-- `LZ4_compress_limitedOutput(src, dst, srclen, maxOutputSize)`. -/
  compressLimitedOutput : List UInt8 → ℕ → ℤ × List UInt8
  /-- `LZ4_decompress_safe(src, dst, srclen, dstlen)`. -/
  decompressSafe : List UInt8 → (ℕ → UInt8) → ℕ → ℤ × (ℕ → UInt8)

/-- What the library says of itself: a block that was compressed has the size returned, and is
decompressed to what it was, to any buffer that is large enough. -/
structure Lz4.Documented (lib : Lz4) : Prop where
  length : ∀ src n, 0 < (lib.compressLimitedOutput src n).1 →
    ((lib.compressLimitedOutput src n).2.length : ℤ) = (lib.compressLimitedOutput src n).1
  decompress : ∀ src n dst dstlen, 0 < (lib.compressLimitedOutput src n).1 → src.length ≤ dstlen →
    (lib.decompressSafe (lib.compressLimitedOutput src n).2 dst dstlen).1 = src.length ∧
      ∀ i < src.length,
        (lib.decompressSafe (lib.compressLimitedOutput src n).2 dst dstlen).2 i = src.getD i 0

def efbig : ℤ := -27

/-- `lz4_compress` and `lz4_decompress`. -/
def lz4 (lib : Lz4) : Method where
  compress _ src := lib.compressLimitedOutput src src.length
  decompress dst dstlen src := lib.decompressSafe src dst dstlen

/-- `lzs_compress` and `lzs_decompress`; `chain` is what `hash_chain` holds at first. -/
def lzs (chain : ℕ → ℕ) : Method where
  compress dstlen src :=
    match Lzs.lzsCompress dstlen src chain with
    | some (.ok out) => (out.length, out)
    | some (.error _) | none => (efbig, [])
  decompress dst dstlen src :=
    match Lzs.lzsDecompress dst dstlen src with
    | (.ok n, dst) => (n, dst)
    | (.error _, dst) => (efbig, dst)

/-- `comp_methods`. -/
def compMethod (lib : Lz4) (chain : ℕ → ℕ) : CompId → Method
  | .lz4 => lz4 lib
  | .lzs => lzs chain

/-- What is compressed to a positive length is decompressed again. -/
structure Method.RoundTrip (m : Method) (dstlen : ℕ) (src : List UInt8) : Prop where
  length : 0 < (m.compress dstlen src).1 →
    ((m.compress dstlen src).2.length : ℤ) = (m.compress dstlen src).1
  decompress : ∀ dst dstlen', 0 < (m.compress dstlen src).1 → src.length ≤ dstlen' →
    (m.decompress dst dstlen' (m.compress dstlen src).2).1 = src.length ∧
      ∀ i < src.length, (m.decompress dst dstlen' (m.compress dstlen src).2).2 i = src.getD i 0

/-! ### Sending -/

def acPktData : UInt8 := 0
def acPktCompressed : UInt8 := 8

/-- A `gnutls_datum_t` in one of the buffers. -/
structure Datum where
  data : Buf
  size : ℕ
  deriving DecidableEq, Repr

/-- The options for the packets, and the methods that were negotiated. -/
structure TunConfig where
  dtls : DtlsConfig
  noCompressLimit : ℕ
  dtlsSelectedComp : Option CompId
  cstpSelectedComp : Option CompId

/-- The part of `worker_st` that `tun_mainloop` changes. -/
structure TunWorker where
  ws : DtlsWorker
  mem : Buffers
  tunBytesOut : UInt64

/-- The packet as it is prepared for the two channels. -/
structure ToSend where
  mem : Buffers
  dtlsToSend : Datum
  dtlsType : UInt8
  cstpToSend : Datum
  cstpType : UInt8

/-- A packet of the tun device, for which there is room in the buffer. -/
structure TunPacket where
  bytes : List UInt8
  ne_nil : bytes ≠ []
  fits : 8 + bytes.length ≤ bufferSize

section

variable (methods : CompId → Method) (cfg : TunConfig)

/-- The packet of `l` bytes as it was read. -/
def plain (mem : Buffers) (l : ℕ) : ToSend :=
  ⟨mem, ⟨.buffer, l⟩, acPktData, ⟨.buffer, l⟩, acPktData⟩

/-- A method is called: what it returns, and the buffers then. -/
def compress (id : CompId) (mem : Buffers) (l : ℕ) : ℤ × Buffers :=
  let (ret, out) := (methods id).compress (bufferSize - 8) (mem.load .buffer 8 l)
  (ret, mem.store .decomp 8 out)

/-- The packet is compressed for DTLS, and so for CSTP if the method is the same. -/
def compressDtls (dtls : CompId) (mem : Buffers) (l : ℕ) : ToSend :=
  let (ret, mem) := compress methods dtls mem l
  let s := plain mem l
  if 0 < ret ∧ ret < l then
    let s := { s with dtlsToSend := ⟨.decomp, ret.toNat⟩, dtlsType := acPktCompressed }
    if cfg.cstpSelectedComp = some dtls then
      { s with cstpToSend := ⟨.decomp, ret.toNat⟩, cstpType := acPktCompressed }
    else s
  else s

/-- The packet is compressed for CSTP. -/
def compressCstp (cstp : CompId) (mem : Buffers) (l : ℕ) : ToSend :=
  let (ret, mem) := compress methods cstp mem l
  let s := plain mem l
  if 0 < ret ∧ ret < l then
    { s with cstpToSend := ⟨.decomp, ret.toNat⟩, cstpType := acPktCompressed }
  else s

/-- The packet is prepared for the channels. -/
def prepare (udpState : UdpState) (mem : Buffers) (l : ℕ) : ToSend :=
  if l > cfg.noCompressLimit then
    match if udpState = .active then cfg.dtlsSelectedComp else none, cfg.cstpSelectedComp with
    | some dtls, _ => compressDtls methods cfg dtls mem l
    | none, some cstp => compressCstp methods cstp mem l
    | none, none => plain mem l
  else plain mem l

end

/-- What is prepared for a packet, which is read to the first of the buffers. -/
def prepared (methods : CompId → Method) (cfg : TunConfig) (pkt : TunPacket) (tun : TunWorker) :
    ToSend :=
  prepare methods cfg tun.ws.udpState (tun.mem.store .buffer 8 pkt.bytes) pkt.bytes.length

/-- The result of `dtls_send`. -/
inductive DtlsRet where
  | sent
  | largePacket
  | error (fatal : Bool)
  deriving DecidableEq, Repr

/-- The result of `cstp_send`. -/
inductive CstpRet where
  | sent
  | error (fatal : Bool)
  deriving DecidableEq, Repr

inductive Channel where
  | dtls
  | cstp
  deriving DecidableEq, Repr

/-- A frame that is handed to `dtls_send` or `cstp_send`, which sends it or not. -/
structure Handed where
  channel : Channel
  frame : List UInt8
  sent : Bool
  deriving DecidableEq, Repr

/-- A call of `tun_mainloop`: the state after it, the frames in the order in which they were handed
over, and whether the worker goes on. -/
structure Call where
  tun : TunWorker
  handed : List Handed
  running : Bool

/-- The TLS channel: the header is put before the packet, and both are sent. -/
def sendCstp (s : ToSend) (ret : CstpRet) (handed : List Handed) (tun : TunWorker) : Call :=
  let mem := tun.mem.store s.cstpToSend.data 0
    [0x53, 0x54, 0x46, 1, UInt8.ofNat (s.cstpToSend.size / 2 ^ 8), UInt8.ofNat s.cstpToSend.size,
      s.cstpType, 0]
  { tun :=
      { tun with mem, tunBytesOut := tun.tunBytesOut + UInt64.ofNat s.cstpToSend.size }
    handed := handed ++
      [⟨.cstp, mem.load s.cstpToSend.data 0 (s.cstpToSend.size + 8), ret = .sent⟩]
    running := ret ≠ .error true }

/-- The DTLS channel: the type is put before the packet, and both are sent. -/
def sendDtls (s : ToSend) (ret : DtlsRet) (tun : TunWorker) : TunWorker × Handed :=
  let mem := tun.mem.store s.dtlsToSend.data 7 [s.dtlsType]
  ({ tun with
      ws := tun.ws.use .send
      mem
      tunBytesOut := tun.tunBytesOut + UInt64.ofNat s.dtlsToSend.size },
    ⟨.dtls, mem.load s.dtlsToSend.data 7 (s.dtlsToSend.size + 1), ret = .sent⟩)

/-- `tun_mainloop`, for a packet; `passes` is `bandwidth_update`. -/
def tunMainloop (methods : CompId → Method) (cfg : TunConfig) (passes : ℕ → Bool) (pkt : TunPacket)
    (dtls : DtlsRet) (cstp : CstpRet) (tun : TunWorker) : Call :=
  let s := prepared methods cfg pkt tun
  let tun := { tun with mem := s.mem }
  if passes s.dtlsToSend.size then
    if tun.ws.udpState = .active then
      let (tun, handed) := sendDtls s dtls tun
      match dtls with
      | .error true => ⟨tun, [handed], false⟩
      -- the code of the error is larger than any MTU, as an `unsigned`
      | .error false =>
        ⟨{ tun with ws := if cfg.dtls.tryMtu then tun.ws.mtuOk else tun.ws }, [handed], true⟩
      | .largePacket => sendCstp s cstp [handed] { tun with ws := tun.ws.mtuNotOk cfg.dtls }
      | .sent =>
        ⟨{ tun with
            ws :=
              if s.dtlsToSend.size + 1 ≥ tun.ws.mtu.connMtu ∧ cfg.dtls.tryMtu then tun.ws.mtuOk
              else tun.ws }, [handed], true⟩
    else sendCstp s cstp [] tun
  else ⟨tun, [], true⟩

/-! ### Receiving -/

/-- `parse_data` on a packet with data: what is written to the tun device.  `decomp` is what the
buffer of the receiver holds before. -/
def parseData (methods : CompId → Method) (comp : Option CompId) (decomp : ℕ → UInt8)
    (head : UInt8) (buf : List UInt8) : Option (List UInt8) :=
  if head = acPktCompressed then
    comp.bind fun id =>
      let (plainSize, decomp) := (methods id).decompress decomp bufferSize buf
      if plainSize ≤ 0 then none else some ((List.range plainSize.toNat).map decomp)
  else if head = acPktData then some buf
  else none

/-- `parse_dtls_data` and `parse_cstp_data`: the type and the payload of a frame. -/
def parseFrame : Channel → List UInt8 → Option (UInt8 × List UInt8)
  | .dtls, [] => none
  | .dtls, head :: buf => some (head, buf)
  | .cstp, buf => Cstp.parseCstpData buf

/-- The method of a channel. -/
def TunConfig.selectedComp (cfg : TunConfig) : Channel → Option CompId
  | .dtls => cfg.dtlsSelectedComp
  | .cstp => cfg.cstpSelectedComp

/-- **One frame for a packet**: one is sent, with a payload that stands for the packet, and
`tun_bytes_out` grows by the size of this payload. -/
def Transmitted (methods : CompId → Method) (cfg : TunConfig) (tun : TunWorker) (pkt : TunPacket)
    (call : Call) : Prop :=
  ∃ handed head payload, call.handed.filter (·.sent) = [handed] ∧
    parseFrame handed.channel handed.frame = some (head, payload) ∧
    (∀ decomp, parseData methods (cfg.selectedComp handed.channel) decomp head payload =
      some pkt.bytes) ∧
    call.tun.tunBytesOut = tun.tunBytesOut + UInt64.ofNat payload.length

/-! ### The buffers as memory -/

section

variable {mem : Buffers} {b b' : Buf} {off off' n : ℕ} {bytes : List UInt8}

theorem length_load : (mem.load b off n).length = n := by simp [Buffers.load]

theorem load_store_same : (mem.store b off bytes).load b off bytes.length = bytes := by
  unfold Buffers.load
  refine List.ext_getElem (by rw [List.length_map, List.length_range']) fun i hi hi' => ?_
  rw [List.getElem_map, List.getElem_range', Nat.one_mul, Buffers.store,
    if_pos ⟨rfl, Nat.le_add_right _ _, Nat.add_lt_add_left hi' off⟩, Nat.add_sub_cancel_left,
    List.getD_eq_getElem _ _ hi']

theorem load_store_other (hne : b' ≠ b) :
    (mem.store b off bytes).load b' off' n = mem.load b' off' n := by
  refine List.map_congr_left fun i _ => ?_
  rw [Buffers.store, if_neg fun h => hne h.1]

/-- What is behind the bytes that are written stays. -/
theorem load_store_behind (hle : off + bytes.length ≤ off') :
    (mem.store b off bytes).load b' off' n = mem.load b' off' n := by
  refine List.map_congr_left fun i hi => ?_
  obtain ⟨hi, -⟩ := List.mem_range'_1.1 hi
  rw [Buffers.store, if_neg fun h => absurd (h.2.2.trans_le hle) (not_lt.2 hi)]

theorem load_add (m : ℕ) : mem.load b off (m + n) = mem.load b off m ++ mem.load b (off + m) n := by
  rw [Buffers.load, Buffers.load, Buffers.load, ← List.map_append, ← List.range'_append_1]

/-- A header that is written right before the bytes of a packet. -/
theorem load_store_header (bytes : List UInt8) {size : ℕ} (hoff : off + bytes.length = off') :
    (mem.store b off bytes).load b off (bytes.length + size) = bytes ++ mem.load b off' size := by
  rw [load_add, load_store_same, load_store_behind (Nat.le_refl _), hoff]

end

/-! ### The methods -/

theorem lz4_roundTrip {lib : Lz4} (h : lib.Documented) (dstlen : ℕ) (src : List UInt8) :
    (lz4 lib).RoundTrip dstlen src where
  length := h.length src src.length
  decompress dst dstlen' := h.decompress src src.length dst dstlen'

theorem lzs_roundTrip (chain : ℕ → ℕ) (dstlen : ℕ) {src : List UInt8} (hsrc : src.length ≤ 2 ^ 16) :
    (lzs chain).RoundTrip dstlen src := by
  obtain ⟨hrun, -⟩ | ⟨out, ts, tail, hrun, -, hbits, hv, hw, hexp⟩ :=
    Lzs.lzsCompress_emits hsrc dstlen chain
  · have hret : (lzs chain).compress dstlen src = (efbig, []) := by simp only [lzs, hrun]
    refine ⟨?_, fun _ _ => ?_⟩
    · rw [hret]
      exact fun h => absurd h (by decide)
    · rw [hret]
      exact fun h => absurd h (by decide)
  · have hret : (lzs chain).compress dstlen src = ((out.length : ℤ), out) := by
      simp only [lzs, hrun]
    refine ⟨fun _ => by rw [hret], fun dst dstlen' _ hle => ?_⟩
    have hdec : Lzs.Decodes (Lzs.exec dstlen' ⟨dst, 0⟩ ts) dstlen' (Lzs.expand [] ts) :=
      Lzs.exec_decodes (.nil dst) hv hw (by rw [hexp, Lzs.intMax]; omega) (Nat.zero_le _)
    rw [← Lzs.lzsDecompress_tokens hv hbits, hexp, Lzs.Decodes, if_pos hle] at hdec
    have hdecompress : (lzs chain).decompress dst dstlen' out =
        ((src.length : ℤ), (Lzs.lzsDecompress dst dstlen' out).2) := by
      simp only [lzs]
      cases hrun' : Lzs.lzsDecompress dst dstlen' out with
      | mk r dst' =>
        rw [hrun'] at hdec
        obtain rfl : r = .ok src.length := hdec.1
        rfl
    rw [hret]
    dsimp only
    rw [hdecompress]
    exact ⟨rfl, hdec.2⟩

theorem compMethod_roundTrip {lib : Lz4} (h : lib.Documented) (chain : ℕ → ℕ) (dstlen : ℕ)
    {src : List UInt8} (hsrc : src.length ≤ 2 ^ 16) (id : CompId) :
    (compMethod lib chain id).RoundTrip dstlen src := by
  cases id with
  | lz4 => exact lz4_roundTrip h dstlen src
  | lzs => exact lzs_roundTrip chain dstlen hsrc

/-! ### What is prepared for the channels -/

section

variable {methods : CompId → Method} {cfg : TunConfig} {pkt : TunPacket} {mem : Buffers}

/-- A payload stands for a packet: with its type, a receiver makes the packet of it. -/
structure Stands (methods : CompId → Method) (comp : Option CompId) (pkt : TunPacket)
    (head : UInt8) (payload : List UInt8) : Prop where
  pos : 0 < payload.length
  le : payload.length ≤ pkt.bytes.length
  parse : ∀ decomp, parseData methods comp decomp head payload = some pkt.bytes

/-- Each channel has a payload that stands for the packet. -/
structure ToSend.Carries (methods : CompId → Method) (cfg : TunConfig) (pkt : TunPacket)
    (s : ToSend) : Prop where
  dtls : Stands methods cfg.dtlsSelectedComp pkt s.dtlsType
    (s.mem.load s.dtlsToSend.data 8 s.dtlsToSend.size)
  cstp : Stands methods cfg.cstpSelectedComp pkt s.cstpType
    (s.mem.load s.cstpToSend.data 8 s.cstpToSend.size)

/-- The packet itself. -/
theorem stands_plain (comp : Option CompId)
    (hmem : mem.load .buffer 8 pkt.bytes.length = pkt.bytes) :
    Stands methods comp pkt acPktData (mem.load .buffer 8 pkt.bytes.length) := by
  rw [hmem]
  exact ⟨List.length_pos_iff.2 pkt.ne_nil, le_rfl, fun _ => rfl⟩

theorem plain_carries (hmem : mem.load .buffer 8 pkt.bytes.length = pkt.bytes) :
    (plain mem pkt.bytes.length).Carries methods cfg pkt :=
  ⟨stands_plain _ hmem, stands_plain _ hmem⟩

/-- After a method was called the packet is still where it was, and if it became shorter, what is
in the other buffer stands for it. -/
theorem compress_spec {id : CompId} (h : (methods id).RoundTrip (bufferSize - 8) pkt.bytes)
    (hmem : mem.load .buffer 8 pkt.bytes.length = pkt.bytes) {ret : ℤ} {mem' : Buffers}
    (hrun : compress methods id mem pkt.bytes.length = (ret, mem')) :
    mem'.load .buffer 8 pkt.bytes.length = pkt.bytes ∧
      (0 < ret ∧ ret < pkt.bytes.length →
        Stands methods (some id) pkt acPktCompressed (mem'.load .decomp 8 ret.toNat)) := by
  have hlength := h.length
  have hdecompress := h.decompress
  unfold compress at hrun
  rw [hmem] at hrun
  cases hcompress : (methods id).compress (bufferSize - 8) pkt.bytes with
  | mk ret' out =>
    rw [hcompress] at hrun hlength hdecompress
    cases hrun
    refine ⟨by rw [load_store_other (by decide), hmem], fun hret => ?_⟩
    have hlen : (out.length : ℤ) = ret := hlength hret.1
    have hpos := List.length_pos_iff.2 pkt.ne_nil
    have hfits := pkt.fits
    obtain rfl : ret = out.length := hlen.symm
    rw [Int.toNat_natCast, load_store_same]
    refine ⟨by omega, by omega, fun decomp => ?_⟩
    obtain ⟨hret', hbytes⟩ := hdecompress decomp bufferSize hret.1 (by omega)
    unfold parseData
    rw [if_pos rfl, Option.bind_some]
    dsimp only at hret' hbytes ⊢
    rw [hret', if_neg (by omega), Int.toNat_natCast]
    refine congrArg some (List.ext_getElem (by simp) fun i hi hi' => ?_)
    rw [List.getElem_map, List.getElem_range, hbytes i hi', List.getD_eq_getElem _ _ hi']

variable (h : ∀ id, (methods id).RoundTrip (bufferSize - 8) pkt.bytes)
  (hmem : mem.load .buffer 8 pkt.bytes.length = pkt.bytes)

include h hmem

theorem compressDtls_carries {dtls : CompId} (hdtls : cfg.dtlsSelectedComp = some dtls) :
    (compressDtls methods cfg dtls mem pkt.bytes.length).Carries methods cfg pkt := by
  unfold compressDtls
  cases hrun : compress methods dtls mem pkt.bytes.length with
  | mk ret mem' =>
    obtain ⟨hmem', hcompressed⟩ := compress_spec (h dtls) hmem hrun
    dsimp only
    split
    · rename_i hret
      split
      · rename_i hsame
        exact ⟨hdtls ▸ hcompressed hret, hsame ▸ hcompressed hret⟩
      · exact ⟨hdtls ▸ hcompressed hret, stands_plain _ hmem'⟩
    · exact plain_carries hmem'

theorem compressCstp_carries {cstp : CompId} (hcstp : cfg.cstpSelectedComp = some cstp) :
    (compressCstp methods cstp mem pkt.bytes.length).Carries methods cfg pkt := by
  unfold compressCstp
  cases hrun : compress methods cstp mem pkt.bytes.length with
  | mk ret mem' =>
    obtain ⟨hmem', hcompressed⟩ := compress_spec (h cstp) hmem hrun
    dsimp only
    split
    · rename_i hret
      exact ⟨stands_plain _ hmem', hcstp ▸ hcompressed hret⟩
    · exact plain_carries hmem'

/-- Whatever was negotiated, each channel gets a payload that stands for the packet. -/
theorem prepare_carries (udpState : UdpState) :
    (prepare methods cfg udpState mem pkt.bytes.length).Carries methods cfg pkt := by
  unfold prepare
  split
  · split
    · rename_i dtls _ hdtls
      refine compressDtls_carries h hmem ?_
      split at hdtls
      · exact hdtls
      · cases hdtls
    · rename_i cstp _ hcstp
      exact compressCstp_carries h hmem hcstp
    · exact plain_carries hmem
  · exact plain_carries hmem

end

/-! ### What is sent -/

section

variable {methods : CompId → Method} {cfg : TunConfig} {pkt : TunPacket} {s : ToSend}
  {tun : TunWorker}

theorem transmitted_of_sent {call : Call} {handed : Handed} {head : UInt8} {payload : List UInt8}
    (hsent : call.handed.filter (·.sent) = [handed])
    (hparse : parseFrame handed.channel handed.frame = some (head, payload))
    (hstands : Stands methods (cfg.selectedComp handed.channel) pkt head payload) :
    Transmitted methods cfg tun pkt call ↔
      call.tun.tunBytesOut = tun.tunBytesOut + UInt64.ofNat payload.length := by
  constructor
  · rintro ⟨handed', head', payload', hsent', hparse', -, hbytes⟩
    obtain rfl : handed = handed' := List.singleton_inj.1 (hsent.symm.trans hsent')
    cases hparse.symm.trans hparse'
    exact hbytes
  · exact fun hbytes => ⟨handed, head, payload, hsent, hparse, hstands.parse, hbytes⟩

theorem not_transmitted_of_none {call : Call} (hnone : call.handed.filter (·.sent) = []) :
    ¬ Transmitted methods cfg tun pkt call := by
  rintro ⟨handed, head, payload, hsent, -⟩
  cases hnone.symm.trans hsent

/-- The frame for DTLS. -/
theorem sendDtls_frame (s : ToSend) (ret : DtlsRet) (tun : TunWorker) :
    (sendDtls s ret tun).2 =
      ⟨.dtls, s.dtlsType :: tun.mem.load s.dtlsToSend.data 8 s.dtlsToSend.size, ret = .sent⟩ := by
  unfold sendDtls
  rw [Nat.add_comm s.dtlsToSend.size 1]
  exact congrArg (Handed.mk .dtls · _) (load_store_header [s.dtlsType] rfl)

/-- The byte before the packet is not a part of it. -/
theorem sendDtls_mem (s : ToSend) (ret : DtlsRet) (tun : TunWorker) (b : Buf) (n : ℕ) :
    (sendDtls s ret tun).1.mem.load b 8 n = tun.mem.load b 8 n :=
  load_store_behind (Nat.le_refl _)

/-- The frame for CSTP. -/
theorem sendCstp_handed (s : ToSend) (ret : CstpRet) (handed : List Handed) (tun : TunWorker) :
    (sendCstp s ret handed tun).handed = handed ++ [⟨.cstp,
      Cstp.encodePacket (s.cstpType, tun.mem.load s.cstpToSend.data 8 s.cstpToSend.size),
      ret = .sent⟩] := by
  unfold sendCstp Cstp.encodePacket
  dsimp only
  rw [Nat.add_comm s.cstpToSend.size 8, length_load]
  exact congrArg (fun frame => handed ++ [Handed.mk .cstp frame _]) (load_store_header _ rfl)

/-- The packet goes over TLS. -/
theorem transmitted_sendCstp (hs : s.Carries methods cfg pkt) (ret : CstpRet) {handed : List Handed}
    (hhanded : handed.filter (·.sent) = []) {tun' : TunWorker}
    (hmem : ∀ b n, tun'.mem.load b 8 n = s.mem.load b 8 n) :
    Transmitted methods cfg tun pkt (sendCstp s ret handed tun') ↔
      ret = .sent ∧ tun'.tunBytesOut = tun.tunBytesOut := by
  have hstands := hs.cstp
  rw [← hmem] at hstands
  have hlen : (tun'.mem.load s.cstpToSend.data 8 s.cstpToSend.size).length < 2 ^ 16 := by
    have hle := hstands.le
    have hfits := pkt.fits
    simp only [bufferSize] at hfits
    omega
  have hparse := Cstp.parseCstpData_encode ⟨s.cstpType, _, hlen⟩
  have hfilter : (sendCstp s ret handed tun').handed.filter (·.sent) =
      [⟨.cstp, Cstp.encodePacket (s.cstpType,
        tun'.mem.load s.cstpToSend.data 8 s.cstpToSend.size), ret = .sent⟩].filter (·.sent) := by
    rw [sendCstp_handed, List.filter_append, hhanded, List.nil_append]
  cases ret with
  | sent =>
    rw [transmitted_of_sent hfilter hparse hstands, length_load]
    exact (UInt64.add_left_inj _).trans (and_iff_right rfl).symm
  | error fatal =>
    refine iff_of_false (not_transmitted_of_none hfilter) fun h => ?_
    cases h.1

/-- A packet that is too large for DTLS is counted before it is sent over TLS. -/
theorem counted_ne {size : ℕ} (hpos : 0 < size) (hsize : size < 2 ^ 16) (bytesOut : UInt64) :
    bytesOut + UInt64.ofNat size ≠ bytesOut := by
  intro h
  have hzero : UInt64.ofNat size = 0 := by simpa using h
  have hnat := congrArg UInt64.toNat hzero
  rw [UInt64.toNat_ofNat', Nat.mod_eq_of_lt (by omega)] at hnat
  exact absurd hnat (Nat.ne_of_gt hpos)

end

/-! ### The DTLS session -/

/-- What the handler leaves of the DTLS session, and whether the worker goes on. -/
def Call.result (call : Call) : DtlsWorker.Result :=
  if call.running then .ok call.tun.ws else .error call.tun.ws

/-- `dtls_send` returns the number of bytes it was given. -/
def DtlsRet.result (size : ℕ) : DtlsRet → SendResult
  | .sent => .sent (size + 1)
  | .largePacket => .largePacket
  | .error fatal => .error fatal

theorem udpState_use (op : DtlsOp) (ws : DtlsWorker) : (ws.use op).udpState = ws.udpState := by
  unfold DtlsWorker.use
  split <;> rfl

theorem udpState_mtuOk (ws : DtlsWorker) : ws.mtuOk.udpState = ws.udpState := by
  unfold DtlsWorker.mtuOk DtlsWorker.mtuSet
  split
  · rfl
  · dsimp only
    split
    · rfl
    · exact udpState_use _ _

theorem sendCstp_result (s : ToSend) (ret : CstpRet) (handed : List Handed) (tun : TunWorker)
    (retry : Bool) (hretry : tun.ws.udpState ≠ .active ∨ retry) :
    (sendCstp s ret handed tun).result =
      DtlsWorker.tunTls retry (ret = .error true) tun.ws := by
  have hrun : (sendCstp s ret handed tun).running = decide (ret ≠ .error true) := rfl
  have hws : (sendCstp s ret handed tun).tun.ws = tun.ws := rfl
  unfold Call.result DtlsWorker.tunTls
  rw [hrun, hws]
  by_cases hfatal : ret = .error true
  · rw [hfatal]
    exact (if_pos ⟨hretry, rfl⟩).symm
  · rw [if_pos (decide_eq_true hfatal), if_neg fun h => hfatal (of_decide_eq_true h.2)]

theorem tunTls_active {ws : DtlsWorker} (hactive : ws.udpState = .active) (cstpFatal : Bool) :
    DtlsWorker.tunTls false cstpFatal ws = .ok ws :=
  if_neg fun h => h.1.elim (fun h => h hactive) Bool.noConfusion

/-- The bytes aside, this is a step of `DtlsWorker.tunMainloop`. -/
theorem tunMainloop_result (methods : CompId → Method) (cfg : TunConfig) (passes : ℕ → Bool)
    (pkt : TunPacket) (dtls : DtlsRet) (cstp : CstpRet) (tun : TunWorker) :
    (tunMainloop methods cfg passes pkt dtls cstp tun).result =
      tun.ws.tunMainloop cfg.dtls
        (if passes (prepared methods cfg pkt tun).dtlsToSend.size then
          .packet (dtls.result (prepared methods cfg pkt tun).dtlsToSend.size)
            (cstp = .error true)
        else .nothing) := by
  unfold tunMainloop DtlsWorker.tunMainloop
  generalize prepared methods cfg pkt tun = s
  dsimp only
  by_cases hpasses : passes s.dtlsToSend.size = true
  · rw [if_pos hpasses, if_pos hpasses]
    by_cases hactive : tun.ws.udpState = .active
    · have huse : (tun.ws.use .send).udpState = .active := (udpState_use _ _).trans hactive
      dsimp only
      rw [if_pos hactive, if_pos hactive]
      cases dtls with
      | error fatal =>
        cases fatal with
        | true => rfl
        | false =>
          dsimp only [Call.result, DtlsRet.result]
          rw [if_pos rfl]
          refine (tunTls_active ?_ _).symm
          split
          · exact (udpState_mtuOk _).trans huse
          · exact huse
      | sent =>
        dsimp only [Call.result, DtlsRet.result]
        rw [if_pos rfl]
        refine (tunTls_active ?_ _).symm
        split
        · exact (udpState_mtuOk _).trans huse
        · exact huse
      | largePacket => exact sendCstp_result s cstp _ _ true (.inr rfl)
    · dsimp only
      rw [if_neg hactive, if_neg hactive]
      exact sendCstp_result s cstp [] _ false (.inl hactive)
  · rw [if_neg hpasses, if_neg hpasses]
    rfl

/-! ### One frame for a packet -/

section

variable {lib : Lz4} (hlib : lib.Documented) (chain : ℕ → ℕ) (cfg : TunConfig) (passes : ℕ → Bool)
  (pkt : TunPacket) (cstp : CstpRet) (tun : TunWorker)

include hlib

theorem prepared_carries :
    (prepared (compMethod lib chain) cfg pkt tun).Carries (compMethod lib chain) cfg pkt := by
  have hfits := pkt.fits
  simp only [bufferSize] at hfits
  exact prepare_carries (compMethod_roundTrip hlib chain _ (by omega)) load_store_same _

/-- A packet that is too large for DTLS is sent over TLS, but it was counted before. -/
theorem largePacket_not_transmitted
    (hpasses : passes (prepared (compMethod lib chain) cfg pkt tun).dtlsToSend.size)
    (hactive : tun.ws.udpState = .active) :
    ¬ Transmitted (compMethod lib chain) cfg tun pkt
      (tunMainloop (compMethod lib chain) cfg passes pkt .largePacket cstp tun) := by
  have hs := prepared_carries hlib chain cfg pkt tun
  unfold tunMainloop
  generalize prepared (compMethod lib chain) cfg pkt tun = s at hs hpasses ⊢
  have hpos := hs.dtls.pos
  have hle := hs.dtls.le
  have hfits := pkt.fits
  rw [length_load] at hpos hle
  simp only [bufferSize] at hfits
  dsimp only
  rw [if_pos hpasses, if_pos hactive, sendDtls_frame,
    transmitted_sendCstp hs cstp rfl (sendDtls_mem s .largePacket _)]
  exact fun h => counted_ne hpos (by omega) _ h.2

end

/-- **When a packet is sent as one frame, and counted once**: the first channel that is tried sends
it. -/
theorem transmitted_iff (lib : Lz4) (hlib : lib.Documented) (chain : ℕ → ℕ) (cfg : TunConfig)
    (passes : ℕ → Bool) (pkt : TunPacket) (dtls : DtlsRet) (cstp : CstpRet) (tun : TunWorker)
    (hpasses : passes (prepared (compMethod lib chain) cfg pkt tun).dtlsToSend.size) :
    Transmitted (compMethod lib chain) cfg tun pkt
        (tunMainloop (compMethod lib chain) cfg passes pkt dtls cstp tun) ↔
      if tun.ws.udpState = .active then dtls = .sent else cstp = .sent := by
  have hs := prepared_carries hlib chain cfg pkt tun
  by_cases hactive : tun.ws.udpState = .active
  · rw [if_pos hactive]
    by_cases hlarge : dtls = .largePacket
    · rw [hlarge]
      exact iff_of_false (largePacket_not_transmitted hlib chain cfg passes pkt cstp tun hpasses
        hactive) fun h => nomatch h
    · unfold tunMainloop
      generalize prepared (compMethod lib chain) cfg pkt tun = s at hs hpasses ⊢
      dsimp only
      rw [if_pos hpasses, if_pos hactive, sendDtls_frame]
      cases dtls with
      | largePacket => exact absurd rfl hlarge
      | error fatal =>
        refine iff_of_false ?_ fun h => nomatch h
        cases fatal with
        | true => exact not_transmitted_of_none rfl
        | false => exact not_transmitted_of_none rfl
      | sent =>
        refine iff_of_true ?_ rfl
        refine (transmitted_of_sent (rfl : List.filter _ [_] = [_]) rfl hs.dtls).2 ?_
        rw [length_load]
        rfl
  · unfold tunMainloop
    dsimp only
    rw [if_pos hpasses, if_neg hactive, if_neg hactive,
      transmitted_sendCstp hs cstp rfl fun _ _ => rfl]
    exact and_iff_left rfl

/-- A library that leaves a block as it is, as LZ4 does if the block would become longer. -/
def noLz4 : Lz4 where
  compressLimitedOutput _ _ := (0, [])
  decompressSafe _ dst _ := (-1, dst)

/-- A packet of four bytes. -/
def fourBytes : TunPacket := ⟨[69, 0, 0, 4], by decide, by decide⟩

/-- LZS over DTLS and LZ4 over TLS. -/
def bothMethods : TunConfig where
  dtls := { ipv6 := false, tryMtu := true, mtuOverhead := 100 }
  noCompressLimit := 0
  dtlsSelectedComp := some .lzs
  cstpSelectedComp := some .lz4

/-- A worker whose DTLS session is active. -/
def activeWorker : TunWorker where
  ws := ⟨.active, .live, ⟨1400, 1400, 1400⟩, [], true⟩
  mem _ _ := 0
  tunBytesOut := 0

theorem noLz4_documented : noLz4.Documented :=
  ⟨fun _ _ h => absurd h (Int.lt_irrefl 0), fun _ _ _ _ h => absurd h (Int.lt_irrefl 0)⟩

theorem transmitted_fourBytes :
    Transmitted (compMethod noLz4 fun _ => 0) bothMethods activeWorker fourBytes
      (tunMainloop (compMethod noLz4 fun _ => 0) bothMethods (fun _ => true) fourBytes .sent .sent
        activeWorker) :=
  (transmitted_iff noLz4 noLz4_documented _ bothMethods _ fourBytes _ _ activeWorker rfl).2 rfl

/-- A packet of the MTU. -/
def largeBytes : TunPacket :=
  ⟨List.replicate 1400 69, List.cons_ne_nil _ _, by rw [List.length_replicate]; decide⟩

/-- It is sent over TLS, and counted for both channels. -/
theorem not_transmitted_largePacket :
    ¬ Transmitted (compMethod noLz4 fun _ => 0)
      { bothMethods with dtlsSelectedComp := none, cstpSelectedComp := none }
      activeWorker largeBytes
      (tunMainloop (compMethod noLz4 fun _ => 0)
        { bothMethods with dtlsSelectedComp := none, cstpSelectedComp := none } (fun _ => true)
        largeBytes .largePacket .sent activeWorker) :=
  largePacket_not_transmitted noLz4_documented _ _ _ largeBytes _ activeWorker rfl rfl

end TunSend

end Worker

end Ocserv
