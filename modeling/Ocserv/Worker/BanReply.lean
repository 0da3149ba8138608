import Ocserv.Ipc.Framing
import Ocserv.Protobuf
import Ocserv.Worker.BanPoints

/-!
# The answer to a ban report

A worker that reports points waits in `ws_add_score_to_ip` for a `CMD_BAN_IP_REPLY`.  Here is what
`handle_commands` (`src/main-misc.c`) makes of the bytes of a `CMD_BAN_IP` message, down to the
bytes of the reply.

The reply goes to the `proc_st` that `send_msg_to_worker` is called with.  With that of the
worker, the worker would get the verdict of `add_ip_to_ban_list` (`answered_of_replyTo`); the call
passes `NULL`, and no report is answered (`not_answered`).
-/

namespace Ocserv

namespace Worker

open Ipc (Codec Delivery frame lengthRead recvSocketMsg)
open Main (BanConfig BanDb addIpToBanList emptyBanDb shortBan client)
open Protobuf
open SecMod (Bytes)

/-! ### The messages -/

namespace BanIpMsg

def fields (m : BanIpMsg) : List Field := [⟨1, .bytes m.ip⟩, ⟨2, .varint m.score.toNat⟩]

/-- `ban_ip_msg__pack` -/
def pack (m : BanIpMsg) : Bytes := encode m.fields

/-- A field is parsed into what is there of the message. -/
def set (m : Option Bytes × Option UInt32) (f : Field) : Option (Option Bytes × Option UInt32) :=
  match f.number, f.value with
  | 1, .bytes ip => some (some ip, m.2)
  | 1, .varint _ => none
  | 2, .varint n => some (m.1, some (UInt32.ofNat n))
  | 2, .bytes _ => none
  | _, _ => some m

/-- `ban_ip_msg__unpack`; both fields are required. -/
def unpack (bs : Bytes) : Option BanIpMsg := do
  let fields ← decode bs
  let m ← build set (none, none) fields
  some ⟨← m.1, ← m.2⟩

theorem unpack_pack {m : BanIpMsg} (h : m.ip.length < 2 ^ 32) : unpack m.pack = some m := by
  have hfits : ∀ f ∈ m.fields, f.Fits := by
    intro f hf
    simp only [fields, List.mem_cons, List.not_mem_nil, or_false] at hf
    rcases hf with rfl | rfl
    · exact .bytes (by decide) h
    · exact .varint (by decide) (lt_trans m.score.toNat_lt (by decide))
  have hbuild : build set (none, none) m.fields = some (some m.ip, some m.score) := by
    simp [build, fields, set]
  rw [unpack, pack, decode_encode _ hfits]
  simp only [Option.bind_eq_bind, Option.bind_some, hbuild]

end BanIpMsg

/-- `ban_ip_reply_msg__pack` -/
def packBanIpReply (reply : AuthRep) : Bytes :=
  encode [⟨1, .varint (match reply with | .ok => 1 | .failed => 3)⟩]

/-- `ban_ip_reply_msg__unpack`; the worker asks only whether the reply is `AUTH__REP__OK`. -/
def unpackBanIpReply (bs : Bytes) : Option AuthRep := do
  match ← decode bs with
  | [⟨1, .varint n⟩] => some (if n = 1 then .ok else .failed)
  | _ => none

theorem packBanIpReply_eq (reply : AuthRep) :
    packBanIpReply reply = [8, match reply with | .ok => 1 | .failed => 3] := by
  have htag : encodeVarint 8 = [8] := encodeVarint_of_lt (by decide)
  cases reply with
  | ok =>
    have hone : encodeVarint 1 = [1] := encodeVarint_of_lt (by decide)
    simp [packBanIpReply, encode, Field.encode, Field.tag, htag, hone]
  | failed =>
    have hthree : encodeVarint 3 = [3] := encodeVarint_of_lt (by decide)
    simp [packBanIpReply, encode, Field.encode, Field.tag, htag, hthree]

/-- The reply, for the functions of `src/common.c`. -/
def banIpReplyCodec : Codec AuthRep where
  getSize _ := 2
  pack := packBanIpReply
  unpack := unpackBanIpReply
  length_pack reply := by rw [packBanIpReply_eq]; rfl
  unpack_pack reply := by
    rw [packBanIpReply_eq]
    cases reply <;> rfl
  unpack_take reply n hn := by
    rw [packBanIpReply_eq]
    match n, hn with
    | 0, _ => exact nofun
    | 1, _ => exact nofun

/-! ### Main -/

def cmdBanIp : UInt8 := 16

def cmdBanIpReply : UInt8 := 17

/-- What `handle_commands` finds: its allocations work out, the time, whether a new entry of the
ban list can be stored, and whether `sendmsg` takes the reply. -/
structure CommandEnv where
  mem : Bool
  now : ℤ
  stored : Bool
  sendmsg : Bool

/-- `ERR_BAD_COMMAND`, `ERR_WORKER_TERMINATED`, `ERR_MEM`. -/
inductive CommandErr where
  | badCommand
  | workerTerminated
  | mem
  deriving DecidableEq, Repr

/-- What `handle_commands` returns and leaves: the ban list, and the bytes it sent with the
descriptors they were sent on. -/
structure CommandResult where
  ret : Except CommandErr Unit
  db : BanDb
  sent : List (ℕ × Bytes)

/-- The case `CMD_BAN_IP` with the body `raw`; `replyTo` is the descriptor in the `proc_st` passed
to `send_msg_to_worker`.  `none` if main does not survive. -/
def banIpCommand (cfg : BanConfig) (db : BanDb) (e : CommandEnv) (replyTo : Option ℕ)
    (raw : Bytes) : Option CommandResult :=
  match BanIpMsg.unpack raw with
  | none => some ⟨.error .badCommand, db, []⟩
  | some tmsg =>
    let (db, ret) := addIpToBanList cfg db e.now tmsg.ip tmsg.score e.stored
    match sendMsgToWorker replyTo (if ret < 0 then .failed else .ok) with
    | none => none
    | some (fd, reply) =>
      if e.sendmsg then some ⟨.ok (), db, [(fd, frame cmdBanIpReply (packBanIpReply reply))]⟩
      else some ⟨.error .badCommand, db, []⟩

/-- `handle_commands` for the stream of a worker's socket; `other` stands for the other cases of
its switch. -/
def handleCommandsFor (other : UInt8 → Bytes → Option CommandResult) (cfg : BanConfig)
    (db : BanDb) (e : CommandEnv) (replyTo : Option ℕ) (segs : Segments UInt8) :
    Option CommandResult :=
  match segs.readSome 3 with
  | none => some ⟨.error .workerTerminated, db, []⟩
  | some (header, segs) =>
    if header.length < 3 then some ⟨.error .badCommand, db, []⟩
    else if !e.mem then some ⟨.error .mem, db, []⟩
    else
      match Segments.readExact (lengthRead header (0, 0)) segs with
      -- `force_read_timeout` gives up
      | none => some ⟨.error .badCommand, db, []⟩
      | some (raw, _) =>
        if header.getD 0 0 = cmdBanIp then banIpCommand cfg db e replyTo raw
        else other (header.getD 0 0) raw

/-- `handle_commands`: the `proc_st` for the reply is `NULL`. -/
def handleCommands (other : UInt8 → Bytes → Option CommandResult) (cfg : BanConfig)
    (db : BanDb) (e : CommandEnv) (segs : Segments UInt8) : Option CommandResult :=
  handleCommandsFor other cfg db e none segs

/-- The report `msg` of the worker on descriptor `fd` was answered: main goes on, has added the
points, and has sent one message, on that descriptor, in which the worker finds the verdict. -/
def Answered (cfg : BanConfig) (db : BanDb) (e : CommandEnv) (fd : ℕ) (msg : BanIpMsg)
    (out : Option CommandResult) : Prop :=
  ∃ r, out = some r ∧ r.db = (addIpToBanList cfg db e.now msg.ip msg.score e.stored).1 ∧
    ∃ wire, r.sent = [(fd, wire)] ∧ ∀ junk,
      recvSocketMsg banIpReplyCodec true cmdBanIpReply junk [wire] =
        some (.ok (some (if (addIpToBanList cfg db e.now msg.ip msg.score e.stored).2 < 0 then
          .failed else .ok)), [])

section

variable {other : UInt8 → Bytes → Option CommandResult} {cfg : BanConfig} {db : BanDb}
  {e : CommandEnv} {fd : ℕ} {msg : BanIpMsg} {replyTo : Option ℕ} {rest : Bytes}

/-- The worker takes the verdict out of the reply. -/
theorem recvSocketMsg_reply (reply : AuthRep) (junk : UInt8 × UInt8) :
    recvSocketMsg banIpReplyCodec true cmdBanIpReply junk
      [frame cmdBanIpReply (packBanIpReply reply)] = some (.ok (some reply), []) := by
  rw [packBanIpReply_eq]
  cases reply <;> rfl

theorem head?_frame (cmd : UInt8) (body : Bytes) : (frame cmd body).head? = some cmd := rfl

/-- What the delivery of a report comes to: an error before the switch, or the case
`CMD_BAN_IP`. -/
theorem handleCommandsFor_banIp (other : UInt8 → Bytes → Option CommandResult) (cfg : BanConfig)
    (db : BanDb) (e : CommandEnv) (replyTo : Option ℕ)
    (d : Delivery (frame cmdBanIp msg.pack) rest) :
    (∃ err, handleCommandsFor other cfg db e replyTo d.segs = some ⟨.error err, db, []⟩) ∨
      ∃ raw, handleCommandsFor other cfg db e replyTo d.segs =
        banIpCommand cfg db e replyTo raw := by
  obtain ⟨segs, hread, -⟩ := d.readSome
  have hcmd := d.rcmd_eq (head?_frame cmdBanIp msg.pack)
  simp only [handleCommandsFor, hread, hcmd, if_true]
  split
  · exact .inl ⟨_, rfl⟩
  · split
    · exact .inl ⟨_, rfl⟩
    · split
      · exact .inl ⟨_, rfl⟩
      · exact .inr ⟨_, rfl⟩

/-- With `NULL` main ends, or has sent nothing. -/
theorem banIpCommand_none (cfg : BanConfig) (db : BanDb) (e : CommandEnv) (raw : Bytes) :
    banIpCommand cfg db e none raw = none ∨
      ∃ err, banIpCommand cfg db e none raw = some ⟨.error err, db, []⟩ := by
  unfold banIpCommand
  cases BanIpMsg.unpack raw with
  | none => exact .inr ⟨_, rfl⟩
  | some tmsg => exact .inl rfl

/-- A report that main reads whole gets to the case `CMD_BAN_IP`. -/
theorem handleCommandsFor_whole (hmem : e.mem = true) (hlen : msg.pack.length < 2 ^ 16)
    {d : Delivery (frame cmdBanIp msg.pack) rest}
    (hall : d.accepted = (frame cmdBanIp msg.pack).length) (hheader : d.header = 3) :
    handleCommandsFor other cfg db e replyTo d.segs =
      banIpCommand cfg db e replyTo msg.pack := by
  obtain ⟨segs, hread, hflat⟩ := d.readSome
  have hcmd := d.rcmd_eq (head?_frame cmdBanIp msg.pack)
  rw [hall, List.take_length, hheader] at hread hcmd hflat
  have hframe : frame cmdBanIp msg.pack = [cmdBanIp, UInt8.ofNat (msg.pack.length % 2 ^ 16),
      UInt8.ofNat (msg.pack.length % 2 ^ 16 / 2 ^ 8)] ++ msg.pack := by
    rw [frame, List.take_of_length_le (Nat.mod_eq_of_lt hlen).ge]
  have hbytes : (frame cmdBanIp msg.pack ++ rest).take 3 = [cmdBanIp,
      UInt8.ofNat (msg.pack.length % 2 ^ 16), UInt8.ofNat (msg.pack.length % 2 ^ 16 / 2 ^ 8)] := by
    rw [hframe]
    rfl
  have hbody : (frame cmdBanIp msg.pack ++ rest).drop 3 = msg.pack ++ rest := by
    rw [hframe]
    rfl
  have hlength : lengthRead ((frame cmdBanIp msg.pack ++ rest).take 3) (0, 0) =
      msg.pack.length := by
    rw [hbytes, Ipc.lengthRead_frame, Nat.mod_eq_of_lt hlen]
  rw [hbody] at hflat
  have hfits : msg.pack.length ≤ segs.flatten.length := by
    rw [hflat, List.length_append]
    omega
  obtain ⟨segs', hraw, -⟩ := Segments.readExact_eq hfits
  rw [hflat, List.take_left] at hraw
  have hthree : ¬ ((frame cmdBanIp msg.pack ++ rest).take 3).length < 3 := by
    rw [hbytes]
    exact Nat.lt_irrefl 3
  simp only [handleCommandsFor, hread, hcmd, hthree, hmem, hlength, hraw, if_true, if_false,
    Bool.not_true, Bool.false_eq_true]

/-- **With the `proc_st` of the worker the report would be answered.** -/
theorem answered_of_replyTo (hmem : e.mem = true) (hsend : e.sendmsg = true)
    (hlen : msg.pack.length < 2 ^ 16) (hip : msg.ip.length < 2 ^ 32)
    {d : Delivery (frame cmdBanIp msg.pack) rest}
    (hall : d.accepted = (frame cmdBanIp msg.pack).length) (hheader : d.header = 3) :
    Answered cfg db e fd msg (handleCommandsFor other cfg db e (some fd) d.segs) := by
  rw [handleCommandsFor_whole hmem hlen hall hheader, banIpCommand, BanIpMsg.unpack_pack hip]
  dsimp only [sendMsgToWorker, Option.map_some]
  rw [if_pos hsend]
  exact ⟨_, rfl, rfl, _, rfl, fun junk => recvSocketMsg_reply _ junk⟩

/-- **No report is answered**, in no state of main and however it is delivered. -/
theorem not_answered (other : UInt8 → Bytes → Option CommandResult) (cfg : BanConfig)
    (db : BanDb) (e : CommandEnv) (fd : ℕ) (msg : BanIpMsg) (rest : Bytes)
    (d : Delivery (frame cmdBanIp msg.pack) rest) :
    ¬ Answered cfg db e fd msg (handleCommands other cfg db e d.segs) := by
  rintro ⟨r, hr, -, wire, hsent, -⟩
  rw [handleCommands] at hr
  rcases handleCommandsFor_banIp other cfg db e none d with ⟨err, herr⟩ | ⟨raw, hraw⟩
  · rw [herr] at hr
    cases hr
    cases hsent
  · rw [hraw] at hr
    rcases banIpCommand_none cfg db e raw with hnone | ⟨err, herr⟩
    · rw [hnone] at hr
      cases hr
    · rw [herr] at hr
      cases hr
      cases hsent

/-- **Main does not survive a report that it reads whole.** -/
theorem handleCommands_whole (hmem : e.mem = true) (hlen : msg.pack.length < 2 ^ 16)
    (hip : msg.ip.length < 2 ^ 32) {d : Delivery (frame cmdBanIp msg.pack) rest}
    (hall : d.accepted = (frame cmdBanIp msg.pack).length) (hheader : d.header = 3) :
    handleCommands other cfg db e d.segs = none := by
  rw [handleCommands, handleCommandsFor_whole hmem hlen hall hheader, banIpCommand,
    BanIpMsg.unpack_pack hip]
  rfl

end

/-- Ten points for a wrong password. -/
theorem not_answered_wrongPassword :
    handleCommands (fun _ _ => none) shortBan emptyBanDb ⟨true, 0, true, true⟩
        [frame cmdBanIp (BanIpMsg.pack ⟨client, 10⟩)] = none ∧
      ¬ Answered shortBan emptyBanDb ⟨true, 0, true, true⟩ 5 ⟨client, 10⟩
        (handleCommands (fun _ _ => none) shortBan emptyBanDb ⟨true, 0, true, true⟩
          [frame cmdBanIp (BanIpMsg.pack ⟨client, 10⟩)]) := by
  have hpack : BanIpMsg.pack ⟨client, 10⟩ = [10, 7, 49, 46, 49, 46, 49, 46, 49, 16, 10] := by
    simp [BanIpMsg.pack, BanIpMsg.fields, encode, Field.encode, Field.tag, encodeVarint_of_lt,
      client]
  let d : Delivery (frame cmdBanIp (BanIpMsg.pack ⟨client, 10⟩)) [] :=
    { accepted := (frame cmdBanIp (BanIpMsg.pack ⟨client, 10⟩)).length
      pos := Nat.succ_pos _
      le := le_rfl
      segs := [frame cmdBanIp (BanIpMsg.pack ⟨client, 10⟩)]
      ne_nil := by
        intro seg hseg
        rw [List.mem_singleton.1 hseg]
        exact List.cons_ne_nil _ _
      flatten_eq := by rw [List.take_length, List.flatten_singleton, List.append_nil] }
  have hnone : handleCommands (fun _ _ => none) shortBan emptyBanDb ⟨true, 0, true, true⟩
      d.segs = none :=
    handleCommands_whole rfl (by rw [hpack]; decide) (by decide) rfl rfl
  refine ⟨hnone, ?_⟩
  rintro ⟨r, hr, -⟩
  rw [show handleCommands _ _ _ _ _ = none from hnone] at hr
  cases hr

end Worker

end Ocserv
