import Ocserv.Protobuf
import Ocserv.SecMod.Entry

/-!
# The configuration of a session

`sec_auth_session_reply_msg` carries the options of a user and a group from sec-mod to main;
`session_open` (`src/main-sec-mod-cmd.c`) fills the `group_cfg_st` of the worker from it.

Strings and lists of strings are those of the C structures; a string that is `NULL` is `none`.
-/

namespace Ocserv

namespace PerUser

open Protobuf (Flagged)
open SecMod (Bytes)

/-- `sec_auth_session_reply_msg` of `src/ipc.proto`, without the reply code. -/
structure SecAuthSessionReplyMsg where
  noUdp : Flagged Bool
  denyRoaming : Flagged Bool
  routes : List Bytes
  iroutes : List Bytes
  dns : List Bytes
  nbns : List Bytes
  ipv4Net : Option Bytes
  ipv4Netmask : Option Bytes
  ipv6Net : Option Bytes
  ipv6Prefix : Flagged UInt32
  cgroup : Option Bytes
  xmlConfigFile : Option Bytes
  rxPerSec : Flagged UInt32
  txPerSec : Flagged UInt32
  netPriority : Flagged UInt32
  explicitIpv4 : Option Bytes
  explicitIpv6 : Option Bytes
  noRoutes : List Bytes
  deriving DecidableEq, Repr

/-- `SEC_AUTH_SESSION_REPLY_MSG__INIT` -/
def SecAuthSessionReplyMsg.init : SecAuthSessionReplyMsg where
  noUdp := ⟨false, false⟩
  denyRoaming := ⟨false, false⟩
  routes := []
  iroutes := []
  dns := []
  nbns := []
  ipv4Net := none
  ipv4Netmask := none
  ipv6Net := none
  ipv6Prefix := ⟨false, 0⟩
  cgroup := none
  xmlConfigFile := none
  rxPerSec := ⟨false, 0⟩
  txPerSec := ⟨false, 0⟩
  netPriority := ⟨false, 0⟩
  explicitIpv4 := none
  explicitIpv6 := none
  noRoutes := []

/-- `group_cfg_st` -/
structure GroupCfg where
  routes : List Bytes
  noRoutes : List Bytes
  iroutes : List Bytes
  dns : List Bytes
  nbns : List Bytes
  ipv4Network : Option Bytes
  ipv6Network : Option Bytes
  ipv6Prefix : UInt32
  ipv4Netmask : Option Bytes
  explicitIpv4 : Option Bytes
  explicitIpv6 : Option Bytes
  cgroup : Option Bytes
  xmlConfigFile : Option Bytes
  rxPerSec : ℕ
  txPerSec : ℕ
  denyRoaming : Bool
  netPriority : UInt32
  noUdp : Bool
  deriving DecidableEq, Repr

/-- The options of the server that are defaults here. -/
structure ServerDefaults where
  denyRoaming : Bool
  udpPort : ℕ
  deriving DecidableEq, Repr

/-- `apply_default_sup_config`, on a `group_cfg_st` that was set to zero. -/
def applyDefaultSupConfig (config : ServerDefaults) : GroupCfg where
  routes := []
  noRoutes := []
  iroutes := []
  dns := []
  nbns := []
  ipv4Network := none
  ipv6Network := none
  ipv6Prefix := 0
  ipv4Netmask := none
  explicitIpv4 := none
  explicitIpv6 := none
  cgroup := none
  xmlConfigFile := none
  rxPerSec := 0
  txPerSec := 0
  denyRoaming := config.denyRoaming
  netPriority := 0
  noUdp := if config.udpPort ≠ 0 then false else true

/-- `session_open`, from the reply of sec-mod on. -/
def sessionOpen (config : GroupCfg) (msg : SecAuthSessionReplyMsg) : GroupCfg where
  noUdp := if msg.noUdp.has then msg.noUdp.value else config.noUdp
  denyRoaming := if msg.denyRoaming.has then msg.denyRoaming.value else config.denyRoaming
  ipv6Prefix := if msg.ipv6Prefix.has then msg.ipv6Prefix.value else config.ipv6Prefix
  rxPerSec := if msg.rxPerSec.value ≠ 0 then msg.rxPerSec.value.toNat else config.rxPerSec
  txPerSec := if msg.txPerSec.value ≠ 0 then msg.txPerSec.value.toNat else config.txPerSec
  netPriority := if msg.netPriority.value ≠ 0 then msg.netPriority.value else config.netPriority
  ipv4Network := msg.ipv4Net.or config.ipv4Network
  ipv4Netmask := msg.ipv4Netmask.or config.ipv4Netmask
  ipv6Network := msg.ipv6Net.or config.ipv6Network
  cgroup := msg.cgroup.or config.cgroup
  xmlConfigFile := msg.xmlConfigFile.or config.xmlConfigFile
  explicitIpv4 := msg.explicitIpv4.or config.explicitIpv4
  explicitIpv6 := msg.explicitIpv6.or config.explicitIpv6
  routes := if 0 < msg.routes.length then msg.routes else config.routes
  noRoutes := if 0 < msg.noRoutes.length then msg.noRoutes else config.noRoutes
  iroutes := if 0 < msg.iroutes.length then msg.iroutes else config.iroutes
  dns := if 0 < msg.dns.length then msg.dns else config.dns
  nbns := if 0 < msg.nbns.length then msg.nbns else config.nbns

/-- The limits are sizes of 32 bits, as they come from the message. -/
theorem sessionOpen_limits (config : ServerDefaults) (msg : SecAuthSessionReplyMsg) :
    (sessionOpen (applyDefaultSupConfig config) msg).rxPerSec < 2 ^ 32 ∧
      (sessionOpen (applyDefaultSupConfig config) msg).txPerSec < 2 ^ 32 := by
  have hlimit : ∀ n : UInt32, (if n ≠ 0 then n.toNat else 0) < 2 ^ 32 := by
    intro n
    split
    · exact n.toNat_lt
    · exact Nat.two_pow_pos 32
  exact ⟨hlimit _, hlimit _⟩

end PerUser

end Ocserv
