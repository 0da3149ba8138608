import Mathlib.Data.List.TakeWhile
import Ocserv.PerUser.SessionReply
import Ocserv.Worker.Headers

/-!
# The configuration files of a user and a group

`src/sup-config/file.c`: the file of the group and then that of the user are read into one
message, each option by a reader of its own.

A file is what `configFileLoad` makes of it, the list of its values in order.  `ConfigFile.text`,
`number`, `lines` and the functions after them say what a file gives for an option, on its own;
`Merged` says what the message has then, and `getSupConfig_merged` that `get_sup_config` fills it
so: an option with one value is the user's, else the group's, and a list is the group's followed
by the user's.
-/

namespace Ocserv

namespace PerUser

open Protobuf (Flagged)
open SecMod (Bytes)
open Worker (ascii caseEq atoi)

/-! ### Loaded files -/

/-- `OPARG_TYPE_*` -/
inductive OpargType where
  | none
  | string
  | boolean
  | numeric
  | hierarchy
  deriving DecidableEq, Repr

/-- `tOptionValue`; the union `v` is there as the string and as the number it can be read as. -/
structure OptionValue where
  valType : OpargType
  pzName : Bytes
  strVal : Bytes
  longVal : ℤ
  deriving DecidableEq, Repr

/-- What `configFileLoad` returns. -/
abbrev ConfigFile := List OptionValue

/-- `optionGetValue` -/
def optionGetValue (pov : ConfigFile) (name : Bytes) : Option OptionValue :=
  pov.find? fun val => val.pzName = name

/-! ### Readers -/

def maxConfigEntries : ℕ := 96

/-- The loop of `READ_RAW_MULTI_LINE`, from the value `val` on. -/
def readLines (name : Bytes) : ConfigFile → List Bytes → List Bytes
  | [], s => s
  | val :: rest, s =>
    if maxConfigEntries ≤ s.length then s
    else if val.pzName ≠ name then readLines name rest s
    else readLines name rest (s ++ [val.strVal])

/-- `READ_RAW_MULTI_LINE` -/
def readRawMultiLine (pov : ConfigFile) (name : Bytes) (s : List Bytes) : List Bytes :=
  match optionGetValue pov name with
  | some val =>
    if val.valType = .string then readLines name (pov.dropWhile (·.pzName ≠ name)) s else s
  | none => s

/-- `READ_RAW_STRING` -/
def readRawString (pov : ConfigFile) (name : Bytes) (s : Option Bytes) : Option Bytes :=
  match optionGetValue pov name with
  | some val => if val.valType = .string then some val.strVal else s
  | none => s

/-- `READ_RAW_NUMERIC` -/
def readRawNumeric (pov : ConfigFile) (name : Bytes) (s : Flagged UInt32) : Flagged UInt32 :=
  match optionGetValue pov name with
  | some val =>
    if val.valType = .numeric then ⟨true, UInt32.ofInt val.longVal⟩
    else if val.valType = .string then ⟨true, UInt32.ofNat (atoi val.strVal)⟩
    else s
  | none => s

/-- The value of a hexadecimal digit. -/
def hexDigit? (c : UInt8) : Option ℕ :=
  if 48 ≤ c ∧ c ≤ 57 then some (c.toNat - 48)
  else if 97 ≤ c ∧ c ≤ 102 then some (c.toNat - 87)
  else if 65 ≤ c ∧ c ≤ 70 then some (c.toNat - 55)
  else none

/-- `strtol` with the base 16, after the `0x`. -/
def strtol16 (digits : Bytes) : ℕ :=
  let n := (digits.takeWhile (hexDigit? · |>.isSome)).foldl
    (fun n c => 16 * n + (hexDigit? c).getD 0) 0
  min n (2 ^ 63 - 1)

/-- The number `READ_RAW_PRIO_TOS` makes of a string. -/
def prioTos (str : Bytes) : UInt32 :=
  if str.take 2 = ascii "0x" then UInt32.ofNat (strtol16 (str.drop 2)) <<< 4
  else UInt32.ofNat (atoi str) + 1

/-- `READ_RAW_PRIO_TOS` -/
def readRawPrioTos (pov : ConfigFile) (name : Bytes) (s : Flagged UInt32) : Flagged UInt32 :=
  match optionGetValue pov name with
  | some val => if val.valType = .string then ⟨true, prioTos val.strVal⟩ else s
  | none => s

/-- The strings `READ_TF` takes for true. -/
def isTrue (tf : Bytes) : Bool := caseEq tf (ascii "true") || caseEq tf (ascii "yes")

/-- `READ_TF` -/
def readTf (pov : ConfigFile) (name : Bytes) (s : Flagged Bool) : Flagged Bool :=
  match readRawString pov name none with
  | none => { s with has := false }
  | some tf => ⟨true, isTrue tf⟩

/-- A list option and, if there is no value of it yet, its aliases. -/
def readAliased (pov : ConfigFile) (name ipv6 ipv4 : Bytes) (s : List Bytes) : List Bytes :=
  let s := readRawMultiLine pov name s
  if s = [] then readRawMultiLine pov ipv4 (readRawMultiLine pov ipv6 s) else s

/-- `extract_prefix`: the network that is left, and the prefix. -/
def extractPrefix (network : Option Bytes) : Option Bytes × UInt32 :=
  match network with
  | none => (none, 0)
  | some network =>
    if 47 ∈ network then
      (some (network.takeWhile (· ≠ 47)),
        UInt32.ofNat (atoi (network.dropWhile (· ≠ 47)).tail))
    else (some network, 0)

/-- The prefix, on the network that was read. -/
def readPrefix (pov : ConfigFile) (network : Option Bytes) (s : Flagged UInt32) :
    Flagged UInt32 :=
  let extracted := (extractPrefix network).2
  if extracted = 0 then readRawNumeric pov (ascii "ipv6-prefix") { s with value := extracted }
  else ⟨true, extracted⟩

/-- A rate, in thousands of bytes. -/
def readRate (pov : ConfigFile) (name : Bytes) (s : Flagged UInt32) : Flagged UInt32 :=
  let s := readRawNumeric pov name s
  { s with value := s.value / 1000 }

/-! ### Reading the files -/

def errReadConfig : ℤ := -7

/-- `parse_group_cfg_file`, on the options of a file. -/
def parseOptions (pov : ConfigFile) (msg : SecAuthSessionReplyMsg) : SecAuthSessionReplyMsg :=
  let ipv6Net := readRawString pov (ascii "ipv6-network") msg.ipv6Net
  { noUdp := readTf pov (ascii "no-udp") msg.noUdp
    denyRoaming := readTf pov (ascii "deny-roaming") msg.denyRoaming
    routes := readRawMultiLine pov (ascii "route") msg.routes
    noRoutes := readRawMultiLine pov (ascii "no-route") msg.noRoutes
    iroutes := readRawMultiLine pov (ascii "iroute") msg.iroutes
    dns := readAliased pov (ascii "dns") (ascii "ipv6-dns") (ascii "ipv4-dns") msg.dns
    nbns := readAliased pov (ascii "nbns") (ascii "ipv6-nbns") (ascii "ipv4-nbns") msg.nbns
    cgroup := readRawString pov (ascii "cgroup") msg.cgroup
    ipv4Net := readRawString pov (ascii "ipv4-network") msg.ipv4Net
    ipv4Netmask := readRawString pov (ascii "ipv4-netmask") msg.ipv4Netmask
    explicitIpv4 := readRawString pov (ascii "explicit-ipv4") msg.explicitIpv4
    explicitIpv6 := readRawString pov (ascii "explicit-ipv6") msg.explicitIpv6
    ipv6Net := (extractPrefix ipv6Net).1
    ipv6Prefix := readPrefix pov ipv6Net msg.ipv6Prefix
    rxPerSec := readRate pov (ascii "rx-data-per-sec") msg.rxPerSec
    txPerSec := readRate pov (ascii "tx-data-per-sec") msg.txPerSec
    netPriority := readRawPrioTos pov (ascii "net-priority") msg.netPriority
    xmlConfigFile := readRawString pov (ascii "user-profile") msg.xmlConfigFile }

/-- `parse_group_cfg_file`; a file that cannot be loaded is left out. -/
def parseGroupCfgFile (pov : Option ConfigFile) (msg : SecAuthSessionReplyMsg) :
    Except ℤ SecAuthSessionReplyMsg :=
  match pov with
  | none => .ok msg
  | some [] => .error errReadConfig
  | some pov => .ok (parseOptions pov msg)

/-- The file system: what `access` allows to read, and what `configFileLoad` makes of a file. -/
structure Files where
  readable : Bytes → Bool
  load : Bytes → Option ConfigFile

/-- The options of the server that are read here. -/
structure SupCfg where
  perGroupDir : Option Bytes
  perUserDir : Option Bytes
  defaultGroupConf : Option Bytes
  defaultUserConf : Option Bytes

/-- The file `read_sup_config_file` loads, if it can. -/
def supConfigFile (files : Files) (file : Bytes) (fallback : Option Bytes) :
    Option ConfigFile :=
  if files.readable file then files.load file else fallback.bind files.load

/-- `read_sup_config_file` -/
def readSupConfigFile (files : Files) (file : Bytes) (fallback : Option Bytes)
    (msg : SecAuthSessionReplyMsg) : Except ℤ SecAuthSessionReplyMsg :=
  parseGroupCfgFile (supConfigFile files file fallback) msg

/-- `_POSIX_PATH_MAX` -/
def posixPathMax : ℕ := 256

/-- `snprintf` of a name in a directory. -/
def supPath (dir name : Bytes) : Bytes := (dir ++ ascii "/" ++ name).take (posixPathMax - 1)

/-- The first part of `get_sup_config`: the group's file. -/
def getGroupConfig (cfg : SupCfg) (files : Files) (groupname : Bytes)
    (msg : SecAuthSessionReplyMsg) : Except ℤ SecAuthSessionReplyMsg :=
  match cfg.perGroupDir with
  | some dir =>
    if groupname ≠ [] then
      readSupConfigFile files (supPath dir groupname) cfg.defaultGroupConf msg
    else .ok msg
  | none => .ok msg

/-- The second part of `get_sup_config`: the user's file. -/
def getUserConfig (cfg : SupCfg) (files : Files) (username : Bytes)
    (msg : SecAuthSessionReplyMsg) : Except ℤ SecAuthSessionReplyMsg :=
  match cfg.perUserDir with
  | some dir => readSupConfigFile files (supPath dir username) cfg.defaultUserConf msg
  | none => .ok msg

/-- `get_sup_config` -/
def getSupConfig (cfg : SupCfg) (files : Files) (groupname username : Bytes)
    (msg : SecAuthSessionReplyMsg) : Except ℤ SecAuthSessionReplyMsg := do
  let msg ← getGroupConfig cfg files groupname msg
  getUserConfig cfg files username msg

/-! ### What a file gives for an option -/

namespace ConfigFile

variable (f : ConfigFile) (name : Bytes)

/-- The string of the first value with the name. -/
def text : Option Bytes :=
  (optionGetValue f name).bind fun val =>
    if val.valType = .string then some val.strVal else none

/-- A boolean option. -/
def flag : Option Bool := (f.text name).map isTrue

/-- A number, as a number or as a string. -/
def number : Option UInt32 :=
  (optionGetValue f name).bind fun val =>
    if val.valType = .numeric then some (UInt32.ofInt val.longVal)
    else if val.valType = .string then some (UInt32.ofNat (atoi val.strVal))
    else none

/-- A list: the strings of all values with the name. -/
def lines : List Bytes :=
  if (f.text name).isSome then (f.filter fun val => val.pzName = name).map (·.strVal) else []

/-- A list that has aliases for its option. -/
def aliased (ipv6 ipv4 : Bytes) : List Bytes :=
  if f.lines name = [] then f.lines ipv6 ++ f.lines ipv4 else f.lines name

/-- The IPv6 prefix: after the network, or on its own. -/
def prefix6 : Option UInt32 :=
  let extracted := (extractPrefix (f.text (ascii "ipv6-network"))).2
  if extracted = 0 then f.number (ascii "ipv6-prefix") else some extracted

end ConfigFile

/-- The files that are loaded, if they are. -/
structure Layers where
  group : Option ConfigFile
  user : Option ConfigFile

namespace Layers

variable (l : Layers)

/-- The user's value, else the group's. -/
def pick {A : Type} (given : ConfigFile → Option A) : Option A :=
  (l.user.bind given).or (l.group.bind given)

/-- The user's list if the user has one, else the group's. -/
def pickList (given : ConfigFile → List Bytes) : List Bytes :=
  if (l.user.elim [] given) = [] then l.group.elim [] given else l.user.elim [] given

/-- The group's list and then the user's, as far as there is room. -/
def append (given : ConfigFile → List Bytes) : List Bytes :=
  (l.group.elim [] given ++ l.user.elim [] given).take maxConfigEntries

/-- The group gives a value, and a file of the user is read that gives none. -/
def CarriedOver {A : Type} (given : ConfigFile → Option A) : Prop :=
  (l.group.bind given).isSome ∧ ∃ f, l.user = some f ∧ given f = none

/-- The group gives a list, and a file of the user is read that gives the option by its aliases
only. -/
def AliasOnly (name ipv6 ipv4 : Bytes) : Prop :=
  l.group.elim [] (·.aliased name ipv6 ipv4) ≠ [] ∧
    ∃ f, l.user = some f ∧ f.lines name = [] ∧ f.lines ipv6 ++ f.lines ipv4 ≠ []

/-- The files are read one after the other, that of the group first. -/
def read {S : Type} (reader : ConfigFile → S → S) (s : S) : S :=
  let s := l.group.elim s (reader · s)
  l.user.elim s (reader · s)

end Layers

/-- The options with one value that are strings, and the priority: the user's value, else the
group's, else unset. -/
structure StringsPicked (l : Layers) (msg : SecAuthSessionReplyMsg) : Prop where
  cgroup : msg.cgroup = l.pick (·.text (ascii "cgroup"))
  ipv4Net : msg.ipv4Net = l.pick (·.text (ascii "ipv4-network"))
  ipv4Netmask : msg.ipv4Netmask = l.pick (·.text (ascii "ipv4-netmask"))
  ipv6Net : msg.ipv6Net = (extractPrefix (l.pick (·.text (ascii "ipv6-network")))).1
  explicitIpv4 : msg.explicitIpv4 = l.pick (·.text (ascii "explicit-ipv4"))
  explicitIpv6 : msg.explicitIpv6 = l.pick (·.text (ascii "explicit-ipv6"))
  xmlConfigFile : msg.xmlConfigFile = l.pick (·.text (ascii "user-profile"))
  netPriority : msg.netPriority.toOption =
    (l.pick (·.text (ascii "net-priority"))).map prioTos

/-- Every option is the user's, else the group's, else unset. -/
structure Overridden (l : Layers) (msg : SecAuthSessionReplyMsg) : Prop
    extends StringsPicked l msg where
  noUdp : msg.noUdp.toOption = l.pick (·.flag (ascii "no-udp"))
  denyRoaming : msg.denyRoaming.toOption = l.pick (·.flag (ascii "deny-roaming"))
  ipv6Prefix : msg.ipv6Prefix.toOption = l.pick (·.prefix6)
  rxPerSec : msg.rxPerSec.toOption =
    (l.pick (·.number (ascii "rx-data-per-sec"))).map (· / 1000)
  txPerSec : msg.txPerSec.toOption =
    (l.pick (·.number (ascii "tx-data-per-sec"))).map (· / 1000)
  routes : msg.routes = l.pickList (·.lines (ascii "route"))
  noRoutes : msg.noRoutes = l.pickList (·.lines (ascii "no-route"))
  iroutes : msg.iroutes = l.pickList (·.lines (ascii "iroute"))
  dns : msg.dns = l.pickList (·.aliased (ascii "dns") (ascii "ipv6-dns") (ascii "ipv4-dns"))
  nbns : msg.nbns = l.pickList (·.aliased (ascii "nbns") (ascii "ipv6-nbns") (ascii "ipv4-nbns"))

/-- Every option with one value is the user's, else the group's, else unset; every list is the
group's and then the user's.  Of the flags, the prefix and the rates this is said where the user's
file gives the option or the group's does not, and of the lists with aliases where the user's
file does not use the aliases alone for a list that the group's has. -/
structure Merged (l : Layers) (msg : SecAuthSessionReplyMsg) : Prop
    extends StringsPicked l msg where
  noUdp : ¬ l.CarriedOver (·.flag (ascii "no-udp")) →
    msg.noUdp.toOption = l.pick (·.flag (ascii "no-udp"))
  denyRoaming : ¬ l.CarriedOver (·.flag (ascii "deny-roaming")) →
    msg.denyRoaming.toOption = l.pick (·.flag (ascii "deny-roaming"))
  ipv6Prefix : ¬ l.CarriedOver (·.prefix6) → msg.ipv6Prefix.toOption = l.pick (·.prefix6)
  rxPerSec : ¬ l.CarriedOver (·.number (ascii "rx-data-per-sec")) →
    msg.rxPerSec.toOption = (l.pick (·.number (ascii "rx-data-per-sec"))).map (· / 1000)
  txPerSec : ¬ l.CarriedOver (·.number (ascii "tx-data-per-sec")) →
    msg.txPerSec.toOption = (l.pick (·.number (ascii "tx-data-per-sec"))).map (· / 1000)
  routes : msg.routes = l.append (·.lines (ascii "route"))
  noRoutes : msg.noRoutes = l.append (·.lines (ascii "no-route"))
  iroutes : msg.iroutes = l.append (·.lines (ascii "iroute"))
  dns : ¬ l.AliasOnly (ascii "dns") (ascii "ipv6-dns") (ascii "ipv4-dns") →
    msg.dns = l.append (·.aliased (ascii "dns") (ascii "ipv6-dns") (ascii "ipv4-dns"))
  nbns : ¬ l.AliasOnly (ascii "nbns") (ascii "ipv6-nbns") (ascii "ipv4-nbns") →
    msg.nbns = l.append (·.aliased (ascii "nbns") (ascii "ipv6-nbns") (ascii "ipv4-nbns"))

/-- The files `get_sup_config` loads. -/
def layers (cfg : SupCfg) (files : Files) (groupname username : Bytes) : Layers where
  group := cfg.perGroupDir.bind fun dir =>
    if groupname ≠ [] then supConfigFile files (supPath dir groupname) cfg.defaultGroupConf
    else none
  user := cfg.perUserDir.bind fun dir =>
    supConfigFile files (supPath dir username) cfg.defaultUserConf

/-! ### What the readers do -/

variable (f : ConfigFile) (name : Bytes)

theorem readRawString_eq (s : Option Bytes) :
    readRawString f name s = (f.text name).or s := by
  unfold readRawString ConfigFile.text
  cases optionGetValue f name with
  | none => rfl
  | some val => by_cases h : val.valType = .string <;> simp [h]

theorem readRawPrioTos_toOption (s : Flagged UInt32) :
    (readRawPrioTos f name s).toOption = ((f.text name).map prioTos).or s.toOption := by
  unfold readRawPrioTos ConfigFile.text
  cases optionGetValue f name with
  | none => rfl
  | some val => by_cases h : val.valType = .string <;> simp [h, Flagged.toOption]

theorem readTf_toOption (s : Flagged Bool) : (readTf f name s).toOption = f.flag name := by
  unfold readTf ConfigFile.flag
  rw [readRawString_eq, Option.or_none]
  cases f.text name <;> rfl

theorem readRawNumeric_eq (s : Flagged UInt32) :
    readRawNumeric f name s = (f.number name).elim s (⟨true, ·⟩) := by
  unfold readRawNumeric ConfigFile.number
  cases optionGetValue f name with
  | none => rfl
  | some val =>
    by_cases hn : val.valType = .numeric
    · simp [hn]
    · by_cases hs : val.valType = .string <;> simp [hn, hs]

theorem readRate_toOption (s : Flagged UInt32) :
    (readRate f name s).toOption =
      ((f.number name).or s.toOption).map (· / 1000) := by
  unfold readRate
  rw [readRawNumeric_eq]
  cases f.number name with
  | none => by_cases h : s.has <;> simp [Flagged.toOption, h]
  | some n => simp [Flagged.toOption]

/-- The loop adds the strings of the values with the name, as far as there is room. -/
theorem readLines_eq (s : List Bytes) :
    readLines name f s =
      s ++ ((f.filter fun val => val.pzName = name).map (·.strVal)).take
        (maxConfigEntries - s.length) := by
  induction f generalizing s with
  | nil => simp [readLines]
  | cons val rest ih =>
    rw [readLines]
    -- the loop ends at the first value for which there is no room
    by_cases hfull : maxConfigEntries ≤ s.length
    · rw [if_pos hfull, Nat.sub_eq_zero_of_le hfull, List.take_zero, List.append_nil]
    · rw [if_neg hfull]
      by_cases hname : val.pzName = name
      · obtain ⟨k, hk⟩ : ∃ k, maxConfigEntries - s.length = k + 1 :=
          Nat.exists_eq_succ_of_ne_zero (Nat.sub_ne_zero_of_lt (Nat.not_le.1 hfull))
        have hk' : maxConfigEntries - (s ++ [val.strVal]).length = k := by
          rw [List.length_append, List.length_singleton, ← Nat.sub_sub, hk, Nat.add_sub_cancel]
        rw [if_neg (not_not.2 hname), ih, hk', hk]
        simp [hname]
      · rw [if_pos hname, ih]
        simp [hname]

/-- The values before the first one with the name have other names. -/
theorem filter_dropWhile_name :
    (f.dropWhile (·.pzName ≠ name)).filter (fun val => val.pzName = name) =
      f.filter fun val => val.pzName = name := by
  have hbefore : (f.takeWhile (·.pzName ≠ name)).filter (fun val => val.pzName = name) = [] := by
    rw [List.filter_eq_nil_iff]
    intro val hval
    simpa using List.mem_takeWhile_imp hval
  calc (f.dropWhile (·.pzName ≠ name)).filter (fun val => val.pzName = name)
      = (f.takeWhile (·.pzName ≠ name)).filter (fun val => val.pzName = name) ++
          (f.dropWhile (·.pzName ≠ name)).filter (fun val => val.pzName = name) := by
        rw [hbefore, List.nil_append]
    _ = f.filter fun val => val.pzName = name := by
        rw [← List.filter_append, List.takeWhile_append_dropWhile]

theorem readRawMultiLine_eq (s : List Bytes) :
    readRawMultiLine f name s = s ++ (f.lines name).take (maxConfigEntries - s.length) := by
  unfold readRawMultiLine ConfigFile.lines ConfigFile.text
  cases optionGetValue f name with
  | none => simp
  | some val =>
    by_cases hs : val.valType = .string
    · simp only [Option.bind_some, if_pos hs, Option.isSome_some, if_true]
      rw [readLines_eq, filter_dropWhile_name]
    · simp [hs]

/-- Two readers in a row have the room that one has. -/
theorem take_append_take (s xs ys : List Bytes) :
    (s ++ xs.take (maxConfigEntries - s.length)) ++
        ys.take (maxConfigEntries - (s ++ xs.take (maxConfigEntries - s.length)).length) =
      s ++ (xs ++ ys).take (maxConfigEntries - s.length) := by
  rw [List.append_assoc, List.take_append, List.length_append, List.length_take]
  congr 3
  omega

/-- The aliases are tried as long as the list is empty. -/
theorem readAliased_eq {ipv6 ipv4 : Bytes} {s : List Bytes}
    (h : s = [] ∨ f.lines name ≠ [] ∨ f.lines ipv6 ++ f.lines ipv4 = []) :
    readAliased f name ipv6 ipv4 s =
      s ++ (f.aliased name ipv6 ipv4).take (maxConfigEntries - s.length) := by
  unfold readAliased ConfigFile.aliased
  simp only [readRawMultiLine_eq]
  by_cases hlines : f.lines name = []
  · rw [hlines, List.take_nil, List.append_nil, if_pos rfl]
    -- the option itself gave nothing: the aliases count if nothing else did
    rcases h with rfl | h | h
    · rw [if_pos rfl]
      exact take_append_take [] _ _
    · exact absurd hlines h
    · obtain ⟨h₆, h₄⟩ := List.append_eq_nil_iff.1 h
      simp [h₆, h₄]
  · rw [if_neg hlines]
    refine if_neg fun hc => hlines ?_
    obtain ⟨rfl, htake⟩ := List.append_eq_nil_iff.1 hc
    simpa [maxConfigEntries] using htake

theorem extractPrefix_fst (network : Option Bytes) :
    (extractPrefix network).1 = network.map (·.takeWhile (· ≠ 47)) := by
  unfold extractPrefix
  cases network with
  | none => rfl
  | some network =>
    by_cases h : 47 ∈ network
    · simp [h]
    · have hall : network.takeWhile (· ≠ 47) = network := by
        rw [List.takeWhile_eq_self_iff]
        intro c hc
        simpa using fun heq : c = 47 => h (heq ▸ hc)
      dsimp only
      rw [if_neg h, Option.map_some, hall]

/-- Nothing is left to extract from a network that was read. -/
theorem extractPrefix_idem (network : Option Bytes) :
    extractPrefix (extractPrefix network).1 = ((extractPrefix network).1, 0) := by
  rw [extractPrefix_fst]
  cases network with
  | none => rfl
  | some network =>
    have h : 47 ∉ network.takeWhile (· ≠ 47) := fun hmem => by
      simpa using List.mem_takeWhile_imp hmem
    rw [Option.map_some, extractPrefix, if_neg h]

/-! ### Two files -/

section TwoFiles

variable {S A B : Type} {reader : ConfigFile → S → S} (l : Layers) (out : S → Option A)

theorem Layers.pick_map (given : ConfigFile → Option A) (g : A → B) :
    l.pick (fun f => (given f).map g) = (l.pick given).map g := by
  unfold Layers.pick
  cases l.group <;> cases l.user <;> simp [Option.map_or]

/-- What is read of a part of the state is read by the reader of that part. -/
theorem Layers.read_map {T : Type} (proj : S → T) {reader' : ConfigFile → T → T}
    (h : ∀ f s, proj (reader f s) = reader' f (proj s)) (s : S) :
    proj (l.read reader s) = l.read reader' (proj s) := by
  unfold Layers.read
  cases l.group <;> cases l.user <;> simp [h]

/-- An option whose value replaces the one before. -/
theorem Layers.read_pick {given : ConfigFile → Option A} {s : S}
    (hstep : ∀ f s, out (reader f s) = (given f).or (out s)) (hs : out s = none) :
    out (l.read reader s) = l.pick given := by
  unfold Layers.read Layers.pick
  cases l.group <;> cases l.user <;> simp [hstep, hs]

/-- An option whose value replaces the one before, but may be lost when a file gives none. -/
theorem Layers.read_pick_of_not_carriedOver {given : ConfigFile → Option B} (scale : B → A)
    {I : S → Prop} {s : S} (hI : ∀ f s, I s → I (reader f s))
    (hset : ∀ f s, I s → ∀ b ∈ given f, out (reader f s) = some (scale b))
    (hunset : ∀ f s, I s → given f = none → out s = none → out (reader f s) = none)
    (h₀ : I s) (hs : out s = none) (hl : ¬ l.CarriedOver given) :
    out (l.read reader s) = (l.pick given).map scale := by
  -- the file of the group is read on an unset option
  have hone (f : ConfigFile) : out (reader f s) = (given f).map scale := by
    cases hg : given f with
    | none => exact hunset f s h₀ hg hs
    | some b => exact hset f s h₀ b hg
  unfold Layers.read Layers.pick
  cases hu : l.user with
  | none =>
    cases hgr : l.group with
    | none => simpa using hs
    | some g => simpa using hone g
  | some u =>
    cases hgr : l.group with
    | none => simpa using hone u
    | some g =>
      dsimp only [Option.elim_some, Option.bind_some]
      cases hgu : given u with
      | some b => exact hset u _ (hI g s h₀) b hgu
      | none =>
        -- nothing is carried over, so the group gave nothing either
        have hgg : given g = none := by
          by_contra hc
          exact hl ⟨by simpa [hgr] using Option.isSome_iff_ne_none.2 hc, u, hu, hgu⟩
        rw [hgg]
        exact hunset u _ (hI g s h₀) hgu ((hone g).trans (by rw [hgg]; rfl))

/-- A list to which each file adds its own. -/
theorem Layers.read_append {reader : ConfigFile → List Bytes → List Bytes}
    {given : ConfigFile → List Bytes}
    (hgroup : ∀ g ∈ l.group, reader g [] = (given g).take maxConfigEntries)
    (huser : ∀ u ∈ l.user, ∀ s, s = (l.group.elim [] given).take maxConfigEntries →
      reader u s = s ++ (given u).take (maxConfigEntries - s.length)) :
    l.read reader [] = l.append given := by
  have hfirst : l.group.elim [] (reader · []) =
      (l.group.elim [] given).take maxConfigEntries := by
    cases hgr : l.group with
    | none => rfl
    | some g => exact hgroup g hgr
  unfold Layers.read Layers.append
  cases hu : l.user with
  | none => simpa using hfirst
  | some u =>
    dsimp only [Option.elim_some]
    rw [huser u hu _ hfirst, hfirst]
    exact take_append_take [] _ _

end TwoFiles

/-! ### The readers, on two files

`proj` is the part of the state that the reader fills. -/

section Readers

variable {S : Type} {reader : ConfigFile → S → S} {name : Bytes} {s : S} (l : Layers)

theorem Layers.read_lines (proj : S → List Bytes)
    (h : ∀ f s, proj (reader f s) = readRawMultiLine f name (proj s)) (hs : proj s = []) :
    proj (l.read reader s) = l.append (·.lines name) := by
  rw [l.read_map proj h, hs]
  exact l.read_append (fun g _ => readRawMultiLine_eq g name []) fun u _ s _ =>
    readRawMultiLine_eq u name s

theorem Layers.read_aliased (proj : S → List Bytes) {ipv6 ipv4 : Bytes}
    (h : ∀ f s, proj (reader f s) = readAliased f name ipv6 ipv4 (proj s)) (hs : proj s = [])
    (hl : ¬ l.AliasOnly name ipv6 ipv4) :
    proj (l.read reader s) = l.append (·.aliased name ipv6 ipv4) := by
  rw [l.read_map proj h, hs]
  refine l.read_append (fun g _ => readAliased_eq g name (.inl rfl)) ?_
  intro u hu s hs
  refine readAliased_eq u name ?_
  by_contra hc
  obtain ⟨hne, hlines, haliases⟩ := by simpa only [not_or, not_not] using hc
  refine hl ⟨fun hgroup => hne ?_, u, hu, hlines, haliases⟩
  rw [hs, hgroup, List.take_nil]

theorem Layers.read_string (proj : S → Option Bytes)
    (h : ∀ f s, proj (reader f s) = readRawString f name (proj s)) (hs : proj s = none) :
    proj (l.read reader s) = l.pick (·.text name) :=
  l.read_pick proj (fun f s => (h f s).trans (readRawString_eq f name _)) hs

theorem Layers.read_priority (proj : S → Flagged UInt32)
    (h : ∀ f s, proj (reader f s) = readRawPrioTos f name (proj s))
    (hs : (proj s).toOption = none) :
    (proj (l.read reader s)).toOption = (l.pick (·.text name)).map prioTos :=
  (l.read_pick (fun s => (proj s).toOption)
    (fun f s => (h f s ▸ readRawPrioTos_toOption f name (proj s) :)) hs).trans (l.pick_map _ _)

theorem Layers.read_flag (proj : S → Flagged Bool)
    (h : ∀ f s, proj (reader f s) = readTf f name (proj s)) (hs : (proj s).toOption = none)
    (hl : ¬ l.CarriedOver (·.flag name)) :
    (proj (l.read reader s)).toOption = l.pick (·.flag name) := by
  have hflag (f : ConfigFile) (s : S) : (proj (reader f s)).toOption = f.flag name :=
    h f s ▸ readTf_toOption f name (proj s)
  have hread : (proj (l.read reader s)).toOption = (l.pick (·.flag name)).map id :=
    l.read_pick_of_not_carriedOver (fun s => (proj s).toOption) id (I := fun _ => True)
      (fun _ _ _ => trivial) (fun f s _ b hb => (hflag f s).trans hb)
      (fun f s _ hf _ => (hflag f s).trans hf) trivial hs hl
  rw [hread, Option.map_id_fun, id]

theorem Layers.read_rate (proj : S → Flagged UInt32)
    (h : ∀ f s, proj (reader f s) = readRate f name (proj s)) (hs : (proj s).toOption = none)
    (hl : ¬ l.CarriedOver (·.number name)) :
    (proj (l.read reader s)).toOption = (l.pick (·.number name)).map (· / 1000) := by
  refine l.read_pick_of_not_carriedOver (fun s => (proj s).toOption) (· / 1000)
    (I := fun _ => True) (fun _ _ _ => trivial) (fun f s _ n hn => ?_)
    (fun f s _ hf hnone => ?_) trivial hs hl
  · rw [h, readRate_toOption, Option.mem_def.1 hn]
    rfl
  · rw [h, readRate_toOption, hf, hnone]
    rfl

/-- The network and its prefix, as `parse_group_cfg_file` reads them. -/
def readNetwork (f : ConfigFile) (s : Option Bytes × Flagged UInt32) :
    Option Bytes × Flagged UInt32 :=
  let ipv6Net := readRawString f (ascii "ipv6-network") s.1
  ((extractPrefix ipv6Net).1, readPrefix f ipv6Net s.2)

theorem Layers.read_network (proj : S → Option Bytes × Flagged UInt32)
    (h : ∀ f s, proj (reader f s) = readNetwork f (proj s)) (hs : (proj s).1 = none) :
    (proj (l.read reader s)).1 = (extractPrefix (l.pick (·.text (ascii "ipv6-network")))).1 := by
  have htwo (f : ConfigFile) (s : S) (network : Option Bytes)
      (hs : (proj s).1 = (extractPrefix network).1) : (proj (reader f s)).1 =
        (extractPrefix ((f.text (ascii "ipv6-network")).or network)).1 := by
    rw [h, readNetwork, hs, readRawString_eq]
    -- a network that stays was cut at its prefix already
    cases f.text (ascii "ipv6-network") with
    | none => simp only [Option.none_or, extractPrefix_idem]
    | some text => rfl
  unfold Layers.read Layers.pick
  cases l.group with
  | none =>
    cases l.user with
    | none => exact hs
    | some u => exact htwo u s none hs
  | some g =>
    have hone := htwo g s none hs
    rw [Option.or_none] at hone
    cases l.user with
    | none => exact hone
    | some u => exact htwo u _ _ hone

/-- Once the network that was there has no prefix, the file gives its own. -/
theorem readPrefix_eq {network : Option Bytes} (h : (extractPrefix network).2 = 0)
    (s : Flagged UInt32) :
    readPrefix f (readRawString f (ascii "ipv6-network") network) s =
      f.prefix6.elim { s with value := 0 } (⟨true, ·⟩) := by
  have hextract : (extractPrefix (readRawString f (ascii "ipv6-network") network)).2 =
      (extractPrefix (f.text (ascii "ipv6-network"))).2 := by
    rw [readRawString_eq]
    cases f.text (ascii "ipv6-network") with
    | none => exact h
    | some text => rfl
  unfold readPrefix ConfigFile.prefix6
  dsimp only
  rw [hextract]
  split
  · rename_i hzero
    rw [readRawNumeric_eq, hzero]
  · rfl

theorem Layers.read_prefix (proj : S → Option Bytes × Flagged UInt32)
    (h : ∀ f s, proj (reader f s) = readNetwork f (proj s)) (hs : (proj s).1 = none)
    (hp : (proj s).2.toOption = none) (hl : ¬ l.CarriedOver (·.prefix6)) :
    (proj (l.read reader s)).2.toOption = l.pick (·.prefix6) := by
  have hread : (proj (l.read reader s)).2.toOption = (l.pick (·.prefix6)).map id := by
    -- the invariant: the network that was read has no prefix left
    refine l.read_pick_of_not_carriedOver (fun s => (proj s).2.toOption) id
      (I := fun s => (extractPrefix (proj s).1).2 = 0) (fun f s _ => ?_) (fun f s hI n hn => ?_)
      (fun f s hI hf hnone => ?_) (by rw [hs]; rfl) hp hl
    · rw [h]
      exact congrArg Prod.snd (extractPrefix_idem _)
    · rw [h, readNetwork, readPrefix_eq f hI, Option.mem_def.1 hn]
      rfl
    · rw [h, readNetwork, readPrefix_eq f hI, hf]
      have hhas : (proj s).2.has = false := by simpa [Flagged.toOption] using hnone
      simp [Flagged.toOption, hhas]
  rw [hread, Option.map_id_fun, id]

end Readers

/-! ### The message -/

open SecAuthSessionReplyMsg in
/-- The two files are read into the message as `Merged` says. -/
theorem merged_read (l : Layers) : Merged l (l.read parseOptions .init) where
  cgroup := l.read_string cgroup (fun _ _ => rfl) rfl
  ipv4Net := l.read_string ipv4Net (fun _ _ => rfl) rfl
  ipv4Netmask := l.read_string ipv4Netmask (fun _ _ => rfl) rfl
  ipv6Net := l.read_network (fun msg => (ipv6Net msg, ipv6Prefix msg)) (fun _ _ => rfl) rfl
  explicitIpv4 := l.read_string explicitIpv4 (fun _ _ => rfl) rfl
  explicitIpv6 := l.read_string explicitIpv6 (fun _ _ => rfl) rfl
  xmlConfigFile := l.read_string xmlConfigFile (fun _ _ => rfl) rfl
  netPriority := l.read_priority netPriority (fun _ _ => rfl) rfl
  noUdp := l.read_flag noUdp (fun _ _ => rfl) rfl
  denyRoaming := l.read_flag denyRoaming (fun _ _ => rfl) rfl
  ipv6Prefix :=
    l.read_prefix (fun msg => (ipv6Net msg, ipv6Prefix msg)) (fun _ _ => rfl) rfl rfl
  rxPerSec := l.read_rate rxPerSec (fun _ _ => rfl) rfl
  txPerSec := l.read_rate txPerSec (fun _ _ => rfl) rfl
  routes := l.read_lines routes (fun _ _ => rfl) rfl
  noRoutes := l.read_lines noRoutes (fun _ _ => rfl) rfl
  iroutes := l.read_lines iroutes (fun _ _ => rfl) rfl
  dns := l.read_aliased dns (fun _ _ => rfl) rfl
  nbns := l.read_aliased nbns (fun _ _ => rfl) rfl

variable {cfg : SupCfg} {files : Files} {groupname username : Bytes}

theorem readSupConfigFile_eq {file : Bytes} {fallback : Option Bytes}
    {msg msg' : SecAuthSessionReplyMsg}
    (h : readSupConfigFile files file fallback msg = .ok msg') :
    msg' = (supConfigFile files file fallback).elim msg (parseOptions · msg) := by
  unfold readSupConfigFile parseGroupCfgFile at h
  split at h <;> rename_i hfile <;> rw [hfile]
  · cases h
    rfl
  · cases h
  · cases h
    rfl

theorem getGroupConfig_eq (username : Bytes) {msg msg' : SecAuthSessionReplyMsg}
    (h : getGroupConfig cfg files groupname msg = .ok msg') :
    msg' = (layers cfg files groupname username).group.elim msg (parseOptions · msg) := by
  unfold getGroupConfig at h
  unfold layers
  split at h <;> rename_i hdir <;> rw [hdir]
  · rw [Option.bind_some]
    split at h <;> rename_i hname
    · rw [if_pos hname]
      exact readSupConfigFile_eq h
    · rw [if_neg hname]
      cases h
      rfl
  · cases h
    rfl

theorem getUserConfig_eq (groupname : Bytes) {msg msg' : SecAuthSessionReplyMsg}
    (h : getUserConfig cfg files username msg = .ok msg') :
    msg' = (layers cfg files groupname username).user.elim msg (parseOptions · msg) := by
  unfold getUserConfig at h
  unfold layers
  split at h <;> rename_i hdir <;> rw [hdir]
  · exact readSupConfigFile_eq h
  · cases h
    rfl

/-- On success the files that can be loaded were read, and nothing else happened. -/
theorem getSupConfig_eq {msg msg' : SecAuthSessionReplyMsg}
    (h : getSupConfig cfg files groupname username msg = .ok msg') :
    msg' = (layers cfg files groupname username).read parseOptions msg := by
  unfold getSupConfig at h
  cases hgroup : getGroupConfig cfg files groupname msg with
  | error ret =>
    rw [hgroup] at h
    cases h
  | ok first =>
    rw [hgroup] at h
    have hfirst := getGroupConfig_eq username hgroup
    have huser := getUserConfig_eq groupname h
    rw [hfirst] at huser
    exact huser

/-- **`get_sup_config`**, when it succeeds, merges the file of the group and that of the user. -/
theorem getSupConfig_merged {msg : SecAuthSessionReplyMsg}
    (h : getSupConfig cfg files groupname username .init = .ok msg) :
    Merged (layers cfg files groupname username) msg := by
  rw [getSupConfig_eq h]
  exact merged_read _

namespace Sample

def supCfg : SupCfg := ⟨some (ascii "g"), some (ascii "u"), none, none⟩

/-- A file for the group `g` and one for the user `u`. -/
def configFiles (group user : ConfigFile) : Files where
  readable _ := true
  load file :=
    if file = ascii "g/g" then some group else if file = ascii "u/u" then some user else none

/-- A line of a file. -/
def option (name value : String) : OptionValue := ⟨.string, ascii name, ascii value, 0⟩

/-- The group has a route and a rate, and the user a route and a rate. -/
def twoFiles : Files :=
  configFiles [option "route" "r", option "rx-data-per-sec" "5000"]
    [option "route" "s", option "rx-data-per-sec" "8000"]

end Sample

open Sample in
theorem getSupConfig_twoFiles : ∃ msg,
    getSupConfig supCfg twoFiles (ascii "g") (ascii "u") .init = .ok msg ∧
      Merged (layers supCfg twoFiles (ascii "g") (ascii "u")) msg :=
  ⟨_, rfl, getSupConfig_merged rfl⟩

open Sample in
/-- The route of the group stays before that of the user. -/
theorem not_overridden_twoFiles : ∃ msg,
    getSupConfig supCfg twoFiles (ascii "g") (ascii "u") .init = .ok msg ∧
      msg.routes = [ascii "r", ascii "s"] ∧
      ¬ Overridden (layers supCfg twoFiles (ascii "g") (ascii "u")) msg := by
  refine ⟨_, rfl, by decide, ?_⟩
  intro h
  have hroutes := h.routes
  exact absurd hroutes (by decide)

end PerUser

end Ocserv
