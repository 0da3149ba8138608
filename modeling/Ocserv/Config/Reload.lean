import Ocserv.Config.CfgFile
import Ocserv.Fallible

/-!
# Reloads of the configuration

A run of the server: `cmd_parser`, and then `reload_cfg_file` any number of times, each time with
the file and the world as they are then.

* `reloadCfgFile_unchanged` : a reload of the same file changes nothing but `foreground` and
  `debug`, which `clear_cfg` sets to zero and only the command line sets again.
* `reloadCfgFile_sameOptions` : after a reload the options are those of a fresh start.
* `reloads_checked` : every configuration that is ever in force is checked.
* `reloads_faithful_iff` : a reload is faithful exactly without these options of the command line.
-/

namespace Ocserv

namespace Config

open PerUser (OptionValue ConfigFile)
open SecMod (Bytes PermCfg parseAuth)
open Worker (ascii)
open Fallible

/-! ### The arrays as they are allocated -/

namespace ListMacro

variable {E : Type} {M : ListMacro E} {items : List (Option E)} {l : StrList E}

theorem Holds.map_values (h : M.Holds l items) : l.values.map some = items := by
  unfold StrList.values
  cases hptr : l.ptr with
  | none => rw [h.empty hptr, Option.elim_none, List.map_nil]
  | some s =>
    obtain ⟨-, hvalues, -⟩ := h.values s hptr
    refine List.ext_getElem (by simp [h.num]) fun i hi hi' => ?_
    rw [hvalues i hi']
    simp

theorem Holds.takeWhile_eq (h : M.Holds l items) : items.takeWhile (·.isSome) = items := by
  rw [← h.map_values]
  exact List.takeWhile_eq_self_iff.2 fun x hx => by
    obtain ⟨e, -, rfl⟩ := List.mem_map.1 hx
    rfl

theorem Holds.none_notMem (h : M.Holds l items) : none ∉ items := by
  rw [← h.map_values]
  simp

/-- What is to be read determines the result, but for what is behind it in the array. -/
theorem ReadsTo.values_eq {r r' : Except Failure (StrList E)} (h : M.ReadsTo items r)
    (h' : M.ReadsTo items r') : r.map (·.values) = r'.map (·.values) := by
  cases h with
  | overrun hfull =>
    cases h' with
    | overrun => rfl
    | exit hroom => exact absurd hfull (not_le.2 hroom)
    | ok hl => exact absurd hfull (by rw [hl.takeWhile_eq]; exact not_le.2 hl.length_lt)
  | exit hroom hexit =>
    cases h' with
    | overrun hfull => exact absurd hfull (not_le.2 hroom)
    | exit => rfl
    | ok hl => exact absurd hexit hl.none_notMem
  | ok hl =>
    cases h' with
    | overrun hfull => exact absurd hfull (by rw [hl.takeWhile_eq]; exact not_le.2 hl.length_lt)
    | exit _ hexit => exact absurd hexit hl.none_notMem
    | ok hl' =>
      have hvalues := hl.map_values.trans hl'.map_values.symm
      exact congrArg Except.ok (List.map_injective_iff.2 (fun _ _ => Option.some.inj) hvalues)

theorem readList_fresh (M : ListMacro E) (fresh fresh' : ℕ → E) (o : ListOption)
    (pov : ConfigFile) : M.readList fresh o pov = M.readList fresh' o pov := by
  have hstart : M.Holds ⟨none, 0⟩ [] := ⟨rfl, nofun, fun _ => rfl⟩
  exact (readOption_readsTo fresh o pov hstart).values_eq (readOption_readsTo fresh' o pov hstart)

end ListMacro

section

variable {σ : Type} (b : Features) (w : World σ) (heap heap' : Heap) (pov : ConfigFile)

theorem readMulti_heap (name : Bytes) (aliases : List Bytes) :
    readMulti heap pov name aliases = readMulti heap' pov name aliases := by
  unfold readMulti
  rw [readMultiLine.readList_fresh heap.strings heap'.strings]

theorem readTimers_heap (c : FileCfg σ) :
    readTimers b w heap pov c = readTimers b w heap' pov c := by
  simp only [readTimers, readKkdcp, readMulti_heap heap heap']

theorem readNames_heap (c : FileCfg σ) : readNames b heap pov c = readNames b heap' pov c := by
  simp only [readNames, readMulti_heap heap heap']

theorem readNetwork_heap (c : FileCfg σ) : readNetwork heap pov c = readNetwork heap' pov c := by
  simp only [readNetwork, readMulti_heap heap heap']

theorem readServers_heap (c : FileCfg σ) : readServers heap pov c = readServers heap' pov c := by
  simp only [readServers, readMulti_heap heap heap']

theorem readGroups_heap (methods : PermCfg) :
    readGroups w heap pov methods = readGroups w heap' pov methods := by
  simp only [readGroups, readMultiBracketLine.readList_fresh heap.pairs heap'.pairs]

/-! ### One reading of the file -/

/-- The fields that the options fill on their own, from zero. -/
inductive Options : FileCfg σ → Prop
  | mk {c₁ c₂ c₃ c₄ c₅ c₆ c : FileCfg σ} (timers : readTimers b w heap pov {} = .ok c₁)
    (names : readNames b heap pov c₁ = .ok c₂) (switches : readSwitches b pov c₂ = .ok c₃)
    (timeouts : readTimeouts pov c₃ = .ok c₄) (limits : readLimits pov c₄ = .ok c₅)
    (network : readNetwork heap pov c₅ = .ok c₆) (servers : readServers heap pov c₆ = .ok c) :
    Options c

variable {b w heap heap' pov}

theorem Options.unique {c c' : FileCfg σ} (h : Options b w heap pov c)
    (h' : Options b w heap' pov c') : c = c' := by
  obtain ⟨timers, names, switches, timeouts, limits, network, servers⟩ := h
  obtain ⟨timers', names', switches', timeouts', limits', network', servers'⟩ := h'
  cases timers.symm.trans ((readTimers_heap b w heap heap' pov _).trans timers')
  cases names.symm.trans ((readNames_heap b heap heap' pov _).trans names')
  cases switches.symm.trans switches'
  cases timeouts.symm.trans timeouts'
  cases limits.symm.trans limits'
  cases network.symm.trans ((readNetwork_heap heap heap' pov _).trans network')
  exact Except.ok.inj (servers.symm.trans ((readServers_heap heap heap' pov _).trans servers'))

theorem Options.congr_heap {c : FileCfg σ} (heap' : Heap) (h : Options b w heap pov c) :
    Options b w heap' pov c := by
  obtain ⟨timers, names, switches, timeouts, limits, network, servers⟩ := h
  exact ⟨(readTimers_heap b w heap' heap pov _).trans timers,
    (readNames_heap b heap' heap pov _).trans names, switches, timeouts, limits,
    (readNetwork_heap heap' heap pov _).trans network,
    (readServers_heap heap' heap pov _).trans servers⟩

/-- What the options that a reload reads, too, make of `start`. -/
structure Parsed (b : Features) (w : World σ) (heap : Heap) (pov : ConfigFile) (reload : Bool)
    (start perm : PermCfgSt σ) : Prop where
  options : Options b w heap pov perm.config.toFileCfg
  pidFile : readPidFile pov reload start.pidFile = .ok perm.pidFile
  socketFile : readString pov (ascii "socket-file") start.socketFilePrefix =
    .ok perm.socketFilePrefix
  occtlSocket : ∃ file, readString pov (ascii "occtl-socket-file") start.occtlSocketFile =
    .ok file ∧ perm.occtlSocketFile = some (file.getD occtlUnixSocket)
  chrootDir : readString pov (ascii "chroot-dir") start.chrootDir = .ok perm.chrootDir
  groups : readGroups w heap pov start.methods =
    .ok (perm.config.groupList, perm.config.friendlyGroupList)
  others : perm = { start with
    config := { start.config with
      toFileCfg := perm.config.toFileCfg
      groupList := perm.config.groupList
      friendlyGroupList := perm.config.friendlyGroupList }
    pidFile := perm.pidFile
    socketFilePrefix := perm.socketFilePrefix
    occtlSocketFile := perm.occtlSocketFile
    chrootDir := perm.chrootDir }

variable {start perm : PermCfgSt σ} {reload : Bool}

theorem readReloaded_eq_ok_iff (hzero : start.config.toFileCfg = {}) :
    readReloaded b w heap pov start reload = .ok perm ↔
      Parsed b w heap pov reload start perm := by
  constructor
  · intro h
    simp only [readReloaded, bind_eq_ok_iff, hzero] at h
    obtain ⟨c₁, timers, c₂, names, pid, hpid, socket, hsocket, occtl, hocctl, c₃, switches, chroot,
      hchroot, c₄, timeouts, c₅, limits, c₆, network, groups, hgroups, c, servers, h⟩ := h
    cases h
    exact ⟨⟨timers, names, switches, timeouts, limits, network, servers⟩, hpid, hsocket,
      ⟨occtl, hocctl, rfl⟩, hchroot, hgroups, rfl⟩
  · rintro ⟨⟨timers, names, switches, timeouts, limits, network, servers⟩, hpid, hsocket,
      ⟨occtl, hocctl, heq⟩, hchroot, hgroups, hothers⟩
    simp only [readReloaded, bind_eq_ok_iff, hzero]
    refine ⟨_, timers, _, names, _, hpid, _, hsocket, _, hocctl, _, switches, _, hchroot, _,
      timeouts, _, limits, _, network, _, hgroups, _, servers, ?_⟩
    rw [hothers, heq]
    rfl

theorem parseCfgFile_eq_ok_iff {file : Option ConfigFile} :
    parseCfgFile b w heap file start reload = .ok perm ↔
      ∃ pov, file = some pov ∧ pov ≠ [] ∧ ∃ start',
        (if reload then .ok start else readPermanent b w heap pov start) = .ok start' ∧
          readReloaded b w heap pov start' reload = .ok perm := by
  cases file with
  | none => exact ⟨nofun, nofun⟩
  | some pov =>
    cases reload <;>
      simp [parseCfgFile, orExit, bind_eq_ok_iff, ite_error_eq_ok_iff]

/-! ### Checks -/

/-- `check_cfg` succeeds and gives these fields. -/
structure Checks (b : Features) (w : World σ) (start perm : PermCfgSt σ) : Prop where
  options : checkOptions start.config.toFileCfg = .ok ()
  oid : perm.config.certReq ≠ .ignore → start.config.certUserOid ≠ none
  clearFile : start.unixConnFile ≠ none → perm.config.certReq = .ignore
  certReq : perm.config.certReq =
    certReqOf start.methods.auth start.config.ciscoClientCompat start.config.certReq
  certHash : readCertHash b w start.config.toFileCfg = .ok perm.config.certHash
  xmlHash : readXmlHash b w start.chrootDir start.config.toFileCfg = .ok perm.config.xmlConfigHash
  others : perm = { start with
    config := { start.config with
      toFileCfg := lateDefaults start.config.toFileCfg
      certReq := perm.config.certReq
      certHash := perm.config.certHash
      xmlConfigHash := perm.config.xmlConfigHash } }

theorem checkCfg_eq_ok_iff : checkCfg b w start = .ok perm ↔ Checks b w start perm := by
  constructor
  · intro h
    simp only [checkCfg, bind_eq_ok_iff, ite_error_eq_ok_iff] at h
    obtain ⟨⟨⟩, hoptions, hoid, hclear, certHash, hcert, xmlHash, hxml, h⟩ := h
    cases h
    exact ⟨hoptions, fun hreq hnone => hoid ⟨hreq, hnone⟩,
      fun hfile => by_contra fun hreq => hclear ⟨hfile, hreq⟩, rfl, hcert, hxml, rfl⟩
  · rintro ⟨hoptions, hoid, hclear, hreq, hcert, hxml, hothers⟩
    simp only [checkCfg, bind_eq_ok_iff, ite_error_eq_ok_iff, ← hreq]
    refine ⟨(), hoptions, fun h => hoid h.1 h.2, fun h => h.2 (hclear h.1), _, hcert, _, hxml, ?_⟩
    rw [hothers]
    rfl

/-! ### What the command line sets -/

/-- The configuration without the fields that only the command line sets. -/
def CfgSt.withoutCommandLine (c : CfgSt σ) : CfgSt σ := { c with foreground := false, debug := 0 }

def PermCfgSt.withoutCommandLine (perm : PermCfgSt σ) : PermCfgSt σ :=
  { perm with config := perm.config.withoutCommandLine }

theorem Checks.withoutCommandLine (h : Checks b w start perm) :
    Checks b w start.withoutCommandLine perm.withoutCommandLine := by
  obtain ⟨hoptions, hoid, hclear, hreq, hcert, hxml, hothers⟩ := h
  refine ⟨hoptions, hoid, hclear, hreq, hcert, hxml, ?_⟩
  rw [hothers]
  rfl

theorem Parsed.withoutCommandLine (h : Parsed b w heap pov reload start perm) :
    Parsed b w heap pov reload start.withoutCommandLine perm.withoutCommandLine := by
  obtain ⟨options, pidFile, socketFile, occtlSocket, chrootDir, groups, others⟩ := h
  refine ⟨options, pidFile, socketFile, occtlSocket, chrootDir, groups, ?_⟩
  rw [others]
  rfl

/-- A string of the file replaces what was there, and otherwise it stays. -/
theorem readString_cases (pov : ConfigFile) (name : Bytes) :
    (∃ v, ∀ s, readString pov name s = .ok (some v)) ∨
      ∀ s, readString pov name s = absent name s := by
  unfold readString
  cases getOption pov name with
  | none => exact .inr fun s => rfl
  | some val =>
    by_cases hstr : val.valType = .string
    · exact .inl ⟨val.strVal, fun s => if_pos hstr⟩
    · exact .inr fun s => if_neg hstr

/-- An option that was read once gives the same again. -/
theorem readString_again {name : Bytes} {s t : Option Bytes}
    (h : readString pov name s = .ok t) : readString pov name t = .ok t := by
  rcases readString_cases pov name with ⟨v, hv⟩ | habsent
  · rw [hv] at h ⊢
    exact h
  · rw [habsent] at h ⊢
    exact if_neg (ite_error_eq_ok_iff.1 h).1

/-- The same for an option with a default. -/
theorem readString_default (dflt : Bytes) {name : Bytes} {s : Option Bytes}
    (h : readString pov name none = .ok s) :
    ∃ t, readString pov name (some (s.getD dflt)) = .ok t ∧ t.getD dflt = s.getD dflt := by
  rcases readString_cases pov name with ⟨v, hv⟩ | habsent
  · rw [hv] at h ⊢
    exact ⟨s, h, rfl⟩
  · rw [habsent] at h ⊢
    exact ⟨some (s.getD dflt), if_neg (ite_error_eq_ok_iff.1 h).1, rfl⟩

/-- An option that is in the file is read whatever was there before. -/
theorem readString_some {name v : Bytes} (h : readString pov name none = .ok (some v))
    (s : Option Bytes) : readString pov name s = .ok (some v) := by
  rcases readString_cases pov name with ⟨v', hv⟩ | habsent
  · rw [hv] at h ⊢
    exact h
  · rw [habsent] at h
    cases (ite_error_eq_ok_iff.1 h).2

/-- What was read at the start is read again from the same file. -/
theorem Parsed.again (h : Parsed b w heap pov false start perm) (heap' : Heap)
    (hzero : start.config.withoutCommandLine = {}) (hsocket : start.occtlSocketFile = none) :
    Parsed b w heap' pov true (clearCfg perm) perm.withoutCommandLine := by
  obtain ⟨options, pidFile, socketFile, ⟨file, hfile, occtl⟩, chrootDir, groups, others⟩ := h
  rw [hsocket] at hfile
  have hmethods : perm.methods = start.methods := by rw [others]
  refine ⟨options.congr_heap heap', rfl, readString_again socketFile, ?_,
    readString_again chrootDir, ?_, ?_⟩
  · obtain ⟨t, ht, heq⟩ := readString_default occtlUnixSocket hfile
    rw [← occtl] at ht
    exact ⟨t, ht, occtl.trans (congrArg some heq.symm)⟩
  · rw [readGroups_heap w heap' heap]
    change readGroups w heap pov perm.methods = _
    rw [hmethods]
    exact groups
  · have hconfig : perm.config.withoutCommandLine = { ({} : CfgSt σ) with
        toFileCfg := perm.config.toFileCfg
        groupList := perm.config.groupList
        friendlyGroupList := perm.config.friendlyGroupList } := by
      rw [← hzero, others]
      rfl
    rw [PermCfgSt.withoutCommandLine, hconfig]
    rfl

/-- The fields that are filled first at a start. -/
structure Started (b : Features) (heap : Heap) (cmd : CommandLine) (pov : ConfigFile)
    (start : PermCfgSt σ) : Prop where
  directives : pov ≠ []
  methods : readMethods b heap pov = .ok start.methods
  config : start.config = (commandLineCfg cmd).config
  occtlSocket : start.occtlSocketFile = none
  chrootDir : start.chrootDir = none

theorem started_of_readPermanent {cmd : CommandLine} (hne : pov ≠ [])
    (h : readPermanent b w heap pov (commandLineCfg cmd) = .ok start) :
    Started b heap cmd pov start := by
  simp only [readPermanent, bind_eq_ok_iff] at h
  obtain ⟨methods, hmethods, host, -, unix, -, port, -, udp, -, uid, -, gid, -, h⟩ := h
  cases h
  exact ⟨hne, hmethods, rfl, rfl, rfl⟩

/-- A start: the options that a reload does not read, the others, and the checks. -/
theorem exists_of_cmdParser {cmd : CommandLine} {file : Option ConfigFile}
    (h : cmdParser b w heap cmd file = .ok perm) :
    ∃ pov, file = some pov ∧ ∃ start, Started b heap cmd pov start ∧
      ∃ p, Parsed b w heap pov false start p ∧ Checks b w p perm := by
  obtain ⟨p, hparse, hcheck⟩ := bind_eq_ok_iff.1 h
  obtain ⟨pov, hfile, hne, start, hstart, hparse⟩ := parseCfgFile_eq_ok_iff.1 hparse
  have hstarted := started_of_readPermanent hne hstart
  exact ⟨pov, hfile, start, hstarted, p,
    (readReloaded_eq_ok_iff (by rw [hstarted.config]; rfl)).1 hparse, checkCfg_eq_ok_iff.1 hcheck⟩

theorem readPermanent_withoutCommandLine (h : readPermanent b w heap pov start = .ok perm) :
    readPermanent b w heap pov start.withoutCommandLine = .ok perm.withoutCommandLine := by
  simp only [readPermanent, bind_eq_ok_iff] at h ⊢
  obtain ⟨methods, hmethods, host, hhost, unix, hunix, port, hport, udp, hudp, uid, huid, gid, hgid,
    h⟩ := h
  cases h
  exact ⟨methods, hmethods, host, hhost, unix, hunix, port, hport, udp, hudp, uid, huid, gid, hgid,
    rfl⟩

/-- **The command line** sets two fields and changes nothing else. -/
theorem cmdParser_withoutCommandLine {cmd : CommandLine} {file : Option ConfigFile}
    (h : cmdParser b w heap cmd file = .ok perm) :
    cmdParser b w heap { cmd with foreground := false, debug := none } file =
      .ok perm.withoutCommandLine := by
  obtain ⟨p, hparse, hcheck⟩ := bind_eq_ok_iff.1 h
  obtain ⟨pov, hfile, hne, start, hstart, hparse⟩ := parseCfgFile_eq_ok_iff.1 hparse
  have hzero : start.config.toFileCfg = {} := by
    rw [(started_of_readPermanent hne hstart).config]
    rfl
  have hzero' : start.withoutCommandLine.config.toFileCfg = {} := hzero
  have hparsed := ((readReloaded_eq_ok_iff hzero).1 hparse).withoutCommandLine
  have hquiet : (commandLineCfg { cmd with foreground := false, debug := none } : PermCfgSt σ) =
      (commandLineCfg cmd).withoutCommandLine := rfl
  have hparse' : parseCfgFile b w heap file (commandLineCfg cmd).withoutCommandLine false =
      .ok p.withoutCommandLine :=
    parseCfgFile_eq_ok_iff.2 ⟨pov, hfile, hne, start.withoutCommandLine,
      readPermanent_withoutCommandLine hstart, (readReloaded_eq_ok_iff hzero').2 hparsed⟩
  rw [cmdParser, hquiet]
  exact bind_eq_ok_iff.2 ⟨p.withoutCommandLine, hparse',
    checkCfg_eq_ok_iff.2 (checkCfg_eq_ok_iff.1 hcheck).withoutCommandLine⟩

/-- A reload: the options that it reads, and the checks. -/
theorem reloadCfgFile_eq_ok_iff {before after : PermCfgSt σ} {file : Option ConfigFile} :
    reloadCfgFile b w heap file before = .ok after ↔
      ∃ pov, file = some pov ∧ pov ≠ [] ∧
        ∃ p, Parsed b w heap pov true (clearCfg before) p ∧ Checks b w p after := by
  simp only [reloadCfgFile, bind_eq_ok_iff, parseCfgFile_eq_ok_iff, checkCfg_eq_ok_iff, if_true,
    Except.ok.injEq, exists_eq_left',
    readReloaded_eq_ok_iff (show (clearCfg before).config.toFileCfg = {} from rfl)]
  constructor
  · rintro ⟨p, ⟨pov, hfile, hne, hp⟩, hcheck⟩
    exact ⟨pov, hfile, hne, p, hp, hcheck⟩
  · rintro ⟨pov, hfile, hne, p, hp, hcheck⟩
    exact ⟨p, ⟨pov, hfile, hne, hp⟩, hcheck⟩

/-- **A reload of the same file** succeeds and changes nothing but what only the command line
sets. -/
theorem reloadCfgFile_unchanged {cmd : CommandLine} {file : Option ConfigFile}
    (h : cmdParser b w heap cmd file = .ok perm) (heap' : Heap) :
    reloadCfgFile b w heap' file perm = .ok perm.withoutCommandLine := by
  obtain ⟨pov, hfile, start, hstarted, p, hparsed, hchecks⟩ := exists_of_cmdParser h
  have hclear : clearCfg perm = clearCfg p := by
    rw [hchecks.others]
    rfl
  refine reloadCfgFile_eq_ok_iff.2 ⟨pov, hfile, hstarted.directives, p.withoutCommandLine, ?_,
    hchecks.withoutCommandLine⟩
  rw [hclear]
  exact hparsed.again heap' (by rw [hstarted.config]; rfl) hstarted.occtlSocket

/-! ### A reload and a fresh start -/

/-- The options after a reload of the file are those of a fresh start.  A group list of the
authentication module and the request for certificates also depend on the authentication methods,
which a reload leaves as they are. -/
structure SameOptions (file : Option ConfigFile) (after new : PermCfgSt σ) : Prop where
  options : after.config.toFileCfg = new.config.toFileCfg
  certHash : after.config.certHash = new.config.certHash
  xmlConfigHash : after.config.xmlConfigHash = new.config.xmlConfigHash
  groups : (∀ pov ∈ file, readTf pov (ascii "auto-select-group") false = .ok false) ∨
    groupModule after.methods = groupModule new.methods →
      after.config.groupList = new.config.groupList ∧
        after.config.friendlyGroupList = new.config.friendlyGroupList
  certReq : after.methods.auth = new.methods.auth → after.config.certReq = new.config.certReq

theorem readGroups_congr {methods methods' : PermCfg}
    (h : readTf pov (ascii "auto-select-group") false = .ok false ∨
      groupModule methods = groupModule methods') :
    readGroups w heap pov methods = readGroups w heap pov methods' := by
  unfold readGroups
  rcases h with h | h
  · rw [h]
    rfl
  · rw [h]

/-- The hash of the profile is the same under two roots, if it is found under the one that the file
names. -/
theorem readXmlHash_eq {s dir dir' : Option Bytes} {c : FileCfg σ} {hash hash' : Option Bytes}
    (hdir : readString pov (ascii "chroot-dir") s = .ok dir)
    (hdir' : readString pov (ascii "chroot-dir") none = .ok dir')
    (h : readXmlHash b w dir c = .ok hash) (h' : readXmlHash b w dir' c = .ok hash') :
    hash = hash' := by
  cases dir' with
  | some root =>
    cases hdir.symm.trans (readString_some hdir' s)
    exact Except.ok.inj (h.symm.trans h')
  | none =>
    unfold readXmlHash at h h'
    cases hfile : if b.anyconnect then c.xmlConfigFile else none with
    | none =>
      rw [hfile] at h h'
      exact Except.ok.inj (h.symm.trans h')
    | some file =>
      rw [hfile] at h h'
      obtain ⟨found, hfound, h'⟩ := bind_eq_ok_iff.1 h'
      obtain ⟨found', hfound', h⟩ := bind_eq_ok_iff.1 h
      cases hfound.symm.trans hfound'
      -- without a root the profile itself must be there
      cases found with
      | none => cases h'
      | some hash => exact Except.ok.inj (h.symm.trans h')

/-- **A reload reads what a fresh start reads**, whatever the configuration was before. -/
theorem reloadCfgFile_sameOptions {cmd : CommandLine} {file : Option ConfigFile}
    {before after new : PermCfgSt σ} (hreload : reloadCfgFile b w heap file before = .ok after)
    (hstart : cmdParser b w heap' cmd file = .ok new) : SameOptions file after new := by
  obtain ⟨pov, rfl, hne, p, hparsed, hchecks⟩ := reloadCfgFile_eq_ok_iff.1 hreload
  obtain ⟨pov', hpov, start, hstarted, q, hparsed', hchecks'⟩ := exists_of_cmdParser hstart
  cases hpov
  have hoptions := hparsed.options.unique hparsed'.options
  have hxml := hchecks.xmlHash
  have hcert := hchecks.certHash
  rw [hoptions] at hxml hcert
  have hchrootDir := hparsed'.chrootDir
  rw [hstarted.chrootDir] at hchrootDir
  have hafter : after.methods = (clearCfg before).methods := by
    rw [hchecks.others, hparsed.others]
  have hnew : new.methods = start.methods := by rw [hchecks'.others, hparsed'.others]
  have hfields : after.config.toFileCfg = new.config.toFileCfg := by
    rw [hchecks.others, hchecks'.others]
    exact congrArg lateDefaults hoptions
  refine ⟨hfields, Except.ok.inj (hcert.symm.trans hchecks'.certHash),
    readXmlHash_eq hparsed.chrootDir hchrootDir hxml hchecks'.xmlHash, fun hgroups => ?_,
    fun hmethods => ?_⟩
  · rw [hafter, hnew] at hgroups
    have hread := hparsed.groups
    rw [readGroups_heap w heap heap', readGroups_congr (hgroups.imp (fun h => h pov rfl) id),
      hparsed'.groups] at hread
    rw [hchecks.others, hchecks'.others]
    exact ⟨(Prod.mk.inj (Except.ok.inj hread)).1.symm, (Prod.mk.inj (Except.ok.inj hread)).2.symm⟩
  · have hp : p.config.certReq = .ignore := by
      rw [hparsed.others]
      rfl
    have hq : q.config.certReq = .ignore := by
      rw [hparsed'.others, hstarted.config]
      rfl
    have hmethods' : p.methods.auth = q.methods.auth := by
      have h := hmethods
      rw [hchecks.others, hchecks'.others] at h
      exact h
    rw [hchecks.certReq, hchecks'.certReq, hp, hq, hmethods', hoptions]

/-! ### Runs -/

/-- A reload, with the world, the memory and the file of its time. -/
structure Reload (σ : Type) where
  world : World σ
  heap : Heap
  file : Option ConfigFile

/-- The reloads of a run. -/
def reloads (b : Features) (perm : PermCfgSt σ) (rs : List (Reload σ)) :
    Except Failure (PermCfgSt σ) :=
  rs.foldlM (fun perm r => reloadCfgFile b r.world r.heap r.file perm) perm

/-- The fields that are not read again. -/
def PermCfgSt.permanent (perm : PermCfgSt σ) : PermCfgSt σ :=
  { perm with config := {}, chrootDir := none, occtlSocketFile := none, socketFilePrefix := none }

theorem reloadCfgFile_permanent {before after : PermCfgSt σ} {file : Option ConfigFile}
    (h : reloadCfgFile b w heap file before = .ok after) : after.permanent = before.permanent := by
  obtain ⟨pov, -, -, p, hparsed, hchecks⟩ := reloadCfgFile_eq_ok_iff.1 h
  have hpid : p.pidFile = before.pidFile := (Except.ok.inj hparsed.pidFile).symm
  rw [hchecks.others, hparsed.others, hpid]
  rfl

/-- No number of reloads changes the methods, the addresses and ports, or the user and group. -/
theorem reloads_permanent {rs : List (Reload σ)} {before after : PermCfgSt σ}
    (h : reloads b before rs = .ok after) : after.permanent = before.permanent :=
  foldlM_invariant (P := fun p => p.permanent = before.permanent)
    (fun _ _ _ hp h => (reloadCfgFile_permanent h).trans hp) rfl h

theorem reloadCfgFile_commandLine {before after : PermCfgSt σ} {file : Option ConfigFile}
    (h : reloadCfgFile b w heap file before = .ok after) :
    after.config.foreground = false ∧ after.config.debug = 0 := by
  obtain ⟨pov, -, -, p, hparsed, hchecks⟩ := reloadCfgFile_eq_ok_iff.1 h
  rw [hchecks.others, hparsed.others]
  exact ⟨rfl, rfl⟩

/-- From the first reload on the server has the debug level zero. -/
theorem reloads_commandLine {rs : List (Reload σ)} {before after : PermCfgSt σ} (hne : rs ≠ [])
    (h : reloads b before rs = .ok after) :
    after.config.foreground = false ∧ after.config.debug = 0 :=
  foldlM_established (P := fun p => p.config.foreground = false ∧ p.config.debug = 0)
    (fun _ _ _ h => reloadCfgFile_commandLine h) hne h

/-- The options of a file fit together. -/
structure CheckedOptions (c : FileCfg σ) : Prop where
  network : c.network.ipv4.isSome ∨ c.network.ipv6.isSome
  netmask : c.network.ipv4.isSome → c.network.ipv4Netmask.isSome
  ipv6Prefix : c.network.ipv6.isSome → c.network.ipv6Prefix ≠ 0
  banner : ∀ banner ∈ c.banner, banner.length ≤ maxBannerSize
  keys : c.cert.length = c.key.length

theorem checkOptions_eq_ok_iff {c : FileCfg σ} :
    checkOptions c = .ok () ↔ CheckedOptions c := by
  simp only [checkOptions, ite_error_eq_ok_iff, ← Option.isSome_iff_ne_none,
    ← Option.not_isSome_iff_eq_none, Option.any_eq_true, decide_eq_true_eq]
  constructor
  · rintro ⟨hnetwork, hmask, hipv6, hbanner, hkeys, -⟩
    exact ⟨by tauto, fun h => by_contra fun hnone => hmask ⟨h, hnone⟩,
      fun h hzero => hipv6 ⟨h, hzero⟩,
      fun banner h => not_lt.1 fun hlong => hbanner ⟨banner, h, hlong⟩, not_not.1 hkeys⟩
  · rintro ⟨hnetwork, hmask, hipv6, hbanner, hkeys⟩
    exact ⟨by tauto, fun h => h.2 (hmask h.1), fun h => hipv6 h.1 h.2,
      fun ⟨banner, h, hlong⟩ => absurd (hbanner banner h) (not_le.2 hlong), not_not.2 hkeys,
      trivial⟩

/-- What `check_cfg` asks for. -/
structure Checked (perm : PermCfgSt σ) : Prop where
  options : CheckedOptions perm.config.toFileCfg
  oid : perm.config.certReq ≠ .ignore → perm.config.certUserOid.isSome
  clearFile : perm.unixConnFile.isSome → perm.config.certReq = .ignore
  timers : perm.config.keepalive ≠ 0 ∧ perm.config.dpd ≠ 0
  priorities : perm.config.priorities.isSome

theorem lateDefaults_timers (c : FileCfg σ) :
    (lateDefaults c).keepalive ≠ 0 ∧ (lateDefaults c).dpd ≠ 0 := by
  constructor
  · change (if c.keepalive = 0 then (3600 : UInt32) else c.keepalive) ≠ 0
    split_ifs with h
    · decide
    · exact h
  · change (if c.dpd = 0 then (60 : UInt32) else c.dpd) ≠ 0
    split_ifs with h
    · decide
    · exact h

theorem Checks.checked (h : Checks b w start perm) : Checked perm := by
  have hfields : perm.config.toFileCfg = lateDefaults start.config.toFileCfg := by rw [h.others]
  have hunix : perm.unixConnFile = start.unixConnFile := by rw [h.others]
  have hoid : perm.config.certUserOid = start.config.certUserOid := by
    rw [hfields]
    rfl
  obtain ⟨hnetwork, hmask, hipv6, hbanner, hkeys⟩ := checkOptions_eq_ok_iff.1 h.options
  refine ⟨?_, fun hreq => ?_, fun hfile => ?_, ?_, ?_⟩
  · rw [hfields]
    exact ⟨hnetwork, hmask, hipv6, hbanner, hkeys⟩
  · rw [hoid]
    exact Option.isSome_iff_ne_none.2 (h.oid hreq)
  · rw [hunix] at hfile
    exact h.clearFile (Option.isSome_iff_ne_none.1 hfile)
  · rw [hfields]
    exact lateDefaults_timers _
  · rw [hfields]
    rfl

/-- **Every configuration that is ever in force is checked.** -/
theorem reloads_checked {cmd : CommandLine} {file : Option ConfigFile} {rs : List (Reload σ)}
    {after : PermCfgSt σ} (hstart : cmdParser b w heap cmd file = .ok perm)
    (h : reloads b perm rs = .ok after) : Checked after := by
  obtain ⟨_, _, _, _, _, _, hchecks⟩ := exists_of_cmdParser hstart
  refine foldlM_invariant (fun p r p' _ h => ?_) hchecks.checked h
  obtain ⟨_, _, _, _, _, hchecks⟩ := reloadCfgFile_eq_ok_iff.1 h
  exact hchecks.checked

theorem orExit_eq_ok_iff {A : Type} {x : Option A} {a : A} : orExit x = .ok a ↔ x = some a := by
  cases x with
  | none => exact ⟨nofun, nofun⟩
  | some x => exact ⟨fun h => congrArg some (Except.ok.inj h), fun h => by cases h; rfl⟩

/-- The methods are those of `parseAuth` for the lists in the file. -/
theorem exists_parseAuth {methods : PermCfg} (h : readMethods b heap pov = .ok methods)
    (hne : readMulti heap pov (ascii "auth") [] ≠ .ok []) :
    ∃ auth enableAuth acct, parseAuth b.toBuild auth enableAuth acct = some methods := by
  simp only [readMethods, bind_eq_ok_iff, orExit_eq_ok_iff, ite_error_eq_ok_iff] at h
  obtain ⟨auth, hauth, m₁, hprimary, enableAuth, -, m₂, halternative, henabled, acct, -, h⟩ := h
  refine ⟨auth, enableAuth, acct, ?_⟩
  rw [hauth, Ne, Except.ok.injEq] at hne
  simp only [parseAuth, if_neg hne, hprimary, halternative, Option.bind_eq_bind,
    Option.bind_some, if_neg henabled]
  cases acct with
  | none => exact congrArg some (Except.ok.inj h)
  | some acct => exact orExit_eq_ok_iff.1 h

/-- **The methods are those of the start**, after any reloads. -/
theorem reloads_methods {cmd : CommandLine} {rs : List (Reload σ)} {after : PermCfgSt σ}
    (hstart : cmdParser b w heap cmd (some pov) = .ok perm) (h : reloads b perm rs = .ok after)
    (hne : readMulti heap pov (ascii "auth") [] ≠ .ok []) :
    ∃ auth enableAuth acct, parseAuth b.toBuild auth enableAuth acct = some after.methods := by
  obtain ⟨pov', hpov, start, hstarted, p, hparsed, hchecks⟩ := exists_of_cmdParser hstart
  cases hpov
  have hmethods : after.methods = start.methods := by
    change after.permanent.methods = start.methods
    rw [reloads_permanent h, hchecks.others, hparsed.others]
    rfl
  rw [hmethods]
  exact exists_parseAuth hstarted.methods hne

/-! ### Faithful reloads -/

/-- Reloads of the file of the start keep the configuration, and a reload of any file, after any
others, gives the options of a fresh start with it. -/
structure Faithful (b : Features) (w : World σ) (heap : Heap) (cmd : CommandLine)
    (file : Option ConfigFile) : Prop where
  unchanged : ∀ perm, cmdParser b w heap cmd file = .ok perm → ∀ heaps : List Heap,
    ∃ after, reloads b perm (heaps.map fun heap => ⟨w, heap, file⟩) = .ok after ∧
      after.config = perm.config
  changed : ∀ perm, cmdParser b w heap cmd file = .ok perm → ∀ rs before,
    reloads b perm rs = .ok before → ∀ (r : Reload σ) after,
      reloadCfgFile b r.world r.heap r.file before = .ok after → ∀ heap' new,
        cmdParser b r.world heap' cmd r.file = .ok new → SameOptions r.file after new

/-- The fields of the command line that a reload loses have the values it gives them. -/
def CommandLine.NoLoss (cmd : CommandLine) : Prop :=
  cmd.foreground = false ∧ cmd.debug.getD 0 = 0

theorem reloadCfgFile_clear {before before' : PermCfgSt σ} (h : clearCfg before = clearCfg before')
    (file : Option ConfigFile) :
    reloadCfgFile b w heap file before = reloadCfgFile b w heap file before' := by
  simp only [reloadCfgFile, h]

/-- Any number of reloads of the file of the start. -/
theorem reloads_unchanged {cmd : CommandLine} {file : Option ConfigFile}
    (h : cmdParser b w heap cmd file = .ok perm) (heap' : Heap) (heaps : List Heap) :
    reloads b perm ((heap' :: heaps).map fun heap => ⟨w, heap, file⟩) =
      .ok perm.withoutCommandLine := by
  refine foldlM_cons_eq_ok_iff.2 ⟨_, reloadCfgFile_unchanged h heap', ?_⟩
  induction heaps with
  | nil => rfl
  | cons heap heaps ih =>
    refine foldlM_cons_eq_ok_iff.2 ⟨_, ?_, ih⟩
    rw [reloadCfgFile_clear (show clearCfg perm.withoutCommandLine = clearCfg perm from rfl)]
    exact reloadCfgFile_unchanged h heap

theorem cmdParser_commandLine {cmd : CommandLine} {file : Option ConfigFile}
    (h : cmdParser b w heap cmd file = .ok perm) :
    perm.config.foreground = cmd.foreground ∧ perm.config.debug = cmd.debug.getD 0 := by
  obtain ⟨_, _, start, hstarted, p, hparsed, hchecks⟩ := exists_of_cmdParser h
  rw [hchecks.others, hparsed.others, hstarted.config]
  exact ⟨rfl, rfl⟩

theorem withoutCommandLine_eq_self_iff {c : CfgSt σ} :
    c.withoutCommandLine = c ↔ c.foreground = false ∧ c.debug = 0 := by
  constructor
  · intro h
    rw [← h]
    exact ⟨rfl, rfl⟩
  · rintro ⟨hforeground, hdebug⟩
    rw [CfgSt.withoutCommandLine, ← hforeground, ← hdebug]

/-- **Main result.**  The reloads of a server are faithful if and only if its command line has
neither `--foreground` nor a debug level. -/
theorem reloads_faithful_iff {cmd : CommandLine} {file : Option ConfigFile}
    (h : cmdParser b w heap cmd file = .ok perm) :
    Faithful b w heap cmd file ↔ cmd.NoLoss := by
  obtain ⟨hforeground, hdebug⟩ := cmdParser_commandLine h
  have hself : perm.config.withoutCommandLine = perm.config ↔ cmd.NoLoss := by
    rw [withoutCommandLine_eq_self_iff, hforeground, hdebug, CommandLine.NoLoss]
  constructor
  · rintro ⟨hunchanged, -⟩
    obtain ⟨after, hafter, hconfig⟩ := hunchanged perm h [heap]
    cases (reloads_unchanged h heap []).symm.trans hafter
    exact hself.1 hconfig
  · intro hloss
    refine ⟨fun perm' h' heaps => ?_, fun _ _ _ _ _ _ _ hreload _ _ hnew =>
      reloadCfgFile_sameOptions hreload hnew⟩
    cases h.symm.trans h'
    cases heaps with
    | nil => exact ⟨perm, rfl, rfl⟩
    | cons heap' heaps => exact ⟨_, reloads_unchanged h heap' heaps, hself.2 hloss⟩

end

/-! ### A server with a small file -/

/-- All features. -/
def features : Features := ⟨⟨true, true, true⟩, true, true⟩

/-- A world in which no file can be opened and no name is known. -/
def emptyWorld : World Unit :=
  ⟨fun _ _ _ _ => none, fun _ => none, fun _ => none, fun _ _ => none, fun _ _ => .ok none⟩

def emptyHeap : Heap := ⟨fun _ => none, fun _ => (none, none)⟩

/-- The mandatory options and a network. -/
def smallFile : ConfigFile :=
  [("auth", "plain[passwd=/etc/ocserv/ocpasswd]"), ("server-cert", "/etc/ocserv/cert.pem"),
    ("server-key", "/etc/ocserv/key.pem"), ("socket-file", "/var/run/ocserv.socket"),
    ("device", "vpns"), ("ipv4-network", "192.168.1.0/24")].map
      fun o => ⟨.string, ascii o.1, ascii o.2, 0⟩

/-- `-d 3` -/
def debugLine : CommandLine := ⟨false, none, some 3⟩

theorem exists_cmdParser_debugLine :
    ∃ perm, cmdParser features emptyWorld emptyHeap debugLine (some smallFile) = .ok perm :=
  isOk_iff_exists.1 (by decide +kernel)

/-- Without a debug level the reloads of the server are faithful. -/
theorem reloads_faithful_small :
    Faithful features emptyWorld emptyHeap ⟨false, none, none⟩ (some smallFile) := by
  obtain ⟨perm, h⟩ := exists_cmdParser_debugLine
  exact (reloads_faithful_iff (cmdParser_withoutCommandLine h)).2 ⟨rfl, rfl⟩

/-- `ocserv -d 3`: the first reload sets the level to zero. -/
theorem not_faithful_debugLine :
    ¬ Faithful features emptyWorld emptyHeap debugLine (some smallFile) := by
  rintro ⟨hunchanged, -⟩
  obtain ⟨perm, h⟩ := exists_cmdParser_debugLine
  obtain ⟨after, hafter, hconfig⟩ := hunchanged perm h [emptyHeap]
  have hzero := (reloads_commandLine (List.cons_ne_nil _ _) hafter).2
  rw [hconfig, (cmdParser_commandLine h).2] at hzero
  exact absurd hzero (by decide)

end Config

end Ocserv
