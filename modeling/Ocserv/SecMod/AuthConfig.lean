import Ocserv.SecMod.Auth
import Ocserv.Worker.Headers

/-!
# Sec-mod: the options of the authentication

`figure_auth_funcs` and `figure_acct_funcs` of `src/config.c`, and the readers of the sub-options
in brackets of `src/subconfig.c`.  The result `none` is an exit of the program, or a read outside
of a string.

* `parseAuth_pam` : with the accounting of PAM the primary method has the module of PAM.
* `groupconfig_legacy` : only the legacy format of the sub-options can ask for the group
  configuration of radius.
-/

namespace Ocserv

namespace SecMod

open Worker (ascii cIsspace caseEq atoi strchr)

def maxSuboptions : ℕ := 5
def maxAuthMethods : ℕ := 4

/-- What the program was built with. -/
structure Build where
  havePam : Bool
  haveGssapi : Bool
  haveRadius : Bool
  deriving DecidableEq, Repr

/-- `SUP_CONFIG_FILE` and `SUP_CONFIG_RADIUS`. -/
inductive SupConfigType where
  | file
  | radius
  deriving DecidableEq, Repr

/-! ### Sub-options -/

/-- White space at the end of a text; the loop reads before a text that has nothing else. -/
def trimEnd (s : Bytes) : Option Bytes :=
  match s.reverse.dropWhile cIsspace with
  | [] => none
  | s => some s.reverse

/-- The name and the value of a sub-option. -/
def suboption (name value : Bytes) : Option (Bytes × Bytes) := do
  let name ← trimEnd name
  let value ← trimEnd value
  return (name, value)

/-- The loop of `expand_brackets_string`.  It looks at the same text in every turn. -/
def expandLoop (p : Bytes) : ℕ → Option (List (Bytes × Bytes))
  | 0 => some []
  | n + 1 =>
    match strchr 61 p with
    | none => none
    | some len =>
      let value := (p.drop (len + 1)).dropWhile cIsspace
      match strchr 44 value with
      | some len2 => do
        let out ← suboption (p.take len) (value.take len2)
        let rest ← expandLoop p n
        return out :: rest
      | none =>
        match strchr 93 value with
        | none => none
        | some len2 => do
          let out ← suboption (p.take len) (value.take len2)
          return [out]

/-- `expand_brackets_string`. -/
def expandBracketsString (str : Bytes) : Option (List (Bytes × Bytes)) :=
  match strchr 91 str with
  | none => some []
  | some k => expandLoop ((str.drop (k + 1)).dropWhile cIsspace) maxSuboptions

/-- The text up to the next comma or the closing bracket. -/
def untilComma (p : Bytes) : Option Bytes :=
  match strchr 44 p with
  | some len => some (p.take len)
  | none => (strchr 93 p).map p.take

/-- `get_brackets_string1`; the inner `none` is `NULL`. -/
def getBracketsString1 (str : Bytes) : Option (Option Bytes) :=
  match strchr 91 str with
  | none => some none
  | some k => (untilComma ((str.drop (k + 1)).dropWhile cIsspace)).map some

/-- `get_brackets_string2`; the inner `none` is `NULL`. -/
def getBracketsString2 (str : Bytes) : Option (Option Bytes) :=
  match strchr 91 str with
  | none => some none
  | some k =>
    let p := str.drop (k + 1)
    match strchr 44 p with
    | none => some none
    | some k => (untilComma ((p.drop (k + 1)).dropWhile cIsspace)).map some

/-- The text has the legacy format of the sub-options. -/
def isLegacy (str : Bytes) : Bool :=
  str.getD 0 0 = 91 ∧ (str.getD 1 0 = 47 ∨ str.getD 1 0 = 46)

/-- `CHECK_TRUE`. -/
def checkTrue (str : Bytes) : Bool := caseEq str (ascii "true") || caseEq str (ascii "yes")

/-- `additional`: `pam_cfg_st`, `gssapi_cfg_st`, `radius_cfg_st` or `plain_cfg_st`. -/
inductive Additional where
  | pam (gidMin : ℕ)
  | gssapi (keytab : Option Bytes) (noLocalMap : Bool)
  | radius (config : Bytes) (nasIdentifier : Option Bytes)
  | plain (passwd : Bytes)
  deriving DecidableEq, Repr

/-- A reader of sub-options, which may change `sup_config_type`. -/
abbrev Brackets := SupConfigType → Bytes → Option (Additional × SupConfigType)

/-- `gssapi_get_brackets_string`. -/
def gssapiGetBracketsString : Brackets := fun sup str => do
  let vals ← expandBracketsString str
  let cfg ← vals.foldlM (fun (cfg : Option Bytes × Bool) val =>
    if caseEq val.1 (ascii "keytab") then some (some val.2, cfg.2)
    else if caseEq val.1 (ascii "require-local-user-map") then some (cfg.1, !checkTrue val.2)
    else none) (none, false)
  return (.gssapi cfg.1 cfg.2, sup)

/-- A sub-option of radius in the new format: `config`, `nas-identifier`, `sup_config_type`. -/
def radiusOption (cfg : Option Bytes × Option Bytes × SupConfigType) (val : Bytes × Bytes) :
    Option (Option Bytes × Option Bytes × SupConfigType) :=
  if caseEq val.1 (ascii "config") then some (some val.2, cfg.2)
  else if caseEq val.1 (ascii "nas-identifier") then some (cfg.1, some val.2, cfg.2.2)
  else if caseEq val.1 (ascii "groupconfig") then
    some (cfg.1, cfg.2.1, if checkTrue val.2 then .radius else cfg.2.2)
  else none

/-- `radius_get_brackets_string`. -/
def radiusGetBracketsString : Brackets := fun sup str =>
  if isLegacy str then do
    let config ← getBracketsString1 str
    let p ← getBracketsString2 str
    if p.any fun p => !caseEq p (ascii "groupconfig") then none
    else
      let sup := if p.isSome then .radius else sup
      config.map fun config => (.radius config none, sup)
  else do
    let vals ← expandBracketsString str
    let (config, nasIdentifier, sup) ← vals.foldlM radiusOption (none, none, sup)
    config.map fun config => (.radius config nasIdentifier, sup)

/-- `pam_get_brackets_string`; `gid_min` is an `int`. -/
def pamGetBracketsString : Brackets := fun sup str => do
  let vals ← expandBracketsString str
  let gidMin ← vals.foldlM (fun _ val =>
    if caseEq val.1 (ascii "gid-min") ∧ atoi val.2 < 2 ^ 31 then some (atoi val.2) else none) 0
  return (.pam gidMin, sup)

/-- `plain_get_brackets_string`. -/
def plainGetBracketsString : Brackets := fun sup str =>
  if isLegacy str then do
    let passwd ← getBracketsString1 str
    passwd.map fun passwd => (.plain passwd, sup)
  else do
    let vals ← expandBracketsString str
    let passwd ← vals.foldlM (fun _ val =>
      if caseEq val.1 (ascii "passwd") then some (some val.2) else none) none
    passwd.map fun passwd => (.plain passwd, sup)

/-! ### Methods -/

/-- `auth_types_st`. -/
structure AuthType where
  name : Bytes
  mod : Option AuthMod
  type : ℕ
  getBracketsString : Option Brackets

/-- `avail_auth_types`. -/
def availAuthTypes (b : Build) : List AuthType :=
  (if b.havePam then [⟨ascii "pam", some .pam, authTypePam, some pamGetBracketsString⟩] else []) ++
    (if b.haveGssapi then
      [⟨ascii "gssapi", some .gssapi, authTypeGssapi, some gssapiGetBracketsString⟩] else []) ++
    (if b.haveRadius then
      [⟨ascii "radius", some .radius, authTypeRadius, some radiusGetBracketsString⟩] else []) ++
    [⟨ascii "plain", some .plain, authTypePlain, some plainGetBracketsString⟩,
      ⟨ascii "certificate", none, authTypeCertificate, none⟩]

/-- The accounting modules. -/
inductive AcctModule where
  | pam
  | radius
  deriving DecidableEq, Repr

namespace AcctModule

/-- `auth_types`: without the virtual types. -/
def authTypes : AcctModule → ℕ
  | pam => authTypePam &&& (2 ^ 32 - 1 - authTypeUsernamePass)
  | radius =>
    (authTypePam ||| authTypePlain ||| authTypeCertificate ||| authTypeRadius |||
      authTypeGssapi) &&& (2 ^ 32 - 1 - authTypeUsernamePass)

/-- The callbacks. -/
def callbacks : AcctModule → AcctMod
  | pam => ⟨true, false, true⟩
  | radius => ⟨true, true, true⟩

end AcctModule

/-- `acct_types_st`. -/
structure AcctType where
  name : Bytes
  mod : AcctModule
  getBracketsString : Option Brackets

/-- `avail_acct_types`. -/
def availAcctTypes (b : Build) : List AcctType :=
  (if b.havePam then [⟨ascii "pam", .pam, none⟩] else []) ++
    (if b.haveRadius then [⟨ascii "radius", .radius, some radiusGetBracketsString⟩] else [])

/-- An entry of `perm_config->auth`. -/
structure AuthStruct extends AuthMethod where
  name : Option Bytes
  additional : Option Additional
  deriving DecidableEq, Repr

/-- `perm_config->acct`. -/
structure AcctStruct where
  amod : AcctModule
  name : Bytes
  additional : Option Additional
  deriving DecidableEq, Repr

/-- The part of `perm_cfg_st` that these options fill. -/
structure PermCfg where
  /-- The first `auth_methods` entries. -/
  auth : List AuthStruct
  acct : Option AcctStruct
  supConfigType : SupConfigType
  deriving DecidableEq, Repr

/-- `c_strncasecmp` with a name of the table finds no difference. -/
def hasName (str name : Bytes) : Bool := caseEq (str.take name.length) name

/-- The sub-options of an option whose name is known; `old` is what stays without a reader. -/
def readBrackets (reader : Option Brackets) (old : Option Additional) (sup : SupConfigType)
    (str : Bytes) : Option (Option Additional × SupConfigType) :=
  match reader with
  | none => some (old, sup)
  | some reader => (reader sup str).map fun x => (some x.1, x.2)

/-- A turn of the first loop of `figure_auth_funcs`, on the entry of the primary method. -/
def figurePrimary (b : Build) (config : PermCfg) (auth : Bytes) : Option PermCfg := do
  let t ← (availAuthTypes b).find? fun t => hasName auth t.name
  let slot := config.auth.head?.getD ⟨⟨false, 0, none⟩, none, none⟩
  let (additional, sup) ← readBrackets t.getBracketsString slot.additional config.supConfigType
    (auth.drop t.name.length)
  if slot.amod.isSome ∧ t.mod.isSome then none
  else
    return { config with
      supConfigType := sup
      auth := [{
        enabled := true
        type := slot.type ||| t.type
        amod := slot.amod.or t.mod
        name := some (slot.name.elim t.name fun name => name ++ ascii "+" ++ t.name)
        additional }] }

/-- A turn of the second loop of `figure_auth_funcs`, which appends an alternative method. -/
def figureAlternative (b : Build) (config : PermCfg) (auth : Bytes) : Option PermCfg := do
  let t ← (availAuthTypes b).find? fun t => hasName auth t.name
  let (additional, sup) ← readBrackets t.getBracketsString none config.supConfigType
    (auth.drop t.name.length)
  if maxAuthMethods ≤ config.auth.length + 1 then none
  else
    return { config with
      supConfigType := sup
      auth := config.auth ++
        [{ enabled := true, type := t.type, amod := t.mod, name := some t.name, additional }] }

/-- `figure_auth_funcs`. -/
def figureAuthFuncs (b : Build) (config : PermCfg) (auth : List Bytes) (primary : Bool) :
    Option PermCfg :=
  auth.foldlM (if primary then figurePrimary b else figureAlternative b) config

/-- `figure_acct_funcs`. -/
def figureAcctFuncs (b : Build) (config : PermCfg) (acct : Bytes) : Option PermCfg := do
  let t ← (availAcctTypes b).find? fun t => hasName acct t.name
  let (additional, sup) ← readBrackets t.getBracketsString none config.supConfigType
    (acct.drop t.name.length)
  let slot := config.auth.head?.getD ⟨⟨false, 0, none⟩, none, none⟩
  if t.mod.authTypes &&& slot.type = 0 then none
  else return { config with supConfigType := sup, acct := some ⟨t.mod, t.name, additional⟩ }

/-- The options `auth`, `enable-auth` and `acct` of `parse_cfg_file`; the first is mandatory. -/
def parseAuth (b : Build) (auth enableAuth : List Bytes) (acct : Option Bytes) :
    Option PermCfg := do
  if auth = [] then none
  else
    let config ← figureAuthFuncs b ⟨[], none, .file⟩ auth true
    let config ← figureAuthFuncs b config enableAuth false
    if !config.auth.head?.any (·.enabled) then none
    else
      match acct with
      | none => return config
      | some acct => figureAcctFuncs b config acct

/-! ### What is accepted -/

/-- An invariant of a loop that may fail. -/
theorem foldlM_invariant {σ τ : Type*} {f : σ → τ → Option σ} {P : σ → Prop}
    {l : List τ} (hstep : ∀ s, ∀ x ∈ l, ∀ s', P s → f s x = some s' → P s') {s s' : σ} (h : P s)
    (hl : l.foldlM f s = some s') : P s' := by
  induction l generalizing s with
  | nil =>
    cases hl
    exact h
  | cons x l ih =>
    rw [List.foldlM_cons] at hl
    obtain ⟨t, ht, hl⟩ := Option.bind_eq_some_iff.1 hl
    exact ih (fun s y hy => hstep s y (List.mem_cons_of_mem x hy))
      (hstep s x List.mem_cons_self t h ht) hl

variable {b : Build} {config config' p : PermCfg} {str : Bytes}

/-- The bit of PAM in the type comes with its module. -/
def PamBit (m : AuthStruct) : Prop := m.type &&& 2 ≠ 0 → m.amod = some .pam

theorem availAuthTypes_pam {t : AuthType} (h : t ∈ availAuthTypes b) (hbit : t.type &&& 2 ≠ 0) :
    t.mod = some .pam := by
  simp only [availAuthTypes, List.mem_append, List.mem_cons, List.not_mem_nil, or_false] at h
  rcases h with ((h | h) | h) | rfl | rfl
  all_goals try split_ifs at h
  all_goals try simp only [List.mem_singleton, List.not_mem_nil] at h
  · rw [h]
  · rw [h] at hbit
    exact absurd rfl hbit
  · rw [h] at hbit
    exact absurd rfl hbit
  · exact absurd rfl hbit
  · exact absurd rfl hbit

theorem figurePrimary_pamBit (hconfig : ∀ m ∈ config.auth.head?, PamBit m)
    (h : figurePrimary b config str = some config') :
    ∃ m, config'.auth = [m] ∧ m.enabled = true ∧ PamBit m ∧ config'.acct = config.acct := by
  simp only [figurePrimary, Option.bind_eq_bind, Option.bind_eq_some_iff] at h
  obtain ⟨t, ht, ⟨additional, sup⟩, -, h⟩ := h
  split_ifs at h with hmix
  cases h
  refine ⟨_, rfl, rfl, ?_, rfl⟩
  have hslot : PamBit (config.auth.head?.getD ⟨⟨false, 0, none⟩, none, none⟩) := by
    cases hhead : config.auth.head? with
    | none => exact fun hbit => absurd rfl hbit
    | some m => exact hconfig m hhead
  intro hbit
  by_cases hold : (config.auth.head?.getD ⟨⟨false, 0, none⟩, none, none⟩).type &&& 2 = 0
  · rw [Nat.and_or_distrib_right, hold, Nat.zero_or] at hbit
    have hmod := availAuthTypes_pam (List.mem_of_find?_eq_some ht) hbit
    have hnone : (config.auth.head?.getD ⟨⟨false, 0, none⟩, none, none⟩).amod = none := by
      by_contra hsome
      exact hmix ⟨Option.isSome_iff_ne_none.2 hsome, by rw [hmod]; rfl⟩
    rw [hnone, hmod]
    rfl
  · rw [hslot hold]
    rfl

theorem figureAlternative_auth (h : figureAlternative b config str = some config') :
    ∃ m, config'.auth = config.auth ++ [m] ∧ config'.acct = config.acct := by
  simp only [figureAlternative, Option.bind_eq_bind, Option.bind_eq_some_iff] at h
  obtain ⟨t, -, ⟨additional, sup⟩, -, h⟩ := h
  split_ifs at h
  cases h
  exact ⟨_, rfl, rfl⟩

theorem figureAcctFuncs_eq (h : figureAcctFuncs b config str = some config') :
    config'.auth = config.auth ∧ ∃ acct, config'.acct = some acct ∧ acct.amod.authTypes &&&
      (config.auth.head?.getD ⟨⟨false, 0, none⟩, none, none⟩).type ≠ 0 := by
  simp only [figureAcctFuncs, Option.bind_eq_bind, Option.bind_eq_some_iff] at h
  obtain ⟨t, -, ⟨additional, sup⟩, -, h⟩ := h
  split_ifs at h with htypes
  cases h
  exact ⟨rfl, _, rfl, htypes⟩

/-- The primary method. -/
theorem figureAuthFuncs_primary {auth : List Bytes} (hne : auth ≠ [])
    (h : figureAuthFuncs b ⟨[], none, .file⟩ auth true = some config) :
    ∃ m, config.auth = [m] ∧ m.enabled = true ∧ PamBit m ∧ config.acct = none := by
  obtain ⟨str, rest, rfl⟩ := List.exists_cons_of_ne_nil hne
  simp only [figureAuthFuncs, if_true, List.foldlM_cons] at h
  obtain ⟨first, hfirst, h⟩ := Option.bind_eq_some_iff.1 h
  refine foldlM_invariant (P := fun c => ∃ m, c.auth = [m] ∧ m.enabled = true ∧ PamBit m ∧
    c.acct = none) ?_ (figurePrimary_pamBit (fun m hm => by cases hm) hfirst) h
  rintro c str - c' ⟨m, hm, -, hbit, hacct⟩ hstep
  rw [← hacct]
  refine figurePrimary_pamBit ?_ hstep
  intro m' hm'
  rw [hm] at hm'
  cases hm'
  exact hbit

/-- **Main result.** With the accounting of PAM, the primary method has the module of PAM. -/
theorem parseAuth_pam {auth enableAuth : List Bytes} {acct : Option Bytes}
    (h : parseAuth b auth enableAuth acct = some p)
    (hacct : p.acct.map (·.amod) = some .pam) :
    ∃ m rest, p.auth = m :: rest ∧ m.enabled = true ∧ m.type ≠ 0 ∧ m.amod = some .pam := by
  simp only [parseAuth] at h
  split_ifs at h with hne
  simp only [Option.bind_eq_bind, Option.bind_eq_some_iff] at h
  obtain ⟨c₁, hc₁, c₂, hc₂, h⟩ := h
  obtain ⟨m, hm, henabled, hbit, hnone⟩ := figureAuthFuncs_primary hne hc₁
  obtain ⟨⟨rest, hrest⟩, hnone⟩ : (∃ rest, c₂.auth = m :: rest) ∧ c₂.acct = none := by
    refine foldlM_invariant (P := fun c => (∃ rest, c.auth = m :: rest) ∧ c.acct = none) ?_
      ⟨⟨[], hm⟩, hnone⟩ hc₂
    rintro c str - c' ⟨⟨rest, hc⟩, hnone⟩ hstep
    obtain ⟨m', hm', hacct'⟩ := figureAlternative_auth hstep
    exact ⟨⟨rest ++ [m'], by rw [hm', hc, List.cons_append]⟩, hacct'.trans hnone⟩
  split_ifs at h
  cases acct with
  | none =>
    cases h
    rw [hnone] at hacct
    cases hacct
  | some acct =>
    obtain ⟨hauth, acct, hp, htypes⟩ := figureAcctFuncs_eq h
    rw [hp] at hacct
    have hpam : acct.amod = .pam := Option.some.inj hacct
    have hbits : m.type &&& 2 ≠ 0 := by
      rw [hpam, hrest] at htypes
      rw [Nat.and_comm]
      exact htypes
    refine ⟨m, rest, hauth.trans hrest, henabled, ?_, hbit hbits⟩
    intro htype
    rw [htype] at hbits
    exact hbits rfl

/-- The loop over the sub-options does not get beyond the first one. -/
theorem expandLoop_first {text : Bytes} {n : ℕ} {vals : List (Bytes × Bytes)}
    (h : expandLoop text n = some vals) : ∀ val ∈ vals, expandLoop text 1 = some [val] := by
  induction n generalizing vals with
  | zero =>
    cases h
    simp
  | succ n ih =>
    intro val hval
    simp only [expandLoop] at h ⊢
    cases hlen : strchr 61 text with
    | none => simp [hlen] at h
    | some len =>
      simp only [hlen] at h ⊢
      cases hlen2 : strchr 44 ((text.drop (len + 1)).dropWhile cIsspace) with
      | some len2 =>
        simp only [hlen2, Option.bind_eq_bind, Option.bind_eq_some_iff] at h ⊢
        obtain ⟨out, hout, rest, hrest, h⟩ := h
        cases h
        rcases List.mem_cons.1 hval with rfl | hval
        · exact ⟨val, hout, [], rfl, rfl⟩
        · have hfirst := ih hrest val hval
          simp only [expandLoop, hlen, hlen2, Option.bind_eq_bind,
            Option.bind_eq_some_iff] at hfirst
          exact hfirst
      | none =>
        simp only [hlen2] at h ⊢
        cases hlen3 : strchr 93 ((text.drop (len + 1)).dropWhile cIsspace) with
        | none => simp [hlen3] at h
        | some len2 =>
          simp only [hlen3, Option.bind_eq_bind, Option.bind_eq_some_iff] at h ⊢
          obtain ⟨out, hout, h⟩ := h
          cases h
          rw [List.mem_singleton.1 hval]
          exact ⟨out, hout, rfl⟩

/-- **Main result.** Only the legacy format of the sub-options of radius can ask for its group
configuration: in the other one no option is read after the first, and `config` is mandatory. -/
theorem groupconfig_legacy {additional : Additional}
    (h : radiusGetBracketsString .file str = some (additional, .radius)) :
    isLegacy str = true := by
  by_contra hlegacy
  simp only [radiusGetBracketsString, if_neg hlegacy, Option.bind_eq_bind,
    Option.bind_eq_some_iff] at h
  obtain ⟨vals, hvals, ⟨cfg, nas, sup⟩, hcfg, h⟩ := h
  obtain ⟨c, hc, h⟩ := Option.map_eq_some_iff.1 h
  cases h
  have hsame : ∀ v ∈ vals, ∀ w ∈ vals, v = w := by
    rw [expandBracketsString] at hvals
    cases hk : strchr 91 str with
    | none =>
      simp only [hk] at hvals
      cases hvals
      simp
    | some k =>
      simp only [hk] at hvals
      intro v hv w hw
      have h := (expandLoop_first hvals v hv).symm.trans (expandLoop_first hvals w hw)
      simpa using h
  by_cases hconfig : ∃ v ∈ vals, caseEq v.1 (ascii "config") = true
  · obtain ⟨v, hv, hname⟩ := hconfig
    have hfile := foldlM_invariant (P := fun cfg => cfg.2.2 = SupConfigType.file)
      (fun cfg w hw cfg' hold hstep => by
        rw [radiusOption, ← hsame v hv w hw, if_pos hname] at hstep
        cases hstep
        exact hold) rfl hcfg
    cases hfile
  · have hnone := foldlM_invariant (P := fun cfg => cfg.1 = none)
      (fun cfg w hw cfg' hold hstep => by
        rw [radiusOption, if_neg fun hname => hconfig ⟨w, hw, hname⟩] at hstep
        split_ifs at hstep <;> cases hstep <;> exact hold) rfl hcfg
    rw [hc] at hnone
    cases hnone

end SecMod

end Ocserv
