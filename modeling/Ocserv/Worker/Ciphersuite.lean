import Mathlib.Data.List.Nodup
import Ocserv.Worker.Headers

/-!
# Worker: the negotiation of the DTLS ciphersuite

`header_value_check` of `src/worker-http.c` goes through the names of `X-DTLS-CipherSuite` and
keeps the best suite of its table.  A suite that matches the TLS session should end the search
("we are finished"), but only the loop over the table ends there.

* `selected_best` : the suite that is selected is always the listed one with the highest priority.
* `negotiates_iff` : **the negotiation prefers the suite of the TLS session exactly when no listed
  suite has a higher priority than it.**
-/

namespace Ocserv

namespace Worker

/-! ### What the negotiation is for -/

/-- The names in the value of the header. -/
def suiteNames (value : List UInt8) : List (List UInt8) := strtok 58 (cString value)

/-- A suite the server supports and the client lists. -/
def Listed (names : List (List UInt8)) (s : DtlsCiphersuite) : Prop :=
  s ∈ ciphersuites ∧ s.ocName ∈ names

/-- A suite uses the cipher and the MAC of the TLS session. -/
def FitsSession (want : Option (Cipher × Mac)) (s : DtlsCiphersuite) : Prop :=
  want = some (s.gnutlsCipher, s.gnutlsMac)

/-- The listed suite with the highest priority, if there is one. -/
def Best (names : List (List UInt8)) : Option DtlsCiphersuite → Prop
  | none => ∀ s, ¬ Listed names s
  | some s => Listed names s ∧ ∀ t, Listed names t → t.serverPrio ≤ s.serverPrio

/-- The suite of the TLS session if it is listed, and otherwise the best one. -/
def Negotiated (want : Option (Cipher × Mac)) (names : List (List UInt8))
    (r : Option DtlsCiphersuite) : Prop :=
  (∃ s, Listed names s ∧ FitsSession want s ∧ r = some s) ∨
    ((∀ s, Listed names s → ¬ FitsSession want s) ∧ Best names r)

/-- The suite that is selected for a value of the header. -/
def selectedFor (cfg : HttpConfig) (d : Derived) (value : List UInt8) : Option DtlsCiphersuite :=
  (headerValueCheck cfg (some .dtlsCiphersuite) value d).selectedCiphersuite

/-- The same names in another order. -/
def Reordered (value value' : List UInt8) : Prop :=
  (suiteNames value').Perm (suiteNames value) ∧ (value' = [] ↔ value = [])

/-- The selection is the one that is negotiated, in whatever order the names stand. -/
def Negotiates (cfg : HttpConfig) (d : Derived) (value : List UInt8) : Prop :=
  Negotiated cfg.tlsSession (suiteNames value) (selectedFor cfg d value) ∧
    ∀ value', Reordered value value' → selectedFor cfg d value' = selectedFor cfg d value

/-! ### The loops -/

theorem ciphersuites_names : (ciphersuites.map (·.ocName)).Nodup := by decide

/-- No two suites have the same priority, or the same cipher and MAC. -/
theorem ciphersuites_prio {s t : DtlsCiphersuite} (hs : s ∈ ciphersuites) (ht : t ∈ ciphersuites)
    (h : s.serverPrio = t.serverPrio) : s = t := by
  have hall : ∀ s ∈ ciphersuites, ∀ t ∈ ciphersuites, s.serverPrio = t.serverPrio → s = t := by
    decide
  exact hall s hs t ht h

theorem ciphersuites_session {want : Option (Cipher × Mac)} {s t : DtlsCiphersuite}
    (hs : s ∈ ciphersuites) (ht : t ∈ ciphersuites) (hfs : FitsSession want s)
    (hft : FitsSession want t) : s = t := by
  have hall : ∀ s ∈ ciphersuites, ∀ t ∈ ciphersuites,
      (s.gnutlsCipher, s.gnutlsMac) = (t.gnutlsCipher, t.gnutlsMac) → s = t := by
    decide
  exact hall s hs t ht (Option.some.inj (hfs.symm.trans hft))

variable {want : Option (Cipher × Mac)} {token : List UInt8} {cand : Option DtlsCiphersuite}

theorem selectCiphersuite_of_notMem {table : List DtlsCiphersuite}
    (h : token ∉ table.map (·.ocName)) : selectCiphersuite want token table cand = cand := by
  induction table with
  | nil => rfl
  | cons s table ih =>
    rw [List.map_cons, List.mem_cons, not_or] at h
    rw [selectCiphersuite, if_neg fun hc => h.1 hc.1, ih h.2]

/-- **One name**: its suite takes the place of a candidate with a lower priority.  That the loop
over the table may end early makes no difference, since a name stands there once. -/
theorem selectCiphersuite_eq {table : List DtlsCiphersuite}
    (hnodup : (table.map (·.ocName)).Nodup) :
    selectCiphersuite want token table cand =
      match table.find? (·.ocName = token) with
      | some s => if cand.all (·.serverPrio < s.serverPrio) then some s else cand
      | none => cand := by
  induction table generalizing cand with
  | nil => rfl
  | cons s table ih =>
    rw [List.map_cons, List.nodup_cons] at hnodup
    by_cases hname : s.ocName = token
    · subst hname
      have hrest : ∀ cand, selectCiphersuite want s.ocName table cand = cand := fun _ =>
        selectCiphersuite_of_notMem hnodup.1
      simp only [selectCiphersuite, true_and, hrest, ite_self, List.find?_cons, decide_true]
    · have hname' : ¬ (token = s.ocName ∧ cand.all (·.serverPrio < s.serverPrio)) := fun h =>
        hname h.1.symm
      rw [selectCiphersuite, if_neg hname', ih hnodup.2, List.find?_cons, decide_eq_false hname]

/-- The step of the outer loop keeps the best suite of the names so far. -/
theorem Best.step {names : List (List UInt8)} (h : Best names cand) :
    Best (names ++ [token]) (selectCiphersuite want token ciphersuites cand) := by
  rw [selectCiphersuite_eq ciphersuites_names]
  have hlisted : ∀ t, Listed (names ++ [token]) t ↔
      Listed names t ∨ t ∈ ciphersuites ∧ t.ocName = token := by
    intro t
    simp only [Listed, List.mem_append, List.mem_singleton]
    tauto
  cases hfind : ciphersuites.find? (·.ocName = token) with
  | none =>
    have hno : ∀ t, ¬ (t ∈ ciphersuites ∧ t.ocName = token) := fun t ht =>
      List.find?_eq_none.1 hfind t ht.1 (by simpa using ht.2)
    have hsame : ∀ t, Listed (names ++ [token]) t ↔ Listed names t := fun t =>
      (hlisted t).trans (or_iff_left (hno t))
    cases cand with
    | none => exact fun t ht => h t ((hsame t).1 ht)
    | some c => exact ⟨(hsame c).2 h.1, fun t ht => h.2 t ((hsame t).1 ht)⟩
  | some s =>
    have hs : s ∈ ciphersuites ∧ s.ocName = token :=
      ⟨List.mem_of_find?_eq_some hfind, by simpa using List.find?_some hfind⟩
    -- a name is that of one suite only
    have honly : ∀ t, t ∈ ciphersuites ∧ t.ocName = token → t = s := fun t ht =>
      List.inj_on_of_nodup_map ciphersuites_names ht.1 hs.1 (ht.2.trans hs.2.symm)
    cases cand with
    | none =>
      refine ⟨(hlisted s).2 (.inr hs), fun t ht => ?_⟩
      rcases (hlisted t).1 ht with ht | ht
      · exact absurd ht (h t)
      · rw [honly t ht]
    | some c =>
      simp only [Option.all_some, decide_eq_true_eq]
      split
      · rename_i hlt
        refine ⟨(hlisted s).2 (.inr hs), fun t ht => ?_⟩
        rcases (hlisted t).1 ht with ht | ht
        · exact (h.2 t ht).trans hlt.le
        · rw [honly t ht]
      · rename_i hge
        refine ⟨(hlisted c).2 (.inl h.1), fun t ht => ?_⟩
        rcases (hlisted t).1 ht with ht | ht
        · exact h.2 t ht
        · rw [honly t ht]
          exact not_lt.1 hge

/-- The loop over the names. -/
theorem Best.foldl {names : List (List UInt8)} (h : Best names cand)
    (rest : List (List UInt8)) :
    Best (names ++ rest)
      (rest.foldl (fun cand token => selectCiphersuite want token ciphersuites cand) cand) := by
  induction rest generalizing names cand with
  | nil => rwa [List.append_nil]
  | cons token rest ih =>
    have hstep := ih
      (h.step : Best (names ++ [token]) (selectCiphersuite want token ciphersuites cand))
    rwa [List.append_assoc] at hstep

/-- What is best does not depend on the order of the names. -/
theorem Best.unique {names names' : List (List UInt8)} {r r' : Option DtlsCiphersuite}
    (hmem : ∀ x, x ∈ names ↔ x ∈ names') (h : Best names r) (h' : Best names' r') : r = r' := by
  have hlisted : ∀ t, Listed names t ↔ Listed names' t := fun t => and_congr_right fun _ => hmem _
  cases r with
  | none =>
    cases r' with
    | none => rfl
    | some s => exact absurd ((hlisted s).2 h'.1) (h s)
  | some s =>
    cases r' with
    | none => exact absurd ((hlisted s).1 h.1) (h' s)
    | some t =>
      have hle := h.2 t ((hlisted t).2 h'.1)
      have hge := h'.2 s ((hlisted s).1 h.1)
      rw [ciphersuites_prio h.1.1 h'.1.1 (hge.antisymm hle)]

variable {cfg : HttpConfig} {d : Derived} {value : List UInt8}

/-- **The suite that is selected** is the listed one with the highest priority, whatever the TLS
session uses. -/
theorem selected_best (h : value ≠ []) : Best (suiteNames value) (selectedFor cfg d value) := by
  have hnone : Best [] none := fun s hs => List.not_mem_nil hs.2
  have hbest : Best ([] ++ suiteNames value) ((suiteNames value).foldl
      (fun cand token => selectCiphersuite cfg.tlsSession token ciphersuites cand) none) :=
    hnone.foldl (suiteNames value)
  rw [selectedFor, headerValueCheck, if_neg h]
  exact hbest

/-- An empty value leaves the selection as it was. -/
theorem selectedFor_nil : selectedFor cfg d [] = d.selectedCiphersuite := rfl

theorem suiteNames_nil : suiteNames [] = [] := by decide

/-- **Main result.**  The selection is the one that is negotiated if and only if no listed suite
has a higher priority than the one that fits the TLS session (and, if the value is empty, nothing
was selected before). -/
theorem negotiates_iff (cfg : HttpConfig) (d : Derived) (value : List UInt8) :
    Negotiates cfg d value ↔
      (∀ s, Listed (suiteNames value) s → FitsSession cfg.tlsSession s →
        ∀ t, Listed (suiteNames value) t → t.serverPrio ≤ s.serverPrio) ∧
      (value = [] → d.selectedCiphersuite = none) := by
  by_cases hv : value = []
  · subst hv
    have hno : ∀ s, ¬ Listed (suiteNames []) s := fun s hs => by
      rw [suiteNames_nil] at hs
      exact List.not_mem_nil hs.2
    constructor
    · rintro ⟨hneg, -⟩
      refine ⟨fun s hs => absurd hs (hno s), fun _ => ?_⟩
      rcases hneg with ⟨s, hs, -⟩ | ⟨-, hbest⟩
      · exact absurd hs (hno s)
      · rw [selectedFor_nil] at hbest
        cases hsel : d.selectedCiphersuite with
        | none => rfl
        | some s =>
          rw [hsel] at hbest
          exact absurd hbest.1 (hno s)
    · rintro ⟨-, hsel⟩
      refine ⟨.inr ⟨fun s hs => absurd hs (hno s), ?_⟩, fun value' h => by rw [h.2.2 rfl]⟩
      rw [selectedFor_nil, hsel rfl]
      exact hno
  · have hbest : Best (suiteNames value) (selectedFor cfg d value) := selected_best hv
    have horder : ∀ value', Reordered value value' →
        selectedFor cfg d value' = selectedFor cfg d value := fun value' h =>
      Best.unique (fun x => h.1.mem_iff) (selected_best fun h' => hv (h.2.1 h')) hbest
    rw [Negotiates, and_iff_left horder, and_iff_left fun h => absurd h hv]
    constructor
    · rintro (⟨r, hr, hfit, hsel⟩ | ⟨hnofit, -⟩) s hs hfits t ht
      · rw [hsel] at hbest
        rw [ciphersuites_session hs.1 hr.1 hfits hfit]
        exact hbest.2 t ht
      · exact absurd hfits (hnofit s hs)
    · intro hprio
      by_cases hfit : ∃ s, Listed (suiteNames value) s ∧ FitsSession cfg.tlsSession s
      · obtain ⟨s, hs, hfits⟩ := hfit
        have hs' : Best (suiteNames value) (some s) := ⟨hs, hprio s hs hfits⟩
        exact .inl ⟨s, hs, hfits, Best.unique (fun _ => Iff.rfl) hbest hs'⟩
      · push Not at hfit
        exact .inr ⟨hfit, hbest⟩

/-- A TLS session with AES-128-CBC and SHA1, and a client that also lists a better suite: that one
is selected. -/
theorem not_negotiates_betterListed :
    ¬ ∀ (cfg : HttpConfig) (d : Derived) (value : List UInt8), value ≠ [] →
      Negotiates cfg d value := by
  intro h
  have hneg := h
    { tlsSession := some (.aes128Cbc, .sha1)
      enableCompression := false
      authMethods := []
      hex2bin := fun s _ => s
      base64Decode := fun _ _ => none }
    { masterSecret := []
      masterSecretSet := false
      hostname := []
      isMobile := false
      spnegoSet := false
      authorization := none
      userAgent := []
      userAgentType := .unknown
      selectedCiphersuite := none
      cstpSelectedComp := none
      dtlsSelectedComp := none
      baseMtu := 0
      noIpv4 := false
      noIpv6 := false
      fullIpv6 := false
      cookie := none
      sid := none
      authState := .inactive
      selectedAuth := 0 }
    (ascii "AES128-SHA:OC-DTLS1_2-AES128-GCM") (by decide)
  have hle := ((negotiates_iff _ _ _).1 hneg).1
    ⟨ascii "AES128-SHA", 50, .aes128Cbc, .sha1⟩ ⟨by decide, by decide⟩ rfl
    ⟨ascii "OC-DTLS1_2-AES128-GCM", 90, .aes128Gcm, .aead⟩ ⟨by decide, by decide⟩
  exact absurd hle (by decide)

end Worker

end Ocserv
