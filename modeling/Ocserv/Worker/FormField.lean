import Ocserv.Search
import Ocserv.Worker.Unescape

/-!
# Worker: the fields of a form

`parse_reply` of `src/worker-auth.c`, on a body that `http_body_cb` has put together: its bytes, a
terminator, and whatever the memory holds behind.

* `parseReply_formBody` : what is returned for the body of a form.
* `parseReply_iff` : it is the value of the field exactly if no other key comes in between.
-/

namespace Ocserv

namespace Worker

open Html
open Search

/-! ### The function of the source -/

/-- `sizeof(temp1)` and `sizeof(temp2)`. -/
def tempSize : ℕ := 64

/-- `strcasestr`. -/
def strcasestr (haystack needle : List UInt8) : Option ℕ :=
  search (needle.map cTolower) ((cString haystack).map cTolower)

/-- The memory of a body of which the terminator is the last byte. -/
def bodyMemory (beyond : ℕ → UInt8) (body : List UInt8) : ℕ → UInt8 := fun i =>
  if i ≤ body.length then body.getD i 0 else beyond i

/-- The length of an XML value: up to the closing tag. -/
def xmlLength (temp2 : List UInt8) : List UInt8 → ℕ
  | [] => 0
  | c :: p =>
    if c = 60 ∧ caseEq ((c :: p).take temp2.length) temp2 then 0 else xmlLength temp2 p + 1

/-- `parse_reply`: the string that is returned; an error is `-1`. -/
def parseReply (beyond : ℕ → UInt8) (body : Option (List UInt8)) (field : List UInt8)
    (xmlField : Option (List UInt8)) : Except Failure (List UInt8) :=
  match body with
  | none => .error .null
  | some body =>
    if body = [] then .error .null
    else
      let xml := contains body (ascii "<?xml")
      let field := if xml then xmlField.getD field else field
      let temp1 := cString (snprintf tempSize
        (if xml then ascii "<" ++ field ++ ascii ">" else field ++ ascii "="))
      let temp2 := cString (snprintf tempSize (ascii "</" ++ field ++ ascii ">"))
      match strcasestr body temp1 with
      | none => .error .null
      | some k =>
        let value := k + temp1.length
        let p := (cString body).drop value
        let len := if xml then xmlLength temp2 p else (p.takeWhile (· ≠ 38)).length
        if len = 0 then .ok []
        else do
          let memory := fun i => bodyMemory beyond body (value + i)
          let msg ← if xml then unescapeHtml memory len else unescapeUrl memory len
          return cString msg

/-! ### Forms -/

/-- The text `t` is `s` with every byte that is not unreserved as a percent sign and two
hexadecimal digits. -/
inductive Encodes : List UInt8 → List UInt8 → Prop
  | nil : Encodes [] []
  | char {c : UInt8} {s t : List UInt8} (hc : unreserved c = true) (h : Encodes s t) :
      Encodes (c :: s) (c :: t)
  | triple {c a b : UInt8} {s t : List UInt8} (hc : unreserved c = false)
      (ha : hexValue a = some (c.toNat / 16)) (hb : hexValue b = some (c.toNat % 16))
      (h : Encodes s t) : Encodes (c :: s) (37 :: a :: b :: t)

/-- A key and a value, and how they stand in a body. -/
structure FormPair where
  key : List UInt8
  value : List UInt8
  keyText : List UInt8
  valueText : List UInt8
  key_encodes : Encodes key keyText
  value_encodes : Encodes value valueText

/-- `k=v`. -/
def FormPair.text (p : FormPair) : List UInt8 := p.keyText ++ 61 :: p.valueText

/-- `k1=v1&...&kn=vn`. -/
def formBody (pairs : List FormPair) : List UInt8 := [38].intercalate (pairs.map FormPair.text)

/-- A name that is asked for: a string with neither separator that fits `temp1`. -/
structure FieldName where
  text : List UInt8
  no_nul : 0 ∉ text
  no_ampersand : 38 ∉ text
  no_equals : 61 ∉ text
  fits : text.length + 2 ≤ tempSize

/-- `USERNAME_FIELD`. -/
def usernameField : FieldName :=
  ⟨ascii "username", by decide, by decide, by decide, by decide⟩

/-- `PASSWORD_FIELD`. -/
def passwordField : FieldName :=
  ⟨ascii "password", by decide, by decide, by decide, by decide⟩

/-- `GROUPNAME_FIELD`. -/
def groupnameField : FieldName :=
  ⟨ascii "group%5flist", by decide, by decide, by decide, by decide⟩

/-- `GROUPNAME_FIELD2`. -/
def groupnameField2 : FieldName :=
  ⟨ascii "group_list", by decide, by decide, by decide, by decide⟩

namespace FormPair

/-- The key is the name. -/
def hasName (name : FieldName) (p : FormPair) : Bool := caseEq p.key name.text

/-- The key ends with the name, as it stands in the body. -/
def endsIn (name : FieldName) (p : FormPair) : Bool :=
  decide (name.text.map cTolower <:+ p.keyText.map cTolower)

end FormPair

/-- What `parse_reply` is to return. -/
def fieldValue (name : FieldName) (pairs : List FormPair) : Except Failure (List UInt8) :=
  (pairs.find? (·.hasName name)).elim (.error .null) fun p => .ok p.value

/-- The first key that ends with the name comes with the value of the first that is the name, as
far as a string can show it. -/
def FieldFound (name : FieldName) (pairs : List FormPair) : Prop :=
  (pairs.find? (·.endsIn name)).map (fun p => cString p.value) =
    (pairs.find? (·.hasName name)).map (·.value)

/-! ### Encoded texts -/

section Encoded

variable {s t : List UInt8} {c : UInt8}

theorem unreserved_of_hexValue {d : ℕ} (h : hexValue c = some d) : unreserved c = true := by
  have hall : ∀ n : Fin 256, (hexValue (UInt8.ofNat n)).isSome →
      unreserved (UInt8.ofNat n) = true := by decide +kernel
  have hc := hall ⟨c.toNat, c.toNat_lt⟩
  simp only [UInt8.ofNat_toNat, h] at hc
  exact hc rfl

theorem Encodes.mem (h : Encodes s t) (hc : c ∈ t) : unreserved c = true ∨ c = 37 := by
  induction h with
  | nil => cases hc
  | char hu _ ih =>
    rcases List.mem_cons.1 hc with rfl | hc
    · exact .inl hu
    · exact ih hc
  | triple _ ha hb _ ih =>
    simp only [List.mem_cons] at hc
    rcases hc with rfl | rfl | rfl | hc
    · exact .inr rfl
    · exact .inl (unreserved_of_hexValue ha)
    · exact .inl (unreserved_of_hexValue hb)
    · exact ih hc

/-- What does not stand in an encoded text. -/
theorem Encodes.notMem (h : Encodes s t) (hc : unreserved c = false) (hne : c ≠ 37) : c ∉ t :=
  fun hmem => (h.mem hmem).elim (fun hu => Bool.false_ne_true (hc.symm.trans hu)) hne

theorem Encodes.decode (h : Encodes s t) : decode t = some s := by
  induction h with
  | nil => rfl
  | @char c s t hu _ ih =>
    have hne : c ≠ 37 := by
      rintro rfl
      exact absurd hu (by decide)
    rw [decode_char hne, ih]
    rfl
  | @triple c a b s t _ ha hb _ ih =>
    have hc : UInt8.ofNat (16 * (c.toNat / 16) + c.toNat % 16) = c := by
      rw [Nat.div_add_mod, UInt8.ofNat_toNat]
    rw [decode_escape, ha, hb, ih]
    simp only [Option.bind_some, hc]

/-- `unescape_url` decodes an encoded text. -/
theorem unescapeUrl_encoded {memory : ℕ → UInt8} (h : Encodes s (bytesAt memory 0 t.length))
    (hsize : t.length + 1 < 0x7FFFFFFF) : unescapeUrl memory t.length = .ok s := by
  have hexact := (unescapeUrl_exact_granted hsize).2 (.inl (by rw [h.decode]; rfl))
  rw [hexact.result, h.decode]
  rfl

end Encoded

/-! ### The place of a key -/

theorem cTolower_eq_iff {c d : UInt8} (hd : d.toNat < 65) : cTolower c = d ↔ c = d := by
  rw [cTolower]
  split_ifs with hc
  · rw [UInt8.le_iff_toNat_le, UInt8.le_iff_toNat_le] at hc
    have h65 : (65 : UInt8).toNat = 65 := rfl
    have h90 : (90 : UInt8).toNat = 90 := rfl
    have h32 : (32 : UInt8).toNat = 32 := rfl
    refine iff_of_false (fun h => ?_) fun h => ?_
    · have hnat := congrArg UInt8.toNat h
      rw [UInt8.toNat_add] at hnat
      omega
    · have hnat := congrArg UInt8.toNat h
      omega
  · rfl

theorem notMem_map_cTolower {s : List UInt8} {d : UInt8} (hd : d.toNat < 65) (h : d ∉ s) :
    d ∉ s.map cTolower := by
  intro hmem
  obtain ⟨c, hc, heq⟩ := List.mem_map.1 hmem
  exact h ((cTolower_eq_iff hd).1 heq ▸ hc)

theorem formBody_singleton (p : FormPair) : formBody [p] = p.text := by
  simp [formBody]

theorem formBody_cons_cons (p q : FormPair) (pairs : List FormPair) :
    formBody (p :: q :: pairs) = p.text ++ 38 :: formBody (q :: pairs) := by
  simp [formBody, List.intercalate_cons_cons]

/-- The pattern that is looked for. -/
def FieldName.needle (name : FieldName) : List UInt8 := (name.text ++ [61]).map cTolower

theorem FieldName.needle_eq (name : FieldName) :
    name.needle = name.text.map cTolower ++ [61] := by
  rw [needle, List.map_append]
  rfl

theorem FieldName.ampersand_notMem (name : FieldName) : 38 ∉ name.needle := by
  rw [needle_eq]
  have h := notMem_map_cTolower (by decide) name.no_ampersand
  simpa using h

variable {name : FieldName} {p : FormPair} {pairs : List FormPair}

/-- A key that does not end with the name is skipped. -/
theorem search_pair (rest : List UInt8) :
    search name.needle ((p.text ++ rest).map cTolower) =
      if p.endsIn name then some (p.keyText.length - name.text.length)
      else (search name.needle ((p.valueText ++ rest).map cTolower)).map
        (· + (p.keyText.length + 1)) := by
  have hn := notMem_map_cTolower (by decide) name.no_equals
  have hk := notMem_map_cTolower (d := 61) (by decide)
    (p.key_encodes.notMem (by decide) (by decide))
  have htext : (p.text ++ rest).map cTolower =
      p.keyText.map cTolower ++ 61 :: (p.valueText ++ rest).map cTolower := by
    simp only [FormPair.text, List.map_append, List.map_cons, List.append_assoc, List.cons_append]
    rfl
  rw [htext, FieldName.needle_eq, search_separator hn hk]
  simp only [List.length_map, FormPair.endsIn, decide_eq_true_eq]

/-- What follows the key, where the key ends with the name. -/
theorem drop_pair (h : p.endsIn name = true) (rest : List UInt8) :
    (p.text ++ rest).drop (p.keyText.length - name.text.length + (name.text.length + 1)) =
      p.valueText ++ rest := by
  have hle := (of_decide_eq_true h : name.text.map cTolower <:+ p.keyText.map cTolower).length_le
  rw [List.length_map, List.length_map] at hle
  have hlen : p.keyText.length - name.text.length + (name.text.length + 1) =
      (p.keyText ++ [61]).length := by
    rw [List.length_append, List.length_singleton]
    omega
  have htext : p.text ++ rest = (p.keyText ++ [61]) ++ (p.valueText ++ rest) := by
    simp [FormPair.text]
  rw [hlen, htext, List.drop_left]

/-- A pair of which the key does not end with the name is skipped. -/
theorem search_cons_cons (hp : ¬ p.endsIn name = true) (q : FormPair) (pairs : List FormPair) :
    search name.needle ((formBody (p :: q :: pairs)).map cTolower) =
      (search name.needle ((formBody (q :: pairs)).map cTolower)).map
        (· + (p.text.length + 1)) := by
  have hequals : (61 : UInt8) ∈ name.needle := by
    rw [FieldName.needle_eq]
    simp
  have hvalue := notMem_map_cTolower (d := 61) (by decide)
    (p.value_encodes.notMem (by decide) (by decide))
  rw [formBody_cons_cons, search_pair, if_neg hp, List.map_append, List.map_cons]
  change (search name.needle (p.valueText.map cTolower ++ 38 :: _)).map _ = _
  rw [search_skip name.ampersand_notMem hequals hvalue, Option.map_map]
  congr 1
  funext k
  simp only [Function.comp_apply, List.length_map, FormPair.text, List.length_append,
    List.length_cons]
  omega

/-- The text behind a pair that is skipped. -/
theorem drop_cons_cons (p q : FormPair) (pairs : List FormPair) (k n : ℕ) :
    (formBody (p :: q :: pairs)).drop (k + (p.text.length + 1) + n) =
      (formBody (q :: pairs)).drop (k + n) := by
  have hsplit : p.text ++ 38 :: formBody (q :: pairs) =
      (p.text ++ [38]) ++ formBody (q :: pairs) := by simp
  have hlen : k + (p.text.length + 1) + n = (p.text ++ [38]).length + (k + n) := by
    rw [List.length_append, List.length_singleton]
    omega
  rw [formBody_cons_cons, hsplit, hlen, List.drop_length_add_append]

/-- **The search in a body** finds the first key that ends with the name. -/
theorem search_formBody (name : FieldName) (hne : pairs ≠ []) :
    match pairs.find? (·.endsIn name) with
    | none => search name.needle ((formBody pairs).map cTolower) = none
    | some p => ∃ k rest, search name.needle ((formBody pairs).map cTolower) = some k ∧
        (formBody pairs).drop (k + (name.text.length + 1)) = p.valueText ++ rest ∧
        rest.head?.all (· = 38) := by
  induction pairs with
  | nil => exact absurd rfl hne
  | cons p pairs ih =>
    obtain ⟨rest, hrest, hbody⟩ : ∃ rest : List UInt8, rest.head?.all (· = 38) ∧
        formBody (p :: pairs) = p.text ++ rest := by
      cases pairs with
      | nil => exact ⟨[], rfl, by rw [formBody_singleton, List.append_nil]⟩
      | cons q pairs => exact ⟨38 :: formBody (q :: pairs), rfl, formBody_cons_cons p q pairs⟩
    by_cases hp : p.endsIn name = true
    · rw [List.find?_cons_of_pos hp]
      refine ⟨_, rest, by rw [hbody, search_pair, if_pos hp], ?_, hrest⟩
      rw [hbody, drop_pair hp]
    · rw [List.find?_cons_of_neg hp]
      cases pairs with
      | nil =>
        have hequals : (61 : UInt8) ∈ name.needle := by
          rw [FieldName.needle_eq]
          simp
        have hvalue := notMem_map_cTolower (d := 61) (by decide)
          (p.value_encodes.notMem (by decide) (by decide))
        rw [formBody_singleton, ← List.append_nil p.text, search_pair, if_neg hp, List.append_nil,
          search_of_notMem hequals hvalue]
        rfl
      | cons q pairs =>
        have ih := ih (List.cons_ne_nil q pairs)
        cases hfind : (q :: pairs).find? (·.endsIn name) with
        | none =>
          rw [hfind] at ih
          rw [search_cons_cons hp, ih]
          rfl
        | some r =>
          rw [hfind] at ih
          obtain ⟨k, rest, hk, hdrop, hrest⟩ := ih
          refine ⟨_, rest, by rw [search_cons_cons hp, hk]; rfl, ?_, hrest⟩
          rw [drop_cons_cons, hdrop]

/-- A byte that does not stand in encoded texts and is no separator does not stand in a body. -/
theorem notMem_formBody {c : UInt8} (hc : unreserved c = false) (hpercent : c ≠ 37)
    (hampersand : c ≠ 38) (hequals : c ≠ 61) (pairs : List FormPair) : c ∉ formBody pairs := by
  have htext (p : FormPair) : c ∉ p.text := by
    have hk := p.key_encodes.notMem hc hpercent
    have hv := p.value_encodes.notMem hc hpercent
    simp [FormPair.text, hk, hv, hequals]
  induction pairs with
  | nil => simp [formBody]
  | cons p pairs ih =>
    cases pairs with
    | nil =>
      rw [formBody_singleton]
      exact htext p
    | cons q pairs =>
      rw [formBody_cons_cons, List.mem_append, List.mem_cons]
      rintro (h | h | h)
      · exact htext p h
      · exact hampersand h
      · exact ih h

/-! ### The result -/

theorem cString_of_notMem {s : List UInt8} (h0 : 0 ∉ s) (t : List UInt8) :
    cString (s ++ 0 :: t) = s := by
  have hall : ∀ a ∈ s, decide (a ≠ 0) = true := fun a ha => decide_eq_true fun h => h0 (h ▸ ha)
  rw [cString, List.takeWhile_append_of_pos hall]
  simp

/-- The pattern fits `temp1`. -/
theorem FieldName.temp1 (name : FieldName) :
    cString (snprintf tempSize (name.text ++ ascii "=")) = name.text ++ [61] := by
  have hfits := name.fits
  have h0 : (0 : UInt8) ∉ name.text ++ [61] := by
    have h := name.no_nul
    simpa using h
  rw [snprintf, if_neg (by decide), List.take_of_length_le]
  · exact cString_of_notMem h0 []
  · rw [List.length_append]
    exact Nat.le_sub_of_add_le hfits

theorem bytesAt_eq {memory : ℕ → UInt8} {s : List UInt8}
    (h : ∀ i < s.length, memory i = s.getD i 0) : bytesAt memory 0 s.length = s := by
  refine List.ext_getElem (length_bytesAt memory 0 s.length) fun i hi hi' => ?_
  have hget := h i hi'
  rw [List.getD_eq_getElem _ _ hi'] at hget
  simp [bytesAt, hget]

/-- The body of a form is a string that is no XML document. -/
theorem formBody_string (hne : pairs ≠ []) : formBody pairs ≠ [] ∧
    contains (formBody pairs) (ascii "<?xml") = false ∧
      cString (formBody pairs) = formBody pairs := by
  have h0 := notMem_formBody (c := 0) (by decide) (by decide) (by decide) (by decide) pairs
  refine ⟨?_, decide_eq_false fun h => ?_, ?_⟩
  · obtain ⟨p, pairs, rfl⟩ := List.exists_cons_of_ne_nil hne
    cases pairs with
    | nil => simp [formBody_singleton, FormPair.text]
    | cons q pairs => simp [formBody_cons_cons]
  · exact notMem_formBody (by decide) (by decide) (by decide) (by decide) pairs
      (h.subset (by decide : (60 : UInt8) ∈ ascii "<?xml"))
  · exact List.takeWhile_eq_self_iff.2 fun a ha => decide_eq_true fun h => h0 (h ▸ ha)

/-- The value ends before the next pair. -/
theorem takeWhile_value {rest : List UInt8} (hrest : rest.head?.all (· = 38)) :
    (p.valueText ++ rest).takeWhile (· ≠ 38) = p.valueText := by
  have hampersand := p.value_encodes.notMem (c := 38) (by decide) (by decide)
  have hall : ∀ a ∈ p.valueText, decide (a ≠ 38) = true := fun a ha =>
    decide_eq_true fun h => hampersand (h ▸ ha)
  rw [List.takeWhile_append_of_pos hall]
  cases rest with
  | nil => simp
  | cons c rest => simp_all

/-- The value is decoded where it stands in the body. -/
theorem unescapeUrl_value {beyond : ℕ → UInt8} {body rest : List UInt8} {k : ℕ}
    (hdrop : body.drop k = p.valueText ++ rest) (hne : p.valueText ≠ [])
    (hsize : body.length + 1 < 0x7FFFFFFF) :
    unescapeUrl (fun i => bodyMemory beyond body (k + i)) p.valueText.length = .ok p.value := by
  have hlength := congrArg List.length hdrop
  have hpos := List.length_pos_iff.2 hne
  rw [List.length_drop, List.length_append] at hlength
  have hmemory : bytesAt (fun i => bodyMemory beyond body (k + i)) 0 p.valueText.length =
      p.valueText := by
    refine bytesAt_eq fun i hi => ?_
    have hget := congrArg (fun l => l.getD i 0) hdrop
    rw [List.getD_append _ _ _ _ hi] at hget
    rw [bodyMemory, if_pos (by omega), ← hget, List.getD_eq_getElem?_getD,
      List.getD_eq_getElem?_getD, List.getElem?_drop]
  have hencodes := p.value_encodes
  rw [← hmemory] at hencodes
  exact unescapeUrl_encoded hencodes (by omega)

/-- **Main result.** What `parse_reply` returns for a form: the value of the first key that ends
with the name, up to its first zero byte. -/
theorem parseReply_formBody (beyond : ℕ → UInt8) (name : FieldName) (pairs : List FormPair)
    (xmlField : Option (List UInt8)) (hsize : (formBody pairs).length + 1 < 0x7FFFFFFF) :
    parseReply beyond (some (formBody pairs)) name.text xmlField =
      (pairs.find? (·.endsIn name)).elim (.error .null) fun p => .ok (cString p.value) := by
  by_cases hne : pairs = []
  · subst hne
    rfl
  · obtain ⟨hbody, hxml, hstring⟩ := formBody_string hne
    have hsearch := search_formBody name hne
    simp only [parseReply, if_neg hbody, hxml, Bool.false_eq_true, if_false, name.temp1, strcasestr,
      hstring]
    change (match search name.needle ((formBody pairs).map cTolower) with
      | none => _
      | some k => _) = _
    cases hfind : pairs.find? (·.endsIn name) with
    | none =>
      rw [hfind] at hsearch
      rw [hsearch]
      rfl
    | some p =>
      rw [hfind] at hsearch
      obtain ⟨k, rest, hk, hdrop, hrest⟩ := hsearch
      simp only [hk, List.length_append, List.length_singleton, hdrop, takeWhile_value hrest,
        Option.elim_some]
      split_ifs with hlen
      · have hempty : p.value = [] := by
          have h := p.value_encodes.decode
          rw [List.length_eq_zero_iff.1 hlen] at h
          exact (Option.some.inj h).symm
        rw [hempty]
        rfl
      · have hvalue : p.valueText ≠ [] := fun h => hlen (List.length_eq_zero_iff.2 h)
        rw [unescapeUrl_value hdrop hvalue hsize]
        rfl

/-- **Main result.** `parse_reply` returns the value of the field, or fails if there is none,
exactly for the forms of `FieldFound`. -/
theorem parseReply_iff (beyond : ℕ → UInt8) (name : FieldName) (pairs : List FormPair)
    (xmlField : Option (List UInt8)) (hsize : (formBody pairs).length + 1 < 0x7FFFFFFF) :
    parseReply beyond (some (formBody pairs)) name.text xmlField = fieldValue name pairs ↔
      FieldFound name pairs := by
  rw [parseReply_formBody beyond name pairs xmlField hsize, fieldValue, FieldFound]
  cases pairs.find? (·.endsIn name) <;> cases pairs.find? (·.hasName name) <;> simp

theorem encodes_unreserved {s : List UInt8} (h : ∀ c ∈ s, unreserved c = true) : Encodes s s := by
  induction s with
  | nil => exact .nil
  | cons c s ih =>
    exact .char (h c List.mem_cons_self) (ih fun d hd => h d (List.mem_cons_of_mem c hd))

/-- A pair that needs no escapes. -/
def plainPair (key value : List UInt8) (hkey : key.all unreserved = true)
    (hvalue : value.all unreserved = true) : FormPair :=
  ⟨key, value, key, value, encodes_unreserved (List.all_eq_true.1 hkey),
    encodes_unreserved (List.all_eq_true.1 hvalue)⟩

/-- The form `group_list=vpn&username=alice&password=pw`. -/
def loginForm : List FormPair :=
  [plainPair (ascii "group_list") (ascii "vpn") (by decide) (by decide),
    plainPair (ascii "username") (ascii "alice") (by decide) (by decide),
    plainPair (ascii "password") (ascii "pw") (by decide) (by decide)]

theorem parseReply_iff_alice :
    parseReply (fun _ => 0) (some (formBody loginForm)) usernameField.text none =
      fieldValue usernameField loginForm :=
  (parseReply_iff _ _ _ _ (by decide)).2 rfl

/-- In the form `xusername=a&username=b` the username is `a`. -/
theorem not_parseReply_suffix :
    ¬ ∀ (beyond : ℕ → UInt8) (name : FieldName) (pairs : List FormPair)
      (xmlField : Option (List UInt8)), (formBody pairs).length + 1 < 0x7FFFFFFF →
        parseReply beyond (some (formBody pairs)) name.text xmlField = fieldValue name pairs := by
  intro h
  have h := h (fun _ => 0) usernameField
    [plainPair (ascii "xusername") (ascii "a") (by decide) (by decide),
      plainPair (ascii "username") (ascii "b") (by decide) (by decide)] none (by decide)
  rw [parseReply_formBody _ _ _ _ (by decide)] at h
  have hvalue : ascii "a" = ascii "b" := Except.ok.inj h
  exact absurd hvalue (by decide)

end Worker

end Ocserv
