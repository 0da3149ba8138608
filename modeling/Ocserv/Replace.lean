import Ocserv.Search
import Ocserv.Str

/-!
# Templates

`str_replace_str` of `src/str.c`, and the tables with which `replace_vals` of `src/worker-vpn.c`
and `replace_cmd` of `src/route-add.c` call it.  After a replacement the function starts again at
the beginning of the new text.

* `strReplaceStr_iff` : a call replaces the occurrences of a single pass exactly if the pattern
  never begins within what the pass has finished.
* `replacesOnce_iff` : the same for a table.
-/

namespace Ocserv

namespace Replace

open Search
open Str

/-! ### The function of the source -/

/-- How a call ends without a text: it does not end, it returns an error, or it accesses memory that
it must not. -/
inductive Failure where
  | fuel
  | error (ret : ℤ)
  | access (e : Str.Failure)
  deriving DecidableEq, Repr

/-- The result of an append, where a negative value is returned. -/
def checked (result : Except Str.Failure (StrSt × ℤ)) : Except Failure StrSt :=
  match result with
  | .error e => .error (.access e)
  | .ok (str, ret) => if ret < 0 then .error (.error ret) else .ok str

/-- `str_replace_str`: the buffer, and the places at which the pattern was replaced one after the
other; `fuel` bounds the depth of the recursion. -/
def strReplaceStr (fresh : ℕ → UInt8) (what with' : List UInt8) :
    ℕ → StrSt → Except Failure (StrSt × List ℕ)
  | 0, _ => .error .fuel
  | fuel + 1, str =>
    match search what str.text with
    | none => .ok (str, [])
    | some p => do
      let finalLen := str.length - (p + what.length)
      -- `talloc_memdup`
      let final ← if finalLen < 0x7FFFFFFF then .ok (str.text.drop (p + what.length))
        else .error (.error (-1))
      let str := { str with length := str.length - (finalLen + what.length) }
      let str ← checked (strAppendStr fresh str with')
      let str ← checked (strAppendData fresh str final)
      let (str, places) ← strReplaceStr fresh what with' fuel str
      return (str, p :: places)

/-- A string constant that is replaced. -/
structure Pattern where
  text : List UInt8
  ne_nil : text ≠ []
  no_nul : 0 ∉ text
  fits : text.length < 2 ^ 32

/-- A string in memory. -/
structure CString where
  text : List UInt8
  no_nul : 0 ∉ text
  fits : text.length + 1 < 2 ^ 63

/-- A table of patterns and what is put in their place. -/
abbrev Table := List (Pattern × CString)

/-- The calls for the patterns of a table in turn, up to one that fails. -/
def replaceTable (fresh : ℕ → UInt8) (fuel : ℕ) : Table → StrSt →
    Except Failure (StrSt × List (List ℕ))
  | [], str => .ok (str, [])
  | (what, with') :: table, str => do
    let (str, places) ← strReplaceStr fresh what.text with'.text fuel str
    let (str, rest) ← replaceTable fresh fuel table str
    return (str, places :: rest)

/-- The characters of a pattern. -/
def chars (s : String) : List UInt8 := s.toList.map fun c => UInt8.ofNat c.toNat

/-- The patterns of `replace_vals`. -/
def valsTable (username groupname : CString) : Table :=
  [(⟨chars "%\x7bU\x7d", by decide, by decide, by decide⟩, username),
    (⟨chars "%\x7bG\x7d", by decide, by decide, by decide⟩, groupname)]

/-- The patterns of `replace_cmd`, with the old compatibility strings. -/
def cmdTable (route dev : CString) : Table :=
  [(⟨chars "%\x7bR\x7d", by decide, by decide, by decide⟩, route),
    (⟨chars "%\x7bD\x7d", by decide, by decide, by decide⟩, dev),
    (⟨chars "%R", by decide, by decide, by decide⟩, route),
    (⟨chars "%D", by decide, by decide, by decide⟩, dev)]

/-- A copy of the template in which the patterns of a table are replaced. -/
def replaceIn (fresh : ℕ → UInt8) (fuel : ℕ) (table : Table) (txt : CString) :
    Except Failure (StrSt × List (List ℕ)) := do
  let str ← checked (strAppendStr fresh strInit txt.text)
  replaceTable fresh fuel table str

/-- `replace_vals`. -/
def replaceVals (fresh : ℕ → UInt8) (fuel : ℕ) (txt username groupname : CString) :
    Except Failure (StrSt × List (List ℕ)) :=
  replaceIn fresh fuel (valsTable username groupname) txt

/-- `replace_cmd`. -/
def replaceCmd (fresh : ℕ → UInt8) (fuel : ℕ) (pattern route dev : CString) :
    Except Failure (StrSt × List (List ℕ)) :=
  replaceIn fresh fuel (cmdTable route dev) pattern

/-! ### A single pass -/

/-- The text after the pass. -/
def passText (what with' s : List UInt8) : List UInt8 := with'.intercalate (segments what s)

/-- Where the pass replaces, when `done` bytes are finished. -/
def passPlaces (with' : List UInt8) : ℕ → List (List UInt8) → List ℕ
  | _, [] => []
  | _, [_] => []
  | done, u :: v :: rest =>
    (done + u.length) :: passPlaces with' (done + u.length + with'.length) (v :: rest)

/-- Along the pass the pattern never begins within the part that is finished. -/
def Clean (what with' : List UInt8) : List UInt8 → List (List UInt8) → Prop
  | _, [] => True
  | done, u :: rest =>
    (∀ i < done.length, ¬ what <+: (done ++ what.intercalate (u :: rest)).drop i) ∧
      Clean what with' (done ++ u ++ with') rest

/-- The size of a block after an append of `n` bytes, if it is granted. -/
def grown (maxLength length n : ℕ) : Option ℕ :=
  let s : StrSt := ⟨none, none, maxLength, length⟩
  if Grows s n then
    if sizeT (newLen s n + 1) = 0 ∨ 0x7FFFFFFF ≤ sizeT (newLen s n + 1) then none
    else some (newLen s n)
  else some maxLength

/-- The size after the two appends of a replacement behind `u`, if they are granted. -/
def grownTwice (size : ℕ) (u with' t : List UInt8) : Option ℕ :=
  (grown size u.length (with'.length + 1)).bind fun size => grown size (u ++ with').length t.length

/-- The size of the block after a pass, if all its allocations are granted. -/
def passSize (what with' : List UInt8) : ℕ → List UInt8 → List (List UInt8) → Option ℕ
  | size, _, [] => some size
  | size, _, [_] => some size
  | size, done, u :: v :: rest => do
    let size ← grownTwice size (done ++ u) with' (what.intercalate (v :: rest))
    passSize what with' size (done ++ u ++ with') (v :: rest)

variable {fresh : ℕ → UInt8} {what with' u t done text : List UInt8} {segs : List (List UInt8)}
  {s s' : StrSt} {fuel m n : ℕ}

theorem grown_eq_some_iff : grown s.maxLength s.length n = some m ↔
    Granted s n ∧ m = if Grows s n then newLen s n else s.maxLength := by
  have hgrows : Grows ⟨none, none, s.maxLength, s.length⟩ n ↔ Grows s n := Iff.rfl
  have hnew : newLen ⟨none, none, s.maxLength, s.length⟩ n = newLen s n := rfl
  simp only [grown, hgrows, hnew, Granted]
  split_ifs with h hrefused
  · refine iff_of_false (by simp) fun hgranted => ?_
    have hsize := hgranted.1 h
    omega
  · rw [Option.some.injEq]
    exact ⟨fun hm => ⟨fun _ => by omega, hm.symm⟩, fun hm => hm.2.symm⟩
  · rw [Option.some.injEq]
    exact ⟨fun hm => ⟨fun hgrow => absurd hgrow h, hm.symm⟩, fun hm => hm.2.symm⟩

/-! ### One replacement -/

theorem strReplaceStr_none (h : search what s.text = none) :
    strReplaceStr fresh what with' (fuel + 1) s = .ok (s, []) := by
  rw [strReplaceStr, h]

variable (fresh with' fuel) in
/-- A pattern that is found: the text before it stays, then the two appends follow. -/
theorem strReplaceStr_found (h : Holds s (u ++ what ++ t))
    (hsearch : search what (u ++ what ++ t) = some u.length) :
    Holds { s with length := u.length } u ∧ t.length < 0x7FFFFFFF ∧
      strReplaceStr fresh what with' (fuel + 1) s = do
        let str ← checked (strAppendStr fresh { s with length := u.length } with')
        let str ← checked (strAppendData fresh str t)
        let (str, places) ← strReplaceStr fresh what with' fuel str
        return (str, u.length :: places) := by
  have hlen : s.length = u.length + what.length + t.length := by
    rw [← h.length_eq, List.length_append, List.length_append]
  have hmax := h.maxLength_lt
  have hle := h.length_le
  have hcut := h.cut (l := u.length) (by omega)
  rw [List.append_assoc, List.take_left] at hcut
  have hfinal : s.length - (u.length + what.length) = t.length := by omega
  have hback : s.length - (t.length + what.length) = u.length := by omega
  have hdrop : (u ++ what ++ t).drop (u.length + what.length) = t := by
    rw [← List.length_append, List.drop_left]
  have hfits : t.length < 0x7FFFFFFF := by omega
  refine ⟨hcut, hfits, ?_⟩
  simp only [strReplaceStr, h.text_eq, hsearch, hfinal, hback, hdrop, if_pos hfits]
  rfl

variable (fresh fuel) in
/-- **One replacement**, if its allocations are granted: the call starts again. -/
theorem strReplaceStr_granted (h : Holds s (u ++ what ++ t))
    (hsearch : search what (u ++ what ++ t) = some u.length) (hwith : with'.length + 1 < 2 ^ 63)
    (hsize : grownTwice s.maxLength u with' t = some m) :
    ∃ s', Holds s' (u ++ with' ++ t) ∧ s'.maxLength = m ∧
      strReplaceStr fresh what with' (fuel + 1) s = do
        let (str, places) ← strReplaceStr fresh what with' fuel s'
        return (str, u.length :: places) := by
  obtain ⟨hcut, hfits, hfound⟩ := strReplaceStr_found fresh with' fuel h hsearch
  obtain ⟨m₁, hm₁, hm₂⟩ := Option.bind_eq_some_iff.1 hsize
  obtain ⟨hgranted₁, hm₁⟩ := grown_eq_some_iff (s := { s with length := u.length }).1 hm₁
  obtain ⟨s₁, hcall₁, h₁, -, hsome, hmax₁⟩ :=
    strAppendStr_holds fresh hcut hwith hgranted₁
  rw [hm₁, ← hmax₁, h₁.length_eq] at hm₂
  obtain ⟨hgranted₂, hm₂⟩ := grown_eq_some_iff.1 hm₂
  obtain ⟨s₂, hcall₂, h₂, -, -, hmax₂⟩ :=
    strAppendData_holds fresh h₁ (by omega) hgranted₂ fun _ => hsome
  refine ⟨s₂, h₂, by rw [hm₂, hmax₂], ?_⟩
  rw [hfound, hcall₁]
  change (checked (strAppendData fresh s₁ t) >>= _) = _
  rw [hcall₂]
  rfl

/-- A replacement whose allocations are not granted is an error. -/
theorem strReplaceStr_refused (h : Holds s (u ++ what ++ t))
    (hsearch : search what (u ++ what ++ t) = some u.length) (hwith : with'.length + 1 < 2 ^ 63)
    (hsize : grownTwice s.maxLength u with' t = none) :
    strReplaceStr fresh what with' (fuel + 1) s = .error (.error errMem) := by
  obtain ⟨hcut, hfits, hfound⟩ := strReplaceStr_found fresh with' fuel h hsearch
  rw [hfound]
  by_cases hgranted₁ : Granted { s with length := u.length } (with'.length + 1)
  · obtain ⟨s₁, hcall₁, h₁, -, hsome, hmax₁⟩ :=
      strAppendStr_holds fresh hcut hwith hgranted₁
    have hgranted₂ : ¬ Granted s₁ t.length := by
      intro hgranted₂
      have hm₁ := grown_eq_some_iff (s := { s with length := u.length }).2 ⟨hgranted₁, hmax₁⟩
      have hm₂ := grown_eq_some_iff.2 ⟨hgranted₂, rfl⟩
      rw [h₁.length_eq.symm] at hm₂
      rw [grownTwice, hm₁, Option.bind_some, hm₂] at hsize
      cases hsize
    rw [hcall₁]
    change (checked (strAppendData fresh s₁ t) >>= _) = _
    rw [strAppendData_refused hgranted₂]
    rfl
  · rw [strAppendStr_refused hgranted₁]
    rfl

/-- **What a call that ends does**: nothing, or one replacement and a call on the new text. -/
theorem strReplaceStr_cases (hwith : with'.length + 1 < 2 ^ 63) (h : Holds s text)
    {places : List ℕ} (hcall : strReplaceStr fresh what with' (fuel + 1) s = .ok (s', places)) :
    (search what text = none ∧ places = [] ∧ s' = s) ∨
      ∃ u t rest s₁, text = u ++ what ++ t ∧ search what text = some u.length ∧
        places = u.length :: rest ∧ grownTwice s.maxLength u with' t = some s₁.maxLength ∧
        Holds s₁ (u ++ with' ++ t) ∧ strReplaceStr fresh what with' fuel s₁ = .ok (s', rest) := by
  cases hs : search what text with
  | none =>
    rw [strReplaceStr_none (h.text_eq.symm ▸ hs)] at hcall
    cases hcall
    exact .inl ⟨rfl, rfl, rfl⟩
  | some p =>
    have hsplit := split_of_search hs
    rw [← hsplit] at h
    have hsearch : search what (text.take p ++ what ++ text.drop (p + what.length)) =
        some (text.take p).length := by rw [hsplit, hs, length_take_of_search hs]
    cases hsize : grownTwice s.maxLength (text.take p) with' (text.drop (p + what.length)) with
    | none =>
      rw [strReplaceStr_refused h hsearch hwith hsize] at hcall
      cases hcall
    | some m =>
      obtain ⟨s₁, h₁, rfl, hnext⟩ :=
        strReplaceStr_granted fresh fuel h hsearch hwith hsize
      rw [hnext] at hcall
      cases hrest : strReplaceStr fresh what with' fuel s₁ with
      | error e =>
        rw [hrest] at hcall
        cases hcall
      | ok result =>
        rw [hrest] at hcall
        cases hcall
        exact .inr ⟨_, _, _, s₁, hsplit.symm, by rw [length_take_of_search hs], rfl, hsize, h₁,
          hrest⟩

/-! ### A call -/

theorem passPlaces_cons (v : List UInt8) (rest : List (List UInt8)) :
    passPlaces with' done.length (u :: v :: rest) =
      (done ++ u).length :: passPlaces with' (done ++ u ++ with').length (v :: rest) := by
  rw [passPlaces, List.length_append, List.length_append, List.length_append]

theorem passSize_cons (v : List UInt8) (rest : List (List UInt8)) (size : ℕ) :
    passSize what with' size done (u :: v :: rest) =
      (grownTwice size (done ++ u) with' (what.intercalate (v :: rest))).bind fun size =>
        passSize what with' size (done ++ u ++ with') (v :: rest) := rfl

/-- The text before, in and behind the first occurrence that the pass finds. -/
theorem done_append_cons (sep v : List UInt8) (rest : List (List UInt8)) :
    done ++ sep.intercalate (u :: v :: rest) = done ++ u ++ sep ++ sep.intercalate (v :: rest) := by
  rw [List.intercalate_cons_cons, ← List.append_assoc, ← List.append_assoc]

variable (fresh) in
/-- **A call that meets the condition** ends, and it replaces what the pass replaces. -/
theorem strReplaceStr_of_clean (hseg : Segmented what segs) (hwith : with'.length + 1 < 2 ^ 63)
    (h : Holds s (done ++ what.intercalate segs)) (hclean : Clean what with' done segs)
    (hsize : passSize what with' s.maxLength done segs = some m) (hfuel : segs.length ≤ fuel) :
    ∃ s', strReplaceStr fresh what with' fuel s = .ok (s', passPlaces with' done.length segs) ∧
      Holds s' (done ++ with'.intercalate segs) ∧ s'.maxLength = m := by
  induction segs generalizing s done fuel with
  | nil => exact hseg.elim
  | cons u rest ih =>
    obtain ⟨fuel, rfl⟩ : ∃ k, fuel = k + 1 := ⟨fuel - 1, by rw [List.length_cons] at hfuel; omega⟩
    have hsearch := search_append hclean.1
    cases rest with
    | nil =>
      rw [List.intercalate_singleton] at h hsearch
      have hnone : search what s.text = none := by
        rw [h.text_eq, hsearch, (hseg : search what u = none)]
        rfl
      refine ⟨s, strReplaceStr_none hnone, ?_, Option.some.inj hsize⟩
      rwa [List.intercalate_singleton]
    | cons v rest =>
      obtain ⟨hfirst, hseg⟩ := hseg
      rw [hfirst, Option.map_some, Nat.add_comm, ← List.length_append] at hsearch
      rw [done_append_cons] at h hsearch
      rw [passSize_cons] at hsize
      obtain ⟨m₁, htwice, hrest⟩ := Option.bind_eq_some_iff.1 hsize
      obtain ⟨s₁, h₁, rfl, hcall⟩ := strReplaceStr_granted fresh fuel h
        hsearch hwith htwice
      obtain ⟨s', hcall', h', hmax'⟩ := ih hseg h₁ hclean.2 hrest (Nat.le_of_succ_le_succ hfuel)
      refine ⟨s', ?_, ?_, hmax'⟩
      · rw [hcall, hcall', passPlaces_cons]
        rfl
      · rwa [done_append_cons]

/-- **A call that replaces what the pass replaces** meets the condition. -/
theorem clean_of_strReplaceStr (hseg : Segmented what segs) (hwith : with'.length + 1 < 2 ^ 63)
    (h : Holds s (done ++ what.intercalate segs))
    (hcall : strReplaceStr fresh what with' fuel s = .ok (s', passPlaces with' done.length segs)) :
    Clean what with' done segs ∧ passSize what with' s.maxLength done segs = some s'.maxLength ∧
      Holds s' (done ++ with'.intercalate segs) := by
  induction segs generalizing s done fuel with
  | nil => exact hseg.elim
  | cons u rest ih =>
    cases fuel with
    | zero => cases hcall
    | succ fuel =>
      have hcases := strReplaceStr_cases hwith h hcall
      cases rest with
      | nil =>
        rcases hcases with ⟨hnone, -, rfl⟩ | ⟨u', t, rest, s₁, -, -, hplaces, -⟩
        · refine ⟨⟨fun i hi => ?_, trivial⟩, rfl, h⟩
          exact search_eq_none_iff.1 hnone i (by rw [List.length_append]; omega)
        · cases hplaces
      | cons v rest =>
        rw [passPlaces_cons] at hcases
        rcases hcases with ⟨-, hplaces, -⟩ |
          ⟨u', t, rest', s₁, htext, hs, hplaces, hsize, h₁, hcall⟩
        · cases hplaces
        · obtain ⟨hlen, rfl⟩ := List.cons.inj hplaces
          rw [done_append_cons, List.append_assoc, List.append_assoc u'] at htext
          obtain ⟨rfl, ht⟩ := List.append_inj htext hlen
          obtain rfl := List.append_cancel_left ht
          obtain ⟨hclean, hrest, h'⟩ := ih hseg.2 h₁ hcall
          refine ⟨⟨fun i hi => ?_, hclean⟩, ?_, ?_⟩
          · exact (search_eq_some_iff.1 hs).2.2 i (by rw [List.length_append]; omega)
          · rw [passSize_cons, hsize, Option.bind_some, hrest]
          · rwa [done_append_cons]

/-! ### Tables -/

/-- The text after the passes of a table. -/
def tableText : Table → List UInt8 → List UInt8
  | [], text => text
  | (what, with') :: table, text => tableText table (passText what.text with'.text text)

/-- Where the passes replace. -/
def tablePlaces : Table → List UInt8 → List (List ℕ)
  | [], _ => []
  | (what, with') :: table, text =>
    passPlaces with'.text 0 (segments what.text text) ::
      tablePlaces table (passText what.text with'.text text)

/-- In each pass the pattern never begins within what is finished, and the allocations are
granted; `size` is that of the block. -/
def TableOk : Table → ℕ → List UInt8 → Prop
  | [], _, _ => True
  | (what, with') :: table, size, text =>
    Clean what.text with'.text [] (segments what.text text) ∧
      ∃ size', passSize what.text with'.text size [] (segments what.text text) = some size' ∧
        TableOk table size' (passText what.text with'.text text)

/-- The longest pass of a table. -/
def tableFuel : Table → List UInt8 → ℕ
  | [], _ => 0
  | (what, with') :: table, text =>
    max (segments what.text text).length (tableFuel table (passText what.text with'.text text))

/-- A string buffer, with its text. -/
structure Buffer where
  st : StrSt
  text : List UInt8
  holds : Holds st text

/-- The calls end, and each pattern is replaced where its pass finds it, and nowhere else. -/
def ReplacesOnce (fresh : ℕ → UInt8) (table : Table) (buf : Buffer) : Prop :=
  ∃ fuel st, replaceTable fresh fuel table buf.st = .ok (st, tablePlaces table buf.text) ∧
    st.text = tableText table buf.text

variable (fresh) in
theorem replaceTable_of_tableOk {table : Table} (h : Holds s text)
    (hok : TableOk table s.maxLength text) (hfuel : tableFuel table text ≤ fuel) :
    ∃ s', replaceTable fresh fuel table s = .ok (s', tablePlaces table text) ∧
      s'.text = tableText table text := by
  induction table generalizing s text with
  | nil => exact ⟨s, rfl, h.text_eq⟩
  | cons entry table ih =>
    obtain ⟨what, with'⟩ := entry
    obtain ⟨hclean, m, hm, hok⟩ := hok
    have hcat : Holds s ([] ++ what.text.intercalate (segments what.text text)) :=
      (intercalate_segments what.ne_nil).symm ▸ h
    obtain ⟨s₁, hcall, h₁, rfl⟩ := strReplaceStr_of_clean fresh
      (segmented_segments what.ne_nil) with'.fits hcat hclean hm ((le_max_left _ _).trans hfuel)
    obtain ⟨s', hcalls, htext⟩ := ih h₁ hok ((le_max_right _ _).trans hfuel)
    refine ⟨s', ?_, htext⟩
    rw [replaceTable, hcall]
    change (replaceTable fresh fuel table s₁ >>= _) = _
    rw [hcalls]
    rfl

theorem tableOk_of_replaceTable {table : Table} (h : Holds s text)
    (hcall : replaceTable fresh fuel table s = .ok (s', tablePlaces table text)) :
    TableOk table s.maxLength text := by
  induction table generalizing s text with
  | nil => trivial
  | cons entry table ih =>
    obtain ⟨what, with'⟩ := entry
    have hcat : Holds s ([] ++ what.text.intercalate (segments what.text text)) :=
      (intercalate_segments what.ne_nil).symm ▸ h
    rw [replaceTable] at hcall
    cases hfirst : strReplaceStr fresh what.text with'.text fuel s with
    | error e =>
      rw [hfirst] at hcall
      cases hcall
    | ok result =>
      obtain ⟨s₁, places⟩ := result
      rw [hfirst] at hcall
      change (replaceTable fresh fuel table s₁ >>= _) = _ at hcall
      cases hrest : replaceTable fresh fuel table s₁ with
      | error e =>
        rw [hrest] at hcall
        cases hcall
      | ok result =>
        obtain ⟨s₂, rest⟩ := result
        rw [hrest] at hcall
        obtain ⟨rfl, hplaces⟩ := Prod.mk.inj (Except.ok.inj hcall)
        obtain ⟨rfl, rfl⟩ := List.cons.inj hplaces
        obtain ⟨hclean, hm, h₁⟩ := clean_of_strReplaceStr (segmented_segments what.ne_nil)
          with'.fits hcat hfirst
        exact ⟨hclean, s₁.maxLength, hm, ih h₁ hrest⟩

/-- **Main result.** The calls for a table replace what a single pass for each pattern replaces
exactly if no pattern ever begins within what its pass has finished, and the buffer is granted. -/
theorem replacesOnce_iff (fresh : ℕ → UInt8) (table : Table) (buf : Buffer) :
    ReplacesOnce fresh table buf ↔ TableOk table buf.st.maxLength buf.text := by
  constructor
  · rintro ⟨fuel, st, hcall, -⟩
    exact tableOk_of_replaceTable buf.holds hcall
  · intro hok
    obtain ⟨st, hcall, htext⟩ :=
      replaceTable_of_tableOk fresh buf.holds hok (le_refl _)
    exact ⟨_, st, hcall, htext⟩

/-- The name of a user that is the pattern is replaced by itself, without an end. -/
theorem not_replacesOnce_name :
    ¬ ∀ (fresh : ℕ → UInt8) (table : Table) (buf : Buffer), ReplacesOnce fresh table buf := by
  intro h
  let name : CString := ⟨chars "%\x7bU\x7d", by decide, by decide⟩
  let buf : Buffer := ⟨⟨some (name.text ++ List.replicate 125 0), some 0, 128, 4⟩, name.text,
    .inr ⟨_, rfl, rfl, rfl, by decide⟩, by decide, by decide⟩
  obtain ⟨fuel, st, hcall, -⟩ := h (fun _ => 0) (valsTable name name) buf
  have hclean := (tableOk_of_replaceTable buf.holds hcall).1
  -- behind the first replacement the finished part is the pattern again
  exact hclean.2.1 0 (by decide) (by decide)

/-! ### The templates of the source -/

/-- **A template** is replaced in single passes exactly if its copy is granted, and the passes meet
the condition. -/
theorem replaceIn_iff {table : Table} {txt : CString} :
    (∃ fuel st, replaceIn fresh fuel table txt = .ok (st, tablePlaces table txt.text) ∧
        st.text = tableText table txt.text) ↔
      ∃ size, grown 0 0 (txt.text.length + 1) = some size ∧ TableOk table size txt.text := by
  constructor
  · rintro ⟨fuel, st, hcall, -⟩
    by_cases hgranted : Granted strInit (txt.text.length + 1)
    · obtain ⟨s, happend, h, -, -, hsize⟩ :=
        strAppendStr_holds fresh Holds.init txt.fits hgranted
      rw [replaceIn, happend] at hcall
      exact ⟨s.maxLength, grown_eq_some_iff.2 ⟨hgranted, hsize⟩, tableOk_of_replaceTable h hcall⟩
    · rw [replaceIn, strAppendStr_refused hgranted] at hcall
      cases hcall
  · rintro ⟨size, hgrown, hok⟩
    obtain ⟨hgranted, hsize⟩ := grown_eq_some_iff (s := strInit).1 hgrown
    obtain ⟨s, happend, h, -, -, hmax⟩ :=
      strAppendStr_holds fresh Holds.init txt.fits hgranted
    rw [hsize, ← hmax] at hok
    obtain ⟨st, hcall, htext⟩ := replaceTable_of_tableOk fresh h hok (le_refl _)
    refine ⟨tableFuel table txt.text, st, ?_, htext⟩
    rw [replaceIn, happend]
    exact hcall

/-- A value that contains the pattern is replaced without an end. -/
theorem strReplaceStr_of_infix (hwith : with'.length + 1 < 2 ^ 63)
    (hcontains : what <:+: with') (h : Holds s text) (htext : what <:+: text) (places : List ℕ) :
    strReplaceStr fresh what with' fuel s ≠ .ok (s', places) := by
  induction fuel generalizing s text places with
  | zero => exact fun hcall => by cases hcall
  | succ fuel ih =>
    intro hcall
    rcases strReplaceStr_cases hwith h hcall with
      ⟨hnone, -⟩ | ⟨u, t, rest, s₁, -, -, -, -, h₁, hcall⟩
    · obtain ⟨a, b, rfl⟩ := htext
      refine search_eq_none_iff.1 hnone a.length (by simp only [List.length_append]; omega) ?_
      rw [List.append_assoc, List.drop_left]
      exact List.prefix_append _ _
    · exact ih h₁ (hcontains.trans ⟨u, t, rfl⟩) rest hcall

/-- A pattern does not begin within a text, whatever follows. -/
def Closed (what done : List UInt8) : Prop :=
  ∀ t, ∀ i < done.length, ¬ what <+: (done ++ t).drop i

/-- A value that shares no byte with the pattern closes what is finished. -/
theorem Closed.append (hdone : Closed what done) (hwhat : what ≠ []) (hne : with' ≠ [])
    (hdisjoint : ∀ b ∈ with', b ∉ what) (hu : search what (u ++ what ++ t) = some u.length) :
    Closed what (done ++ u ++ with') := by
  intro t' i hi hprefix
  by_cases hbefore : i < done.length
  · rw [List.append_assoc, List.append_assoc] at hprefix
    exact hdone _ i hbefore hprefix
  · obtain ⟨j, rfl⟩ : ∃ j, i = done.length + j := ⟨i - done.length, by omega⟩
    rw [List.append_assoc, List.append_assoc, List.drop_length_add_append] at hprefix
    simp only [List.length_append] at hi
    by_cases hj : j < u.length
    · -- it would end before the value, where the pass did not find it
      obtain ⟨b, w, rfl⟩ := List.exists_cons_of_ne_nil hne
      rw [List.drop_append_of_le_length hj.le] at hprefix
      have hinside := prefix_of_notMem (hdisjoint b List.mem_cons_self) hprefix
      refine (search_eq_some_iff.1 hu).2.2 j hj (hinside.trans ?_)
      rw [List.append_assoc, List.drop_append_of_le_length hj.le]
      exact List.prefix_append _ _
    · -- it would begin within the value
      obtain ⟨k, rfl⟩ : ∃ k, j = u.length + k := ⟨j - u.length, by omega⟩
      have hk : k < with'.length := by omega
      rw [List.drop_length_add_append, List.drop_append_of_le_length hk.le,
        List.drop_eq_getElem_cons hk] at hprefix
      exact hwhat (List.prefix_nil.1
        (prefix_of_notMem (hdisjoint _ (List.getElem_mem hk)) hprefix))

/-- **A value that is not empty and shares no byte with the pattern** meets the condition. -/
theorem clean_of_disjoint (hwhat : what ≠ []) (hne : with' ≠ [])
    (hdisjoint : ∀ b ∈ with', b ∉ what) (hseg : Segmented what segs) (hdone : Closed what done) :
    Clean what with' done segs := by
  induction segs generalizing done with
  | nil => exact hseg.elim
  | cons u rest ih =>
    refine ⟨fun i hi => hdone _ i hi, ?_⟩
    cases rest with
    | nil => trivial
    | cons v rest =>
      obtain ⟨hfirst, hseg⟩ := hseg
      rw [List.intercalate_cons_cons] at hfirst
      exact ih hseg (hdone.append hwhat hne hdisjoint hfirst)

end Replace

end Ocserv
