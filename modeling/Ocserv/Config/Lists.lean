import Mathlib.Data.List.TakeWhile
import Ocserv.PerUser.SupConfig
import Ocserv.SecMod.AuthConfig

/-!
# Options with several values

`READ_MULTI_LINE` and `READ_MULTI_BRACKET_LINE` of `src/config.c`, and `READ_RAW_MULTI_LINE` of
`src/sup-config/file.c`: the values of an option and of its aliases are put into an array of
`MAX_CONFIG_ENTRIES` pointers, and a `NULL` after them.  The macros are one `ListMacro` with
different fields.

* `ListMacro.bounded_iff` : a reader keeps within the array exactly when it stores fewer than
  `MAX_CONFIG_ENTRIES` values, since the terminator needs a pointer too.
* `lists_bounded_iff` : the same for the three macros.
-/

namespace Ocserv

namespace Config

open PerUser (OptionValue ConfigFile maxConfigEntries)
open SecMod (Bytes getBracketsString1)
open Worker (ascii caseEq)

/-! ### The readers -/

/-- How a reader ends the program: a write outside of the array, or `exit(1)`. -/
inductive Failure where
  | overrun
  | exit
  deriving DecidableEq, Repr

/-- What the macros differ in; `E` is what is stored at an index. -/
structure ListMacro (E : Type) where
  /-- The comparison with which the first value of an option is found. -/
  sameName : Bytes → Bytes → Bool
  sameName_self : ∀ name, sameName name name = true
  /-- `mand` of an option. -/
  mandatory : Bytes → Bool
  /-- The number of values is compared with the bound before a value is stored, and not after. -/
  checksFirst : Bool
  /-- What is stored for a value; `none` is `exit(1)`. -/
  entry : Bytes → Option E
  null : E

/-- `s_name` and `num`: the array, if it has been allocated, and the number of values in it. -/
structure StrList (E : Type) where
  ptr : Option (ℕ → E)
  num : ℕ

/-- A list option with its aliases, which are tried if the option itself gives no value. -/
structure ListOption where
  name : Bytes
  aliases : List Bytes

/-- A write to an array of `MAX_CONFIG_ENTRIES` elements. -/
def put {E : Type} (s : ℕ → E) (i : ℕ) (e : E) : Except Failure (ℕ → E) :=
  if i < maxConfigEntries then .ok (Function.update s i e) else .error .overrun

namespace ListMacro

variable {E : Type} (M : ListMacro E)

/-- The loop of a macro, over the values of the file that are left. -/
def loop (name : Bytes) : ConfigFile → (ℕ → E) → ℕ → Except Failure ((ℕ → E) × ℕ)
  | [], s, num => .ok (s, num)
  | val :: rest, s, num =>
    if M.checksFirst ∧ maxConfigEntries ≤ num then .ok (s, num)
    else if val.pzName ≠ name then loop name rest s num
    else
      match M.entry val.strVal with
      | none => .error .exit
      | some e => do
        let s ← put s num e
        if ¬ M.checksFirst ∧ maxConfigEntries ≤ num + 1 then .ok (s, num + 1)
        else loop name rest s (num + 1)

/-- A macro for the option `name`; `fresh` is what a new array holds. -/
def read (fresh : ℕ → E) (pov : ConfigFile) (name : Bytes) (l : StrList E) :
    Except Failure (StrList E) :=
  match pov.find? fun val => M.sameName val.pzName name with
  | some val =>
    if val.valType = .string then do
      let (s, num) := l.ptr.elim (fresh, 0) fun s => (s, l.num)
      let (s, num) ← M.loop name (pov.dropWhile fun val => !M.sameName val.pzName name) s num
      let s ← put s num M.null
      return ⟨some s, num⟩
    else if M.mandatory name then .error .exit
    else .ok l
  | none => if M.mandatory name then .error .exit else .ok l

/-- An option, and if the list is still empty its aliases. -/
def readOption (fresh : ℕ → E) (o : ListOption) (l : StrList E) (pov : ConfigFile) :
    Except Failure (StrList E) := do
  let l ← M.read fresh pov o.name l
  if l.num = 0 then o.aliases.foldlM (fun l name => M.read fresh pov name l) l
  else return l

/-- The option in files that are read one after the other into the same list: the file of the
server, or those of a group and a user. -/
def readFiles (fresh : ℕ → E) (o : ListOption) (files : List ConfigFile) :
    Except Failure (StrList E) :=
  files.foldlM (M.readOption fresh o) ⟨none, 0⟩

end ListMacro

/-- `READ_MULTI_LINE`. -/
def readMultiLine : ListMacro (Option Bytes) where
  sameName := caseEq
  sameName_self _ := decide_eq_true rfl
  mandatory name := name = ascii "auth" ∨ name = ascii "server-cert" ∨ name = ascii "server-key"
  checksFirst := false
  entry strVal := some (some strVal)
  null := none

/-- `READ_MULTI_BRACKET_LINE`, with what it stores in `s_name` and in `s_name2`. -/
def readMultiBracketLine : ListMacro (Option Bytes × Option Bytes) where
  sameName := caseEq
  sameName_self _ := decide_eq_true rfl
  mandatory _ := false
  checksFirst := false
  entry strVal := (getBracketsString1 strVal).map (some (strVal.takeWhile (· ≠ 91)), ·)
  null := (none, none)

/-- `READ_RAW_MULTI_LINE`. -/
def readRawMultiLine : ListMacro (Option Bytes) where
  sameName name name' := name = name'
  sameName_self _ := decide_eq_true rfl
  mandatory _ := false
  checksFirst := true
  entry strVal := some (some strVal)
  null := none

/-! ### What is to be read -/

namespace ListMacro

variable {E : Type} (M : ListMacro E)

/-- The values of a name in the order of the file, `none` where the program exits. -/
def lines (pov : ConfigFile) (name : Bytes) : List (Option E) :=
  if (pov.find? fun val => M.sameName val.pzName name).any (·.valType = .string) then
    (pov.filter (·.pzName = name)).map fun val => M.entry val.strVal
  else if M.mandatory name then [none]
  else []

/-- The values of an option, after those of earlier files. -/
def optionLines (o : ListOption) (old : List (Option E)) (pov : ConfigFile) : List (Option E) :=
  let new := old ++ M.lines pov o.name
  if new = [] then o.aliases.flatMap (M.lines pov) else new

/-- The values of an option in some files. -/
def allLines (o : ListOption) (files : List ConfigFile) : List (Option E) :=
  files.foldl (M.optionLines o) []

/-- The array holds some values and ends with `NULL`. -/
structure Holds (l : StrList E) (items : List (Option E)) : Prop where
  num : l.num = items.length
  values : ∀ s, l.ptr = some s → items.length < maxConfigEntries ∧
    (∀ i (hi : i < items.length), items[i] = some (s i)) ∧ s items.length = M.null
  empty : l.ptr = none → items = []

/-- Reading an option writes inside of the array only, and if the program does not exit, stores the
values in order, up to `MAX_CONFIG_ENTRIES` of them, and the terminator. -/
def Bounded (fresh : ℕ → E) (o : ListOption) (files : List ConfigFile) : Prop :=
  match M.readFiles fresh o files with
  | .error .overrun => False
  | .error .exit => True
  | .ok l => M.Holds l ((M.allLines o files).take maxConfigEntries)

/-- The number of values up to the first one at which the program exits. -/
def stored (o : ListOption) (files : List ConfigFile) : ℕ :=
  ((M.allLines o files).takeWhile (·.isSome)).length

/-! ### What the readers do -/

/-- How a reader ends that has these values to store. -/
inductive ReadsTo (items : List (Option E)) : Except Failure (StrList E) → Prop
  | overrun (h : maxConfigEntries ≤ (items.takeWhile (·.isSome)).length) :
    ReadsTo items (.error .overrun)
  | exit (h : (items.takeWhile (·.isSome)).length < maxConfigEntries) (hexit : none ∈ items) :
    ReadsTo items (.error .exit)
  | ok {l : StrList E} (h : M.Holds l items) : ReadsTo items (.ok l)

variable {M} {items more : List (Option E)} {l : StrList E} {s : ℕ → E} {num : ℕ} {name : Bytes}

theorem Holds.length_lt (h : M.Holds l items) : items.length < maxConfigEntries := by
  cases hptr : l.ptr with
  | none => simp [h.empty hptr, maxConfigEntries]
  | some s => exact (h.values s hptr).1

theorem takeWhile_append_of_exit (h : none ∈ items) :
    (items ++ more).takeWhile (·.isSome) = items.takeWhile (·.isSome) := by
  induction items with
  | nil => cases h
  | cons x items ih =>
    cases x with
    | none => simp
    | some e => simp [ih (by simpa using h)]

/-- A reader after another one. -/
theorem ReadsTo.bind {x : Except Failure (StrList E)} {f : StrList E → Except Failure (StrList E)}
    (hx : M.ReadsTo items x) (hf : ∀ l, M.Holds l items → M.ReadsTo (items ++ more) (f l)) :
    M.ReadsTo (items ++ more) (x >>= f) := by
  cases hx with
  | overrun h =>
    refine .overrun (h.trans ?_)
    rw [List.takeWhile_append]
    split
    · rw [List.length_append]
      exact (List.takeWhile_sublist _).length_le.trans (Nat.le_add_right _ _)
    · exact le_rfl
  | exit h hexit =>
    refine .exit ?_ (List.mem_append_left _ hexit)
    rwa [takeWhile_append_of_exit hexit]
  | ok h => exact hf _ h

theorem loop_full (hfirst : M.checksFirst) (hnum : maxConfigEntries ≤ num) (f : ConfigFile) :
    M.loop name f s num = .ok (s, num) := by
  cases f with
  | nil => rfl
  | cons val rest => rw [loop, if_pos ⟨hfirst, hnum⟩]

/-- The end of a macro: the terminator. -/
def terminate (M : ListMacro E) (x : (ℕ → E) × ℕ) : Except Failure (StrList E) := do
  let s ← put x.1 x.2 M.null
  return ⟨some s, x.2⟩

theorem terminate_full (M : ListMacro E) (s : ℕ → E) :
    M.terminate (s, maxConfigEntries) = .error .overrun := by
  rw [terminate, put, if_neg (lt_irrefl _)]
  rfl

theorem takeWhile_isSome (old : List E) :
    ((old.map some ++ items).takeWhile (·.isSome)).length =
      old.length + (items.takeWhile (·.isSome)).length := by
  induction old with
  | nil => simp
  | cons e old ih =>
    simp only [List.map_cons, List.cons_append, List.takeWhile_cons, Option.isSome_some, if_true,
      List.length_cons, ih]
    omega

theorem put_of_lt {i : ℕ} (h : i < maxConfigEntries) (e : E) :
    put s i e = .ok (Function.update s i e) := if_pos h

/-- A value that is stored. -/
theorem loop_some {f : ConfigFile} {val : OptionValue} {e : E} (hname : val.pzName = name)
    (he : M.entry val.strVal = some e) (hnum : num < maxConfigEntries) :
    M.loop name (val :: f) s num =
      if ¬ M.checksFirst ∧ maxConfigEntries ≤ num + 1 then
        .ok (Function.update s num e, num + 1)
      else M.loop name f (Function.update s num e) (num + 1) := by
  rw [loop, if_neg fun h => absurd h.2 (not_le.2 hnum), if_neg (not_not.2 hname), he]
  dsimp only
  rw [put_of_lt hnum]
  rfl

/-- The value that fills the array is the last one, with or without a check before the next. -/
theorem loop_last {f : ConfigFile} {val : OptionValue} {e : E} (hname : val.pzName = name)
    (he : M.entry val.strVal = some e) (hnum : num + 1 = maxConfigEntries) :
    M.loop name (val :: f) s num = .ok (Function.update s num e, maxConfigEntries) := by
  rw [loop_some hname he (by omega), hnum]
  split_ifs with hfirst
  · rfl
  · exact loop_full (by simpa using hfirst) le_rfl f

/-- **The loop and the terminator**, where the array already holds the values `old`. -/
theorem loop_readsTo (f : ConfigFile) (old : List E) (hold : old.length < maxConfigEntries)
    (hs : ∀ i (hi : i < old.length), s i = old[i]) :
    M.ReadsTo (old.map some ++ (f.filter (·.pzName = name)).map fun val => M.entry val.strVal)
      (M.loop name f s old.length >>= M.terminate) := by
  induction f generalizing old s with
  | nil =>
    have hend : M.terminate (s, old.length) =
        .ok ⟨some (Function.update s old.length M.null), old.length⟩ := by
      rw [terminate, put_of_lt hold]
      rfl
    change M.ReadsTo _ (M.terminate (s, old.length))
    rw [hend]
    refine .ok ⟨by simp, ?_, fun h => by cases h⟩
    rintro s' ⟨⟩
    refine ⟨by simpa using hold, fun i hi => ?_, by simp⟩
    have hi' : i < old.length := by simpa using hi
    rw [Function.update_of_ne hi'.ne, hs i hi']
    simp
  | cons val rest ih =>
    by_cases hname : val.pzName = name
    · rw [List.filter_cons_of_pos (by simpa using hname), List.map_cons]
      cases hentry : M.entry val.strVal with
      | none =>
        rw [loop, if_neg fun h => absurd h.2 (not_le.2 hold), if_neg (not_not.2 hname), hentry]
        refine .exit ?_ (List.mem_append_right _ List.mem_cons_self)
        rw [takeWhile_isSome]
        simpa using hold
      | some e =>
        have happend : old.map some ++ some e ::
            ((rest.filter (·.pzName = name)).map fun val => M.entry val.strVal) =
            (old ++ [e]).map some ++
              (rest.filter (·.pzName = name)).map fun val => M.entry val.strVal := by
          simp
        have hlen : (old ++ [e]).length = old.length + 1 := by simp
        rw [happend]
        by_cases hroom : old.length + 1 < maxConfigEntries
        · rw [loop_some hname hentry hold, if_neg fun h => absurd h.2 (not_le.2 hroom), ← hlen]
          refine ih (old ++ [e]) (hlen ▸ hroom) fun i hi => ?_
          by_cases hlast : i = old.length
          · subst hlast
            simp
          · have hi' : i < old.length := by omega
            rw [Function.update_of_ne hlast, hs i hi', List.getElem_append_left hi']
        · -- a full array is written past its end by the terminator
          have hfull : old.length + 1 = maxConfigEntries := by omega
          rw [loop_last hname hentry hfull]
          change M.ReadsTo _ (M.terminate (Function.update s old.length e, maxConfigEntries))
          rw [terminate_full]
          exact .overrun (by rw [takeWhile_isSome, hlen]; omega)
    · rw [loop, if_neg fun h => absurd h.2 (not_le.2 hold), if_pos hname,
        List.filter_cons_of_neg (by simpa using hname)]
      exact ih old hold hs

/-- The values before the first one that is found have other names. -/
theorem filter_dropWhile_sameName (f : ConfigFile) :
    (f.dropWhile fun val => !M.sameName val.pzName name).filter (·.pzName = name) =
      f.filter (·.pzName = name) := by
  induction f with
  | nil => rfl
  | cons val rest ih =>
    rw [List.dropWhile_cons]
    by_cases hname : val.pzName = name
    · rw [hname, M.sameName_self]
      rfl
    · rw [List.filter_cons_of_neg (by simpa using hname)]
      split
      · exact ih
      · rw [List.filter_cons_of_neg (by simpa using hname)]

/-- The values that are in the array. -/
theorem Holds.exists_values (h : M.Holds l items) (hptr : l.ptr = some s) :
    ∃ old : List E, items = old.map some ∧ ∀ i (hi : i < old.length), s i = old[i] := by
  obtain ⟨-, hvalues, -⟩ := h.values s hptr
  refine ⟨(List.range items.length).map s, List.ext_getElem (by simp) fun i h₁ h₂ => ?_, by simp⟩
  rw [hvalues i h₁]
  simp

/-- **A macro**, after others have filled the list. -/
theorem read_readsTo (fresh : ℕ → E) (pov : ConfigFile) (name : Bytes) (h : M.Holds l items) :
    M.ReadsTo (items ++ M.lines pov name) (M.read fresh pov name l) := by
  have habsent : M.ReadsTo (items ++ if M.mandatory name then [none] else [])
      (if M.mandatory name then .error .exit else .ok l) := by
    split_ifs
    · refine .exit ?_ (by simp)
      refine lt_of_le_of_lt ?_ h.length_lt
      rw [List.takeWhile_append]
      split
      · simp
      · exact (List.takeWhile_sublist _).length_le
    · rw [List.append_nil]
      exact .ok h
  unfold read lines
  cases hfind : pov.find? fun val => M.sameName val.pzName name with
  | none => exact habsent
  | some val =>
    by_cases hstr : val.valType = .string
    · rw [Option.any_some, if_pos (by simpa using hstr)]
      simp only [if_pos hstr]
      rw [← filter_dropWhile_sameName (M := M)]
      cases hptr : l.ptr with
      | none =>
        rw [h.empty hptr]
        exact loop_readsTo _ [] (Nat.zero_lt_succ _) fun i hi => absurd hi (Nat.not_lt_zero i)
      | some s =>
        obtain ⟨old, rfl, hold⟩ := h.exists_values hptr
        have hnum : l.num = old.length := by rw [h.num, List.length_map]
        have hlt : old.length < maxConfigEntries := by simpa using h.length_lt
        rw [hnum]
        exact loop_readsTo _ old hlt hold
    · rw [Option.any_some, if_neg (by simpa using hstr)]
      simp only [if_neg hstr]
      exact habsent

theorem foldlM_readsTo (fresh : ℕ → E) (pov : ConfigFile) (names : List Bytes)
    (h : M.Holds l items) :
    M.ReadsTo (items ++ names.flatMap (M.lines pov))
      (names.foldlM (fun l name => M.read fresh pov name l) l) := by
  induction names generalizing l items with
  | nil =>
    rw [List.flatMap_nil, List.append_nil]
    exact .ok h
  | cons name names ih =>
    rw [List.flatMap_cons, ← List.append_assoc, List.foldlM_cons]
    exact (read_readsTo fresh pov name h).bind fun l hl => ih hl

/-- An option with its aliases. -/
theorem readOption_readsTo (fresh : ℕ → E) (o : ListOption) (pov : ConfigFile)
    (h : M.Holds l items) :
    M.ReadsTo (M.optionLines o items pov) (M.readOption fresh o l pov) := by
  have hbind : ∃ more, M.optionLines o items pov = (items ++ M.lines pov o.name) ++ more ∧
      ∀ l, M.Holds l (items ++ M.lines pov o.name) →
        M.ReadsTo ((items ++ M.lines pov o.name) ++ more)
          (if l.num = 0 then o.aliases.foldlM (fun l name => M.read fresh pov name l) l
            else .ok l) := by
    by_cases hnew : items ++ M.lines pov o.name = []
    · refine ⟨o.aliases.flatMap (M.lines pov), ?_, fun l hl => ?_⟩
      · rw [optionLines, if_pos hnew, hnew, List.nil_append]
      · rw [if_pos (by rw [hl.num, hnew, List.length_nil])]
        exact foldlM_readsTo fresh pov o.aliases hl
    · refine ⟨[], by rw [optionLines, if_neg hnew, List.append_nil], fun l hl => ?_⟩
      rw [if_neg (by rw [hl.num]; exact fun h => hnew (List.length_eq_zero_iff.1 h)),
        List.append_nil]
      exact .ok hl
  obtain ⟨more, hmore, hrest⟩ := hbind
  rw [hmore]
  exact (read_readsTo fresh pov o.name h).bind hrest

theorem exists_foldl_optionLines (o : ListOption) (files : List ConfigFile)
    (items : List (Option E)) :
    ∃ more, files.foldl (M.optionLines o) items = items ++ more := by
  induction files generalizing items with
  | nil => exact ⟨[], (List.append_nil _).symm⟩
  | cons pov files ih =>
    obtain ⟨more, hmore⟩ := ih (M.optionLines o items pov)
    rw [List.foldl_cons, hmore, optionLines]
    split_ifs with hnew
    · rw [(List.append_eq_nil_iff.1 hnew).1]
      exact ⟨_, rfl⟩
    · exact ⟨M.lines pov o.name ++ more, List.append_assoc _ _ _⟩

/-- Files that are read one after the other. -/
theorem readFiles_readsTo (fresh : ℕ → E) (o : ListOption) (files : List ConfigFile) :
    M.ReadsTo (M.allLines o files) (M.readFiles fresh o files) := by
  have hstart : M.Holds ⟨none, 0⟩ [] := ⟨rfl, nofun, fun _ => rfl⟩
  have hfiles : ∀ (files : List ConfigFile) (l : StrList E) (items : List (Option E)),
      M.Holds l items →
        M.ReadsTo (files.foldl (M.optionLines o) items)
          (files.foldlM (M.readOption fresh o) l) := by
    intro files
    induction files with
    | nil => exact fun l items h => .ok h
    | cons pov files ih =>
      intro l items h
      obtain ⟨more, hmore⟩ := M.exists_foldl_optionLines o files (M.optionLines o items pov)
      rw [List.foldl_cons, List.foldlM_cons, hmore]
      exact (readOption_readsTo fresh o pov h).bind fun l hl => hmore ▸ ih l _ hl
  exact hfiles files _ _ hstart

/-- **What a reader stores** stays within the array exactly if there are fewer values than pointers
in it. -/
theorem bounded_iff (M : ListMacro E) (fresh : ℕ → E) (o : ListOption) (files : List ConfigFile) :
    M.Bounded fresh o files ↔ M.stored o files < maxConfigEntries := by
  have h := M.readFiles_readsTo fresh o files
  unfold Bounded stored
  cases hres : M.readFiles fresh o files with
  | error e =>
    rw [hres] at h
    cases h with
    | overrun h => exact iff_of_false id (not_lt.2 h)
    | exit h => exact iff_of_true trivial h
  | ok l =>
    rw [hres] at h
    cases h with
    | ok h =>
      refine iff_of_true ?_ ((List.takeWhile_sublist _).length_le.trans_lt h.length_lt)
      rwa [List.take_of_length_le h.length_lt.le]

end ListMacro

/-- **Main result.**  For every option and all files, a list reader keeps within its array and
stores the values in order if and only if it stores fewer than `MAX_CONFIG_ENTRIES` of them. -/
theorem lists_bounded_iff (fresh : ℕ → Option Bytes) (fresh' : ℕ → Option Bytes × Option Bytes)
    (o : ListOption) (files : List ConfigFile) :
    (readMultiLine.Bounded fresh o files ↔ readMultiLine.stored o files < maxConfigEntries) ∧
      (readMultiBracketLine.Bounded fresh' o files ↔
        readMultiBracketLine.stored o files < maxConfigEntries) ∧
      (readRawMultiLine.Bounded fresh o files ↔
        readRawMultiLine.stored o files < maxConfigEntries) :=
  ⟨readMultiLine.bounded_iff fresh o files, readMultiBracketLine.bounded_iff fresh' o files,
    readRawMultiLine.bounded_iff fresh o files⟩

/-- A file with `n` routes. -/
def routes (n : ℕ) : ConfigFile :=
  List.replicate n ⟨.string, ascii "route", ascii "10.0.0.0/255.0.0.0", 0⟩

/-- With 96 routes the terminator is written after the end of the array, by each macro. -/
theorem not_bounded_routes :
    ¬ readMultiLine.Bounded (fun _ => none) ⟨ascii "route", []⟩ [routes 96] ∧
      ¬ readRawMultiLine.Bounded (fun _ => none) ⟨ascii "route", []⟩ [routes 96] := by
  rw [readMultiLine.bounded_iff, readRawMultiLine.bounded_iff]
  exact ⟨by decide +kernel, by decide +kernel⟩

end Config

end Ocserv
