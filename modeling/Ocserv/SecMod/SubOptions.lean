import Mathlib.Data.List.DropRight
import Ocserv.SecMod.AuthConfig

/-!
# Sec-mod: the sub-options in brackets

What `expand_brackets_string` of `src/subconfig.c` makes of a text that was put together from names
and values.

* `expandBracketsString_text` : every entry it returns is the first sub-option.
* `expandBracketsString_iff` : it returns the sub-options of the text exactly when there is one, or
  `MAX_SUBOPTIONS` times the same.
-/

namespace Ocserv

namespace SecMod

open Worker (cIsspace strchr strchr_append strchr_of_notMem dropWhile_separator)

/-- A text without the terminator, a comma, an equals sign and a closing bracket. -/
def IsWord (s : Bytes) : Prop := 0 ∉ s ∧ 44 ∉ s ∧ 61 ∉ s ∧ 93 ∉ s

instance (s : Bytes) : Decidable (IsWord s) := inferInstanceAs (Decidable (_ ∧ _))

/-- A text without the white space around it. -/
def trimmed (s : Bytes) : Bytes := (s.dropWhile cIsspace).rdropWhile cIsspace

/-- A name and a value as they stand in the text, with the white space around them. -/
structure SubOption where
  name : Bytes
  value : Bytes
  name_word : IsWord name
  value_word : IsWord value

namespace SubOption

/-- `name=value`. -/
def text (o : SubOption) : Bytes := o.name ++ 61 :: o.value

/-- The entry for a sub-option. -/
def entry (o : SubOption) : Bytes × Bytes := (trimmed o.name, trimmed o.value)

/-- The name and the value have more than white space. -/
def Filled (o : SubOption) : Prop := trimmed o.name ≠ [] ∧ trimmed o.value ≠ []

instance (o : SubOption) : Decidable o.Filled := inferInstanceAs (Decidable (_ ∧ _))

end SubOption

/-- `[n1=v1,n2=v2,...,nk=vk]`. -/
def bracketText (opts : List SubOption) : Bytes :=
  91 :: ([44].intercalate (opts.map SubOption.text) ++ [93])

/-- The texts from which every sub-option is read. -/
def ReadsAll : List SubOption → Prop
  | [] => False
  | o :: rest => o.Filled ∧
    (rest = [] ∨ rest.length + 1 = maxSuboptions ∧ ∀ o' ∈ rest, o'.entry = o.entry)

/-! ### One sub-option -/

variable {s : Bytes} {c : UInt8}

theorem IsWord.dropWhile (h : IsWord s) : IsWord (s.dropWhile cIsspace) := by
  have hsub (c : UInt8) (hc : c ∈ s.dropWhile cIsspace) : c ∈ s :=
    (List.dropWhile_sublist cIsspace).mem hc
  obtain ⟨h0, h44, h61, h93⟩ := h
  exact ⟨fun hc => h0 (hsub 0 hc), fun hc => h44 (hsub 44 hc), fun hc => h61 (hsub 61 hc),
    fun hc => h93 (hsub 93 hc)⟩

theorem trimEnd_eq (s : Bytes) :
    trimEnd s = if s.rdropWhile cIsspace = [] then none else some (s.rdropWhile cIsspace) := by
  rw [trimEnd, List.rdropWhile]
  cases s.reverse.dropWhile cIsspace with
  | nil => rfl
  | cons c s => simp

/-- What a turn of the loop stores for a sub-option. -/
theorem suboption_dropWhile (o : SubOption) :
    suboption (o.name.dropWhile cIsspace) (o.value.dropWhile cIsspace) =
      if o.Filled then some o.entry else none := by
  simp only [suboption, trimEnd_eq, SubOption.Filled, SubOption.entry, trimmed]
  split_ifs <;> simp_all

/-! ### The loop -/

/-- The equals sign behind the name. -/
theorem strchr_name (o : SubOption) (t : Bytes) :
    strchr 61 (o.name.dropWhile cIsspace ++ 61 :: t) = some (o.name.dropWhile cIsspace).length :=
  strchr_append (by decide) o.name_word.dropWhile.2.2.1 o.name_word.dropWhile.1 t

theorem skip_name (o : SubOption) (hc : cIsspace c = false) :
    ((o.name.dropWhile cIsspace ++ 61 :: (o.value ++ c :: t)).drop
      ((o.name.dropWhile cIsspace).length + 1)).dropWhile cIsspace =
      o.value.dropWhile cIsspace ++ c :: t := by
  rw [List.drop_append, List.drop_of_length_le (Nat.le_succ _), Nat.add_sub_cancel_left,
    List.nil_append, List.drop_succ_cons, List.drop_zero, dropWhile_separator hc]

/-- The last sub-option ends the loop. -/
theorem expandLoop_last (o : SubOption) (n : ℕ) :
    expandLoop (o.name.dropWhile cIsspace ++ 61 :: (o.value ++ [93])) (n + 1) =
      if o.Filled then some [o.entry] else none := by
  have hword := o.value_word.dropWhile
  have hcomma : strchr 44 (o.value.dropWhile cIsspace ++ [93]) = none := by
    refine strchr_of_notMem fun h => ?_
    rcases List.mem_append.1 h with h | h
    · exact hword.2.1 h
    · exact absurd (List.mem_singleton.1 h) (by decide)
  have hend : strchr 93 (o.value.dropWhile cIsspace ++ [93]) =
      some (o.value.dropWhile cIsspace).length :=
    strchr_append (by decide) hword.2.2.2 hword.1 []
  simp only [expandLoop, strchr_name, skip_name o (show cIsspace 93 = false by decide), hcomma,
    hend, List.take_left, suboption_dropWhile]
  split_ifs <;> rfl

/-- A sub-option before a comma is read again in the next turn. -/
theorem expandLoop_comma (o : SubOption) (t : Bytes) (n : ℕ) :
    expandLoop (o.name.dropWhile cIsspace ++ 61 :: (o.value ++ 44 :: t)) (n + 1) =
      if o.Filled then some (List.replicate (n + 1) o.entry) else none := by
  have hword := o.value_word.dropWhile
  have hcomma : strchr 44 (o.value.dropWhile cIsspace ++ 44 :: t) =
      some (o.value.dropWhile cIsspace).length :=
    strchr_append (by decide) hword.2.1 hword.1 t
  induction n with
  | zero =>
    simp only [expandLoop, strchr_name, skip_name o (show cIsspace 44 = false by decide), hcomma,
      List.take_left, suboption_dropWhile]
    split_ifs <;> rfl
  | succ n ih =>
    rw [expandLoop]
    simp only [strchr_name, skip_name o (show cIsspace 44 = false by decide), hcomma,
      List.take_left, suboption_dropWhile, ih]
    split_ifs <;> rfl

/-! ### The text -/

theorem bracketText_singleton (o : SubOption) :
    bracketText [o] = 91 :: (o.name ++ 61 :: (o.value ++ [93])) := by
  simp [bracketText, SubOption.text]

theorem bracketText_cons_cons (o o' : SubOption) (rest : List SubOption) :
    ∃ t, bracketText (o :: o' :: rest) = 91 :: (o.name ++ 61 :: (o.value ++ 44 :: t)) :=
  ⟨[44].intercalate ((o' :: rest).map SubOption.text) ++ [93], by
    simp [bracketText, SubOption.text, List.intercalate_cons_cons]⟩

theorem expandBracketsString_bracket (s : Bytes) :
    expandBracketsString (91 :: s) = expandLoop (s.dropWhile cIsspace) maxSuboptions := by
  have hopen : strchr 91 (91 :: s) = some 0 :=
    strchr_append (by decide) (List.not_mem_nil) (List.not_mem_nil) s
  simp [expandBracketsString, hopen]

/-- **Main result.** However many sub-options the text has, all that is read is the first one: once
if there is no other, and otherwise for every place of the result. -/
theorem expandBracketsString_text (o : SubOption) (rest : List SubOption) :
    expandBracketsString (bracketText (o :: rest)) =
      if o.Filled then
        some (List.replicate (if rest = [] then 1 else maxSuboptions) o.entry)
      else none := by
  have hname (t : Bytes) : (o.name ++ 61 :: t).dropWhile cIsspace =
      o.name.dropWhile cIsspace ++ 61 :: t := dropWhile_separator (by decide) _ _
  cases rest with
  | nil =>
    rw [bracketText_singleton, expandBracketsString_bracket, hname]
    exact expandLoop_last o 4
  | cons o' rest =>
    obtain ⟨t, ht⟩ := bracketText_cons_cons o o' rest
    rw [ht, expandBracketsString_bracket, hname, if_neg (List.cons_ne_nil o' rest)]
    exact expandLoop_comma o t 4

/-- **Main result.** The entries are the trimmed names and values of the text, in order, exactly
for the texts of `ReadsAll`. -/
theorem expandBracketsString_iff (opts : List SubOption) :
    expandBracketsString (bracketText opts) = some (opts.map SubOption.entry) ↔
      ReadsAll opts := by
  cases opts with
  | nil =>
    have hnone : expandBracketsString (bracketText []) = none := by decide
    simp [hnone, ReadsAll]
  | cons o rest =>
    rw [expandBracketsString_text, ReadsAll]
    by_cases ho : o.Filled
    · rw [if_pos ho, Option.some.injEq, eq_comm, List.eq_replicate_iff]
      cases rest with
      | nil => simp [ho]
      | cons o' rest => simp [ho]
    · rw [if_neg ho]
      simp [ho]

/-- The second sub-option of `[a=1,b=2]` is lost. -/
theorem not_expandBracketsString_two :
    ¬ ∀ opts : List SubOption, 1 ≤ opts.length → opts.length ≤ maxSuboptions →
      expandBracketsString (bracketText opts) = some (opts.map SubOption.entry) := by
  intro h
  have h := h [⟨[97], [49], by decide, by decide⟩, ⟨[98], [50], by decide, by decide⟩]
    (by decide) (by decide)
  exact absurd h (by decide)

end SecMod

end Ocserv
