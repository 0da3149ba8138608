import Ocserv.Passwd.Plain

/-!
# The elements of a group list

What `break_group_list` of `src/auth/plain.c` takes from the text of a group field, with the place
of every element in the text.

* `brokenText_eq` : the result of the loop, element by element.
* `brokenText_iff` : it is the list of the groups of the text exactly when every element that is
  read is `Plain`.
-/

namespace Ocserv

namespace Passwd

open Lines
open SecMod (Bytes)
open Worker (ascii cIsspace dropWhile_separator)

/-! ### Lists -/

section FilterMap

variable {α β : Type*} {f g : α → Option β}

theorem filterMap_take_congr {l : List α} {n : ℕ}
    (h : ∀ pre a post, l = pre ++ a :: post → (pre.filterMap g).length < n → f a = g a) :
    (l.filterMap f).take n = (l.filterMap g).take n := by
  induction l generalizing n with
  | nil => rfl
  | cons a l ih =>
    cases n with
    | zero => rw [List.take_zero, List.take_zero]
    | succ n =>
      have ha : f a = g a := h [] a l rfl (Nat.succ_pos n)
      cases hg : g a with
      | none =>
        rw [List.filterMap_cons_none (ha.trans hg), List.filterMap_cons_none hg]
        refine ih fun pre b post hl hlen => h (a :: pre) b post (congrArg (a :: ·) hl) ?_
        rwa [List.filterMap_cons_none hg]
      | some x =>
        rw [List.filterMap_cons_some (ha.trans hg), List.filterMap_cons_some hg,
          List.take_succ_cons,
          List.take_succ_cons]
        congr 1
        refine ih fun pre b post hl hlen => h (a :: pre) b post (congrArg (a :: ·) hl) ?_
        rw [List.filterMap_cons_some hg, List.length_cons]
        omega

/-- Two functions select the same first elements of a list where each can be told by its image. -/
theorem filterMap_take_eq_iff {l : List α} {n : ℕ}
    (hl : l.Pairwise fun a b =>
      ∀ x, (f a = some x → g b ≠ some x) ∧ (g a = some x → f b ≠ some x)) :
    (l.filterMap f).take n = (l.filterMap g).take n ↔
      ∀ pre a post, l = pre ++ a :: post → (pre.filterMap g).length < n → f a = g a := by
  refine ⟨fun h => ?_, filterMap_take_congr⟩
  induction l generalizing n with
  | nil => simp
  | cons a l ih =>
    obtain ⟨hother, hl⟩ := List.pairwise_cons.1 hl
    cases n with
    | zero => simp
    | succ n =>
      -- the image of `a` under one function alone would be that of a later element under the other
      have hmem {f g : α → Option β} {x : β} (hf : f a = some x) (hg : g a = none)
          (hne : ∀ b ∈ l, g b ≠ some x) :
          ((a :: l).filterMap f).take (n + 1) ≠ ((a :: l).filterMap g).take (n + 1) := by
        rw [List.filterMap_cons_some hf, List.filterMap_cons_none hg, List.take_succ_cons]
        intro heq
        have hx : x ∈ l.filterMap g := (List.take_sublist (n + 1) _).mem (heq ▸ List.mem_cons_self)
        obtain ⟨b, hb, hgb⟩ := List.mem_filterMap.1 hx
        exact hne b hb hgb
      cases hf : f a with
      | none =>
        cases hg : g a with
        | none =>
          rw [List.filterMap_cons_none hf, List.filterMap_cons_none hg] at h
          rintro (_ | ⟨b, pre⟩) c post heq hlen
          · cases heq
            rw [hf, hg]
          · cases heq
            rw [List.filterMap_cons_none hg] at hlen
            exact ih hl h pre c post rfl hlen
        | some x => exact absurd h.symm (hmem hg hf fun b hb => (hother b hb x).2 hg)
      | some x =>
        cases hg : g a with
        | none => exact absurd h (hmem hf hg fun b hb => (hother b hb x).1 hf)
        | some y =>
          rw [List.filterMap_cons_some hf, List.filterMap_cons_some hg, List.take_succ_cons,
            List.take_succ_cons, List.cons.injEq] at h
          rintro (_ | ⟨b, pre⟩) c post heq hlen
          · cases heq
            rw [hf, hg, h.1]
          · cases heq
            rw [List.filterMap_cons_some hg, List.length_cons] at hlen
            exact ih hl h.2 pre c post rfl (by omega)

end FilterMap

/-! ### What the groups are -/

/-- An element of a text, between two commas. -/
structure Element where
  /-- Where the element begins in the text. -/
  start : ℕ
  raw : Bytes
  last : Bool
  deriving DecidableEq, Repr

/-- The elements of a text of which these parts are left. -/
def elementsFrom : ℕ → List Bytes → List Element
  | _, [] => []
  | n, raw :: rest => ⟨n, raw, rest.isEmpty⟩ :: elementsFrom (n + raw.length + 1) rest

/-- The comma-separated elements of a text. -/
def elements (text : Bytes) : List Element := elementsFrom 0 (text.splitOn comma)

namespace Element

/-- The element without white space before it. -/
def word (el : Element) : Bytes := el.raw.dropWhile cIsspace

/-- Where the first byte stands that is no white space. -/
def place (el : Element) : ℕ := el.start + (el.raw.length - el.word.length)

/-- The group of an element, with its place in the text; `*` stands for no group. -/
def group (el : Element) : Option (ℕ × Bytes) :=
  if el.word.rdropWhile cIsspace = [star] then none
  else some (el.place, el.word.rdropWhile cIsspace)

/-- An element from which the code takes its group. -/
structure Plain (el : Element) : Prop where
  /-- The first element does not begin with white space, and is not empty before a comma. -/
  first : el.start = 0 → el.word = el.raw ∧ (el.last = false → el.raw ≠ [])
  /-- Before a comma, the one-byte element is `*`, -/
  single : el.last = false → el.word.length = 1 → el.word = [star]
  /-- and `*` has no white space behind it. -/
  placeholder : el.last = false → el.word.rdropWhile cIsspace = [star] → el.word = [star]
  /-- At the end of the text there is no `*`. -/
  notLast : el.last = true → el.word.rdropWhile cIsspace ≠ [star]
  /-- White space at the end of the text has a space, -/
  ending : el.last = true → space ∉ el.word → el.word.rdropWhile cIsspace = el.word
  /-- and there is nothing else behind the last space. -/
  inner : el.last = true → space ∈ el.word → ∀ a ∈ el.word.rtakeWhile (· ≠ space),
    cIsspace a = true

end Element

/-- The groups of a text: at most `MAX_GROUPS`, in the order of the text. -/
def groups (text : Bytes) : List (ℕ × Bytes) :=
  ((elements text).filterMap Element.group).take maxGroups

/-- The elements up to the last of the groups are plain. -/
def PlainList (text : Bytes) : Prop :=
  ∀ pre el post, elements text = pre ++ el :: post →
    (pre.filterMap Element.group).length < maxGroups → el.Plain

/-- The C string at an offset of a buffer. -/
def stringAt (buf : Bytes) (n : ℕ) : Bytes := (buf.drop n).takeWhile (· ≠ 0)

/-- `broken_text` after `break_group_list`: where each pointer stands in the copy of the text, and
the string it points to. -/
def brokenText (text : Bytes) : Option (List (ℕ × Bytes)) :=
  (breakLoop (text.length + 1) [] text []).map fun (buf, starts) =>
    starts.map fun n => (n, stringAt buf n)

theorem breakGroupList_eq (text : Bytes) :
    breakGroupList text = (brokenText text).map (·.map Prod.snd) := by
  rw [breakGroupList, brokenText, Option.map_map]
  congr 1
  funext x
  rw [Function.comp_apply, List.map_map]
  rfl

/-! ### The walk back over white space -/

theorem rdropWhile_append {α : Type*} (p : α → Bool) (l s : List α) :
    (l ++ s).rdropWhile p =
      if s.rdropWhile p = [] then l.rdropWhile p else l ++ s.rdropWhile p := by
  simp only [List.rdropWhile, List.reverse_append, List.dropWhile_append, List.isEmpty_iff,
    List.reverse_eq_nil_iff]
  split_ifs with hs
  · rfl
  · rw [List.reverse_append, List.reverse_reverse]

theorem rdropWhile_white {w : Bytes} (hw : ∀ a ∈ w, cIsspace a = true) (l : Bytes) :
    (l ++ w).rdropWhile cIsspace = l.rdropWhile cIsspace := by
  rw [rdropWhile_append, if_pos (List.rdropWhile_eq_nil_iff.2 hw)]

/-- Behind an end that an earlier turn has set, the walk back leaves that end alone. -/
theorem cutSpace_element {w : Bytes} (hw : ∀ a ∈ w, cIsspace a = true) (b e y : Bytes) :
    ∃ w' : Bytes, w'.length = w.length ∧
      cutSpace (b ++ 0 :: w ++ (e ++ y)) ((b ++ 0 :: w).length + e.length) =
        some (b ++ 0 :: (w' ++ (e.rdropWhile cIsspace ++
          (List.replicate (e.length - (e.rdropWhile cIsspace).length) 0 ++ y)))) := by
  have htake : (b ++ 0 :: w ++ (e ++ y)).take ((b ++ 0 :: w).length + e.length) =
      b ++ 0 :: w ++ e := by
    rw [List.take_length_add_append, List.take_left]
  have hdrop : (b ++ 0 :: w ++ (e ++ y)).drop ((b ++ 0 :: w).length + e.length) = y := by
    rw [List.drop_length_add_append, List.drop_left]
  have hend : (b ++ 0 :: w).rdropWhile cIsspace = b ++ [0] := by
    rw [List.append_cons, rdropWhile_white hw]
    exact List.rdropWhile_concat_neg _ _ _ (by decide)
  rw [cutSpace_eq (by simp only [List.length_append]; omega), htake, hdrop, rdropWhile_append, hend]
  split_ifs with he hnil hnil
  · simp at hnil
  · refine ⟨List.replicate w.length 0, List.length_replicate, ?_⟩
    have hcount : (b ++ 0 :: w).length + e.length - (b ++ [0]).length = w.length + e.length := by
      simp only [List.length_append, List.length_cons, List.length_nil]
      omega
    rw [he, hcount, List.replicate_add, List.length_nil, Nat.sub_zero]
    simp only [List.append_assoc, List.cons_append, List.nil_append]
  · simp at hnil
  · refine ⟨w, rfl, ?_⟩
    have hcount : (b ++ 0 :: w).length + e.length -
        (b ++ 0 :: w ++ e.rdropWhile cIsspace).length =
          e.length - (e.rdropWhile cIsspace).length := by
      simp only [List.length_append]
      omega
    rw [hcount]
    simp only [List.append_assoc, List.cons_append]

/-! ### The loop -/

/-- What the loop stores for an element: only the first one keeps the white space before it. -/
def Element.found (el : Element) : Option (ℕ × Bytes) :=
  let e := if el.start = 0 then el.raw else el.word
  let place := el.start + (el.raw.length - e.length)
  if el.last then
    some (place, if space ∈ e then (e.rdropWhile (· ≠ space)).rdropWhile cIsspace else e)
  else if e.length = 1 then none
  else some (place, e.rdropWhile cIsspace)

section Turn

variable {fuel : ℕ} {before e after rest buf : Bytes} {starts : List ℕ}

/-- A turn on an element before a comma. -/
theorem breakLoop_comma (he : comma ∉ e) :
    breakLoop (fuel + 1) before (e ++ comma :: after) starts =
      (cutSpace (before ++ e) (before ++ e).length).bind fun buf =>
        let starts := if e.length = 1 then starts else starts ++ [before.length]
        let buf := buf ++ 0 :: after.takeWhile cIsspace
        if starts.length < maxGroups then breakLoop fuel buf (after.dropWhile cIsspace) starts
        else some (buf ++ after.dropWhile cIsspace, starts) := by
  rw [breakLoop]
  simp only [dropWhile_append_sep he, takeWhile_append_sep he, List.dropLast_concat]
  cases cutSpace (before ++ e) (before ++ e).length <;> rfl

/-- The turn on the last element. -/
theorem breakLoop_last (he : comma ∉ e) :
    breakLoop (fuel + 1) before e starts =
      if space ∈ e then
        (cutSpace (before ++ e) (before.length + (e.rdropWhile (· ≠ space)).length)).map fun buf =>
          (buf, starts ++ [before.length])
      else some (before ++ e, starts ++ [before.length]) := by
  rw [breakLoop]
  simp only [dropWhile_of_notMem he, takeWhile_of_notMem he]
  cases hlast : strrchr space e with
  | none =>
    have hspace : space ∉ e := by
      rw [← strrchr_isSome, hlast]
      simp
    simp only [if_neg hspace]
  | some k =>
    have hspace : space ∈ e := by
      rw [← strrchr_isSome, hlast]
      rfl
    obtain ⟨hk, htake⟩ := take_strrchr hlast
    have hlen : (e.rdropWhile (· ≠ space)).length = k + 1 := by
      rw [List.rdropWhile, ← htake, List.length_take_of_le hk]
    simp only [if_pos hspace, hlen, Nat.add_assoc]

end Turn

/-- A string that ends with the zeros after it, or with the end of the buffer. -/
theorem stringAt_append {r : Bytes} (h0 : 0 ∉ r) (b y : Bytes) (hy : y.head?.all (· = 0)) :
    stringAt (b ++ (r ++ y)) b.length = r := by
  have hall : ∀ a ∈ r, decide (a ≠ 0) = true := fun a ha => decide_eq_true fun h => h0 (h ▸ ha)
  rw [stringAt, List.drop_left, List.takeWhile_append_of_pos hall]
  cases y with
  | nil => simp
  | cons a y => simp_all

theorem head?_replicate_zero (n : ℕ) (t : Bytes) :
    (List.replicate n 0 ++ 0 :: t).head?.all (· = 0) := by
  cases n <;> simp [List.replicate_succ]

theorem mem_of_mem_rdropWhile {α : Type*} {p : α → Bool} {l : List α} {a : α}
    (h : a ∈ l.rdropWhile p) : a ∈ l :=
  (List.rdropWhile_prefix p l).subset h

theorem rdropWhile_length_lt {α : Type*} {p : α → Bool} {l : List α} (hne : l ≠ [])
    (hp : p (l.getLast hne) = true) : (l.rdropWhile p).length < l.length := by
  have hle := (List.rdropWhile_prefix p l.dropLast).length_le
  have hpos := List.length_pos_iff.2 hne
  rw [← List.dropLast_append_getLast hne, List.rdropWhile_concat_pos _ _ _ hp]
  simp only [List.length_append, List.length_dropLast, List.length_singleton] at hle ⊢
  omega

/-- White space before a comma is cut off, and the element can be read. -/
theorem cutSpace_comma {w e : Bytes} (hw : ∀ a ∈ w, cIsspace a = true) (h0 : 0 ∉ e) (b : Bytes) :
    ∃ t : Bytes, t.length = w.length + e.length ∧
      cutSpace (b ++ 0 :: w ++ e) ((b ++ 0 :: w).length + e.length) = some (b ++ 0 :: t) ∧
      ∀ t', stringAt (b ++ 0 :: (t ++ 0 :: t')) (b ++ 0 :: w).length = e.rdropWhile cIsspace := by
  obtain ⟨w', hw', hcut⟩ := cutSpace_element hw b e []
  have hle : (e.rdropWhile cIsspace).length ≤ e.length := (List.rdropWhile_prefix _ _).length_le
  refine ⟨w' ++ (e.rdropWhile cIsspace ++
    List.replicate (e.length - (e.rdropWhile cIsspace).length) 0), ?_, ?_, fun t' => ?_⟩
  · simp only [List.length_append, List.length_replicate, hw']
    omega
  · simpa only [List.append_nil] using hcut
  · have hzeros : ((List.replicate (e.length - (e.rdropWhile cIsspace).length) 0 ++
        0 :: t').head?.all (· = 0)) := by
      cases e.length - (e.rdropWhile cIsspace).length <;> simp [List.replicate_succ]
    have hmem : 0 ∉ e.rdropWhile cIsspace := fun h => h0 (mem_of_mem_rdropWhile h)
    have h := stringAt_append hmem (b ++ 0 :: w') _ hzeros
    simpa only [List.length_append, List.length_cons, hw', List.append_assoc,
      List.cons_append] using h

/-- An element that is cut at its last space can be read. -/
theorem stringAt_lastSpace {e : Bytes} (h0 : 0 ∉ e) (hspace : space ∈ e) (b : Bytes) :
    stringAt (b ++ ((e.rdropWhile (· ≠ space)).rdropWhile cIsspace ++
      (List.replicate ((e.rdropWhile (· ≠ space)).length -
        ((e.rdropWhile (· ≠ space)).rdropWhile cIsspace).length) 0 ++
          e.rtakeWhile (· ≠ space)))) b.length =
      (e.rdropWhile (· ≠ space)).rdropWhile cIsspace := by
  have hne : e.rdropWhile (· ≠ space) ≠ [] := fun hnil =>
    absurd (List.rdropWhile_eq_nil_iff.1 hnil space hspace) (by decide)
  have hlast : (e.rdropWhile (· ≠ space)).getLast hne = space := by
    simpa using List.rdropWhile_last_not (fun a => decide (a ≠ space)) e hne
  have hlt := rdropWhile_length_lt (p := cIsspace) hne (by rw [hlast]; decide)
  -- the space itself becomes the terminator
  obtain ⟨k, hk⟩ := Nat.exists_eq_succ_of_ne_zero (Nat.sub_ne_zero_of_lt hlt)
  rw [hk]
  exact stringAt_append (fun h => h0 (mem_of_mem_rdropWhile (mem_of_mem_rdropWhile h))) b _
    (by simp [List.replicate_succ])

/-- The last element after its turn. -/
theorem breakLoop_end {fuel : ℕ} {w e : Bytes} (starts : List ℕ)
    (hw : ∀ a ∈ w, cIsspace a = true) (he : comma ∉ e) (h0 : 0 ∉ e) (b : Bytes) :
    ∃ t, breakLoop (fuel + 1) (b ++ 0 :: w) e starts =
        some (b ++ 0 :: t, starts ++ [(b ++ 0 :: w).length]) ∧
      stringAt (b ++ 0 :: t) (b ++ 0 :: w).length =
        if space ∈ e then (e.rdropWhile (· ≠ space)).rdropWhile cIsspace else e := by
  rw [breakLoop_last he]
  split_ifs with hspace
  · have hsplit : e.rdropWhile (· ≠ space) ++ e.rtakeWhile (· ≠ space) = e :=
      List.rdropWhile_append_rtakeWhile
    obtain ⟨w', hw', hcut⟩ :=
      cutSpace_element hw b (e.rdropWhile (· ≠ space)) (e.rtakeWhile (· ≠ space))
    rw [hsplit] at hcut
    refine ⟨_, by rw [hcut, Option.map_some], ?_⟩
    have h := stringAt_lastSpace h0 hspace (b ++ 0 :: w')
    simpa only [List.length_append, List.length_cons, hw', List.append_assoc,
      List.cons_append] using h
  · refine ⟨w ++ e, by rw [List.append_assoc, List.cons_append], ?_⟩
    have h := stringAt_append h0 (b ++ 0 :: w) [] rfl
    simpa only [List.append_nil, List.append_assoc, List.cons_append] using h

/-! ### One element after the other -/

section Elements

variable {n : ℕ} {w e after : Bytes}

theorem elementsFrom_comma (he : comma ∉ e) :
    elementsFrom n ((e ++ comma :: after).splitOn comma) =
      ⟨n, e, false⟩ :: elementsFrom (n + e.length + 1) (after.splitOn comma) := by
  rw [List.splitOn_append_cons_self, List.splitOn_eq_singleton he, List.singleton_append,
    elementsFrom, List.isEmpty_eq_false_iff.2 (List.splitOn_ne_nil comma after)]

theorem elementsFrom_last (he : comma ∉ e) :
    elementsFrom n (e.splitOn comma) = [⟨n, e, true⟩] := by
  rw [List.splitOn_eq_singleton he]
  rfl

theorem dropWhile_white (hw : ∀ a ∈ w, cIsspace a = true) (s : Bytes) :
    (w ++ s).dropWhile cIsspace = s.dropWhile cIsspace :=
  List.dropWhile_append_of_pos hw

/-- An element that is not the first one is taken behind the white space before it. -/
theorem found_of_pos (last : Bool) (hn : n ≠ 0) (hw : ∀ a ∈ w, cIsspace a = true)
    (he : e.dropWhile cIsspace = e) :
    Element.found ⟨n, w ++ e, last⟩ =
      if last then
        some (n + w.length,
          if space ∈ e then (e.rdropWhile (· ≠ space)).rdropWhile cIsspace else e)
      else if e.length = 1 then none
      else some (n + w.length, e.rdropWhile cIsspace) := by
  simp only [Element.found, Element.word, if_neg hn, dropWhile_white hw, he, List.length_append,
    Nat.add_sub_cancel]

end Elements

theorem comma_notMem_white {w : Bytes} (hw : ∀ a ∈ w, cIsspace a = true) : comma ∉ w :=
  fun h => absurd (hw comma h) (by decide)

/-- A result of the loop that adds the groups of the elements, up to the bound, to those in
`starts`; what stands before the end that was set last is left alone. -/
def Adds (b : Bytes) (starts : List ℕ) (els : List Element)
    (result : Option (Bytes × List ℕ)) : Prop :=
  ∃ t new, result = some (b ++ 0 :: t, starts ++ new) ∧
    new.map (fun n => (n, stringAt (b ++ 0 :: t) n)) =
      (els.filterMap Element.found).take (maxGroups - starts.length)

section Elements

variable {fuel : ℕ} {b w e after rest : Bytes} {starts : List ℕ}

/-- A turn on an element before a comma, and the turns behind it. -/
theorem adds_comma (hw : ∀ a ∈ w, cIsspace a = true) (he : comma ∉ e)
    (hword : e.dropWhile cIsspace = e) (h0 : 0 ∉ e) (hstarts : starts.length < maxGroups)
    (hnext : ∀ (b : Bytes) (starts : List ℕ), starts.length < maxGroups →
      Adds b starts (elementsFrom (b.length + 1) (after.splitOn comma))
        (breakLoop fuel (b ++ 0 :: after.takeWhile cIsspace) (after.dropWhile cIsspace) starts)) :
    Adds b starts (elementsFrom (b.length + 1) ((w ++ (e ++ comma :: after)).splitOn comma))
      (breakLoop (fuel + 1) (b ++ 0 :: w) (e ++ comma :: after) starts) := by
  have hplace : (b ++ 0 :: w).length = b.length + 1 + w.length := by
    rw [List.length_append, List.length_cons]
    omega
  have hnot : comma ∉ w ++ e := by
    simpa using ⟨comma_notMem_white hw, he⟩
  have hsplit : w ++ (e ++ comma :: after) = (w ++ e) ++ comma :: after :=
    (List.append_assoc _ _ _).symm
  obtain ⟨t₀, hlen, hcut, hstring⟩ := cutSpace_comma hw h0 b
  have hstart : (b ++ 0 :: t₀).length = b.length + 1 + (w ++ e).length := by
    simp only [List.length_append, List.length_cons, hlen]
    omega
  have hnext := hnext (b ++ 0 :: t₀)
  simp only [Adds, hstart, List.append_assoc, List.cons_append] at hnext
  rw [Adds, breakLoop_comma he, List.length_append, hcut, Option.bind_some, hsplit,
    elementsFrom_comma hnot]
  simp only [List.append_assoc, List.cons_append]
  by_cases hsingle : e.length = 1
  · obtain ⟨t, new, hloop, hmap⟩ := hnext starts hstarts
    have hfound : Element.found ⟨b.length + 1, w ++ e, false⟩ = none := by
      rw [found_of_pos false (Nat.succ_ne_zero _) hw hword, if_neg Bool.false_ne_true,
        if_pos hsingle]
    refine ⟨t₀ ++ 0 :: t, new, ?_, ?_⟩
    · rw [if_pos hsingle, if_pos hstarts, hloop]
    · rw [List.filterMap_cons_none hfound, ← hmap]
  · have hfound : Element.found ⟨b.length + 1, w ++ e, false⟩ =
        some ((b ++ 0 :: w).length, e.rdropWhile cIsspace) := by
      rw [found_of_pos false (Nat.succ_ne_zero _) hw hword, if_neg Bool.false_ne_true,
        if_neg hsingle, hplace]
    have hroom : maxGroups - starts.length = maxGroups - (starts.length + 1) + 1 := by omega
    have hcount : (starts ++ [(b ++ 0 :: w).length]).length = starts.length + 1 :=
      List.length_append
    rw [List.filterMap_cons_some hfound, hroom, List.take_succ_cons, if_neg hsingle, ← hcount]
    by_cases hmore : (starts ++ [(b ++ 0 :: w).length]).length < maxGroups
    · obtain ⟨t, new, hloop, hmap⟩ := hnext _ hmore
      refine ⟨t₀ ++ 0 :: t, (b ++ 0 :: w).length :: new, ?_, ?_⟩
      · rw [if_pos hmore, hloop, List.append_assoc, List.singleton_append]
      · rw [List.map_cons, hstring, hmap]
    · refine ⟨t₀ ++ 0 :: (after.takeWhile cIsspace ++ after.dropWhile cIsspace),
        [(b ++ 0 :: w).length], ?_, ?_⟩
      · rw [if_neg hmore]
      · rw [List.map_singleton, hstring, Nat.sub_eq_zero_of_le (not_lt.1 hmore), List.take_zero]

/-- The turn on the last element. -/
theorem adds_last (hw : ∀ a ∈ w, cIsspace a = true) (hrest : rest.dropWhile cIsspace = rest)
    (hcomma : comma ∉ rest) (h0 : 0 ∉ rest) (hstarts : starts.length < maxGroups) :
    Adds b starts (elementsFrom (b.length + 1) ((w ++ rest).splitOn comma))
      (breakLoop (fuel + 1) (b ++ 0 :: w) rest starts) := by
  have hplace : (b ++ 0 :: w).length = b.length + 1 + w.length := by
    rw [List.length_append, List.length_cons]
    omega
  have hnot : comma ∉ w ++ rest := by
    simpa using ⟨comma_notMem_white hw, hcomma⟩
  obtain ⟨t, hloop, hstring⟩ := breakLoop_end starts hw hcomma h0 b
  have hfound := found_of_pos (n := b.length + 1) true (Nat.succ_ne_zero _) hw hrest
  refine ⟨t, [(b ++ 0 :: w).length], hloop, ?_⟩
  have hroom : maxGroups - starts.length = maxGroups - (starts.length + 1) + 1 := by omega
  rw [elementsFrom_last hnot, List.filterMap_cons_some hfound, hroom, List.take_succ_cons,
    List.map_singleton, hstring, hplace, List.filterMap_nil, List.take_nil]

/-- **The loop after its first turn**, on the text behind an end that has been set. -/
theorem breakLoop_adds (hw : ∀ a ∈ w, cIsspace a = true) (hrest : rest.dropWhile cIsspace = rest)
    (h0 : 0 ∉ rest) (hfuel : rest.length < fuel) (hstarts : starts.length < maxGroups) :
    Adds b starts (elementsFrom (b.length + 1) ((w ++ rest).splitOn comma))
      (breakLoop fuel (b ++ 0 :: w) rest starts) := by
  induction fuel generalizing b w rest starts with
  | zero => omega
  | succ fuel ih =>
    by_cases hcomma : comma ∈ rest
    · obtain ⟨e, after, rfl, he⟩ := List.eq_append_cons_of_mem hcomma
      have hword : e.dropWhile cIsspace = e := by
        rw [dropWhile_separator (by decide)] at hrest
        exact List.append_cancel_right hrest
      have hafter : after.takeWhile cIsspace ++ after.dropWhile cIsspace = after :=
        List.takeWhile_append_dropWhile
      have hshorter : (after.dropWhile cIsspace).length < fuel := by
        have hle := (List.dropWhile_sublist (l := after) cIsspace).length_le
        simp only [List.length_append, List.length_cons] at hfuel
        omega
      have h0after : 0 ∉ after.dropWhile cIsspace := fun h => h0 (List.mem_append_right _
        (List.mem_cons_of_mem _ ((List.dropWhile_sublist _).mem h)))
      refine adds_comma hw he hword (fun h => h0 (List.mem_append_left _ h)) hstarts
        fun b starts hroom => ?_
      have hnext := ih (b := b) (w := after.takeWhile cIsspace)
        (fun a ha => List.mem_takeWhile_imp ha) (List.dropWhile_idempotent cIsspace after) h0after
        hshorter hroom
      rwa [hafter] at hnext
    · exact adds_last hw hrest hcomma h0 hstarts

end Elements

section Text

variable {e after text : Bytes} {l : List (ℕ × Bytes)}

/-- The text of a single element. -/
theorem brokenText_last (h0 : 0 ∉ text) (hcomma : comma ∉ text) (h : brokenText text = some l) :
    l = ((elements text).filterMap Element.found).take maxGroups := by
  obtain ⟨⟨buf, starts⟩, hloop, rfl⟩ := Option.map_eq_some_iff.1 h
  rw [breakLoop_last hcomma] at hloop
  simp only [List.nil_append, List.length_nil, Nat.zero_add] at hloop
  have hfound : Element.found ⟨0, text, true⟩ =
      some (0, if space ∈ text then (text.rdropWhile (· ≠ space)).rdropWhile cIsspace
        else text) := by
    simp [Element.found]
  rw [elements, elementsFrom_last hcomma, List.filterMap_cons_some hfound]
  split_ifs at hloop ⊢ with hspace
  · obtain ⟨buf₀, hcut, hbuf⟩ := Option.map_eq_some_iff.1 hloop
    cases hbuf
    have htake : text.take (text.rdropWhile (· ≠ space)).length = text.rdropWhile (· ≠ space) :=
      (List.prefix_iff_eq_take.1 (List.rdropWhile_prefix _ text)).symm
    have hdrop : text.drop (text.rdropWhile (· ≠ space)).length =
        text.rtakeWhile (· ≠ space) := by
      have h : (text.rdropWhile (· ≠ space) ++ text.rtakeWhile (· ≠ space)).drop
          (text.rdropWhile (· ≠ space)).length = text.rtakeWhile (· ≠ space) := List.drop_left
      rwa [List.rdropWhile_append_rtakeWhile] at h
    rw [cutSpace_eq (List.rdropWhile_prefix _ _).length_le, htake, hdrop] at hcut
    split_ifs at hcut
    have hstring := stringAt_lastSpace h0 hspace []
    rw [List.nil_append, Option.some.inj hcut] at hstring
    exact congrArg (fun s => [(0, s)]) hstring
  · cases hloop
    have hstring := stringAt_append h0 [] [] rfl
    rw [List.nil_append, List.append_nil] at hstring
    exact congrArg (fun s => [(0, s)]) hstring

/-- The first element of a text with several: white space before the comma is cut off. -/
theorem cutSpace_first {buf₀ : Bytes} (h0 : 0 ∉ e) (hcut : cutSpace e e.length = some buf₀) :
    buf₀.length = e.length ∧ ∀ t, stringAt (buf₀ ++ 0 :: t) 0 = e.rdropWhile cIsspace := by
  rw [cutSpace_eq (le_refl _), List.take_length, List.drop_length, List.append_nil] at hcut
  split_ifs at hcut with hnil
  have hle : (e.rdropWhile cIsspace).length ≤ e.length := (List.rdropWhile_prefix _ _).length_le
  refine ⟨?_, fun t => ?_⟩
  · rw [← Option.some.inj hcut, List.length_append, List.length_replicate]
    omega
  · have hmem : 0 ∉ e.rdropWhile cIsspace := fun h => h0 (mem_of_mem_rdropWhile h)
    rw [← Option.some.inj hcut, List.append_assoc]
    exact stringAt_append hmem [] _ (head?_replicate_zero _ t)

/-- The text of several elements. -/
theorem brokenText_comma (h0 : 0 ∉ e ++ comma :: after) (he : comma ∉ e)
    (h : brokenText (e ++ comma :: after) = some l) :
    l = ((elements (e ++ comma :: after)).filterMap Element.found).take maxGroups := by
  obtain ⟨⟨buf, starts⟩, hloop, rfl⟩ := Option.map_eq_some_iff.1 h
  rw [breakLoop_comma he, List.nil_append] at hloop
  obtain ⟨buf₀, hcut, hloop⟩ := Option.bind_eq_some_iff.1 hloop
  obtain ⟨hlen, hstring⟩ := cutSpace_first (fun h => h0 (List.mem_append_left _ h)) hcut
  have hfuel : (after.dropWhile cIsspace).length < (e ++ comma :: after).length := by
    have hle := (List.dropWhile_sublist (l := after) cIsspace).length_le
    simp only [List.length_append, List.length_cons]
    omega
  have h0after : 0 ∉ after.dropWhile cIsspace := fun h => h0 (List.mem_append_right _
    (List.mem_cons_of_mem _ ((List.dropWhile_sublist _).mem h)))
  have hnext {starts : List ℕ} (hroom : starts.length < maxGroups) :=
    breakLoop_adds (b := buf₀) (w := after.takeWhile cIsspace)
      (fun a ha => List.mem_takeWhile_imp ha) (List.dropWhile_idempotent cIsspace after) h0after
      hfuel hroom
  simp only [List.takeWhile_append_dropWhile, hlen] at hnext
  rw [elements, elementsFrom_comma he, Nat.zero_add]
  by_cases hsingle : e.length = 1
  · obtain ⟨t, new, hnext, hmap⟩ := hnext (show ([] : List ℕ).length < maxGroups by decide)
    have hfound : Element.found ⟨0, e, false⟩ = none := by simp [Element.found, hsingle]
    simp only [if_pos hsingle, show ([] : List ℕ).length < maxGroups by decide, if_true,
      hnext] at hloop
    cases hloop
    rw [List.filterMap_cons_none hfound]
    exact hmap
  · obtain ⟨t, new, hnext, hmap⟩ := hnext (show [0].length < maxGroups by decide)
    have hfound : Element.found ⟨0, e, false⟩ = some (0, e.rdropWhile cIsspace) := by
      simp [Element.found, hsingle]
    simp only [if_neg hsingle, List.nil_append, List.length_nil,
      show [0].length < maxGroups by decide, if_true, hnext] at hloop
    cases hloop
    rw [List.filterMap_cons_some hfound]
    exact congrArg₂ List.cons (congrArg (Prod.mk 0) (hstring t)) hmap

/-- **Main result.** What `break_group_list` returns where it stays in its buffer. -/
theorem brokenText_eq (h0 : 0 ∉ text) (h : brokenText text = some l) :
    l = ((elements text).filterMap Element.found).take maxGroups := by
  by_cases hcomma : comma ∈ text
  · obtain ⟨e, after, rfl, he⟩ := List.eq_append_cons_of_mem hcomma
    exact brokenText_comma h0 he h
  · exact brokenText_last h0 hcomma h

end Text

/-! ### Plain elements -/

namespace Element

variable {el : Element}

/-- The walk back from the first element stays in the buffer. -/
def Safe (el : Element) : Prop :=
  el.start = 0 → (el.last = false → el.raw.rdropWhile cIsspace ≠ []) ∧
    (el.last = true → space ∈ el.raw →
      (el.raw.rdropWhile (· ≠ space)).rdropWhile cIsspace ≠ [])

/-- A cut at the last space is a cut of the white space at the end. -/
theorem lastSpace_eq_iff (e : Bytes) :
    (if space ∈ e then (e.rdropWhile (· ≠ space)).rdropWhile cIsspace else e) =
        e.rdropWhile cIsspace ↔
      (space ∉ e → e.rdropWhile cIsspace = e) ∧
        (space ∈ e → ∀ a ∈ e.rtakeWhile (· ≠ space), cIsspace a = true) := by
  by_cases hspace : space ∈ e
  · have hsplit := rdropWhile_append cIsspace (e.rdropWhile (· ≠ space)) (e.rtakeWhile (· ≠ space))
    rw [List.rdropWhile_append_rtakeWhile] at hsplit
    rw [if_pos hspace, hsplit]
    simp only [hspace, not_true_eq_false, false_imp_iff, true_and, true_imp_iff]
    rw [← List.rdropWhile_eq_nil_iff]
    constructor
    · intro h
      by_contra hne
      rw [if_neg hne] at h
      have hlen := congrArg List.length h
      have hle := (List.rdropWhile_prefix cIsspace (e.rdropWhile (· ≠ space))).length_le
      rw [List.length_append] at hlen
      exact hne (List.length_eq_zero_iff.1 (by omega))
    · intro h
      rw [if_pos h]
  · rw [if_neg hspace]
    simp only [hspace, not_false_eq_true, true_imp_iff, false_imp_iff, and_true]
    exact eq_comm

theorem word_length_le (el : Element) : el.word.length ≤ el.raw.length :=
  (List.dropWhile_sublist _).length_le

/-- White space before an element makes it shorter. -/
theorem word_length_lt (h : el.word ≠ el.raw) : el.word.length < el.raw.length :=
  lt_of_le_of_ne el.word_length_le fun hlen =>
    h ((List.dropWhile_sublist cIsspace).eq_of_length hlen)

/-- The element has no white space before it where the code would keep it. -/
theorem found_eq_group_iff (h : el.start = 0 → el.word = el.raw) :
    el.found = el.group ↔
      (el.last = false → el.word.length = 1 → el.word = [star]) ∧
      (el.last = false → el.word.rdropWhile cIsspace = [star] → el.word = [star]) ∧
      (el.last = true → el.word.rdropWhile cIsspace ≠ [star]) ∧
      (el.last = true → space ∉ el.word → el.word.rdropWhile cIsspace = el.word) ∧
      (el.last = true → space ∈ el.word → ∀ a ∈ el.word.rtakeWhile (· ≠ space),
        cIsspace a = true) := by
  have hword : (if el.start = 0 then el.raw else el.word) = el.word := by
    split_ifs with hstart
    · exact (h hstart).symm
    · rfl
  simp only [found, group, place, hword]
  cases el.last with
  | false =>
    have hone (hlen : el.word.length = 1) (hstar : el.word.rdropWhile cIsspace = [star]) :
        el.word = [star] :=
      ((List.rdropWhile_prefix cIsspace el.word).eq_of_length (by rw [hstar, hlen]; rfl)).symm.trans
        hstar
    simp only [Bool.false_eq_true, if_false, false_imp_iff, and_true, true_imp_iff]
    split_ifs with hlen hstar hstar
    · exact iff_of_true rfl ⟨fun _ => hone hlen hstar, hone hlen⟩
    · refine iff_of_false (by simp) fun h => hstar ?_
      rw [h.1 hlen]
      rfl
    · refine iff_of_false (by simp) fun h => hlen ?_
      rw [h.2 hstar]
      rfl
    · exact iff_of_true rfl ⟨fun h => absurd h hlen, fun h => absurd h hstar⟩
  | true =>
    have hcut := lastSpace_eq_iff el.word
    simp only [if_true, Bool.true_eq_false, false_imp_iff, true_and, true_imp_iff, ← hcut]
    split_ifs with _ hstar hstar <;> simp [hstar]

/-- **Plain elements** are those whose group is found, without a read before the buffer. -/
theorem plain_iff (el : Element) : el.Plain ↔ el.Safe ∧ el.found = el.group := by
  constructor
  · intro h
    refine ⟨fun hstart => ?_, (found_eq_group_iff fun hstart => (h.first hstart).1).2
      ⟨h.single, h.placeholder, h.notLast, h.ending, h.inner⟩⟩
    obtain ⟨hword, hne⟩ := h.first hstart
    -- the walk back stops at the first byte at the latest
    have hhead {s : Bytes} (hs : s <+: el.raw) (hnil : s ≠ []) : s.rdropWhile cIsspace ≠ [] := by
      obtain ⟨a, s, rfl⟩ := List.exists_cons_of_ne_nil hnil
      obtain ⟨t, ht⟩ := hs
      intro hwhite
      have ha := List.rdropWhile_eq_nil_iff.1 hwhite a List.mem_cons_self
      have hlen : (el.raw.dropWhile cIsspace).length < el.raw.length := by
        rw [← ht, List.cons_append, List.dropWhile_cons_of_pos ha, List.length_cons]
        exact Nat.lt_succ_of_le (List.dropWhile_sublist _).length_le
      exact absurd (congrArg List.length hword) hlen.ne
    refine ⟨fun hlast => hhead (List.prefix_refl _) (hne hlast), fun _ hspace => ?_⟩
    refine hhead (List.rdropWhile_prefix _ _) fun hnil => ?_
    exact absurd (List.rdropWhile_eq_nil_iff.1 hnil space hspace) (by decide)
  · rintro ⟨hsafe, hfound⟩
    have hword (hstart : el.start = 0) : el.word = el.raw := by
      by_contra hne
      have hlt := word_length_lt hne
      have hplace : el.start ≠ el.place := by
        rw [place]
        omega
      simp only [found, group, if_pos hstart] at hfound
      cases hlast : el.last with
      | true =>
        rw [hlast, if_pos rfl] at hfound
        split_ifs at hfound <;> simp [hplace] at hfound
      | false =>
        rw [hlast, if_neg Bool.false_ne_true] at hfound
        split_ifs at hfound with hlen
        · have hblank : el.word = [] := List.length_eq_zero_iff.1 (by omega)
          refine (hsafe hstart).1 hlast (List.rdropWhile_eq_nil_iff.2 ?_)
          exact List.dropWhile_eq_nil_iff.1 hblank
        simp [hplace] at hfound
    obtain ⟨hsingle, hplaceholder, hnotLast, hending, hinner⟩ :=
      (found_eq_group_iff hword).1 hfound
    refine ⟨fun hstart => ⟨hword hstart, fun hlast hnil => ?_⟩, hsingle, hplaceholder, hnotLast,
      hending, hinner⟩
    exact (hsafe hstart).1 hlast (by rw [hnil]; rfl)

end Element

/-! ### The list -/

theorem le_start_of_mem {parts : List Bytes} {n : ℕ} {el : Element}
    (h : el ∈ elementsFrom n parts) : n ≤ el.start := by
  induction parts generalizing n with
  | nil => cases h
  | cons raw rest ih =>
    rcases List.mem_cons.1 h with rfl | h
    · exact le_refl n
    · exact (by omega : n ≤ n + raw.length + 1).trans (ih h)

theorem elementsFrom_pairwise (n : ℕ) (parts : List Bytes) :
    (elementsFrom n parts).Pairwise fun el el' => el.start + el.raw.length < el'.start := by
  induction parts generalizing n with
  | nil => exact List.Pairwise.nil
  | cons raw rest ih => exact List.pairwise_cons.2 ⟨fun el h => le_start_of_mem h, ih _⟩

/-- A group stands within its element. -/
theorem Element.place_of_group {el : Element} {x : ℕ × Bytes}
    (h : el.found = some x ∨ el.group = some x) :
    el.start ≤ x.1 ∧ x.1 ≤ el.start + el.raw.length := by
  rcases h with h | h
  · simp only [found] at h
    split_ifs at h <;> cases h <;> simp
  · simp only [group, place] at h
    split_ifs at h
    cases h
    simp

/-- An element is known by the place of its group. -/
theorem elements_pairwise (text : Bytes) : (elements text).Pairwise fun el el' => ∀ x,
    (el.found = some x → el'.group ≠ some x) ∧ (el.group = some x → el'.found ≠ some x) := by
  refine (elementsFrom_pairwise 0 _).imp fun {el el'} hlt x => ?_
  refine ⟨fun h h' => ?_, fun h h' => ?_⟩
  · have hx := Element.place_of_group (.inl h)
    have hx' := Element.place_of_group (.inr h')
    omega
  · have hx := Element.place_of_group (.inr h)
    have hx' := Element.place_of_group (.inl h')
    omega

/-- The first element, on which the walk back depends. -/
theorem elements_cons (text : Bytes) :
    ∃ el rest, elements text = el :: rest ∧ (GroupSafe text ↔ el.Safe) ∧
      ∀ el ∈ rest, el.start ≠ 0 := by
  by_cases hcomma : comma ∈ text
  · obtain ⟨e, after, rfl, he⟩ := List.eq_append_cons_of_mem hcomma
    refine ⟨_, _, elementsFrom_comma he, ?_, fun el hel => ?_⟩
    · have hwhite : (∃ a ∈ e, cIsspace a = false) ↔ e.rdropWhile cIsspace ≠ [] := by
        simp [List.rdropWhile_eq_nil_iff]
      rw [GroupSafe, takeWhile_append_sep he, hwhite]
      exact ⟨fun h _ => ⟨fun _ => h.1 hcomma, fun hlast => absurd hlast Bool.false_ne_true⟩,
        fun h => ⟨fun _ => (h rfl).1 rfl, fun hno => absurd hcomma hno⟩⟩
    · have hle := le_start_of_mem hel
      omega
  · refine ⟨_, _, elementsFrom_last hcomma, ?_, fun el hel => by cases hel⟩
    have hwhite : (∃ a ∈ text.reverse.dropWhile (· ≠ space), cIsspace a = false) ↔
        (text.rdropWhile (· ≠ space)).rdropWhile cIsspace ≠ [] := by
      simp [List.rdropWhile]
    rw [GroupSafe, hwhite]
    exact ⟨fun h _ => ⟨fun hlast => absurd hlast.symm Bool.false_ne_true, fun _ => h.2 hcomma⟩,
      fun h => ⟨fun hyes => absurd hyes hcomma, fun _ => (h rfl).2 rfl⟩⟩

/-- **Main result.** `break_group_list` returns the groups of its text, in order and each where it
stands in the text, exactly if the elements it reads are plain. -/
theorem brokenText_iff {text : Bytes} (h0 : 0 ∉ text) :
    brokenText text = some (groups text) ↔ PlainList text := by
  obtain ⟨first, rest, hfirst, hsafe, hrest⟩ := elements_cons text
  have hsome : (brokenText text).isSome ↔ GroupSafe text := by
    rw [← breakGroupList_isSome, breakGroupList_eq, Option.isSome_map]
  constructor
  · intro h pre el post hel hlen
    have hsafe := hsafe.1 (hsome.1 (by rw [h]; rfl))
    refine el.plain_iff.2 ⟨fun hstart => ?_, ?_⟩
    · have hmem : el ∈ first :: rest := by
        rw [← hfirst, hel]
        simp
      rcases List.mem_cons.1 hmem with rfl | hmem
      · exact hsafe hstart
      · exact absurd hstart (hrest el hmem)
    · exact (filterMap_take_eq_iff (elements_pairwise text)).1 (brokenText_eq h0 h).symm pre el
        post hel hlen
  · intro h
    have hplain : first.Plain := h [] first rest hfirst (by decide)
    obtain ⟨l, hl⟩ := Option.isSome_iff_exists.1
      (hsome.2 (hsafe.2 (first.plain_iff.1 hplain).1))
    rw [hl, brokenText_eq h0 hl]
    exact congrArg some (filterMap_take_congr fun pre el post hel hlen =>
      (el.plain_iff.1 (h pre el post hel hlen)).2)

/-- The list `staff, wheel ,*,root` is plain. -/
theorem brokenText_iff_sample :
    0 ∉ ascii "staff, wheel ,*,root" ∧ PlainList (ascii "staff, wheel ,*,root") :=
  ⟨by decide, (brokenText_iff (by decide)).1 (by decide)⟩

/-- The group `a` of the list `a,b` is lost. -/
theorem not_brokenText_single :
    ¬ ∀ text : Bytes, 0 ∉ text → breakGroupList text = some ((groups text).map Prod.snd) := by
  intro h
  exact absurd (h (ascii "a,b") (by decide)) (by decide)

end Passwd

end Ocserv
