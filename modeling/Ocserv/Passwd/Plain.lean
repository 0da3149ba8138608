import Mathlib.Data.List.DropRight
import Ocserv.Passwd.Ocpasswd

/-!
# The plain authentication backend

`src/auth/plain.c`: `read_auth_pass` with `break_group_list`, `plain_auth_init` and
`plain_auth_pass`.  The result `none` is an access outside of a buffer or through `NULL`.

* `breakGroupList_isSome` : the group lists that are broken up without leaving the buffer.
* `readAuthPass_eq` : the lines of a file of records, if `fgets` can read them whole.
* `readLoop_find` : what the loop over these lines takes from the first record of its user.
-/

namespace Ocserv

namespace Passwd

open Lines
open SecMod (Bytes strlcpy maxUsernameSize errAuthFail errAuthContinue)
open Worker (cIsspace cString)

def comma : UInt8 := 44
def space : UInt8 := 32

def maxGroups : ℕ := 32
def maxCpassSize : ℕ := 128
def maxPasswordTries : ℕ := 3

/-- `sizeof(line)`. -/
def lineSize : ℕ := 512

/-- `pass_msg`: `pass_msg_first` or `pass_msg_failed`. -/
inductive PassMsg where
  | first
  | failed
  deriving DecidableEq, Repr

/-- `plain_ctx_st`. -/
structure PlainCtx where
  username : Bytes
  cpass : Bytes
  groupnames : List Bytes
  passMsg : PassMsg
  retries : ℕ
  deriving DecidableEq, Repr

/-- What the calls of `fgets` for this many bytes read one after the other; the first one still
has `room`. -/
def fgetsFrom (size : ℕ) : ℕ → Bytes → List Bytes
  | _, [] => []
  | room, a :: s =>
    if a = newline ∨ room ≤ 1 then [a] :: fgetsFrom size size s
    else
      match fgetsFrom size (room - 1) s with
      | [] => [[a]]
      | l :: ls => (a :: l) :: ls

/-- `fgets(line, size, fp)` until the end of the file. -/
def fgetsAll (size : ℕ) (content : Bytes) : List Bytes :=
  fgetsFrom (size - 1) (size - 1) content

/-- `strtok_r` for `":"`: the token and what is left. -/
def strtok (s : Bytes) : Option (Bytes × Bytes) :=
  match s.dropWhile (· = colon) with
  | [] => none
  | s => some (s.takeWhile (· ≠ colon), (s.dropWhile (· ≠ colon)).drop 1)

/-- `strrchr`, on the bytes before the terminator. -/
def strrchr (c : UInt8) (s : Bytes) : Option ℕ :=
  (s.reverse.findIdx? (· = c)).map (s.length - 1 - ·)

/-- The walk back over white space from the byte before `n`; `none` where it leaves the buffer. -/
def cutSpace (buf : Bytes) : ℕ → Option Bytes
  | 0 => none
  | n + 1 => if cIsspace (buf.getD n 0) then cutSpace (buf.set n 0) n else some buf

/-- The loop of `break_group_list`: the bytes before `p`, those from `p` on and where the elements
start.  Every turn takes a byte of `rest`. -/
def breakLoop : ℕ → Bytes → Bytes → List ℕ → Option (Bytes × List ℕ)
  | 0, _, _, _ => none
  | fuel + 1, before, rest, starts =>
    let starts := starts ++ [before.length]
    let elem := rest.takeWhile (· ≠ comma)
    match rest.dropWhile (· ≠ comma) with
    | _ :: after =>
      match cutSpace (before ++ elem) (before ++ elem).length with
      | none => none
      | some buf =>
        let starts := if elem.length = 1 then starts.dropLast else starts
        let buf := buf ++ 0 :: after.takeWhile (fun c => cIsspace c)
        let rest := after.dropWhile fun c => cIsspace c
        if starts.length < maxGroups then breakLoop fuel buf rest starts
        else some (buf ++ rest, starts)
    | [] =>
      match strrchr space elem with
      | none => some (before ++ elem, starts)
      | some k =>
        (cutSpace (before ++ elem) (before.length + k + 1)).map fun buf => (buf, starts)

/-- `break_group_list`. -/
def breakGroupList (text : Bytes) : Option (List Bytes) :=
  (breakLoop (text.length + 1) [] text []).map fun (buf, starts) =>
    starts.map fun n => (buf.drop n).takeWhile (· ≠ 0)

/-- The end of the line is cut off: a newline, then a carriage return. -/
def chomp (s : Bytes) : Bytes :=
  let s := if s.getLast? = some newline then s.dropLast else s
  if s.getLast? = some carriage then s.dropLast else s

/-- A turn of the loop of `read_auth_pass`; the flag is `goto exit`. -/
def readLine (ctx : PlainCtx) (line : Bytes) : Option (PlainCtx × Bool) :=
  let s := line.takeWhile (· ≠ 0)
  if s.length ≤ 4 then some (ctx, false)
  else
    match strtok (chomp s) with
    | none => some (ctx, false)
    | some (p, sp) =>
      if ctx.username = p then
        match strtok sp with
        | none => some (ctx, false)
        | some (p, sp) =>
          (breakGroupList p).map fun groupnames =>
            match strtok sp with
            | none => ({ ctx with groupnames }, false)
            | some (p, _) => ({ ctx with groupnames, cpass := strlcpy maxCpassSize p }, true)
      else some (ctx, false)

/-- The loop of `read_auth_pass`. -/
def readLoop : List Bytes → PlainCtx → Option PlainCtx
  | [], ctx => some ctx
  | line :: lines, ctx =>
    match readLine ctx line with
    | none => none
    | some (ctx, true) => some ctx
    | some (ctx, false) => readLoop lines ctx

/-- `read_auth_pass`, on a file that could be opened. -/
def readAuthPass (content : Bytes) (ctx : PlainCtx) : Option PlainCtx :=
  readLoop (fgetsAll (lineSize - 1) content) ctx

/-- `plain_auth_init`: the result, and the context where it is `ERR_AUTH_CONTINUE`. -/
def plainAuthInit (file : Option Bytes) (username : Bytes) :
    Option (SecMod.InitRet × Option PlainCtx) :=
  if username = [] then some (.authFail, none)
  else
    match file with
    | none => some (.authFail, none)
    | some content =>
      (readAuthPass content ⟨strlcpy maxUsernameSize username, [], [], .first, 0⟩).map fun ctx =>
        (.askMore, some ctx)

/-- `plain_auth_pass`. -/
def plainAuthPass (crypt : Crypt) (ctx : PlainCtx) (pass : Bytes) : Option (ℤ × PlainCtx) :=
  let failed :=
    if ctx.retries < maxPasswordTries - 1 then
      (errAuthContinue, { ctx with retries := ctx.retries + 1, passMsg := .failed })
    else (errAuthFail, { ctx with retries := ctx.retries + 1 })
  if ctx.cpass = [] then some failed
  else
    -- `strcmp` reads the result of `crypt`
    match crypt pass ctx.cpass with
    | none => none
    | some result => if result = ctx.cpass then some (0, ctx) else some failed

/-! ### Lines -/

theorem fgetsFrom_line {size room : ℕ} {t : Bytes} (hn : newline ∉ t) (hlen : t.length < room)
    (s : Bytes) :
    fgetsFrom size room (t ++ newline :: s) = (t ++ [newline]) :: fgetsFrom size size s := by
  induction t generalizing room with
  | nil => simp [fgetsFrom]
  | cons a t ih =>
    have ha : a ≠ newline := fun h => hn (h ▸ List.mem_cons_self)
    simp only [List.length_cons] at hlen
    have ih := ih (fun h => hn (List.mem_cons_of_mem _ h)) (show t.length < room - 1 by omega)
    simp [fgetsFrom, ha, ih, show ¬ room ≤ 1 by omega]

theorem fgetsFrom_newline (size room : ℕ) (s : Bytes) :
    fgetsFrom size room (newline :: s) = [newline] :: fgetsFrom size size s := by
  simp [fgetsFrom]

/-- A line that fills the buffer is read without the newline after it. -/
theorem fgetsFrom_full {size room : ℕ} {t : Bytes} (hn : newline ∉ t) (hne : t ≠ [])
    (hlen : t.length = room) (s : Bytes) :
    fgetsFrom size room (t ++ s) = t :: fgetsFrom size size s := by
  induction t generalizing room with
  | nil => exact absurd rfl hne
  | cons a t ih =>
    have ha : a ≠ newline := fun h => hn (h ▸ List.mem_cons_self)
    simp only [List.length_cons] at hlen
    by_cases ht : t = []
    · subst ht
      simp [fgetsFrom, ← hlen]
    · have hpos := List.length_pos_iff.2 ht
      have ih := ih (fun h => hn (List.mem_cons_of_mem _ h)) ht (show t.length = room - 1 by omega)
      simp [fgetsFrom, ha, ih, show ¬ room ≤ 1 by omega]

theorem fgetsFrom_last {size room : ℕ} {t : Bytes} (hn : newline ∉ t) (hne : t ≠ [])
    (hlen : t.length ≤ room) : fgetsFrom size room t = [t] := by
  induction t generalizing room with
  | nil => exact absurd rfl hne
  | cons a t ih =>
    have ha : a ≠ newline := fun h => hn (h ▸ List.mem_cons_self)
    simp only [List.length_cons] at hlen
    by_cases ht : t = []
    · subst ht
      by_cases hroom : room ≤ 1
      · simp [fgetsFrom, hroom]
      · simp [fgetsFrom, ha, hroom]
    · have hpos := List.length_pos_iff.2 ht
      have ih := ih (fun h => hn (List.mem_cons_of_mem _ h)) ht (show t.length ≤ room - 1 by omega)
      simp [fgetsFrom, ha, ih, show ¬ room ≤ 1 by omega]

/-- What `fgets` reads of a line. -/
def chunks (size : ℕ) (l : Bytes × Bool) : List Bytes :=
  if l.2 ∧ l.1.length = size then [l.1, [newline]] else [ended newline l]

/-- The lines that `fgets` reads, as long as none is longer than its buffer. -/
theorem fgetsFrom_joined {size : ℕ} {ls : List (Bytes × Bool)} (h : Proper newline ls)
    (hlen : ∀ l ∈ ls, l.1.length ≤ size) {s : Bytes} (hs : s ≠ [] → ∀ l ∈ ls, l.2 = true) :
    fgetsFrom size size (joined newline ls ++ s) =
      ls.flatMap (chunks size) ++ fgetsFrom size size s := by
  induction ls with
  | nil => rfl
  | cons l ls ih =>
    obtain ⟨hended, hrest⟩ := List.pairwise_cons.1 h.ended
    have hproper : Proper newline ls :=
      ⟨fun x hx => h.notMem x (List.mem_cons_of_mem _ hx),
        fun x hx => h.ne_nil x (List.mem_cons_of_mem _ hx), hrest⟩
    have ih := ih hproper (fun x hx => hlen x (List.mem_cons_of_mem _ hx))
      fun hne x hx => hs hne x (List.mem_cons_of_mem _ hx)
    obtain ⟨t, b⟩ := l
    have hnot : newline ∉ t := h.notMem (t, b) List.mem_cons_self
    have hne : t ≠ [] := h.ne_nil (t, b) List.mem_cons_self
    have hle : t.length ≤ size := hlen (t, b) List.mem_cons_self
    cases b with
    | true =>
      have htext : joined newline ((t, true) :: ls) ++ s =
          t ++ newline :: (joined newline ls ++ s) := by
        simp [joined, ended]
      rw [htext, List.flatMap_cons, List.append_assoc, ← ih]
      by_cases hfull : t.length = size
      · rw [fgetsFrom_full hnot hne hfull, fgetsFrom_newline]
        simp [chunks, hfull]
      · rw [fgetsFrom_line hnot (by omega)]
        simp [chunks, hfull, ended]
    | false =>
      -- nothing follows a line that is not ended
      obtain rfl : s = [] := by
        by_contra hmore
        exact Bool.false_ne_true (hs hmore _ List.mem_cons_self)
      cases ls with
      | nil =>
        have htext : joined newline [(t, false)] ++ [] = t := by simp [joined, ended]
        rw [htext, fgetsFrom_last hnot hne hle]
        simp [chunks, ended, fgetsFrom]
      | cons x ls => exact absurd (hended x List.mem_cons_self) Bool.false_ne_true

/-! ### Group lists -/

/-- The white space before a place becomes zero. -/
theorem cutSpace_eq {buf : Bytes} {n : ℕ} (hn : n ≤ buf.length) :
    cutSpace buf n =
      if (buf.take n).rdropWhile cIsspace = [] then none
      else some ((buf.take n).rdropWhile cIsspace ++
        (List.replicate (n - ((buf.take n).rdropWhile cIsspace).length) 0 ++ buf.drop n)) := by
  induction n generalizing buf with
  | zero => simp [cutSpace]
  | succ n ih =>
    have hget : buf.getD n 0 = buf[n] := by
      rw [List.getD_eq_getElem?_getD, List.getElem?_eq_getElem hn, Option.getD_some]
    rw [cutSpace, hget, ← List.take_append_getElem hn]
    split_ifs with hspace hnil hnil
    · rw [ih (by rw [List.length_set]; omega), List.take_set_of_le (le_refl n)]
      rw [List.rdropWhile_concat_pos _ _ _ hspace] at hnil
      rw [if_pos hnil]
    · rw [ih (by rw [List.length_set]; omega), List.take_set_of_le (le_refl n)]
      rw [List.rdropWhile_concat_pos _ _ _ hspace] at hnil ⊢
      have hle : ((buf.take n).rdropWhile cIsspace).length ≤ n :=
        (List.rdropWhile_prefix _ _).length_le.trans (List.length_take_le n buf)
      have hdrop : (buf.set n 0).drop n = 0 :: buf.drop (n + 1) := by
        rw [List.drop_set, if_neg (lt_irrefl n), List.drop_eq_getElem_cons hn, Nat.sub_self,
          List.set_cons_zero]
      rw [if_neg hnil, hdrop, Nat.sub_add_comm hle, List.replicate_succ', List.append_assoc,
        List.singleton_append]
    · rw [List.rdropWhile_concat_neg _ _ _ hspace] at hnil
      exact absurd hnil (List.append_ne_nil_of_right_ne_nil _ (List.cons_ne_nil _ _))
    · rw [List.rdropWhile_concat_neg _ _ _ hspace, List.take_append_getElem hn,
        List.length_take_of_le hn, Nat.sub_self, List.replicate_zero, List.nil_append,
        List.take_append_drop]

/-- The walk back ends at the last byte that is no white space. -/
theorem cutSpace_isSome {buf : Bytes} {n : ℕ} (hn : n ≤ buf.length) :
    (cutSpace buf n).isSome ↔ ∃ a ∈ buf.take n, cIsspace a = false := by
  have hnil : (buf.take n).rdropWhile cIsspace = [] ↔ ¬ ∃ a ∈ buf.take n, cIsspace a = false := by
    simp [List.rdropWhile_eq_nil_iff]
  rw [cutSpace_eq hn]
  split_ifs with h
  · exact iff_of_false Bool.false_ne_true (hnil.1 h)
  · exact iff_of_true rfl (not_not.1 (mt hnil.2 h))

/-- The last element is cut off at its last space. -/
theorem take_strrchr {s : Bytes} {k : ℕ} (h : strrchr space s = some k) :
    k < s.length ∧ s.take (k + 1) = (s.reverse.dropWhile (· ≠ space)).reverse := by
  obtain ⟨j, hj, rfl⟩ := Option.map_eq_some_iff.1 h
  obtain ⟨hlt, hidx⟩ := List.findIdx?_eq_some_iff_findIdx_eq.1 hj
  have hdrop : s.reverse.dropWhile (· ≠ space) = s.reverse.drop j := by
    rw [List.dropWhile_eq_drop_findIdx_not, ← hidx]
    simp
  rw [List.length_reverse] at hlt
  refine ⟨by omega, ?_⟩
  rw [hdrop, List.drop_reverse, List.reverse_reverse]
  congr 1
  omega

theorem strrchr_isSome (c : UInt8) (s : Bytes) : (strrchr c s).isSome ↔ c ∈ s := by
  simp [strrchr, List.findIdx?_isSome]

/-- The walk back over white space ends in the buffer: at a byte of the first element, or at an
end that an earlier turn has set. -/
def GroupSafe (text : Bytes) : Prop :=
  (comma ∈ text → ∃ a ∈ text.takeWhile (· ≠ comma), cIsspace a = false) ∧
    (comma ∉ text → space ∈ text → ∃ a ∈ text.reverse.dropWhile (· ≠ space), cIsspace a = false)

instance : DecidablePred GroupSafe := fun text =>
  inferInstanceAs (Decidable (
    (comma ∈ text → ∃ a ∈ text.takeWhile (· ≠ comma), cIsspace a = false) ∧
      (comma ∉ text → space ∈ text →
        ∃ a ∈ text.reverse.dropWhile (· ≠ space), cIsspace a = false)))

/-- After the first turn there is a terminator before the element. -/
theorem breakLoop_isSome {fuel : ℕ} {before rest : Bytes} {starts : List ℕ} (h0 : 0 ∈ before)
    (hfuel : rest.length < fuel) : (breakLoop fuel before rest starts).isSome := by
  induction fuel generalizing before rest starts with
  | zero => omega
  | succ fuel ih =>
    have hcut : ∀ (s : Bytes) (n : ℕ), before.length ≤ n → n ≤ (before ++ s).length →
        (cutSpace (before ++ s) n).isSome := by
      intro s n hlow hhigh
      refine (cutSpace_isSome hhigh).2 ⟨0, ?_, by decide⟩
      rw [List.take_append, List.mem_append]
      exact .inl (by rwa [List.take_of_length_le hlow])
    have hlen : (rest.takeWhile (· ≠ comma)).length + (rest.dropWhile (· ≠ comma)).length =
        rest.length := by
      rw [← List.length_append, List.takeWhile_append_dropWhile]
    rw [breakLoop]
    cases hdrop : rest.dropWhile (· ≠ comma) with
    | nil =>
      cases hlast : strrchr space (rest.takeWhile (· ≠ comma)) with
      | none => simp
      | some k =>
        have hk := (take_strrchr hlast).1
        have hsome := hcut (rest.takeWhile (· ≠ comma)) (before.length + k + 1) (by omega)
          (by rw [List.length_append]; omega)
        simp only [Option.isSome_map]
        exact hsome
    | cons c after =>
      have hsome := hcut (rest.takeWhile (· ≠ comma)) _ (by simp) (le_refl _)
      obtain ⟨buf, hbuf⟩ := Option.isSome_iff_exists.1 hsome
      have hafter : (after.dropWhile fun c => cIsspace c).length < fuel := by
        have hle := (List.dropWhile_sublist (l := after) fun c => cIsspace c).length_le
        rw [hdrop, List.length_cons] at hlen
        omega
      simp only [hbuf]
      split_ifs
      · exact ih (by simp) hafter
      · rfl
      · exact ih (by simp) hafter
      · rfl

/-- **Main result.** The group lists that are broken up without a read before the buffer. -/
theorem breakGroupList_isSome (text : Bytes) : (breakGroupList text).isSome ↔ GroupSafe text := by
  have hlen : (text.takeWhile (· ≠ comma)).length + (text.dropWhile (· ≠ comma)).length =
      text.length := by
    rw [← List.length_append, List.takeWhile_append_dropWhile]
  rw [breakGroupList, Option.isSome_map, breakLoop]
  by_cases hcomma : comma ∈ text
  · have hne : text.dropWhile (· ≠ comma) ≠ [] := fun hnil =>
      absurd (List.dropWhile_eq_nil_iff.1 hnil comma hcomma) (by simp)
    obtain ⟨c, after, hdrop⟩ := List.exists_cons_of_ne_nil hne
    have hcut := cutSpace_isSome (le_refl (text.takeWhile (· ≠ comma)).length)
    rw [List.take_length] at hcut
    have hsafe : GroupSafe text ↔ ∃ a ∈ text.takeWhile (· ≠ comma), cIsspace a = false :=
      ⟨fun h => h.1 hcomma, fun h => ⟨fun _ => h, fun hno => absurd hcomma hno⟩⟩
    rw [hsafe, ← hcut]
    simp only [hdrop, List.nil_append]
    cases hbuf : cutSpace (text.takeWhile (· ≠ comma)) (text.takeWhile (· ≠ comma)).length with
    | none => simp
    | some buf =>
      have hafter : (after.dropWhile fun c => cIsspace c).length < text.length := by
        have hle := (List.dropWhile_sublist (l := after) fun c => cIsspace c).length_le
        rw [hdrop, List.length_cons] at hlen
        omega
      simp only [Option.isSome_some, iff_true]
      split_ifs
      · exact breakLoop_isSome (by simp) hafter
      · rfl
      · exact breakLoop_isSome (by simp) hafter
      · rfl
  · have hsafe : GroupSafe text ↔
        (space ∈ text → ∃ a ∈ text.reverse.dropWhile (· ≠ space), cIsspace a = false) :=
      ⟨fun h => h.2 hcomma, fun h => ⟨fun hyes => absurd hyes hcomma, fun _ => h⟩⟩
    rw [hsafe]
    simp only [dropWhile_of_notMem hcomma, takeWhile_of_notMem hcomma, List.nil_append,
      List.length_nil, Nat.zero_add]
    cases hlast : strrchr space text with
    | none =>
      have hspace : space ∉ text := by
        rw [← strrchr_isSome, hlast]
        simp
      simp [hspace]
    | some k =>
      have hspace : space ∈ text := by
        rw [← strrchr_isSome, hlast]
        rfl
      obtain ⟨hk, htake⟩ := take_strrchr hlast
      simp only [Option.isSome_map]
      rw [cutSpace_isSome hk, htake]
      simp [hspace]

/-! ### Records -/

variable {r : Record} {rs : List (Record × Bool)} {ctx : PlainCtx} {u : Bytes}

theorem strtok_append {t : Bytes} (hc : colon ∉ t) (hne : t ≠ []) (s : Bytes) :
    strtok (t ++ colon :: s) = some (t, s) := by
  obtain ⟨a, t', rfl⟩ := List.exists_cons_of_ne_nil hne
  have ha : a ≠ colon := fun h => hc (h ▸ List.mem_cons_self)
  have hskip : (a :: t' ++ colon :: s).dropWhile (· = colon) = a :: t' ++ colon :: s := by
    simp [ha]
  rw [strtok, hskip]
  simp only [List.cons_append] at *
  rw [← List.cons_append, takeWhile_append_sep hc, dropWhile_append_sep hc]
  rfl

theorem strtok_of_notMem {t : Bytes} (hc : colon ∉ t) (hne : t ≠ []) :
    strtok t = some (t, []) := by
  obtain ⟨a, t', rfl⟩ := List.exists_cons_of_ne_nil hne
  have ha : a ≠ colon := fun h => hc (h ▸ List.mem_cons_self)
  have hskip : (a :: t').dropWhile (· = colon) = a :: t' := by simp [ha]
  rw [strtok, hskip]
  simp only [takeWhile_of_notMem hc, dropWhile_of_notMem hc, List.drop_nil]

theorem Record.WF.getLast?_text (h : r.WF) :
    r.text.getLast? ≠ some newline ∧ r.text.getLast? ≠ some carriage := by
  have hlast : r.text.getLast? = (colon :: r.hash).getLast? := by
    have hsplit : r.text = (r.user ++ [colon] ++ r.group) ++ (colon :: r.hash) := by
      simp [text]
    rw [hsplit, List.getLast?_append_of_ne_nil _ (List.cons_ne_nil _ _)]
  have hmem : ∀ a, a ≠ colon → a ∉ r.hash → r.text.getLast? ≠ some a := by
    intro a hne ha heq
    rw [hlast] at heq
    rcases List.mem_cons.1 (List.mem_of_getLast? heq) with hc | hc
    · exact hne hc
    · exact ha hc
  exact ⟨hmem _ (by decide) h.hash.2.1, hmem _ (by decide) h.noReturn⟩

theorem Record.WF.chomp_line (h : r.WF) (b : Bool) : chomp (r.line b) = r.text := by
  obtain ⟨hn, hr⟩ := h.getLast?_text
  cases b with
  | true =>
    have hline : r.line true = r.text ++ [newline] := by simp [Record.line, ended]
    rw [chomp, hline]
    simp [hr]
  | false =>
    have hline : r.line false = r.text := by simp [Record.line, ended]
    rw [chomp, hline]
    simp [hn, hr]

theorem Record.WF.zero_notMem_line (h : r.WF) (b : Bool) : 0 ∉ r.line b := by
  have hcolon : (0 : UInt8) ≠ colon := by decide
  have hnewline : (0 : UInt8) ≠ newline := by decide
  rw [r.line_eq]
  cases b <;>
    simp [h.user.2.2, h.group.2.2, h.hash.2.2, hcolon, hnewline]

/-- What the backend takes from the record of its user. -/
def PlainCtx.read (ctx : PlainCtx) (r : Record) : Option PlainCtx :=
  (breakGroupList r.group).map fun groupnames =>
    { ctx with groupnames, cpass := strlcpy maxCpassSize r.hash }

/-- A turn of the loop, on the line of a record. -/
theorem Record.WF.readLine_line (h : r.WF) (hpass : ctx.cpass = []) (b : Bool) :
    readLine ctx (r.line b) =
      if (r.line b).length ≤ 4 ∨ ctx.username ≠ r.user then some (ctx, false)
      else (ctx.read r).map fun ctx => (ctx, decide (r.hash ≠ [])) := by
  have hzero : (r.line b).takeWhile (· ≠ 0) = r.line b := takeWhile_of_notMem (h.zero_notMem_line b)
  have htext : r.text = r.user ++ colon :: (r.group ++ colon :: r.hash) := by simp [text]
  rw [readLine, hzero, h.chomp_line, htext]
  simp only [strtok_append h.user.1 h.user_ne, strtok_append h.group.1 h.group_ne]
  by_cases hlen : (r.line b).length ≤ 4
  · simp [hlen]
  by_cases huser : ctx.username = r.user
  · simp only [hlen, huser, if_true, if_false, ne_eq, not_true_eq_false, or_false]
    obtain ⟨username, cpass, groupnames, passMsg, retries⟩ := ctx
    cases hpass
    cases huser
    rw [PlainCtx.read, Option.map_map]
    congr 1
    funext gs
    by_cases hhash : r.hash = []
    · simp [hhash, strtok, strlcpy]
    · simp [hhash, strtok_of_notMem h.hash.1 hhash]
  · simp [hlen, huser]

theorem readLoop_cons {line : Bytes} {lines : List Bytes} :
    readLoop (line :: lines) ctx =
      (readLine ctx line).bind fun x => if x.2 then some x.1 else readLoop lines x.1 := by
  rw [readLoop]
  rcases readLine ctx line with _ | ⟨ctx', _ | _⟩
  · rfl
  · rfl
  · rfl

/-- What `fgets` reads of a line leads the loop to the same place as the line. -/
theorem Record.WF.readLoop_chunks (h : r.WF) (hpass : ctx.cpass = []) (b : Bool)
    (lines : List Bytes) :
    readLoop (chunks (lineSize - 2) (r.text, b) ++ lines) ctx =
      readLoop (r.line b :: lines) ctx := by
  rw [chunks]
  split_ifs with hfull
  · obtain ⟨hb, hfull⟩ := hfull
    simp only at hb hfull
    have hskip : ∀ ctx : PlainCtx, readLine ctx [newline] = some (ctx, false) := fun _ => rfl
    have hline : r.line false = r.text := by simp [Record.line, ended]
    have htrue : readLine ctx (r.line b) = readLine ctx (r.line false) := by
      rw [h.readLine_line hpass, h.readLine_line hpass]
      have hlong : ∀ b, ¬ (r.line b).length ≤ 4 := by
        intro b
        simp only [Record.line, ended, List.length_append, hfull, lineSize]
        omega
      simp [hlong]
    rw [List.cons_append, List.singleton_append, readLoop_cons, readLoop_cons, htrue, hline]
    congr 1
  · rfl

theorem PlainCtx.cpass_read {ctx' : PlainCtx} (h : ctx.read r = some ctx') :
    ctx'.cpass = strlcpy maxCpassSize r.hash := by
  obtain ⟨gs, -, rfl⟩ := Option.map_eq_some_iff.1 h
  rfl

theorem readLoop_flatMap (hwf : ∀ r ∈ rs, r.1.WF) (hpass : ctx.cpass = []) (lines : List Bytes) :
    readLoop ((rs.flatMap fun r => chunks (lineSize - 2) (r.1.text, r.2)) ++ lines) ctx =
      readLoop ((rs.map fun r => r.1.line r.2) ++ lines) ctx := by
  induction rs generalizing ctx with
  | nil => rfl
  | cons r rs ih =>
    have hr := hwf r List.mem_cons_self
    have ih : ∀ ctx : PlainCtx, ctx.cpass = [] → _ := fun ctx hpass =>
      @ih ctx (fun x hx => hwf x (List.mem_cons_of_mem _ hx)) hpass
    rw [List.flatMap_cons, List.append_assoc, hr.readLoop_chunks hpass, List.map_cons,
      List.cons_append, readLoop_cons, readLoop_cons, hr.readLine_line hpass]
    split_ifs with hskip
    · exact ih ctx hpass
    · cases hread : ctx.read r.1 with
      | none => rfl
      | some ctx' =>
        by_cases hhash : r.1.hash = []
        · have hpass' : ctx'.cpass = [] := by
            rw [PlainCtx.cpass_read hread, hhash]
            rfl
          simpa [hhash] using ih ctx' hpass'
        · simp [hhash]

/-- **Main result.** The backend reads the lines of a file of records, the first ones of which
have room in its buffer. -/
theorem readAuthPass_eq {content : Bytes} (more : List (Record × Bool))
    (h : IsFile (some content) (rs ++ more)) (hlen : ∀ r ∈ rs, r.1.text.length ≤ lineSize - 2)
    (hpass : ctx.cpass = []) : ∃ lines, (more = [] → lines = []) ∧
      readAuthPass content ctx = readLoop ((rs.map fun r => r.1.line r.2) ++ lines) ctx := by
  have hlen' : ∀ l ∈ entries rs, l.1.length ≤ lineSize - 2 := by
    intro l hl
    obtain ⟨r, hr, rfl⟩ := List.mem_map.1 hl
    exact hlen r hr
  have hcontent : content = joined newline (entries rs) ++ joined newline (entries more) := by
    rw [show content = _ from h.eq, entries, List.map_append, joined, List.flatMap_append]
    rfl
  have hproper : Proper newline (entries rs) := by
    have hall := h.proper
    rw [entries, List.map_append] at hall
    exact ⟨fun l hl => hall.notMem l (List.mem_append_left _ hl),
      fun l hl => hall.ne_nil l (List.mem_append_left _ hl),
      (List.pairwise_append.1 hall.ended).1⟩
  have hended : joined newline (entries more) ≠ [] → ∀ l ∈ entries rs, l.2 = true := by
    intro hne l hl
    obtain ⟨r, hr, rfl⟩ := List.mem_map.1 hl
    obtain ⟨x, more, rfl⟩ := List.exists_cons_of_ne_nil (show more ≠ [] by
      rintro rfl
      exact hne rfl)
    exact (List.pairwise_append.1 h.ended).2.2 r hr x List.mem_cons_self
  refine ⟨fgetsFrom (lineSize - 2) (lineSize - 2) (joined newline (entries more)), ?_, ?_⟩
  · rintro rfl
    rfl
  · rw [readAuthPass, fgetsAll, hcontent, show lineSize - 1 - 1 = lineSize - 2 from rfl,
      fgetsFrom_joined hproper hlen' hended, entries, List.flatMap_map]
    exact readLoop_flatMap (fun r hr => h.wf r (List.mem_append_left _ hr)) hpass _

/-- The loop passes the lines of the other users by. -/
theorem readLoop_others (hwf : ∀ r ∈ rs, r.1.WF) (hpass : ctx.cpass = [])
    (hother : ∀ r ∈ rs, r.1.user ≠ ctx.username) (lines : List Bytes) :
    readLoop ((rs.map fun r => r.1.line r.2) ++ lines) ctx = readLoop lines ctx := by
  induction rs with
  | nil => rfl
  | cons r rs ih =>
    have hr := hwf r List.mem_cons_self
    have hne : ctx.username ≠ r.1.user := (hother r List.mem_cons_self).symm
    rw [List.map_cons, List.cons_append, readLoop_cons, hr.readLine_line hpass, if_pos (.inr hne)]
    exact ih (fun x hx => hwf x (List.mem_cons_of_mem _ hx))
      fun x hx => hother x (List.mem_cons_of_mem _ hx)

/-- A line that is taken for an empty one has no hash. -/
theorem Record.WF.hash_of_short (h : r.WF) {b : Bool} (hshort : (r.line b).length ≤ 4) :
    r.hash = [] := by
  have huser := List.length_pos_iff.2 h.user_ne
  have hgroup := List.length_pos_iff.2 h.group_ne
  rw [r.line_eq] at hshort
  simp only [List.length_append, List.length_cons] at hshort
  exact List.length_eq_zero_iff.1 (by omega)

/-- **Main result.** The loop stops at the first record of its user, if that has a hash. -/
theorem readLoop_find {pre : List (Record × Bool)} {b : Bool} (hwf : ∀ x ∈ pre, x.1.WF)
    (hr : r.WF) (hpass : ctx.cpass = []) (hpre : ∀ x ∈ pre, x.1.user ≠ ctx.username)
    (huser : ctx.username = r.user) {lines : List Bytes}
    -- an empty hash leaves the loop with the lines after the record
    (hrest : r.hash = [] → ∀ ctx' : PlainCtx, ctx'.username = ctx.username → ctx'.cpass = [] →
      readLoop lines ctx' = some ctx') :
    readLoop ((pre.map fun x => x.1.line x.2) ++ r.line b :: lines) ctx =
      if (r.line b).length ≤ 4 then some ctx else ctx.read r := by
  rw [readLoop_others hwf hpass hpre, readLoop_cons, hr.readLine_line hpass]
  by_cases hshort : (r.line b).length ≤ 4
  · simpa [hshort] using hrest (hr.hash_of_short hshort) ctx rfl hpass
  · simp only [hshort, huser, false_or, ne_eq, not_true_eq_false, if_false]
    cases hread : ctx.read r with
    | none => rfl
    | some ctx' =>
      by_cases hhash : r.hash = []
      · have hpass' : ctx'.cpass = [] := by
          rw [PlainCtx.cpass_read hread, hhash]
          rfl
        have hname : ctx'.username = ctx.username := by
          obtain ⟨gs, -, rfl⟩ := Option.map_eq_some_iff.1 hread
          rfl
        simpa [hhash] using hrest hhash ctx' hname hpass'
      · simp [hhash]

end Passwd

end Ocserv
