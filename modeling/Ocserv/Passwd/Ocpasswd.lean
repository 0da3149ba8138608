import Ocserv.Lines
import Ocserv.SecMod.Entry
import Ocserv.Worker.Headers

/-!
# The password file and ocpasswd

`src/ocpasswd.c`: the four line rewriters, on the content of the file.  A run of ocpasswd that
exits with an error leaves the file as it is; the temporary file and the errors of the file system
are not modelled.

* `apply_file` : on a file of records, each operation does to the records what its name says, but
  for a new record after a last line without a newline.
* `unlock_lock` : `unlock` restores what `lock` wrote.
* `unchanged_iff` : the records of the other users are left alone along exactly the runs that
  meet `Appends`.
-/

namespace Ocserv

namespace Passwd

open Lines
open SecMod (Bytes)
open Worker (strchr strchr_append cString)

def newline : UInt8 := 10
def carriage : UInt8 := 13
def bang : UInt8 := 33
def star : UInt8 := 42
def colon : UInt8 := 58

/-- The lines that `getline` reads. -/
def getlines (content : Bytes) : List Bytes := lines newline content

/-- `crypt`: the password and the setting; `none` is `NULL`. -/
abbrev Crypt := Bytes → Bytes → Option Bytes

/-! ### The operations -/

/-- The line has this user name before its first colon, which is at `l`. -/
def isUser (username : Bytes) (line : Bytes) (l : ℕ) : Bool :=
  l = username.length ∧ line.take l = username

/-- The loop over the lines of the file: the lines of the user are rewritten, lines without a
colon are dropped and all others copied. -/
def rewrite (username : Bytes) (f : Bytes → ℕ → Bytes) (content : Bytes) : Bytes :=
  (getlines content).flatMap fun line =>
    match strchr colon line with
    | none => []
    | some l => if isUser username line l then f line l else line

/-- The line of a record. -/
def recordLine (username groupname hash : Bytes) : Bytes :=
  username ++ [colon] ++ groupname ++ [colon] ++ hash ++ [newline]

/-- The loop of `crypt_int` found the user. -/
def found (username : Bytes) (content : Bytes) : Bool :=
  (getlines content).any fun line => (strchr colon line).any (isUser username line)

/-- `crypt_int` after `crypt`. -/
def setUser (username groupname hash : Bytes) : Option Bytes → Bytes
  | none => recordLine username groupname hash
  | some content =>
    rewrite username (fun _ _ => recordLine username groupname hash) content ++
      if found username content then [] else recordLine username groupname hash

/-- `delete_user`. -/
def deleteUser (username : Bytes) (content : Bytes) : Bytes :=
  rewrite username (fun _ _ => []) content

/-- The offset of the hash in a line whose first colon is at `l`. -/
def hashOffset (line : Bytes) (l : ℕ) : Option ℕ :=
  (strchr colon (line.drop (l + 1))).map fun k => l + 1 + k + 1

/-- What `lock_user` writes for a line of the user. -/
def lockLine (line : Bytes) (l : ℕ) : Bytes :=
  match hashOffset line l with
  | none => []
  | some n => line.take n ++ [bang] ++ line.drop n

/-- `lock_user`. -/
def lockUser (username : Bytes) (content : Bytes) : Bytes := rewrite username lockLine content

/-- What `unlock_user` writes for a line of the user. -/
def unlockLine (line : Bytes) (l : ℕ) : Bytes :=
  match hashOffset line l with
  | none => []
  | some n => line.take n ++ if line.getD n 0 = bang then line.drop (n + 1) else line.drop n

/-- `unlock_user`. -/
def unlockUser (username : Bytes) (content : Bytes) : Bytes := rewrite username unlockLine content

/-- `alphabet`. -/
def alphabet : Bytes :=
  ("0123456789abcdefghijklmnopqrstuvwxyzABCDEFGHIJKLMNOPQRSTUVWXYZ./".toList).map fun c =>
    UInt8.ofNat c.toNat

/-- The salt of `crypt_int` with the digit of the method, from what `gnutls_rnd` drew. -/
def saltOf (method : Char) (rnd : Vector UInt8 16) : Bytes :=
  ['$', method, '$'].map (fun c => UInt8.ofNat c.toNat) ++
    rnd.toList.map (fun b => alphabet.getD (b.toNat % alphabet.length) 0) ++ [36]

/-- The calls of `crypt` in `crypt_int`; `sha2` is `TRY_SHA2_CRYPT`. -/
def cryptPasswd (crypt : Crypt) (sha2 : Bool) (passwd : Bytes) (rnd : Vector UInt8 16) :
    Option Bytes :=
  crypt passwd (saltOf (if sha2 then '5' else '1') rnd) <|> crypt passwd (saltOf '1' rnd)

/-- A call of ocpasswd. -/
inductive Op where
  | set (user group passwd : Bytes) (rnd : Vector UInt8 16)
  | delete (user : Bytes)
  | lock (user : Bytes)
  | unlock (user : Bytes)
  deriving DecidableEq, Repr

namespace Op

def user : Op → Bytes
  | set user .. | delete user | lock user | unlock user => user

/-- What the call makes of the file; `none` where there is no file. -/
def apply (crypt : Crypt) (sha2 : Bool) (op : Op) (file : Option Bytes) : Option Bytes :=
  match op with
  | set user group passwd rnd =>
    match cryptPasswd crypt sha2 passwd rnd with
    | none => file
    | some hash => some (setUser user group hash file)
  | delete user => file.map (deleteUser user)
  | lock user => file.map (lockUser user)
  | unlock user => file.map (unlockUser user)

end Op

/-! ### Records -/

@[ext]
structure Record where
  user : Bytes
  group : Bytes
  hash : Bytes
  deriving DecidableEq, Repr

namespace Record

def text (r : Record) : Bytes := r.user ++ [colon] ++ r.group ++ [colon] ++ r.hash

/-- A field is a string of one line. -/
def IsField (s : Bytes) : Prop := colon ∉ s ∧ newline ∉ s ∧ 0 ∉ s

instance : DecidablePred IsField := fun s =>
  inferInstanceAs (Decidable (colon ∉ s ∧ newline ∉ s ∧ 0 ∉ s))

/-- The user and the group are not empty, and the fields can be told apart. -/
structure WF (r : Record) : Prop where
  user : IsField r.user
  user_ne : r.user ≠ []
  group : IsField r.group
  group_ne : r.group ≠ []
  hash : IsField r.hash
  noReturn : carriage ∉ r.hash

/-- The record of a line. -/
def parse (line : Bytes) : Option Record :=
  let text := line.takeWhile (· ≠ newline)
  let user := text.takeWhile (· ≠ colon)
  match text.dropWhile (· ≠ colon) with
  | [] => none
  | _ :: rest =>
    match rest.dropWhile (· ≠ colon) with
    | [] => none
    | _ :: hash => some ⟨user, rest.takeWhile (· ≠ colon), hash⟩

end Record

/-- The records of a file. -/
def records (file : Option Bytes) : List Record :=
  (getlines (file.getD [])).filterMap Record.parse

/-- The records of all users but one. -/
def others (user : Bytes) (rs : List Record) : List Record := rs.filter fun r => r.user ≠ user

/-- The lines of records, ended or not. -/
def entries (rs : List (Record × Bool)) : List (Bytes × Bool) := rs.map fun r => (r.1.text, r.2)

/-- The file has the records `rs`, which are lines of their own. -/
structure IsFile (file : Option Bytes) (rs : List (Record × Bool)) : Prop where
  eq : file.getD [] = joined newline (entries rs)
  wf : ∀ r ∈ rs, r.1.WF
  ended : rs.Pairwise fun r _ => r.2 = true

/-! ### One line -/

variable {r : Record} {u : Bytes} {b : Bool}

/-- The line of a record, ended or not. -/
def Record.line (r : Record) (b : Bool) : Bytes := ended newline (r.text, b)

theorem Record.line_eq (r : Record) (b : Bool) :
    r.line b =
      r.user ++ colon :: (r.group ++ colon :: (r.hash ++ if b then [newline] else [])) := by
  simp [line, ended, text]

theorem Record.WF.strchr_line (h : r.WF) (b : Bool) :
    strchr colon (r.line b) = some r.user.length := by
  rw [r.line_eq]
  exact strchr_append (by decide) h.user.1 h.user.2.2 _

theorem Record.isUser_line (r : Record) (b : Bool) (u : Bytes) :
    isUser u (r.line b) r.user.length = decide (r.user = u) := by
  have htake : (r.line b).take r.user.length = r.user := by
    rw [r.line_eq, List.take_left]
  rw [isUser, htake]
  by_cases hu : r.user = u
  · simp [hu]
  · simp [hu]

/-- A line up to its hash. -/
def Record.head (r : Record) : Bytes := r.user ++ [colon] ++ r.group ++ [colon]

theorem Record.line_eq_head (r : Record) (b : Bool) :
    r.line b = r.head ++ (r.hash ++ if b then [newline] else []) := by
  simp [r.line_eq, head]

theorem Record.WF.hashOffset_line (h : r.WF) (b : Bool) :
    hashOffset (r.line b) r.user.length = some r.head.length := by
  have hdrop : (r.line b).drop (r.user.length + 1) =
      r.group ++ colon :: (r.hash ++ if b then [newline] else []) := by
    rw [r.line_eq, List.append_cons]
    exact List.drop_left' (by simp)
  rw [hashOffset, hdrop, strchr_append (by decide) h.group.1 h.group.2.2, Option.map_some]
  simp [head]
  omega

theorem Record.WF.noNewline (h : r.WF) : newline ∉ r.text := by
  simp only [text, List.mem_append, List.mem_singleton, not_or]
  exact ⟨⟨⟨⟨h.user.2.1, by decide⟩, h.group.2.1⟩, by decide⟩, h.hash.2.1⟩

theorem Record.text_ne (r : Record) : r.text ≠ [] := by simp [text]

/-- The line of a record is read back. -/
theorem Record.parse_line (hu : colon ∉ r.user) (hg : colon ∉ r.group) (hn : newline ∉ r.text)
    (b : Bool) : Record.parse (r.line b) = some r := by
  have htext : (r.line b).takeWhile (· ≠ newline) = r.text := by
    cases b with
    | true => exact takeWhile_append_sep hn []
    | false => simpa [line, ended] using takeWhile_of_notMem hn
  have hsplit : r.text = r.user ++ colon :: (r.group ++ colon :: r.hash) := by simp [text]
  simp only [parse, htext, hsplit, takeWhile_append_sep hu, dropWhile_append_sep hu,
    takeWhile_append_sep hg, dropWhile_append_sep hg]

/-! ### The file -/

variable {rs : List (Record × Bool)} {file : Option Bytes}

theorem proper_entries (hn : ∀ r ∈ rs, newline ∉ r.1.text)
    (hended : rs.Pairwise fun r _ => r.2 = true) : Proper newline (entries rs) := by
  refine ⟨?_, ?_, List.pairwise_map.2 hended⟩
  · intro l hl
    obtain ⟨r, hr, rfl⟩ := List.mem_map.1 hl
    exact hn r hr
  · intro l hl
    obtain ⟨r, -, rfl⟩ := List.mem_map.1 hl
    exact r.1.text_ne

theorem getlines_joined (hn : ∀ r ∈ rs, newline ∉ r.1.text)
    (hended : rs.Pairwise fun r _ => r.2 = true) :
    getlines (joined newline (entries rs)) = rs.map fun r => r.1.line r.2 := by
  rw [getlines, lines_joined (proper_entries hn hended), entries, List.map_map]
  rfl

theorem records_joined (hu : ∀ r ∈ rs, colon ∉ r.1.user) (hg : ∀ r ∈ rs, colon ∉ r.1.group)
    (hn : ∀ r ∈ rs, newline ∉ r.1.text) (hended : rs.Pairwise fun r _ => r.2 = true) :
    records (some (joined newline (entries rs))) = rs.map Prod.fst := by
  rw [records, Option.getD_some, getlines_joined hn hended, List.filterMap_map]
  have hparse : ∀ r ∈ rs, (Record.parse ∘ fun r : Record × Bool => r.1.line r.2) r =
      (some ∘ Prod.fst) r := fun r hr => Record.parse_line (hu r hr) (hg r hr) (hn r hr) r.2
  rw [List.filterMap_congr hparse, List.filterMap_eq_map]

theorem IsFile.proper (h : IsFile file rs) : Proper newline (entries rs) :=
  proper_entries (fun r hr => (h.wf r hr).noNewline) h.ended

theorem IsFile.getlines_eq (h : IsFile file rs) :
    getlines (file.getD []) = rs.map fun r => r.1.line r.2 := by
  rw [h.eq]
  exact getlines_joined (fun r hr => (h.wf r hr).noNewline) h.ended

theorem IsFile.records_eq (h : IsFile file rs) : records file = rs.map Prod.fst := by
  have hsome : records file = records (some (file.getD [])) := rfl
  rw [hsome, h.eq]
  exact records_joined (fun r hr => (h.wf r hr).user.1) (fun r hr => (h.wf r hr).group.1)
    (fun r hr => (h.wf r hr).noNewline) h.ended

/-- The loop over the lines, on a file of records. -/
theorem IsFile.rewrite_eq (h : IsFile file rs) (u : Bytes) (f : Bytes → ℕ → Bytes) :
    rewrite u f (file.getD []) = rs.flatMap fun r =>
      if r.1.user = u then f (r.1.line r.2) r.1.user.length else r.1.line r.2 := by
  rw [rewrite, h.getlines_eq, List.flatMap_map]
  refine List.flatMap_congr ?_
  intro r hr
  simp only [(h.wf r hr).strchr_line, Record.isUser_line]
  simp

theorem IsFile.found_eq (h : IsFile file rs) (u : Bytes) :
    found u (file.getD []) = rs.any fun r => r.1.user = u := by
  rw [found, h.getlines_eq, List.any_map, Bool.eq_iff_iff]
  simp only [List.any_eq_true, Function.comp_apply, decide_eq_true_eq]
  refine exists_congr fun r => and_congr_right fun hr => ?_
  rw [(h.wf r hr).strchr_line, Option.any_some, Record.isUser_line, decide_eq_true_eq]

theorem joined_entries (rs : List (Record × Bool)) :
    joined newline (entries rs) = rs.flatMap fun r => r.1.line r.2 := by
  rw [joined, entries, List.flatMap_map]
  rfl

/-! ### The operations on records -/

theorem recordLine_eq (user group hash : Bytes) :
    recordLine user group hash = (Record.mk user group hash).line true := by
  simp [recordLine, Record.line_eq]

namespace Record

/-- What `lock` makes of a record. -/
def lock (r : Record) : Record := { r with hash := bang :: r.hash }

/-- What `unlock` makes of a record. -/
def unlock (r : Record) : Record :=
  { r with hash := if r.hash.head? = some bang then r.hash.tail else r.hash }

theorem unlock_lock (r : Record) : r.lock.unlock = r := by simp [lock, unlock]

theorem WF.lock (h : r.WF) : r.lock.WF := by
  obtain ⟨hc, hn, h0⟩ := h.hash
  refine ⟨h.user, h.user_ne, h.group, h.group_ne, ⟨?_, ?_, ?_⟩, ?_⟩
  · simpa [Record.lock] using ⟨by decide, hc⟩
  · simpa [Record.lock] using ⟨by decide, hn⟩
  · simpa [Record.lock] using ⟨by decide, h0⟩
  · simpa [Record.lock] using ⟨by decide, h.noReturn⟩

theorem WF.unlock (h : r.WF) : r.unlock.WF := by
  have hsub : ∀ a, a ∉ r.hash → a ∉ r.unlock.hash := by
    intro a ha hmem
    simp only [Record.unlock] at hmem
    split_ifs at hmem
    · exact ha (List.mem_of_mem_tail hmem)
    · exact ha hmem
  obtain ⟨hc, hn, h0⟩ := h.hash
  exact ⟨h.user, h.user_ne, h.group, h.group_ne, ⟨hsub _ hc, hsub _ hn, hsub _ h0⟩,
    hsub _ h.noReturn⟩

theorem WF.lockLine_line (h : r.WF) (b : Bool) :
    lockLine (r.line b) r.user.length = r.lock.line b := by
  simp only [lockLine, h.hashOffset_line]
  rw [r.line_eq_head, List.take_left, List.drop_left, line_eq_head]
  simp [Record.lock, Record.head]

theorem WF.unlockLine_line (h : r.WF) (b : Bool) :
    unlockLine (r.line b) r.user.length = r.unlock.line b := by
  have hdrop : ∀ s : Bytes, (r.head ++ s).drop (r.head.length + 1) = s.tail := by simp
  have hget : ∀ s : Bytes, (r.head ++ s).getD r.head.length 0 = s.headD 0 := by
    intro s
    rw [List.getD_eq_getElem?_getD, List.getElem?_append_right (le_refl _), Nat.sub_self]
    cases s <;> rfl
  simp only [unlockLine, h.hashOffset_line]
  rw [r.line_eq_head, List.take_left, List.drop_left, hdrop, hget, line_eq_head]
  cases hhash : r.hash with
  | nil => cases b <;> simp [Record.unlock, Record.head, hhash, newline, bang]
  | cons a s =>
    by_cases ha : a = bang
    · simp [Record.unlock, Record.head, hhash, ha]
    · simp [Record.unlock, Record.head, hhash, ha]

end Record

/-! ### The operations on files of records -/

/-- What is assumed of crypt(3): its results can stand in a line, and a setting that is not a valid
salt gives `NULL` or a string that starts with a star.  No valid salt is empty or starts with an
exclamation mark. -/
structure Crypt.Spec (crypt : Crypt) : Prop where
  field : ∀ p s h, crypt p s = some h → Record.IsField h
  noReturn : ∀ p s h, crypt p s = some h → carriage ∉ h
  invalid : ∀ p s h, crypt p s = some h → s = [] ∨ s.head? = some bang → h.head? = some star

/-- The name of a user or a group. -/
def IsName (s : Bytes) : Prop := Record.IsField s ∧ s ≠ []

/-- The names can stand in a line. -/
def Op.WF : Op → Prop
  | set user group _ _ => IsName user ∧ IsName group
  | delete user | lock user | unlock user => IsName user

/-- The last line of the file is ended. -/
def LastEnded (file : Option Bytes) : Prop :=
  file.getD [] = [] ∨ (file.getD []).getLast? = some newline

instance : DecidablePred LastEnded := fun file =>
  inferInstanceAs (Decidable (file.getD [] = [] ∨ (file.getD []).getLast? = some newline))

variable {crypt : Crypt} {sha2 : Bool}

/-- The operation does not write a new record after a line that is not ended. -/
def Appends (crypt : Crypt) (sha2 : Bool) (file : Option Bytes) : Op → Prop
  | .set user _ passwd rnd =>
    (cryptPasswd crypt sha2 passwd rnd).isSome → LastEnded file ∨ ∃ r ∈ records file, r.user = user
  | _ => True

instance (file : Option Bytes) : (op : Op) → Decidable (Appends crypt sha2 file op)
  | .set user _ passwd rnd =>
    inferInstanceAs (Decidable ((cryptPasswd crypt sha2 passwd rnd).isSome →
      LastEnded file ∨ ∃ r ∈ records file, r.user = user))
  | .delete _ | .lock _ | .unlock _ => inferInstanceAs (Decidable True)

/-- The record of the line that is written. -/
def put (user : Bytes) (new : Record) (rs : List (Record × Bool)) : List (Record × Bool) :=
  rs.map (fun r => if r.1.user = user then (new, true) else r) ++
    if rs.any (fun r => r.1.user = user) then [] else [(new, true)]

/-- A change to the records of the user. -/
def change (user : Bytes) (f : Record → Record) (rs : List (Record × Bool)) :
    List (Record × Bool) :=
  rs.map fun r => if r.1.user = user then (f r.1, r.2) else r

/-- What an operation is meant to do to the records. -/
def Op.edit (crypt : Crypt) (sha2 : Bool) (op : Op) (rs : List (Record × Bool)) :
    List (Record × Bool) :=
  match op with
  | .set user group passwd rnd =>
    match cryptPasswd crypt sha2 passwd rnd with
    | none => rs
    | some hash => put user ⟨user, group, hash⟩ rs
  | .delete user => rs.filter fun r => r.1.user ≠ user
  | .lock user => change user Record.lock rs
  | .unlock user => change user Record.unlock rs

theorem getD_map (file : Option Bytes) {f : Bytes → Bytes} (hf : f [] = []) :
    (file.map f).getD [] = f (file.getD []) := by
  cases file with
  | none => exact hf.symm
  | some content => rfl

/-- The loops that rewrite the hash. -/
theorem IsFile.change (h : IsFile file rs) {f : Record → Record} {g : Bytes → ℕ → Bytes}
    (hwf : ∀ r : Record, r.WF → (f r).WF)
    (hline : ∀ (r : Record) (b : Bool), r.WF → g (r.line b) r.user.length = (f r).line b) :
    IsFile (file.map (rewrite u g)) (change u f rs) := by
  refine ⟨?_, ?_, ?_⟩
  · rw [getD_map file (by rfl), h.rewrite_eq, joined_entries, Passwd.change, List.flatMap_map]
    refine List.flatMap_congr ?_
    intro r hr
    by_cases hu : r.1.user = u
    · simp only [hu, if_true]
      rw [← hu]
      exact hline r.1 r.2 (h.wf r hr)
    · simp only [hu, if_false]
  · intro r hr
    obtain ⟨x, hx, rfl⟩ := List.mem_map.1 hr
    by_cases hu : x.1.user = u
    · simpa [hu] using hwf x.1 (h.wf x hx)
    · simpa [hu] using h.wf x hx
  · refine List.Pairwise.map _ ?_ h.ended
    intro x y hx
    split_ifs
    · exact hx
    · exact hx

theorem IsFile.lock (h : IsFile file rs) :
    IsFile (file.map (lockUser u)) (Passwd.change u Record.lock rs) := by
  exact h.change (fun r hr => hr.lock) fun r b hr => hr.lockLine_line b

theorem IsFile.unlock (h : IsFile file rs) :
    IsFile (file.map (unlockUser u)) (Passwd.change u Record.unlock rs) := by
  exact h.change (fun r hr => hr.unlock) fun r b hr => hr.unlockLine_line b

theorem IsFile.delete (h : IsFile file rs) :
    IsFile (file.map (deleteUser u)) (rs.filter fun r => r.1.user ≠ u) := by
  refine ⟨?_, ?_, ?_⟩
  · rw [getD_map file (by rfl), deleteUser, h.rewrite_eq, joined_entries]
    clear h
    induction rs with
    | nil => rfl
    | cons r rs ih =>
      by_cases hu : r.1.user = u
      · simp [hu, ih]
      · simp [hu, ih]
  · intro r hr
    exact h.wf r (List.mem_of_mem_filter hr)
  · exact h.ended.filter _

/-- The last line that is not ended. -/
theorem IsFile.exists_unended (h : IsFile file rs) (hlast : ∃ r ∈ rs, r.2 = false) :
    ∃ init x, rs = init ++ [(x, false)] := by
  obtain ⟨r, hr, hb⟩ := hlast
  obtain ⟨init, tail, rfl⟩ := List.append_of_mem hr
  cases tail with
  | nil => exact ⟨init, r.1, by rw [← hb]⟩
  | cons y tail =>
    have hy := (List.pairwise_cons.1 (List.pairwise_append.1 h.ended).2.1).1 y List.mem_cons_self
    exact absurd hy (by simp [hb])

theorem joined_unended (init : List (Record × Bool)) (x : Record) :
    joined newline (entries (init ++ [(x, false)])) = joined newline (entries init) ++ x.text := by
  simp [joined, entries, Lines.ended]

/-- All lines are ended. -/
theorem IsFile.lastEnded_iff (h : IsFile file rs) :
    LastEnded file ↔ ∀ r ∈ rs, r.2 = true := by
  constructor
  · intro hlast r hr
    by_contra hb
    obtain ⟨init, x, rfl⟩ := h.exists_unended ⟨r, hr, by simpa using hb⟩
    have htext := h.eq.trans (joined_unended init x)
    have hne : x.text ≠ [] := x.text_ne
    rcases hlast with hnil | hget
    · rw [htext] at hnil
      exact hne (List.append_eq_nil_iff.1 hnil).2
    · rw [htext, List.getLast?_append_of_ne_nil _ hne] at hget
      exact (h.wf (x, false) (by simp)).noNewline (List.mem_of_getLast? hget)
  · intro hall
    rcases rs.eq_nil_or_concat' with rfl | ⟨init, x, rfl⟩
    · exact .inl h.eq
    · refine .inr ?_
      have hx : x.2 = true := hall x (by simp)
      rw [h.eq]
      simp [joined, entries, Lines.ended, hx]

theorem setUser_eq (user group hash : Bytes) (file : Option Bytes) :
    setUser user group hash file =
      rewrite user (fun _ _ => recordLine user group hash) (file.getD []) ++
        if found user (file.getD []) then [] else recordLine user group hash := by
  cases file with
  | none => simp [setUser, rewrite, found, getlines, lines]
  | some content => rfl

/-- The record is written in the place of the ones the user had, or after a last line that is
ended. -/
theorem IsFile.put (h : IsFile file rs) {new : Record} (hnew : new.WF)
    (happend : (∀ r ∈ rs, r.2 = true) ∨ ∃ r ∈ rs, r.1.user = new.user) :
    IsFile (some (setUser new.user new.group new.hash file)) (Passwd.put new.user new rs) := by
  have hmap : ∀ r ∈ rs.map (fun r => if r.1.user = new.user then (new, true) else r),
      r.1.WF := by
    intro r hr
    obtain ⟨x, hx, rfl⟩ := List.mem_map.1 hr
    split_ifs
    · exact hnew
    · exact h.wf x hx
  refine ⟨?_, ?_, ?_⟩
  · rw [Option.getD_some, setUser_eq, h.rewrite_eq, h.found_eq, joined_entries, Passwd.put,
      List.flatMap_append, List.flatMap_map, recordLine_eq]
    congr 1
    · refine List.flatMap_congr ?_
      intro r _
      split_ifs <;> rfl
    · split_ifs <;> simp
  · intro r hr
    rcases List.mem_append.1 hr with hr | hr
    · exact hmap r hr
    · split_ifs at hr with hfound
      · cases hr
      · rw [List.mem_singleton.1 hr]
        exact hnew
  · refine List.pairwise_append.2 ⟨?_, ?_, ?_⟩
    · refine List.Pairwise.map _ ?_ h.ended
      intro x y hx
      split_ifs
      · rfl
      · exact hx
    · split_ifs
      · exact List.Pairwise.nil
      · exact List.pairwise_singleton _ _
    · intro x hx y hy
      split_ifs at hy with hfound
      · cases hy
      · obtain ⟨r, hr, rfl⟩ := List.mem_map.1 hx
        have hnone : ∀ r ∈ rs, r.1.user ≠ new.user := by
          intro r hr huser
          exact hfound (List.any_eq_true.2 ⟨r, hr, decide_eq_true huser⟩)
        rcases happend with hended | ⟨r', hr', huser⟩
        · rw [if_neg (hnone r hr)]
          exact hended r hr
        · exact absurd huser (hnone r' hr')

theorem Crypt.Spec.wf (hcrypt : crypt.Spec) {user group passwd hash : Bytes}
    {rnd : Vector UInt8 16} (hop : (Op.set user group passwd rnd).WF)
    (hhash : cryptPasswd crypt sha2 passwd rnd = some hash) :
    (Record.mk user group hash).WF := by
  obtain ⟨s, hs⟩ : ∃ s, crypt passwd s = some hash := by
    simp only [cryptPasswd, Option.orElse_eq_orElse, Option.orElse_eq_or,
      Option.or_eq_some_iff] at hhash
    exact hhash.elim (fun h => ⟨_, h⟩) (fun h => ⟨_, h.2⟩)
  obtain ⟨⟨huser, huser_ne⟩, hgroup, hgroup_ne⟩ := hop
  exact ⟨huser, huser_ne, hgroup, hgroup_ne, hcrypt.field _ _ _ hs, hcrypt.noReturn _ _ _ hs⟩

/-- **Main result.** On a file of records, an operation does to the records what its name says,
unless it writes a new record after a line that is not ended. -/
theorem apply_file (hcrypt : crypt.Spec) {op : Op} (hop : op.WF) (h : IsFile file rs)
    (happend : Appends crypt sha2 file op) :
    IsFile (op.apply crypt sha2 file) (op.edit crypt sha2 rs) := by
  cases op with
  | set user group passwd rnd =>
    simp only [Op.apply, Op.edit]
    cases hhash : cryptPasswd crypt sha2 passwd rnd with
    | none => exact h
    | some hash =>
      refine h.put (hcrypt.wf hop hhash) ?_
      simp only [Appends, hhash, Option.isSome_some, forall_const, h.records_eq] at happend
      refine happend.imp h.lastEnded_iff.1 ?_
      rintro ⟨r, hr, huser⟩
      obtain ⟨x, hx, rfl⟩ := List.mem_map.1 hr
      exact ⟨x, hx, huser⟩
  | delete user => exact h.delete
  | lock user => exact h.lock
  | unlock user => exact h.unlock

/-- **Main result.** `unlock` restores the file that `lock` has changed. -/
theorem unlock_lock (h : IsFile file rs) (user : Bytes) :
    (Op.unlock user).apply crypt sha2 ((Op.lock user).apply crypt sha2 file) = file := by
  have hrs : change user Record.unlock (change user Record.lock rs) = rs := by
    rw [change, change, List.map_map]
    refine (List.map_congr_left ?_).trans (List.map_id rs)
    intro r _
    by_cases hu : r.1.user = user
    · have hlock : r.1.lock.user = user := hu
      simp only [Function.comp_apply, hu, if_true, hlock, Record.unlock_lock, id]
    · simp [hu]
  have htext := (h.lock (u := user)).unlock (u := user) |>.eq
  rw [hrs, ← h.eq] at htext
  cases file with
  | none => rfl
  | some content => exact congrArg some htext

/-! ### The records of the other users -/

/-- The operation leaves the records of all other users as they were. -/
def Unchanged (crypt : Crypt) (sha2 : Bool) (file : Option Bytes) (op : Op) : Prop :=
  others op.user (records (op.apply crypt sha2 file)) = others op.user (records file)

instance (file : Option Bytes) (op : Op) : Decidable (Unchanged crypt sha2 file op) :=
  inferInstanceAs (Decidable (_ = _))

theorem others_put (new : Record) {user : Bytes} (huser : new.user = user)
    (rs : List (Record × Bool)) :
    others user ((put user new rs).map Prod.fst) = others user (rs.map Prod.fst) := by
  have hmap : others user ((rs.map fun r => if r.1.user = user then (new, true) else r).map
      Prod.fst) = others user (rs.map Prod.fst) := by
    induction rs with
    | nil => rfl
    | cons r rs ih =>
      by_cases hr : r.1.user = user
      · simpa [others, hr, huser] using ih
      · simpa [others, hr] using ih
  have hnew : others user [new] = [] := by simp [others, huser]
  rw [put, List.map_append]
  split_ifs
  · simpa using hmap
  · simpa [others, huser] using hmap

theorem others_change (user : Bytes) {f : Record → Record} (hf : ∀ r, (f r).user = r.user)
    (rs : List (Record × Bool)) :
    others user ((change user f rs).map Prod.fst) = others user (rs.map Prod.fst) := by
  induction rs with
  | nil => rfl
  | cons r rs ih =>
    by_cases hr : r.1.user = user
    · simpa [others, change, hr, hf] using ih
    · simpa [others, change, hr] using ih

theorem others_edit (op : Op) (rs : List (Record × Bool)) :
    others op.user ((op.edit crypt sha2 rs).map Prod.fst) = others op.user (rs.map Prod.fst) := by
  cases op with
  | set user group passwd rnd =>
    simp only [Op.edit]
    cases cryptPasswd crypt sha2 passwd rnd with
    | none => rfl
    | some hash => exact others_put ⟨user, group, hash⟩ rfl rs
  | delete user =>
    induction rs with
    | nil => rfl
    | cons r rs ih =>
      by_cases hr : r.1.user = user
      · simpa [others, Op.edit, Op.user, hr] using ih
      · simpa [others, Op.edit, Op.user, hr] using ih
  | lock user =>
    have huser : ∀ r : Record, r.lock.user = r.user := fun _ => rfl
    exact others_change user huser rs
  | unlock user =>
    have huser : ∀ r : Record, r.unlock.user = r.user := fun _ => rfl
    exact others_change user huser rs

/-- A record that is written after a line that is not ended becomes a part of it. -/
theorem records_unended {init : List (Record × Bool)} {x new : Record}
    (h : IsFile file (init ++ [(x, false)])) (hnew : new.WF)
    (hnone : ∀ r ∈ init ++ [(x, false)], r.1.user ≠ new.user) :
    records (some (setUser new.user new.group new.hash file)) =
      init.map Prod.fst ++ [{ x with hash := x.hash ++ new.text }] := by
  have hfound : found new.user (file.getD []) = false := by
    rw [h.found_eq]
    exact List.any_eq_false.2 fun r hr => by simpa using hnone r hr
  have hcopy : rewrite new.user (fun _ _ => recordLine new.user new.group new.hash)
      (file.getD []) = joined newline (entries init) ++ x.text := by
    rw [h.rewrite_eq, ← joined_unended, joined_entries]
    refine List.flatMap_congr ?_
    intro r hr
    rw [if_neg (hnone r hr)]
  have hx := h.wf (x, false) (by simp)
  have htext : setUser new.user new.group new.hash file =
      joined newline (entries (init ++ [({ x with hash := x.hash ++ new.text }, true)])) := by
    rw [setUser_eq, hfound, hcopy, recordLine_eq]
    simp [joined, entries, Lines.ended, Record.line, Record.text]
  obtain ⟨hended, -, hlast⟩ := List.pairwise_append.1 h.ended
  rw [htext, records_joined]
  · simp
  · intro r hr
    rcases List.mem_append.1 hr with hr | hr
    · exact (h.wf r (List.mem_append_left _ hr)).user.1
    · rw [List.mem_singleton.1 hr]
      exact hx.user.1
  · intro r hr
    rcases List.mem_append.1 hr with hr | hr
    · exact (h.wf r (List.mem_append_left _ hr)).group.1
    · rw [List.mem_singleton.1 hr]
      exact hx.group.1
  · intro r hr
    rcases List.mem_append.1 hr with hr | hr
    · exact (h.wf r (List.mem_append_left _ hr)).noNewline
    · rw [List.mem_singleton.1 hr]
      have hjoin : ({ x with hash := x.hash ++ new.text } : Record).text = x.text ++ new.text := by
        simp [Record.text]
      rw [hjoin, List.mem_append, not_or]
      exact ⟨hx.noNewline, hnew.noNewline⟩
  · refine List.pairwise_append.2 ⟨hended, List.pairwise_singleton _ _, ?_⟩
    intro r hr y _
    exact hlast r hr (x, false) (by simp)

/-- **Main result.** An operation leaves the records of the other users alone exactly when it does
not write a new record after a line that is not ended. -/
theorem unchanged_iff (hcrypt : crypt.Spec) {op : Op} (hop : op.WF) (h : IsFile file rs) :
    Unchanged crypt sha2 file op ↔ Appends crypt sha2 file op := by
  constructor
  · intro hun
    cases op with
    | set user group passwd rnd =>
      intro hsome
      obtain ⟨hash, hhash⟩ := Option.isSome_iff_exists.1 hsome
      by_contra hbad
      obtain ⟨hlast, hnone⟩ := not_or.1 hbad
      have hunended : ∃ r ∈ rs, r.2 = false := by
        by_contra hall
        exact hlast (h.lastEnded_iff.2 fun r hr => by
          by_contra hb
          exact hall ⟨r, hr, by simpa using hb⟩)
      obtain ⟨init, x, rfl⟩ := h.exists_unended hunended
      have hother : ∀ r ∈ init ++ [(x, false)], r.1.user ≠ user := by
        intro r hr huser
        refine hnone ⟨r.1, ?_, huser⟩
        rw [h.records_eq]
        exact List.mem_map_of_mem hr
      have hrec := records_unended h (hcrypt.wf hop hhash) hother
      have hx : x.user ≠ user := hother (x, false) (by simp)
      have hfile : records file = init.map Prod.fst ++ [x] := by
        rw [h.records_eq]
        simp
      simp only [Unchanged, Op.user, Op.apply, hhash, hrec, hfile, others, List.filter_append,
        List.append_cancel_left_eq] at hun
      have hlong : x.hash ++ (Record.mk user group hash).text = x.hash := by
        simpa [hx, Record.ext_iff] using hun
      exact Record.text_ne _ (List.append_right_eq_self.1 hlong)
    | delete user => trivial
    | lock user => trivial
    | unlock user => trivial
  · intro happend
    rw [Unchanged, (apply_file hcrypt hop h happend).records_eq, h.records_eq]
    exact others_edit op rs

end Passwd

end Ocserv
