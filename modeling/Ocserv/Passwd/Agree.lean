import Ocserv.Machine
import Ocserv.Passwd.Plain

/-!
# ocpasswd and the plain backend

`src/ocpasswd.c` and `src/auth/plain.c` on one password file.

* `authAgrees_iff` : on a file that the backend can read, it lets in whom the records let in, and
  without an invalid access, exactly where `Safe` holds.
* `ocpasswd_plain_agree` : along the runs of ocpasswd.
-/

namespace Ocserv

namespace Passwd

open SecMod (Bytes strlcpy maxUsernameSize errAuthFail errAuthContinue)

/-- `plain_auth_init`, and `plain_auth_pass` after some failed passwords: whether the password is
accepted. -/
def login (crypt : Crypt) (file : Option Bytes) (username pass : Bytes) (retries : ℕ) :
    Option Bool :=
  match plainAuthInit file username with
  | none => none
  | some (_, none) => some false
  | some (_, some ctx) =>
    (plainAuthPass crypt { ctx with retries } pass).map fun x => decide (x.1 = 0)

/-- The record of a user is the first one. -/
def recordOf (file : Option Bytes) (user : Bytes) : Option Record :=
  (records file).find? fun r => r.user = user

/-- The user has a record, it is not locked and the password has its hash. -/
def Accepts (crypt : Crypt) (file : Option Bytes) (user pass : Bytes) : Prop :=
  ∃ r, recordOf file user = some r ∧ r.hash.head? ≠ some bang ∧ crypt pass r.hash = some r.hash

/-- The backend completes and accepts the password if and only if the file does. -/
def AuthAgrees (crypt : Crypt) (file : Option Bytes) (user pass : Bytes) : Prop :=
  ∀ retries, ∃ accepted, login crypt file user pass retries = some accepted ∧
    (accepted = true ↔ Accepts crypt file user pass)

/-- The line has a hash for the user. -/
def EndsSearch (user line : Bytes) : Prop :=
  ∃ r ∈ Record.parse line, r.user = user ∧ r.hash ≠ []

instance (user line : Bytes) : Decidable (EndsSearch user line) :=
  inferInstanceAs (Decidable (∃ r ∈ Record.parse line, _))

/-- The lines that the backend reads: up to the first one with a hash for the user. -/
def linesRead (file : Option Bytes) (user : Bytes) : List Bytes :=
  (getlines (file.getD [])).takeWhile (fun line => ¬ EndsSearch user line) ++
    ((getlines (file.getD [])).find? fun line => EndsSearch user line).toList

/-- The lines that are read, the user and the hash fit in the buffers of the backend.  A record
without a hash is passed by, so the user has no other. -/
structure Readable (file : Option Bytes) (u : Bytes) : Prop where
  lines : ∀ line ∈ linesRead file u, (line.takeWhile (· ≠ newline)).length ≤ lineSize - 2
  user : u.length < maxUsernameSize
  hash : ∀ r ∈ recordOf file u, r.hash.length < maxCpassSize
  once : ∀ r ∈ recordOf file u, r.hash = [] → (records file).countP (fun r => r.user = u) ≤ 1

/-- The first line of the user. -/
def lineOf (file : Option Bytes) (user : Bytes) : Option Bytes :=
  (getlines (file.getD [])).find? fun line => (Record.parse line).any fun r => r.user = user

/-- The group list can be broken up and `crypt` has a result, unless the backend takes the line for
an empty one. -/
def Safe (crypt : Crypt) (file : Option Bytes) (user pass : Bytes) : Prop :=
  ∀ line ∈ lineOf file user, ∀ r ∈ Record.parse line, 4 < line.length →
    GroupSafe r.group ∧ (r.hash ≠ [] → (crypt pass r.hash).isSome)

instance (crypt : Crypt) (file : Option Bytes) (user pass : Bytes) :
    Decidable (Safe crypt file user pass) :=
  inferInstanceAs (Decidable (∀ line ∈ lineOf file user, ∀ r ∈ Record.parse line,
    4 < line.length → GroupSafe r.group ∧ (r.hash ≠ [] → (crypt pass r.hash).isSome)))

/-! ### What the backend does -/

section

variable {crypt : Crypt} {file : Option Bytes} {rs : List (Record × Bool)} {u p : Bytes}

theorem IsFile.recordOf_eq (h : IsFile file rs) (u : Bytes) :
    recordOf file u = (rs.find? fun r => r.1.user = u).map Prod.fst := by
  rw [recordOf, h.records_eq, List.find?_map]
  rfl

theorem Record.WF.parse_line {r : Record} (h : r.WF) (b : Bool) :
    Record.parse (r.line b) = some r :=
  Record.parse_line h.user.1 h.group.1 h.noNewline b

theorem IsFile.lineOf_eq (h : IsFile file rs) (u : Bytes) :
    lineOf file u = (rs.find? fun r => r.1.user = u).map fun r => r.1.line r.2 := by
  have hpred : ∀ rs : List (Record × Bool), (∀ r ∈ rs, r.1.WF) →
      rs.find? (fun r => (Record.parse (r.1.line r.2)).any fun r => r.user = u) =
        rs.find? fun r => r.1.user = u := by
    intro rs hwf
    induction rs with
    | nil => rfl
    | cons r rs ih =>
      rw [List.find?_cons, List.find?_cons, ih fun x hx => hwf x (List.mem_cons_of_mem _ hx),
        (hwf r List.mem_cons_self).parse_line]
      rfl
  rw [lineOf, h.getlines_eq, List.find?_map, ← hpred rs h.wf]
  rfl

theorem accepts_iff (hcrypt : crypt.Spec) {r : Record} (hr : recordOf file u = some r) :
    Accepts crypt file u p ↔ r.hash ≠ [] ∧ crypt p r.hash = some r.hash := by
  constructor
  · rintro ⟨r', hr', -, hhash⟩
    cases hr.symm.trans hr'
    refine ⟨?_, hhash⟩
    intro hnil
    have hstar := hcrypt.invalid _ _ _ hhash (.inl hnil)
    rw [hnil] at hstar
    cases hstar
  · rintro ⟨-, hhash⟩
    refine ⟨r, hr, ?_, hhash⟩
    intro hbang
    have hstar := hcrypt.invalid _ _ _ hhash (.inr hbang)
    exact absurd (hbang.symm.trans hstar) (by decide)

/-- What `plain_auth_pass` says of a password, from the context that `plain_auth_init` made. -/
theorem map_plainAuthPass (ctx : PlainCtx) (p : Bytes) :
    (plainAuthPass crypt ctx p).map (fun x => decide (x.1 = 0)) =
      if ctx.cpass = [] then some false
      else (crypt p ctx.cpass).map fun result => decide (result = ctx.cpass) := by
  have hfailed : ∀ c : Prop, [Decidable c] → ∀ x y : PlainCtx,
      decide ((if c then (errAuthContinue, x) else (errAuthFail, y)).1 = 0) = false := by
    intro c _ x y
    split_ifs <;> rfl
  rw [plainAuthPass]
  by_cases hpass : ctx.cpass = []
  · simp only [hpass, if_true, Option.map_some, hfailed]
  · cases hresult : crypt p ctx.cpass with
    | none => simp [hpass]
    | some result =>
      by_cases heq : result = ctx.cpass
      · simp [hpass, heq]
      · simp only [hpass, heq, if_false, Option.map_some, hfailed, decide_false]

/-- What the backend has read is what `plain_auth_init` answers with. -/
theorem login_eq {content : Bytes} (huser : u.length < maxUsernameSize) (hne : u ≠ [])
    (retries : ℕ) :
    login crypt (some content) u p retries =
      (readAuthPass content ⟨u, [], [], .first, 0⟩).bind fun ctx =>
        if ctx.cpass = [] then some false
        else (crypt p ctx.cpass).map fun result => decide (result = ctx.cpass) := by
  have hname : strlcpy maxUsernameSize u = u := List.take_of_length_le (by omega)
  rw [login, plainAuthInit, if_neg hne, hname]
  cases readAuthPass content ⟨u, [], [], .first, 0⟩ with
  | none => rfl
  | some ctx => exact map_plainAuthPass { ctx with retries } p

theorem Record.WF.takeWhile_line {r : Record} (h : r.WF) (b : Bool) :
    (r.line b).takeWhile (· ≠ newline) = r.text := by
  cases b with
  | true => exact Lines.takeWhile_append_sep h.noNewline []
  | false => simpa [Record.line, Lines.ended] using Lines.takeWhile_of_notMem h.noNewline

theorem Record.WF.endsSearch_iff {r : Record} (h : r.WF) (b : Bool) :
    EndsSearch u (r.line b) ↔ r.user = u ∧ r.hash ≠ [] := by
  rw [EndsSearch, h.parse_line]
  simp

/-- Without a line that ends the search all lines are read. -/
theorem IsFile.length_of_search (h : IsFile file rs) (hread : Readable file u)
    (hsearch : ∀ r ∈ rs, r.1.user = u → r.1.hash = []) :
    ∀ r ∈ rs, r.1.text.length ≤ lineSize - 2 := by
  intro r hr
  rw [← (h.wf r hr).takeWhile_line r.2]
  refine hread.lines _ (List.mem_append_left _ ?_)
  have hno : ∀ line ∈ getlines (file.getD []), decide (¬ EndsSearch u line) = true := by
    rw [h.getlines_eq]
    intro line hline
    obtain ⟨x, hx, rfl⟩ := List.mem_map.1 hline
    rw [decide_eq_true_eq, (h.wf x hx).endsSearch_iff]
    exact fun hends => hends.2 (hsearch x hx hends.1)
  rw [List.takeWhile_eq_self_iff.2 hno, h.getlines_eq]
  exact List.mem_map_of_mem hr

/-- The lines up to the record of the user are read. -/
theorem IsFile.length_of_find {pre post : List (Record × Bool)} {r : Record} {b : Bool}
    (h : IsFile file (pre ++ (r, b) :: post)) (hread : Readable file u)
    (hpre : ∀ x ∈ pre, x.1.user ≠ u) (huser : r.user = u) (hhash : r.hash ≠ []) :
    ∀ x ∈ pre ++ [(r, b)], x.1.text.length ≤ lineSize - 2 := by
  have hlines := h.getlines_eq
  rw [List.map_append, List.map_cons] at hlines
  have hr : r.WF := h.wf (r, b) (by simp)
  have hends : EndsSearch u (r.line b) := (hr.endsSearch_iff b).2 ⟨huser, hhash⟩
  have hno : ∀ line ∈ pre.map (fun x => x.1.line x.2), ¬ EndsSearch u line := by
    intro line hline
    obtain ⟨x, hx, rfl⟩ := List.mem_map.1 hline
    rw [(h.wf x (List.mem_append_left _ hx)).endsSearch_iff]
    exact fun hends => hpre x hx hends.1
  intro x hx
  have hwf : x.1.WF := h.wf x (by
    rw [List.append_cons]
    exact List.mem_append_left _ hx)
  rw [← hwf.takeWhile_line x.2]
  refine hread.lines _ ?_
  rw [linesRead, hlines, List.takeWhile_append_of_pos fun l hl => decide_eq_true (hno l hl),
    List.find?_append, List.find?_eq_none.2 fun l hl => by simpa using hno l hl, Option.none_or,
    List.find?_cons_of_pos (by simpa using hends)]
  obtain hx | hx := List.mem_append.1 hx
  · exact List.mem_append_left _ (List.mem_append_left _ (List.mem_map_of_mem hx))
  · obtain rfl := List.mem_singleton.1 hx
    exact List.mem_append_right _ (List.mem_singleton_self _)

/-- A user without a record is turned away. -/
theorem login_of_none (h : IsFile file rs) (hread : Readable file u)
    (hnone : recordOf file u = none) (retries : ℕ) :
    login crypt file u p retries = some false := by
  by_cases hne : u = []
  · have hinit : plainAuthInit file u = some (.authFail, none) := if_pos hne
    rw [login, hinit]
  cases file with
  | none =>
    have hinit : plainAuthInit none u = some (.authFail, none) := if_neg hne
    rw [login, hinit]
  | some content =>
    have hother : ∀ r ∈ rs, r.1.user ≠ u := by
      rw [h.recordOf_eq, Option.map_eq_none_iff, List.find?_eq_none] at hnone
      simpa using hnone
    have hlen := h.length_of_search hread fun r hr huser => absurd huser (hother r hr)
    have hfile : IsFile (some content) (rs ++ []) := by rwa [List.append_nil]
    obtain ⟨lines, hlines, hloop⟩ :=
      readAuthPass_eq [] hfile hlen (show (PlainCtx.mk u [] [] .first 0).cpass = [] from rfl)
    rw [login_eq hread.user hne, hloop, hlines rfl, readLoop_others h.wf rfl hother]
    rfl

theorem login_of_some (h : IsFile file rs) (hread : Readable file u) {r : Record} {b : Bool}
    (hr : rs.find? (fun r => r.1.user = u) = some (r, b)) (retries : ℕ) :
    login crypt file u p retries =
      if (r.line b).length ≤ 4 then some false
      else if GroupSafe r.group then
        if r.hash = [] then some false
        else (crypt p r.hash).map fun result => decide (result = r.hash)
      else none := by
  obtain ⟨huser, pre, post, rfl, hpre⟩ := List.find?_eq_some_iff_append.1 hr
  have huser : r.user = u := by simpa using huser
  have hpre : ∀ x ∈ pre, x.1.user ≠ u := by simpa using hpre
  have hwf : r.WF := h.wf (r, b) (by simp)
  have hwfpre : ∀ x ∈ pre, x.1.WF := fun x hx => h.wf x (List.mem_append_left _ hx)
  have hne : u ≠ [] := huser ▸ hwf.user_ne
  have hrec : recordOf file u = some r := by rw [h.recordOf_eq, hr, Option.map_some]
  have hpost : r.hash = [] → ∀ x ∈ post, x.1.user ≠ u := by
    intro hhash x hx hxu
    have hone := hread.once r hrec hhash
    have hmem : 0 < post.countP ((fun r : Record => decide (r.user = u)) ∘ Prod.fst) :=
      List.countP_pos_iff.2 ⟨x, hx, decide_eq_true hxu⟩
    rw [h.records_eq, List.countP_map, List.countP_append, List.countP_cons] at hone
    simp only [Function.comp_apply, huser, decide_true, if_true] at hone
    simp only [Function.comp_def] at hmem hone
    omega
  obtain ⟨content, rfl⟩ : ∃ content, file = some content := by
    cases file with
    | none =>
      have hrecords : records none = [] := rfl
      rw [h.records_eq] at hrecords
      simp at hrecords
    | some content => exact ⟨content, rfl⟩
  have hhash : strlcpy maxCpassSize r.hash = r.hash := by
    have hlt := hread.hash r hrec
    exact List.take_of_length_le (by omega)
  have hcpass : (PlainCtx.mk u [] [] .first 0).cpass = [] := rfl
  have hread' : readAuthPass content ⟨u, [], [], .first, 0⟩ =
      if (r.line b).length ≤ 4 then some ⟨u, [], [], .first, 0⟩
      else PlainCtx.read ⟨u, [], [], .first, 0⟩ r := by
    by_cases hnil : r.hash = []
    · have hsearch : ∀ x ∈ pre ++ (r, b) :: post, x.1.user = u → x.1.hash = [] := by
        intro x hx hxu
        obtain hx | hx := List.mem_append.1 hx
        · exact absurd hxu (hpre x hx)
        · obtain rfl | hx := List.mem_cons.1 hx
          · exact hnil
          · exact absurd hxu (hpost hnil x hx)
      have hfile : IsFile (some content) (pre ++ (r, b) :: post ++ []) := by
        rwa [List.append_nil]
      obtain ⟨lines, hlines, hloop⟩ :=
        readAuthPass_eq [] hfile (h.length_of_search hread hsearch) hcpass
      rw [hloop, hlines rfl, List.append_nil, List.map_append, List.map_cons]
      refine readLoop_find hwfpre hwf rfl hpre huser.symm fun _ ctx' hname hpass => ?_
      have hwfpost : ∀ x ∈ post, x.1.WF := fun x hx => h.wf x (by simp [hx])
      have hother : ∀ x ∈ post, x.1.user ≠ ctx'.username := hname ▸ hpost hnil
      simpa [readLoop] using readLoop_others hwfpost hpass hother []
    · -- what comes after the record is not read
      have hfile : IsFile (some content) (pre ++ [(r, b)] ++ post) := by
        rwa [← List.append_cons]
      obtain ⟨lines, -, hloop⟩ :=
        readAuthPass_eq post hfile (h.length_of_find hread hpre huser hnil) hcpass
      rw [hloop, List.map_append, List.append_assoc, List.map_singleton, List.singleton_append]
      exact readLoop_find hwfpre hwf rfl hpre huser.symm fun hhash => absurd hhash hnil
  rw [login_eq hread.user hne, hread']
  by_cases hshort : (r.line b).length ≤ 4
  · rw [if_pos hshort, if_pos hshort]
    rfl
  rw [if_neg hshort, if_neg hshort]
  cases hgroups : breakGroupList r.group with
  | none =>
    have hunsafe : ¬ GroupSafe r.group := by
      rw [← breakGroupList_isSome, hgroups]
      exact Bool.false_ne_true
    rw [PlainCtx.read, hgroups, if_neg hunsafe]
    rfl
  | some groupnames =>
    have hsafe : GroupSafe r.group := by
      rw [← breakGroupList_isSome, hgroups]
      rfl
    rw [PlainCtx.read, hgroups, if_pos hsafe, hhash]
    rfl

/-- **Main result.** On a file that it can read, the backend agrees with the records exactly where
it is safe. -/
theorem authAgrees_iff (hcrypt : crypt.Spec) (h : IsFile file rs) (hread : Readable file u) :
    AuthAgrees crypt file u p ↔ Safe crypt file u p := by
  cases hfind : rs.find? fun r => r.1.user = u with
  | none =>
    have hrec : recordOf file u = none := by rw [h.recordOf_eq, hfind, Option.map_none]
    have hline : lineOf file u = none := by rw [h.lineOf_eq, hfind, Option.map_none]
    have hreject : ¬ Accepts crypt file u p := by
      rintro ⟨r, hr, -⟩
      rw [hrec] at hr
      cases hr
    refine ⟨fun _ => by simp [Safe, hline], fun _ retries => ?_⟩
    exact ⟨false, login_of_none h hread hrec retries, by simp [hreject]⟩
  | some x =>
    obtain ⟨r, b⟩ := x
    have hrec : recordOf file u = some r := by rw [h.recordOf_eq, hfind, Option.map_some]
    have hline : lineOf file u = some (r.line b) := by rw [h.lineOf_eq, hfind, Option.map_some]
    have hwf : r.WF := h.wf (r, b) (List.mem_of_find?_eq_some hfind)
    have hlogin : ∀ retries, login crypt file u p retries = _ := login_of_some h hread hfind
    simp only [AuthAgrees, Safe, hline, accepts_iff hcrypt hrec, hlogin, Option.mem_some_iff,
      forall_eq', hwf.parse_line, forall_const]
    by_cases hshort : (r.line b).length ≤ 4
    · simp [hshort, Nat.not_lt.2 hshort, hwf.hash_of_short hshort]
    have hlong : 4 < (r.line b).length := by omega
    by_cases hsafe : GroupSafe r.group
    · by_cases hnil : r.hash = []
      · simp [hshort, hsafe, hnil]
      · cases hresult : crypt p r.hash with
        | none => simp [hshort, hlong, hsafe, hnil]
        | some result => simp [hshort, hsafe, hnil]
    · simp [hshort, hlong, hsafe]

/-! ### Runs -/

/-- The calls of ocpasswd on one file. -/
def ocpasswd (crypt : Crypt) (sha2 : Bool) : Machine (Option Bytes) { op : Op // op.WF } where
  step file op := some (op.1.apply crypt sha2 file)

variable {sha2 : Bool}

/-- A step from a file of records. -/
theorem exists_isFile (hcrypt : crypt.Spec) {file' : Option Bytes} {op : { op : Op // op.WF }}
    (h : ∃ rs, IsFile file rs) (happend : Appends crypt sha2 file op.1)
    (hstep : (ocpasswd crypt sha2).step file op = some file') : ∃ rs, IsFile file' rs := by
  obtain ⟨rs, h⟩ := h
  cases hstep
  exact ⟨_, apply_file hcrypt op.2 h happend⟩

/-- **Main result.** The operations of a run leave the records of the other users alone exactly if
no new record is written after a line that is not ended.  On every file of such a run `unlock`
restores what `lock` has changed, and the backend, on a file that it can read, agrees with the
records exactly where it is safe. -/
theorem ocpasswd_plain_agree (hcrypt : crypt.Spec) (h : IsFile file rs)
    (ops : List { op : Op // op.WF }) :
    ((ocpasswd crypt sha2).Meets (fun file op => Unchanged crypt sha2 file op.1) file ops ↔
        (ocpasswd crypt sha2).Meets (fun file op => Appends crypt sha2 file op.1) file ops) ∧
      ((ocpasswd crypt sha2).Meets (fun file op => Appends crypt sha2 file op.1) file ops →
        (ocpasswd crypt sha2).Always (fun file =>
          (∀ user, (Op.unlock user).apply crypt sha2 ((Op.lock user).apply crypt sha2 file) =
              file) ∧
            ∀ u p, Readable file u → (AuthAgrees crypt file u p ↔ Safe crypt file u p))
          file ops) := by
  refine ⟨?_, fun hmeets => ?_⟩
  · refine Machine.meets_congr (fun file => ∃ rs, IsFile file rs) ?_ ?_ ⟨rs, h⟩
    · rintro file op ⟨rs, h⟩
      exact unchanged_iff hcrypt op.2 h
    · intro file op file' h happend hstep
      exact exists_isFile hcrypt h happend hstep
  · have hfiles := Machine.always_of_step (P := fun file => ∃ rs, IsFile file rs)
      (fun file op file' h happend hstep => exists_isFile hcrypt h happend hstep) ⟨rs, h⟩ hmeets
    refine hfiles.imp ?_
    rintro file ⟨rs, h⟩
    exact ⟨unlock_lock h, fun u p hread => authAgrees_iff hcrypt h hread⟩

/-! ### An example -/

/-- A method of `crypt` for the salts of ocpasswd, with the password as its own digest. -/
def sampleCrypt : Crypt := fun pass setting =>
  let field (s : Bytes) : Bytes :=
    s.filter fun c => c ≠ colon ∧ c ≠ newline ∧ c ≠ 0 ∧ c ≠ carriage
  if setting.take 3 = [36, 49, 36] then
    some ([36, 49, 36] ++ field (((setting.drop 3).takeWhile (· ≠ 36)).take 8) ++ [36] ++
      field pass)
  else none

theorem sampleCrypt_spec : sampleCrypt.Spec := by
  have hmem : ∀ p s h c, sampleCrypt p s = some h →
      c = colon ∨ c = newline ∨ c = 0 ∨ c = carriage → c ∉ h := by
    intro p s h c hhash hc
    rw [sampleCrypt] at hhash
    split_ifs at hhash
    cases hhash
    rcases hc with rfl | rfl | rfl | rfl
    · simp [colon]
    · simp [newline]
    · simp
    · simp [carriage]
  refine ⟨?_, ?_, ?_⟩
  · intro p s h hhash
    exact ⟨hmem p s h _ hhash (by simp), hmem p s h _ hhash (by simp), hmem p s h _ hhash (by simp)⟩
  · intro p s h hhash
    exact hmem p s h _ hhash (by simp)
  · intro p s h hhash hinvalid
    rw [sampleCrypt] at hhash
    split_ifs at hhash with hsalt
    rcases hinvalid with rfl | hbang
    · cases hsalt
    · cases s with
      | nil => cases hsalt
      | cons c s =>
        cases hbang
        cases hsalt

/-- The user `a` of the group `g`, whose password is `p`. -/
def sampleRecord : Record := ⟨[97], [103], [36, 49, 36, 115, 36, 112]⟩

theorem sampleRecord_wf : sampleRecord.WF :=
  ⟨by decide, by decide, by decide, by decide, by decide, by decide⟩

theorem isFile_sample (b : Bool) : IsFile (some (sampleRecord.line b)) [(sampleRecord, b)] := by
  refine ⟨?_, ?_, List.pairwise_singleton _ _⟩
  · simp [Lines.joined, entries, Record.line]
  · intro r hr
    rw [List.mem_singleton.1 hr]
    exact sampleRecord_wf

/-- The password of the user `b` is set. -/
def sampleSet : { op : Op // op.WF } :=
  ⟨.set [98] [103] [113] (Vector.replicate 16 0), ⟨by decide, by decide⟩, by decide, by decide⟩

def sampleLock : { op : Op // op.WF } := ⟨.lock [97], by decide, by decide⟩

def sampleUnlock : { op : Op // op.WF } := ⟨.unlock [97], by decide, by decide⟩

/-- A new user, and `lock` and `unlock`, on a file that ends with a newline. -/
theorem ocpasswd_plain_agree_sample :
    (ocpasswd sampleCrypt false).Meets (fun file op => Unchanged sampleCrypt false file op.1)
        (some (sampleRecord.line true)) [sampleSet, sampleLock, sampleUnlock] ∧
      ∀ file, (ocpasswd sampleCrypt false).run (some (sampleRecord.line true))
          [sampleSet, sampleLock, sampleUnlock] = some file →
        AuthAgrees sampleCrypt file [97] [112] := by
  obtain ⟨hiff, hruns⟩ := @ocpasswd_plain_agree _ _ _ false sampleCrypt_spec (isFile_sample true)
    [sampleSet, sampleLock, sampleUnlock]
  have hmeets : (ocpasswd sampleCrypt false).Meets
      (fun file op => Appends sampleCrypt false file op.1) (some (sampleRecord.line true))
      [sampleSet, sampleLock, sampleUnlock] := by
    decide +kernel
  refine ⟨hiff.2 hmeets, fun file hrun => ?_⟩
  have hagrees := ((hruns hmeets).last hrun).2 [97] [112]
  cases hrun
  refine (hagrees ⟨?_, ?_, ?_, ?_⟩).2 ?_
  · decide +kernel
  · decide
  · decide +kernel
  · decide +kernel
  · decide +kernel

/-- A new user on a file that does not end with a newline joins the record of another, and the
marker of a locked user reaches `crypt`, whose result `NULL` is read. -/
theorem not_ocpasswd_plain_agree :
    sampleCrypt.Spec ∧
      (IsFile (some (sampleRecord.line false)) [(sampleRecord, false)] ∧
        ¬ Unchanged sampleCrypt false (some (sampleRecord.line false)) sampleSet.1) ∧
      IsFile (some (sampleRecord.line true)) [(sampleRecord, true)] ∧
        ∃ file, (ocpasswd sampleCrypt false).run (some (sampleRecord.line true)) [sampleLock] =
          some file ∧ ¬ AuthAgrees sampleCrypt file [97] [112] := by
  refine ⟨sampleCrypt_spec, ⟨isFile_sample false, ?_⟩, isFile_sample true, _, rfl, ?_⟩
  · decide +kernel
  · intro h
    obtain ⟨accepted, haccepted, -⟩ := h 0
    have hnone : login sampleCrypt (some (sampleRecord.lock.line true)) [97] [112] 0 = none := by
      decide +kernel
    have hfile : sampleLock.1.apply sampleCrypt false (some (sampleRecord.line true)) =
        some (sampleRecord.lock.line true) := by
      decide +kernel
    rw [hfile, hnone] at haccepted
    cases haccepted

end

end Passwd

end Ocserv
