import Ocserv.Main.Workers

/-!
# Main: reconnecting with a cookie

A client that connects again sends the cookie it has, and the worker that was serving it is
displaced: `handle_auth_cookie_req` looks for a worker with the SID of the cookie, takes its
leases and sends it `SIGTERM`.  The search ends at the first worker of the table that has the SID,
which may be one that was displaced earlier and has not exited yet.

* `cookie_exclusive` : after a request that is accepted, the worker is the only one of the session
  that was not sent `SIGTERM`, and has the leases of the session, exactly where the search finds
  the one that was alive;
* `not_exclusive_of_lingering` : three connections of one client, the last of which displaces the
  first once more.
-/

namespace Ocserv

namespace Main

open SecMod (Bytes)

variable {plat : Platform} {cfg : Config} {s s₁ : MainSt} {p p₁ q : Proc}

/-- The state and the worker after `handle_auth_cookie_req` accepted its request. -/
def accepted (cfg : Config) (s : MainSt) : Label → Option (MainSt × Proc)
  | .cookieReq id req env =>
    (s.find id).bind fun p =>
      let out := handleAuthCookieReq cfg env s p req
      if p.status = .inactive ∧ out.ret = 0 then some (out.st.put out.proc, out.proc) else none
  | _ => none

/-- A worker of the session that was not sent `SIGTERM`, before the request of the worker `id`. -/
structure IsLive (s : MainSt) (id : ℕ) (sid : Bytes) (q : Proc) : Prop where
  mem : q ∈ s.procs
  ne : q.id ≠ id
  sid : q.sid = sid
  sigterm : q.sigterm = false

/-- After the request, in the state `s₁`, the worker `p` has its session for itself. -/
structure Exclusive (s s₁ : MainSt) (p : Proc) : Prop where
  self : p ∈ s₁.procs ∧ p.sigterm = false
  only : ∀ q ∈ s₁.procs, q.sid = p.sid → q.sigterm = false → q = p
  leases : ∀ q, IsLive s p.id p.sid q → p.ipv4 = q.ipv4 ∧ p.ipv6 = q.ipv6

/-- No other worker with the SID comes before `q` in the table. -/
def FirstOfSid (s : MainSt) (sid : Bytes) (q : Proc) : Prop :=
  ∃ before after, s.dbSid = before ++ q.id :: after ∧ ∀ r ∈ s.procs, r.id ∈ before → r.sid ≠ sid

/-- Every worker of the session that is alive comes first in the table when the request is made:
there is at most one, and no worker that was sent `SIGTERM` comes before it. -/
def FindsLive (s : MainSt) : Label → Prop
  | .cookieReq id req env => ∀ cookie, env.decryptCookie req = some cookie →
      ∀ q, IsLive s id cookie.sid q → FirstOfSid s cookie.sid q
  | _ => True

/-- What `proc_search_sid` finds. -/
theorem procSearchSid_eq_some (hwf : WF s) {sid : Bytes} (hq : q ∈ s.procs) (hsid : q.sid = sid) :
    procSearchSid s sid = some q ↔ FirstOfSid s sid q := by
  have hfind : ∀ r ∈ s.procs, s.find r.id = some r := fun r hr => Table.find?_eq_some hwf.ids hr
  constructor
  · intro h
    obtain ⟨id, hget, hid⟩ := Option.bind_eq_some_iff.1 h
    obtain ⟨-, rfl⟩ := Table.mem_of_find? hid
    obtain ⟨-, before, after, hdb, hnot⟩ := HTable.get_eq_some.1 hget
    refine ⟨before, after, hdb, ?_⟩
    intro r hr hmem hrsid
    have := hnot r.id hmem
    simp [hfind r hr, hrsid] at this
  · rintro ⟨before, after, hdb, hnot⟩
    refine Option.bind_eq_some_iff.2 ⟨q.id, HTable.get_eq_some.2 ⟨?_, before, after, hdb, ?_⟩,
      hfind q hq⟩
    · simp [hfind q hq, hsid]
    · intro id hmem
      cases hid : s.find id with
      | none => rfl
      | some r =>
        obtain ⟨hr, rfl⟩ := Table.mem_of_find? hid
        simpa using hnot r hr hmem

/-- Nobody was displaced. -/
theorem exclusive_iff_of_nobody (hp : p ∈ s.procs) (hid : p₁.id = p.id)
    (hself : p₁.sigterm = false) (hprocs : s₁.procs = (s.put p₁).procs)
    (hsearch : procSearchSid s p₁.sid = none) :
    Exclusive s s₁ p₁ ↔ ∀ q, IsLive s p₁.id p₁.sid q → procSearchSid s p₁.sid = some q := by
  constructor
  · intro h q hq
    have hmem : q ∈ s₁.procs := hprocs ▸ Table.mem_update_of_ne hq.mem hq.ne
    exact absurd (congrArg Proc.id (h.only q hmem hq.sid hq.sigterm)) hq.ne
  · intro h
    have hnone : ∀ q, ¬ IsLive s p₁.id p₁.sid q := fun q hq => by
      have := h q hq
      rw [hsearch] at this
      cases this
    refine ⟨⟨hprocs ▸ Table.mem_update_self hp hid.symm, hself⟩, fun q hq hsid hlive => ?_,
      fun q hq => absurd hq (hnone q)⟩
    rw [hprocs] at hq
    obtain rfl | ⟨hq, hne⟩ := Table.mem_update hq
    · rfl
    · exact absurd ⟨hq, hne, hsid, hlive⟩ (hnone q)

/-- The worker `old` was displaced. -/
theorem exclusive_iff_of_old {old : Proc} (hwf : WF s) (hp : p ∈ s.procs) (hid : p₁.id = p.id)
    (hself : p₁.sigterm = false) (hold : old ∈ s.procs) (hne : old.id ≠ p.id)
    (hprocs : s₁.procs = ((s.put old.displaced).put p₁).procs)
    (h4 : p₁.ipv4 = old.ipv4) (h6 : p₁.ipv6 = old.ipv6)
    (hsearch : procSearchSid s p₁.sid = some old) :
    Exclusive s s₁ p₁ ↔ ∀ q, IsLive s p₁.id p₁.sid q → procSearchSid s p₁.sid = some q := by
  have hother : ∀ q ∈ s.procs, q.id ≠ p₁.id → q.id ≠ old.id → q ∈ s₁.procs := fun q hq h₁ h₂ =>
    hprocs ▸ Table.mem_update_of_ne (Table.mem_update_of_ne hq h₂) h₁
  constructor
  · intro h q hq
    rw [hsearch]
    by_cases hqold : q.id = old.id
    · rw [Table.eq_of_key_eq hwf.ids hq.mem hold hqold]
    · have hmem := hother q hq.mem hq.ne hqold
      exact absurd (congrArg Proc.id (h.only q hmem hq.sid hq.sigterm)) hq.ne
  · intro h
    refine ⟨⟨?_, hself⟩, fun q hq hsid hlive => ?_, fun q hq => ?_⟩
    · rw [hprocs]
      exact Table.mem_update_self (Table.mem_update_of_ne hp hne.symm) hid.symm
    · rw [hprocs] at hq
      obtain rfl | ⟨hq, hqne⟩ := Table.mem_update hq
      · rfl
      · obtain rfl | ⟨hq, hqold⟩ := Table.mem_update hq
        · simp [Proc.displaced, hwf.pid old hold] at hlive
        · have := h q ⟨hq, hqne, hsid, hlive⟩
          rw [hsearch] at this
          cases this
          exact absurd rfl hqold
    · have := h q hq
      rw [hsearch] at this
      cases this
      exact ⟨h4, h6⟩

/-- The step lemma of `cookie_exclusive`. -/
theorem exclusive_iff (hwf : WF s) {i : Label} (h : accepted cfg s i = some (s₁, p₁)) :
    Exclusive s s₁ p₁ ↔ FindsLive s i := by
  cases i with
  | connect pid => cases h
  | remove id => cases h
  | cookieReq id req env =>
    obtain ⟨p, hfind, haccept⟩ := Option.bind_eq_some_iff.1 h
    obtain ⟨hp, rfl⟩ := Table.mem_of_find? hfind
    simp only [Option.ite_none_right_eq_some, Option.some.injEq, Prod.mk.injEq] at haccept
    obtain ⟨⟨hstatus, hret⟩, rfl, rfl⟩ := haccept
    obtain ⟨hcookie, hdisp⟩ := handleAuthCookieReq_cases cfg env s p req
    obtain ⟨cookie, hdecrypt, hsid⟩ := handleAuthCookieReq_sid hret
    have hself := hcookie.sigterm_eq.trans (hwf.idle p hp hstatus).2.2
    -- What the search finds, in the terms of the table.
    have hfinds : FindsLive s (.cookieReq p.id req env) ↔
        ∀ q, IsLive s (handleAuthCookieReq cfg env s p req).proc.id
          (handleAuthCookieReq cfg env s p req).proc.sid q →
            procSearchSid s (handleAuthCookieReq cfg env s p req).proc.sid = some q := by
      simp only [FindsLive, hdecrypt, Option.some.injEq, forall_eq', hcookie.id_eq, hsid]
      exact forall_congr' fun q => forall_congr' fun hq =>
        (procSearchSid_eq_some hwf hq.mem hq.sid).symm
    rw [hfinds]
    cases hdisp with
    | nobody hprocs h4 h6 hsearch =>
      exact exclusive_iff_of_nobody hp hcookie.id_eq hself (by simp only [MainSt.put, hprocs])
        (hsearch hret)
    | old old hsearch hprocs h4 h6 =>
      obtain ⟨hold, -, -, hactive⟩ := hwf.search hsearch
      refine exclusive_iff_of_old hwf hp hcookie.id_eq hself hold (fun hid => hactive ?_)
        (by simp only [MainSt.put, hprocs]) h4 h6 hsearch
      rw [Table.eq_of_key_eq hwf.ids hold hp hid]
      exact hstatus

/-- **Reconnecting.**  In every run, at every `AUTH_COOKIE_REQ` that is accepted: the worker is
the only one of its session that was not sent `SIGTERM`, and has the leases of the one that was
alive before, if and only if the search for the SID finds the one that was alive (`FindsLive`). -/
theorem cookie_exclusive (is : List Label) :
    (machine plat cfg).Meets (fun s i => ∀ s₁ p₁, accepted cfg s i = some (s₁, p₁) →
      (Exclusive s s₁ p₁ ↔ FindsLive s i)) start is :=
  (wf_always is).meets fun _ _ hwf _ _ h => exclusive_iff hwf h

namespace Sample

/-- Three connections of one client; the second has displaced the first. -/
def twoReconnects : List Label :=
  [.connect 10, .connect 11, .connect 12, .cookieReq 0 [1] (environ [0] 5 none),
    .cookieReq 1 [1] (environ [0, 1] 5 none)]

/-- The third connection sends its cookie. -/
def thirdReconnect : Label := .cookieReq 2 [1] (environ [0, 1, 2] 5 none)

end Sample

open Sample in
/-- The third connection takes nothing from the first, which has lost its leases already; the
second one stays alive, and has the leases. -/
theorem not_exclusive_of_lingering :
    ∃ s s₁ p₁ q, (machine platform config).run start twoReconnects = some s ∧
      accepted config s thirdReconnect = some (s₁, p₁) ∧ ¬ Exclusive s s₁ p₁ ∧
      q ∈ s₁.procs ∧ q ≠ p₁ ∧ q.sid = p₁.sid ∧ q.sigterm = false ∧ q.leases ≠ [] ∧
      p₁.leases = [] := by
  refine ⟨_, _, _, _, rfl, rfl, fun h => ?_, List.mem_cons_of_mem _ (List.mem_cons_self ..),
    by decide, rfl, rfl, by decide, rfl⟩
  exact absurd (h.only _ (List.mem_cons_of_mem _ (List.mem_cons_self ..)) rfl rfl) (by decide)

end Main

end Ocserv
