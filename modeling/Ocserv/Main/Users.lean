import Ocserv.Main.Workers

/-!
# Main: for whom a worker is

A worker has a session (`active_sid`) after main has opened the cookie of its request and sec-mod
answered `OK`; its SID and its user name are those of the cookie, and do not change any more.

* `handleCookieReq_proc` : the worker after its request.
* `finish_procs` : the other workers are the ones they were.
-/

namespace Ocserv

namespace Main

open SecMod (Bytes strlcpy maxUsernameSize)

variable {plat : Platform} {cfg : Config} {env : Env} {s s' : MainSt} {p q : Proc}

/-- The session of a worker. -/
def Proc.user (p : Proc) : Bytes × Bytes × Bool := (p.sid, p.username, p.activeSid)

/-! ### After the request -/

theorem getIpv4_user (s : MainSt) (p : Proc) : (getIpv4 plat cfg env s p).proc.user = p.user := by
  rw [getIpv4]
  split <;> rfl

theorem getIpv6_user (s : MainSt) (p : Proc) : (getIpv6 plat cfg env s p).proc.user = p.user := by
  rw [getIpv6]
  split <;> rfl

theorem getIpLeases_user (s : MainSt) (p : Proc) :
    (getIpLeases plat cfg env s p).proc.user = p.user := by
  have h4 : (getIpv4 plat cfg env s p).proc.user = p.user := getIpv4_user s p
  have h6 : (getIpv6 plat cfg env (getIpv4 plat cfg env s p).st
      (getIpv4 plat cfg env s p).proc).proc.user = _ := getIpv6_user _ _
  rw [getIpLeases]
  dsimp only
  repeat' split
  · exact h4
  all_goals exact h6.trans h4

theorem setNetworkInfo_user (s : MainSt) (p : Proc) :
    (setNetworkInfo env s p).proc.user = p.user := by
  have haddr : (setIpv6Addr env s p).proc.user = p.user := by
    rw [setIpv6Addr]
    repeat' split
    all_goals rfl
  rw [setNetworkInfo]
  dsimp only
  repeat' split
  · rfl
  all_goals exact haddr

theorem openTun_user (s : MainSt) (p : Proc) : (openTun plat cfg env s p).proc.user = p.user := by
  have hleases : (getIpLeases plat cfg env s p).proc.user = p.user := getIpLeases_user s p
  rw [openTun]
  dsimp only
  repeat' split
  · exact hleases
  · exact hleases
  all_goals exact (setNetworkInfo_user _ _).trans hleases

theorem acceptUser_user (s : MainSt) (p : Proc) :
    (acceptUser plat cfg env s p).proc.user = p.user := by
  have htun : (openTun plat cfg env s p).proc.user = p.user := openTun_user s p
  rw [acceptUser]
  dsimp only
  repeat' split
  · rfl
  all_goals exact htun

/-- What follows a request does not change for whom the worker is, and accepts it only if the
request was granted. -/
theorem handleCookieAuthRes_user (s : MainSt) (p : Proc) (result : ℤ) :
    (handleCookieAuthRes plat cfg env s p result).proc.user = p.user ∧
      ((handleCookieAuthRes plat cfg env s p result).proc.status = .completed → result = 0) := by
  have hstatus : (cookieAuthStatus plat cfg env s p result).proc.user = p.user ∧
      (result ≠ 0 → (cookieAuthStatus plat cfg env s p result).proc.status = .failed ∧
        (cookieAuthStatus plat cfg env s p result).ret ≠ 0) := by
    rw [cookieAuthStatus]
    split
    · rename_i hres
      exact ⟨acceptUser_user s p, fun hne => absurd hres hne⟩
    · refine ⟨rfl, fun hne => ⟨rfl, ?_⟩⟩
      dsimp only
      split
      · exact hne
      · decide
  obtain ⟨huser, hfailed⟩ := hstatus
  rw [handleCookieAuthRes]
  dsimp only
  split
  · refine ⟨huser, fun hcompleted => ?_⟩
    by_contra hne
    cases (hfailed hne).1.symm.trans hcompleted
  · refine ⟨huser, fun hcompleted => ?_⟩
    by_contra hne
    obtain ⟨hfail, hret⟩ := hfailed hne
    simp only [handleScriptExit, if_neg hret, hfail] at hcompleted
    split at hcompleted <;> cases hcompleted

/-! ### The request -/

/-- A session that is opened: the cookie is opened, and the worker is for its user. -/
structure OpensCookie (env : Env) (req : Bytes) (p : Proc) (cookie : Cookie) : Prop where
  decrypted : env.decryptCookie req = some cookie
  replied : env.sessionOpen.isSome
  sid : p.sid = cookie.sid
  username : ∃ username, cookie.username = some username ∧
    p.username = strlcpy maxUsernameSize username
  active : p.activeSid = true

theorem openCookie_cases (cfg : Config) (env : Env) (p : Proc) (req : Bytes) :
    ((openCookie cfg env p req).2 = none ∧ (openCookie cfg env p req).1.activeSid = p.activeSid) ∨
      ∃ cookie, (openCookie cfg env p req).2 = some cookie ∧
        OpensCookie env req (openCookie cfg env p req).1 cookie := by
  unfold openCookie
  split
  · exact .inl ⟨rfl, rfl⟩
  · split
    · exact .inl ⟨rfl, rfl⟩
    · rename_i cookie hdecrypt
      split
      · exact .inl ⟨rfl, rfl⟩
      · rename_i username husername
        dsimp only
        split
        · exact .inl ⟨rfl, rfl⟩
        · split
          · exact .inl ⟨rfl, rfl⟩
          · split
            · exact .inl ⟨rfl, rfl⟩
            · rename_i reply hreply
              exact .inr ⟨cookie, rfl, hdecrypt, by rw [hreply]; rfl, rfl,
                ⟨username, husername, rfl⟩, rfl⟩

theorem replaceOld_user (s : MainSt) (p : Proc) (cookie : Cookie) :
    (replaceOld s p cookie).proc.user = p.user := by
  rw [replaceOld]
  split
  · rfl
  · split <;> rfl

theorem handleAuthCookieReq_user (cfg : Config) (env : Env) (s : MainSt) (p : Proc) (req : Bytes) :
    (handleAuthCookieReq cfg env s p req).proc.user = (openCookie cfg env p req).1.user ∧
      ((handleAuthCookieReq cfg env s p req).ret = 0 → (openCookie cfg env p req).2.isSome) := by
  rw [handleAuthCookieReq]
  split
  · rename_i p' hopen
    rw [hopen]
    exact ⟨rfl, fun h : (-1 : ℤ) = 0 => absurd h (by decide)⟩
  · rename_i p' cookie hopen
    rw [hopen]
    refine ⟨?_, fun _ => rfl⟩
    have hold := replaceOld_user s p' cookie
    dsimp only
    split
    · rfl
    · split
      · exact hold
      · exact hold

/-- **The worker after its request**: it has no session, or one for the user of the cookie. -/
theorem handleCookieReq_proc (plat : Platform) (cfg : Config) (env : Env) (s : MainSt) {p : Proc}
    (req : Bytes) (hidle : p.status = .inactive → p.activeSid = false) :
    let out := handleCookieReq plat cfg env s p req
    (out.proc = p ∧ out.ret < 0 ∧ p.status ≠ .inactive) ∨
      out.proc.status ≠ .inactive ∧
        ((out.proc.activeSid = false ∧ out.proc.status ≠ .completed) ∨
          ∃ cookie, OpensCookie env req out.proc cookie) := by
  dsimp only
  rw [handleCookieReq]
  split
  · rename_i hstatus
    exact .inl ⟨rfl, show errBadCommand < 0 by decide, hstatus⟩
  · rename_i hstatus
    have hstatus := not_not.1 hstatus
    rw [authCookieReq]
    obtain ⟨hreq, hret⟩ := handleAuthCookieReq_user cfg env s p req
    have hres := @handleCookieAuthRes_user plat cfg env (handleAuthCookieReq cfg env s p req).st
      (handleAuthCookieReq cfg env s p req).proc (handleAuthCookieReq cfg env s p req).ret
    obtain ⟨huser, hcompleted⟩ := hres
    refine .inr ⟨(handleCookieAuthRes_frame plat cfg env _ _ _).2, ?_⟩
    have huser := huser.trans hreq
    simp only [Proc.user, Prod.mk.injEq] at huser
    obtain ⟨hsid, husername, hactive⟩ := huser
    obtain ⟨hnone, hsame⟩ | ⟨cookie, -, hopens⟩ := openCookie_cases cfg env p req
    · refine .inl ⟨by rw [hactive, hsame, hidle hstatus], fun h => ?_⟩
      have hsome := hret (hcompleted h)
      rw [hnone] at hsome
      cases hsome
    · exact .inr ⟨cookie, hopens.decrypted, hopens.replied, hsid.trans hopens.sid,
        hopens.username.imp fun u hu => ⟨hu.1, husername.trans hu.2⟩, hactive.trans hopens.active⟩

/-- The other workers, after a request. -/
theorem finish_procs (plat : Platform) (cfg : Config) (env : Env) (s : MainSt) (p : Proc)
    (req : Bytes) (hwf : WF s) :
    let out := handleCookieReq plat cfg env s p req
    ∀ q ∈ out.finish.procs, (q = out.proc ∧ 0 ≤ out.ret) ∨
      ∃ q₀ ∈ s.procs, q.id = q₀.id ∧ q.user = q₀.user ∧ q.status = q₀.status := by
  dsimp only
  have hprocs : ∀ q ∈ (handleCookieReq plat cfg env s p req).st.procs,
      ∃ q₀ ∈ s.procs, q.id = q₀.id ∧ q.user = q₀.user ∧ q.status = q₀.status := by
    rw [handleCookieReq]
    split
    · exact fun q hq => ⟨q, hq, rfl, rfl, rfl⟩
    · rw [authCookieReq, (handleCookieAuthRes_frame plat cfg env _ _ _).1.procs_eq]
      cases (handleAuthCookieReq_cases cfg env s p req).2 with
      | nobody hprocs =>
        rw [hprocs]
        exact fun q hq => ⟨q, hq, rfl, rfl, rfl⟩
      | old old hsearch hprocs =>
        rw [hprocs]
        intro q hq
        obtain rfl | ⟨hq, -⟩ := Table.mem_update hq
        · exact ⟨old, (hwf.search hsearch).1, rfl, rfl, rfl⟩
        · exact ⟨q, hq, rfl, rfl, rfl⟩
  intro q hq
  rw [Out.finish] at hq
  split at hq
  · exact .inr (hprocs q (Table.mem_others.1 hq).1)
  · rename_i hret
    obtain rfl | ⟨hq, -⟩ := Table.mem_update hq
    · exact .inl ⟨rfl, not_lt.1 hret⟩
    · exact .inr (hprocs q hq)

end Main

end Ocserv
