import Ocserv.SecMod.Authenticated
import Ocserv.SecMod.Context
import Ocserv.SecMod.CookieLifetime

/-!
# Sec-mod: what is sealed in the cookies

* `grant_always` : in every run, an entry has the module of a method of the configuration, and the
  cookies of its replies are made by `encrypt_cookie` from its own SID.
-/

namespace Ocserv

namespace SecMod

variable {cfg : Config} {env : Env} {e e₁ : ClientEntry} {evs : List Event} {out : Out}

/-- The cookies of the events are made by `encrypt_cookie`, with the SID. -/
def Signed (Made : Cookie → Bytes → Prop) (sid : Bytes) (evs : List Event) : Prop :=
  ∀ ev ∈ evs, ∀ cookie sealed, ev.issued? = some (cookie, sealed) →
    sealed.sid = sid ∧ Made sealed cookie

/-- What `encrypt_cookie` makes in an environment. -/
def Env.Made (env : Env) (c : Cookie) (cookie : Bytes) : Prop := env.encryptCookie c = some cookie

variable {Made : Cookie → Bytes → Prop} {sid : Bytes}

theorem Signed.of_none (h : ∀ ev ∈ evs, ev.issued? = none) : Signed Made sid evs := by
  intro ev hev cookie sealed hissued
  rw [h ev hev] at hissued
  cases hissued

theorem Signed.append {evs' : List Event} (h : Signed Made sid evs) (h' : Signed Made sid evs') :
    Signed Made sid (evs ++ evs') := by
  intro ev hev
  obtain hev | hev := List.mem_append.1 hev
  · exact h ev hev
  · exact h' ev hev

theorem Signed.imp {Made' : Cookie → Bytes → Prop} (h : Signed Made sid evs)
    (himp : ∀ c cookie, Made c cookie → Made' c cookie) : Signed Made' sid evs :=
  fun ev hev cookie sealed hissued => (h ev hev cookie sealed hissued).imp_right (himp _ _)

/-- The events of a session issue nothing. -/
theorem Signed.of_session (h : ∀ ev ∈ evs, ev.isAuth = false) : Signed Made sid evs := by
  refine .of_none fun ev hev => ?_
  have hauth := h ev hev
  cases ev <;> first | rfl | cases hauth

theorem Out.orFail_events (out : Out) : out.orFail.events = out.events := by
  rw [Out.orFail]
  split <;> rfl

theorem generateCookie_sid {msg : Cookie} {cookie : Bytes}
    (h : generateCookie cfg env e = some (msg, cookie)) :
    msg.sid = e.sid ∧ env.Made msg cookie := by
  by_cases hpred : cfg.predictableIps = true
  · simp only [generateCookie, hpred, if_true] at h
    obtain ⟨seed, -, h⟩ := Option.bind_eq_some_iff.1 h
    obtain ⟨cookie', hcookie, h⟩ := Option.bind_eq_some_iff.1 h
    cases h
    exact ⟨rfl, hcookie⟩
  · simp only [generateCookie, hpred] at h
    obtain ⟨seed, -, h⟩ := Option.bind_eq_some_iff.1 h
    obtain ⟨cookie', hcookie, h⟩ := Option.bind_eq_some_iff.1 h
    cases h
    exact ⟨rfl, hcookie⟩

theorem sendAuthReplyOk_signed :
    Signed env.Made e.sid (sendAuthReplyOk cfg env e).orFail.events := by
  rw [Out.orFail_events, sendAuthReplyOk]
  cases hmade : generateCookie cfg env e with
  | none => exact .of_none fun _ h => absurd h List.not_mem_nil
  | some made =>
    obtain ⟨msg, cookie⟩ := made
    dsimp only
    split
    · intro ev hev cookie' sealed hissued
      obtain rfl := List.mem_singleton.1 hev
      cases hissued
      exact generateCookie_sid hmade
    · exact .of_none fun _ h => absurd h List.not_mem_nil

/-- **`handle_sec_auth_res`** seals the SID of the entry. -/
theorem handleAuthRes_signed (cfg : Config) (env : Env) (e : ClientEntry) (result : ℤ) :
    Signed env.Made e.sid (handleAuthRes cfg env e result).events := by
  have hmsg : Signed env.Made e.sid (getAuthMsg env e result).events :=
    .of_none (getAuthMsg_issued result)
  rw [handleAuthRes]
  split
  · rw [Out.orFail_events]
    exact hmsg
  · split
    · exact hmsg.append (.of_none handleAuthContinue_issued)
    · split
      · refine hmsg.append (.append (.of_none getAuthUser_issued) ?_)
        have hsid :
            (getAuthUser env ((getAuthMsg env e result).entry.setStatus .completed)).entry.sid =
              e.sid :=
          (getAuthUser_frame env _).same.sid_eq.trans (getAuthMsg_frame env e result).same.sid_eq
        rw [← hsid]
        exact sendAuthReplyOk_signed
      · exact hmsg.append (.of_none (handleAuthFailure_issued result))

theorem handleAuthRes_signed_of_same (cfg : Config) (env : Env) (hs : SameSessions e e₁)
    (result : ℤ) (hevs : ∀ ev ∈ evs, ev.issued? = none) :
    Signed env.Made e.sid ((handleAuthRes cfg env e₁ result).after evs).events := by
  rw [← hs.sid_eq]
  exact .append (.of_none hevs) (handleAuthRes_signed cfg env e₁ result)

/-- What `handle_sec_auth_init` seals, and the module it chooses. -/
theorem handleAuthInit_grant (cfg : Config) (env : Env) (req : AuthInitMsg) (e : ClientEntry) :
    Signed env.Made e.sid (handleAuthInit cfg env req e).events ∧
      ((handleAuthInit cfg env req e).entry.status = .failed ∨
        ∃ method ∈ cfg.auth, (handleAuthInit cfg env req e).entry.module = method.amod) := by
  rw [handleAuthInit]
  split
  · exact ⟨handleAuthRes_signed cfg env e (-1), .inl (handleAuthRes_error (by decide) (by decide))⟩
  · rename_i method hmethod
    have hmem : method ∈ cfg.auth := by
      rw [setModule] at hmethod
      split at hmethod
      · cases hmethod
      · exact List.mem_of_find?_eq_some hmethod
    have hcalls := @initModule_issued env (chooseMethod req method e) req
    have hframe := (initModule_frame env req (chooseMethod req method e)).1
    have hmodule : (initModule env req (chooseMethod req method e)).1.module = method.amod := by
      rw [initModule]
      repeat' split
      all_goals rfl
    have hchoose : SameSessions e (chooseMethod req method e) := ⟨rfl, rfl, rfl, rfl, rfl, rfl, rfl⟩
    split <;> rename_i e₁ calls _ hinit <;> rw [hinit] at hcalls hframe hmodule
    · refine ⟨handleAuthRes_signed_of_same cfg env (hchoose.trans hframe) _ hcalls, .inr ?_⟩
      exact ⟨method, hmem, (handleAuthRes_frame cfg env e₁ _).module_eq.trans hmodule⟩
    · split
      · refine ⟨handleAuthRes_signed_of_same cfg env (hchoose.trans hframe) _ hcalls, .inr ?_⟩
        exact ⟨method, hmem, (handleAuthRes_frame cfg env e₁ _).module_eq.trans hmodule⟩
      · rename_i e₂ hgroup
        obtain ⟨hsame₂, hmodule₂⟩ := certGroup_frame hgroup
        obtain ⟨hsame₃, hmodule₃⟩ := checkUserGroupStatus_frame cfg req e₂
        have hs := ((hchoose.trans hframe).trans hsame₂).trans hsame₃
        have hm := (hmodule₃.trans hmodule₂).trans hmodule
        split <;> rename_i e₃ hcheck <;> rw [hcheck] at hs hm
        · refine ⟨handleAuthRes_signed_of_same cfg env hs _ hcalls, .inr ⟨method, hmem, ?_⟩⟩
          exact (handleAuthRes_frame cfg env e₃ _).module_eq.trans hm
        · refine ⟨handleAuthRes_signed_of_same cfg env (hs.trans (.setStatus e₃ .init)) _ ?_,
            .inr ⟨method, hmem, ?_⟩⟩
          · intro ev hev
            obtain hev | hev := List.mem_append.1 hev
            · exact hcalls ev hev
            · rw [List.mem_singleton.1 hev]
              rfl
          · exact (handleAuthRes_frame cfg env (e₃.setStatus .init) _).module_eq.trans hm

theorem handleAuthCont_signed (cfg : Config) (env : Env) (req : AuthContMsg) (e : ClientEntry) :
    Signed env.Made e.sid (handleAuthCont cfg env req e).events := by
  rw [handleAuthCont]
  split
  · exact handleAuthRes_signed cfg env e (-1)
  · split
    · exact handleAuthRes_signed cfg env e (-1)
    · split
      · exact handleAuthRes_signed cfg env e (-1)
      · exact handleAuthRes_signed_of_same cfg env (.setStatus e .cont) _ (by simp [Event.issued?])

/-! ### In every run -/

/-- An entry that has not failed has the module of a method, and its cookies have its SID. -/
structure Grants (cfg : Config) (Made : Cookie → Bytes → Prop) (e : ClientEntry)
    (t : List Event) : Prop where
  auth : AuthInv e t
  signed : Signed Made e.sid t
  method : e.status = .failed ∨ ∃ method ∈ cfg.auth, e.module = method.amod

/-- The cookies of sec-mod are `Made`. -/
def Makes (Made : Cookie → Bytes → Prop) (_ : ClientEntry) (_ : List Event) (cmd : Cmd)
    (env : Env) : Prop :=
  cmd.fromMain = false → ∀ c cookie, env.Made c cookie → Made c cookie

theorem Handles.signed {cmd : Cmd} {out : SessionOut} (h : Handles cfg env e cmd out)
    (hmakes : cmd.fromMain = false → ∀ c cookie, env.Made c cookie → Made c cookie) :
    Signed Made e.sid out.events := by
  cases h with
  | authCont req => exact (handleAuthCont_signed cfg env req e).imp (hmakes rfl)
  | sessionOpen req =>
    exact .of_session fun ev hev => ((handleSessionOpen_frame cfg env req e).events ev hev).2
  | sessionClose req =>
    exact .of_session fun ev hev => ((handleSessionClose_frame env req e).events ev hev).2
  | cliStats req =>
    exact .of_session fun ev hev => ((handleStatsCmd_frame cfg req e).events ev hev).2

theorem AuthInv.handles {t : List Event} {cmd : Cmd} {out : SessionOut} (h : AuthInv e t)
    (hout : Handles cfg env e cmd out) : AuthInv out.entry (t ++ out.events) := by
  cases hout with
  | authCont req => exact h.authCont req
  | sessionOpen req => exact h.session (handleSessionOpen_frame cfg env req e)
  | sessionClose req => exact h.session (handleSessionClose_frame env req e)
  | cliStats req => exact h.session (handleStatsCmd_frame cfg req e)

/-- **The grants of sec-mod**, in every run. -/
theorem grant_always {is : List (Cmd × Env)}
    (hC : (machine cfg).Meets (OnEntry (Makes Made)) start is) :
    (machine cfg).Always (Entries (Grants cfg Made)) start is := by
  refine entries_invariant ?_ ?_ hC
  · intro env s req e hnew hmakes
    obtain ⟨hsigned, hmethod⟩ := handleAuthInit_grant cfg env req e
    refine ⟨.authInit req e, ?_, hmethod⟩
    rw [(handleAuthInit_frame cfg env req e).same.sid_eq]
    intro ev hev
    rcases List.mem_cons.1 hev with rfl | hev
    · intro cookie sealed hissued
      cases hissued
    · exact hsigned.imp (hmakes rfl) ev hev
  · intro env cmd e t out hinv hmakes hout _
    refine ⟨hinv.auth.handles hout, ?_, ?_⟩
    · rw [hout.frame.2.1]
      exact hinv.signed.append (hout.signed hmakes)
    · rw [hout.context.module_eq]
      exact hinv.method.imp_left hout.failed

end SecMod

end Ocserv
