import Mathlib.Data.Multiset.AddSub
import Ocserv.Main.Lease
import Ocserv.SecMod.Entry

/-!
# Main: the internal routes of a session

`apply_iroutes` and `remove_iroutes` of `src/route-add.c` run a command for every internal route of
a session: `handle_script_exit` when the session begins, `remove_proc` when the worker is removed.
A command that fails makes `apply_iroutes` take back the routes added before it.

* `routeAdddel` : one command; an unset one is a success that runs nothing.
* `applyIroutes_spec` : with both commands set, all routes are installed if every command that adds
  one succeeds, and otherwise none is.
* `settled_handleScriptExit` : the mark says which, and what is installed is removed, each route by
  one command.
-/

namespace Ocserv

namespace Main

namespace Iroutes

open SecMod (Bytes Status)

def errExec : ℤ := -10

/-- A route and the device it is for. -/
abbrev Route := Bytes × Bytes

/-- `route_add_cmd` and `route_del_cmd` of the configuration. -/
structure RouteCmds where
  routeAddCmd : Option Bytes
  routeDelCmd : Option Bytes
  deriving DecidableEq, Repr

/-- What `route_adddel` meets when it runs a command: no memory in `replace_cmd`, a failure of
`system`, or the way the command ends. -/
inductive Spawn where
  | noMem
  | notSpawned
  | abnormal
  | exited (status : ℕ)
  deriving DecidableEq, Repr

/-- A command that ran, and whether it succeeded. -/
inductive Command where
  | add (route : Route) (done : Bool)
  | del (route : Route) (done : Bool)
  deriving DecidableEq, Repr

/-- The part of `proc_st` that is used here. -/
structure IProc where
  status : Status
  iroutes : List Bytes
  tunName : Bytes
  tunFd : ℤ
  appliedIroutes : Bool
  deriving DecidableEq, Repr

/-- `route_adddel`: the command it ran, and its return value. -/
def routeAdddel (pattern : Option Bytes) (command : Bool → Command) (r : Spawn) :
    List Command × ℤ :=
  match pattern with
  | none => ([], 0)
  | some _ =>
    match r with
    | .noMem => ([], errMem)
    | .notSpawned => ([], errExec)
    | .abnormal => ([command false], errExec)
    | .exited status => if status ≠ 0 then ([command false], errExec) else ([command true], 0)

variable (cmds : RouteCmds)

/-- `route_add`. -/
def routeAdd (route : Route) (r : Spawn) : List Command × ℤ :=
  routeAdddel cmds.routeAddCmd (.add route) r

/-- `route_del`. -/
def routeDel (route : Route) (r : Spawn) : List Command × ℤ :=
  routeAdddel cmds.routeDelCmd (.del route) r

/-- The first loop of `apply_iroutes`, from index `i` on: the commands, and the index at which it
fails. -/
def addLoop (dev : Bytes) (adds : ℕ → Spawn) : ℕ → List Bytes → List Command × Option ℕ
  | _, [] => ([], none)
  | i, route :: routes =>
    let out := routeAdd cmds (route, dev) (adds i)
    if out.2 < 0 then (out.1, some i)
    else
      let rest := addLoop dev adds (i + 1) routes
      (out.1 ++ rest.1, rest.2)

/-- The loops that delete routes, from index `i` on. -/
def delLoop (dev : Bytes) (dels : ℕ → Spawn) : ℕ → List Bytes → List Command
  | _, [] => []
  | i, route :: routes =>
    (routeDel cmds (route, dev) (dels i)).1 ++ delLoop dev dels (i + 1) routes

/-- `apply_iroutes`. -/
def applyIroutes (adds dels : ℕ → Spawn) (p : IProc) : IProc × List Command :=
  if p.iroutes.length = 0 then (p, [])
  else
    match addLoop cmds p.tunName adds 0 p.iroutes with
    | (ran, none) => ({ p with appliedIroutes := true }, ran)
    | (ran, some i) => (p, ran ++ delLoop cmds p.tunName dels 0 (p.iroutes.take i))

/-- `remove_iroutes`. -/
def removeIroutes (dels : ℕ → Spawn) (p : IProc) : IProc × List Command :=
  if p.iroutes.length = 0 ∨ p.appliedIroutes = false then (p, [])
  else ({ p with appliedIroutes := false }, delLoop cmds p.tunName dels 0 p.iroutes)

/-- `handle_script_exit`; `sendOk` says that the reply can be sent. -/
def handleScriptExit (adds dels : ℕ → Spawn) (sendOk : Bool) (code : ℤ) (p : IProc) :
    IProc × List Command × ℤ :=
  let closed (p : IProc) : IProc := { p with tunFd := -1 }
  if code = 0 then
    let p := { p with status := .completed }
    if !sendOk then (closed p, [], errBadCommand)
    else
      let out := applyIroutes cmds adds dels p
      (closed out.1, out.2, 0)
  else if !sendOk then (closed p, [], errBadCommand)
  else (closed p, [], 0)

/-! ### What is installed -/

/-- The routes installed after a command. -/
def effect (m : Multiset Route) : Command → Multiset Route
  | .add r true => r ::ₘ m
  | .del r true => m.erase r
  | _ => m

/-- The routes installed after the commands. -/
def installed (m : Multiset Route) (ran : List Command) : Multiset Route := ran.foldl effect m

/-- The routes for which a command to delete them ran, in order. -/
def deleted (ran : List Command) : List Route :=
  ran.filterMap fun
    | .del r _ => some r
    | _ => none

/-- The internal routes of the session. -/
def IProc.routes (p : IProc) : List Route := p.iroutes.map fun route => (route, p.tunName)

/-- The state `q` of a session with these routes after the commands `ran`, where `m` was installed
before: all its routes are installed and it is marked, or none is and it is not; and
`remove_iroutes` then runs one command for each route that is installed for it, after which `m` is
installed again. -/
structure Settled (cmds : RouteCmds) (dels : ℕ → Spawn) (routes : List Route) (m : Multiset Route)
    (q : IProc) (ran : List Command) : Prop where
  all_or_nothing : (q.appliedIroutes = true ∧ installed m ran = m + routes) ∨
    (q.appliedIroutes = false ∧ installed m ran = m)
  deleted_once : installed m ran = m + deleted (removeIroutes cmds dels q).2
  removed : installed (installed m ran) (removeIroutes cmds dels q).2 = m
  unmarked : (removeIroutes cmds dels q).1.appliedIroutes = false

variable {cmds} {dev : Bytes} {adds dels : ℕ → Spawn} {i : ℕ} {routes : List Bytes}
  {m : Multiset Route} {p : IProc}

theorem installed_append (m : Multiset Route) (t u : List Command) :
    installed m (t ++ u) = installed (installed m t) u := List.foldl_append

theorem deleted_append (t u : List Command) : deleted (t ++ u) = deleted t ++ deleted u :=
  List.filterMap_append

/-- A command that is set succeeds, with its effect, or fails without one. -/
theorem routeAdd_spec (hadd : cmds.routeAddCmd ≠ none) (route : Route) (r : Spawn) :
    (r = .exited 0 ∧ routeAdd cmds route r = ([.add route true], 0)) ∨
      (r ≠ .exited 0 ∧ (routeAdd cmds route r).2 < 0 ∧
        installed m (routeAdd cmds route r).1 = m ∧ deleted (routeAdd cmds route r).1 = []) := by
  obtain ⟨pattern, hpattern⟩ := Option.ne_none_iff_exists'.1 hadd
  have hmem : errMem < 0 := by decide
  have hexec : errExec < 0 := by decide
  rw [routeAdd, hpattern]
  unfold routeAdddel
  cases r with
  | noMem => exact Or.inr ⟨nofun, hmem, rfl, rfl⟩
  | notSpawned => exact Or.inr ⟨nofun, hexec, rfl, rfl⟩
  | abnormal => exact Or.inr ⟨nofun, hexec, rfl, rfl⟩
  | exited status =>
    by_cases hstatus : status = 0
    · subst hstatus
      exact Or.inl ⟨rfl, rfl⟩
    · dsimp only
      rw [if_pos hstatus]
      exact Or.inr ⟨fun h => hstatus (Spawn.exited.inj h), hexec, rfl, rfl⟩

theorem routeDel_eq (hdel : cmds.routeDelCmd ≠ none) (route : Route) :
    routeDel cmds route (.exited 0) = ([.del route true], 0) := by
  obtain ⟨pattern, hpattern⟩ := Option.ne_none_iff_exists'.1 hdel
  rw [routeDel, hpattern]
  rfl

/-- Adding a route and then the others is adding all of them. -/
theorem add_cons_routes (m : Multiset Route) (route : Bytes) (routes : List Bytes) (dev : Bytes) :
    m + ((route :: routes).map (·, dev) : List Route) =
      ((route, dev) ::ₘ m) + (routes.map (·, dev) : List Route) := by
  rw [List.map_cons, ← Multiset.cons_coe, Multiset.add_cons, Multiset.cons_add]

/-- **The loop that adds**: every route, or those before the first that fails. -/
theorem addLoop_spec (hadd : cmds.routeAddCmd ≠ none) (dev : Bytes) (adds : ℕ → Spawn) (i : ℕ)
    (routes : List Bytes) (m : Multiset Route) :
    deleted (addLoop cmds dev adds i routes).1 = [] ∧
      (((addLoop cmds dev adds i routes).2 = none ∧
          (∀ j < routes.length, adds (i + j) = .exited 0) ∧
          installed m (addLoop cmds dev adds i routes).1 = m + routes.map (·, dev)) ∨
        ∃ k < routes.length, (addLoop cmds dev adds i routes).2 = some (i + k) ∧
          adds (i + k) ≠ .exited 0 ∧
          installed m (addLoop cmds dev adds i routes).1 =
            m + (routes.take k).map (·, dev)) := by
  induction routes generalizing i m with
  | nil => exact ⟨rfl, Or.inl ⟨rfl, nofun, by simp [addLoop, installed]⟩⟩
  | cons route routes ih =>
    rw [addLoop]
    rcases routeAdd_spec (m := m) hadd (route, dev) (adds i) with
      ⟨hok, hrun⟩ | ⟨hfail, hret, hnone, hdel⟩
    · obtain ⟨hdel, h⟩ := ih (i + 1) ((route, dev) ::ₘ m)
      rw [hrun]
      dsimp only
      rw [if_neg (by decide), deleted_append, hdel, installed_append,
        show installed m [.add (route, dev) true] = (route, dev) ::ₘ m from rfl]
      refine ⟨rfl, ?_⟩
      rcases h with ⟨hnone, hall, hm⟩ | ⟨k, hk, hsome, hfail, hm⟩
      · refine Or.inl ⟨hnone, fun j hj => ?_, by rw [hm, add_cons_routes]⟩
        cases j with
        | zero => exact hok
        | succ j =>
          have := hall j (by simpa using hj)
          rwa [Nat.add_right_comm] at this
      · refine Or.inr ⟨k + 1, by simpa using hk, ?_, ?_, ?_⟩
        · rw [hsome, Nat.add_right_comm]
          rfl
        · rwa [Nat.add_right_comm] at hfail
        · rw [hm, List.take_succ_cons, add_cons_routes]
    · dsimp only
      rw [if_pos hret]
      exact ⟨hdel, Or.inr ⟨0, Nat.succ_pos _, rfl, hfail, by rw [hnone]; simp⟩⟩

/-- **The loops that delete**: one command for each route, which takes back what was added. -/
theorem delLoop_spec (hdel : cmds.routeDelCmd ≠ none) (hok : ∀ j, dels j = .exited 0)
    (dev : Bytes) (i : ℕ) (routes : List Bytes) (m : Multiset Route) :
    deleted (delLoop cmds dev dels i routes) = routes.map (·, dev) ∧
      installed (m + routes.map (·, dev)) (delLoop cmds dev dels i routes) = m := by
  induction routes generalizing i with
  | nil => exact ⟨rfl, by simp [delLoop, installed]⟩
  | cons route routes ih =>
    obtain ⟨hdeleted, hm⟩ := ih (i + 1)
    rw [delLoop, hok, routeDel_eq hdel, deleted_append, installed_append, hdeleted]
    refine ⟨rfl, ?_⟩
    have herase : installed (m + ((route :: routes).map (·, dev) : List Route))
        [.del (route, dev) true] = m + (routes.map (·, dev) : List Route) := by
      rw [add_cons_routes, Multiset.cons_add]
      exact Multiset.erase_cons_head _ _
    rw [herase, hm]

/-! ### A session -/

variable {cmds' : RouteCmds} {dels' : ℕ → Spawn}

/-- A session without the mark has nothing to remove. -/
theorem settled_of_none {q : IProc} {ran : List Command} {rs : List Route}
    (hmark : q.appliedIroutes = false) (hran : installed m ran = m) :
    Settled cmds' dels' rs m q ran := by
  have hremove : removeIroutes cmds' dels' q = (q, []) := by
    rw [removeIroutes, if_pos (Or.inr hmark)]
  refine ⟨Or.inr ⟨hmark, hran⟩, ?_, ?_, ?_⟩
  · rw [hremove, hran]
    exact (Multiset.add_zero m).symm
  · rw [hremove, hran]
    rfl
  · rw [hremove]
    exact hmark

theorem settled_of_all {q : IProc} {ran : List Command} (hdel : cmds'.routeDelCmd ≠ none)
    (hok : ∀ j, dels' j = .exited 0) (hne : q.iroutes ≠ []) (hmark : q.appliedIroutes = true)
    (hran : installed m ran = m + q.routes) : Settled cmds' dels' q.routes m q ran := by
  have hne' : q.iroutes.length ≠ 0 := fun h => hne (List.length_eq_zero_iff.1 h)
  have hremove : removeIroutes cmds' dels' q = ({ q with appliedIroutes := false },
      delLoop cmds' q.tunName dels' 0 q.iroutes) := by
    rw [removeIroutes, if_neg]
    rintro (h | h)
    · exact hne' h
    · exact absurd (hmark.symm.trans h) nofun
  obtain ⟨hdeleted, hm⟩ := delLoop_spec hdel hok q.tunName 0 q.iroutes m
  refine ⟨Or.inl ⟨hmark, hran⟩, ?_, ?_, ?_⟩
  · rw [hremove, hran, hdeleted]
    rfl
  · rw [hremove, hran]
    exact hm
  · rw [hremove]

/-- The device of the tunnel plays no part. -/
theorem Settled.closed {q : IProc} {ran : List Command} {rs : List Route}
    (h : Settled cmds' dels' rs m q ran) (fd : ℤ) :
    Settled cmds' dels' rs m { q with tunFd := fd } ran := by
  have hremove : (removeIroutes cmds' dels' { q with tunFd := fd }).2 =
        (removeIroutes cmds' dels' q).2 ∧
      (removeIroutes cmds' dels' { q with tunFd := fd }).1.appliedIroutes =
        (removeIroutes cmds' dels' q).1.appliedIroutes := by
    unfold removeIroutes
    dsimp only
    split <;> exact ⟨rfl, rfl⟩
  refine ⟨h.all_or_nothing, ?_, ?_, ?_⟩
  · rw [hremove.1]
    exact h.deleted_once
  · rw [hremove.1]
    exact h.removed
  · rw [hremove.2]
    exact h.unmarked

/-- What `apply_iroutes` makes of a session without the mark: if every command that adds a route
succeeds, all its routes are installed and it is marked (unless it has none), and otherwise nothing
is installed and it is not marked. -/
structure Applies (adds : ℕ → Spawn) (m : Multiset Route) (p : IProc) (out : IProc × List Command) :
    Prop where
  routes : out.1.routes = p.routes
  added : (∀ j < p.iroutes.length, adds j = .exited 0) →
    out.1.appliedIroutes = !p.iroutes.isEmpty ∧ installed m out.2 = m + p.routes
  failed : (∃ j < p.iroutes.length, adds j ≠ .exited 0) →
    out.1.appliedIroutes = false ∧ installed m out.2 = m

/-- **`apply_iroutes`.** -/
theorem applyIroutes_spec (hadd : cmds.routeAddCmd ≠ none) (hdel : cmds.routeDelCmd ≠ none)
    (hok : ∀ j, dels j = .exited 0) (adds : ℕ → Spawn) (m : Multiset Route)
    (hfresh : p.appliedIroutes = false) : Applies adds m p (applyIroutes cmds adds dels p) := by
  unfold applyIroutes
  by_cases hnil : p.iroutes.length = 0
  · rw [if_pos hnil]
    have hempty : p.iroutes = [] := List.length_eq_zero_iff.1 hnil
    refine ⟨rfl, fun _ => ⟨?_, ?_⟩, fun ⟨j, hj, _⟩ => absurd hj (by omega)⟩
    · rw [hfresh, hempty]
      rfl
    · rw [IProc.routes, hempty]
      exact (Multiset.add_zero m).symm
  · rw [if_neg hnil]
    have hne : p.iroutes.isEmpty = false := by
      cases hroutes : p.iroutes with
      | nil => exact absurd (congrArg List.length hroutes) hnil
      | cons route routes => rfl
    obtain ⟨-, ⟨hnone, hall, hm⟩ | ⟨k, hk, hsome, hfail, hm⟩⟩ :=
      addLoop_spec hadd p.tunName adds 0 p.iroutes m
    · split
      · rename_i ran hloop
        rw [hloop] at hm
        refine ⟨rfl, fun _ => ⟨by rw [hne]; rfl, hm⟩, fun ⟨j, hj, hfail⟩ => ?_⟩
        exact absurd (Nat.zero_add j ▸ hall j hj) hfail
      · rename_i ran i hloop
        rw [hloop] at hnone
        cases hnone
    · split
      · rename_i ran hloop
        rw [hloop] at hsome
        cases hsome
      · rename_i ran i hloop
        rw [hloop] at hsome hm
        obtain rfl : i = k := by simpa using hsome
        refine ⟨rfl, fun hall => absurd (hall i hk) (Nat.zero_add i ▸ hfail), fun _ => ⟨hfresh, ?_⟩⟩
        rw [installed_append, hm]
        exact (delLoop_spec hdel hok p.tunName 0 (p.iroutes.take i) m).2

variable (adds p) in
theorem settled_applyIroutes (hfresh : p.appliedIroutes = false)
    (hadd : cmds.routeAddCmd ≠ none) (hdel : cmds.routeDelCmd ≠ none)
    (hdel' : cmds'.routeDelCmd ≠ none) (hok : ∀ j, dels j = .exited 0)
    (hok' : ∀ j, dels' j = .exited 0) (m : Multiset Route) :
    Settled cmds' dels' p.routes m (applyIroutes cmds adds dels p).1
      (applyIroutes cmds adds dels p).2 := by
  have happlies := applyIroutes_spec hadd hdel hok adds m hfresh
  by_cases hall : ∀ j < p.iroutes.length, adds j = .exited 0
  · obtain ⟨hmark, hm⟩ := happlies.added hall
    by_cases hnil : p.iroutes = []
    · rw [hnil] at hmark
      refine settled_of_none hmark (hm.trans ?_)
      rw [IProc.routes, hnil]
      exact Multiset.add_zero m
    · have hne : p.iroutes.isEmpty = false := by
        cases hroutes : p.iroutes with
        | nil => exact absurd hroutes hnil
        | cons route routes => rfl
      rw [hne] at hmark
      rw [← happlies.routes] at hm ⊢
      refine settled_of_all hdel' hok' (fun hc => hnil ?_) hmark hm
      exact List.map_eq_nil_iff.1 (happlies.routes.symm.trans (congrArg (List.map _) hc))
  · push Not at hall
    obtain ⟨hmark, hm⟩ := happlies.failed hall
    exact settled_of_none hmark hm

/-- **A session is settled** after `apply_iroutes`, and on every path of `handle_script_exit`, if
both commands are set and those that delete routes succeed. -/
theorem settled_handleScriptExit (adds : ℕ → Spawn) (m : Multiset Route)
    (hfresh : p.appliedIroutes = false)
    (hadd : cmds.routeAddCmd ≠ none) (hdel : cmds.routeDelCmd ≠ none)
    (hdel' : cmds'.routeDelCmd ≠ none) (hok : ∀ j, dels j = .exited 0)
    (hok' : ∀ j, dels' j = .exited 0) (sendOk : Bool) (code : ℤ) :
    Settled cmds' dels' p.routes m (handleScriptExit cmds adds dels sendOk code p).1
      (handleScriptExit cmds adds dels sendOk code p).2.1 := by
  unfold handleScriptExit
  dsimp only
  split_ifs
  · exact settled_of_none hfresh rfl
  · have h := settled_applyIroutes adds { p with status := .completed } hfresh hadd hdel
      hdel' hok hok' m
    exact h.closed (-1)
  · exact settled_of_none hfresh rfl
  · exact settled_of_none hfresh rfl

/-- A session with the route `r` on the device `t`. -/
def sample : IProc := ⟨.init, [[114]], [116], 3, false⟩

/-- Without a command to add routes the session is marked though nothing is installed, and
`remove_iroutes` deletes a route that is not. -/
theorem iroutes_unset :
    (applyIroutes ⟨none, some []⟩ (fun _ => .exited 0) (fun _ => .exited 0)
        sample).1.appliedIroutes = true ∧
      installed 0
        (applyIroutes ⟨none, some []⟩ (fun _ => .exited 0) (fun _ => .exited 0) sample).2 =
        0 ∧
      deleted (removeIroutes ⟨none, some []⟩ (fun _ => .exited 0)
        (applyIroutes ⟨none, some []⟩ (fun _ => .exited 0) (fun _ => .exited 0) sample).1).2 =
          [([114], [116])] :=
  ⟨rfl, rfl, rfl⟩

end Iroutes

end Main

end Ocserv
