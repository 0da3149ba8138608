import Ocserv.Config.Reload
import Ocserv.PerUser.CookieReply
import Ocserv.Worker.Http
import Ocserv.Worker.Mtu

/-!
# The routes that a client is told

The routes of the configuration file and those of the session, from the file and from the message
of main to the headers that `connect_handler` sends.  A default route in one of the lists means
that no route is sent, so that the client sends everything through the VPN.

* `parse_cfg_file` (`src/config.c`) makes the list of the server empty if it has a default route,
* `recv_cookie_auth_reply` (`src/worker-auth.c`) does the same with the list of the session, and
  notes it in `default_route`,
* `complete_vpn_info` (`src/worker-misc.c`) searches the list of the server once more,
* `send_routes` (`src/worker-vpn.c`) sends those of a family that the client accepts, if
  `connect_handler` gets so far: without a device or an address it refuses the client.

The first of them notes nothing, and so the routes of a session are sent.

* `routes_advertised_iff` : when the client gets the headers that it should.
-/

namespace Ocserv

namespace Worker

namespace Routes

open PerUser (AuthReplyMsg SessionWorker GlobalCfg ConfigFile maxConfigEntries authRepOk
  checkIfDefaultRoute dualStack isDefaultRoute recvAddress recvCookieAuthReply recvRoutes_eq)
open Config (Heap Failure readMulti readMultiLine dropRoutes)
open SecMod (Bytes)

/-! ### The headers -/

/-- `ip6` of a route. -/
def ip6 (route : Bytes) : Bool := (strchr 58 route).isSome

/-- The text that `cstp_printf` makes for a route. -/
def splitHeader (req : Derived) (incl : Bool) (route : Bytes) : Bytes :=
  ascii "X-CSTP-Split-" ++ (if incl then ascii "Include" else ascii "Exclude") ++
    (if ip6 route && req.fullIpv6 then ascii "-IP6: " else ascii ": ") ++ route ++ ascii "\r\n"

/-- The route is not skipped. -/
def sent (req : Derived) (route : Bytes) : Bool :=
  !(req.noIpv6 && ip6 route) && !(req.noIpv4 && !ip6 route)

/-- `send_routes`, after some headers; `printf` gives what `cstp_printf` returns after so many of
them.  An error comes with the headers that were sent before it. -/
def sendRoutes (printf : ℕ → ℤ) (req : Derived) (incl : Bool) :
    List Bytes → List Bytes → Except (List Bytes) (List Bytes)
  | [], headers => .ok headers
  | route :: routes, headers =>
    if sent req route then
      if printf headers.length < 0 then .error headers
      else sendRoutes printf req incl routes (headers ++ [splitHeader req incl route])
    else sendRoutes printf req incl routes headers

/-- The request when the routes are sent: `connect_handler` sets `no_ipv6` for a small MTU, and
for a client that cannot handle routes in IPv6. -/
def reqAtRoutes (ws : SessionWorker) (connMtu : ℕ) (req : Derived) : Derived :=
  let req :=
    { req with noIpv6 := req.noIpv6 || (decide (connMtu < 1280) && ws.ipv6.isSome) }
  { req with noIpv6 := req.noIpv6 || !req.fullIpv6 || req.userAgentType != .openconnect }

/-- The routes of the server and those of the session, unless there is a default route. -/
def sendIncluded (printf : ℕ → ℤ) (ws : SessionWorker) (req : Derived) :
    Except (List Bytes) (List Bytes) :=
  match ws.settings.routes with
  | none => .ok []
  | some (vinfoRoutes, routes) => do
    let headers ← sendRoutes printf req true vinfoRoutes []
    sendRoutes printf req true routes headers

/-- The calls of `send_routes` in `connect_handler`. -/
def sendAllRoutes (printf : ℕ → ℤ) (ws : SessionWorker) (connMtu : ℕ) (req : Derived) :
    Except (List Bytes) (List Bytes) := do
  let req := reqAtRoutes ws connMtu req
  let headers ← sendIncluded printf ws req
  let headers ← sendRoutes printf req false ws.settings.noRoutes.1 headers
  sendRoutes printf req false ws.settings.noRoutes.2 headers

/-- What `connect_handler` finds outside the worker. -/
structure ConnectEnv where
  /-- `complete_vpn_info` finds an MTU: it is configured, or `socket` succeeds. -/
  mtuFound : Bool
  /-- The headers before those of the routes are sent. -/
  sendsFirst : Bool
  /-- What `cstp_printf` returns after so many headers of routes. -/
  printf : ℕ → ℤ

/-- `complete_vpn_info`; the lists it completes are `settings`. -/
def completeVpnInfo (env : ConnectEnv) (ws : SessionWorker) : ℤ :=
  if ws.ipv4 = none ∧ ws.ipv6 = none then -1 else if env.mtuFound then 0 else -1

/-- `connect_handler`, as far as it sends routes, with what can end it before.  `device` is
`network.name`. -/
def connectHandler (device : Bytes) (env : ConnectEnv) (ws : SessionWorker) (connMtu : ℕ)
    (req : Derived) : Except (List Bytes) (List Bytes) :=
  if device = [] then .error []
  else if completeVpnInfo env ws < 0 then .error []
  else if !env.sendsFirst then .error []
  else sendAllRoutes env.printf ws connMtu req

/-- The headers that were sent, whether there was an error or not. -/
def headersOf : Except (List Bytes) (List Bytes) → List Bytes
  | .ok headers => headers
  | .error headers => headers

/-! ### What the client should be told -/

/-- The routes of the configuration file. -/
def fileRoutes (pov : ConfigFile) : List Bytes :=
  if (pov.find? fun val => caseEq val.pzName (ascii "route")).any (·.valType = .string) then
    (pov.filter (·.pzName = ascii "route")).map (·.strVal)
  else []

/-- Nothing fails. -/
structure ConnectEnv.Works (env : ConnectEnv) : Prop where
  mtuFound : env.mtuFound = true
  sendsFirst : env.sendsFirst = true
  printf : ∀ i, 0 ≤ env.printf i

/-- The IPv4 address that the client gets. -/
def addressIpv4 (msg : AuthReplyMsg) : Option Bytes := recvAddress (ascii "0.0.0.0") none msg.ipv4

/-- The IPv6 address that the client gets. -/
def addressIpv6 (msg : AuthReplyMsg) : Option Bytes := recvAddress (ascii "::") none msg.ipv6

/-- The client takes routes of this family: for IPv6 it has to say so, to be one that can handle
them, and to have a connection that is large enough for the address it gets. -/
def accepts (msg : AuthReplyMsg) (connMtu : ℕ) (req : Derived) (route : Bytes) : Bool :=
  if ip6 route then
    !req.noIpv6 && req.fullIpv6 && req.userAgentType == .openconnect &&
      !(decide (connMtu < 1280) && (addressIpv6 msg).isSome)
  else !req.noIpv4

/-- The header for an accepted route. -/
def includeHeader (route : Bytes) : Bytes :=
  ascii "X-CSTP-Split-Include" ++ (if ip6 route then ascii "-IP6: " else ascii ": ") ++ route ++
    ascii "\r\n"

/-- A `X-CSTP-Split-Include` header, or that of IPv6. -/
def isInclude (header : Bytes) : Bool := (ascii "X-CSTP-Split-Include").isPrefixOf header

/-- What a client should be told of the routes of the server and those of its session. -/
def toldRoutes (msg : AuthReplyMsg) (connMtu : ℕ) (req : Derived) (global : List Bytes) :
    List Bytes :=
  if checkIfDefaultRoute (global ++ msg.routes) then []
  else ((global ++ msg.routes).filter (accepts msg connMtu req)).map includeHeader

/-- The server has a device, and the client an address: it is not refused. -/
def Connects (device : Bytes) (msg : AuthReplyMsg) : Prop :=
  device ≠ [] ∧ ((addressIpv4 msg).isSome ∨ (addressIpv6 msg).isSome)

instance (device : Bytes) (msg : AuthReplyMsg) : Decidable (Connects device msg) :=
  inferInstanceAs (Decidable (_ ∧ _))

/-- A server that is started with the file `pov` and whose other options are those of `global`. -/
def serverCfg (global : GlobalCfg) (routes : List Bytes) : GlobalCfg :=
  { global with routes := dropRoutes routes }

/-- The server reads its file, the worker gets its message, and the client is told the routes of
both: all of them if nothing fails, and never more. -/
def Advertised (heap : Heap) (pov : ConfigFile) (global : GlobalCfg) (device : Bytes)
    (socketfd : Option ℕ) (msg : AuthReplyMsg) (connMtu : ℕ) (req : Derived) : Prop :=
  ∃ routes ws, readMulti heap pov (ascii "route") [] = .ok routes ∧
    recvCookieAuthReply (.start (serverCfg global routes)) socketfd msg = .ok ws ∧
    ∀ env : ConnectEnv,
      let headers := (headersOf (connectHandler device env ws connMtu req)).filter isInclude
      let told := toldRoutes msg connMtu req (fileRoutes pov)
      headers <+: told ∧ (env.Works → headers = told)

/-- What `recv_cookie_auth_reply` requires of a reply. -/
structure Reply (socketfd : Option ℕ) (msg : AuthReplyMsg) : Prop where
  reply : msg.reply = authRepOk
  socketfd : socketfd.isSome
  vname : msg.vname.isSome
  userName : msg.userName.isSome

/-! ### The configuration file -/

theorem lines_route (pov : ConfigFile) :
    readMultiLine.lines pov (ascii "route") =
      (fileRoutes pov).map fun route => some (some route) := by
  unfold Config.ListMacro.lines fileRoutes
  split
  · rename_i hstring
    have hstring' : ((pov.find? fun val => caseEq val.pzName (ascii "route")).any
        (·.valType = .string)) = true := hstring
    rw [if_pos hstring', List.map_map]
    rfl
  · rename_i hstring
    have hstring' : ¬ ((pov.find? fun val => caseEq val.pzName (ascii "route")).any
        (·.valType = .string)) = true := hstring
    rw [if_neg hstring', if_neg (by decide)]
    rfl

/-- The list of the server is read from its file, if it is short enough for the array. -/
theorem readMulti_route (heap : Heap) (pov : ConfigFile) :
    readMulti heap pov (ascii "route") [] =
      if (fileRoutes pov).length < maxConfigEntries then .ok (fileRoutes pov)
      else .error .overrun := by
  have hstart : readMultiLine.Holds ⟨none, 0⟩ [] := ⟨rfl, nofun, fun _ => rfl⟩
  have hlines : readMultiLine.optionLines ⟨ascii "route", []⟩ [] pov =
      (fileRoutes pov).map fun route => some (some route) := by
    unfold Config.ListMacro.optionLines
    dsimp only
    rw [List.nil_append, lines_route]
    split
    · rename_i hnil
      rw [hnil]
      rfl
    · rfl
  have hread := Config.ListMacro.readOption_readsTo heap.strings ⟨ascii "route", []⟩ pov hstart
  rw [hlines] at hread
  have htake : ((fileRoutes pov).map fun route => some (some route)).takeWhile (·.isSome) =
      (fileRoutes pov).map fun route => some (some route) :=
    List.takeWhile_eq_self_iff.2 fun x hx => by
      obtain ⟨route, -, rfl⟩ := List.mem_map.1 hx
      rfl
  unfold readMulti Config.ListMacro.readList
  cases hres : readMultiLine.readOption heap.strings ⟨ascii "route", []⟩ ⟨none, 0⟩ pov with
  | error e =>
    rw [hres] at hread
    cases hread with
    | overrun hfull =>
      rw [htake, List.length_map] at hfull
      rw [if_neg (not_lt.2 hfull)]
      rfl
    | exit _ hexit => simp at hexit
  | ok l =>
    rw [hres] at hread
    cases hread with
    | ok hl =>
      have hlen := hl.length_lt
      rw [List.length_map] at hlen
      have hvalues : l.values = (fileRoutes pov).map some := by
        refine List.map_injective_iff.2 (fun _ _ => Option.some.inj) (hl.map_values.trans ?_)
        rw [List.map_map]
        rfl
      rw [if_pos hlen]
      change Except.ok l.values.reduceOption = _
      rw [hvalues]
      rw [List.reduceOption, List.filterMap_map]
      exact congrArg Except.ok List.filterMap_some

theorem dropRoutes_eq (routes : List Bytes) :
    dropRoutes routes = if checkIfDefaultRoute routes then [] else routes := by
  refine if_congr ?_ rfl rfl
  rw [checkIfDefaultRoute, List.any_eq_true]
  refine exists_congr fun route => and_congr_right fun _ => ?_
  rw [isDefaultRoute, Bool.or_eq_true, decide_eq_true_iff, decide_eq_true_iff]
  exact or_comm

/-- No default route is left for `complete_vpn_info` to find. -/
theorem checkIfDefaultRoute_dropRoutes (routes : List Bytes) :
    checkIfDefaultRoute (dropRoutes routes) = false := by
  rw [dropRoutes_eq]
  split
  · rfl
  · rename_i h
    exact Bool.eq_false_iff.2 h

theorem checkIfDefaultRoute_append (routes routes' : List Bytes) :
    checkIfDefaultRoute (routes ++ routes') =
      (checkIfDefaultRoute routes || checkIfDefaultRoute routes') :=
  List.any_append

/-! ### The worker -/

section

variable {socketfd : Option ℕ} {msg : AuthReplyMsg} {global : GlobalCfg}

/-- The worker of an accepted reply, as far as the routes are concerned. -/
theorem Reply.recv (h : Reply socketfd msg) (global : GlobalCfg) :
    ∃ ws, recvCookieAuthReply (.start global) socketfd msg = .ok ws ∧
      ws.ipv4 = addressIpv4 msg ∧ ws.ipv6 = addressIpv6 msg ∧
      ws.settings.routes =
        if checkIfDefaultRoute msg.routes || checkIfDefaultRoute global.routes then none
        else some (global.routes, msg.routes) := by
  obtain ⟨fd, rfl⟩ := Option.isSome_iff_exists.1 h.socketfd
  obtain ⟨vname, hvname⟩ := Option.isSome_iff_exists.1 h.vname
  obtain ⟨userName, huserName⟩ := Option.isSome_iff_exists.1 h.userName
  unfold recvCookieAuthReply
  rw [if_pos h.reply, hvname, huserName]
  refine ⟨_, rfl, rfl, rfl, ?_⟩
  simp only [SessionWorker.settings, SessionWorker.start, recvRoutes_eq]
  cases hdefault : checkIfDefaultRoute msg.routes with
  | true => rfl
  | false => simp [hdefault]

/-- The routes that are not skipped are those that the client accepts. -/
theorem sent_reqAtRoutes {ws : SessionWorker} (hipv6 : ws.ipv6 = addressIpv6 msg) (connMtu : ℕ)
    (req : Derived) : sent (reqAtRoutes ws connMtu req) = accepts msg connMtu req := by
  funext route
  unfold sent accepts reqAtRoutes
  rw [hipv6]
  cases ip6 route with
  | false => simp
  | true =>
    rw [if_pos rfl, Bool.eq_iff_iff]
    simp only [Bool.and_true, Bool.not_true, Bool.and_false, Bool.not_false, Bool.not_or,
      Bool.not_not, Bool.and_eq_true, bne_eq_false_iff_eq, beq_iff_eq, Bool.not_eq_true']
    tauto

/-- `X-CSTP-Split-Include-IP6` for the routes of IPv6. -/
theorem splitHeader_reqAtRoutes {connMtu : ℕ} {req : Derived} {route : Bytes} (ws : SessionWorker)
    (haccepts : accepts msg connMtu req route = true) :
    splitHeader (reqAtRoutes ws connMtu req) true route = includeHeader route := by
  have hip6 : (ip6 route && req.fullIpv6) = ip6 route := by
    unfold accepts at haccepts
    cases hip6 : ip6 route with
    | false => rfl
    | true =>
      rw [hip6, if_pos rfl] at haccepts
      simp only [Bool.and_eq_true] at haccepts
      exact haccepts.1.1.2
  unfold splitHeader includeHeader
  change ascii "X-CSTP-Split-" ++ ascii "Include" ++
    (if ip6 route && req.fullIpv6 then _ else _) ++ _ ++ _ = _
  rw [hip6]
  rfl

theorem isInclude_includeHeader (route : Bytes) : isInclude (includeHeader route) = true := by
  rw [isInclude, List.isPrefixOf_iff_prefix, includeHeader, List.append_assoc, List.append_assoc]
  exact List.prefix_append _ _

theorem isInclude_exclude (req : Derived) (route : Bytes) :
    isInclude (splitHeader req false route) = false := by
  unfold splitHeader isInclude
  rfl

/-! ### Sending -/

/-- The headers `more` are sent after `headers`, or some of them and then `cstp_printf` fails. -/
def Sends (printf : ℕ → ℤ) (headers more : List Bytes) : Except (List Bytes) (List Bytes) → Prop
  | .ok all => all = headers ++ more
  | .error all => all <+: headers ++ more ∧ printf all.length < 0

variable {printf : ℕ → ℤ} {headers more more' : List Bytes}

theorem Sends.bind {r : Except (List Bytes) (List Bytes)}
    {f : List Bytes → Except (List Bytes) (List Bytes)} (h : Sends printf headers more r)
    (hf : Sends printf (headers ++ more) more' (f (headers ++ more))) :
    Sends printf headers (more ++ more') (r >>= f) := by
  cases r with
  | ok all =>
    obtain rfl : all = headers ++ more := h
    change Sends printf headers (more ++ more') (f (headers ++ more))
    unfold Sends at hf ⊢
    rwa [← List.append_assoc]
  | error all =>
    refine ⟨?_, h.2⟩
    rw [← List.append_assoc]
    exact h.1.trans (List.prefix_append _ _)

/-- `send_routes` sends the headers of the routes that it does not skip, in their order. -/
theorem sendRoutes_sends (printf : ℕ → ℤ) (req : Derived) (incl : Bool) (routes : List Bytes) :
    ∀ headers, Sends printf headers ((routes.filter (sent req)).map (splitHeader req incl))
      (sendRoutes printf req incl routes headers) := by
  induction routes with
  | nil => exact fun headers => (List.append_nil headers).symm
  | cons route routes ih =>
    intro headers
    unfold sendRoutes
    by_cases hsent : sent req route = true
    · rw [if_pos hsent, List.filter_cons_of_pos hsent, List.map_cons]
      split
      · rename_i hprintf
        exact ⟨List.prefix_append _ _, hprintf⟩
      · have hrest := ih (headers ++ [splitHeader req incl route])
        unfold Sends at hrest ⊢
        simpa only [List.append_assoc, List.singleton_append] using hrest
    · rw [if_neg hsent, List.filter_cons_of_neg hsent]
      exact ih headers

/-- What `connect_handler` sends when it comes to the routes. -/
theorem sendAllRoutes_sends (printf : ℕ → ℤ) (ws : SessionWorker) (connMtu : ℕ) (req : Derived) :
    ∃ excluded, (∀ header ∈ excluded, isInclude header = false) ∧
      Sends printf [] ((ws.settings.routes.elim [] fun routes =>
          ((routes.1 ++ routes.2).filter (sent (reqAtRoutes ws connMtu req))).map
            (splitHeader (reqAtRoutes ws connMtu req) true)) ++ excluded)
        (sendAllRoutes printf ws connMtu req) := by
  refine ⟨((ws.settings.noRoutes.1 ++ ws.settings.noRoutes.2).filter
    (sent (reqAtRoutes ws connMtu req))).map (splitHeader (reqAtRoutes ws connMtu req) false),
    ?_, ?_⟩
  · intro header hmem
    obtain ⟨route, -, rfl⟩ := List.mem_map.1 hmem
    exact isInclude_exclude _ route
  · unfold sendAllRoutes
    refine Sends.bind ?_ ?_
    · unfold sendIncluded
      cases ws.settings.routes with
      | none => rfl
      | some routes =>
        dsimp only [Option.elim_some]
        rw [List.filter_append, List.map_append]
        exact (sendRoutes_sends printf _ true routes.1 []).bind (sendRoutes_sends printf _ true _ _)
    · rw [List.filter_append, List.map_append]
      exact (sendRoutes_sends printf _ false _ _).bind (sendRoutes_sends printf _ false _ _)

/-- The headers of the routes that `connect_handler` has in its lists. -/
theorem sendAllRoutes_included {ws : SessionWorker} (hipv6 : ws.ipv6 = addressIpv6 msg)
    (printf : ℕ → ℤ) (connMtu : ℕ) (req : Derived) {included : List Bytes}
    (hincluded : included = ws.settings.routes.elim [] fun routes =>
      ((routes.1 ++ routes.2).filter (accepts msg connMtu req)).map includeHeader) :
    (headersOf (sendAllRoutes printf ws connMtu req)).filter isInclude <+: included ∧
      ((∀ i, 0 ≤ printf i) →
        (headersOf (sendAllRoutes printf ws connMtu req)).filter isInclude = included) := by
  obtain ⟨excluded, hexcluded, hsends⟩ := sendAllRoutes_sends printf ws connMtu req
  have hheaders : (ws.settings.routes.elim [] fun routes =>
      ((routes.1 ++ routes.2).filter (sent (reqAtRoutes ws connMtu req))).map
        (splitHeader (reqAtRoutes ws connMtu req) true)) = included := by
    rw [hincluded, sent_reqAtRoutes hipv6]
    cases ws.settings.routes with
    | none => rfl
    | some routes =>
      exact List.map_congr_left fun route hroute =>
        splitHeader_reqAtRoutes ws (List.mem_filter.1 hroute).2
  have hfilter : ([] ++ (included ++ excluded)).filter isInclude = included := by
    have hincl : included.filter isInclude = included := by
      refine List.filter_eq_self.2 fun header hheader => ?_
      rw [hincluded] at hheader
      cases hroutes : ws.settings.routes with
      | none => simp [hroutes] at hheader
      | some routes =>
        rw [hroutes, Option.elim_some] at hheader
        obtain ⟨route, -, rfl⟩ := List.mem_map.1 hheader
        exact isInclude_includeHeader route
    have hexcl : excluded.filter isInclude = [] :=
      List.filter_eq_nil_iff.2 fun header hheader => by
        rw [hexcluded header hheader]
        exact Bool.false_ne_true
    rw [List.nil_append, List.filter_append, hincl, hexcl, List.append_nil]
  rw [hheaders] at hsends
  cases hrun : sendAllRoutes printf ws connMtu req with
  | ok all =>
    rw [hrun] at hsends
    obtain rfl : all = [] ++ (included ++ excluded) := hsends
    exact ⟨by rw [headersOf, hfilter], fun _ => by rw [headersOf, hfilter]⟩
  | error all =>
    rw [hrun] at hsends
    obtain ⟨hsome, hprintf⟩ := hsends
    refine ⟨?_, fun hprintf' => absurd hprintf (not_lt.2 (hprintf' _))⟩
    rw [← hfilter]
    exact hsome.filter isInclude

/-- `complete_vpn_info` succeeds for a worker with an address. -/
theorem completeVpnInfo_lt_iff (env : ConnectEnv) (ws : SessionWorker) :
    completeVpnInfo env ws < 0 ↔ ¬ (ws.ipv4.isSome ∨ ws.ipv6.isSome) ∨ env.mtuFound = false := by
  unfold completeVpnInfo
  cases ws.ipv4 <;> cases ws.ipv6 <;> cases env.mtuFound <;> simp

/-- A client that is refused is told no route; otherwise `connect_handler` comes to the routes,
unless something fails before. -/
theorem connectHandler_cases {ws : SessionWorker} (hipv4 : ws.ipv4 = addressIpv4 msg)
    (hipv6 : ws.ipv6 = addressIpv6 msg) (device : Bytes) (env : ConnectEnv) (connMtu : ℕ)
    (req : Derived) :
    (connectHandler device env ws connMtu req = .error [] ∧ (env.Works → ¬ Connects device msg)) ∨
      Connects device msg ∧
        connectHandler device env ws connMtu req = sendAllRoutes env.printf ws connMtu req := by
  unfold connectHandler
  split_ifs with hdevice hinfo hfirst
  · exact .inl ⟨rfl, fun _ h => h.1 hdevice⟩
  · rw [completeVpnInfo_lt_iff, hipv4, hipv6] at hinfo
    refine .inl ⟨rfl, fun hworks h => ?_⟩
    obtain haddress | hmtu := hinfo
    · exact haddress h.2
    · exact Bool.false_ne_true (hmtu.symm.trans hworks.mtuFound)
  · refine .inl ⟨rfl, fun hworks _ => ?_⟩
    rw [hworks.sendsFirst] at hfirst
    cases hfirst
  · rw [completeVpnInfo_lt_iff, hipv4, hipv6] at hinfo
    exact .inr ⟨⟨hdevice, not_not.1 (not_or.1 hinfo).1⟩, rfl⟩

/-- The headers of a worker whose lists are these are those that the client should get. -/
theorem included_eq_told_iff (msg : AuthReplyMsg) (connMtu : ℕ) (req : Derived)
    (global : List Bytes) :
    ((if checkIfDefaultRoute msg.routes then none else some (dropRoutes global, msg.routes)).elim []
        fun routes => ((routes.1 ++ routes.2).filter (accepts msg connMtu req)).map includeHeader) =
      toldRoutes msg connMtu req global ↔
      (checkIfDefaultRoute global → ¬ checkIfDefaultRoute msg.routes →
        ∀ route ∈ msg.routes, ¬ accepts msg connMtu req route) := by
  unfold toldRoutes
  rw [checkIfDefaultRoute_append, dropRoutes_eq]
  by_cases hsession : checkIfDefaultRoute msg.routes = true
  · rw [hsession, Bool.or_true]
    exact iff_of_true rfl fun _ h => absurd rfl h
  · rw [if_neg hsession, Option.elim_some]
    by_cases hglobal : checkIfDefaultRoute global = true
    · rw [if_pos hglobal, if_pos (by rw [hglobal, Bool.true_or]), List.nil_append,
        List.map_eq_nil_iff, List.filter_eq_nil_iff]
      exact ⟨fun h _ _ => h, fun h => h hglobal hsession⟩
    · rw [if_neg hglobal, if_neg (by rw [Bool.or_eq_true]; exact not_or.2 ⟨hglobal, hsession⟩)]
      exact iff_of_true rfl fun h => absurd h hglobal

/-! ### What the client gets -/

/-- Everything succeeds. -/
def ConnectEnv.allSent : ConnectEnv := ⟨true, true, fun _ => 0⟩

theorem ConnectEnv.allSent_works : allSent.Works := ⟨rfl, rfl, fun _ => le_rfl⟩

/-- The client of the worker gets these headers: all of them if nothing fails, and never more. -/
def Tells (device : Bytes) (ws : SessionWorker) (connMtu : ℕ) (req : Derived)
    (told : List Bytes) : Prop :=
  ∀ env : ConnectEnv,
    let headers := (headersOf (connectHandler device env ws connMtu req)).filter isInclude
    headers <+: told ∧ (env.Works → headers = told)

/-- A client that is refused gets none. -/
theorem tells_refused {ws : SessionWorker} (hipv4 : ws.ipv4 = addressIpv4 msg)
    (hipv6 : ws.ipv6 = addressIpv6 msg) {device : Bytes} (hrefused : ¬ Connects device msg)
    (connMtu : ℕ) (req : Derived) (told : List Bytes) :
    Tells device ws connMtu req told ↔ told = [] := by
  have herror (env : ConnectEnv) : connectHandler device env ws connMtu req = .error [] := by
    obtain ⟨heq, -⟩ | ⟨hconnects, -⟩ := connectHandler_cases hipv4 hipv6 device env connMtu req
    · exact heq
    · exact absurd hconnects hrefused
  constructor
  · intro htells
    have hall := (htells .allSent).2 ConnectEnv.allSent_works
    rw [herror] at hall
    exact hall.symm
  · rintro rfl env
    rw [herror]
    exact ⟨List.nil_prefix, fun _ => rfl⟩

/-- Another client gets the accepted routes of the lists of the worker. -/
theorem tells_connects {ws : SessionWorker} (hipv4 : ws.ipv4 = addressIpv4 msg)
    (hipv6 : ws.ipv6 = addressIpv6 msg) {device : Bytes} (hconnects : Connects device msg)
    (connMtu : ℕ) (req : Derived) (told : List Bytes) :
    Tells device ws connMtu req told ↔
      (ws.settings.routes.elim [] fun routes =>
        ((routes.1 ++ routes.2).filter (accepts msg connMtu req)).map includeHeader) = told := by
  have hcases := fun env => connectHandler_cases hipv4 hipv6 device env connMtu req
  have hincluded := fun printf => sendAllRoutes_included hipv6 printf connMtu req rfl
  constructor
  · intro htells
    have hall := (htells .allSent).2 ConnectEnv.allSent_works
    obtain ⟨-, hrefused⟩ | ⟨-, heq⟩ := hcases .allSent
    · exact absurd hconnects (hrefused ConnectEnv.allSent_works)
    · rw [heq] at hall
      exact ((hincluded _).2 ConnectEnv.allSent_works.printf).symm.trans hall
  · rintro rfl env
    obtain ⟨heq, hfails⟩ | ⟨-, heq⟩ := hcases env
    · rw [heq]
      exact ⟨List.nil_prefix, fun hworks => absurd hconnects (hfails hworks)⟩
    · rw [heq]
      exact ⟨(hincluded _).1, fun hworks => (hincluded _).2 hworks.printf⟩

/-- The worker of an accepted reply, if the list of the server fits. -/
theorem Reply.advertised_iff (h : Reply socketfd msg) {pov : ConfigFile}
    (hlen : (fileRoutes pov).length < maxConfigEntries) (heap : Heap) (global : GlobalCfg)
    (device : Bytes) (connMtu : ℕ) (req : Derived) :
    ∃ ws : SessionWorker, ws.ipv4 = addressIpv4 msg ∧ ws.ipv6 = addressIpv6 msg ∧
      (ws.settings.routes =
        if checkIfDefaultRoute msg.routes then none
        else some (dropRoutes (fileRoutes pov), msg.routes)) ∧
      (Advertised heap pov global device socketfd msg connMtu req ↔
        Tells device ws connMtu req (toldRoutes msg connMtu req (fileRoutes pov))) := by
  obtain ⟨ws, hrecv, hipv4, hipv6, hroutes⟩ := h.recv (serverCfg global (fileRoutes pov))
  rw [serverCfg, checkIfDefaultRoute_dropRoutes, Bool.or_false] at hroutes
  have hread := readMulti_route heap pov
  rw [if_pos hlen] at hread
  refine ⟨ws, hipv4, hipv6, hroutes, ?_, fun htells => ⟨_, ws, hread, hrecv, htells⟩⟩
  rintro ⟨routes, ws', hread', hrecv', htells⟩
  obtain rfl := Except.ok.inj (hread.symm.trans hread')
  obtain rfl := Except.ok.inj (hrecv.symm.trans hrecv')
  exact htells

end

/-- **When a client is told the routes** of the server and of its session.  There are fewer than
`MAX_CONFIG_ENTRIES` in the file; and if one of these is a default route, so is one of the session,
or the client accepts none of the session.  A client that is refused is told none, so there is none
that it should be told. -/
theorem routes_advertised_iff (heap : Heap) (pov : ConfigFile) (global : GlobalCfg)
    (device : Bytes) (socketfd : Option ℕ) (msg : AuthReplyMsg) (connMtu : ℕ) (req : Derived)
    (h : Reply socketfd msg) :
    Advertised heap pov global device socketfd msg connMtu req ↔
      (fileRoutes pov).length < maxConfigEntries ∧
        if Connects device msg then
          checkIfDefaultRoute (fileRoutes pov) → ¬ checkIfDefaultRoute msg.routes →
            ∀ route ∈ msg.routes, ¬ accepts msg connMtu req route
        else toldRoutes msg connMtu req (fileRoutes pov) = [] := by
  by_cases hlen : (fileRoutes pov).length < maxConfigEntries
  · obtain ⟨ws, hipv4, hipv6, hroutes, hadvertised⟩ :=
      h.advertised_iff hlen heap global device connMtu req
    rw [hadvertised, and_iff_right hlen]
    by_cases hconnects : Connects device msg
    · rw [if_pos hconnects, tells_connects hipv4 hipv6 hconnects, hroutes, included_eq_told_iff]
    · rw [if_neg hconnects, tells_refused hipv4 hipv6 hconnects]
  · have hread := readMulti_route heap pov
    rw [if_neg hlen] at hread
    refine iff_of_false ?_ fun h => hlen h.1
    rintro ⟨routes, ws, hread', -⟩
    rw [hread] at hread'
    cases hread'

/-- A file with two routes. -/
def fileOf (routes : List Bytes) : ConfigFile :=
  routes.map fun route => ⟨.string, ascii "route", route, 0⟩

/-- The reply of main for a session with these routes. -/
def replyOf (routes : List Bytes) : AuthReplyMsg :=
  { AuthReplyMsg.init with
    vname := some (ascii "vpns0")
    userName := some (ascii "test")
    ipv4 := some (ascii "192.168.1.10")
    routes := routes }

/-- A client that takes both families. -/
def openconnect : Derived :=
  { HttpRequest.firstRequest.derived with userAgentType := .openconnect, fullIpv6 := true }

theorem routes_advertised_both :
    Advertised ⟨fun _ => none, fun _ => (none, none)⟩ (fileOf [ascii "10.0.0.0/8"]) dualStack
      (ascii "vpns") (some 5) (replyOf [ascii "fd00::/64"]) 1400 openconnect :=
  (routes_advertised_iff _ _ _ _ _ _ _ _ ⟨rfl, rfl, rfl, rfl⟩).2
    ⟨by decide, by rw [if_pos (by decide)]; decide⟩

/-- The default route of the file is forgotten, and the client is told the route of its session. -/
theorem not_advertised_globalDefault :
    ¬ Advertised ⟨fun _ => none, fun _ => (none, none)⟩ (fileOf [ascii "default"]) dualStack
      (ascii "vpns") (some 5) (replyOf [ascii "10.0.0.0/8"]) 1400 openconnect := by
  rintro ⟨routes, ws, hread, hrecv, htold⟩
  have hread' := readMulti_route ⟨fun _ => none, fun _ => (none, none)⟩ (fileOf [ascii "default"])
  rw [if_pos (by decide), hread] at hread'
  cases hread'
  cases hrecv
  have hheaders := (htold .allSent).2 ConnectEnv.allSent_works
  revert hheaders
  decide +kernel

end Routes

end Worker

end Ocserv
