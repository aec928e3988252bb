import LocalGateway.Proxy.Supervisor

/-!
# The composed access gate

Supervisor and worker each ask for a key, and each exempts local peers. The worker's only peer is
the supervisor, so what keeps a remote peer without a key away from the `/admin` and `/metrics`
handlers of the worker is the supervisor alone. It looks at the path of `request.url`; the handler
is chosen by the path that arrives at the worker.

`Conceals` says that the client cannot tell what those handlers would answer, and
`conceals_iff` when that is so: `Exposed` is the exact condition under which a request of a remote
peer without a key gets through to them.
-/

namespace LocalGateway

open Py

/-! ### The worker -/

/-- The routes of the worker, in the order they are tried. -/
def workerRoutes : List Route :=
  docsRoutes ++
    routes .api
      [("POST", "/api/v1/chat/completions"), ("POST", "/v1/chat/completions"),
        ("POST", "/api/v1/embeddings"), ("POST", "/v1/embeddings"), ("GET", "/api/v1/models"),
        ("GET", "/v1/models"), ("GET", "/api/v1/models/{model_id}"), ("GET", "/v1/models/{model_id}"),
        ("POST", "/api/v1/responses"), ("POST", "/v1/responses")] ++
    routes .metrics [("GET", "/metrics")] ++ routes .admin [("GET", "/admin/events")] ++
    adminRoutes ++ webRoutes

/-- The worker at the time of a request; `handle` stands for the handlers of its routes. -/
structure Worker where
  http : Http
  config : GatewayConfig
  /-- The answer to a key that is over its rate or its budget. -/
  quota : ApiKeyConfig → Option Answer
  handle : Route → Option ApiKeyConfig → Request → Answer
  noRoute : Request → Answer

namespace Worker

variable (w : Worker)

/-- The `401` of the worker. -/
def unauthorized : Answer :=
  errorAnswer w.http 401
    [(py "message", py "Invalid API key"), (py "type", py "authentication_error")]

/-- The router, and the check that `metrics` makes itself. -/
def serve (key : Option ApiKeyConfig) (r : Request) : Answer :=
  match workerRoutes.find? (·.serves r.method r.path) with
  | some route =>
    if route.kind = .metrics ∧ w.config.server.hasKeys = true ∧ checkApiKey r w.config = false then
      w.unauthorized
    else w.handle route key r
  | none => w.noRoute r

/-- `auth_middleware` and what follows it. -/
def answer (r : Request) : Answer :=
  match r.url w.http.netlocOk with
  | none => serverError
  | some u =>
    if startsWith u.path (py "/admin") || isPagePath u.path then
      if checkApiKey r w.config then w.serve none r else w.unauthorized
    else if startsWith u.path (py "/v1") || startsWith u.path (py "/api/v1") then
      if w.config.server.hasKeys then
        match resolveApiKey r w.config with
        | some key => (w.quota key).getD (w.serve (some key) r)
        | none => w.unauthorized
      -- without keys there is no quota to ask for
      else w.serve (resolveApiKey r w.config) r
    else w.serve none r

/-- The worker as the supervisor meets it. -/
def reply (r : Request) : Reply :=
  .answered (w.answer r)

end Worker

/-- The handlers whose answers are not for everyone. -/
def RouteKind.Sensitive (kind : RouteKind) : Prop :=
  kind = .admin ∨ kind = .metrics

instance (kind : RouteKind) : Decidable kind.Sensitive :=
  inferInstanceAs (Decidable (_ ∨ _))

/-! ### Routes and prefixes -/

/-- Where the sensitive routes of the worker are. -/
theorem sensitive_prefix {route : Route} (hmem : route ∈ workerRoutes) (h : route.kind.Sensitive)
    {method path : PyStr} (hserves : route.serves method path = true) :
    startsWith path (py "/admin") = true ∨ startsWith path (py "/metrics") = true := by
  have htable : ∀ route ∈ workerRoutes, route.kind.Sensitive →
      (route.path.splitOn 47).take 2 = [[], py "admin"] ∨
        (route.path.splitOn 47).take 2 = [[], py "metrics"] := by
    simp (disch := rfl) only [workerRoutes, docsRoutes, adminRoutes, webRoutes, routes, List.map_cons, List.map_nil,
      py_eq]
    decide +kernel
  exact (htable route hmem h).imp (fun hlit ↦ route.startsWith_of_serves hlit (by decide) hserves)
    fun hlit ↦ route.startsWith_of_serves hlit (by decide) hserves

/-! ### What reaches the worker's handlers -/

/-- The message leads to a handler that is not for everyone. -/
def ReachesSensitive (m : Request) : Prop :=
  ∃ route ∈ workerRoutes.find? (·.serves m.method m.path), route.kind.Sensitive

/-- The worker with other handlers for the routes that are not for everyone. -/
def Worker.SameElsewhere (w w' : Worker) : Prop :=
  w'.http = w.http ∧ w'.config = w.config ∧ w'.quota = w.quota ∧ w'.noRoute = w.noRoute ∧
    ∀ route : Route, ¬ route.kind.Sensitive → w'.handle route = w.handle route

/-- A message that does not lead to them is answered without them. -/
theorem Worker.answer_congr {w w' : Worker} (h : w.SameElsewhere w') {m : Request}
    (hm : ¬ ReachesSensitive m) : w'.answer m = w.answer m := by
  obtain ⟨hhttp, hconfig, hquota, hno, hhandle⟩ := h
  have hserve (key : Option ApiKeyConfig) : w'.serve key m = w.serve key m := by
    rw [Worker.serve, Worker.serve, Worker.unauthorized, Worker.unauthorized, hhttp, hconfig, hno]
    rcases hroute : workerRoutes.find? (·.serves m.method m.path) with - | route
    · simp only [hroute]
    · have hkind : ¬ route.kind.Sensitive := fun hkind ↦ hm ⟨route, hroute, hkind⟩
      simp only [hroute, hhandle route hkind]
  simp only [Worker.answer, Worker.unauthorized, hserve, hhttp, hconfig, hquota]

/-- **The worker exempts the supervisor.** A message that leads to one of these handlers is answered
by it: the worker sees a local peer and asks for no key. -/
theorem Worker.answer_of_reaches {w : Worker} {s : Supervisor} {method text : PyStr}
    {headers : Headers} {body : PyBytes} {m : Request}
    (hsend : s.send method text headers body = some m) {route : Route}
    (hroute : workerRoutes.find? (·.serves m.method m.path) = some route)
    (hkind : route.kind.Sensitive) : w.answer m = w.handle route none m := by
  have hserves : route.serves m.method m.path = true := by simpa using List.find?_some hroute
  have hmem : route ∈ workerRoutes := List.mem_of_find?_eq_some hroute
  have hpeer : checkApiKey m w.config = true := checkApiKey_of_loopback w.config (by
    rw [s.client_of_send hsend]
    decide)
  have hserve : w.serve none m = w.handle route none m := by
    simp only [Worker.serve, hroute, hpeer, Bool.true_eq_false, and_false, if_false]
  -- both prefixes of such a path are plain, so the middleware sees them as the router does
  rcases sensitive_prefix hmem hkind hserves with hpath | hpath
  · obtain ⟨u, hu, hbegins⟩ := s.url_of_send w.http (py "admin") hsend (by decide) hpath
    have hadmin : startsWith u.path (py "/admin") = true := hbegins
    simp only [Worker.answer, hu, hadmin, Bool.true_or, if_true, hpeer, hserve]
  · obtain ⟨u, hu, hbegins⟩ := s.url_of_send w.http (py "metrics") hsend (by decide) hpath
    have hv1 : startsWith u.path (py "/v1") = false :=
      startsWith_eq_false hbegins (by decide) (by decide)
    have hapi : startsWith u.path (py "/api/v1") = false :=
      startsWith_eq_false hbegins (by decide) (by decide)
    simp only [Worker.answer, hu, hv1, hapi, Bool.or_self, Bool.false_eq_true, if_false, hpeer,
      if_true, hserve, ite_self]

/-! ### The gate -/

/-- The client cannot tell what the handlers that are not for everyone would answer. -/
def Conceals (s : Supervisor) (w : Worker) (r : Request) : Prop :=
  ∀ w', w.SameElsewhere w' → s.respond w'.reply r = s.respond w.reply r

/-- The middlewares of the supervisor ask for a key. -/
def Guarded (path : PyStr) : Bool :=
  startsWith path (py "/admin") || isPagePath path || startsWith path (py "/v1") ||
    startsWith path (py "/api/v1")

/-- A live-state proxy takes the request. -/
def TakenByLive (s : Supervisor) (u : SplitUrl) (r : Request) : Prop :=
  ∃ route ∈ liveRoutes, supervisorRoutes.find? (·.serves r.method r.path) = some route ∧
    s.http.accepts (py "http://" ++ s.workerNetloc ++ (route.path ++ queryText u.query)) = true

/-- The catch-all takes the request, and the path that arrives leads to a handler that is not for
everyone. -/
def TakenByProxy (s : Supervisor) (u : SplitUrl) (r : Request) : Prop :=
  supervisorRoutes.find? (·.serves r.method r.path) = none ∧ isStatic r.path = false ∧
    r.method ∈ proxyMethods ∧ ∃ path ∈ catchAll r.path,
      s.http.accepts (py "http://" ++ s.workerNetloc ++ (47 :: path ++ queryText u.query)) = true ∧
        ∃ route ∈ workerRoutes.find? (·.serves r.method (unquote (wirePath (47 :: path)))),
          route.kind.Sensitive

/-- What it takes to get through without a key: the path of `request.url` is not one the supervisor
guards, but the request leads to a handler that is not for everyone. -/
def Exposed (s : Supervisor) (r : Request) : Prop :=
  s.running = true ∧ ∃ u ∈ r.url s.http.netlocOk, Guarded u.path = false ∧
    (TakenByLive s u r ∨ TakenByProxy s u r)

/-- A remote peer without a key passes the middlewares exactly where no key is asked for. -/
theorem Supervisor.gate_eq_none_iff {s : Supervisor} {r : Request}
    (hkeys : s.config.server.hasKeys = true) (hpeer : isLoopbackHost r.client = false)
    (hkey : resolveApiKey r s.config = none) (path : PyStr) :
    s.gate path r = none ↔ Guarded path = false := by
  have hcheck := checkApiKey_eq_false hkeys hpeer hkey
  unfold Supervisor.gate Guarded
  rcases hpage : startsWith path (py "/admin") || isPagePath path with - | -
  · have hadmin : startsWith path (py "/admin") = false := (Bool.or_eq_false_iff.1 hpage).1
    have horigin : s.originGuard path r = none := by
      simp [Supervisor.originGuard, hadmin]
    have hadminAuth : s.adminAuth path r = none := by
      simp only [Supervisor.adminAuth, hpage, Bool.false_and, Bool.false_eq_true, if_false]
    rw [horigin, hadminAuth]
    rcases hapi : startsWith path (py "/v1") || startsWith path (py "/api/v1") with - | - <;>
      simp [Supervisor.apiAuth, hpage, hapi, hkeys, hkey]
  · have hadminAuth : s.adminAuth path r ≠ none := by
      simp [Supervisor.adminAuth, hpage, hcheck]
    rcases hguard : s.originGuard path r with - | a <;>
      simp [Supervisor.apiAuth, hpage, hadminAuth]

/-- The message of a live-state proxy leads to the admin route of that name. -/
theorem liveRoutes_sensitive {route : Route} (hroute : route ∈ liveRoutes) :
    ∃ target ∈ workerRoutes.find? (·.serves route.method route.path), target.kind.Sensitive := by
  have htable : ∀ route ∈ liveRoutes,
      (workerRoutes.find? (·.serves route.method route.path)).any (·.kind = .admin) = true := by
    simp (disch := rfl) only [liveRoutes, workerRoutes, docsRoutes, adminRoutes, webRoutes, routes, List.map_cons,
      List.map_nil, py_eq]
    decide +kernel
  obtain ⟨target, htarget, hkind⟩ := (Option.any_eq_true _ _).1 (htable route hroute)
  exact ⟨target, htarget, .inl (by simpa using hkind)⟩

/-- The path of a live-state proxy arrives as it is. -/
theorem liveRoutes_arrive {route : Route} (hroute : route ∈ liveRoutes) :
    (∀ c ∈ route.path, IsScalar c) ∧ unquote (wirePath route.path) = route.path := by
  have htable : ∀ route ∈ liveRoutes, (∀ c ∈ route.path, IsScalar c) ∧
      route.path.head? = some 47 ∧ Clean route.path := by decide +kernel
  obtain ⟨hscalar, hhead, hclean⟩ := htable route hroute
  exact ⟨hscalar, (arrives_eq_self_iff hhead hscalar).2 hclean⟩

/-- A message of a request that is not exposed does not lead to them. -/
theorem not_reachesSensitive {s : Supervisor} {r m : Request}
    (hkeys : s.config.server.hasKeys = true) (hpeer : isLoopbackHost r.client = false)
    (hkey : resolveApiKey r s.config = none) (hm : (s.handling r).sent = some m)
    (hreach : ReachesSensitive m) : Exposed s r := by
  obtain ⟨hrun, u, hu, hgate, hsent⟩ := s.sent_cases hm
  refine ⟨hrun, u, hu, (s.gate_eq_none_iff hkeys hpeer hkey u.path).1 hgate, ?_⟩
  rcases hsent with ⟨route, hroute, hfind, headers, body, hsend⟩ |
    ⟨hfind, hstatic, hmethod, path, hpath, hsend⟩
  · exact .inl ⟨route, hroute, hfind, s.accepts_of_send hsend⟩
  · refine .inr ⟨hfind, hstatic, hmethod, path, hpath, s.accepts_of_send hsend, ?_⟩
    rw [← s.path_of_send hsend (catchAll_scalar hpath), ← (Supervisor.send_eq_some hsend).1]
    exact hreach

/-- An exposed request reaches them. -/
theorem Exposed.reaches {s : Supervisor} {r : Request} (hkeys : s.config.server.hasKeys = true)
    (hpeer : isLoopbackHost r.client = false) (hkey : resolveApiKey r s.config = none)
    (h : Exposed s r) :
    ∃ method text headers body m, s.send method text headers body = some m ∧
      (s.handling r).sent = some m ∧ ReachesSensitive m := by
  obtain ⟨hrun, u, hu, hguard, htaken⟩ := h
  have hgate : s.gate u.path r = none := (s.gate_eq_none_iff hkeys hpeer hkey u.path).2 hguard
  have hhandling : s.handling r = s.dispatch u r := by
    have hurl : r.url s.http.netlocOk = some u := hu
    simp only [Supervisor.handling, hurl, hgate]
  rw [hhandling]
  rcases htaken with ⟨route, hroute, hfind, haccepts⟩ |
    ⟨hfind, hstatic, hmethod, path, hpath, haccepts, hreach⟩
  · have hkind : ∀ route ∈ liveRoutes, route.kind = .live := by decide
    obtain ⟨hscalar, harrives⟩ := liveRoutes_arrive hroute
    have hsent (headers : Headers) (body : PyBytes) : ∃ m,
        s.send route.method (route.path ++ queryText u.query) headers body = some m ∧
          ReachesSensitive m := by
      obtain ⟨m, hm⟩ := s.exists_send_of_accepts haccepts route.method headers body
      refine ⟨m, hm, ?_⟩
      rw [ReachesSensitive, (Supervisor.send_eq_some hm).1, s.path_of_send hm hscalar, harrives]
      exact liveRoutes_sensitive hroute
    by_cases hget : route.method = py "GET"
    · obtain ⟨m, hm, hreach⟩ := hsent [] []
      refine ⟨_, _, _, _, m, hm, ?_, hreach⟩
      simp [Supervisor.dispatch, hfind, hkind route hroute, Supervisor.liveProxy, hrun, hget,
        Handling.sent, ← hm]
    · obtain ⟨m, hm, hreach⟩ := hsent (forwardedHeaders r.headers) r.body
      refine ⟨_, _, _, _, m, hm, ?_, hreach⟩
      simp [Supervisor.dispatch, hfind, hkind route hroute, Supervisor.liveProxy, hrun, hget,
        Handling.sent, ← hm]
  · obtain ⟨m, hm⟩ := s.exists_send_of_accepts haccepts r.method (forwardedHeaders r.headers) r.body
    have hcatch : catchAll r.path = some path := hpath
    refine ⟨_, _, _, _, m, hm, ?_, ?_⟩
    · have hcontains : proxyMethods.contains r.method = true := by simpa using hmethod
      simp only [Supervisor.dispatch, hfind, hstatic, hcatch, hcontains, Supervisor.proxy, hrun,
        Bool.false_eq_true, if_false, if_true, Bool.not_true]
      split_ifs <;> exact hm
    · rw [ReachesSensitive, (Supervisor.send_eq_some hm).1, s.path_of_send hm (catchAll_scalar hpath)]
      exact hreach

/-- What an exposed request is sent back depends on them. -/
theorem Exposed.not_conceals {s : Supervisor} {r : Request} (hkeys : s.config.server.hasKeys = true)
    (hpeer : isLoopbackHost r.client = false) (hkey : resolveApiKey r s.config = none)
    (h : Exposed s r) (w : Worker) : ¬ Conceals s w r := by
  intro hconceals
  obtain ⟨method, text, headers, body, m, hsend, hsent, route, hroute, hkind⟩ :=
    h.reaches hkeys hpeer hkey
  -- handlers that answer something other than what the client was sent
  let answer : Answer := ⟨200, [], 0 :: (s.respond w.reply r).answer.body⟩
  let w' : Worker :=
    { w with handle := fun route ↦ if route.kind.Sensitive then fun _ _ ↦ answer else w.handle route }
  have hsame : w.SameElsewhere w' := ⟨rfl, rfl, rfl, rfl, fun route hroute ↦ if_neg hroute⟩
  have hreply : w'.reply m = .answered answer := by
    rw [Worker.reply, Worker.answer_of_reaches hsend hroute hkind]
    simp only [w', if_pos hkind]
  have hbody := s.respond_body hsent hreply
  rw [hconceals w' hsame] at hbody
  simpa using congrArg List.length hbody

/-- **When the gate holds.** With a key configured, what a remote peer without one is sent tells
nothing of the `/admin` and `/metrics` handlers exactly when the request is not exposed. -/
theorem conceals_iff (s : Supervisor) (w : Worker) (r : Request)
    (hkeys : s.config.server.hasKeys = true) (hpeer : isLoopbackHost r.client = false)
    (hkey : resolveApiKey r s.config = none) : Conceals s w r ↔ ¬ Exposed s r := by
  constructor
  · exact fun hconceals hexposed ↦ hexposed.not_conceals hkeys hpeer hkey w hconceals
  · intro hexposed w' hsame
    refine s.respond_congr fun m hm ↦ ?_
    have hreach : ¬ ReachesSensitive m :=
      fun hreach ↦ hexposed (not_reachesSensitive hkeys hpeer hkey hm hreach)
    rw [Worker.reply, Worker.reply, Worker.answer_congr hsame hreach]

/-- A gateway with one key and a running worker. -/
def gateSample : Supervisor where
  http := .plain fun _ ↦ none
  config := { GatewayConfig.empty with server := { ServerConfig.empty with apiKey := some (py "k") } }
  running := true
  workerPort := 4456
  own _ := ⟨200, [], []⟩

/-- A request from another machine, without a key. -/
def remoteSample (target : String) : Request where
  method := py "GET"
  target := py target
  query := []
  headers := [(py "host", py "gateway:3456")]
  client := some (py "10.0.0.2")
  server := py "0.0.0.0:3456"
  body := []

/-- A worker whose handlers answer with nothing. -/
def workerSample : Worker where
  http := .plain fun _ ↦ none
  config := gateSample.config
  quota _ := none
  handle _ _ _ := ⟨200, [], []⟩
  noRoute _ := ⟨404, [], []⟩

example : (remoteSample "/admin/config").url gateSample.http.netlocOk =
    some ⟨py "gateway:3456", py "/admin/config", []⟩ := by
  decide +kernel

theorem conceals_sample : Conceals gateSample workerSample (remoteSample "/admin/config") := by
  refine (conceals_iff gateSample workerSample (remoteSample "/admin/config") (by decide) (by decide)
    (by decide)).2 ?_
  rintro ⟨-, u, hu, hguard, -⟩
  have hurl : (remoteSample "/admin/config").url gateSample.http.netlocOk =
      some ⟨py "gateway:3456", py "/admin/config", []⟩ := by decide
  rw [hurl] at hu
  cases hu
  revert hguard
  decide +kernel

/-- **The gate lets `/metrics` through.** No middleware of the supervisor looks at this path, and the
worker takes the request for a local one. -/
theorem not_conceals_metrics :
    gateSample.config.server.hasKeys = true ∧
      isLoopbackHost (remoteSample "/metrics").client = false ∧
      resolveApiKey (remoteSample "/metrics") gateSample.config = none ∧
      ¬ Conceals gateSample workerSample (remoteSample "/metrics") := by
  have hkeys : gateSample.config.server.hasKeys = true := by decide
  have hpeer : isLoopbackHost (remoteSample "/metrics").client = false := by decide
  have hkey : resolveApiKey (remoteSample "/metrics") gateSample.config = none := by decide
  have hurl : (remoteSample "/metrics").url gateSample.http.netlocOk =
      some ⟨py "gateway:3456", py "/metrics", []⟩ := by decide
  have hroute : workerRoutes.find? (·.serves (py "GET") (unquote (wirePath (py "/metrics")))) =
      some ⟨.metrics, py "GET", py "/metrics"⟩ := by
    simp (disch := rfl) only [workerRoutes, docsRoutes, adminRoutes, webRoutes, routes, List.map_cons, List.map_nil,
      py_eq]
    decide +kernel
  have hfree : supervisorRoutes.find? (·.serves (remoteSample "/metrics").method (remoteSample "/metrics").path) =
      none := by
    simp (disch := rfl) only [supervisorRoutes, docsRoutes, webRoutes, liveRoutes, adminRoutes, routes,
      List.map_cons, List.map_nil, py_eq]
    decide +kernel
  have hproxy : TakenByProxy gateSample ⟨py "gateway:3456", py "/metrics", []⟩
      (remoteSample "/metrics") :=
    ⟨hfree, by decide, by decide, py "metrics", by decide, rfl, _, hroute, .inr rfl⟩
  have hexposed : Exposed gateSample (remoteSample "/metrics") :=
    ⟨rfl, _, hurl, by decide, .inr hproxy⟩
  exact ⟨hkeys, hpeer, hkey, hexposed.not_conceals hkeys hpeer hkey workerSample⟩

end LocalGateway
