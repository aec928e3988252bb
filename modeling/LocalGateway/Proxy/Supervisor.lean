import LocalGateway.Proxy.Access

/-!
# The supervisor

What `supervisor.py` does with a request from the public port. Three middlewares may turn it away
(`Supervisor.gate`); the router hands it to a handler of the supervisor's own, to one of the
live-state proxies or to the catch-all `proxy`; and the answer goes back through the middleware that
adds security headers.

The model separates what is decided before the worker is asked (`Supervisor.handling`) from what
becomes of the worker's reply (`Handling.finish`). The worker is a function from requests to replies
here; `Proxy.Gate` puts the real one in.
-/

namespace LocalGateway

open Py

/-! ### The HTTP libraries -/

/-- What the gateway leaves to its HTTP server, framework and client. -/
structure Http where
  /-- `urlsplit` accepts the network location. -/
  netlocOk : PyStr → Bool
  netlocOk_plain : ∀ s, (∀ c ∈ s, Json.isDigit c = true ∨ c = 46 ∨ c = 58) → netlocOk s = true
  /-- The client takes the text for a URL: no control characters, not too long. -/
  accepts : PyStr → Bool
  /-- The client's percent encoding of a path, which leaves existing escapes alone. -/
  quotePath : PyStr → PyStr
  unquote_quotePath : ∀ s, (∀ c ∈ s, IsScalar c) → unquote (quotePath s) = unquote s
  quoteQuery : PyStr → PyStr
  quoteQuery_nil : quoteQuery [] = []
  /-- The body of an answer with its content coding undone, which may fail. -/
  content : Headers → PyBytes → Option PyBytes
  content_plain : ∀ headers body,
    Headers.values headers (py "content-encoding") = [] → content headers body = some body
  /-- `json.loads`. -/
  loads : PyBytes → Option Json
  /-- The body of a `JSONResponse`. -/
  render : Json → PyBytes

/-- The libraries on plain text, where there is nothing to encode and nothing to reject. -/
def Http.plain (loads : PyBytes → Option Json) : Http where
  netlocOk _ := true
  netlocOk_plain _ _ := rfl
  accepts _ := true
  quotePath := id
  unquote_quotePath _ _ := rfl
  quoteQuery := id
  quoteQuery_nil := rfl
  content _ body := some body
  content_plain _ _ _ := rfl
  loads := loads
  render _ := []

/-- What a request to the worker comes to: an answer, a refused connection or another failure. -/
inductive Reply
  | answered (a : Answer)
  | refused
  | failed

/-- What the client is sent, and whether the body comes to its end. -/
structure Delivered where
  answer : Answer
  complete : Bool

/-- The answer of the server to an exception. -/
def serverError : Answer :=
  ⟨500, [(py "content-type", py "text/plain; charset=utf-8")], pyb "Internal Server Error"⟩

/-- A `JSONResponse` that reports an error. -/
def errorAnswer (http : Http) (status : ℕ) (fields : List (PyStr × PyStr)) : Answer :=
  ⟨status, [(py "content-type", py "application/json")],
    http.render (.obj [(py "error", .obj (fields.map fun e ↦ (e.1, .str e.2)))])⟩

/-! ### Routes -/

/-- What a route leads to. -/
inductive RouteKind
  | docs
  | page
  | live
  | admin
  | server
  | metrics
  | api
deriving DecidableEq

/-- A route; a segment in braces stands for any segment that is not empty. -/
structure Route where
  kind : RouteKind
  method : PyStr
  path : PyStr
deriving DecidableEq

/-- The match of a compiled path. Its `$` lets one line feed pass at the end. -/
def matchSegments : List PyStr → List PyStr → Bool
  | [], [] => true
  | [s], [c] => if s.head? = some 123 then c ≠ [] else c = s || c = s ++ [10]
  | s :: ss, c :: cs => (if s.head? = some 123 then c ≠ [] else c = s) && matchSegments ss cs
  | _, _ => false

/-- The route matches the request in full. -/
def Route.serves (route : Route) (method path : PyStr) : Bool :=
  route.method = method && matchSegments (route.path.splitOn 47) (path.splitOn 47)

/-- A path that matches begins with the first segment of the route. -/
theorem startsWith_of_matchSegments {path lit : PyStr} {segments : List PyStr}
    (hlit : lit.head? ≠ some 123)
    (h : matchSegments ([] :: lit :: segments) (path.splitOn 47) = true) :
    startsWith path (47 :: lit) = true := by
  have hjoin : [47].intercalate (path.splitOn 47) = path := List.intercalate_splitOn 47
  obtain ⟨c, cs, hcs⟩ := List.exists_cons_of_ne_nil (List.splitOn_ne_nil 47 path)
  rw [hcs] at h hjoin
  have hfirst : c = [] ∧ matchSegments (lit :: segments) cs = true := by
    simpa [matchSegments] using h
  obtain ⟨rfl, hrest⟩ := hfirst
  rw [startsWith, List.isPrefixOf_iff_prefix, ← hjoin]
  rcases cs with - | ⟨d, ds⟩
  · rcases segments with - | ⟨e, es⟩ <;> simp [matchSegments] at hrest
  · have hd : lit <+: d := by
      rcases segments with - | ⟨e, es⟩ <;> rcases ds with - | ⟨f, fs⟩ <;>
        simp only [matchSegments, hlit, if_false, Bool.or_eq_true, Bool.and_eq_true,
          decide_eq_true_eq, Bool.false_eq_true, and_false] at hrest
      · rcases hrest with rfl | rfl
        · exact List.prefix_refl d
        · exact List.prefix_append lit [10]
      · exact hrest.1 ▸ List.prefix_refl d
    have hhead : [47].intercalate ([] :: d :: ds) = 47 :: [47].intercalate (d :: ds) :=
      List.intercalate_cons_cons
    rw [hhead]
    refine List.prefix_cons_inj 47 |>.2 (hd.trans ?_)
    rcases ds with - | ⟨e, es⟩
    · simp [List.intercalate]
    · rw [List.intercalate_cons_cons, List.append_assoc]
      exact List.prefix_append d _

/-- The first segment of a route that is not for everyone is a prefix of every path it serves. -/
theorem Route.startsWith_of_serves {route : Route} {method path lit : PyStr}
    (hlit : (route.path.splitOn 47).take 2 = [[], lit]) (hbrace : lit.head? ≠ some 123)
    (h : route.serves method path = true) : startsWith path (47 :: lit) = true := by
  rw [Route.serves, Bool.and_eq_true] at h
  have hsplit : route.path.splitOn 47 = [] :: lit :: (route.path.splitOn 47).drop 2 := by
    conv_lhs => rw [← List.take_append_drop 2 (route.path.splitOn 47), hlit]
    rfl
  rw [hsplit] at h
  exact startsWith_of_matchSegments hbrace h.2

/-- Routes of one kind. -/
def routes (kind : RouteKind) (table : List (String × String)) : List Route :=
  table.map fun e ↦ ⟨kind, py e.1, py e.2⟩

/-- The routes the framework adds to every application. -/
def docsRoutes : List Route :=
  routes .docs
    [("GET", "/openapi.json"), ("HEAD", "/openapi.json"), ("GET", "/docs"), ("HEAD", "/docs"),
      ("GET", "/docs/oauth2-redirect"), ("HEAD", "/docs/oauth2-redirect"), ("GET", "/redoc"),
      ("HEAD", "/redoc")]

/-- `endpoints/web.py`. The redirect from `/admin` counts as an admin route. -/
def webRoutes : List Route :=
  routes .page [("GET", "/")] ++ routes .admin [("GET", "/admin")] ++
    routes .page
      [("GET", "/models"), ("GET", "/models/{model_id}"), ("GET", "/providers"), ("GET", "/usage"),
        ("GET", "/logs"), ("GET", "/connections"), ("GET", "/compare/{ids}"), ("GET", "/settings")]

/-- The table of `_make_live_proxy`. -/
def liveRoutes : List Route :=
  routes .live
    [("GET", "/admin/health"), ("GET", "/admin/rate-limits"), ("GET", "/admin/inflight"),
      ("GET", "/admin/warmth"), ("DELETE", "/admin/warmth"), ("GET", "/admin/circuit"),
      ("POST", "/admin/circuit/reset")]

/-- `endpoints/admin.py`. -/
def adminRoutes : List Route :=
  routes .admin
    [("GET", "/admin/config"), ("POST", "/admin/config/api-key"),
      ("POST", "/admin/config/api-key/{provider_id}/reveal"), ("PUT", "/admin/config"),
      ("POST", "/admin/config/reload"), ("POST", "/admin/config/validate"), ("GET", "/admin/usage"),
      ("GET", "/admin/usage/series"), ("DELETE", "/admin/usage"), ("GET", "/admin/models/overview"),
      ("GET", "/admin/models/{model_id}/stats"), ("GET", "/admin/models/{model_id}/series"),
      ("GET", "/admin/models/compare"), ("GET", "/admin/models/{model_id}"),
      ("POST", "/admin/models"), ("PUT", "/admin/models/{model_id}"),
      ("DELETE", "/admin/models/{model_id}"), ("PUT", "/admin/models/{model_id}/backends/tiers"),
      ("POST", "/admin/models/{model_id}/backends"),
      ("PUT", "/admin/models/{model_id}/backends/{index}"),
      ("DELETE", "/admin/models/{model_id}/backends/{index}"),
      ("GET", "/admin/models/{model_id}/time-routing"),
      ("PUT", "/admin/models/{model_id}/time-routing"),
      ("POST", "/admin/models/{model_id}/time-slots"),
      ("PUT", "/admin/models/{model_id}/time-slots/{slot_id}"),
      ("DELETE", "/admin/models/{model_id}/time-slots/{slot_id}"), ("GET", "/admin/health"),
      ("GET", "/admin/rate-limits"), ("GET", "/admin/inflight"), ("GET", "/admin/warmth"),
      ("DELETE", "/admin/warmth"), ("GET", "/admin/circuit"), ("POST", "/admin/alerts/test"),
      ("POST", "/admin/anomalies/ack"), ("POST", "/admin/circuit/reset"), ("POST", "/admin/tokens"),
      ("GET", "/admin/usage/export"), ("GET", "/admin/cache"), ("DELETE", "/admin/cache"),
      ("GET", "/admin/backups"), ("POST", "/admin/backups/restore"),
      ("POST", "/admin/config/server-key/{key_id}/reveal"), ("GET", "/admin/keys/spend"),
      ("POST", "/admin/backends/snooze"), ("POST", "/admin/backends/unsnooze"),
      ("POST", "/admin/backends/unsnooze-all"), ("POST", "/admin/rename"),
      ("GET", "/admin/providers/{provider_id}/models"), ("POST", "/admin/backends/test"),
      ("GET", "/admin/logs"), ("DELETE", "/admin/logs")]

/-- The routes of the supervisor before the catch-all, in the order they are tried. -/
def supervisorRoutes : List Route :=
  docsRoutes ++ webRoutes ++ liveRoutes ++ adminRoutes ++
    routes .server
      [("GET", "/admin/server/status"), ("POST", "/admin/server/start"),
        ("POST", "/admin/server/stop"), ("POST", "/admin/server/restart")]

/-- The text of a `{path:path}` parameter: no line feeds, but one at the end is dropped. -/
def pathParam (s : PyStr) : Option PyStr :=
  let u := if s.getLast? = some 10 then s.dropLast else s
  if 10 ∈ u then none else some u

/-- The mount of the static files takes the request, whatever its method. -/
def isStatic (path : PyStr) : Bool :=
  startsWith path (py "/static/") && (pathParam (path.drop 8)).isSome

/-- The parameter of the catch-all route. -/
def catchAll (path : PyStr) : Option PyStr :=
  match path with
  | 47 :: s => pathParam s
  | _ => none

theorem catchAll_scalar {r : Request} {path : PyStr} (h : catchAll r.path = some path) :
    ∀ c ∈ 47 :: path, IsScalar c := by
  have hscalar := r.path_scalar
  rcases hpath : r.path with - | ⟨c, rest⟩ <;> rw [hpath] at h hscalar
  · cases h
  rcases eq_or_ne c 47 with rfl | hc
  · have hsub : ∀ d ∈ path, d ∈ rest := by
      intro d hd
      rw [catchAll, pathParam] at h
      split_ifs at h <;> cases h
      · exact List.dropLast_subset rest hd
      · exact hd
    exact fun d hd ↦ (List.mem_cons.1 hd).elim (fun hd ↦ hd ▸ by decide)
      fun hd ↦ hscalar d (List.mem_cons_of_mem 47 (hsub d hd))
  · rw [catchAll] at h
    · cases h
    · simpa using hc

/-- The methods of the catch-all route. -/
def proxyMethods : List PyStr :=
  [py "GET", py "POST", py "PUT", py "DELETE", py "PATCH", py "OPTIONS"]

/-! ### Header fields -/

/-- `HOP_BY_HOP`. -/
def hopByHop : List PyStr :=
  [py "host", py "content-length", py "connection", py "keep-alive", py "transfer-encoding",
    py "upgrade"]

/-- `RESP_STRIP`. -/
def respStrip : List PyStr :=
  [py "content-length", py "content-encoding", py "transfer-encoding", py "connection"]

/-- The headers passed on to the worker. -/
def forwardedHeaders (h : Headers) : Headers :=
  Headers.toDict (h.filter fun e ↦ !hopByHop.contains e.1)

/-- One field more in `r.headers.items()`, where the values of a name are joined. -/
def addMerged : Headers → PyStr × PyStr → Headers
  | [], e => [e]
  | (n, v) :: d, e => if n = e.1 then (n, v ++ py ", " ++ e.2) :: d else (n, v) :: addMerged d e

/-- The headers of the worker's answer that are passed back. -/
def respHeaders (h : Headers) : Headers :=
  (h.foldl addMerged []).filter fun e ↦ !respStrip.contains e.1

/-- The headers of `StreamingResponse`. They are sent before the worker is asked: what `gen` adds to
the response later never leaves. -/
def streamHeaders : Headers :=
  [(py "cache-control", py "no-cache"), (py "x-accel-buffering", py "no"),
    (py "content-type", py "text/event-stream; charset=utf-8")]

/-- The headers of `security_headers`. -/
def securityHeaders : Headers :=
  [(py "content-security-policy",
      py "default-src 'self'; script-src 'self'; style-src 'self' 'unsafe-inline'; " ++
        py "img-src 'self' data:; font-src 'self'; connect-src 'self'; frame-ancestors 'none'; " ++
        py "base-uri 'self'; form-action 'self'"),
    (py "x-content-type-options", py "nosniff"), (py "referrer-policy", py "no-referrer"),
    (py "x-frame-options", py "DENY")]

/-- `headers.setdefault`. -/
def setDefault (h : Headers) (e : PyStr × PyStr) : Headers :=
  if h.values e.1 = [] then h ++ [e] else h

/-- The headers of an answer after the middleware `security_headers`. -/
def withSecurity (h : Headers) : Headers :=
  securityHeaders.foldl setDefault h

/-! ### The supervisor -/

/-- The supervisor at the time of a request; `own` stands for its own pages, files and handlers. -/
structure Supervisor where
  http : Http
  config : GatewayConfig
  running : Bool
  workerPort : ℕ
  own : Request → Answer

/-- What is settled before the worker replies. A message that the client refuses to send is
missing. -/
inductive Handling
  /-- Answered by a middleware, or not at all. -/
  | turnedAway (a : Answer)
  /-- Answered by a handler of the supervisor. -/
  | own (a : Answer)
  /-- Asked by a live-state proxy, which falls back on the local handler. -/
  | live (m : Option Request) (fallback : Answer)
  /-- Asked by `proxy`, the answer as a whole. -/
  | relay (m : Option Request)
  /-- Asked by `proxy`, the answer as a stream. -/
  | stream (m : Option Request)

/-- A query as it is put behind a path. -/
def queryText (query : PyStr) : PyStr :=
  if query = [] then [] else 63 :: query

theorem wirePath_queryText (path query : PyStr) :
    wirePath (path ++ queryText query) = wirePath path := by
  have hcut : targetPath (path ++ queryText query) = targetPath path := by
    rw [queryText]
    split_ifs
    · rw [List.append_nil]
    · exact targetPath_append_query path query
  rw [wirePath, wirePath, hcut]

namespace Supervisor

variable (s : Supervisor)

/-- The network location of the worker. -/
def workerNetloc : PyStr :=
  py "127.0.0.1:" ++ Json.natRepr s.workerPort

/-- `api_auth_middleware`. -/
def apiAuth (path : PyStr) (r : Request) : Option Answer :=
  if startsWith path (py "/admin") || isPagePath path then none
  else if startsWith path (py "/v1") || startsWith path (py "/api/v1") then
    if s.config.server.hasKeys && (resolveApiKey r s.config).isNone then
      some (errorAnswer s.http 401
        [(py "message", py "Invalid API key"), (py "type", py "authentication_error")])
    else none
  else none

/-- `origin_guard`. -/
def originGuard (path : PyStr) (r : Request) : Option Answer :=
  let header (name : PyStr) := (r.headers.get? name).getD []
  let origin :=
    if header (py "origin") ≠ [] then header (py "origin") else header (py "referer")
  if !([py "GET", py "HEAD", py "OPTIONS"].contains r.method) && startsWith path (py "/admin") &&
      header (py "authorization") = [] && origin ≠ [] then
    match urlsplit s.http.netlocOk origin with
    | some o =>
      -- an origin without a network location is let through
      if o.netloc ≠ [] ∧ o.netloc ≠ header (py "host") then
        some (errorAnswer s.http 403
          [(py "message", py "Invalid origin"), (py "type", py "forbidden")])
      else none
    | none => none
  else none

/-- `admin_auth_middleware`. -/
def adminAuth (path : PyStr) (r : Request) : Option Answer :=
  if (startsWith path (py "/admin") || isPagePath path) && !checkApiKey r s.config then
    some (errorAnswer s.http 401
      [(py "message", py "Invalid API key"), (py "type", py "authentication_error")])
  else none

/-- The answer of the middlewares, from the outside in; `none` lets the request pass. -/
def gate (path : PyStr) (r : Request) : Option Answer :=
  s.apiAuth path r <|> s.originGuard path r <|> s.adminAuth path r

/-- A request to the worker. `text` is the URL after the network location. -/
def send (method text : PyStr) (headers : Headers) (body : PyBytes) : Option Request :=
  if s.http.accepts (py "http://" ++ s.workerNetloc ++ text) then
    some
      { method := method
        target := s.http.quotePath (wirePath text)
        query := s.http.quoteQuery (targetQuery text)
        headers := (py "host", s.workerNetloc) :: headers
        client := some (py "127.0.0.1")
        server := s.workerNetloc
        body := body }
  else none

variable {s} in
/-- What `send` puts into a message. -/
theorem send_eq_some {method text : PyStr} {headers : Headers} {body : PyBytes} {m : Request}
    (h : s.send method text headers body = some m) :
    m.method = method ∧ m.target = s.http.quotePath (wirePath text) ∧
      m.query = s.http.quoteQuery (targetQuery text) ∧ m.body = body ∧
      m.client = some (py "127.0.0.1") ∧ m.headers = (py "host", s.workerNetloc) :: headers := by
  unfold send at h
  split_ifs at h
  cases h
  exact ⟨rfl, rfl, rfl, rfl, rfl, rfl⟩

/-- The path that arrives at the worker. -/
theorem path_of_send {method path query : PyStr} {headers : Headers} {body : PyBytes} {m : Request}
    (h : s.send method (path ++ queryText query) headers body = some m)
    (hscalar : ∀ c ∈ path, IsScalar c) : m.path = unquote (wirePath path) := by
  rw [Request.path, (send_eq_some h).2.1, wirePath_queryText,
    s.http.unquote_quotePath _ (wirePath_scalar hscalar)]

theorem accepts_of_send {method text : PyStr} {headers : Headers} {body : PyBytes} {m : Request}
    (h : s.send method text headers body = some m) :
    s.http.accepts (py "http://" ++ s.workerNetloc ++ text) = true := by
  unfold send at h
  split_ifs at h with haccepts
  exact haccepts

theorem exists_send_of_accepts {text : PyStr}
    (h : s.http.accepts (py "http://" ++ s.workerNetloc ++ text) = true) (method : PyStr)
    (headers : Headers) (body : PyBytes) : ∃ m, s.send method text headers body = some m := by
  unfold send
  rw [if_pos h]
  exact ⟨_, rfl⟩

theorem client_of_send {method text : PyStr} {headers : Headers} {body : PyBytes} {m : Request}
    (h : s.send method text headers body = some m) : m.client = some (py "127.0.0.1") :=
  (send_eq_some h).2.2.2.2.1

theorem workerNetloc_plain : ∀ c ∈ s.workerNetloc, Json.isDigit c = true ∨ c = 46 ∨ c = 58 := by
  have hloopback : ∀ c ∈ py "127.0.0.1:", Json.isDigit c = true ∨ c = 46 ∨ c = 58 := by decide
  intro c hc
  rcases List.mem_append.1 hc with hc | hc
  · exact hloopback c hc
  · exact .inl (Json.natRepr_digits s.workerPort c hc)

/-- The path of `request.url` at the worker begins as the path its router sees. -/
theorem url_of_send (http : Http) (lit : PyStr) {method text : PyStr} {headers : Headers}
    {body : PyBytes} {m : Request} (h : s.send method text headers body = some m)
    (hlit : ∀ c ∈ lit, isPlainUrlChar c = true) (hpath : startsWith m.path (47 :: lit) = true) :
    ∃ u, m.url http.netlocOk = some u ∧ startsWith u.path (47 :: lit) = true := by
  have hplain := s.workerNetloc_plain
  have hchars : ∀ c ∈ s.workerNetloc, isPlainUrlChar c = true := by
    intro c hc
    rcases hplain c hc with hdigit | rfl | rfl
    · simp only [Json.isDigit, Bool.and_eq_true, decide_eq_true_eq] at hdigit
      simp only [isPlainUrlChar, Bool.and_eq_true, decide_eq_true_eq]
      omega
    · decide
    · decide
  have hhost : Headers.get? m.headers (py "host") = some s.workerNetloc := by
    rw [(send_eq_some h).2.2.2.2.2]
    exact List.lookup_cons_self
  rw [Request.url, Request.urlText, hhost]
  exact urlsplit_http_startsWith hchars (http.netlocOk_plain _ hplain) hlit hpath

/-- `_make_live_proxy`. -/
def liveProxy (route : Route) (u : SplitUrl) (r : Request) : Handling :=
  let text := route.path ++ queryText u.query
  if !s.running then .own (s.own r)
  else if route.method = py "GET" then .live (s.send route.method text [] []) (s.own r)
  else .live (s.send route.method text (forwardedHeaders r.headers) r.body) (s.own r)

/-- Whether the answer is streamed. -/
def wantsStream (path : PyStr) (body : PyBytes) : Bool :=
  if path = py "admin/events" then true
  else if body ≠ [] && !startsWith path (py "admin/") &&
      ((py "chat/completions").isSuffixOf path || (py "/responses").isSuffixOf path) then
    match s.http.loads body with
    | some (.obj d) => ((Json.get? d (py "stream")).map Json.truthy).getD false
    | _ => false
  else false

/-- `proxy`. -/
def proxy (path : PyStr) (u : SplitUrl) (r : Request) : Handling :=
  let m := s.send r.method (47 :: path ++ queryText u.query) (forwardedHeaders r.headers) r.body
  if !s.running then
    .own (errorAnswer s.http 503
      [(py "message", py "Gateway is stopped. Start it from the Logs page."),
        (py "type", py "server_stopped"), (py "code", py "server_stopped")])
  else if s.wantsStream path r.body then .stream m
  else .relay m

/-- The router. -/
def dispatch (u : SplitUrl) (r : Request) : Handling :=
  match supervisorRoutes.find? (·.serves r.method r.path) with
  | some route => if route.kind = .live then s.liveProxy route u r else .own (s.own r)
  | none =>
    if isStatic r.path then .own (s.own r)
    else
      match catchAll r.path with
      | some path => if proxyMethods.contains r.method then s.proxy path u r else .own (s.own r)
      | none => .own (s.own r)

/-- All that happens before the worker replies. -/
def handling (r : Request) : Handling :=
  match r.url s.http.netlocOk with
  | none => .turnedAway serverError
  | some u =>
    match s.gate u.path r with
    | some a => .turnedAway a
    | none => s.dispatch u r

end Supervisor

/-- The message to the worker, if there is one. -/
def Handling.sent : Handling → Option Request
  | .turnedAway _ | .own _ => none
  | .live m _ | .relay m | .stream m => m

/-- An answer of a handler on its way out. -/
def Delivered.secured (a : Answer) : Delivered :=
  ⟨{ a with headers := withSecurity a.headers }, true⟩

/-- The answer of the worker as a `Response`, its content coding undone. -/
def Http.pass (http : Http) (a : Answer) : Option Answer :=
  (http.content a.headers a.body).map fun body ↦ ⟨a.status, respHeaders a.headers, body⟩

/-- The `503` of `proxy`. -/
def Http.unreachable (http : Http) : Answer :=
  errorAnswer http 503
    [(py "message", py "Gateway worker is not reachable. Try restarting it."),
      (py "type", py "worker_unreachable"), (py "code", py "worker_unreachable")]

/-- What becomes of the reply of the worker. -/
def Handling.finish (http : Http) (worker : Request → Reply) : Handling → Delivered
  | .turnedAway a => ⟨a, true⟩
  | .own a => .secured a
  | .live m fallback =>
    match m.map worker with
    | some (.answered a) => .secured ((http.pass a).getD fallback)
    | _ => .secured fallback
  | .relay m =>
    match m.map worker with
    | some (.answered a) =>
      match http.pass a with
      | some a => .secured a
      | none => ⟨serverError, true⟩
    | some .refused => .secured http.unreachable
    | _ => ⟨serverError, true⟩
  | .stream m =>
    -- the status line is out before the generator runs, so a failure only cuts the body off
    let start (body : PyBytes) (complete : Bool) : Delivered :=
      ⟨⟨200, withSecurity streamHeaders, body⟩, complete⟩
    match m.map worker with
    | some (.answered a) =>
      match http.content a.headers a.body with
      | some body => start body true
      | none => start [] false
    | _ => start [] false

/-- What the client of the public port is sent. -/
def Supervisor.respond (s : Supervisor) (worker : Request → Reply) (r : Request) : Delivered :=
  (s.handling r).finish s.http worker

/-- **When the worker is asked.** A message goes out for a request that passes the middlewares,
either from a live-state proxy or from the catch-all. -/
theorem Supervisor.sent_cases {s : Supervisor} {r m : Request} (h : (s.handling r).sent = some m) :
    s.running = true ∧ ∃ u ∈ r.url s.http.netlocOk, s.gate u.path r = none ∧
      ((∃ route ∈ liveRoutes, supervisorRoutes.find? (·.serves r.method r.path) = some route ∧
          ∃ headers body, s.send route.method (route.path ++ queryText u.query) headers body = some m) ∨
        (supervisorRoutes.find? (·.serves r.method r.path) = none ∧ isStatic r.path = false ∧
          r.method ∈ proxyMethods ∧ ∃ path ∈ catchAll r.path,
            s.send r.method (47 :: path ++ queryText u.query) (forwardedHeaders r.headers) r.body =
              some m)) := by
  have hlive : ∀ route ∈ supervisorRoutes, route.kind = .live → route ∈ liveRoutes := by decide
  rw [handling] at h
  rcases hurl : r.url s.http.netlocOk with - | u
  · simp [hurl, Handling.sent] at h
  rcases hgate : s.gate u.path r with - | a
  · simp only [hurl, hgate, dispatch] at h
    rcases hfind : supervisorRoutes.find? (·.serves r.method r.path) with - | route
    · simp only [hfind] at h
      rcases hstatic : isStatic r.path with - | -
      · rcases hcatch : catchAll r.path with - | path
        · simp [hstatic, hcatch, Handling.sent] at h
        simp only [hstatic, hcatch, Bool.false_eq_true, if_false] at h
        split_ifs at h with hmethod
        · rw [proxy] at h
          split_ifs at h with hrun hstream
          · cases h
          all_goals
            exact ⟨by simpa using hrun, u, rfl, hgate,
              .inr ⟨hfind, rfl, by simpa using hmethod, path, rfl, h⟩⟩
        · cases h
      · simp [hstatic, Handling.sent] at h
    · simp only [hfind] at h
      split_ifs at h with hkind
      · rw [liveProxy] at h
        split_ifs at h with hrun hget
        · cases h
        all_goals
          exact ⟨by simpa using hrun, u, rfl, hgate,
            .inl ⟨route, hlive route (List.mem_of_find?_eq_some hfind) hkind, hfind, _, _, h⟩⟩
      · cases h
  · simp [hurl, hgate, Handling.sent] at h

/-- The worker is only heard through the message sent to it. -/
theorem Supervisor.respond_congr {s : Supervisor} {worker worker' : Request → Reply} {r : Request}
    (h : ∀ m ∈ (s.handling r).sent, worker m = worker' m) :
    s.respond worker r = s.respond worker' r := by
  unfold Supervisor.respond
  rcases hout : s.handling r with a | a | ⟨m, a⟩ | m | m <;> rw [hout] at h
  · rfl
  · rfl
  all_goals
    rcases m with - | m
    · rfl
    · simp only [Handling.finish, Option.map_some, h m rfl]

/-- A plain answer of the worker comes back with its body, on every way. -/
theorem Supervisor.respond_body {s : Supervisor} {worker : Request → Reply} {r m : Request}
    (hm : (s.handling r).sent = some m) {status : ℕ} {body : PyBytes}
    (hreply : worker m = .answered ⟨status, [], body⟩) : (s.respond worker r).answer.body = body := by
  have hcontent : s.http.content [] body = some body := s.http.content_plain [] body rfl
  unfold Supervisor.respond
  rcases hhow : s.handling r with a | a | ⟨m', a⟩ | m' | m' <;> rw [hhow, Handling.sent] at hm
  · cases hm
  · cases hm
  all_goals
    subst hm
    simp [Handling.finish, hreply, Http.pass, hcontent, Delivered.secured]

end LocalGateway
