import LocalGateway.Proxy.Supervisor

/-!
# Transparency of the proxy

What the worker receives is compared with what the client sent (`Request`), and what the client
receives with what the worker answered (`Faithful`). `transparent_iff` is the exact condition.

A path comes through if it is clean, and an answer that is passed on as a whole comes through unless
header fields are repeated or a content coding is undone. A streamed answer keeps only its body: its
status line and its headers are made up before the worker is asked.
-/

namespace LocalGateway

open Py

/-! ### Header values -/

namespace Headers

@[simp] theorem values_nil (name : PyStr) : values [] name = [] := rfl

theorem values_cons (e : PyStr × PyStr) (h : Headers) (name : PyStr) :
    values (e :: h) name = if e.1 = name then e.2 :: values h name else values h name := by
  unfold values
  rw [List.filter_cons]
  split_ifs with h1 h2 h2 <;> simp_all

theorem values_append (g h : Headers) (name : PyStr) :
    values (g ++ h) name = values g name ++ values h name := by
  simp [values]

/-- Dropping other names does not change the values of a name. -/
theorem values_filter (h : Headers) {p : PyStr → Bool} {name : PyStr} (hp : p name = true) :
    values (h.filter fun e ↦ p e.1) name = values h name := by
  unfold values
  rw [List.filter_filter]
  congr 1
  refine List.filter_congr fun e _ ↦ ?_
  by_cases he : e.1 = name
  · simp [he, hp]
  · simp [he]

end Headers

open Headers

theorem values_setDefault (h : Headers) (e : PyStr × PyStr) (name : PyStr) :
    values (setDefault h e) name =
      if values h name = [] ∧ e.1 = name then [e.2] else values h name := by
  unfold setDefault
  by_cases hname : e.1 = name
  · subst hname
    split_ifs with h1 <;> simp_all [values_append, values_cons]
  · split_ifs with h1 h2 h2
    · exact absurd h2.2 hname
    · simp [values_append, values_cons, hname]
    · exact absurd h2.2 hname
    · rfl

/-- A default is there where nothing else is. -/
theorem values_foldl_setDefault (h defaults : Headers) (name : PyStr) :
    values (defaults.foldl setDefault h) name =
      if values h name = [] then (defaults.lookup name).toList else values h name := by
  induction defaults generalizing h with
  | nil => by_cases hh : values h name = [] <;> simp [hh]
  | cons e defaults ih =>
    obtain ⟨n, v⟩ := e
    rw [List.foldl_cons, ih, values_setDefault]
    by_cases hname : n = name
    · subst hname
      by_cases hh : values h n = [] <;> simp [hh]
    · have hne : (name == n) = false := by simpa using Ne.symm hname
      by_cases hh : values h name = [] <;> simp [hh, hname, List.lookup_cons, hne]

theorem values_withSecurity (h : Headers) (name : PyStr) :
    values (withSecurity h) name =
      if values h name = [] then (securityHeaders.lookup name).toList else values h name :=
  values_foldl_setDefault h securityHeaders name

theorem values_addMerged (d : Headers) (e : PyStr × PyStr) (name : PyStr) :
    values (addMerged d e) name =
      if e.1 = name then
        match values d name with
        | [] => [e.2]
        | v :: vs => (v ++ py ", " ++ e.2) :: vs
      else values d name := by
  induction d with
  | nil => simp [addMerged, values_cons]
  | cons f d ih =>
    obtain ⟨n, v⟩ := f
    rw [addMerged]
    by_cases hn : n = e.1
    · subst hn
      by_cases hname : e.1 = name <;> simp [values_cons, hname]
    · rw [if_neg hn, values_cons, values_cons, ih]
      by_cases hname : e.1 = name
      · subst hname
        simp [hn]
      · simp [hname]

/-- The values of a name, joined to the first of them. -/
def joinValues (v : PyStr) (vs : List PyStr) : PyStr :=
  vs.foldl (fun a b ↦ a ++ py ", " ++ b) v

theorem values_foldl_addMerged (h d : Headers) (name : PyStr) :
    values (h.foldl addMerged d) name =
      match values d name, values h name with
      | [], [] => []
      | [], v :: vs => [joinValues v vs]
      | w :: ws, vs => joinValues w vs :: ws := by
  induction h generalizing d with
  | nil => rcases hd : values d name with - | ⟨w, ws⟩ <;> simp [hd, joinValues]
  | cons e h ih =>
    rw [List.foldl_cons, ih, values_addMerged, values_cons]
    by_cases hname : e.1 = name
    · rcases values d name with - | ⟨w, ws⟩ <;> simp [hname, joinValues]
    · rcases values d name with - | ⟨w, ws⟩ <;> simp [hname]

/-- Merged, a name has one value at most. -/
theorem values_respHeaders (h : Headers) {name : PyStr} (hname : name ∉ respStrip) :
    values (respHeaders h) name =
      match values h name with
      | [] => []
      | v :: vs => [joinValues v vs] := by
  have hkeep : (!respStrip.contains name) = true := by simpa using hname
  refine (values_filter (h.foldl addMerged []) (p := fun n ↦ !respStrip.contains n) hkeep).trans ?_
  rw [values_foldl_addMerged]
  rcases values h name with - | ⟨v, vs⟩ <;> rfl

/-- Passed back, the values of a name are unchanged exactly when it has no more than one. -/
theorem values_relayed_iff (h : Headers) {name : PyStr} (hname : name ∉ respStrip) :
    values (withSecurity (respHeaders h)) name = values (withSecurity h) name ↔
      (values h name).length ≤ 1 := by
  rw [values_withSecurity, values_withSecurity, values_respHeaders h hname]
  rcases values h name with - | ⟨v, - | ⟨w, vs⟩⟩ <;> simp [joinValues]

/-- The headers of an answer are those of every stream, but for security headers at their
defaults. -/
def SaysOnlyStream (h : Headers) : Prop :=
  ∀ name ∉ respStrip, values h name = values streamHeaders name ∨
    values streamHeaders name = [] ∧ values h name = (securityHeaders.lookup name).toList

theorem values_streamed_iff (h : Headers) (name : PyStr) :
    values (withSecurity streamHeaders) name = values (withSecurity h) name ↔
      values h name = values streamHeaders name ∨
        values streamHeaders name = [] ∧ values h name = (securityHeaders.lookup name).toList := by
  rw [values_withSecurity, values_withSecurity]
  have hdisjoint : values streamHeaders name ≠ [] → securityHeaders.lookup name = none := by
    intro hne
    have hmem : name ∈ streamHeaders.map Prod.fst := by
      obtain ⟨v, hv⟩ := List.exists_mem_of_ne_nil _ hne
      simp only [values, List.mem_map, List.mem_filter, decide_eq_true_eq] at hv
      obtain ⟨e, ⟨he, rfl⟩, -⟩ := hv
      exact List.mem_map_of_mem he
    have htable : ∀ n ∈ streamHeaders.map Prod.fst, securityHeaders.lookup n = none := by decide
    exact htable name hmem
  rcases hs : values streamHeaders name with - | ⟨v, vs⟩
  · rcases hv : values h name with - | ⟨w, ws⟩
    · simp
    · simp [eq_comm]
  · have hnone : securityHeaders.lookup name = none := hdisjoint (by simp [hs])
    rcases hv : values h name with - | ⟨w, ws⟩
    · simp [hnone]
    · simp [eq_comm]

/-! ### Transparency -/

/-- The client is sent the answer, with the security headers as defaults and without the headers of
`RESP_STRIP`. -/
structure Faithful (a : Answer) (d : Delivered) : Prop where
  complete : d.complete = true
  status : d.answer.status = a.status
  headers : ∀ name ∉ respStrip, values d.answer.headers name = values (withSecurity a.headers) name
  body : d.answer.body = a.body

/-- The worker receives the request of the client, and the client the answer of the worker. -/
def Transparent (s : Supervisor) (r : Request) (a : Answer) : Prop :=
  ∃ m, (s.handling r).sent = some m ∧ m.method = r.method ∧ m.path = r.path ∧ m.query = r.query ∧
    m.body = r.body ∧ Faithful a (s.respond (fun _ ↦ .answered a) r)

/-- The catch-all sends the request on as it is. -/
structure SentOn (s : Supervisor) (r : Request) (u : SplitUrl) (path : PyStr) : Prop where
  gate : s.gate u.path r = none
  free : supervisorRoutes.find? (·.serves r.method r.path) = none
  dynamic : isStatic r.path = false
  method : r.method ∈ proxyMethods
  path_eq : r.path = 47 :: path
  line : 10 ∉ path
  clean : Clean r.path
  accepted : s.http.accepts (py "http://" ++ s.workerNetloc ++ (r.path ++ queryText u.query)) = true
  query : s.http.quoteQuery u.query = r.query

/-- The answer can be passed back as it is. -/
def Returns (s : Supervisor) (path : PyStr) (r : Request) (a : Answer) : Prop :=
  s.http.content a.headers a.body = some a.body ∧
    if s.wantsStream path r.body = true then a.status = 200 ∧ SaysOnlyStream a.headers
    else ∀ name ∉ respStrip, (values a.headers name).length ≤ 1

theorem SentOn.catchAll {s : Supervisor} {r : Request} {u : SplitUrl} {path : PyStr}
    (h : SentOn s r u path) : catchAll r.path = some path := by
  have hlast : path.getLast? ≠ some 10 := fun hlast ↦ h.line (List.mem_of_getLast? hlast)
  rw [h.path_eq, LocalGateway.catchAll, pathParam]
  simp only [hlast, if_false, h.line]

theorem SentOn.handling {s : Supervisor} {r : Request} {u : SplitUrl} {path : PyStr}
    (hurl : r.url s.http.netlocOk = some u) (h : SentOn s r u path) :
    s.handling r = s.proxy path u r := by
  have hmethod : proxyMethods.contains r.method = true := by simpa using h.method
  simp only [Supervisor.handling, hurl, h.gate, Supervisor.dispatch, h.free, h.dynamic, h.catchAll,
    hmethod, Bool.false_eq_true, if_false, if_true]

/-- An answer passed on as a whole is faithful if its headers and its body are kept. -/
theorem faithful_relay_iff (http : Http) (m : Request) (a : Answer) :
    Faithful a ((Handling.relay (some m)).finish http fun _ ↦ .answered a) ↔
      http.content a.headers a.body = some a.body ∧
        ∀ name ∉ respStrip, (values a.headers name).length ≤ 1 := by
  rcases hcontent : http.content a.headers a.body with - | body
  · -- the server's own answer to the failure lacks the security headers
    have hframe : values (withSecurity a.headers) (py "x-frame-options") ≠
        values serverError.headers (py "x-frame-options") := by
      have hdefault : securityHeaders.lookup (py "x-frame-options") = some (py "DENY") := by decide
      have hnone : values serverError.headers (py "x-frame-options") = [] := by decide
      rw [values_withSecurity, hdefault, hnone]
      split_ifs with h
      · exact List.cons_ne_nil _ _
      · exact h
    simp only [Handling.finish, Option.map_some, Http.pass, hcontent, Option.map_none, reduceCtorEq,
      false_and, iff_false]
    exact fun h ↦ hframe (h.headers _ (by decide)).symm
  · simp only [Handling.finish, Option.map_some, Http.pass, hcontent, Delivered.secured,
      Option.some.injEq]
    constructor
    · intro h
      refine ⟨h.body, fun name hname ↦ (values_relayed_iff a.headers hname).1 ?_⟩
      simpa only using h.headers name hname
    · rintro ⟨hbody, hheaders⟩
      refine ⟨rfl, rfl, fun name hname ↦ ?_, hbody⟩
      dsimp only
      exact (values_relayed_iff a.headers hname).2 (hheaders name hname)

/-- A streamed answer is faithful if it says what every stream says. -/
theorem faithful_stream_iff (http : Http) (m : Request) (a : Answer) :
    Faithful a ((Handling.stream (some m)).finish http fun _ ↦ .answered a) ↔
      http.content a.headers a.body = some a.body ∧ a.status = 200 ∧ SaysOnlyStream a.headers := by
  rcases hcontent : http.content a.headers a.body with - | body
  · simp only [Handling.finish, Option.map_some, hcontent, reduceCtorEq, false_and, iff_false]
    exact fun h ↦ Bool.false_ne_true h.complete
  · simp only [Handling.finish, Option.map_some, hcontent, Option.some.injEq]
    constructor
    · exact fun h ↦ ⟨h.body, h.status.symm, fun name hname ↦
        (values_streamed_iff a.headers name).1 (h.headers name hname)⟩
    · rintro ⟨hbody, hstatus, hheaders⟩
      exact ⟨rfl, hstatus.symm, fun name hname ↦
        (values_streamed_iff a.headers name).2 (hheaders name hname), hbody⟩

theorem faithful_proxy_iff {s : Supervisor} {path : PyStr} {u : SplitUrl} {r m : Request}
    (hrun : s.running = true)
    (hsend : s.send r.method (47 :: path ++ queryText u.query) (forwardedHeaders r.headers) r.body =
      some m) (a : Answer) :
    Faithful a ((s.proxy path u r).finish s.http fun _ ↦ .answered a) ↔ Returns s path r a := by
  have hproxy : s.proxy path u r =
      if s.wantsStream path r.body then .stream (some m) else .relay (some m) := by
    simp only [Supervisor.proxy, hrun, hsend, Bool.not_true, Bool.false_eq_true, if_false]
  rw [hproxy, Returns]
  split_ifs with hstream
  · exact faithful_stream_iff s.http m a
  · exact faithful_relay_iff s.http m a

/-- A path outside `/admin` is not taken by a live-state proxy. -/
theorem not_live_of_not_admin {method path : PyStr} (hpath : startsWith path (py "/admin") = false)
    {route : Route} (hroute : route ∈ liveRoutes) : route.serves method path = false := by
  have htable : ∀ route ∈ liveRoutes, (route.path.splitOn 47).take 2 = [[], py "admin"] := by decide
  rw [← Bool.not_eq_true]
  intro hserves
  have hbegins : startsWith path (py "/admin") = true :=
    route.startsWith_of_serves (htable route hroute) (by decide) hserves
  rw [hbegins] at hpath
  cases hpath

/-- The parameter of the catch-all is the rest of the path, less a line feed at its end. -/
theorem catchAll_eq_some {path rest : PyStr} (h : catchAll path = some rest) :
    10 ∉ rest ∧ (path = 47 :: rest ∨ path = 47 :: (rest ++ [10])) := by
  rcases path with - | ⟨c, t⟩
  · cases h
  rcases eq_or_ne c 47 with rfl | hc
  · rw [catchAll, pathParam] at h
    split_ifs at h with hlast hline hline <;> cases h
    · refine ⟨hline, .inr ?_⟩
      rw [List.dropLast_append_getLast? 10 hlast]
    · exact ⟨hline, .inl rfl⟩
  · rw [catchAll] at h
    · cases h
    · simpa using hc

/-- What arrives of a proxied request. -/
theorem arrives_iff {s : Supervisor} {r m : Request} {u : SplitUrl} {path : PyStr}
    (hurl : r.url s.http.netlocOk = some u) (hcatch : catchAll r.path = some path)
    (hsend : s.send r.method (47 :: path ++ queryText u.query) (forwardedHeaders r.headers) r.body =
      some m) :
    m.path = r.path ∧ m.query = r.query ↔
      r.path = 47 :: path ∧ Clean r.path ∧ s.http.quoteQuery u.query = r.query := by
  have hscalar := catchAll_scalar hcatch
  have hhead : (47 :: path).head? = some 47 := rfl
  obtain ⟨hline, hpath⟩ := catchAll_eq_some hcatch
  rw [s.path_of_send hsend hscalar, (Supervisor.send_eq_some hsend).2.2.1]
  have hquery (hclean : Clean (47 :: path)) :
      targetQuery (47 :: path ++ queryText u.query) = u.query := by
    rcases hq : u.query with - | ⟨c, q⟩
    · have hcut : targetPath (47 :: path) = 47 :: path :=
        targetPath_eq_self_iff.2 ⟨hclean.mark, hclean.hash⟩
      rw [queryText, if_pos rfl, List.append_nil, targetQuery, hcut]
      exact List.drop_eq_nil_of_le ((List.takeWhile_prefix _).length_le.trans (Nat.le_succ _))
    · rw [← hq, queryText, if_neg (by simp [hq])]
      exact targetQuery_append_query hclean.mark hclean.hash (urlsplit_query_no_hash hurl)
  constructor
  · rintro ⟨harrives, hq⟩
    -- the line feed that the route drops does not come back
    have hself : r.path = 47 :: path := by
      refine hpath.resolve_right fun hlong ↦ ?_
      have hle := length_arrives_le hhead hscalar
      rw [harrives, hlong] at hle
      simp at hle
    rw [hself] at harrives
    have hclean : Clean (47 :: path) := (arrives_eq_self_iff hhead hscalar).1 harrives
    rw [hquery hclean] at hq
    exact ⟨hself, hself ▸ hclean, hq⟩
  · rintro ⟨hself, hclean, hq⟩
    rw [hself] at hclean ⊢
    rw [hquery hclean]
    exact ⟨(arrives_eq_self_iff hhead hscalar).2 hclean, hq⟩

/-- **When the proxy is transparent.** For a path outside `/admin` and a running worker: exactly when
the request is sent on as it is and the answer can be passed back as it is. -/
theorem transparent_iff (s : Supervisor) (r : Request) (a : Answer) (hrun : s.running = true)
    (hpath : startsWith r.path (py "/admin") = false) :
    Transparent s r a ↔
      ∃ u ∈ r.url s.http.netlocOk, ∃ path, SentOn s r u path ∧ Returns s path r a := by
  constructor
  · rintro ⟨m, hsent, -, hmpath, hmquery, -, hfaithful⟩
    obtain ⟨-, u, hurl, hgate, hway⟩ := s.sent_cases hsent
    rcases hway with ⟨route, hroute, hfind, -⟩ | ⟨hfree, hstatic, hmethod, path, hcatch, hsend⟩
    · have hserves : route.serves r.method r.path = true := by simpa using List.find?_some hfind
      rw [not_live_of_not_admin hpath hroute] at hserves
      cases hserves
    · obtain ⟨hself, hclean, hquery⟩ := (arrives_iff hurl hcatch hsend).1 ⟨hmpath, hmquery⟩
      have haccepts := s.accepts_of_send hsend
      rw [← hself] at haccepts
      have hsentOn : SentOn s r u path :=
        ⟨hgate, hfree, hstatic, hmethod, hself, (catchAll_eq_some hcatch).1, hclean, haccepts, hquery⟩
      rw [Supervisor.respond, hsentOn.handling hurl] at hfaithful
      exact ⟨u, hurl, path, hsentOn, (faithful_proxy_iff hrun hsend a).1 hfaithful⟩
  · rintro ⟨u, hurl, path, h, hreturns⟩
    have haccepts := h.accepted
    rw [h.path_eq] at haccepts
    obtain ⟨m, hsend⟩ := s.exists_send_of_accepts haccepts r.method (forwardedHeaders r.headers) r.body
    obtain ⟨hmpath, hmquery⟩ := (arrives_iff hurl h.catchAll hsend).2 ⟨h.path_eq, h.clean, h.query⟩
    have hmsg := Supervisor.send_eq_some hsend
    refine ⟨m, ?_, hmsg.1, hmpath, hmquery, hmsg.2.2.2.1, ?_⟩
    · rw [h.handling hurl, Supervisor.proxy]
      simp only [hrun, Bool.not_true, Bool.false_eq_true, if_false]
      split_ifs <;> exact hsend
    · rw [Supervisor.respond, h.handling hurl]
      exact (faithful_proxy_iff hrun hsend a).2 hreturns

/-- The body of a streamed chat request. -/
def streamBody : PyBytes :=
  pyb "\x7b\"stream\": true\x7d"

/-- A gateway without keys whose worker runs. -/
def proxySample : Supervisor where
  http := .plain fun body ↦
    if body = streamBody then some (.obj [(py "stream", .bool true)]) else none
  config := .empty
  running := true
  workerPort := 4456
  own _ := ⟨200, [], []⟩

/-- A request of a local client. -/
def clientSample (method target : String) (body : PyBytes) : Request where
  method := py method
  target := py target
  query := []
  headers := [(py "host", py "127.0.0.1:3456")]
  client := some (py "127.0.0.1")
  server := py "127.0.0.1:3456"
  body := body

/-- An answer of the worker in JSON. -/
def jsonSample (status : ℕ) : Answer :=
  ⟨status, [(py "content-type", py "application/json")], pyb "null"⟩

/-- A rate limit is passed on to a client that does not stream. -/
theorem transparent_sample :
    Transparent proxySample (clientSample "POST" "/v1/chat/completions" (pyb "null"))
      (jsonSample 429) := by
  have hurl : (clientSample "POST" "/v1/chat/completions" (pyb "null")).url
      proxySample.http.netlocOk = some ⟨py "127.0.0.1:3456", py "/v1/chat/completions", []⟩ := by
    decide +kernel
  have hstream : proxySample.wantsStream (py "v1/chat/completions") (pyb "null") = false := by decide
  refine (transparent_iff proxySample (clientSample "POST" "/v1/chat/completions" (pyb "null"))
    (jsonSample 429) rfl (by decide)).2 ⟨_, hurl, py "v1/chat/completions", ?_, rfl, ?_⟩
  · exact ⟨by decide +kernel, by decide +kernel, by decide +kernel, by decide +kernel, by decide +kernel,
      by decide +kernel, by decide +kernel, by decide +kernel, by decide +kernel⟩
  · rw [show (clientSample "POST" "/v1/chat/completions" (pyb "null")).body = pyb "null" from rfl,
      hstream, if_neg (by decide)]
    intro name hname
    unfold jsonSample
    rw [values_cons]
    split_ifs <;> simp

/-- **A rate limit becomes a success.** The client that streams is sent a `200` whatever the worker
answers. -/
theorem not_transparent_stream :
    ¬ Transparent proxySample (clientSample "POST" "/v1/chat/completions" streamBody)
      (jsonSample 429) := by
  rintro ⟨m, -, -, -, -, -, hfaithful⟩
  have hstatus : (proxySample.respond (fun _ ↦ .answered (jsonSample 429))
      (clientSample "POST" "/v1/chat/completions" streamBody)).answer.status = 200 := by decide +kernel
  have hclaim := hfaithful.status
  rw [hstatus] at hclaim
  revert hclaim
  decide

end LocalGateway
