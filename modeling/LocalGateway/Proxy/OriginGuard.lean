import LocalGateway.Proxy.Supervisor

/-!
# The origin guard

What `origin_guard` turns away. The guard reads the header of a mutating `/admin` request with `urlparse` and compares
the network location it gets with the `Host` header; a value that cannot be parsed, or has no network location, passes.

* `urlsplit_netloc_iff`: the texts in which `urlsplit` finds a network location.
* `rejected_iff`: what the guard turns away.
* `guardsOrigin_iff`: when nothing but an origin at the host of the request gets past the guard.
-/

namespace LocalGateway

open Py

/-! ### Network locations -/

/-- Text up to the first `/`, `?` or `#`. -/
def authorityOf (text : PyStr) : PyStr :=
  text.takeWhile fun c ↦ c ≠ 47 && c ≠ 63 && c ≠ 35

/-- A letter, and then letters, digits, `+`, `-` and `.`. -/
def IsScheme (scheme : PyStr) : Prop :=
  (scheme.head?.any fun c ↦ (97 ≤ c && c ≤ 122) || (65 ≤ c && c ≤ 90)) = true ∧ scheme.all isSchemeChar = true

/-- The value is that of an origin, or of a page, at this host and port: a scheme, `://`, and the host and port as they
stand in a `Host` header. -/
def Denotes (value host : PyStr) : Prop :=
  host ≠ [] ∧ ∃ scheme rest, IsScheme scheme ∧ value = scheme ++ py "://" ++ rest ∧ authorityOf rest = host

/-- What `urlsplit` removes from a URL first. -/
def strippedUrl (url : PyStr) : PyStr :=
  (url.dropWhile (· ≤ 32)).filter fun c ↦ c ≠ 9 && c ≠ 10 && c ≠ 13

/-- The text in front of the two slashes: nothing, or a scheme and a colon. -/
def IsLead (lead : PyStr) : Prop :=
  lead = [] ∨ ∃ scheme, IsScheme scheme ∧ lead = scheme ++ [58]

/-- The URL has a network location, with or without a scheme before it. -/
def HasNetloc (url netloc : PyStr) : Prop :=
  netloc ≠ [] ∧ ∃ lead rest, IsLead lead ∧ strippedUrl url = lead ++ py "//" ++ rest ∧ authorityOf rest = netloc

theorem afterScheme_lead {lead : PyStr} (h : IsLead lead) (rest : PyStr) :
    afterScheme (lead ++ py "//" ++ rest) = py "//" ++ rest := by
  rcases h with rfl | ⟨scheme, ⟨halpha, hall⟩, rfl⟩
  · -- a slash is not a letter, so no scheme is taken off
    have htake : (py "//" ++ rest).takeWhile (· ≠ 58) = py "//" ++ rest.takeWhile (· ≠ 58) := rfl
    rw [List.nil_append, afterScheme, htake]
    exact if_neg Bool.false_ne_true
  · have hcolon : ∀ c ∈ scheme, decide (c ≠ 58) = true := by
      rintro c hc
      have hchar := List.all_eq_true.1 hall c hc
      rw [decide_eq_true_eq]
      rintro rfl
      exact absurd hchar (by decide)
    have htext : scheme ++ [58] ++ py "//" ++ rest = scheme ++ 58 :: (py "//" ++ rest) := by simp
    have htake : (scheme ++ 58 :: (py "//" ++ rest)).takeWhile (· ≠ 58) = scheme := by
      rw [List.takeWhile_append_of_pos hcolon]
      simp
    rw [htext, afterScheme, htake]
    simp [halpha, hall]

/-- What follows the scheme follows a lead. -/
theorem exists_lead (url : PyStr) : afterScheme url = url ∨
    ∃ scheme, IsScheme scheme ∧ url = scheme ++ [58] ++ afterScheme url := by
  simp only [afterScheme]
  split_ifs with h
  · simp only [Bool.and_eq_true, decide_eq_true_eq] at h
    obtain ⟨⟨halpha, hall⟩, hlength⟩ := h
    refine .inr ⟨_, ⟨halpha, hall⟩, ?_⟩
    have hsplit := List.takeWhile_append_dropWhile (p := (· ≠ 58)) (l := url)
    have hstop := List.head?_dropWhile_not (fun c : ℕ ↦ decide (c ≠ 58)) url
    generalize url.takeWhile (· ≠ 58) = scheme at *
    rcases hdrop : url.dropWhile (· ≠ 58) with - | ⟨c, rest⟩ <;> rw [hdrop] at hsplit hstop
    · rw [List.append_nil] at hsplit
      exact absurd (congrArg List.length hsplit) hlength.ne
    · -- the character that ends the scheme is the colon
      obtain rfl : c = 58 := by simpa using hstop
      rw [← hsplit]
      simp
  · exact .inl rfl

/-- The network location `urlsplit` finds. -/
theorem urlsplit_netloc (ok : PyStr → Bool) (url : PyStr) : (urlsplit ok url).map SplitUrl.netloc =
    if startsWith (afterScheme (strippedUrl url)) (py "//") then
      some (authorityOf ((afterScheme (strippedUrl url)).drop 2)) |>.filter ok
    else some [] := by
  have hstripped : ((url.dropWhile (· ≤ 32)).filter fun c ↦ c ≠ 9 && c ≠ 10 && c ≠ 13) = strippedUrl url := rfl
  have hauthority (t : PyStr) : (t.takeWhile fun c ↦ c ≠ 47 && c ≠ 63 && c ≠ 35) = authorityOf t := rfl
  simp only [urlsplit, hstripped, hauthority]
  generalize afterScheme (strippedUrl url) = t
  rcases startsWith t (py "//") with - | -
  · rfl
  · rcases hok : ok (authorityOf (t.drop 2)) with - | - <;> simp [Option.filter, hok]

/-- **Where `urlsplit` finds a network location**: behind two slashes, which stand at the start or behind a scheme. -/
theorem urlsplit_netloc_iff {ok : PyStr → Bool} {url netloc : PyStr} (hne : netloc ≠ []) :
    (∃ u, urlsplit ok url = some u ∧ u.netloc = netloc) ↔ HasNetloc url netloc ∧ ok netloc = true := by
  have hdrop : ∀ t : PyStr, (py "//" ++ t).drop 2 = t := fun t ↦ rfl
  rw [← Option.map_eq_some_iff, urlsplit_netloc]
  constructor
  · split_ifs with hslashes
    · intro h
      obtain ⟨hnetloc, hok⟩ := Option.filter_eq_some_iff.1 h
      obtain rfl := Option.some.inj hnetloc
      refine ⟨⟨hne, ?_⟩, hok⟩
      obtain ⟨rest, hrest⟩ := List.isPrefixOf_iff_prefix.1 hslashes
      rw [← hrest, hdrop]
      rcases exists_lead (strippedUrl url) with hself | ⟨scheme, hscheme, htext⟩
      · exact ⟨[], rest, .inl rfl, by rw [List.nil_append, hrest, hself], rfl⟩
      · exact ⟨scheme ++ [58], rest, .inr ⟨scheme, hscheme, rfl⟩, by rw [List.append_assoc, hrest, ← htext], rfl⟩
    · exact fun h ↦ absurd (Option.some.inj h).symm hne
  · rintro ⟨⟨-, lead, rest, hlead, htext, rfl⟩, hok⟩
    have hstart : startsWith (py "//" ++ rest) (py "//") = true := rfl
    rw [htext, afterScheme_lead hlead, if_pos hstart, hdrop]
    exact Option.filter_eq_some_iff.2 ⟨rfl, hok⟩

/-! ### The guard -/

/-- The header the guard looks at: `Origin`, or `Referer` where there is none. -/
def Request.origin (r : Request) : PyStr :=
  let origin := (r.headers.get? (py "origin")).getD []
  if origin ≠ [] then origin else (r.headers.get? (py "referer")).getD []

/-- The `Host` header. -/
def Request.host (r : Request) : PyStr :=
  (r.headers.get? (py "host")).getD []

/-- A mutating request to an `/admin` handler, without authorization, that says where it comes from. -/
structure AdminMutation (r : Request) : Prop where
  method : r.method ∉ [py "GET", py "HEAD", py "OPTIONS"]
  path : startsWith r.path (py "/admin") = true
  authorization : (r.headers.get? (py "authorization")).getD [] = []
  origin : r.origin ≠ []

/-- The request is answered with a 403 before any handler runs. -/
def Rejected (s : Supervisor) (r : Request) : Prop :=
  ∃ a, s.handling r = .turnedAway a ∧ a.status = 403

/-- The value has a network location that `urlsplit` accepts, and it is not the `Host` header. -/
def NamesOther (ok : PyStr → Bool) (value host : PyStr) : Prop :=
  ∃ netloc, HasNetloc value netloc ∧ ok netloc = true ∧ netloc ≠ host

/-- An origin elsewhere, written without the characters that `urlsplit` removes, is such a value. -/
theorem Denotes.namesOther {ok : PyStr → Bool} {value netloc host : PyStr} (h : Denotes value netloc)
    (hclean : strippedUrl value = value) (hok : ok netloc = true) (hne : netloc ≠ host) :
    NamesOther ok value host := by
  obtain ⟨hnonempty, scheme, rest, hscheme, hvalue, hrest⟩ := h
  refine ⟨netloc, ⟨hnonempty, scheme ++ [58], rest, .inr ⟨scheme, hscheme, rfl⟩, ?_, hrest⟩, hok, hne⟩
  rw [hclean, hvalue]
  simp [List.append_assoc, show py "://" = 58 :: py "//" from rfl]

/-- The path in `request.url`, which is read from the `Host` header and the path together, is under `/admin` too. -/
def UrlUnderAdmin (s : Supervisor) (r : Request) : Prop :=
  ∃ u ∈ r.url s.http.netlocOk, startsWith u.path (py "/admin") = true

/-- The answer of the guard. -/
def Supervisor.invalidOrigin (s : Supervisor) : Answer :=
  errorAnswer s.http 403 [(py "message", py "Invalid origin"), (py "type", py "forbidden")]

theorem Supervisor.originGuard_eq (s : Supervisor) {r : Request} (h : AdminMutation r) {path : PyStr}
    (hpath : startsWith path (py "/admin") = true) :
    s.originGuard path r = ((urlsplit s.http.netlocOk r.origin).map SplitUrl.netloc).bind fun netloc ↦
      if netloc ≠ [] ∧ netloc ≠ r.host then some s.invalidOrigin else none := by
  have hmethod : [py "GET", py "HEAD", py "OPTIONS"].contains r.method = false := by
    rw [List.contains_eq_mem, decide_eq_false h.method]
  have horigin : (if (r.headers.get? (py "origin")).getD [] ≠ [] then (r.headers.get? (py "origin")).getD []
      else (r.headers.get? (py "referer")).getD []) = r.origin := rfl
  simp only [originGuard, horigin]
  rw [if_pos (by simp only [hmethod, hpath, h.authorization, decide_eq_true h.origin]; rfl)]
  rcases urlsplit s.http.netlocOk r.origin with - | o <;> rfl

/-- **What the guard answers**: a value that names another network location. -/
theorem Supervisor.originGuard_eq_some_iff (s : Supervisor) {r : Request} (h : AdminMutation r) {path : PyStr}
    (hpath : startsWith path (py "/admin") = true) {a : Answer} :
    s.originGuard path r = some a ↔ NamesOther s.http.netlocOk r.origin r.host ∧ a = s.invalidOrigin := by
  rw [s.originGuard_eq h hpath, Option.bind_eq_some_iff]
  constructor
  · rintro ⟨netloc, hnetloc, hanswer⟩
    split_ifs at hanswer with hother
    have hfound := (urlsplit_netloc_iff hother.1).1 (Option.map_eq_some_iff.1 hnetloc)
    exact ⟨⟨netloc, hfound.1, hfound.2, hother.2⟩, (Option.some.inj hanswer).symm⟩
  · rintro ⟨⟨netloc, hfound, hok, hother⟩, rfl⟩
    refine ⟨netloc, Option.map_eq_some_iff.2 ((urlsplit_netloc_iff hfound.1).2 ⟨hfound, hok⟩), ?_⟩
    rw [if_pos ⟨hfound.1, hother⟩]

/-- The other middlewares answer with a 401. -/
theorem Supervisor.status_auth {s : Supervisor} {r : Request} {path : PyStr} {a : Answer}
    (h : s.apiAuth path r = some a ∨ s.adminAuth path r = some a) : a.status = 401 := by
  rcases h with h | h
  · unfold apiAuth at h
    split_ifs at h
    cases h
    rfl
  · unfold adminAuth at h
    split_ifs at h
    cases h
    rfl

/-- A request that passes the middlewares is taken by a handler. -/
theorem Supervisor.dispatch_ne_turnedAway (s : Supervisor) (u : SplitUrl) (r : Request) (a : Answer) :
    s.dispatch u r ≠ .turnedAway a := by
  have hlive (route : Route) : s.liveProxy route u r ≠ .turnedAway a := by
    unfold liveProxy
    dsimp only
    split_ifs <;> simp
  have hproxy (path : PyStr) : s.proxy path u r ≠ .turnedAway a := by
    unfold proxy
    dsimp only
    split_ifs <;> simp
  rcases hfind : supervisorRoutes.find? (·.serves r.method r.path) with - | route <;> simp only [dispatch, hfind]
  · rcases isStatic r.path with - | -
    · rcases catchAll r.path with - | path
      · simp
      · simp only [Bool.false_eq_true, if_false]
        split_ifs
        · exact hproxy path
        · simp
    · simp
  · split_ifs
    · exact hlive route
    · simp

/-- **What is rejected**: a value that names another network location, in a request that the guard takes for one to
`/admin`. -/
theorem rejected_iff (s : Supervisor) {r : Request} (h : AdminMutation r) :
    Rejected s r ↔ UrlUnderAdmin s r ∧ NamesOther s.http.netlocOk r.origin r.host := by
  have hother (path : PyStr) (a : Answer) (hgate : s.gate path r = some a) (h403 : a.status = 403) :
      s.originGuard path r = some a := by
    have hauth : ¬ (s.apiAuth path r = some a ∨ s.adminAuth path r = some a) := fun hauth ↦ by
      have h401 := s.status_auth hauth
      omega
    rw [Supervisor.gate] at hgate
    rcases hapi : s.apiAuth path r with - | b <;> rw [hapi] at hgate
    · rcases hguard : s.originGuard path r with - | b <;> rw [hguard] at hgate
      · exact absurd (.inr hgate) hauth
      · exact hgate
    · exact absurd (.inl (hapi.trans hgate)) hauth
  constructor
  · rintro ⟨a, hhandling, h403⟩
    rcases hurl : r.url s.http.netlocOk with - | u
    · rw [Supervisor.handling, hurl] at hhandling
      cases hhandling
      exact absurd h403 (by decide)
    · rcases hgate : s.gate u.path r with - | b <;> simp only [Supervisor.handling, hurl, hgate] at hhandling
      · exact absurd hhandling (s.dispatch_ne_turnedAway u r a)
      · cases hhandling
        have hguard := hother u.path a hgate h403
        rcases hpath : startsWith u.path (py "/admin") with - | -
        · simp [Supervisor.originGuard, hpath] at hguard
        · exact ⟨⟨u, hurl, hpath⟩, ((s.originGuard_eq_some_iff h hpath).1 hguard).1⟩
  · rintro ⟨⟨u, hurl, hpath⟩, hnames⟩
    have hguard : s.originGuard u.path r = some s.invalidOrigin := (s.originGuard_eq_some_iff h hpath).2 ⟨hnames, rfl⟩
    have hapi : s.apiAuth u.path r = none := by simp [Supervisor.apiAuth, hpath]
    have hgate : s.gate u.path r = some s.invalidOrigin := by simp [Supervisor.gate, hapi, hguard]
    have hsome : r.url s.http.netlocOk = some u := hurl
    exact ⟨s.invalidOrigin, by simp only [Supervisor.handling, hsome, hgate], rfl⟩

/-- Behind a host and port in plain characters the path of `request.url` is the path of the request. -/
theorem urlUnderAdmin_of_plain {s : Supervisor} {r : Request} (h : AdminMutation r)
    (hplain : ∀ c ∈ (Headers.get? r.headers (py "host")).getD r.server, isPlainUrlChar c = true)
    (hok : s.http.netlocOk ((Headers.get? r.headers (py "host")).getD r.server) = true) : UrlUnderAdmin s r := by
  have hadmin : ∀ c ∈ py "admin", isPlainUrlChar c = true := by decide
  have hsplit : ∃ u, r.url s.http.netlocOk = some u ∧ startsWith u.path (py "/admin") = true :=
    urlsplit_http_startsWith hplain hok hadmin h.path
  exact hsplit

/-- Only an origin at the host of the request gets past the guard. -/
def GuardsOrigin (s : Supervisor) (r : Request) : Prop :=
  ¬ Denotes r.origin r.host → Rejected s r

/-- **When the guard holds**: for a value that denotes an origin at the host of the request, and for one in which
`urlsplit` finds another network location while the path of `request.url` is under `/admin`. -/
theorem guardsOrigin_iff (s : Supervisor) (r : Request) (h : AdminMutation r) :
    GuardsOrigin s r ↔
      Denotes r.origin r.host ∨ UrlUnderAdmin s r ∧ NamesOther s.http.netlocOk r.origin r.host := by
  rw [GuardsOrigin, rejected_iff s h, Classical.or_iff_not_imp_left]

/-- A gateway without keys whose worker does not run. -/
def originSample : Supervisor where
  http := .plain fun _ ↦ none
  config := .empty
  running := false
  workerPort := 4456
  own _ := ⟨200, [], []⟩

/-- A local browser stops the gateway, on behalf of a page. -/
def stopRequest (origin : String) : Request where
  method := py "POST"
  target := py "/admin/server/stop"
  query := []
  headers := [(py "host", py "127.0.0.1:3456"), (py "origin", py origin)]
  client := some (py "127.0.0.1")
  server := py "127.0.0.1:3456"
  body := []

theorem adminMutation_stopRequest {origin : String} (h : py origin ≠ []) : AdminMutation (stopRequest origin) where
  method := show py "POST" ∉ [py "GET", py "HEAD", py "OPTIONS"] by decide
  path := show startsWith (unquote (py "/admin/server/stop")) (py "/admin") = true by decide +kernel
  authorization := rfl
  origin := by
    have hself : (stopRequest origin).origin = py origin := if_pos h
    rwa [hself]

/-- A foreign origin does not get past it. -/
theorem guardsOrigin_sample : GuardsOrigin originSample (stopRequest "https://evil.example.com") := by
  have hmutation : AdminMutation (stopRequest "https://evil.example.com") := adminMutation_stopRequest (by decide)
  have hscheme : IsScheme (py "https") := ⟨by decide, by decide⟩
  have hdenotes : Denotes (stopRequest "https://evil.example.com").origin (py "evil.example.com") :=
    ⟨by decide, py "https", py "evil.example.com", hscheme, by decide, by decide⟩
  exact (guardsOrigin_iff _ _ hmutation).2
    (.inr ⟨urlUnderAdmin_of_plain hmutation (by decide) rfl, hdenotes.namesOther (by decide) rfl (by decide)⟩)

/-- **An opaque origin passes.** A page in a sandbox stops the gateway. -/
theorem not_guardsOrigin_null :
    AdminMutation (stopRequest "null") ∧ ¬ GuardsOrigin originSample (stopRequest "null") := by
  have hmutation : AdminMutation (stopRequest "null") := adminMutation_stopRequest (by decide)
  have hdenotes : ¬ Denotes (stopRequest "null").origin (stopRequest "null").host := by
    rintro ⟨-, scheme, rest, -, hvalue, -⟩
    have hslash : 47 ∈ (stopRequest "null").origin := by
      rw [hvalue]
      exact List.mem_append_left _ (List.mem_append_right _ (by decide))
    exact absurd hslash (by decide)
  refine ⟨hmutation, fun hguards ↦ ?_⟩
  obtain ⟨-, netloc, ⟨-, lead, rest, -, htext, -⟩, -⟩ := (rejected_iff originSample hmutation).1 (hguards hdenotes)
  have hslash : 47 ∈ strippedUrl (stopRequest "null").origin := by
    rw [htext]
    exact List.mem_append_left _ (List.mem_append_right _ (by decide))
  exact absurd hslash (by decide)

end LocalGateway
