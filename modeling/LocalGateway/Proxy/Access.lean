import LocalGateway.Config.Schema
import LocalGateway.Proxy.Url

/-!
# Requests, and who may make them

The messages that pass between client, supervisor and worker, and `auth.py`: which paths are pages,
which peers are local, and which key a request carries.

A request holds the path as it was sent. `Request.path` is what the server makes of it, and
`Request.url` what the framework makes of that: the URL put together from the `Host` header and the
decoded path, and split again. The middlewares of both processes look at the second, the routers at
the first.
-/

namespace LocalGateway

open Py

/-! ### Messages -/

/-- Header fields in their order, the names in lower case. -/
abbrev Headers := List (PyStr × PyStr)

namespace Headers

/-- `headers.get(name)`: the first of the values. -/
def get? (h : Headers) (name : PyStr) : Option PyStr :=
  h.lookup name

/-- All values of a name, in order. -/
def values (h : Headers) (name : PyStr) : List PyStr :=
  (h.filter fun e ↦ e.1 = name).map Prod.snd

/-- `headers[name] = value`, on a dictionary. -/
def set : Headers → PyStr → PyStr → Headers
  | [], name, value => [(name, value)]
  | (n, v) :: h, name, value =>
    if n = name then (n, value) :: h else (n, v) :: set h name value

/-- The dictionary of the fields: of several values of a name the last is kept. -/
def toDict (h : Headers) : Headers :=
  h.foldl (fun d e ↦ d.set e.1 e.2) []

end Headers

/-- A request as the server hands it to the application. -/
structure Request where
  method : PyStr
  /-- The path as it was sent, its escapes not decoded. -/
  target : PyStr
  query : PyStr
  headers : Headers
  /-- The address of the peer. -/
  client : Option PyStr
  /-- The address the server is bound to. -/
  server : PyStr
  body : PyBytes

/-- An answer, its body in full. -/
structure Answer where
  status : ℕ
  headers : Headers
  body : PyBytes

/-- The path the router sees. -/
def Request.path (r : Request) : PyStr :=
  unquote r.target

theorem Request.path_scalar (r : Request) : ∀ c ∈ r.path, IsScalar c :=
  utf8Decode_scalar _

/-! ### `urlsplit` -/

/-- The parts of a URL the gateway looks at. -/
structure SplitUrl where
  netloc : PyStr
  path : PyStr
  query : PyStr
deriving DecidableEq

/-- The characters of a URL scheme. -/
def isSchemeChar (c : ℕ) : Bool :=
  (97 ≤ c && c ≤ 122) || (65 ≤ c && c ≤ 90) || (48 ≤ c && c ≤ 57) || c = 43 || c = 45 || c = 46

/-- What follows the scheme. -/
def afterScheme (url : PyStr) : PyStr :=
  let scheme := url.takeWhile (· ≠ 58)
  let alpha := scheme.head?.any fun c ↦ (97 ≤ c && c ≤ 122) || (65 ≤ c && c ≤ 90)
  if alpha && scheme.all isSchemeChar && scheme.length < url.length then
    url.drop (scheme.length + 1)
  else url

/-- `urlsplit`, less the scheme and the fragment; `none` is its `ValueError`, raised for a network
location that `netlocOk` does not accept. -/
def urlsplit (netlocOk : PyStr → Bool) (url : PyStr) : Option SplitUrl :=
  let rest := afterScheme ((url.dropWhile (· ≤ 32)).filter fun c ↦ c ≠ 9 && c ≠ 10 && c ≠ 13)
  let slashes := startsWith rest (py "//")
  let rest := if slashes then rest.drop 2 else rest
  let netloc := if slashes then rest.takeWhile fun c ↦ c ≠ 47 && c ≠ 63 && c ≠ 35 else []
  let rest := (rest.drop netloc.length).takeWhile (· ≠ 35)
  let path := rest.takeWhile (· ≠ 63)
  if slashes && !netlocOk netloc then none
  else some ⟨netloc, path, rest.drop (path.length + 1)⟩

/-- The text `request.url` is made from. -/
def Request.urlText (r : Request) : PyStr :=
  py "http://" ++ (Headers.get? r.headers (py "host")).getD r.server ++ r.path ++
    if r.query = [] then [] else 63 :: r.query

/-- `request.url`. -/
def Request.url (r : Request) (netlocOk : PyStr → Bool) : Option SplitUrl :=
  urlsplit netlocOk r.urlText

/-- The characters that `urlsplit` keeps and does not cut at. -/
def isPlainUrlChar (c : ℕ) : Bool :=
  c ≠ 9 && c ≠ 10 && c ≠ 13 && c ≠ 35 && c ≠ 47 && c ≠ 63

/-- A URL on a network location without special characters, and the path behind it. -/
theorem urlsplit_http {ok : PyStr → Bool} {netloc rest : PyStr}
    (hplain : ∀ c ∈ netloc, isPlainUrlChar c = true) (hok : ok netloc = true) :
    urlsplit ok (py "http://" ++ netloc ++ 47 :: rest) =
      let url := (47 :: rest.filter fun c ↦ c ≠ 9 && c ≠ 10 && c ≠ 13).takeWhile (· ≠ 35)
      let path := url.takeWhile (· ≠ 63)
      some ⟨netloc, path, url.drop (path.length + 1)⟩ := by
  have hkeep : (netloc.filter fun c ↦ c ≠ 9 && c ≠ 10 && c ≠ 13) = netloc := by
    rw [List.filter_eq_self]
    intro c hc
    have := hplain c hc
    simp only [isPlainUrlChar, Bool.and_eq_true] at this
    simp only [this, Bool.and_self]
  have hclean : ((py "http://" ++ netloc ++ 47 :: rest).dropWhile (· ≤ 32)).filter
      (fun c ↦ c ≠ 9 && c ≠ 10 && c ≠ 13) =
      py "http:" ++ (py "//" ++ (netloc ++ 47 :: rest.filter fun c ↦ c ≠ 9 && c ≠ 10 && c ≠ 13)) := by
    have hhead : (py "http://" ++ netloc ++ 47 :: rest).dropWhile (· ≤ 32) =
        py "http://" ++ netloc ++ 47 :: rest := rfl
    have hslash : (47 :: rest).filter (fun c ↦ c ≠ 9 && c ≠ 10 && c ≠ 13) =
        47 :: rest.filter fun c ↦ c ≠ 9 && c ≠ 10 && c ≠ 13 := rfl
    rw [hhead, List.filter_append, List.filter_append, hkeep, hslash, List.append_assoc]
    rfl
  -- the scheme ends at the first colon
  have hscheme : ∀ t : PyStr, afterScheme (py "http:" ++ (py "//" ++ t)) = py "//" ++ t := by
    intro t
    rw [afterScheme]
    have : (py "http:" ++ (py "//" ++ t)).takeWhile (· ≠ 58) = py "http" := rfl
    rw [this]
    have hlen : (py "http").length < (py "http:" ++ (py "//" ++ t)).length := by
      rw [List.length_append]
      exact Nat.lt_add_right _ (by decide)
    rw [if_pos (by simp only [hlen]; decide)]
    rfl
  -- the network location ends at the slash
  have hnetloc : (netloc ++ 47 :: rest.filter fun c ↦ c ≠ 9 && c ≠ 10 && c ≠ 13).takeWhile
      (fun c ↦ c ≠ 47 && c ≠ 63 && c ≠ 35) = netloc := by
    refine takeWhile_append_stop (fun c hc ↦ ?_) fun c hc ↦ ?_
    · have := hplain c hc
      simp only [isPlainUrlChar, Bool.and_eq_true] at this
      simp only [this, Bool.and_self]
    · obtain rfl : 47 = c := by simpa using hc
      rfl
  have hstart : ∀ t : PyStr, startsWith (py "//" ++ t) (py "//") = true := fun t ↦ rfl
  have hdrop : ∀ t : PyStr, (py "//" ++ t).drop 2 = t := fun t ↦ rfl
  rw [urlsplit]
  simp only [hclean, hscheme, hstart, hdrop, if_true, hnetloc, hok, Bool.not_true, Bool.and_false,
    Bool.false_eq_true, if_false, List.drop_left]

/-- What a path begins with, if it is plain, is what the path of the URL begins with. -/
theorem urlsplit_http_startsWith {ok : PyStr → Bool} {netloc path query lit : PyStr}
    (hplain : ∀ c ∈ netloc, isPlainUrlChar c = true) (hok : ok netloc = true)
    (hlit : ∀ c ∈ lit, isPlainUrlChar c = true) (h : startsWith path (47 :: lit) = true) :
    ∃ u, urlsplit ok (py "http://" ++ netloc ++ path ++ query) = some u ∧
      startsWith u.path (47 :: lit) = true := by
  obtain ⟨t, rfl⟩ := List.isPrefixOf_iff_prefix.1 h
  have htext : py "http://" ++ netloc ++ (47 :: lit ++ t) ++ query =
      py "http://" ++ netloc ++ 47 :: (lit ++ (t ++ query)) := by simp
  refine ⟨_, by rw [htext, urlsplit_http hplain hok], ?_⟩
  have hfilter : lit.filter (fun c ↦ c ≠ 9 && c ≠ 10 && c ≠ 13) = lit := by
    rw [List.filter_eq_self]
    intro c hc
    have := hlit c hc
    simp only [isPlainUrlChar, Bool.and_eq_true] at this
    simp only [this, Bool.and_self]
  have hcut (x : ℕ) (hx : x = 35 ∨ x = 63) (t : PyStr) :
      (47 :: lit ++ t).takeWhile (· ≠ x) = 47 :: lit ++ t.takeWhile (· ≠ x) := by
    refine List.takeWhile_append_of_pos fun c hc ↦ ?_
    rcases List.mem_cons.1 hc with rfl | hc
    · rcases hx with rfl | rfl <;> rfl
    · have := hlit c hc
      simp only [isPlainUrlChar, Bool.and_eq_true] at this
      rcases hx with rfl | rfl <;> simp only [this]
  simp only [List.filter_append, hfilter, startsWith, List.isPrefixOf_iff_prefix]
  rw [← List.cons_append, hcut 35 (.inl rfl), hcut 63 (.inr rfl)]
  exact List.prefix_append _ _
/-- The fragment is cut off before the query is taken. -/
theorem urlsplit_query_no_hash {ok : PyStr → Bool} {url : PyStr} {u : SplitUrl}
    (h : urlsplit ok url = some u) : 35 ∉ u.query := by
  simp only [urlsplit, Option.ite_none_left_eq_some, Option.some.injEq] at h
  obtain ⟨-, rfl⟩ := h
  intro hmem
  have hkept := List.mem_takeWhile_imp (List.mem_of_mem_drop hmem)
  simp at hkept

/-! ### Loopback addresses -/

/-- An octet of an IPv4 address: decimal, without leading zeros. -/
def ipv4Octet (s : PyStr) : Option ℕ :=
  let value := s.foldl (fun n c ↦ 10 * n + (c - 48)) 0
  if s ≠ [] ∧ s.all Json.isDigit ∧ s.length ≤ 3 ∧ (s.length = 1 ∨ s.head? ≠ some 48) ∧ value ≤ 255 then
    some value
  else none

/-- The octets of an IPv4 address. -/
def ipv4Octets (s : PyStr) : Option (List ℕ) :=
  if (s.splitOn 46).length = 4 then (s.splitOn 46).mapM ipv4Octet else none

/-- A group of an IPv6 address: up to four hexadecimal digits. -/
def ipv6Group (s : PyStr) : Option ℕ :=
  if s ≠ [] ∧ s.length ≤ 4 then
    s.foldlM (fun n c ↦ (hexDigitValue c).map (16 * n + ·)) 0
  else none

/-- A part of an IPv6 address: nothing, a group, or two groups written as an IPv4 address. -/
def ipv6Part (s : PyStr) : Option (List (Option ℕ)) :=
  if s = [] then some [none]
  else if 46 ∈ s then
    match ipv4Octets s with
    | some [a, b, c, d] => some [some (256 * a + b), some (256 * c + d)]
    | _ => none
  else (ipv6Group s).map fun g ↦ [some g]

/-- The groups on one side of `::`; a lone empty part is the end of the text. -/
def ipv6Side (items : List (Option ℕ)) : Option (List ℕ) :=
  if items = [none] then some [] else items.mapM id

/-- The groups of an IPv6 address without its zone. -/
def ipv6Groups (s : PyStr) : Option (List ℕ) := do
  let parts := s.splitOn 58
  let front ← parts.dropLast.mapM fun part ↦ if 46 ∈ part then none else ipv6Part part
  let last ← ipv6Part (parts.getLast?.getD [])
  let items := front.flatten ++ last
  let inner := items.tail.dropLast
  -- `::` leaves an empty group inside, and stands for one group at least
  if parts.length < 3 ∨ 9 < items.length then none
  else if inner.count none = 0 then
    if items.length = 8 then items.mapM id else none
  else if inner.count none = 1 then do
    let hi ← ipv6Side (items.take (1 + inner.idxOf none))
    let lo ← ipv6Side (items.drop (2 + inner.idxOf none))
    if hi.length + lo.length ≤ 7 then
      some (hi ++ List.replicate (8 - (hi.length + lo.length)) 0 ++ lo)
    else none
  else none

/-- `ip_address(host).is_loopback`; `none` is the `ValueError`. -/
def ipIsLoopback (host : PyStr) : Option Bool :=
  match ipv4Octets host with
  | some octets => some (octets.head? = some 127)
  | none =>
    let addr := host.takeWhile (· ≠ 37)
    let zone := host.drop (addr.length + 1)
    if 47 ∈ host ∨ (37 ∈ host ∧ (zone = [] ∨ 37 ∈ zone)) then none
    else (ipv6Groups addr).map fun groups ↦ groups = [0, 0, 0, 0, 0, 0, 0, 1]

/-- `is_loopback_host`. -/
def isLoopbackHost (host : Option PyStr) : Bool :=
  match host with
  | none => false
  | some [] => false
  | some host =>
    let host := if startsWith host (py "::ffff:") then host.drop 7 else host
    (ipIsLoopback host).getD (host = py "localhost" || host = py "::1")

example : (["127.0.0.1", "::1", "0:0::0:1", "::ffff:127.9.9.9", "::1%lo", "127.0.0.01", "10.0.0.1",
    "1::1", "localhost"].map fun s ↦ isLoopbackHost (some (py s))) =
    [true, true, true, true, true, false, false, false, true] := by decide

/-! ### Keys -/

/-- `PAGE_PATHS`. -/
def pagePaths : List PyStr :=
  [py "/", py "/models", py "/providers", py "/usage", py "/logs", py "/settings"]

/-- `PAGE_PREFIXES`. -/
def pagePrefixes : List PyStr :=
  [py "/models/", py "/compare/"]

/-- `is_page_path`. -/
def isPagePath (path : PyStr) : Bool :=
  pagePaths.contains path || pagePrefixes.any (startsWith path)

/-- `s.replace(old, "")`: the count says how many characters of a match are still to be dropped. -/
def removeAll (old : PyStr) : ℕ → PyStr → PyStr
  | _, [] => []
  | k + 1, _ :: s => removeAll old k s
  | 0, c :: s =>
    if startsWith (c :: s) old then removeAll old (old.length - 1) s else c :: removeAll old 0 s

/-- `_bearer_token`. -/
def bearerToken (r : Request) : PyStr :=
  let auth := (Headers.get? r.headers (py "authorization")).getD []
  if startsWith auth (py "Bearer") then strip (removeAll (py "Bearer ") 0 auth) else auth

/-- A key that is not in the configuration, with no limits of its own. -/
def syntheticKey (id key label : PyStr) : ApiKeyConfig where
  id := id
  key := key
  attrs :=
    ⟨[(py "label", .str label), (py "enabled", .bool true), (py "rpm", .null),
      (py "daily_budget_usd", .null), (py "monthly_budget_usd", .null),
      (py "model_allowlist", .arr [])],
      .cons ⟨rfl, rfl⟩ <| .cons ⟨rfl, rfl⟩ <| .cons ⟨rfl, rfl⟩ <| .cons ⟨rfl, rfl⟩ <|
        .cons ⟨rfl, rfl⟩ <| .cons ⟨rfl, rfl⟩ .nil⟩

/-- `k.enabled`. -/
def ApiKeyConfig.enabled (k : ApiKeyConfig) : Bool :=
  Json.get? k.attrs.fields (py "enabled") = some (.bool true)

/-- `server.api_key`, where nothing and the empty text are the same. -/
def ServerConfig.legacyKey (s : ServerConfig) : PyStr :=
  s.apiKey.getD []

/-- Some key is configured. -/
def ServerConfig.hasKeys (s : ServerConfig) : Bool :=
  s.legacyKey ≠ [] || !s.apiKeys.isEmpty

/-- `resolve_api_key`. -/
def resolveApiKey (r : Request) (config : GatewayConfig) : Option ApiKeyConfig :=
  let token := bearerToken r
  let server := config.server
  let legacy := syntheticKey (py "default") server.legacyKey (py "Legacy default key")
  if server.apiKeys ≠ [] then
    match server.apiKeys.find? fun k ↦ k.enabled && token ≠ [] && k.key = token with
    | some k => some k
    -- the legacy key still holds beside the listed ones
    | none => if server.legacyKey ≠ [] ∧ token = server.legacyKey then some legacy else none
  else if server.legacyKey ≠ [] then
    if token ≠ [] ∧ token = server.legacyKey then some legacy else none
  else some (syntheticKey [] [] (py "(open access)"))

/-- `check_api_key`. -/
def checkApiKey (r : Request) (config : GatewayConfig) : Bool :=
  !config.server.hasKeys || isLoopbackHost r.client || (resolveApiKey r config).isSome

/-- A remote peer without a key is turned away where keys are configured. -/
theorem checkApiKey_eq_false {r : Request} {config : GatewayConfig}
    (hkeys : config.server.hasKeys = true) (hpeer : isLoopbackHost r.client = false)
    (hkey : resolveApiKey r config = none) : checkApiKey r config = false := by
  simp [checkApiKey, hkeys, hpeer, hkey]

/-- A local peer is not asked for a key. -/
theorem checkApiKey_of_loopback {r : Request} (config : GatewayConfig)
    (hpeer : isLoopbackHost r.client = true) : checkApiKey r config = true := by
  simp [checkApiKey, hpeer]

end LocalGateway
