import LocalGateway.Ledger.PromptTokens
import LocalGateway.Stream.Malformed

/-!
# Shifted counts

Where a backend has no price for reads of its cache, the tokens of the prompt are logged as read, and the usage
object that the client gets is shifted in the same way. The one is done with the merged counts, the other with
the fields of the object.

* `shiftUsageObj_counts`: what `usage_from_dict` finds in a shifted object.
* `ShiftsCounts`: the shift of an object adds to the count that is logged.
* `BodyReply.readsAs_iff`: when a client that reads a relayed body finds the counts that are logged.
-/

namespace LocalGateway

open Py Json

/-! ### Counts of a shifted object -/

/-- A float other than 0, to which a count is added as a float. -/
def addsFloat : Option Json → Bool
  | some (.float x) => truthy (.float x)
  | _ => false

theorem countOf_of_addsFloat {v : Option Json} (h : addsFloat v = true) : countOf v = none := by
  rcases v with - | v
  · rfl
  · cases v with
    | float x => rfl
    | _ => cases h

/-- The field `prompt_tokens_details.cached_tokens`. -/
def cachedDetail (usage : PyDict) : Option Json :=
  get? ((dictAt usage (py "prompt_tokens_details")).getD []) (py "cached_tokens")

theorem countOf_cachedDetail (usage : PyDict) :
    countOf (cachedDetail usage) = detailCount usage (py "cached_tokens") := by
  unfold cachedDetail detailCount
  rcases dictAt usage (py "prompt_tokens_details") with - | d
  · rfl
  · rfl

/-- A count that a sum of a field and a count has. -/
theorem countOf_addCount {fl : Arith} {v : Option Json} {n : ℤ} {w : Json} (h : addCount fl v n = some w) :
    countOf (some w) = if addsFloat v then none else some ((countOf v).getD 0 + n) := by
  rcases v with - | v
  · obtain rfl := Option.some.inj h
    simp [addsFloat, countOf]
  · -- a falsy value counts as zero, whatever it is
    rcases htruthy : truthy v with - | -
    · have hcount : (countOf (some v)).getD 0 = 0 ∧ addsFloat (some v) = false := by
        cases v with
        | int m =>
          have hm : m = 0 := by simpa [truthy] using htruthy
          exact ⟨hm, rfl⟩
        | bool b => exact ⟨by simp [countOf, show b = false from htruthy], rfl⟩
        | float x => exact ⟨rfl, htruthy⟩
        | _ => exact ⟨rfl, rfl⟩
      obtain rfl : .int n = w := by
        simpa [addCount, Option.filter, htruthy] using h
      rw [hcount.1, hcount.2, zero_add]
      rfl
    · have hv : (some v).filter truthy = some v := by simp [htruthy]
      unfold addCount at h
      rw [hv] at h
      cases v with
      | int m =>
        dsimp only at h
        split_ifs at h
        obtain rfl := Option.some.inj h
        rfl
      | bool b =>
        dsimp only at h
        split_ifs at h
        obtain rfl := Option.some.inj h
        simp [addsFloat, countOf, show b = true from htruthy]
      | float x =>
        obtain ⟨y, -, rfl⟩ := Option.map_eq_some_iff.1 h
        simp [addsFloat, htruthy, countOf]
      | null => cases h
      | str s => cases h
      | arr xs => cases h
      | obj kvs => cases h

/-- The cached tokens that `usage_from_dict` finds in a shifted object. -/
def shiftedCached (usage : PyDict) (n : ℤ) : Option ℤ :=
  let read := get? usage (py "cache_read_input_tokens")
  (if addsFloat read then none else some ((countOf read).getD 0 + n)).or
    (if addsFloat (cachedDetail usage) then none
    else some ((detailCount usage (py "cached_tokens")).getD 0 + n))

/-- **What `usage_from_dict` finds in a shifted object**: no input, and the sum that comes first. -/
theorem shiftUsageObj_counts {fl : Arith} {d usage : PyDict} {n : ℤ} {res : Option PyDict}
    (husage : dictAt d (py "usage") = some usage)
    (hcount : countOf (get? usage (py "prompt_tokens")) = some n) (hn : n ≠ 0)
    (h : shiftUsageObj fl d = some res) :
    ∃ d' usage', res = some d' ∧ dictAt d' (py "usage") = some usage' ∧
      (usageFromDict usage').inputTokens = some 0 ∧
      (usageFromDict usage').cachedTokens = shiftedCached usage n := by
  unfold shiftUsageObj at h
  rw [husage] at h
  simp only [hcount] at h
  obtain ⟨cached, hcached, h⟩ := Option.bind_eq_some_iff.1 h
  obtain ⟨read, hread, h⟩ := Option.bind_eq_some_iff.1 h
  obtain rfl := Option.some.inj h
  set details := (dictAt usage (py "prompt_tokens_details")).getD [] with hdetails
  set usage' := setKey (setKey (setKey usage (py "prompt_tokens") (.int 0)) (py "prompt_tokens_details")
    (.obj (setKey details (py "cached_tokens") cached))) (py "cache_read_input_tokens") read with husage'
  have hget : ∀ k, get? usage' k = if k = py "cache_read_input_tokens" then some read
      else if k = py "prompt_tokens_details" then some (.obj (setKey details (py "cached_tokens") cached))
      else if k = py "prompt_tokens" then some (.int 0) else get? usage k := fun k ↦ by
    rw [husage', get?_setKey, get?_setKey, get?_setKey]
  have hdict : dictAt usage' (py "prompt_tokens_details") = some (setKey details (py "cached_tokens") cached) := by
    rw [dictAt, hget, if_neg (by decide), if_pos rfl]
  refine ⟨_, usage', rfl, by rw [dictAt, get?_setKey, if_pos rfl], ?_, ?_⟩
  · show countOf (get? usage' (py "prompt_tokens")) = _
    rw [hget, if_neg (by decide), if_neg (by decide), if_pos rfl]
    rfl
  · show (countOf (get? usage' (py "cache_read_input_tokens"))).or
      ((dictAt usage' (py "prompt_tokens_details")).bind fun e ↦ countOf (get? e (py "cached_tokens"))) = _
    have hcached' : countOf (some cached) =
        if addsFloat (cachedDetail usage) then none else some ((countOf (cachedDetail usage)).getD 0 + n) :=
      countOf_addCount hcached
    rw [hget, if_pos rfl, hdict, Option.bind_some, get?_setKey, if_pos rfl, countOf_addCount hread, hcached',
      countOf_cachedDetail]
    rfl

/-- The sum that the client finds is the one that is logged, where `earlier` usage objects of a stream have reported
so many cached tokens: `cache_read_input_tokens` is what has been read, or `cached_tokens` where the sum of the
former is a float. -/
def ShiftsCounts (usage : PyDict) (earlier : Option ℤ) : Prop :=
  let read := get? usage (py "cache_read_input_tokens")
  let cached := ((usageFromDict usage).cachedTokens.or earlier).getD 0
  if addsFloat read then
    addsFloat (cachedDetail usage) = false ∧ (detailCount usage (py "cached_tokens")).getD 0 = cached
  else (countOf read).getD 0 = cached

theorem shiftedCached_eq_iff (usage : PyDict) (n : ℤ) (earlier : Option ℤ) :
    shiftedCached usage n = some (((usageFromDict usage).cachedTokens.or earlier).getD 0 + n) ↔
      ShiftsCounts usage earlier := by
  unfold shiftedCached ShiftsCounts
  dsimp only
  rcases addsFloat (get? usage (py "cache_read_input_tokens")) with - | -
  · simp
  · rcases addsFloat (cachedDetail usage) with - | -
    · simp
    · simp

/-- With one usage object: `cache_read_input_tokens` is a count, or a float other than 0 where `cached_tokens` is no
such float, or `cached_tokens` is no count other than 0. -/
theorem shiftsCounts_none_iff (usage : PyDict) : ShiftsCounts usage none ↔
    (countOf (get? usage (py "cache_read_input_tokens"))).isSome ∨
      if addsFloat (get? usage (py "cache_read_input_tokens")) then addsFloat (cachedDetail usage) = false
      else (detailCount usage (py "cached_tokens")).getD 0 = 0 := by
  have hcached : (usageFromDict usage).cachedTokens =
      (countOf (get? usage (py "cache_read_input_tokens"))).or (detailCount usage (py "cached_tokens")) := rfl
  unfold ShiftsCounts
  rw [hcached]
  dsimp only
  split_ifs with hadds
  · simp [countOf_of_addsFloat hadds]
  · rcases countOf (get? usage (py "cache_read_input_tokens")) with - | m
    · simp [eq_comm]
    · simp

/-! ### Texts that are written -/

namespace Service

variable (sv : Service)

/-- `json.loads` reads what `json.dumps` has written of an object. -/
structure ReadsBack (d : PyDict) : Prop where
  text : ∀ ascii, sv.loads.text (dumps ascii sv.repr (.obj d)) = some (.obj d)
  body : ∀ ascii b, utf8Encode (dumps ascii sv.repr (.obj d)) = some b → sv.loads.body b = some (.obj d)

/-- An object as it is, or with its reasoning fields normalised. -/
def Normal (d d' : PyDict) : Prop :=
  d' = d ∨ ∃ changed, normalizeObj d = some (d', changed)

/-- An object that the gateway writes on the way of another, which may be shifted too. -/
def Written (d d' : PyDict) : Prop :=
  ∃ d₁, Normal d d₁ ∧ (d' = d₁ ∨ shiftUsageObj sv.arith d₁ = some (some d'))

/-- The normalisation leaves the usage as it is. -/
theorem Normal.dictAt_usage {d d' : PyDict} (h : Normal d d') :
    dictAt d' (py "usage") = dictAt d (py "usage") := by
  rcases h with rfl | ⟨changed, h⟩
  · rfl
  · rw [dictAt, dictAt, get?_normalizeObj h (by decide) (by decide)]

/-- What `usage_from_dict` finds in the usage object of a text is what a row says. -/
def ReadsAs (v : Option Json) (row : UsageRow) : Prop :=
  ∃ d usage, v = some (.obj d) ∧ dictAt d (py "usage") = some usage ∧
    (usageFromDict usage).inputTokens = row.usage.inputTokens ∧
    (usageFromDict usage).cachedTokens = row.usage.cachedTokens

theorem readsAs_iff {v : Option Json} {d usage : PyDict} {row : UsageRow} (hv : v = some (.obj d))
    (husage : dictAt d (py "usage") = some usage) : ReadsAs v row ↔
      (usageFromDict usage).inputTokens = row.usage.inputTokens ∧
        (usageFromDict usage).cachedTokens = row.usage.cachedTokens := by
  constructor
  · rintro ⟨d', usage', hv', husage', h⟩
    obtain rfl : d = d' := by simpa using hv.symm.trans hv'
    obtain rfl : usage = usage' := Option.some.inj (husage.symm.trans husage')
    exact h
  · intro h
    exact ⟨d, usage, hv, husage, h⟩

/-- The counts of a row of a reply that is shifted. -/
theorem shiftLogged_counts {pricing : Attrs pricingClass} (hlacks : lacksCacheRead pricing = true)
    {u : StreamUsage} {n : ℤ} (hinput : u.inputTokens = some n) (hn : n ≠ 0) :
    (shiftLogged pricing u).inputTokens = some 0 ∧
      (shiftLogged pricing u).cachedTokens = some (u.cachedTokens.getD 0 + n) := by
  unfold shiftLogged
  rw [hinput]
  simp [hlacks, hn]

/-- A text of the object that a shift makes is read as the row exactly if the counts are those. -/
theorem readsAs_shifted_iff {d d' usage : PyDict} {n : ℤ} {v : Option Json} {row : UsageRow}
    {pricing : Attrs pricingClass} {u : StreamUsage} {earlier : Option ℤ}
    (husage : dictAt d (py "usage") = some usage)
    (hcount : countOf (get? usage (py "prompt_tokens")) = some n) (hn : n ≠ 0)
    (hshift : shiftUsageObj sv.arith d = some (some d')) (hv : v = some (.obj d'))
    (hlacks : lacksCacheRead pricing = true) (hrow : row.usage = shiftLogged pricing u)
    (hinput : u.inputTokens = some n) (hcached : u.cachedTokens = (usageFromDict usage).cachedTokens.or earlier) :
    ReadsAs v row ↔ ShiftsCounts usage earlier := by
  obtain ⟨d'', usage', heq, husage', hinput', hcached'⟩ := shiftUsageObj_counts husage hcount hn hshift
  obtain rfl := Option.some.inj heq
  obtain ⟨hlogInput, hlogCached⟩ := shiftLogged_counts hlacks hinput hn
  rw [readsAs_iff hv husage', hrow, hinput', hcached', hlogInput, hlogCached, hcached,
    ← shiftedCached_eq_iff usage n earlier]
  exact and_iff_right rfl

/-- A text of an object that is not shifted is not read as the row. -/
theorem not_readsAs {d usage : PyDict} {n : ℤ} {v : Option Json} {row : UsageRow}
    {pricing : Attrs pricingClass} {u : StreamUsage} (husage : dictAt d (py "usage") = some usage)
    (hcount : countOf (get? usage (py "prompt_tokens")) = some n) (hn : n ≠ 0) (hv : v = some (.obj d))
    (hlacks : lacksCacheRead pricing = true) (hrow : row.usage = shiftLogged pricing u)
    (hinput : u.inputTokens = some n) : ¬ ReadsAs v row := by
  rw [readsAs_iff hv husage, hrow, (shiftLogged_counts hlacks hinput hn).1]
  rintro ⟨hzero, -⟩
  have hsame : (usageFromDict usage).inputTokens = some n := hcount
  exact hn (Option.some.inj (hsame.symm.trans hzero))

/-- The body that the shift is given is a text of the object, or of the object with its reasoning normalised. -/
theorem body_normal {body out : PyBytes} {d : PyDict} (hbody : sv.loads.body body = some (.obj d))
    (h : normalizeResponseBody sv.loads sv.repr body = some out)
    (hwritten : ∀ d', sv.Written d d' → sv.ReadsBack d') :
    ∃ d₁, Normal d d₁ ∧ sv.loads.body out = some (.obj d₁) := by
  rcases hmentions : mentionsReasoning (body.map UInt8.toNat) with - | -
  · have hsame : some body = some out := by
      rw [← h, normalizeResponseBody, hmentions]
      rfl
    exact ⟨d, .inl rfl, Option.some.inj hsame ▸ hbody⟩
  · rw [normalizeResponseBody_eq sv.loads sv.repr hmentions hbody] at h
    obtain ⟨⟨d₁, changed⟩, hobj, h⟩ := Option.bind_eq_some_iff.1 h
    have hnormal : Normal d d₁ := .inr ⟨changed, hobj⟩
    cases changed with
    | true => exact ⟨d₁, hnormal, (hwritten d₁ ⟨d₁, hnormal, .inl rfl⟩).body _ _ h⟩
    | false => exact ⟨d, .inl rfl, Option.some.inj h ▸ hbody⟩

end Service

/-- A reply with a usage object that counts tokens of the prompt, which is relayed and logged. -/
structure BodyReply (sv : Service) (e : Entry) where
  body : PyBytes
  latency : ℕ
  object : PyDict
  usage : PyDict
  prompt : ℤ
  relayed : PyBytes
  row : UsageRow
  decodes : sv.loads.body body = some (.obj object)
  reports : dictAt object (py "usage") = some usage
  counts : countOf (get? usage (py "prompt_tokens")) = some prompt
  positive : 0 < prompt
  relays : sv.relayBody e body = some relayed
  logs : sv.chatRow e (extractUsage sv.loads body) latency false = some row
  readsBack : ∀ d, sv.Written object d → sv.ReadsBack d

/-- **A body.** The client finds the counts that are logged exactly if the shift adds to the right count. -/
theorem BodyReply.readsAs_iff {sv : Service} {e : Entry} (hlacks : lacksCacheRead (sv.pricing e) = true)
    (x : BodyReply sv e) :
    Service.ReadsAs (sv.loads.body x.relayed) x.row ↔ ShiftsCounts x.usage none := by
  have hne : x.prompt ≠ 0 := x.positive.ne'
  obtain ⟨out, hnormalize, hrelay⟩ := Option.bind_eq_some_iff.1 x.relays
  obtain ⟨d₁, hnormal, hout⟩ := sv.body_normal x.decodes hnormalize x.readsBack
  have husage : dictAt d₁ (py "usage") = some x.usage := hnormal.dictAt_usage.trans x.reports
  rw [if_pos hlacks, shiftUsageToCached, hout] at hrelay
  dsimp only at hrelay
  rcases hshift : shiftUsageObj sv.arith d₁ with - | res <;> rw [hshift] at hrelay
  · cases hrelay
  · obtain ⟨d₂, -, rfl, -⟩ := shiftUsageObj_counts husage x.counts hne hshift
    have hread := (x.readsBack d₂ ⟨d₁, hnormal, .inr hshift⟩).body true _ hrelay
    have hextract := extractUsage_of_usage x.decodes x.reports
    refine sv.readsAs_shifted_iff husage x.counts hne hshift hread hlacks (chatRow_usage x.logs) ?_ ?_
    · rw [hextract]
      exact x.counts
    · rw [hextract, Option.or_none]

end LocalGateway
