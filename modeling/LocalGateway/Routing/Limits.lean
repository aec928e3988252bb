import LocalGateway.Routing.Capacity

/-!
# Limits

The two limits of a request are its output limit, which it gives under one of three names, and the context
that its prompt and completion need. This file is about what becomes of them before the router sees them and
after it has found no backend.

* `keepsLimit_iff`: the default parameters leave the output limit of a client alone exactly if no default
  for another of its names is read as another limit.
* `truthful_iff`: a request that is not routed is told of the limit that kept it from being routed exactly
  if no backend has an unknown window, or an output cap that is not too small.
-/

namespace LocalGateway

open Py Json RespCache

/-! ### The output limit of a client -/

section ClientLimit

variable (decimal : ℕ → Option ℕ)

/-- The names of the output limit, in the order in which they are read. -/
def limitFields : List PyStr :=
  [py "max_completion_tokens", py "max_tokens", py "max_output_tokens"]

/-- The value of a field that is there and is not `None`. -/
def presentAt (d : PyDict) (field : PyStr) : Option Json :=
  (get? d field).filter (· ≠ .null)

/-- `int(v)` as the output limit; the outer `none` is an exception. -/
def readLimit (v : Json) : Option (Option ℤ) :=
  match intOf decimal v with
  | .value n => some (some n)
  | .caught => some none
  | .raised => none

/-- The body gives a limit that can be read. -/
def GivesLimit (body : PyDict) : Prop :=
  ∃ field ∈ limitFields, ∃ v n, presentAt body field = some v ∧ intOf decimal v = .value n

/-- The limit of the client wins: with the default parameters, the limit that is routed by is that of the
body alone, and what they add under one of its names is no other limit. -/
def KeepsLimit (body : PyDict) (defaults : Option PyDict) : Prop :=
  GivesLimit decimal body →
    requestedMaxTokens decimal (applyDefaultParams body defaults) = requestedMaxTokens decimal body ∧
      ∀ field ∈ limitFields, ∀ v, presentAt (applyDefaultParams body defaults) field = some v →
        presentAt body field ≠ some v → readLimit decimal v = requestedMaxTokens decimal body

/-- The value that default parameters have for a field. -/
def suppliedBy (defaults : Option PyDict) (field : PyStr) : Option Json :=
  ((defaults.getD []).find? fun entry ↦ entry.1 = field ∧ entry.2 ≠ .null).map Prod.snd

theorem presentAt_of_get? {d : PyDict} {field : PyStr} {v : Json} (h : get? d field = some v)
    (hv : v ≠ .null) : presentAt d field = some v := by
  rw [presentAt, h, Option.filter_some, if_pos (decide_eq_true hv)]

theorem presentAt_eq_none_iff {d : PyDict} {field : PyStr} :
    presentAt d field = none ↔ get? d field = none ∨ get? d field = some .null := by
  rw [presentAt, Option.filter_eq_none_iff]
  rcases get? d field with - | v
  · simp
  · simp

theorem firstPresent_eq (d : PyDict) (fields : List PyStr) :
    firstPresent d fields = fields.findSome? (presentAt d) := by
  induction fields with
  | nil => rfl
  | cons field fields ih =>
    rw [firstPresent, List.findSome?_cons, ih]
    rcases hget : get? d field with - | v
    · rw [presentAt_eq_none_iff.2 (.inl hget)]
    · by_cases hv : v = .null
      · rw [presentAt_eq_none_iff.2 (.inr (hv ▸ hget)), hv]
      · rw [presentAt_of_get? hget hv]
        cases v with
        | null => exact absurd rfl hv
        | _ => rfl

/-- The limit that is read is that of the first field with a value. -/
theorem requestedMaxTokens_eq (d : PyDict) :
    requestedMaxTokens decimal d =
      ((((presentAt d (py "max_completion_tokens")).or (presentAt d (py "max_tokens"))).or
        (presentAt d (py "max_output_tokens"))).map (readLimit decimal)).getD (some none) := by
  have hfirst : firstPresent d limitFields =
      ((presentAt d (py "max_completion_tokens")).or (presentAt d (py "max_tokens"))).or
        (presentAt d (py "max_output_tokens")) := by
    rw [firstPresent_eq, limitFields]
    rcases hfirst : presentAt d (py "max_completion_tokens") with - | v
    · rcases hsecond : presentAt d (py "max_tokens") with - | v
      · rcases hthird : presentAt d (py "max_output_tokens") with - | v
        · simp [hfirst, hsecond, hthird]
        · simp [hfirst, hsecond, hthird]
      · simp [hfirst, hsecond]
    · simp [hfirst]
  rw [← hfirst]
  unfold requestedMaxTokens limitFields
  rcases firstPresent d _ with - | v
  · rfl
  · rfl

/-- One default fills a field that has no value. -/
theorem presentAt_applyDefault (out : PyDict) (entry : PyStr × Json) {field : PyStr}
    (hfield : field ∈ defaultParamKeys) (hblocked : field ∉ defaultParamBlocked) :
    presentAt (applyDefault out entry) field =
      (presentAt out field).or (if entry.1 = field ∧ entry.2 ≠ .null then some entry.2 else none) := by
  obtain ⟨key, v⟩ := entry
  unfold applyDefault
  by_cases hkey : key = field
  · subst hkey
    have hopen : (hasKey out key = false ∨ get? out key = some .null) ↔ presentAt out key = none := by
      rw [presentAt_eq_none_iff, hasKey, Option.isSome_eq_false_iff, Option.isNone_iff_eq_none]
    rw [if_neg hblocked, if_neg (not_not.2 hfield)]
    by_cases hnone : presentAt out key = none
    · rw [if_pos (hopen.2 hnone), hnone, Option.none_or, presentAt, get?_setKey, if_pos rfl,
        Option.filter_some]
      simp
    · obtain ⟨w, hw⟩ := Option.ne_none_iff_exists'.1 hnone
      rw [if_neg (hopen.not.2 hnone), hw, Option.some_or]
  · have hget : ∀ out', get? out' field = get? out field → presentAt out' field = presentAt out field :=
      fun out' h ↦ by rw [presentAt, presentAt, h]
    have hother : ¬ (key = field ∧ v ≠ .null) := fun h ↦ hkey h.1
    simp only [if_neg hother, Option.or_none]
    split_ifs
    · rfl
    · exact hget _ (by rw [get?_setKey, if_neg (Ne.symm hkey)])
    · rfl
    · rfl

/-- **What a filled body has**: what the body has, or else what the defaults supply. -/
theorem presentAt_applyDefaultParams (body : PyDict) (defaults : Option PyDict) {field : PyStr}
    (hfield : field ∈ defaultParamKeys) (hblocked : field ∉ defaultParamBlocked) :
    presentAt (applyDefaultParams body defaults) field =
      (presentAt body field).or (suppliedBy defaults field) := by
  unfold applyDefaultParams suppliedBy
  induction defaults.getD [] generalizing body with
  | nil => simp
  | cons entry entries ih =>
    rw [List.foldl_cons, ih, presentAt_applyDefault body entry hfield hblocked, Option.or_assoc,
      List.find?_cons]
    by_cases hentry : entry.1 = field ∧ entry.2 ≠ .null
    · simp [hentry]
    · simp [hentry]

/-- **When the limit of a client wins.** Each default under a name that the body does not give has to be
read as the limit of the body. -/
theorem keepsLimit_iff (body : PyDict) (defaults : Option PyDict) :
    KeepsLimit decimal body defaults ↔ (GivesLimit decimal body →
      ∀ field ∈ [py "max_completion_tokens", py "max_tokens"], presentAt body field = none →
        ∀ v, suppliedBy defaults field = some v →
          readLimit decimal v = requestedMaxTokens decimal body) := by
  have hfilled : ∀ field ∈ [py "max_completion_tokens", py "max_tokens"],
      presentAt (applyDefaultParams body defaults) field =
        (presentAt body field).or (suppliedBy defaults field) := by
    intro field hfield
    have hkeys : ∀ field ∈ [py "max_completion_tokens", py "max_tokens"],
        field ∈ defaultParamKeys ∧ field ∉ defaultParamBlocked := by decide
    exact presentAt_applyDefaultParams body defaults (hkeys field hfield).1 (hkeys field hfield).2
  have hlast : presentAt (applyDefaultParams body defaults) (py "max_output_tokens") =
      presentAt body (py "max_output_tokens") := by
    rw [presentAt, presentAt, get?_applyDefaultParams body defaults (by decide)]
  refine forall_congr' fun hgives ↦ ⟨fun ⟨_, h⟩ field hfield hnone v hv ↦ ?_, fun h ↦ ⟨?_, ?_⟩⟩
  · have hname : ∀ field ∈ [py "max_completion_tokens", py "max_tokens"], field ∈ limitFields := by
      decide
    have hpresent := hfilled field hfield
    rw [hnone, Option.none_or, hv] at hpresent
    exact h field (hname field hfield) v hpresent (by rw [hnone]; nofun)
  · -- the first name that is given decides, and a default may be given under an earlier one
    rw [requestedMaxTokens_eq, hfilled _ (by simp), hfilled _ (by simp), hlast]
    rcases hfirst : presentAt body (py "max_completion_tokens") with - | w
    · rcases hv : suppliedBy defaults (py "max_completion_tokens") with - | v
      · rcases hsecond : presentAt body (py "max_tokens") with - | w
        · rcases hv' : suppliedBy defaults (py "max_tokens") with - | v
          · rw [requestedMaxTokens_eq, hfirst, hsecond]
            rfl
          · exact h _ (by simp) hsecond v hv'
        · rw [requestedMaxTokens_eq, hfirst, hsecond]
          rfl
      · exact h _ (by simp) hfirst v hv
    · rw [requestedMaxTokens_eq, hfirst]
      rfl
  · intro field hfield v hv hbody
    have hcases : field ∈ [py "max_completion_tokens", py "max_tokens"] ∨
        field = py "max_output_tokens" := by
      simpa [limitFields, or_assoc] using hfield
    rcases hcases with hname | rfl
    · rw [hfilled field hname] at hv
      rcases hnone : presentAt body field with - | w
      · rw [hnone, Option.none_or] at hv
        exact h field hname hnone v hv
      · rw [hnone, Option.some_or] at hv
        exact absurd (hnone.trans hv) hbody
    · exact absurd (hlast ▸ hv) hbody

/-- A default under the name that is read first takes the place of the limit of the client. -/
theorem not_keepsLimit_otherName :
    ¬ KeepsLimit asciiDecimal [(py "max_tokens", .int 100)]
      (some [(py "max_completion_tokens", .int 50)]) := by
  intro h
  have hsame := (h ⟨py "max_tokens", by decide, .int 100, 100, by decide, rfl⟩).1
  exact absurd hsame (by decide +kernel)

end ClientLimit

/-! ### Reasons for a rejection -/

section Rejections

variable (c : GatewayConfig) (m : ModelConfig) (d : Demand)

/-- The context window of a backend. -/
def BackendConfig.window (b : BackendConfig) : Option ℤ :=
  attrInt b.fields (py "context_length")

/-- The output cap that counts for a backend of a model. -/
def ModelConfig.effectiveCap (m : ModelConfig) (b : BackendConfig) : Option ℤ :=
  outputCap (attrInt b.fields (py "max_output_tokens")) (attrInt m.fields (py "max_output_tokens"))

/-- There are backends, and the windows of all of them are too small. -/
def ContextExceeded : Prop :=
  servingBackends c m ≠ [] ∧ ∃ n, d.inputTokens = some n ∧
    ∀ b ∈ servingBackends c m, ∃ length, b.window = some length ∧ length < n + d.maxTokens.getD 0

/-- There are backends, and the caps of all of them are too small. -/
def OutputExceeded : Prop :=
  servingBackends c m ≠ [] ∧ ∃ n, d.maxTokens = some n ∧
    ∀ b ∈ servingBackends c m, ∃ cap, m.effectiveCap b = some cap ∧ cap < n

/-- There are windows, and all windows there are are too small. -/
def WindowsExceeded : Prop :=
  (∃ b ∈ servingBackends c m, b.window.isSome) ∧ ∃ n, d.inputTokens = some n ∧
    ∀ b ∈ servingBackends c m, ∀ length, b.window = some length → length < n + d.maxTokens.getD 0

theorem contextTooSmall_isSome_iff : (contextTooSmall c m d).isSome ↔ WindowsExceeded c m d := by
  unfold contextTooSmall WindowsExceeded
  rcases d.inputTokens with - | n
  · simp
  · simp only [Option.bind_some, Option.some.injEq, exists_eq_left']
    have hmem : ∀ length, length ∈ (servingBackends c m).filterMap BackendConfig.window ↔
        ∃ b ∈ servingBackends c m, b.window = some length := fun length ↦ List.mem_filterMap
    have hname : (servingBackends c m).filterMap (fun b ↦ attrInt b.fields (py "context_length")) =
        (servingBackends c m).filterMap BackendConfig.window := rfl
    rw [hname]
    rcases hmax : ((servingBackends c m).filterMap BackendConfig.window).max? with - | largest
    · have hnil := List.max?_eq_none_iff.1 hmax
      refine iff_of_false ?_ fun ⟨⟨b, hb, hwindow⟩, _⟩ ↦ ?_
      · simp
      · obtain ⟨length, hlength⟩ := Option.isSome_iff_exists.1 hwindow
        have hin := (hmem length).2 ⟨b, hb, hlength⟩
        rw [hnil] at hin
        cases hin
    · obtain ⟨hlargest, hle⟩ := List.max?_eq_some_iff.1 hmax
      obtain ⟨b, hb, hwindow⟩ := (hmem largest).1 hlargest
      have hiff : largest < n + d.maxTokens.getD 0 ↔
          ∀ b ∈ servingBackends c m, ∀ length, b.window = some length →
            length < n + d.maxTokens.getD 0 :=
        ⟨fun h b hb length hlength ↦ (hle length ((hmem length).2 ⟨b, hb, hlength⟩)).trans_lt h,
          fun h ↦ h b hb largest hwindow⟩
      rw [and_iff_right ⟨b, hb, by rw [hwindow]; rfl⟩, ← hiff]
      dsimp only
      split_ifs with h
      · exact iff_of_true rfl h
      · exact iff_of_false (by simp) h

/-- Windows that are all too small are those of all backends, if every backend has one. -/
theorem contextExceeded_iff :
    ContextExceeded c m d ↔ WindowsExceeded c m d ∧ ∀ b ∈ servingBackends c m, b.window.isSome := by
  constructor
  · rintro ⟨hne, n, hn, hall⟩
    obtain ⟨b, bs, hbs⟩ := List.exists_cons_of_ne_nil hne
    have hsome : ∀ b ∈ servingBackends c m, b.window.isSome := by
      intro b hb
      obtain ⟨length, hlength, -⟩ := hall b hb
      rw [hlength]
      rfl
    have hfirst : b ∈ servingBackends c m := by rw [hbs]; exact .head _
    refine ⟨⟨⟨b, hfirst, hsome b hfirst⟩, n, hn, fun b hb length hlength ↦ ?_⟩, hsome⟩
    obtain ⟨length', hlength', hlt⟩ := hall b hb
    rwa [Option.some.inj (hlength.symm.trans hlength')]
  · rintro ⟨⟨⟨b, hb, -⟩, n, hn, hall⟩, hsome⟩
    refine ⟨List.ne_nil_of_mem hb, n, hn, fun b hb ↦ ?_⟩
    obtain ⟨length, hlength⟩ := Option.isSome_iff_exists.1 (hsome b hb)
    exact ⟨length, hlength, hall b hb length hlength⟩

end Rejections

section Truth

variable (lib : Primitives) (c : GatewayConfig) (plan : Plan) (now : Moment) (A : Answers Entry)

/-- An error names a limit only if that limit keeps every backend from serving the request. -/
def RouteError.TrueOf (error : RouteError) : Prop :=
  (error.code = py "context_length_exceeded" →
      ∃ m, c.modelByValue plan.model = some m ∧ ContextExceeded c m plan.demand) ∧
    (error.code = py "output_limit_exceeded" →
      ∃ m, c.modelByValue plan.model = some m ∧ OutputExceeded c m plan.demand)

/-- Rejections are truthful. -/
def Plan.Truthful : Prop :=
  ∀ error, plan.resolve lib c now A = .rejected error → error.TrueOf c plan

theorem trueOf_modelMissing (model : Json) : (modelMissing lib model).TrueOf c plan := by
  have hcode : (modelMissing lib model).code = py "model_not_found" := rfl
  rw [RouteError.TrueOf, hcode]
  exact ⟨fun h ↦ absurd h (by decide), fun h ↦ absurd h (by decide)⟩

variable {c plan} in
theorem trueOf_contextTooSmall_iff {m : ModelConfig} (hm : c.modelByValue plan.model = some m)
    {error : RouteError} (h : contextTooSmall c m plan.demand = some error) :
    error.TrueOf c plan ↔ ContextExceeded c m plan.demand := by
  have hcode : error.code = py "context_length_exceeded" := by
    obtain ⟨n, -, h⟩ := Option.bind_eq_some_iff.1 h
    dsimp only at h
    split at h
    · split_ifs at h
      rw [← Option.some.inj h]
    · cases h
  rw [RouteError.TrueOf, hcode, hm]
  refine ⟨fun h ↦ ?_, fun h ↦ ⟨fun _ ↦ ⟨m, rfl, h⟩, fun heq ↦ absurd heq (by decide)⟩⟩
  obtain ⟨m', hm', hexceeded⟩ := h.1 rfl
  rwa [Option.some.inj hm']

variable {c plan} in
theorem trueOf_limitExceeded_iff {m : ModelConfig} (hm : c.modelByValue plan.model = some m) (n : ℤ) :
    (limitExceeded lib c plan.model m n).TrueOf c plan ↔ OutputExceeded c m plan.demand := by
  have hcode : (limitExceeded lib c plan.model m n).code = py "output_limit_exceeded" := rfl
  rw [RouteError.TrueOf, hcode, hm]
  refine ⟨fun h ↦ ?_, fun h ↦ ⟨fun heq ↦ absurd heq (by decide), fun _ ↦ ⟨m, rfl, h⟩⟩⟩
  obtain ⟨m', hm', hexceeded⟩ := h.2 rfl
  rwa [Option.some.inj hm']

/-- **When rejections are truthful.** If nothing is selected although the model is there, then either the
windows that are known are all too small, and no backend has an unknown one; or no output limit is asked
for, or it is above the caps of all backends there are. -/
theorem truthful_iff : plan.Truthful lib c now A ↔
    ∀ m, c.modelByValue plan.model = some m → attrBool m.fields (py "enabled") = true →
      plan.selection c now A = some [] →
        (WindowsExceeded c m plan.demand → ∀ b ∈ servingBackends c m, b.window.isSome) ∧
          (¬ WindowsExceeded c m plan.demand → plan.demand.maxTokens.isSome →
            OutputExceeded c m plan.demand) := by
  have hmissing := trueOf_modelMissing lib c plan plan.model
  have hone : ∀ e : RouteError, (∀ error, Resolution.rejected e = .rejected error → error.TrueOf c plan) ↔
      e.TrueOf c plan := fun e ↦ ⟨fun h ↦ h e rfl, fun h error heq ↦ by cases heq; exact h⟩
  unfold Plan.Truthful Plan.resolve
  rcases hm : c.modelByValue plan.model with - | m
  · exact iff_of_true ((hone _).2 hmissing) nofun
  · simp only [Option.some.injEq, forall_eq']
    rcases henabled : attrBool m.fields (py "enabled") with - | -
    · exact iff_of_true ((hone _).2 hmissing) nofun
    · rw [forall_prop_of_true rfl]
      rcases plan.selection c now A with - | - | ⟨s, selected⟩
      · exact iff_of_true nofun nofun
      · have hwindows := contextTooSmall_isSome_iff c m plan.demand
        simp only [Bool.not_true, Bool.false_eq_true, if_false, forall_prop_of_true]
        rcases htoo : contextTooSmall c m plan.demand with - | error
        · have hnot : ¬ WindowsExceeded c m plan.demand := fun h ↦ by
            rw [← hwindows, htoo] at h
            cases h
          rcases plan.demand.maxTokens with - | n
          · exact iff_of_true ((hone _).2 hmissing) ⟨fun h ↦ absurd h hnot, fun _ h ↦ nomatch h⟩
          · rw [hone, trueOf_limitExceeded_iff lib hm]
            exact ⟨fun h ↦ ⟨fun h' ↦ absurd h' hnot, fun _ _ ↦ h⟩, fun h ↦ h.2 hnot rfl⟩
        · have hexceeded : WindowsExceeded c m plan.demand := hwindows.1 (by rw [htoo]; rfl)
          rw [hone, trueOf_contextTooSmall_iff hm htoo, contextExceeded_iff]
          exact ⟨fun h ↦ ⟨fun _ ↦ h.2, fun hnot ↦ absurd hexceeded hnot⟩,
            fun h ↦ ⟨hexceeded, h.1 hexceeded⟩⟩
      · exact iff_of_true nofun nofun

/-- The provider of the only backend is ignored, and the request is told of an output limit that no backend
has. -/
theorem not_truthful_ignored :
    ¬ Plan.Truthful plainPrimitives oneBackend
      { model := .str (py "m")
        prefs := { ProviderPrefs.none with ignore := [py "a"] }
        demand := ⟨some 10, none⟩
        cacheKey := none } quietMoment (.frozen fun _ ↦ true) := by
  intro h
  obtain ⟨m, hm, -, n, -, hall⟩ := (h _ rfl).2 (by decide +kernel)
  have hmodel : oneBackend.modelByValue (.str (py "m")) =
      some ⟨py "m", [plainBackend (py "a") 1], .empty, defaultFields modelClass.specs⟩ := rfl
  obtain rfl := Option.some.inj (hmodel.symm.trans hm)
  obtain ⟨cap, hcap, -⟩ := hall (plainBackend (py "a") 1) (by decide +kernel)
  exact absurd hcap (by rw [show ModelConfig.effectiveCap _ _ = none by decide +kernel]; nofun)

end Truth

end LocalGateway
