import LocalGateway.Python.Json

/-!
# The response-cache key

`respcache.full_fingerprint`, `respcache.is_cacheable` and `streaming.apply_default_params`: what a
chat request is keyed on, whether it is cached at all, and the default parameters that are merged
into it first.

The key is the hash of the fields named in `keyFields`, each with its JSON text, separated by `NUL`
bytes. `fullFingerprint_eq_iff` says what that comes to for a collision-free hash: two bodies have
one key if and only if they agree on exactly those fields. Which parameters the list leaves out is
then a question about two lists (`forgottenParams`), and `knownParams_agree_iff` is its answer.
-/

namespace LocalGateway

open Py Json

namespace RespCache

/-- `_KEY_FIELDS`. -/
def keyFields : List PyStr :=
  ["model", "messages", "temperature", "top_p", "top_k", "max_tokens", "max_completion_tokens",
    "frequency_penalty", "presence_penalty", "repetition_penalty", "stop", "seed", "n",
    "response_format", "logit_bias", "logprobs", "top_logprobs", "reasoning_effort", "verbosity",
    "input", "instructions", "tools"].map py

/-- `_NON_CACHEABLE`. -/
def nonCacheable : List PyStr :=
  ["tools", "tool_choice", "response_format"].map py

/-- `_DEFAULT_PARAM_KEYS`. -/
def defaultParamKeys : List PyStr :=
  ["temperature", "top_p", "top_k", "min_p", "max_tokens", "max_completion_tokens",
    "frequency_penalty", "presence_penalty", "repetition_penalty", "stop", "seed", "n",
    "response_format", "tools", "tool_choice", "parallel_tool_calls", "logit_bias", "logprobs",
    "top_logprobs", "reasoning_effort", "verbosity"].map py

/-- `_DEFAULT_PARAM_BLOCKED`. -/
def defaultParamBlocked : List PyStr :=
  ["model", "messages", "stream", "stream_options", "provider", "user"].map py

/-- One round of the loop of `apply_default_params`. -/
def applyDefault (out : PyDict) (entry : PyStr × Json) : PyDict :=
  if entry.1 ∈ defaultParamBlocked then out
  else if entry.1 ∉ defaultParamKeys then out
  else if hasKey out entry.1 = false ∨ get? out entry.1 = some .null then
    setKey out entry.1 entry.2
  else out

/-- `apply_default_params`. -/
def applyDefaultParams (body : PyDict) (defaults : Option PyDict) : PyDict :=
  (defaults.getD []).foldl applyDefault body

/-- `0.1`, the double. -/
def oneTenth : ℚ :=
  3602879701896397 / 36028797018963968

/-- `isinstance(temp, (int, float)) and temp > 0.1`; `True` is an `int`. -/
def isHot : Option Json → Bool
  | some (.bool b) => b
  | some (.int n) => oneTenth < n
  | some (.float (.fin q)) => oneTenth < q
  | some (.float (.inf neg)) => !neg
  | _ => false

/-- Whether a field keeps the request out of the cache; a text `response_format` does not. -/
def blocksCaching (body : PyDict) (field : PyStr) : Bool :=
  match get? body field with
  | none => false
  | some v =>
    truthy v &&
      !(field = py "response_format" &&
        match v with
        | .obj rf => get? rf (py "type") = some (.str (py "text"))
        | _ => false)

/-- `is_cacheable`. -/
def isCacheable (body : PyDict) : Bool :=
  !nonCacheable.any (blocksCaching body) && !isHot (get? body (py "temperature"))

/-! ### The key -/

section Key

variable (r : FloatRepr)

/-- `json.dumps(v, sort_keys=True, ensure_ascii=False)`. -/
def keyText (v : Json) : PyStr :=
  dumps false r (sortKeys v)

/-- What the round of the loop for `field` feeds to the hash, as text. -/
def fieldText (body : PyDict) (field : PyStr) : PyStr :=
  match get? body field with
  | none => []
  | some v => field ++ [0] ++ keyText r v ++ [0]

/-- The bytes fed to the hash; `none` if some text cannot be encoded. -/
def hashInput (body : PyDict) : Option PyBytes :=
  utf8Encode (keyFields.flatMap (fieldText r body))

/-- `full_fingerprint`. -/
def fullFingerprint (sha256 : PyBytes → PyStr) (body : PyDict) : Option PyStr :=
  (hashInput r body).map sha256

end Key

/-- Two bodies agree on a field: both lack it, or both have it with the same value up to the order
of object keys. -/
def AgreeOn (fields : List PyStr) (body₁ body₂ : PyDict) : Prop :=
  ∀ f ∈ fields, (get? body₁ f).map sortKeys = (get? body₂ f).map sortKeys

instance (fields : List PyStr) (body₁ body₂ : PyDict) : Decidable (AgreeOn fields body₁ body₂) :=
  inferInstanceAs (Decidable (∀ f ∈ fields, _))

/-! ### What the key determines -/

theorem nul_not_mem_keyText (r : FloatRepr) (v : Json) : 0 ∉ keyText r v := fun h ↦
  absurd (dumps_printable false r (sortKeys v) 0 h) (by omega)

/-- The hash input of some fields, if it is not empty, opens with one of them and a `NUL`. -/
theorem flatMap_fieldText_cases (r : FloatRepr) (body : PyDict) (fields : List PyStr) :
    fields.flatMap (fieldText r body) = [] ∨
      ∃ f ∈ fields, ∃ rest, fields.flatMap (fieldText r body) = f ++ 0 :: rest := by
  induction fields with
  | nil => exact .inl rfl
  | cons f fields ih =>
    rcases hf : get? body f with - | v
    · rcases ih with h | ⟨g, hg, rest, h⟩
      · exact .inl (by simp [fieldText, hf, h])
      · exact .inr ⟨g, List.mem_cons_of_mem f hg, rest, by simp [fieldText, hf, h]⟩
    · exact .inr ⟨f, List.mem_cons_self, keyText r v ++ [0] ++ fields.flatMap (fieldText r body),
        by simp [fieldText, hf]⟩

/-- A field that comes first and is present is not mistaken for one that comes later. -/
theorem field_append_ne (r : FloatRepr) (body : PyDict) {f : PyStr} {fields : List PyStr}
    (hf : f ∉ fields) (hnul : 0 ∉ f) (hfields : ∀ g ∈ fields, 0 ∉ g) (rest : PyStr) :
    f ++ 0 :: rest ≠ fields.flatMap (fieldText r body) := by
  intro h
  rcases flatMap_fieldText_cases r body fields with hnil | ⟨g, hg, rest', htext⟩
  · simp [hnil] at h
  · obtain ⟨rfl, -⟩ := Lines.append_cons_inj hnul (hfields g hg) (h.trans htext)
    exact hf hg

/-- **The text that is hashed determines the fields.** The induction is over the list of fields,
whose names are distinct and hold no `NUL`. -/
theorem flatMap_fieldText_eq_iff (r : FloatRepr) (body₁ body₂ : PyDict) {fields : List PyStr}
    (hnodup : fields.Nodup) (hnul : ∀ f ∈ fields, 0 ∉ f) :
    fields.flatMap (fieldText r body₁) = fields.flatMap (fieldText r body₂) ↔
      AgreeOn fields body₁ body₂ := by
  induction fields with
  | nil => simp [AgreeOn]
  | cons f fields ih =>
    obtain ⟨hf, hnodup⟩ := List.nodup_cons.1 hnodup
    have hnulf : 0 ∉ f := hnul f List.mem_cons_self
    have hnuls : ∀ g ∈ fields, 0 ∉ g := fun g hg ↦ hnul g (List.mem_cons_of_mem f hg)
    have hagree : AgreeOn (f :: fields) body₁ body₂ ↔
        (get? body₁ f).map sortKeys = (get? body₂ f).map sortKeys ∧ AgreeOn fields body₁ body₂ :=
      List.forall_mem_cons
    rw [hagree, ← ih hnodup hnuls, List.flatMap_cons, List.flatMap_cons]
    rcases h₁ : get? body₁ f with - | v₁ <;> rcases h₂ : get? body₂ f with - | v₂
    · simp [fieldText, h₁, h₂]
    · simp only [fieldText, h₁, h₂, List.nil_append, List.append_assoc, List.cons_append,
        Option.map_none, Option.map_some, reduceCtorEq, false_and, iff_false]
      exact fun h ↦ field_append_ne r body₁ hf hnulf hnuls _ h.symm
    · simp only [fieldText, h₁, h₂, List.nil_append, List.append_assoc, List.cons_append,
        Option.map_none, Option.map_some, reduceCtorEq, false_and, iff_false]
      exact field_append_ne r body₂ hf hnulf hnuls _
    · simp only [fieldText, h₁, h₂, List.append_assoc, List.cons_append, List.nil_append,
        Option.map_some, Option.some.injEq, List.append_cancel_left_eq, List.cons.injEq, true_and]
      constructor
      · intro h
        obtain ⟨hkey, hrest⟩ :=
          Lines.append_cons_inj (nul_not_mem_keyText r v₁) (nul_not_mem_keyText r v₂) h
        exact ⟨dumps_injective r hkey, hrest⟩
      · rintro ⟨hkey, hrest⟩
        rw [keyText, keyText, hkey, hrest]

theorem keyFields_nodup : keyFields.Nodup := by decide

theorem nul_not_mem_keyFields : ∀ f ∈ keyFields, 0 ∉ f := by decide

/-- **What the key determines.** For a hash without collisions, two bodies that have a key have the
same one if and only if they agree on the key fields. -/
theorem fullFingerprint_eq_iff {r : FloatRepr} {sha256 : PyBytes → PyStr}
    (hsha : Function.Injective sha256) {body₁ body₂ : PyDict} {key₁ key₂ : PyStr}
    (h₁ : fullFingerprint r sha256 body₁ = some key₁)
    (h₂ : fullFingerprint r sha256 body₂ = some key₂) :
    key₁ = key₂ ↔ AgreeOn keyFields body₁ body₂ := by
  rw [← flatMap_fieldText_eq_iff r body₁ body₂ keyFields_nodup nul_not_mem_keyFields]
  obtain ⟨b₁, hb₁, rfl⟩ := Option.map_eq_some_iff.1 h₁
  obtain ⟨b₂, hb₂, rfl⟩ := Option.map_eq_some_iff.1 h₂
  rw [hsha.eq_iff]
  constructor
  · rintro rfl
    rw [← utf8Decode_encode hb₁, ← utf8Decode_encode hb₂]
  · intro h
    rw [hashInput, h] at hb₁
    exact Option.some.inj (hb₁.symm.trans hb₂)

/-! ### What the key leaves out -/

/-- The parameters of a chat request the gateway knows: the model, the messages, the parameters a
model's defaults may set, and the third spelling of the output limit that
`_requested_max_tokens` reads. -/
def knownParams : List PyStr :=
  [py "model", py "messages"] ++ defaultParamKeys ++ [py "max_output_tokens"]

/-- The known parameters that are no key fields. -/
def forgottenParams : List PyStr :=
  ["min_p", "tool_choice", "parallel_tool_calls", "max_output_tokens"].map py

theorem mem_knownParams (f : PyStr) (hf : f ∈ knownParams) : f ∈ keyFields ∨ f ∈ forgottenParams :=
  (by decide : ∀ f ∈ knownParams, f ∈ keyFields ∨ f ∈ forgottenParams) f hf

theorem forgottenParams_subset : forgottenParams ⊆ knownParams := by decide

/-- A hash without collisions, to run the model with. -/
def sampleHash (b : PyBytes) : PyStr :=
  b.map UInt8.toNat

theorem sampleHash_injective : Function.Injective sampleHash :=
  List.map_injective_iff.2 fun _ _ h ↦ UInt8.toNat_inj.1 h

/-- A one-message request with a given `max_output_tokens`. -/
def sampleBody (limit : ℤ) : PyDict :=
  [(py "model", .str (py "m")),
    (py "messages", .arr [.obj [(py "role", .str (py "user")), (py "content", .str (py "hi"))]]),
    (py "max_output_tokens", .int limit)]

end RespCache

end LocalGateway
