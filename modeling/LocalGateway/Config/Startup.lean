import LocalGateway.Config.Store

/-!
# Starting on any files

`load_config` of a process that starts tries `config.json` and then its backups. An exception that says that a
file is not valid makes it go on to the next one; `_parse` also raises one that says something else, on an
object whose `providers` cannot be iterated over, and so does `json.loads`, on text that is nested too deeply.
The loop does not catch these.

* `loadConfig`: the loop, on the bytes of the files; `loadConfig_eq_fromFiles` connects it with the store.
* `starts_iff`: when the gateway starts, with the first file that is valid.
-/

namespace LocalGateway

open Py Json

/-- What becomes of the bytes of a file in `json.loads(path.read_text())`. -/
inductive Decoded
  | value (v : Json)
  /-- A `UnicodeDecodeError` or a `JSONDecodeError`. -/
  | invalid
  /-- A `RecursionError`. -/
  | tooDeep

/-- What becomes of a file that is loaded: a configuration, an exception that makes `load_config` try the next
one, or an exception that it does not catch. -/
inductive Loaded
  | parsed (c : GatewayConfig)
  | skipped
  | raised

section Loading

variable (p : Pydantic) (loads : PyBytes → Decoded)

/-- `_parse(json.loads(path.read_text()))`. -/
def loadFile (content : PyBytes) : Loaded :=
  match loads content with
  | .invalid => .skipped
  | .tooDeep => .raised
  | .value v =>
    match parseConfig p v with
    | .ok c => .parsed c
    | .error .invalid => .skipped
    | .error .typeError => .raised

/-- The loop over the candidates; `none` if it raises. -/
def loadFirst : List PyBytes → Option (Option GatewayConfig)
  | [] => some none
  | content :: contents =>
    match loadFile p loads content with
    | .parsed c => some (some c)
    | .skipped => loadFirst contents
    | .raised => none

/-- The files that are there, `config.json` first. -/
def fileContents (main : Option PyBytes) (backups : ℕ → Option PyBytes) : List PyBytes :=
  main.toList ++ (List.range backupKeep).filterMap backups

/-- `load_config` of a process that starts; `none` if it raises. -/
def loadConfig (main : Option PyBytes) (backups : ℕ → Option PyBytes) : Option GatewayConfig :=
  (loadFirst p loads (fileContents main backups)).map (·.getD .empty)

/-! ### What it should return -/

/-- The configuration in a file, if it is one under the schema. -/
def parsedFile (content : PyBytes) : Option GatewayConfig :=
  match loadFile p loads content with
  | .parsed c => some c
  | _ => none

/-- The gateway starts, with the first file that is a configuration, or the empty one if there is none. -/
def Starts (main : Option PyBytes) (backups : ℕ → Option PyBytes) : Prop :=
  loadConfig p loads main backups = some (((fileContents main backups).findSome? (parsedFile p loads)).getD .empty)

/-- The text is nested too deeply, or it is an object with `providers` that are `null`, a boolean or a
number. -/
def Unforeseen (content : PyBytes) : Prop :=
  loads content = .tooDeep ∨
    ∃ d v, loads content = .value (.obj d) ∧ get? d (py "providers") = some v ∧ notIterable v = true

end Loading

section Startup

variable {p : Pydantic} {loads : PyBytes → Decoded}

/-- `_parse` raises a `TypeError` on objects whose `providers` cannot be iterated over, and on nothing else. -/
theorem parseConfig_typeError_iff {v : Json} :
    parseConfig p v = .error .typeError ↔
      ∃ d w, v = .obj d ∧ get? d (py "providers") = some w ∧ notIterable w = true := by
  constructor
  · intro h
    unfold parseConfig at h
    simp only at h
    split at h
    · next d =>
      split at h
      · split at h <;> cases h
      · split at h <;> cases h
      · next w _ hw =>
        split_ifs at h with hiter
        · exact ⟨d, w, rfl, hw, hiter⟩
        · split at h <;> cases h
    · split at h <;> cases h
  · rintro ⟨d, w, rfl, hw, hiter⟩
    have hraises : ∀ {w}, notIterable w = true → get? d (py "providers") = some w →
        parseConfig p (.obj d) = .error .typeError := fun {w} hiter hw ↦ by
      cases w <;> first
        | simp [parseConfig, hw, notIterable]; done
        | exact absurd hiter Bool.false_ne_true
    exact hraises hiter hw

theorem loadFile_raised_iff {content : PyBytes} : loadFile p loads content = .raised ↔ Unforeseen loads content := by
  unfold loadFile Unforeseen
  rcases hloads : loads content with v | - | -
  · have htype := parseConfig_typeError_iff (p := p) (v := v)
    simp only [reduceCtorEq, false_or, Decoded.value.injEq]
    rw [← htype]
    rcases parseConfig p v with (- | -) | c <;> simp
  · simp
  · simp

/-- If the loop returns, it is with the first file that is a configuration. -/
theorem eq_of_loadFirst {contents : List PyBytes} {c : Option GatewayConfig} (h : loadFirst p loads contents = some c) :
    c = contents.findSome? (parsedFile p loads) := by
  induction contents with
  | nil => exact (Option.some.inj h).symm
  | cons first rest ih =>
    rw [loadFirst] at h
    rw [List.findSome?_cons, parsedFile]
    rcases hload : loadFile p loads first with c | - | -
    · rw [hload] at h
      exact (Option.some.inj h).symm
    · rw [hload] at h
      exact ih h
    · rw [hload] at h
      cases h

/-- The loop returns, with the first file that is a configuration, exactly if no file before it makes it raise. -/
theorem loadFirst_eq_iff {contents : List PyBytes} :
    loadFirst p loads contents = some (contents.findSome? (parsedFile p loads)) ↔
      ∀ before content after, contents = before ++ content :: after →
        (∀ x ∈ before, parsedFile p loads x = none) → ¬ Unforeseen loads content := by
  induction contents with
  | nil => exact iff_of_true rfl fun before content after h ↦ by simp at h
  | cons first rest ih =>
    rw [loadFirst, List.findSome?_cons]
    -- the first file settles it, unless it is skipped
    have hfirst : ¬ Unforeseen loads first → parsedFile p loads first ≠ none →
        ∀ before content after, first :: rest = before ++ content :: after →
          (∀ x ∈ before, parsedFile p loads x = none) → ¬ Unforeseen loads content := by
      rintro hfine hparsed (- | ⟨x, before⟩) content after heq hbefore
      · obtain rfl := (List.cons.inj heq).1
        exact hfine
      · obtain rfl := (List.cons.inj heq).1
        exact absurd (hbefore first List.mem_cons_self) hparsed
    rcases hload : loadFile p loads first with c | - | -
    · have hparsed : parsedFile p loads first = some c := by rw [parsedFile, hload]
      refine iff_of_true (by rw [hparsed]) (hfirst ?_ (by rw [hparsed]; nofun))
      rw [← loadFile_raised_iff (p := p), hload]
      nofun
    · have hparsed : parsedFile p loads first = none := by rw [parsedFile, hload]
      rw [hparsed]
      refine ih.trans ⟨?_, fun h before content after heq hbefore ↦ ?_⟩
      · rintro h (- | ⟨x, before⟩) content after heq hbefore
        · obtain rfl := (List.cons.inj heq).1
          rw [← loadFile_raised_iff (p := p), hload]
          nofun
        · exact h before content after (List.cons.inj heq).2 fun y hy ↦ hbefore y (List.mem_cons_of_mem x hy)
      · refine h (first :: before) content after (by rw [heq]; rfl) ?_
        exact List.forall_mem_cons.2 ⟨hparsed, hbefore⟩
    · exact iff_of_false nofun fun h ↦ h [] first rest rfl nofun (loadFile_raised_iff.1 hload)

/-- **When the gateway starts**: if no file that is tried before the first configuration is one that `load_config`
does not foresee. -/
theorem starts_iff (p : Pydantic) (loads : PyBytes → Decoded) (main : Option PyBytes)
    (backups : ℕ → Option PyBytes) :
    Starts p loads main backups ↔
      ∀ before content after, fileContents main backups = before ++ content :: after →
        (∀ x ∈ before, parsedFile p loads x = none) → ¬ Unforeseen loads content := by
  rw [← loadFirst_eq_iff, Starts, loadConfig]
  constructor
  · intro h
    obtain ⟨c, hc, -⟩ := Option.map_eq_some_iff.1 h
    rw [hc, eq_of_loadFirst hc]
  · intro h
    rw [h]
    rfl

/-! ### The store -/

/-- What the file is to the store. -/
def Decoded.file : Decoded → File
  | .value v => .json v
  | _ => .garbage

/-- Where no file is nested too deeply, this is what the store loads. -/
theorem loadConfig_eq_fromFiles {main : Option PyBytes} {backups : ℕ → Option PyBytes}
    (h : ∀ content ∈ fileContents main backups, loads content ≠ .tooDeep) :
    loadConfig p loads main backups =
      (Store.start (main.map fun b ↦ (loads b).file) fun slot ↦
        (backups slot).map fun b ↦ (loads b).file).current p := by
  have hloop : ∀ {contents : List PyBytes}, (∀ content ∈ contents, loads content ≠ .tooDeep) →
      loadFirst p loads contents = (firstValid p (contents.map fun b ↦ (loads b).file)).toOption := by
    intro contents hcontents
    induction contents with
    | nil => rfl
    | cons first rest ih =>
      obtain ⟨hfirst, hrest⟩ := List.forall_mem_cons.1 hcontents
      rw [loadFirst, loadFile, List.map_cons, firstValid]
      rcases hloads : loads first with v | - | -
      · -- what the schema rejects is passed over, and the first that parses or raises is the end
        simp only [Decoded.file, File.read]
        rcases parseConfig p v with (- | -) | c
        · exact ih hrest
        · rfl
        · rfl
      · exact ih hrest
      · exact absurd hloads hfirst
  have hcandidates : (Store.start (main.map fun b ↦ (loads b).file) fun slot ↦
      (backups slot).map fun b ↦ (loads b).file).candidates =
        (fileContents main backups).map fun b ↦ (loads b).file := by
    rw [Store.candidates, Store.start, fileContents, List.map_append, List.map_filterMap, Option.toList_map]
  show _ = Store.fromFiles p _
  rw [loadConfig, hloop h, Store.fromFiles, hcandidates]
  rcases firstValid p _ with e | c
  · rfl
  · rfl

end Startup

/-- An object whose providers are `null`. -/
def nullProviders : PyBytes :=
  pyb "\x7b\"providers\": null\x7d"

/-- A configuration in which nothing is set. -/
def nothingSet : PyBytes :=
  pyb "\x7b\x7d"

/-- What `json.loads` makes of these two. -/
def loadsSample (content : PyBytes) : Decoded :=
  if content = nullProviders then .value (.obj [(py "providers", .null)])
  else if content = nothingSet then .value (.obj [])
  else .invalid

/-- **A gateway that does not start**, though its newest backup is valid. -/
theorem not_starts_nullProviders :
    parsedFile .strict loadsSample nothingSet = some .empty ∧
      ¬ Starts .strict loadsSample (some nullProviders) (Function.update (fun _ ↦ none) 0 (some nothingSet)) := by
  refine ⟨rfl, fun h ↦ ?_⟩
  have hraises : loadConfig .strict loadsSample (some nullProviders)
      (Function.update (fun _ ↦ none) 0 (some nothingSet)) = none := rfl
  rw [Starts, hraises] at h
  cases h

end LocalGateway
