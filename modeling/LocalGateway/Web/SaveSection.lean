import LocalGateway.Config.Answers
import LocalGateway.Config.Version

/-!
# Saving a section

`saveConfigSection` of `shared.js` is how a page changes the configuration: it asks for all of it, changes its own copy,
has the copy checked, and sends it back whole. If the configuration has changed since, it starts again, a few times.
Several pages do so at once, and other requests change the configuration in between.

* `World.next`: the gateway and the saves that pages have begun, request by request. A request may be lost, or its
  answer.
* `Copied`: what a save holds is what it has made of a configuration that was current.
* `saves_exec`: a save that is accepted is as good as one that is made at a single moment, and what a page is told is
  what has happened. No save is accepted that has been checked and sends a provider with a key back as it was shown.

A page changes its copy in ways of its own (`Mutate`), of which it matters only that the version stays.
-/

namespace LocalGateway

open Py Json Runs

/-! ### What `fetchJSON` makes of an answer -/

/-- `r.status`. -/
def AdminAnswer.status : AdminAnswer → ℕ
  | .json status _ => status
  | .text _ => 200
  | .raised => 500

/-- `r.ok`. -/
def AdminAnswer.ok (a : AdminAnswer) : Bool :=
  200 ≤ a.status && a.status < 300

/-- `data`. -/
def AdminAnswer.data : AdminAnswer → Json
  | .json _ content => content
  | .text _ | .raised => .null

namespace SaveSection

/-! ### A save -/

/-- `mutate`, from the text that came to the text that goes back; it may throw. -/
structure Mutate where
  run : Json → Option Json
  keeps : ∀ d body, run (.obj d) = some body → ∃ d', body = .obj d' ∧ get? d' (py "version") = get? d (py "version")

/-- What `saveConfigSection` returns, or that it throws. -/
inductive Result
  | answer (ok : Bool) (status : ℕ)
  | threw
deriving DecidableEq

/-- Where the loop is, in an attempt: `_before` and `data`, and whether the check was answered. -/
inductive Phase
  | load
  | validate (before body : Json)
  | review (before body : Json) (issues : List Json)
  | put (before body : Json) (checked : Bool)
  | done (r : Result)
deriving DecidableEq

/-- A call of `saveConfigSection`, with the statuses of the PUTs that the gateway has answered. -/
structure Save where
  mutate : Mutate
  maxRetries : ℕ
  attempt : ℕ
  phase : Phase
  puts : List ℕ

/-- What becomes of a request: it may be refused on its way, or be lost, or its answer. -/
inductive Fate
  | answered
  | refused (status : ℕ) (failed : 300 ≤ status ∧ status ≠ 409)
  | lost
  | unanswered
deriving DecidableEq

/-- The gateway has got the request. -/
def Fate.arrives : Fate → Bool
  | .answered | .unanswered => true
  | .refused _ _ | .lost => false

/-- The issues in the answer to a check; an error has none. -/
def issuesOf (res : AdminAnswer) : List Json :=
  if res.ok then listAt res.data (py "issues") else []

/-- `i.severity === 'error'`. -/
def isError (issue : Json) : Bool :=
  field issue (py "severity") = some (.str (py "error"))

namespace Save

variable (p : Pydantic) (t : Surroundings) (s : Store) (fate : Fate) (v : Save)

/-- The call returns. -/
def finish (r : Result) : Save :=
  { v with phase := .done r }

/-- The gateway has answered the PUT. -/
def told (status : ℕ) (ok : Bool) : Save :=
  if status = 409 then
    if v.attempt < v.maxRetries then { v with attempt := v.attempt + 1, phase := .load }
    else v.finish (.answer false 409)
  else v.finish (.answer ok status)

/-- The next request of a save, at a gateway with the store. -/
def fetch : Save :=
  match v.phase with
  | .load =>
    match fate with
    | .answered =>
      let res := s.answer p t .getConfig
      if res.ok then
        match v.mutate.run res.data with
        | some body => { v with phase := .validate res.data body }
        | none => v.finish (.answer false 0)
      else v.finish (.answer false res.status)
    | .refused status _ => v.finish (.answer false status)
    | .lost | .unanswered => v.finish (.answer false 0)
  | .validate before body =>
    match fate with
    | .answered =>
      let issues := issuesOf (s.answer p t (.validate body))
      { v with phase := if issues = [] then .put before body true else .review before body issues }
    -- without an answer the save goes on
    | .refused _ _ | .lost | .unanswered => { v with phase := .put before body false }
  | .put _ body _ =>
    let res := s.answer p t (.edit (.putConfig body))
    match fate with
    | .answered => told { v with puts := v.puts ++ [res.status] } res.status res.ok
    | .refused status _ => v.finish (.answer false status)
    | .lost => v.finish .threw
    | .unanswered => finish { v with puts := v.puts ++ [res.status] } .threw
  | .review _ _ _ | .done _ => v

/-- A button of the dialog: there is none to save with if one of the issues is an error. -/
def choose (proceed : Bool) : Save :=
  match v.phase with
  | .review before body issues =>
    if proceed then
      if issues.any isError then v else { v with phase := .put before body true }
    else v.finish (.answer false 0)
  | _ => v

/-- What the request does at the gateway, once it is there. -/
def serve : Store :=
  match v.phase with
  | .load => s.load p
  | .put _ body _ => (s.edit p (.putConfig body)).1
  | _ => s

/-- The operation that it comes to: one that asks for the configuration loads it, and no more. -/
def op? : Option Op :=
  match v.phase with
  | .load => some (.edit (.setProviderApiKey .null))
  | .put _ body _ => some (.edit (.putConfig body))
  | _ => none

end Save

/-! ### The gateway and its pages -/

/-- The store, the saves that pages have begun, and the operations of the gateway so far. -/
structure World where
  store : Store
  saves : List Save
  ops : List Op

/-- What happens next: another request, a page that begins to save, and a request or a choice of one that saves. -/
inductive Step
  | other (op : Op)
  | call (mutate : Mutate) (maxRetries : ℕ)
  | fetch (j : ℕ) (fate : Fate)
  | choose (j : ℕ) (proceed : Bool)

namespace World

variable (p : Pydantic) (t : Surroundings) (w : World)

/-- A gateway before a page saves. -/
def start (s : Store) : World :=
  ⟨s, [], []⟩

/-- The operation that a step comes to. -/
def op? : Step → Option Op
  | .other op => some op
  | .fetch j fate => if fate.arrives then w.saves[j]?.bind Save.op? else none
  | .call _ _ | .choose _ _ => none

/-- The step. -/
def next (step : Step) : World where
  store :=
    match step with
    | .other op => w.store.next p op
    | .fetch j fate => if fate.arrives then w.saves[j]?.elim w.store (Save.serve p w.store) else w.store
    | .call _ _ | .choose _ _ => w.store
  saves :=
    match step with
    | .other _ => w.saves
    | .call mutate maxRetries => w.saves ++ [⟨mutate, maxRetries, 0, .load, []⟩]
    | .fetch j fate => w.saves.modify j (Save.fetch p t w.store fate)
    | .choose j proceed => w.saves.modify j (Save.choose · proceed)
  ops := w.ops ++ (w.op? step).toList

end World

/-! ### The answers of the gateway -/

section Answers

variable {p : Pydantic} {t : Surroundings} {s : Store} {c : GatewayConfig} {d : PyDict} {n : ℤ}

theorem answer_getConfig (hc : s.current p = some c) : s.answer p t .getConfig = .json 200 (getConfig c) := by
  simp only [Store.answer, hc]

theorem answer_getConfig_none (hc : s.current p = none) : s.answer p t .getConfig = .raised := by
  simp only [Store.answer, hc]

theorem versionEq_int (m n : ℤ) : versionEq m (.int n) = true ↔ n = m := by
  show decide (some (n : ℚ) = some (m : ℚ)) = true ↔ n = m
  rw [decide_eq_true_iff, Option.some_inj, Int.cast_inj]

/-- A PUT with another version than the current one is a conflict. -/
theorem putConfig_conflict (hn : get? d (py "version") = some (.int n)) (hne : n ≠ c.version) :
    (putConfig p c (.obj d)).verdict = .reject 409 (py "config changed since load (conflict)") := by
  have hversion : versionEq c.version (.int n) = false := Bool.eq_false_iff.2 fun h ↦ hne ((versionEq_int _ _).1 h)
  have hnull : Json.int n ≠ .null := Json.noConfusion
  simp only [putConfig, hn, Option.getD_some]
  rw [if_pos ⟨hnull, hversion⟩]

/-- A PUT is rejected for its version, or for something else with another status. -/
theorem putConfig_reject {body : Json} {status : ℕ} {message : PyStr}
    (h : (putConfig p c body).verdict = .reject status message) :
    status = 422 ∨ status = 409 ∧ ∃ v, field body (py "version") = some v ∧ versionEq c.version v = false := by
  unfold putConfig at h
  dsimp only at h
  split_ifs at h with hconflict
  · refine .inr ⟨(Verdict.reject.inj h).1.symm, ?_⟩
    cases body with
    | obj d =>
      cases hv : get? d (py "version") with
      | none =>
        simp only [hv, Option.getD_none] at hconflict
        exact absurd rfl hconflict.1
      | some v =>
        simp only [hv, Option.getD_some] at hconflict
        exact ⟨v, hv, hconflict.2⟩
    | _ => exact absurd rfl hconflict.1
  · refine .inl ?_
    split at h
    · exact (Verdict.reject.inj h).1.symm
    · split at h
      · exact (Verdict.reject.inj h).1.symm
      · split at h
        · exact (Verdict.reject.inj h).1.symm
        · cases h

/-- The answers to a PUT. -/
theorem putAnswer_cases (p : Pydantic) (t : Surroundings) (s : Store) (body : Json) :
    let res := s.answer p t (.edit (.putConfig body))
    (∃ c c', s.current p = some c ∧ (putConfig p c body).verdict = .saveNew c' ∧
        (s.edit p (.putConfig body)).2 = true ∧ res.status = 200) ∨
      (∃ c message, s.current p = some c ∧ ((putConfig p c body).verdict = .reject 409 message ∧ res.status = 409 ∨
        (putConfig p c body).verdict = .reject 422 message ∧ res.status = 422)) ∨ res.status = 500 := by
  intro res
  cases hc : s.current p with
  | none => exact .inr (.inr (by simp only [res, Store.answer, hc, AdminAnswer.status]))
  | some c =>
    have hres : res = (Edit.putConfig body).answer t c (putConfig p c body) (s.edit p (.putConfig body)).2 := by
      simp only [res, Store.answer, hc]
      rfl
    cases hverdict : (putConfig p c body).verdict with
    | save => exact absurd hverdict (putConfig_ne_save c body)
    | crash =>
      refine .inr (.inr ?_)
      rw [hres]
      simp only [Edit.answer, hverdict, AdminAnswer.status]
    | reject status message =>
      refine .inr (.inl ⟨c, message, rfl, ?_⟩)
      rw [hres]
      rcases putConfig_reject hverdict with rfl | ⟨rfl, -⟩
      · refine .inr ⟨hverdict, ?_⟩
        simp only [Edit.answer, hverdict]
        rfl
      · refine .inl ⟨hverdict, ?_⟩
        simp only [Edit.answer, hverdict]
        rfl
    | saveNew c' =>
      cases hsaved : (s.edit p (.putConfig body)).2 with
      | true =>
        refine .inl ⟨c, c', rfl, hverdict, rfl, ?_⟩
        rw [hres]
        simp only [Edit.answer, hverdict, hsaved, if_true, AdminAnswer.status]
      | false =>
        refine .inr (.inr ?_)
        rw [hres]
        simp only [Edit.answer, hverdict, hsaved, Bool.false_eq_true, if_false, AdminAnswer.status]

/-- The page takes a PUT for saved if it has been. -/
theorem putAnswer_ok (p : Pydantic) (t : Surroundings) (s : Store) (body : Json) :
    (s.answer p t (.edit (.putConfig body))).ok = true ↔ (s.answer p t (.edit (.putConfig body))).status = 200 := by
  unfold AdminAnswer.ok
  rcases putAnswer_cases p t s body with ⟨-, -, -, -, -, h⟩ | ⟨-, -, -, ⟨-, h⟩ | ⟨-, h⟩⟩ | h
  all_goals
    rw [h]
    decide

end Answers

/-! ### What holds of a save -/

/-- A page has made the body of what it was shown of a configuration that was current. -/
def Copied (p : Pydantic) (s₀ : Store) (ops : List Op) (mutate : Mutate) (before body : Json) : Prop :=
  ∃ c, WasCurrent p s₀ ops c ∧ before = getConfig c ∧ mutate.run before = some body

/-- What `validate_config` finds in a body, if it is valid, is no error. -/
def Passed (p : Pydantic) (body : Json) : Prop :=
  ∀ cfg, validateGateway p body = some cfg → Valid cfg

theorem issuesOf_validate {p : Pydantic} {t : Surroundings} {s : Store} {body : Json} {cfg : GatewayConfig}
    (h : validateGateway p body = some cfg) :
    issuesOf (s.answer p t (.validate body)) = (validateConfig cfg).map Issue.dump := by
  simp only [Store.answer, h]
  rfl

theorem isError_dump (i : Issue) : isError i.dump = true ↔ i.severity = .error := by
  obtain ⟨severity, code, path, message⟩ := i
  cases severity with
  | error => exact iff_of_true rfl rfl
  | warning => exact iff_of_false Bool.false_ne_true Severity.noConfusion

/-- Nothing that was found is an error. -/
theorem passed_of_issues {p : Pydantic} {t : Surroundings} {s : Store} {body : Json}
    (h : (issuesOf (s.answer p t (.validate body))).any isError = false) : Passed p body := by
  intro cfg hcfg i hi herror
  rw [issuesOf_validate hcfg, List.any_eq_false] at h
  exact h i.dump (List.mem_map_of_mem hi) ((isError_dump i).2 herror)

namespace Save

/-- What a save has in its hands. -/
def Holds (p : Pydantic) (s₀ : Store) (ops : List Op) (v : Save) : Prop :=
  match v.phase with
  | .validate before body => Copied p s₀ ops v.mutate before body
  | .review before body issues => Copied p s₀ ops v.mutate before body ∧ (issues.any isError = false → Passed p body)
  | .put before body checked => Copied p s₀ ops v.mutate before body ∧ (checked = true → Passed p body)
  | .load | .done _ => True

/-- What the answers to the PUTs of a save have been. -/
def Told (v : Save) : Prop :=
  match v.phase with
  | .done (.answer true status) => status = 200 ∧ ∃ k ≤ v.maxRetries, v.puts = List.replicate k 409 ++ [200]
  | .done (.answer false status) => 200 ∉ v.puts ∧ (status = 409 → v.puts = List.replicate (v.maxRetries + 1) 409)
  | .done .threw => ∃ k ≤ v.maxRetries, ∃ last : Option ℕ, v.puts = List.replicate k 409 ++ last.toList
  | _ => v.attempt ≤ v.maxRetries ∧ v.puts = List.replicate v.attempt 409

theorem not_mem_conflicts (k : ℕ) : 200 ∉ List.replicate k 409 :=
  fun h ↦ absurd (List.eq_of_mem_replicate h) (by decide)

variable {p : Pydantic} {t : Surroundings} {s : Store} {fate : Fate} {v : Save}

/-- A save that is given up before its PUT. -/
theorem told_finish {status : ℕ} (h : v.puts = List.replicate v.attempt 409) (hne : status ≠ 409) :
    (v.finish (.answer false status)).Told :=
  ⟨h ▸ not_mem_conflicts _, fun heq ↦ absurd heq hne⟩

/-- A save that has met nothing but conflicts is told an answer. -/
theorem told_told {status : ℕ} {ok : Bool} (hok : ok = true ↔ status = 200) (hle : v.attempt ≤ v.maxRetries)
    (hputs : v.puts = List.replicate v.attempt 409 ++ [status]) : (v.told status ok).Told := by
  unfold told
  split_ifs with hconflict hretry
  · refine ⟨hretry, ?_⟩
    rw [hputs, hconflict, ← List.replicate_succ']
  · have hlast : v.attempt = v.maxRetries := le_antisymm hle (not_lt.1 hretry)
    have hall : v.puts = List.replicate (v.maxRetries + 1) 409 := by
      rw [hputs, hconflict, ← List.replicate_succ', hlast]
    exact ⟨hall ▸ not_mem_conflicts _, fun _ ↦ hall⟩
  · cases ok with
    | true => exact ⟨hok.1 rfl, v.attempt, hle, hok.1 rfl ▸ hputs⟩
    | false =>
      refine ⟨fun hmem ↦ ?_, fun h ↦ absurd h hconflict⟩
      rw [show (v.finish (.answer false status)).puts = _ from hputs, List.mem_append, List.mem_singleton] at hmem
      rcases hmem with hmem | hmem
      · exact not_mem_conflicts _ hmem
      · exact Bool.false_ne_true (hok.2 hmem.symm)

theorem told_fetch (h : v.Told) : (fetch p t s fate v).Told := by
  obtain ⟨mutate, maxRetries, attempt, phase, puts⟩ := v
  rcases phase with - | ⟨before, body⟩ | ⟨before, body, issues⟩ | ⟨before, body, checked⟩ | r
  case load =>
    cases fate with
    | answered =>
      unfold fetch
      cases hc : s.current p with
      | none =>
        simp only [answer_getConfig_none hc]
        exact told_finish h.2 (show 500 ≠ 409 by decide)
      | some c =>
        have hok : (AdminAnswer.json 200 (getConfig c)).ok = true := rfl
        simp only [answer_getConfig hc, hok, if_true, AdminAnswer.data]
        rcases mutate.run (getConfig c) with - | body
        · exact told_finish h.2 (by decide)
        · exact h
    | refused status failed => exact told_finish h.2 failed.2
    | lost => exact told_finish h.2 (by decide)
    | unanswered => exact told_finish h.2 (by decide)
  case validate =>
    cases fate with
    | answered =>
      unfold fetch
      dsimp only
      split_ifs
      · exact h
      · exact h
    | _ => exact h
  case put =>
    cases fate with
    | answered => exact told_told (putAnswer_ok p t s body) h.1 (congrArg (· ++ [_]) h.2)
    | refused status failed => exact told_finish h.2 failed.2
    | lost => exact ⟨attempt, h.1, none, h.2.trans (List.append_nil _).symm⟩
    | unanswered => exact ⟨attempt, h.1, some _, congrArg (· ++ [_]) h.2⟩
  all_goals exact h

theorem told_choose (h : v.Told) (proceed : Bool) : (v.choose proceed).Told := by
  obtain ⟨mutate, maxRetries, attempt, phase, puts⟩ := v
  rcases phase with - | ⟨before, body⟩ | ⟨before, body, issues⟩ | ⟨before, body, checked⟩ | r
  case review =>
    unfold choose
    dsimp only
    split_ifs
    · exact h
    · exact h
    · exact told_finish h.2 (by decide)
  all_goals exact h

end Save

/-! ### Runs -/

section Run

variable {p : Pydantic} {t : Surroundings} {s₀ : Store} {ops : List Op}

theorem wasCurrent_append {c : GatewayConfig} (h : WasCurrent p s₀ ops c) (more : List Op) :
    WasCurrent p s₀ (ops ++ more) c := by
  obtain ⟨before, hbefore, hc⟩ := h
  exact ⟨before, hbefore.trans (List.prefix_append ops more), hc⟩

theorem Copied.append {mutate : Mutate} {before body : Json} (h : Copied p s₀ ops mutate before body) (more : List Op) :
    Copied p s₀ (ops ++ more) mutate before body := by
  obtain ⟨c, hc, hbefore⟩ := h
  exact ⟨c, wasCurrent_append hc more, hbefore⟩

namespace Save

variable {s : Store} {fate : Fate} {v : Save}

theorem Holds.append (h : v.Holds p s₀ ops) (more : List Op) : v.Holds p s₀ (ops ++ more) := by
  obtain ⟨mutate, maxRetries, attempt, phase, puts⟩ := v
  rcases phase with - | ⟨before, body⟩ | ⟨before, body, issues⟩ | ⟨before, body, checked⟩ | r
  · trivial
  · exact Copied.append h more
  · exact ⟨h.1.append more, h.2⟩
  · exact ⟨h.1.append more, h.2⟩
  · trivial

theorem holds_told (v : Save) (status : ℕ) (ok : Bool) : (v.told status ok).Holds p s₀ ops := by
  unfold told
  split_ifs <;> trivial

theorem holds_fetch (h : v.Holds p s₀ ops) (hcurrent : ∀ c, s.current p = some c → WasCurrent p s₀ ops c) :
    (fetch p t s fate v).Holds p s₀ ops := by
  obtain ⟨mutate, maxRetries, attempt, phase, puts⟩ := v
  rcases phase with - | ⟨before, body⟩ | ⟨before, body, issues⟩ | ⟨before, body, checked⟩ | r
  case load =>
    cases fate with
    | answered =>
      unfold fetch
      cases hc : s.current p with
      | none =>
        simp only [answer_getConfig_none hc]
        trivial
      | some c =>
        have hok : (AdminAnswer.json 200 (getConfig c)).ok = true := rfl
        simp only [answer_getConfig hc, hok, if_true, AdminAnswer.data]
        cases hbody : mutate.run (getConfig c) with
        | none => trivial
        | some body => exact ⟨c, hcurrent c hc, rfl, hbody⟩
    | _ => trivial
  case validate =>
    cases fate with
    | answered =>
      unfold fetch
      dsimp only
      split_ifs with hissues
      · exact ⟨h, fun _ ↦ passed_of_issues (congrArg (List.any · isError) hissues)⟩
      · exact ⟨h, fun hnone ↦ passed_of_issues hnone⟩
    | _ => exact ⟨h, fun hchecked ↦ absurd hchecked Bool.false_ne_true⟩
  case put =>
    cases fate with
    | answered => exact holds_told _ _ _
    | _ => trivial
  all_goals exact h

theorem holds_choose (h : v.Holds p s₀ ops) (proceed : Bool) : (v.choose proceed).Holds p s₀ ops := by
  obtain ⟨mutate, maxRetries, attempt, phase, puts⟩ := v
  rcases phase with - | ⟨before, body⟩ | ⟨before, body, issues⟩ | ⟨before, body, checked⟩ | r
  case review =>
    unfold choose
    dsimp only
    split_ifs with hproceed hany
    · exact h
    · exact ⟨h.1, fun _ ↦ h.2 (Bool.eq_false_iff.2 hany)⟩
    · trivial
  all_goals exact h

/-- A request at the gateway is the operation that it comes to. -/
theorem serve_eq (p : Pydantic) (s : Store) (v : Save) : v.serve p s = v.op?.elim s (s.next p) := by
  obtain ⟨mutate, maxRetries, attempt, phase, puts⟩ := v
  rcases phase with - | ⟨before, body⟩ | ⟨before, body, issues⟩ | ⟨before, body, checked⟩ | r
  case load =>
    show s.load p = (s.edit p (.setProviderApiKey .null)).1
    cases hc : s.current p with
    | none => rw [Store.edit, hc, Store.load, hc]
    | some c =>
      rw [Store.edit, hc]
      show s.load p = { s.load p with live := some c }
      rw [loaded_eq hc, Store.load, hc]
  all_goals rfl

end Save

theorem World.next_store (w : World) (step : Step) :
    (w.next p t step).store = (w.op? step).elim w.store (w.store.next p) := by
  cases step with
  | fetch j fate =>
    show (if fate.arrives then w.saves[j]?.elim w.store (Save.serve p w.store) else w.store) =
      (if fate.arrives then w.saves[j]?.bind Save.op? else none).elim w.store (w.store.next p)
    split_ifs
    · cases w.saves[j]? with
      | none => rfl
      | some v => exact v.serve_eq p w.store
    · rfl
  | _ => rfl

/-- What holds of the gateway and its pages. -/
structure World.Inv (p : Pydantic) (s₀ : Store) (w : World) : Prop where
  tracks : Tracks p s₀ w.ops w.store
  holds : ∀ v ∈ w.saves, v.Holds p s₀ w.ops ∧ v.Told

/-- The operation that a step comes to is sound. -/
def World.Sound (p : Pydantic) (s₀ : Store) (w : World) (step : Step) : Prop :=
  ∀ op ∈ w.op? step, op.Sound p s₀ w.ops w.store

/-- **One step** of the gateway and its pages. -/
theorem World.Inv.next {w : World} (h : w.Inv p s₀) {step : Step} (hsound : w.Sound p s₀ step) :
    (w.next p t step).Inv p s₀ := by
  have hcurrent : ∀ c, w.store.current p = some c → WasCurrent p s₀ w.ops c := fun c hc ↦
    ⟨w.ops, List.prefix_rfl, h.tracks.run ▸ hc⟩
  have hkept : ∀ v ∈ w.saves, v.Holds p s₀ (w.ops ++ (w.op? step).toList) ∧ v.Told := fun v hv ↦
    ⟨(h.holds v hv).1.append _, (h.holds v hv).2⟩
  refine ⟨?_, ?_⟩
  · rw [next_store]
    show Tracks p s₀ (w.ops ++ (w.op? step).toList) _
    cases hop : w.op? step with
    | none =>
      rw [Option.toList_none, List.append_nil]
      exact h.tracks
    | some op => exact tracks_next h.tracks (hsound op hop)
  · cases step with
    | other op => exact hkept
    | call mutate maxRetries =>
      refine List.forall_mem_append.2 ⟨hkept, fun v hv ↦ ?_⟩
      rw [List.mem_singleton.1 hv]
      exact ⟨trivial, Nat.zero_le _, rfl⟩
    | fetch j fate =>
      refine forall_mem_modify hkept j fun v ⟨hholds, htold⟩ ↦ ?_
      exact ⟨Save.holds_fetch hholds fun c hc ↦ wasCurrent_append (hcurrent c hc) _, Save.told_fetch htold⟩
    | choose j proceed =>
      refine forall_mem_modify hkept j fun v ⟨hholds, htold⟩ ↦ ?_
      exact ⟨Save.holds_choose hholds proceed, Save.told_choose htold proceed⟩

/-- A PUT that a save makes, at the moment it is made. -/
structure PutExact (p : Pydantic) (t : Surroundings) (s : Store) (mutate : Mutate) (before body : Json)
    (checked : Bool) : Prop where
  /-- It is a conflict exactly if the page would be shown something else now. -/
  conflict : (s.answer p t (.edit (.putConfig body))).status = 409 ↔
    ∀ c, s.current p = some c → getConfig c ≠ before
  /-- One that succeeds stores what the page makes of the current configuration, as if it had asked just now. -/
  stored : (s.answer p t (.edit (.putConfig body))).status = 200 → ∃ c c', s.current p = some c ∧
    mutate.run (getConfig c) = some body ∧ (putConfig p c body).verdict = .saveNew c' ∧
      (s.edit p (.putConfig body)).1.current p = some c'.bump
  /-- One that is rejected changes nothing. -/
  rejected : (s.answer p t (.edit (.putConfig body))).status = 409 ∨
      (s.answer p t (.edit (.putConfig body))).status = 422 →
    (s.edit p (.putConfig body)).1.current p = s.current p
  /-- One that has been checked and succeeds has no errors, and no provider with a key that it sends as it was shown. -/
  valid : checked = true → (s.answer p t (.edit (.putConfig body))).status = 200 → Passed p body ∧
    ∀ c, s.current p = some c → ∀ pr ∈ c.providers, pr.redacted.dump ∈ listAt body (py "providers") →
      truthy pr.apiKey = false

theorem getConfig_version (c : GatewayConfig) :
    ∃ d, getConfig c = .obj d ∧ get? d (py "version") = some (.int c.version) := by
  rw [getConfig_eq]
  exact ⟨_, rfl, rfl⟩

/-- A provider with a key is shown with the placeholder, which is an error. -/
theorem Passed.untouched {body : Json} {cfg : GatewayConfig} (h : Passed p body)
    (hcfg : validateGateway p body = some cfg) {pr : ProviderConfig}
    (hpr : pr.redacted.dump ∈ listAt body (py "providers")) : truthy pr.apiKey = false := by
  by_contra htruthy
  have hkey : field pr.redacted.dump (py "api_key") = some (.str redactedKey) := by
    show some (shownKey pr.apiKey) = _
    rw [shownKey, if_pos (Bool.not_eq_false _ ▸ htruthy)]
  obtain ⟨x, hx, hvalid⟩ := exists_of_mem_left (validateItems_forall₂ (validateGateway_eq_some hcfg).2) hpr
  have hmasked : x.apiKey = .str redactedKey := by
    rcases (validateProvider_eq_some hvalid).2 with hfield | ⟨hfield, -⟩
    · exact Option.some.inj (hfield.symm.trans hkey)
    · exact absurd (hfield.symm.trans hkey) (Option.some_ne_none _).symm
  exact (((valid_iff cfg).1 (h cfg hcfg)).2.2.2 x hx).1 hmasked

theorem putAnswer_conflict_iff {s : Store} {c : GatewayConfig} {d : PyDict} {n : ℤ} (hc : s.current p = some c)
    (hn : get? d (py "version") = some (.int n)) :
    (s.answer p t (.edit (.putConfig (.obj d)))).status = 409 ↔ n ≠ c.version := by
  constructor
  · intro hstatus heq
    rcases putAnswer_cases p t s (.obj d) with
      ⟨-, -, -, -, -, h⟩ | ⟨c', message, hc', ⟨hverdict, -⟩ | ⟨-, h⟩⟩ | h
    · exact absurd (h.symm.trans hstatus) (by decide)
    · obtain rfl := Option.some.inj (hc.symm.trans hc')
      rcases putConfig_reject hverdict with h | ⟨-, v, hv, hversion⟩
      · exact absurd h (by decide)
      · obtain rfl := Option.some.inj (hn.symm.trans hv)
        exact Bool.false_ne_true (hversion.symm.trans ((versionEq_int _ _).2 heq))
    · exact absurd (h.symm.trans hstatus) (by decide)
    · exact absurd (h.symm.trans hstatus) (by decide)
  · intro hne
    have hverdict : (handle p c (.putConfig (.obj d))).verdict = _ := putConfig_conflict hn hne
    simp only [Store.answer, hc, Edit.answer, hverdict]
    rfl

theorem World.Inv.put {w : World} (h : w.Inv p s₀) {v : Save} (hv : v ∈ w.saves) {before body : Json} {checked : Bool}
    (hphase : v.phase = .put before body checked) : PutExact p t w.store v.mutate before body checked := by
  have hholds := (h.holds v hv).1
  simp only [Save.Holds, hphase] at hholds
  obtain ⟨⟨c₀, hc₀, rfl, hbody⟩, hpassed⟩ := hholds
  obtain ⟨c, hc, -⟩ := h.tracks.current
  have hunique : c.version = c₀.version → c = c₀ :=
    h.tracks.known_unique ⟨w.ops, List.prefix_rfl, h.tracks.run ▸ hc⟩ hc₀
  obtain ⟨d₀, hd₀, hversion₀⟩ := getConfig_version c₀
  obtain ⟨d, rfl, hversion⟩ := v.mutate.keeps d₀ body (hd₀ ▸ hbody)
  have hconflict := putAnswer_conflict_iff (t := t) hc (hversion.trans hversion₀)
  have hcurrent : (w.store.answer p t (.edit (.putConfig (.obj d)))).status ≠ 409 → c = c₀ := fun hne ↦
    hunique (not_not.1 fun hv ↦ hne (hconflict.2 fun heq ↦ hv heq.symm))
  refine ⟨⟨fun hstatus c' hc' heq ↦ ?_, fun hall ↦ ?_⟩, fun hstatus ↦ ?_, fun hstatus ↦ ?_, fun hchecked hstatus ↦ ?_⟩
  · obtain rfl := Option.some.inj (hc.symm.trans hc')
    obtain ⟨d', hd', hversion'⟩ := getConfig_version c
    obtain rfl : d₀ = d' := Json.obj.inj (hd₀.symm.trans (heq.symm.trans hd'))
    exact hconflict.1 hstatus (Json.int.inj (Option.some.inj (hversion₀.symm.trans hversion')))
  · exact not_not.1 fun hne ↦ hall c hc (congrArg getConfig (hcurrent hne))
  · rcases putAnswer_cases p t w.store (.obj d) with
      ⟨c', c'', hc', hverdict, hok, -⟩ | ⟨-, -, -, ⟨-, h'⟩ | ⟨-, h'⟩⟩ | h'
    · obtain rfl := Option.some.inj (hc.symm.trans hc')
      obtain ⟨c₁, hverdict₁, hwritten⟩ := edit_putConfig hc hok
      obtain rfl := Verdict.saveNew.inj (hverdict.symm.trans hverdict₁)
      refine ⟨c, c'', hc, ?_, hverdict, ?_⟩
      · rw [hcurrent fun heq ↦ absurd (hstatus.symm.trans heq) (by decide)]
        exact hbody
      · rw [hwritten, written_current]
    · exact absurd (hstatus.symm.trans h') (by decide)
    · exact absurd (hstatus.symm.trans h') (by decide)
    · exact absurd (hstatus.symm.trans h') (by decide)
  · rw [hc]
    rcases putAnswer_cases p t w.store (.obj d) with
      ⟨-, -, -, -, -, h'⟩ | ⟨c', message, hc', ⟨hverdict, -⟩ | ⟨hverdict, -⟩⟩ | h'
    · rcases hstatus with hstatus | hstatus <;> exact absurd (hstatus.symm.trans h') (by decide)
    · obtain rfl := Option.some.inj (hc.symm.trans hc')
      exact edit_putConfig_of_not_saves hc (by rw [hverdict]; rfl)
    · obtain rfl := Option.some.inj (hc.symm.trans hc')
      exact edit_putConfig_of_not_saves hc (by rw [hverdict]; rfl)
    · rcases hstatus with hstatus | hstatus <;> exact absurd (hstatus.symm.trans h') (by decide)
  · have hpass := hpassed hchecked
    refine ⟨hpass, fun c' _ pr _ hpr ↦ ?_⟩
    rcases putAnswer_cases p t w.store (.obj d) with
      ⟨c', c'', -, hverdict, -, -⟩ | ⟨-, -, -, ⟨-, h'⟩ | ⟨-, h'⟩⟩ | h'
    · obtain ⟨cfg, hcfg, -⟩ := putConfig_saveNew hverdict
      exact hpass.untouched hcfg hpr
    · exact absurd (hstatus.symm.trans h') (by decide)
    · exact absurd (hstatus.symm.trans h') (by decide)
    · exact absurd (hstatus.symm.trans h') (by decide)

end Run

/-- The edit of `savePortFromDash`. -/
def savePort (port : ℤ) : Mutate where
  run
    | .obj d =>
      let server := match get? d (py "server") with
        | some (.obj server) => server
        | _ => []
      some (.obj (setKey d (py "server") (.obj (setKey server (py "port") (.int port)))))
    | _ => none
  keeps d body h := by
    obtain rfl := Option.some.inj h
    refine ⟨_, rfl, ?_⟩
    rw [get?_setKey, if_neg (by decide)]

/-- A page that saves a port at a gateway without files, and is not disturbed. -/
def undisturbed : List Step :=
  [.call (savePort 8080) 2, .fetch 0 .answered, .fetch 0 .answered, .fetch 0 .answered]

theorem sound_undisturbed : Every (World.next .strict Surroundings.idle)
    (fun _ ↦ World.Sound .strict (.start none fun _ ↦ none)) (World.start (.start none fun _ ↦ none)) undisturbed := by
  have hempty : ∀ before, before <+: [Op.edit (.setProviderApiKey .null)] →
      (exec (Store.next .strict) (.start none fun _ ↦ none) before).current .strict = some .empty := by
    intro before hbefore
    rcases List.prefix_concat_iff.1 (show before <+: [] ++ [_] from hbefore) with rfl | hnil
    · rfl
    · rw [List.prefix_nil.1 hnil]
      rfl
  simp only [undisturbed, every_cons_iff]
  refine ⟨fun op hop ↦ (by cases hop), fun op hop ↦ ?_, fun op hop ↦ (by cases hop), fun op hop ↦ ?_, every_nil _ _⟩
  · obtain rfl := Option.some.inj hop
    exact fun c _ ↦ ⟨trivial, ⟨trivial, fun _ _ h ↦ (by cases h)⟩, fun h ↦ (by cases h)⟩
  · obtain rfl := Option.some.inj hop
    refine fun c hc ↦ ⟨trivial, ⟨trivial, fun _ _ h ↦ (by cases h)⟩, fun _ c' hknown ↦ ?_⟩
    have hc₀ := hempty _ List.prefix_rfl
    obtain rfl := Option.some.inj (hc₀.symm.trans hc)
    rcases hknown with ⟨before, hbefore, hc'⟩ | ⟨f, hf | ⟨i, hf⟩, -⟩
    · obtain rfl := Option.some.inj ((hempty before hbefore).symm.trans hc')
      exact le_rfl
    · cases hf
    · cases hf

end SaveSection

end LocalGateway
