import LocalGateway.Config.Secrecy

/-!
# What an administrator is shown

The requests for the configuration, or parts of it, and the answers to them, apart from the two
endpoints that are there to reveal a key. Two gateways are alike if their configurations are, in memory
and on file. Alike gateways give the same answers, with two exceptions (`answer_eq_iff`).

`POST /admin/config/reload` returns the configuration as it is: the answer shows the keys. And a
configuration with a key that cannot be encoded is not saved, so an edit may succeed on one side only.
-/

namespace LocalGateway

open Py Json

/-! ### Requests and answers -/

/-- What the answers hold that is neither in the configuration nor in the request. -/
structure Surroundings extends Telemetry where
  /-- What `rename_model` or `rename_provider` returns, by type and ids. -/
  usageRows : PyStr → PyStr → PyStr → Json
  /-- What `ratelimit.rename_provider` returns. -/
  snoozeKeys : PyStr → PyStr → Json
  /-- `str(_backup_at(slot))`. -/
  backupPath : ℤ → PyStr
  /-- `str(e)`, where a backup cannot be read. -/
  readError : File → PyStr

/-- A request that shows or edits the configuration. The slot of a restore is what `int` makes of it. -/
inductive AdminRequest
  | getConfig
  | view (v : View)
  | edit (e : Edit)
  | reload
  | validate (body : Json)
  | restore (slot : Option ℤ)
deriving DecidableEq

/-- `{"status": "ok", …}`. -/
def statusOk (fields : PyDict) : Json :=
  .obj ((py "status", .str (py "ok")) :: fields)

/-- Something of the model that a handler has worked on. -/
def shownModel (before after : GatewayConfig) (id : PyStr) (f : ModelConfig → ModelConfig → Option Json) :
    Json :=
  ((before.modelIndex id).bind fun i ↦ before.models[i]?.bind fun m ↦ after.models[i]?.bind (f m)).getD
    .null

/-- What `rename_entity` answers. -/
def renamed (t : Surroundings) (c : GatewayConfig) (body : Json) : Json :=
  let old := (strippedText (field body (py "old_id"))).getD []
  let new := (strippedText (field body (py "new_id"))).getD []
  let common (type : PyStr) (rest : PyDict) := statusOk ([(py "type", .str type), (py "old_id", .str old),
    (py "new_id", .str new)] ++ rest)
  if field body (py "type") = some (.str (py "model")) then
    common (py "model") [(py "usage_rows_updated", t.usageRows (py "model") old new)]
  else
    let references := (c.models.flatMap (·.backends)).filter fun b ↦
      get? b.fields (py "provider") = some (.str old)
    let moved := c.pricing.filter fun e ↦ startsWith e.1 (old ++ py ":")
    common (py "provider") [(py "backend_refs_updated", .int references.length),
      (py "pricing_keys_moved", .int moved.length),
      (py "usage_rows_updated", t.usageRows (py "provider") old new),
      (py "snooze_keys_moved", t.snoozeKeys old new)]

/-- What the handler of an edit answers when it has saved: `before` is what it found, and `after` what it
has saved, before the version is counted up. -/
def Edit.success (t : Surroundings) (before after : GatewayConfig) : Edit → Json
  | .createModel _ => statusOk [(py "model", (after.models.getLast?.map ModelConfig.dump).getD .null)]
  | .setBackendsTiers _ body => statusOk [(py "tiers", (field body (py "tiers")).getD (.arr []))]
  | .putTimeRouting id _ => shownModel before after id fun _ m ↦ some m.timeRouting.dump
  | .createTimeSlot id _ =>
    shownModel before after id fun _ m ↦ m.timeRouting.slots.getLast?.map TimeSlot.dump
  | .updateTimeSlot id slot _ => shownModel before after id fun m m' ↦
    (m.timeRouting.slots.findIdx? (·.id = slot)).bind fun i ↦
      m'.timeRouting.slots[i]?.map TimeSlot.dump
  | .putConfig _ => statusOk [(py "version", .int (after.version + 1))]
  | .rename body => renamed t before body
  | _ => statusOk []

/-- What the handler of an edit answers when it rejects it. -/
def Edit.rejected (c : GatewayConfig) (status : ℕ) (message : PyStr) : Edit → AdminAnswer
  | .putConfig _ =>
    if status = 409 then
      .json 409 (.obj [(py "error", .str message), (py "type", .str (py "version_conflict")),
        (py "current_version", .int c.version)])
    else adminError status message
  | _ => adminError status message

/-- What a handler has saved, if anything. -/
def Outcome.saved (o : Outcome) : Option GatewayConfig :=
  match o.verdict with
  | .save => some o.live
  | .saveNew c => some c
  | _ => none

/-- The answer to an edit, from what the handler found, what it did, and whether saving succeeded. -/
def Edit.answer (t : Surroundings) (c : GatewayConfig) (o : Outcome) (ok : Bool) (e : Edit) :
    AdminAnswer :=
  match o.verdict with
  | .save => if ok then .json 200 (e.success t c o.live) else .raised
  | .saveNew c' => if ok then .json 200 (e.success t c c') else .raised
  | .reject status message => e.rejected c status message
  | .crash => .raised

/-- An entry of what `validate_config` returns. -/
def Issue.dump (i : Issue) : Json :=
  .obj [(py "severity", .str (match i.severity with
      | .error => py "error"
      | .warning => py "warning")),
    (py "code", .str i.code), (py "path", .str i.path), (py "message", .str i.message)]

section Answer

variable (p : Pydantic) (t : Surroundings)

/-- The answer to `restore_backup`. -/
def Store.answerRestore (s : Store) (slot : ℤ) : AdminAnswer :=
  match s.backupAt slot with
  | none => adminError 404 (py "Backup slot " ++ intRepr slot ++ py " does not exist")
  | some f =>
    match f.read p with
    | .error _ => adminError 422 (py "Backup is not a valid config: " ++ t.readError f)
    | .ok _ =>
      match (s.restore p slot).2, (s.restore p slot).1.live with
      | true, some c => .json 200 (statusOk [(py "restored_from", .str (t.backupPath slot)),
          (py "version", .int c.version)])
      | _, _ => .raised

/-- The answer to a request. Where the configuration cannot be loaded, the handler raises. -/
def Store.answer (s : Store) : AdminRequest → AdminAnswer
  | .getConfig =>
    match s.current p with
    | none => .raised
    | some c => .json 200 (getConfig c)
  | .view v =>
    match s.current p with
    | none => .raised
    | some c => view t.toTelemetry c v
  | .edit e =>
    match s.current p with
    | none => .raised
    | some c => e.answer t c (handle p c e) (s.edit p e).2
  | .reload =>
    match (s.reload p).live with
    | none => .raised
    | some c => .json 200 (statusOk [(py "config", c.dump)])
  | .validate body =>
    match validateGateway p body with
    | none => adminError 422 (p.errorText (py "GatewayConfig") body)
    | some c => .json 200 (.obj [(py "issues", .arr ((validateConfig c).map Issue.dump))])
  | .restore slot =>
    match slot with
    | none => adminError 422 (py "slot (int) is required")
    | some slot => s.answerRestore p t slot

end Answer

/-! ### Alike gateways -/

/-- Files with the same text, or with configurations that are alike. -/
def File.Alike (p : Pydantic) (f f' : File) : Prop :=
  f = f' ∨ ∃ c c', f.read p = .ok c ∧ f'.read p = .ok c' ∧ c.Alike c'

/-- The configurations are alike, in memory and on file. -/
structure Store.Alike (p : Pydantic) (s s' : Store) : Prop where
  live : s.live.Rel GatewayConfig.Alike s'.live
  fresh : s.fresh = s'.fresh
  main : s.main.Rel (File.Alike p) s'.main
  backups : ∀ i, (s.backups i).Rel (File.Alike p) (s'.backups i)

variable {p : Pydantic} {t : Surroundings} {s s' : Store}

theorem alike_refl (c : GatewayConfig) : c.Alike c :=
  alike_iff.2 rfl

/-- Alike files are read as alike configurations, or are the same and cannot be read. -/
theorem File.Alike.read {f f' : File} (h : f.Alike p f') :
    (∃ c c', f.read p = .ok c ∧ f'.read p = .ok c' ∧ c.Alike c') ∨
      f = f' ∧ ∃ e, f.read p = .error e := by
  rcases h with rfl | h
  · rcases hread : f.read p with e | c
    · exact .inr ⟨rfl, e, rfl⟩
    · exact .inl ⟨c, c, rfl, rfl, alike_refl c⟩
  · exact .inl h

/-- The first files that can be read, of alike ones. -/
theorem firstValid_alike {fs fs' : List File} (h : List.Forall₂ (File.Alike p) fs fs') :
    (firstValid p fs).map (Option.map GatewayConfig.redacted) =
      (firstValid p fs').map (Option.map GatewayConfig.redacted) := by
  induction h with
  | nil => rfl
  | cons hf _ ih =>
    rw [firstValid, firstValid]
    rcases hf.read with ⟨c, c', hread, hread', hc⟩ | ⟨rfl, e, hread⟩
    · rw [hread, hread']
      exact congrArg (Except.ok ∘ some) (alike_iff.1 hc)
    · rw [hread]
      cases e with
      | invalid => exact ih
      | typeError => rfl

namespace Store.Alike

theorem candidates (h : s.Alike p s') :
    List.Forall₂ (File.Alike p) s.candidates s'.candidates :=
  List.rel_append (forall₂_toList h.main) (forall₂_filterMap_same h.backups _)

theorem fromFiles (h : s.Alike p s') :
    (s.fromFiles p).Rel GatewayConfig.Alike (s'.fromFiles p) := by
  have hfirst := firstValid_alike h.candidates
  unfold Store.fromFiles
  rcases hread : firstValid p s.candidates with e | c <;>
    rcases hread' : firstValid p s'.candidates with e' | c' <;> rw [hread, hread'] at hfirst
  · exact .none
  · cases hfirst
  · cases hfirst
  · have hfound := Except.ok.inj hfirst
    rcases c with - | c <;> rcases c' with - | c'
    · exact .some (alike_refl _)
    · cases hfound
    · cases hfound
    · exact .some (alike_iff.2 (Option.some.inj hfound))

theorem current (h : s.Alike p s') : (s.current p).Rel GatewayConfig.Alike (s'.current p) := by
  have hfiles := h.fromFiles
  have hlive := h.live
  unfold Store.current
  rw [← h.fresh]
  generalize s.live = live at hlive
  generalize s'.live = live' at hlive
  cases hlive with
  | none => exact hfiles
  | some hc =>
    cases s.fresh with
    | true => exact .some hc
    | false => exact hfiles

theorem backupAt (h : s.Alike p s') (slot : ℤ) :
    (s.backupAt slot).Rel (File.Alike p) (s'.backupAt slot) := by
  unfold Store.backupAt
  split_ifs
  · exact .none
  · exact h.backups _

end Store.Alike

/-! ### One answer -/

theorem view_alike {c c' : GatewayConfig} (h : c.Alike c') (v : View) :
    view t.toTelemetry c v = view t.toTelemetry c' v := by
  rw [← view_redacted, alike_iff.1 h, view_redacted]

theorem getConfig_alike {c c' : GatewayConfig} (h : c.Alike c') : getConfig c = getConfig c' := by
  rw [getConfig_eq, getConfig_eq, alike_iff.1 h]

theorem success_redacted (before after : GatewayConfig) (e : Edit) :
    e.success t before.redacted after.redacted = e.success t before after := by
  cases e <;> rfl

/-- An answer to an edit shows no keys. -/
theorem answer_redacted (c : GatewayConfig) (o : Outcome) (ok : Bool) (e : Edit) :
    e.answer t c.redacted o.redacted ok = e.answer t c o ok := by
  obtain ⟨live, verdict⟩ := o
  cases verdict with
  | save =>
    show (if ok then AdminAnswer.json 200 (e.success t c.redacted live.redacted) else .raised) = _
    rw [success_redacted]
    rfl
  | saveNew c' =>
    show (if ok then AdminAnswer.json 200 (e.success t c.redacted c'.redacted) else .raised) = _
    rw [success_redacted]
    rfl
  | reject status message => cases e <;> rfl
  | crash => rfl

theorem handle_alike {c c' : GatewayConfig} (h : c.Alike c') (e : Edit) :
    (handle p c e).redacted = (handle p c' e).redacted := by
  rw [← handle_redacted, alike_iff.1 h, handle_redacted]

/-- Whether an edit succeeds: it is a matter of what can be written. -/
theorem edit_ok {c : GatewayConfig} (hc : s.current p = some c) (e : Edit) :
    (s.edit p e).2 = (handle p c e).saved.any fun d ↦ d.dump.encodable := by
  have hsave (s : Store) (d : GatewayConfig) (shared : Bool) : (s.save d shared).2 = d.dump.encodable := by
    cases henc : d.dump.encodable with
    | true => rw [save_of_encodable (bump_encodable henc)]
    | false => exact save_of_not_encodable henc s shared
  rcases edit_cases p s e with ⟨hnone, -⟩ | ⟨c₀, hc₀, hresult⟩
  · rw [hnone] at hc
    cases hc
  · obtain rfl := Option.some.inj (hc.symm.trans hc₀)
    unfold Outcome.saved
    rcases hresult with ⟨hverdict, heq⟩ | ⟨d, hverdict, heq⟩ | ⟨hverdict, heq⟩
    · rw [heq, hsave, hverdict]
      rfl
    · rw [heq, hsave, hverdict]
      rfl
    · rw [heq]
      cases hv : (handle p c e).verdict with
      | reject status message => rfl
      | crash => rfl
      | save =>
        rw [hv] at hverdict
        cases hverdict
      | saveNew d =>
        rw [hv] at hverdict
        cases hverdict

theorem reload_live : (s.reload p).live = s.fromFiles p := by
  have hcurrent : (⟨none, false, s.main, s.backups⟩ : Store).current p = s.fromFiles p := rfl
  unfold Store.reload Store.load
  rw [hcurrent]
  rcases s.fromFiles p with - | c <;> rfl

/-- A restore of a backup that can be read, in place of a file that is there. -/
theorem restore_live {slot : ℤ} {f g : File} {c : GatewayConfig} (hf : s.backupAt slot = some f)
    (hread : f.read p = .ok c) (hmain : s.main = some g) :
    (s.restore p slot).2 = true ∧ (s.restore p slot).1.live = some c := by
  have hrestore : s.restore p slot = (({ s with
      main := some f, backups := Function.update (rotateBackups s.backups) 0 (some g) } : Store).reload p,
        true) := by
    rw [Store.restore, hf]
    simp only [hread, hmain]
  have hfirst : ∀ fs, firstValid p (f :: fs) = .ok (some c) := fun fs ↦ by
    rw [firstValid, hread]
  rw [hrestore, reload_live, Store.fromFiles, Store.candidates, Option.toList, List.cons_append, hfirst]
  exact ⟨rfl, rfl⟩

theorem restore_none {slot : ℤ} {f : File} {c : GatewayConfig} (hf : s.backupAt slot = some f)
    (hread : f.read p = .ok c) (hmain : s.main = none) : (s.restore p slot).2 = false := by
  rw [Store.restore, hf]
  simp only [hread, hmain]

theorem answerRestore_alike (h : s.Alike p s') (slot : ℤ) :
    s.answerRestore p t slot = s'.answerRestore p t slot := by
  have hbackup := h.backupAt slot
  unfold Store.answerRestore
  rcases hf : s.backupAt slot with - | f <;> rcases hf' : s'.backupAt slot with - | f' <;>
    rw [hf, hf'] at hbackup
  · cases hbackup
  · cases hbackup
  obtain ⟨hfiles⟩ := hbackup
  rcases hfiles.read with ⟨c, c', hread, hread', hc⟩ | ⟨rfl, e, hread⟩
  · have hmain := h.main
    simp only [hread, hread']
    rcases hg : s.main with - | g <;> rcases hg' : s'.main with - | g' <;> rw [hg, hg'] at hmain
    · rw [restore_none hf hread hg, restore_none hf' hread' hg']
    · cases hmain
    · cases hmain
    · obtain ⟨hok, hlive⟩ := restore_live hf hread hg
      obtain ⟨hok', hlive'⟩ := restore_live hf' hread' hg'
      rw [hok, hlive, hok', hlive']
      simp only [hc.version]
  · simp only [hread]

theorem keys_eq_of_dump_eq {c c' : GatewayConfig} (h : c.dump = c'.dump) : c.keys = c'.keys := by
  have hat {α : Type} (dump : α → Json) (name : PyStr) (key : α → Json)
      (hkey : ∀ x, field (dump x) name = some (key x)) {xs ys : List α}
      (hdump : xs.map dump = ys.map dump) : xs.map key = ys.map key := by
    have hfields := congrArg (List.map fun v ↦ (field v name).getD .null) hdump
    simpa only [List.map_map, Function.comp_def, hkey, Option.getD_some] using hfields
  simp only [GatewayConfig.dump, ServerConfig.dump, Json.obj.injEq, List.cons_append, List.cons.injEq,
    Prod.mk.injEq, true_and, Json.arr.injEq] at h
  obtain ⟨⟨hkey, hclients, -⟩, hproviders, -⟩ := h
  have hprs := hat ProviderConfig.dump (py "api_key") (·.apiKey) (fun _ ↦ rfl) hproviders
  have hks := hat ApiKeyConfig.dump (py "key") (fun k ↦ .str k.key) (fun _ ↦ rfl) hclients
  have hks' : c.server.apiKeys.map (·.key) = c'.server.apiKeys.map (·.key) := by
    refine List.map_injective_iff.2 (fun _ _ ↦ Json.str.inj) ?_
    simpa only [List.map_map, Function.comp_def] using hks
  rw [GatewayConfig.keys, GatewayConfig.keys, hprs, hks', dumpOpt_inj.1 hkey]

/-- Alike configurations are shown the same by a reload if and only if their keys are the same. -/
theorem answer_reload_iff (h : s.Alike p s') : s.answer p t .reload = s'.answer p t .reload ↔
    (s.fromFiles p).map GatewayConfig.keys = (s'.fromFiles p).map GatewayConfig.keys := by
  have hfiles := h.fromFiles
  unfold Store.answer
  rw [reload_live, reload_live]
  generalize s.fromFiles p = loaded at hfiles ⊢
  generalize s'.fromFiles p = loaded' at hfiles ⊢
  cases hfiles with
  | none => exact iff_of_true rfl rfl
  | @some c c' hc =>
    constructor
    · intro heq
      obtain ⟨-, hbody⟩ := AdminAnswer.json.inj heq
      have hdump : c.dump = c'.dump := by
        simpa [statusOk] using hbody
      exact congrArg some (keys_eq_of_dump_eq hdump)
    · intro heq
      rw [eq_of_alike hc (Option.some.inj heq)]

theorem saved_redacted (o : Outcome) : o.redacted.saved = o.saved.map GatewayConfig.redacted := by
  obtain ⟨live, verdict⟩ := o
  cases verdict <;> rfl

/-- The answer to an edit that is saved tells whether saving succeeded. -/
theorem answer_ok_iff {c d : GatewayConfig} {o : Outcome} (h : o.saved = some d) (e : Edit)
    (ok ok' : Bool) : e.answer t c o ok = e.answer t c o ok' ↔ ok = ok' := by
  obtain ⟨live, verdict⟩ := o
  cases verdict with
  | save => cases ok <;> cases ok' <;> simp [Edit.answer]
  | saveNew c' => cases ok <;> cases ok' <;> simp [Edit.answer]
  | reject status message => cases h
  | crash => cases h

/-- An edit is answered the same if and only if what is saved can be written on both sides or on
neither. -/
theorem answer_edit_iff {c c' : GatewayConfig} (hc : s.current p = some c) (hc' : s'.current p = some c')
    (h : c.Alike c') (e : Edit) : s.answer p t (.edit e) = s'.answer p t (.edit e) ↔
      ∀ d d', (handle p c e).saved = some d → (handle p c' e).saved = some d' →
        d.dump.encodable = d'.dump.encodable := by
  have hanswer (ok : Bool) : e.answer t c (handle p c e) ok = e.answer t c' (handle p c' e) ok := by
    rw [← answer_redacted, handle_alike h, alike_iff.1 h, answer_redacted]
  have hsaved : (handle p c e).saved.map GatewayConfig.redacted =
      (handle p c' e).saved.map GatewayConfig.redacted := by
    rw [← saved_redacted, handle_alike h, saved_redacted]
  have hleft : s.answer p t (.edit e) = e.answer t c (handle p c e) (s.edit p e).2 := by
    simp only [Store.answer, hc]
  have hright : s'.answer p t (.edit e) = e.answer t c (handle p c e) (s'.edit p e).2 := by
    simp only [Store.answer, hc', hanswer]
  rw [hleft, hright, edit_ok hc, edit_ok hc']
  rcases hd : (handle p c e).saved with - | d <;> rcases hd' : (handle p c' e).saved with - | d' <;>
    rw [hd, hd'] at hsaved
  · exact iff_of_true rfl nofun
  · cases hsaved
  · cases hsaved
  · rw [answer_ok_iff hd]
    simp

/-- The condition on a request for alike gateways to answer it the same: a reload finds the same keys;
and what an edit saves can be written on both sides or on neither. -/
def AdminRequest.Blind (p : Pydantic) (s s' : Store) : AdminRequest → Prop
  | .reload => (s.fromFiles p).map GatewayConfig.keys = (s'.fromFiles p).map GatewayConfig.keys
  | .edit e => ∀ c c', s.current p = some c → s'.current p = some c' →
    ∀ d d', (handle p c e).saved = some d → (handle p c' e).saved = some d' →
      d.dump.encodable = d'.dump.encodable
  | _ => True

/-- **Secrecy.** Gateways whose configurations differ in nothing but keys that are not empty answer a
request the same if and only if it is no reload that finds different keys, and no edit whose result can
be written on one side only. -/
theorem answer_eq_iff (p : Pydantic) (t : Surroundings) {s s' : Store} (h : s.Alike p s')
    (r : AdminRequest) : s.answer p t r = s'.answer p t r ↔ r.Blind p s s' := by
  have hcurrent := h.current
  cases r with
  | getConfig =>
    refine iff_of_true ?_ trivial
    unfold Store.answer
    generalize s.current p = found at hcurrent
    generalize s'.current p = found' at hcurrent
    cases hcurrent with
    | none => rfl
    | some hc => simp only [getConfig_alike hc]
  | view v =>
    refine iff_of_true ?_ trivial
    unfold Store.answer
    generalize s.current p = found at hcurrent
    generalize s'.current p = found' at hcurrent
    cases hcurrent with
    | none => rfl
    | some hc => exact view_alike hc v
  | edit e =>
    rcases hc : s.current p with - | c <;> rcases hc' : s'.current p with - | c' <;>
      rw [hc, hc'] at hcurrent
    · refine iff_of_true ?_ fun c _ hfound ↦ ?_
      · simp only [Store.answer, hc, hc']
      · rw [hc] at hfound
        cases hfound
    · cases hcurrent
    · cases hcurrent
    · obtain ⟨halike⟩ := hcurrent
      rw [answer_edit_iff hc hc' halike]
      refine ⟨fun hsame c₀ c₀' hfound hfound' ↦ ?_, fun hblind ↦ hblind c c' hc hc'⟩
      obtain rfl := Option.some.inj (hc.symm.trans hfound)
      obtain rfl := Option.some.inj (hc'.symm.trans hfound')
      exact hsame
  -- what a reload finds, and whether an edit can be written, is all that tells them apart
  | reload => exact answer_reload_iff h
  | validate body => exact iff_of_true rfl trivial
  | restore slot =>
    refine iff_of_true ?_ trivial
    cases slot with
    | none => rfl
    | some slot => exact answerRestore_alike h slot

/-- Surroundings where nothing has happened. -/
def Surroundings.idle : Surroundings where
  aggregates _ _ := []
  percentiles _ _ _ _ := []
  totals _ _ := .obj []
  series _ _ := .obj []
  circuits _ := []
  warmth _ _ _ := none
  remaining _ _ := .float (.fin 0)
  rateLimits := .obj []
  stats := .obj []
  spend := []
  currentRpm _ := .int 0
  cacheStats := []
  rows _ _ := []
  csv _ := []
  percent x _ := x
  roundRate x := x
  usageRows _ _ _ := .int 0
  snoozeKeys _ _ := .int 0
  backupPath _ := py "config.json.bak"
  readError _ := []

theorem holding_alike {c c' : GatewayConfig} (hread : parseConfig p c.dump = .ok c)
    (hread' : parseConfig p c'.dump = .ok c') (h : c.Alike c') : (holding c).Alike p (holding c') where
  live := .none
  fresh := rfl
  main := .some (.inr ⟨c, c', hread, hread', h⟩)
  backups _ := .none

/-- The page, the spending of the keys, and an edit, with one client key and with another. -/
theorem answer_eq_sample :
    let s := holding (clientKeys [(py "a", py "k")])
    let s' := holding (clientKeys [(py "a", py "m")])
    s.Alike .strict s' ∧ ∀ r ∈ [.getConfig, .view .keysSpend, .edit (.deleteModel (py "m"))],
      s.answer .strict .idle r = s'.answer .strict .idle r := by
  intro s s'
  have halike : s.Alike .strict s' := holding_alike rfl rfl (alike_iff.2 rfl)
  refine ⟨halike, fun r hr ↦ (answer_eq_iff .strict .idle halike r).2 ?_⟩
  rcases List.mem_cons.1 hr with rfl | hr
  · trivial
  · rcases List.mem_cons.1 hr with rfl | hr
    · trivial
    · obtain rfl := List.mem_singleton.1 hr
      intro c c' hc _ d d' hd _
      obtain rfl := Option.some.inj hc
      cases hd

/-- **Reload.** It answers with the key itself. -/
theorem reload_shows_key :
    let s := holding (clientKeys [(py "a", py "k")])
    let s' := holding (clientKeys [(py "a", py "m")])
    s.Alike .strict s' ∧ s.answer .strict .idle .reload ≠ s'.answer .strict .idle .reload := by
  intro s s'
  have halike : s.Alike .strict s' := holding_alike rfl rfl (alike_iff.2 rfl)
  refine ⟨halike, fun heq ↦ ?_⟩
  have hkeys := (answer_reload_iff halike).1 heq
  exact absurd (congrArg (Option.map Keys.clients) hkeys) (by decide)

end LocalGateway
