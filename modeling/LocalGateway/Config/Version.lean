import LocalGateway.Config.Loadable

/-!
# The version number

`put_config` takes the version number of a configuration for the configuration itself: it accepts a
request that carries the number of the current one. That is sound if no two configurations are ever
current under one number, which every save keeps up as long as it counts up the highest number there
is. Restoring a backup brings an old number back, and the next save gives out a number a second
time.

`Known` collects the configurations that were current so far or are in the files the process found.
As long as every edit that saves is made under the highest known number (`Op.Sound`), each number
belongs to one known configuration (`known_unique`), and so the version check is sound
(`versionSound_of_sound`).
-/

namespace LocalGateway

open Py Json

/-! ### Files under rotation -/

/-- A file that is in a slot afterwards was in one before. -/
theorem exists_of_shiftUp {backups : ℕ → Option File} {i j : ℕ} {f : File}
    (h : shiftUp backups i j = some f) : ∃ k, backups k = some f := by
  rcases hi : backups i with - | g
  · simp only [shiftUp, hi] at h
    exact ⟨j, h⟩
  · simp only [shiftUp, hi, Function.update_apply] at h
    split_ifs at h
    · exact ⟨i, hi.trans h⟩
    · exact ⟨j, h⟩

theorem exists_of_rotateBackups {backups : ℕ → Option File} {i : ℕ} {f : File}
    (h : rotateBackups backups i = some f) : ∃ k, backups k = some f := by
  have hfold : ∀ (is : List ℕ) (backups : ℕ → Option File) (i : ℕ),
      is.foldl shiftUp backups i = some f → ∃ k, backups k = some f := by
    intro is
    induction is with
    | nil => exact fun _ i h ↦ ⟨i, h⟩
    | cons j is ih =>
      intro backups i h
      obtain ⟨k, hk⟩ := ih _ i h
      exact exists_of_shiftUp hk
  obtain ⟨k, hk⟩ := hfold _ _ i h
  rw [Function.update_apply] at hk
  split_ifs at hk
  exact ⟨k, hk⟩

/-- There is a backup in one of the slots that are read. -/
def HasBackup (backups : ℕ → Option File) : Prop :=
  ∃ k < backupKeep, (backups k).isSome

theorem hasBackup_shiftUp {backups : ℕ → Option File} (h : HasBackup backups) {i : ℕ}
    (hi : i + 1 < backupKeep) : HasBackup (shiftUp backups i) := by
  unfold shiftUp
  split
  · exact h
  · exact ⟨i + 1, hi, by simp⟩

theorem hasBackup_rotateBackups {backups : ℕ → Option File} (h : HasBackup backups) :
    HasBackup (rotateBackups backups) := by
  have hstart : HasBackup (Function.update backups backupKeep none) := by
    obtain ⟨k, hk, hsome⟩ := h
    exact ⟨k, hk, by rwa [Function.update_apply, if_neg hk.ne]⟩
  have hslots : ∀ i ∈ (List.range (backupKeep - 1)).reverse, i + 1 < backupKeep := by decide
  unfold rotateBackups
  generalize (List.range (backupKeep - 1)).reverse = is at hslots
  generalize Function.update backups backupKeep none = backups at hstart
  induction is generalizing backups with
  | nil => exact hstart
  | cons i is ih =>
    exact ih (fun j hj ↦ hslots j (List.mem_cons_of_mem i hj)) (shiftUp backups i)
      (hasBackup_shiftUp hstart (hslots i List.mem_cons_self))

/-! ### Known configurations -/

/-- The file is one of the store's. -/
def Store.HasFile (s : Store) (f : File) : Prop :=
  s.main = some f ∨ ∃ i, s.backups i = some f

section Runs

variable (p : Pydantic) (s₀ : Store)

/-- The configuration was current after some of the operations. -/
def WasCurrent (past : List Op) (c : GatewayConfig) : Prop :=
  ∃ before, before <+: past ∧ (Runs.exec (Store.next p) s₀ before).current p = some c

/-- The configuration was current, or was in a file at the start. -/
def Known (past : List Op) (c : GatewayConfig) : Prop :=
  WasCurrent p s₀ past c ∨ ∃ f, s₀.HasFile f ∧ f.read p = .ok c

/-- The backups are those that are kept, the files can be read, and those with the same number hold
the same. -/
structure Store.Consistent : Prop where
  slots : ∀ i, backupKeep ≤ i → s₀.backups i = none
  readable : ∀ f, s₀.HasFile f → ∃ c, f.read p = .ok c
  unique : ∀ f f' c c', s₀.HasFile f → s₀.HasFile f' → f.read p = .ok c → f'.read p = .ok c' →
    c.version = c'.version → c = c'

/-- An edit is sound if the values it assigns have the declared types, it changes nothing unless it
is saved, and it is saved only where the current version is the highest known one. Other operations
are. -/
def Op.Sound (past : List Op) (s : Store) : Op → Prop
  | .edit e => ∀ c, s.current p = some c → e.Proper p c ∧ e.Clean p c ∧
      ((handle p c e).verdict.Saves = true → ∀ c', Known p s₀ past c' → c'.version ≤ c.version)
  | _ => True

end Runs

theorem Known.mono {p : Pydantic} {s₀ : Store} {past : List Op} {c : GatewayConfig}
    (h : Known p s₀ past c) (op : Op) : Known p s₀ (past ++ [op]) c := by
  rcases h with ⟨before, hprefix, hc⟩ | h
  · exact .inl ⟨before, hprefix.trans (List.prefix_append past [op]), hc⟩
  · exact .inr h

/-- What is known after one more operation is what was known, or is current now. -/
theorem known_concat_iff {p : Pydantic} {s₀ : Store} {past : List Op} {op : Op} {c : GatewayConfig} :
    Known p s₀ (past ++ [op]) c ↔
      Known p s₀ past c ∨ (Runs.exec (Store.next p) s₀ (past ++ [op])).current p = some c := by
  constructor
  · rintro (⟨before, hprefix, hc⟩ | h)
    · rcases List.prefix_concat_iff.1 hprefix with rfl | hprefix
      · exact .inr hc
      · exact .inl (.inl ⟨before, hprefix, hc⟩)
    · exact .inl (.inr h)
  · rintro (h | hc)
    · exact h.mono op
    · exact .inl ⟨_, List.prefix_rfl, hc⟩

/-! ### What a step makes current -/

/-- Handlers leave the version alone; `save_config` counts it up. -/
theorem handle_version (p : Pydantic) (c : GatewayConfig) (e : Edit) :
    (handle p c e).live.version = c.version := by
  have hmodel : ∀ id f, (withModel c id f).live.version = c.version := by
    intro id f
    unfold withModel
    split
    · rfl
    · split <;> rfl
  cases e
  case putConfig body => exact congrArg GatewayConfig.version (putConfig_live p c body)
  case createModel | deleteModel | setProviderApiKey | rename =>
    simp only [handle, createModel, deleteModel, setProviderApiKey, renameEntity]
    repeat' split
    all_goals rfl
  all_goals exact hmodel _ _

theorem putConfig_version {p : Pydantic} {c c' : GatewayConfig} {body : Json}
    (h : (putConfig p c body).verdict = .saveNew c') : c'.version = c.version := by
  unfold putConfig at h
  simp only at h
  split_ifs at h
  split at h
  · cases h
  · split at h
    · cases h
    · split at h
      · cases h
      · obtain rfl := Verdict.saveNew.inj h
        rfl

theorem handle_saveNew {p : Pydantic} {c c' : GatewayConfig} {e : Edit}
    (h : (handle p c e).verdict = .saveNew c') :
    (handle p c e).live = c ∧ c'.version = c.version := by
  by_cases he : ∃ body, e = .putConfig body
  · obtain ⟨body, rfl⟩ := he
    exact ⟨putConfig_live p c body, putConfig_version h⟩
  · have hplace := handle_inPlace (p := p) (c := c) fun body heq ↦ he ⟨body, heq⟩
    rw [h] at hplace
    cases hplace

theorem Store.hasFile_of_mem_candidates {s : Store} {f : File} (h : f ∈ s.candidates) :
    s.HasFile f := by
  rcases List.mem_append.1 h with h | h
  · exact .inl (Option.mem_toList.1 h)
  · obtain ⟨i, -, hi⟩ := List.mem_filterMap.1 h
    exact .inr ⟨i, hi⟩

/-- There are no files to try only if there is neither a `config.json` nor a backup. -/
theorem Store.candidates_eq_nil_iff {s : Store} :
    s.candidates = [] ↔ s.main = none ∧ ¬ HasBackup s.backups := by
  unfold Store.candidates HasBackup
  rw [List.append_eq_nil_iff, Option.toList_eq_nil_iff, List.filterMap_eq_nil_iff]
  refine and_congr_right fun _ ↦ ?_
  simp only [List.mem_range, not_exists, not_and, Option.not_isSome_iff_eq_none]

/-- What the process knows and has on disk during a run. -/
structure Tracks (p : Pydantic) (s₀ : Store) (past : List Op) (s : Store) : Prop where
  run : s = Runs.exec (Store.next p) s₀ past
  typed : s.LiveTyped
  /-- Every file holds a known configuration. -/
  files : ∀ f, s.HasFile f → ∃ c, f.read p = .ok c ∧ Known p s₀ past c
  /-- The empty configuration is loaded only where it always was. -/
  empty : s.candidates = [] → Known p s₀ past .empty
  /-- Each number belongs to one known configuration. -/
  unique : ∀ c c', Known p s₀ past c → Known p s₀ past c' → c.version = c'.version → c = c'

variable {p : Pydantic} {s₀ s : Store} {past : List Op}

/-- What is loaded from files of the process is known. -/
theorem Tracks.fromFiles (h : Tracks p s₀ past s) {t : Store} (hfiles : ∀ f, t.HasFile f → s.HasFile f)
    (hempty : t.candidates = [] → s.candidates = []) :
    ∃ c, t.fromFiles p = some c ∧ Known p s₀ past c := by
  unfold Store.fromFiles
  rcases hcand : t.candidates with - | ⟨f, fs⟩
  · exact ⟨.empty, rfl, h.empty (hempty hcand)⟩
  · have hf : t.HasFile f := Store.hasFile_of_mem_candidates (by rw [hcand]; exact List.mem_cons_self)
    obtain ⟨c, hread, hknown⟩ := h.files f (hfiles f hf)
    exact ⟨c, by simp [firstValid, hread], hknown⟩

/-- There is always a current configuration, and it is known. -/
theorem Tracks.current (h : Tracks p s₀ past s) :
    ∃ c, s.current p = some c ∧ Known p s₀ past c := by
  obtain ⟨c, hc⟩ : ∃ c, s.current p = some c := by
    unfold Store.current
    split
    · exact ⟨_, rfl⟩
    · obtain ⟨c, hc, -⟩ := h.fromFiles (t := s) (fun _ ↦ id) id
      exact ⟨c, hc⟩
  exact ⟨c, hc, .inl ⟨past, List.prefix_rfl, h.run ▸ hc⟩⟩

/-- What a sound operation does to what is known: the files are the old ones or hold what is current
now, and what is current now is known or has a new number. -/
structure Advances (p : Pydantic) (s₀ : Store) (past : List Op) (s s' : Store) : Prop where
  files : ∀ f, s'.HasFile f → s.HasFile f ∨ ∃ c, f.read p = .ok c ∧ s'.current p = some c
  empty : s'.candidates = [] → s.candidates = []
  current : ∀ c', s'.current p = some c' →
    Known p s₀ past c' ∨ ∀ c, Known p s₀ past c → c.version < c'.version

theorem Tracks.next (h : Tracks p s₀ past s) {op : Op} (htyped : (s.next p op).LiveTyped)
    (hadv : Advances p s₀ past s (s.next p op)) :
    Tracks p s₀ (past ++ [op]) (s.next p op) := by
  have hrun : s.next p op = Runs.exec (Store.next p) s₀ (past ++ [op]) := by
    rw [Runs.exec_concat, ← h.run]
  have hnow : ∀ {c}, (s.next p op).current p = some c → Known p s₀ (past ++ [op]) c := fun hc ↦
    known_concat_iff.2 (.inr (hrun ▸ hc))
  refine ⟨hrun, htyped, fun f hf ↦ ?_, fun hempty ↦ (h.empty (hadv.empty hempty)).mono op, ?_⟩
  · rcases hadv.files f hf with hf | ⟨c, hread, hc⟩
    · obtain ⟨c, hread, hknown⟩ := h.files f hf
      exact ⟨c, hread, hknown.mono op⟩
    · exact ⟨c, hread, hnow hc⟩
  · intro c c' hc hc' hversion
    rw [known_concat_iff, ← hrun] at hc hc'
    rcases hc with hc | hc <;> rcases hc' with hc' | hc'
    · exact h.unique c c' hc hc' hversion
    · rcases hadv.current c' hc' with hold | hnew
      · exact h.unique c c' hc hold hversion
      · exact absurd hversion (hnew c hc).ne
    · rcases hadv.current c hc with hold | hnew
      · exact h.unique c c' hold hc' hversion
      · exact absurd hversion (hnew c' hc').ne'
    · exact Option.some.inj (hc.symm.trans hc')

/-- A store with files of the old one, whose current configuration is the old one or what it loads. -/
theorem Tracks.advances (h : Tracks p s₀ past s) {t : Store}
    (hfiles : ∀ f, t.HasFile f → s.HasFile f) (hempty : t.candidates = [] → s.candidates = [])
    (hcurrent : ∀ c, t.current p = some c → s.current p = some c ∨ t.fromFiles p = some c) :
    Advances p s₀ past s t where
  files f hf := .inl (hfiles f hf)
  empty := hempty
  current c hc := by
    rcases hcurrent c hc with hc | hc
    · obtain ⟨c', hc', hknown⟩ := h.current
      obtain rfl := Option.some.inj (hc.symm.trans hc')
      exact .inl hknown
    · obtain ⟨c', hc', hknown⟩ := h.fromFiles hfiles hempty
      obtain rfl := Option.some.inj (hc.symm.trans hc')
      exact .inl hknown

theorem Tracks.advances_self (h : Tracks p s₀ past s) : Advances p s₀ past s s :=
  h.advances (fun _ ↦ id) id fun _ hc ↦ .inl hc

@[simp] theorem load_main : (s.load p).main = s.main := by
  unfold Store.load
  split <;> rfl

@[simp] theorem load_backups : (s.load p).backups = s.backups := by
  unfold Store.load
  split <;> rfl

/-- After a reload, what the files hold is current. -/
theorem reload_current : (s.reload p).current p = s.fromFiles p := by
  have hstart : (⟨none, false, s.main, s.backups⟩ : Store).current p = s.fromFiles p := rfl
  unfold Store.reload Store.load
  split
  · next c hc => exact hc.symm.trans hstart
  · exact hstart

/-- A reload, perhaps from other files that were there. -/
theorem Tracks.advances_reload (h : Tracks p s₀ past s) {t : Store}
    (hfiles : ∀ f, t.HasFile f → s.HasFile f) (hempty : t.candidates = [] → s.candidates = []) :
    Advances p s₀ past s (t.reload p) := by
  refine h.advances (fun f hf ↦ hfiles f ?_) (fun hcand ↦ hempty ?_) fun c hc ↦ .inr ?_
  · simpa [Store.HasFile, Store.reload] using hf
  · simpa [Store.candidates, Store.reload] using hcand
  · rw [reload_current] at hc
    rw [← hc]
    simp [Store.fromFiles, Store.candidates, Store.reload]

/-- The files after the backups have been rotated and a file has been put into slot 0. -/
theorem hasFile_of_rotated {f g : File} (hg : s.HasFile g)
    (h : ∃ i, Function.update (rotateBackups s.backups) 0 (some g) i = some f) : s.HasFile f := by
  obtain ⟨i, hi⟩ := h
  rw [Function.update_apply] at hi
  split_ifs at hi
  · obtain rfl := Option.some.inj hi
    exact hg
  · obtain ⟨k, hk⟩ := exists_of_rotateBackups hi
    exact .inr ⟨k, hk⟩

/-- With other files, what is current is what was, or what is loaded. -/
theorem current_of_same_memory {t : Store} (hlive : t.live = s.live) (hfresh : t.fresh = s.fresh)
    {c : GatewayConfig} (hc : t.current p = some c) :
    s.current p = some c ∨ t.fromFiles p = some c := by
  unfold Store.current at hc ⊢
  rw [hlive, hfresh] at hc
  generalize s.live = live at hc ⊢
  generalize s.fresh = fresh at hc ⊢
  rcases live with - | c' <;> rcases fresh with - | -
  · exact .inr hc
  · exact .inr hc
  · exact .inr hc
  · exact .inl hc

theorem Tracks.advances_restore (h : Tracks p s₀ past s) (slot : ℤ) :
    Advances p s₀ past s (s.restore p slot).1 := by
  unfold Store.restore
  split
  · exact h.advances_self
  · next f hf =>
    split
    · exact h.advances_self
    · simp only
      split
      · -- there is no `config.json` to keep, but the backups have moved
        next hmain =>
        refine h.advances ?_ ?_ fun c hc ↦ current_of_same_memory (s := s)
          (t := { s with backups := rotateBackups s.backups }) rfl rfl hc
        · rintro g (hg | ⟨i, hi⟩)
          · exact .inl hg
          · exact .inr (exists_of_rotateBackups hi)
        · intro hcand
          rw [Store.candidates_eq_nil_iff] at hcand ⊢
          exact ⟨hcand.1, fun hb ↦ hcand.2 (hasBackup_rotateBackups hb)⟩
      · next g hg =>
        have hbackup : s.HasFile f := by
          unfold Store.backupAt at hf
          split_ifs at hf
          exact .inr ⟨_, hf⟩
        refine h.advances_reload ?_ ?_
        · rintro f' (hf' | hf')
          · obtain rfl := Option.some.inj hf'
            exact hbackup
          · exact hasFile_of_rotated (.inl hg) hf'
        · intro hcand
          have hnone := (Store.candidates_eq_nil_iff.1 hcand).1
          cases hnone

/-- What a handler works with once the configuration is loaded. -/
theorem loaded_eq {c : GatewayConfig} (hc : s.current p = some c) (live : GatewayConfig) :
    ({ s.load p with live := some live } : Store) = ⟨some live, true, s.main, s.backups⟩ := by
  simp [Store.load, hc]

/-- `save_config` under the highest known number. -/
theorem Tracks.advances_save (h : Tracks p s₀ past s) {c live new : GatewayConfig} {shared : Bool}
    (hc : s.current p = some c) (htyped : new.Typed) (hversion : new.version = c.version)
    (hlive : shared = false → live = c) (hmax : ∀ c', Known p s₀ past c' → c'.version ≤ c.version) :
    Advances p s₀ past s
      (({ s.load p with live := some live } : Store).save new shared).1 := by
  rw [loaded_eq hc]
  have hbumped : ({ new with version := new.version + 1 } : GatewayConfig).Typed :=
    ⟨htyped.keys, htyped.models⟩
  have hnew : ∀ c', Known p s₀ past c' → c'.version < new.version + 1 := fun c' hc' ↦ by
    have := hmax c' hc'
    omega
  let s₁ : Store := ⟨some live, true, s.main, s.backups⟩
  have hkept : ∀ f, (∃ i, s₁.keptBackups i = some f) → s.HasFile f := fun f hf ↦ by
    rcases hmain : s.main with - | g
    · simp only [s₁, Store.keptBackups, hmain] at hf
      exact .inr hf
    · simp only [s₁, Store.keptBackups, hmain] at hf
      exact hasFile_of_rotated (.inl hmain) hf
  by_cases henc : ({ new with version := new.version + 1 } : GatewayConfig).dump.encodable = true
  · -- what is written is what is current, under a new number
    have hsave : (s₁.save new shared).1 = ⟨some { new with version := new.version + 1 }, true,
        some (.json ({ new with version := new.version + 1 } : GatewayConfig).dump),
        s₁.keptBackups⟩ := by
      rw [Store.save, if_pos henc]
    rw [hsave]
    refine ⟨?_, fun hcand ↦ ?_, fun c' hc' ↦ .inr fun c'' hc'' ↦ ?_⟩
    · rintro f (hf | hf)
      · obtain rfl := Option.some.inj hf
        exact .inr ⟨_, parseConfig_dump p _ hbumped henc, rfl⟩
      · exact .inl (hkept f hf)
    · cases (Store.candidates_eq_nil_iff.1 hcand).1
    · obtain rfl := Option.some.inj hc'
      exact hnew c'' hc''
  · have hsave : (s₁.save new shared).1 = ⟨if shared then some { new with version := new.version + 1 }
        else some live, s.main.isNone, none, s₁.keptBackups⟩ := by
      rw [Store.save, if_neg henc]
      rfl
    rw [hsave]
    -- the live object is the current one only if nothing has moved
    have hfiles : ∀ (live : Option GatewayConfig) (fresh : Bool) (f : File),
        (⟨live, fresh, none, s₁.keptBackups⟩ : Store).HasFile f → s.HasFile f := by
      rintro live fresh f (hf | hf)
      · cases hf
      · exact hkept f hf
    have hempty : ∀ (live : Option GatewayConfig) (fresh : Bool),
        (⟨live, fresh, none, s₁.keptBackups⟩ : Store).candidates = [] → s.candidates = [] := by
      intro live fresh hcand
      have hnone := (Store.candidates_eq_nil_iff.1 hcand).2
      rcases hmain : s.main with - | g
      · simp only [s₁, Store.keptBackups, hmain] at hnone
        exact Store.candidates_eq_nil_iff.2 ⟨hmain, hnone⟩
      · refine absurd ⟨0, by decide, ?_⟩ hnone
        simp [s₁, Store.keptBackups, hmain]
    rcases hmain : s.main with - | g
    · refine ⟨fun f hf ↦ .inl (hfiles _ _ f hf), hempty _ _, fun c' hc' ↦ ?_⟩
      cases shared with
      | true =>
        obtain rfl := Option.some.inj hc'
        exact .inr hnew
      | false =>
        obtain rfl : live = c' := Option.some.inj hc'
        obtain ⟨c'', hc'', hknown⟩ := h.current
        obtain rfl := Option.some.inj (hc.symm.trans hc'')
        exact .inl (hlive rfl ▸ hknown)
    · refine h.advances (hfiles _ _) (hempty _ _) fun c' hc' ↦ .inr ?_
      unfold Store.current at hc'
      split at hc'
      · next hfresh => cases hfresh
      · exact hc'

theorem Tracks.advances_edit (h : Tracks p s₀ past s) {e : Edit}
    (he : (Op.edit e).Sound p s₀ past s) : Advances p s₀ past s (s.edit p e).1 := by
  rcases edit_cases p s e with ⟨-, heq⟩ | ⟨c, hc, hresult⟩
  · rw [heq]
    exact h.advances_self
  · obtain ⟨hproper, hclean, hmax⟩ := he c hc
    have htyped := current_typed h.typed hc
    rcases hresult with ⟨hverdict, heq⟩ | ⟨c', hverdict, heq⟩ | ⟨hverdict, heq⟩
    · rw [heq]
      exact h.advances_save hc (handle_live_typed htyped hproper) (handle_version p c e)
        (fun h ↦ by cases h) (hmax (by rw [hverdict]; rfl))
    · obtain ⟨hlive, hversion⟩ := handle_saveNew hverdict
      rw [heq]
      exact h.advances_save hc (handle_saveNew_typed htyped hverdict) hversion (fun _ ↦ hlive)
        (hmax (by rw [hverdict]; rfl))
    · have hlive := live_of_clean hclean fun hsave ↦ by
        rw [hsave] at hverdict
        cases hverdict
      rw [heq, loaded_eq hc, hlive]
      exact h.advances (fun _ ↦ id) id fun c' hc' ↦ .inl (hc.trans hc')

/-- **One step.** A sound operation keeps track. -/
theorem tracks_next (h : Tracks p s₀ past s) {op : Op} (hop : op.Sound p s₀ past s) :
    Tracks p s₀ (past ++ [op]) (s.next p op) := by
  have hproper : op.Proper p s := by
    cases op with
    | edit e => exact fun c hc ↦ (hop c hc).1
    | _ => trivial
  refine h.next (liveTyped_next h.typed hproper) ?_
  cases op with
  | edit e => exact h.advances_edit hop
  | restore slot => exact h.advances_restore slot
  | reload => exact h.advances_reload (fun _ ↦ id) id
  | restart => exact h.advances (fun _ ↦ id) id fun _ hc ↦ .inr hc

/-! ### Runs -/

/-- At the start, what is known is what the process loads and what is in the files. -/
theorem tracks_start {main : Option File} {backups : ℕ → Option File}
    (h : (Store.start main backups).Consistent p) :
    Tracks p (.start main backups) [] (.start main backups) := by
  have hknown : ∀ c, Known p (.start main backups) [] c →
      (∃ f, (Store.start main backups).HasFile f ∧ f.read p = .ok c) ∨
        (Store.start main backups).candidates = [] ∧ c = .empty := by
    rintro c (⟨before, hbefore, hc⟩ | hfile)
    · obtain rfl := List.prefix_nil.1 hbefore
      change (Store.start main backups).fromFiles p = some c at hc
      unfold Store.fromFiles at hc
      rcases hcand : (Store.start main backups).candidates with - | ⟨f, fs⟩
      · rw [hcand] at hc
        exact .inr ⟨rfl, (Option.some.inj hc).symm⟩
      · have hf : (Store.start main backups).HasFile f :=
          Store.hasFile_of_mem_candidates (by rw [hcand]; exact List.mem_cons_self)
        obtain ⟨c', hread⟩ := h.readable f hf
        rw [hcand] at hc
        simp only [firstValid, hread, Option.getD_some, Option.some.injEq] at hc
        exact .inl ⟨f, hf, hc ▸ hread⟩
    · exact .inl hfile
  have hnone : (Store.start main backups).candidates = [] →
      ∀ f, ¬ (Store.start main backups).HasFile f := by
    intro hcand f hf
    obtain ⟨hmain, hbackup⟩ := Store.candidates_eq_nil_iff.1 hcand
    rcases hf with hf | ⟨i, hi⟩
    · rw [hmain] at hf
      cases hf
    · rcases Nat.lt_or_ge i backupKeep with hlt | hge
      · exact hbackup ⟨i, hlt, by rw [hi]; rfl⟩
      · rw [h.slots i hge] at hi
        cases hi
  -- two configurations of one version are read from one file, or there is none at all
  refine ⟨rfl, fun c hc ↦ (by cases hc), fun f hf ↦ ?_, fun hcand ↦ ?_, fun c c' hc hc' hversion ↦ ?_⟩
  · obtain ⟨c, hread⟩ := h.readable f hf
    exact ⟨c, hread, .inr ⟨f, hf, hread⟩⟩
  · refine .inl ⟨[], List.prefix_rfl, ?_⟩
    show (Store.start main backups).fromFiles p = _
    rw [Store.fromFiles, hcand]
    rfl
  · rcases hknown c hc with ⟨f, hf, hread⟩ | ⟨hcand, rfl⟩ <;>
      rcases hknown c' hc' with ⟨f', hf', hread'⟩ | ⟨hcand', rfl⟩
    · exact h.unique f f' c c' hf hf' hread hread' hversion
    · exact absurd hf (hnone hcand' f)
    · exact absurd hf' (hnone hcand f')
    · rfl

/-- The version check is sound in a run: two configurations that were current under one number are
the same one, and a `put_config` that succeeds and carries the number of a configuration that was
current finds that configuration. -/
structure VersionSound (p : Pydantic) (s₀ : Store) (ops : List Op) : Prop where
  unique : ∀ c c', WasCurrent p s₀ ops c → WasCurrent p s₀ ops c' → c.version = c'.version → c = c'
  accepted : Runs.Every (Store.next p) (fun past s op ↦ ∀ d v c,
    op = .edit (.putConfig (.obj d)) → get? d (py "version") = some v → v ≠ .null →
    (s.apply p op).2 = true → WasCurrent p s₀ past c → versionEq c.version v = true →
    s.current p = some c) s₀ ops

/-- A `put_config` that succeeds carries the current number, if it carries one. -/
theorem versionEq_of_put {d : PyDict} {v : Json} (hv : get? d (py "version") = some v)
    (hne : v ≠ .null) (hok : (s.edit p (.putConfig (.obj d))).2 = true) {c : GatewayConfig}
    (hc : s.current p = some c) : versionEq c.version v = true := by
  by_contra hversion
  have hreject : (handle p c (.putConfig (.obj d))).verdict =
      .reject 409 (py "config changed since load (conflict)") := by
    have hfalse := Bool.not_eq_true _ ▸ hversion
    simp only [handle, putConfig, hv, Option.getD_some]
    rw [if_pos ⟨hne, hfalse⟩]
  rw [Store.edit, hc] at hok
  simp only [hreject] at hok
  cases hok

/-- Two numbers that compare equal to the same value are equal. -/
theorem eq_of_versionEq {m n : ℤ} {v : Json} (hm : versionEq m v = true) (hn : versionEq n v = true) :
    m = n := by
  unfold versionEq at hm hn
  have heq := (of_decide_eq_true hm).symm.trans (of_decide_eq_true hn)
  exact_mod_cast Option.some.inj heq

theorem Tracks.known_unique (h : Tracks p s₀ past s) {c c' : GatewayConfig}
    (hc : WasCurrent p s₀ past c) (hc' : WasCurrent p s₀ past c') (hversion : c.version = c'.version) :
    c = c' :=
  h.unique c c' (.inl hc) (.inl hc') hversion

/-- **The version check is sound in sound runs.** The files at the start hold one configuration for
each number, and every edit assigns values of the declared types, changes nothing unless it is
saved, and is saved only under the highest known number. -/
theorem versionSound_of_sound (p : Pydantic) (main : Option File) (backups : ℕ → Option File)
    (hstart : (Store.start main backups).Consistent p) (ops : List Op)
    (h : Runs.Every (Store.next p) (Op.Sound p (.start main backups)) (.start main backups) ops) :
    VersionSound p (.start main backups) ops := by
  have hstep : ∀ past s op, Tracks p (.start main backups) past s →
      op.Sound p (.start main backups) past s →
      Tracks p (.start main backups) (past ++ [op]) (s.next p op) :=
    fun _ _ _ htracks hop ↦ tracks_next htracks hop
  constructor
  · have hend := Runs.exec_invariant (Tracks p (.start main backups)) (tracks_start hstart) hstep h
    exact fun c c' ↦ hend.known_unique
  · refine Runs.every_of_invariant (Tracks p (.start main backups)) (tracks_start hstart) hstep ?_ h
    rintro past s op htracks - d v c rfl hv hne hok hc hversion
    obtain ⟨c', hcurrent, hknown⟩ := htracks.current
    have heq := eq_of_versionEq hversion (versionEq_of_put hv hne hok hcurrent)
    rw [hcurrent, htracks.unique c c' (.inl hc) hknown heq]

/-- A gateway that finds no files, and creates its first model. -/
theorem versionSound_sample :
    VersionSound .strict (.start none fun _ ↦ none) [createSample, .reload, .restart] := by
  refine versionSound_of_sound .strict none _ ⟨fun _ _ ↦ rfl, ?_, ?_⟩ _ ?_
  · rintro f (hf | ⟨i, hf⟩) <;> cases hf
  · rintro f _ _ _ (hf | ⟨i, hf⟩) <;> cases hf
  · rintro past op future heq
    rcases past with - | ⟨op₁, past⟩
    · obtain ⟨rfl, -⟩ := List.cons_eq_cons.1 heq
      rintro c hc
      refine ⟨trivial, ⟨trivial, fun id d hd ↦ by cases hd⟩, fun _ c' hknown ↦ ?_⟩
      obtain rfl : GatewayConfig.empty = c := Option.some.inj hc
      rcases hknown with ⟨before, hbefore, hc'⟩ | ⟨f, hf | ⟨i, hf⟩, -⟩
      · obtain rfl := List.prefix_nil.1 hbefore
        obtain rfl : GatewayConfig.empty = c' := Option.some.inj hc'
        exact le_rfl
      · cases hf
      · cases hf
    · obtain ⟨-, heq⟩ := List.cons_eq_cons.1 heq
      have hmem : op ∈ [Op.reload, .restart] := by
        rw [heq]
        simp
      simp only [List.mem_cons, List.not_mem_nil, or_false] at hmem
      rcases hmem with rfl | rfl <;> trivial

/-- A model with the given name. -/
def createNamed (name : String) : Op :=
  .edit (.createModel (.obj [(py "id", .str (py name))]))

/-- **The version check is not sound after a restore.** Model `b` is created under number 2, the
backup with number 1 is restored, and model `c` is created under number 2 again. -/
theorem not_versionSound :
    ¬ VersionSound .strict (.start none fun _ ↦ none)
      [createNamed "a", createNamed "b", .restore 0, createNamed "c"] := by
  intro h
  let after (ops : List Op) := (Runs.exec (Store.next .strict) (.start none fun _ ↦ none) ops).current
    .strict
  have hboth : ((after [createNamed "a", createNamed "b"]).bind fun c ↦
      (after [createNamed "a", createNamed "b", .restore 0, createNamed "c"]).map fun c' ↦
        decide (c.version = c'.version ∧ c.models ≠ c'.models)) = some true := by
    decide +kernel
  obtain ⟨c, hc, hboth⟩ := Option.bind_eq_some_iff.1 hboth
  obtain ⟨c', hc', hboth⟩ := Option.map_eq_some_iff.1 hboth
  obtain ⟨hversion, hmodels⟩ := of_decide_eq_true hboth
  have heq := h.unique c c' ⟨_, ⟨[.restore 0, createNamed "c"], rfl⟩, hc⟩ ⟨_, List.prefix_rfl, hc'⟩ hversion
  exact hmodels (by rw [heq])

end LocalGateway
