import LocalGateway.Config.Disk

/-!
# Saves that are cut short

Each save of a run completes, or a crash cuts it after any of its file operations and the process is
started again. Until its last operation a save leaves the configuration it replaces where the loader
looks first, in `config.json` or, when that is gone, in slot 0 (`Disk.Newest`). So a crash costs at
most the save it cuts, however many crashes there were before and whatever holes they left among the
backups.

The loader skips what is not valid, though, and a configuration that is saved need not be: the exact
condition for a save that completes is that the configuration is typed (`recovers_completed_iff`).
-/

namespace LocalGateway

open Runs Py Json

/-! ### What is served -/

/-- The first file the loader tries is read as this configuration: it is `config.json`, or there is
none and it is the newest backup. -/
def Disk.Serves (p : Pydantic) (c : GatewayConfig) (d : Disk) : Prop :=
  ∃ f : File, f.read p = .ok c ∧ d.Newest f

/-! ### Runs -/

/-- A save that completes, which it only does with a value that can be encoded, or one that is cut
after some of its operations. -/
inductive SaveEvent
  | completed (c : GatewayConfig) (parts : List File) (h : c.bump.dump.encodable = true)
  | cut (c : GatewayConfig) (parts : List File) (operations : ℕ)

/-- The files, the configuration of the last save that completed, and those of the saves that were cut
since. -/
structure SaveRun where
  disk : Disk
  last : GatewayConfig
  cut : List GatewayConfig

namespace SaveRun

/-- After a save, and the restart if it was cut. -/
def next (w : SaveRun) : SaveEvent → SaveRun
  | .completed c parts _ => ⟨exec Disk.apply w.disk (w.disk.saveOps c parts), c.bump, []⟩
  | .cut c parts operations =>
    ⟨exec Disk.apply w.disk ((w.disk.saveOps c parts).take operations), w.last, c.bump :: w.cut⟩

/-- A process that is started now loads the configuration of the last save that completed, or of one
that was cut since. -/
def Recovers (p : Pydantic) (w : SaveRun) : Prop :=
  ∃ c, w.disk.store.current p = some c ∧ (c = w.last ∨ c ∈ w.cut)

/-- What has become `config.json` is typed. -/
def Sound (w : SaveRun) : SaveEvent → Prop
  | .completed c _ _ => c.Typed
  | .cut c parts operations =>
    DiskOp.replace ∈ (w.disk.saveOps c parts).take operations → c.Typed

end SaveRun

/-! ### One save -/

namespace Disk

variable {p : Pydantic} {d : Disk} {c c₀ : GatewayConfig} {f : File} {parts : List File}

/-- What is served is what a process that is started loads. -/
theorem current_of_serves (h : d.Serves p c) : d.store.current p = some c := by
  obtain ⟨f, hread, hfile⟩ := h
  have hfirst : ∃ fs, d.store.candidates = f :: fs := by
    rcases hfile with hmain | ⟨hmain, hslot⟩
    · exact ⟨_, by rw [Store.candidates, store, Store.start, hmain]; rfl⟩
    · refine ⟨(List.range 4).filterMap fun i ↦ d.backups (i + 1), ?_⟩
      rw [Store.candidates, store, Store.start, hmain]
      show (List.range backupKeep).filterMap d.backups = _
      rw [show backupKeep = 4 + 1 from rfl, List.range_succ_eq_map, List.filterMap_cons, hslot,
        List.filterMap_map]
      rfl
  obtain ⟨fs, hfirst⟩ := hfirst
  show d.store.fromFiles p = some c
  rw [Store.fromFiles, hfirst, firstValid, hread]
  rfl

theorem bump_typed (h : c.Typed) : c.bump.Typed :=
  ⟨h.keys, h.models⟩

/-- What a save writes is read back, if it is typed. -/
theorem read_saved (p : Pydantic) (hc : c.Typed) (henc : c.bump.dump.encodable = true) :
    (File.json c.bump.dump).read p = .ok c.bump :=
  parseConfig_dump p _ (bump_typed hc) henc

/-- A save that completes serves its configuration, if that is typed. -/
theorem serves_saveOps (d : Disk) (parts : List File) (hc : c.Typed)
    (henc : c.bump.dump.encodable = true) :
    (exec apply d (d.saveOps c parts)).Serves p c.bump :=
  ⟨_, read_saved p hc henc, .inl (exec_saveOps_main d parts henc)⟩

/-- **A crash at any point of a save.** After its first operations, what was served before is served
still, or the save has come to its end. -/
theorem serves_of_prefix (h : d.Serves p c₀) {l : List DiskOp} (hl : l <+: d.saveOps c parts)
    (htyped : DiskOp.replace ∈ l → c.Typed) :
    (exec apply d l).Serves p c₀ ∨ (exec apply d l).Serves p c.bump := by
  obtain ⟨f, hread, hnewest⟩ := h
  cases stage_of_prefix hnewest hl with
  | before _ hmain => exact .inl ⟨f, hread, .inl hmain⟩
  | between _ hmain hslot => exact .inl ⟨f, hread, .inr ⟨hmain, hslot⟩⟩
  | after _ hreplaced henc hmain _ =>
    exact .inr ⟨_, read_saved p (htyped hreplaced) henc, .inl hmain⟩

end Disk

theorem oneModel_typed : oneModel.Typed := by
  refine ⟨GatewayConfig.empty_typed.keys, fun m hm ↦ ?_⟩
  obtain rfl := List.mem_singleton.1 hm
  exact ⟨defaultFields_typed modelClass.defaults (by decide), by decide, fun _ h ↦ by cases h⟩

/-! ### Every crash of a run -/

namespace SaveRun

variable {p : Pydantic} {w : SaveRun}

/-- What is served is the configuration of the last save that completed, or of one that was cut
since. -/
def Serves (p : Pydantic) (w : SaveRun) : Prop :=
  ∃ c, w.disk.Serves p c ∧ (c = w.last ∨ c ∈ w.cut)

theorem Serves.recovers (h : w.Serves p) : w.Recovers p := by
  obtain ⟨c, hserves, hc⟩ := h
  exact ⟨c, Disk.current_of_serves hserves, hc⟩

theorem Serves.next (h : w.Serves p) {e : SaveEvent} (he : w.Sound e) : (w.next e).Serves p := by
  obtain ⟨c₀, hserves, hc₀⟩ := h
  cases e with
  | completed c parts henc => exact ⟨_, Disk.serves_saveOps w.disk parts he henc, .inl rfl⟩
  | cut c parts n =>
    rcases Disk.serves_of_prefix hserves (List.take_prefix n _) he with h | h
    · exact ⟨c₀, h, hc₀.imp_right (List.mem_cons_of_mem _)⟩
    · exact ⟨_, h, .inr List.mem_cons_self⟩

/-- After a save that completed, its configuration is loaded if and only if it is typed. -/
theorem recovers_completed_iff {c : GatewayConfig} {parts : List File}
    (henc : c.bump.dump.encodable = true) :
    (w.next (.completed c parts henc)).Recovers p ↔ c.Typed := by
  constructor
  · rintro ⟨c', hcurrent, hc'⟩
    obtain rfl : c' = c.bump := hc'.resolve_right List.not_mem_nil
    have htyped := current_typed (fun _ h ↦ by cases h) hcurrent
    exact ⟨htyped.keys, htyped.models⟩
  · exact fun hc ↦ ⟨_, Disk.current_of_serves (Disk.serves_saveOps w.disk parts hc henc), .inl rfl⟩

/-- **Saves are atomic.** From a valid `config.json` and any backups, in a run of saves that complete or
are cut anywhere, where what becomes `config.json` is typed: a process that is started afterwards loads
the configuration of the last save that completed, or of one that was cut since. -/
theorem recovers_exec (p : Pydantic) {d : Disk} {f : File} {c₀ : GatewayConfig}
    (hmain : d.main = some f) (hread : f.read p = .ok c₀) {events : List SaveEvent}
    (h : Every next (fun _ w e ↦ w.Sound e) ⟨d, c₀, []⟩ events) :
    (exec next ⟨d, c₀, []⟩ events).Recovers p := by
  have hserves : (exec next ⟨d, c₀, []⟩ events).Serves p :=
    exec_invariant (fun _ w ↦ w.Serves p) ⟨c₀, ⟨f, hread, .inl hmain⟩, .inl rfl⟩
      (fun _ _ _ hw he ↦ hw.next he) h
  exact hserves.recovers

/-- The files of a gateway without models. -/
def freshDisk : Disk :=
  ⟨some (.json GatewayConfig.empty.dump), none, fun _ ↦ none⟩

/-- A crash after `config.json` was put away, and one after the next save wrote a part of its text. -/
theorem recovers_exec_sample :
    (exec next ⟨freshDisk, .empty, []⟩
      [.cut oneModel [] 1, .cut oneModel [.garbage] 1, .completed oneModel [.garbage] rfl,
        .cut .empty [.garbage] 2]).Recovers .strict := by
  refine recovers_exec .strict (f := .json GatewayConfig.empty.dump) rfl rfl fun past e future heq ↦ ?_
  have hmem : e ∈ [.cut oneModel [] 1, .cut oneModel [.garbage] 1,
      .completed oneModel [.garbage] rfl, .cut .empty [.garbage] 2] := by
    rw [heq]
    simp
  simp only [List.mem_cons, List.not_mem_nil, or_false] at hmem
  rcases hmem with rfl | rfl | rfl | rfl
  · exact fun _ ↦ oneModel_typed
  · exact fun _ ↦ oneModel_typed
  · exact oneModel_typed
  · exact fun _ ↦ GatewayConfig.empty_typed

/-- The model, with a number among its tags. -/
def numberTag : GatewayConfig :=
  { GatewayConfig.empty with
    models := [⟨py "m", [], .empty,
      setKey (defaultFields modelClass.specs) (py "tags") (.arr [.int 1])⟩] }

/-- **A save that completes may be lost.** The loader rejects what was saved and falls back to the
configuration before. -/
theorem not_recovers_numberTag :
    ¬ (exec next ⟨freshDisk, .empty, []⟩ [.completed numberTag [] rfl]).Recovers .strict := by
  intro h
  have henc : numberTag.bump.dump.encodable = true := rfl
  have htyped : numberTag.Typed := (recovers_completed_iff henc).1 h
  have hdump := parseConfig_dump .strict numberTag htyped rfl
  have hinvalid : parseConfig .strict numberTag.dump = .error .invalid := rfl
  rw [hinvalid] at hdump
  cases hdump

end SaveRun

end LocalGateway
