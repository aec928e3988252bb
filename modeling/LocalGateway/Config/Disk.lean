import LocalGateway.Config.Interleaving

/-!
# The file operations of a save

`save_config` as the operations it performs one after the other: the backups move up slot by slot,
`config.json` is renamed into slot 0, the new text is written to a temporary file, and that replaces
`config.json`. The tests for existence are made by the process that saves, which sees its own changes
only, so they are settled when the operations are listed.

`exec_saveOps` connects them with the store: all operations together do to the files what
`Store.save` does. `stage_of_prefix` says what the files are after some of them: the old `config.json`
is in its place, or in slot 0 with nothing or the new one in its place.
-/

namespace LocalGateway

open Runs

/-! ### Operations -/

/-- The files of the configuration. -/
structure Disk where
  main : Option File
  tmp : Option File
  backups : ℕ → Option File

/-- An operation of `save_config` on the files. -/
inductive DiskOp
  /-- `_backup_at(slot).unlink()`. -/
  | unlink (slot : ℕ)
  /-- `_backup_at(slot).rename(_backup_at(slot + 1))`. -/
  | shift (slot : ℕ)
  /-- `_config_path.rename(_backup_path())`. -/
  | retire
  /-- What the temporary file holds becomes this. -/
  | write (f : File)
  /-- `os.replace(tmp, _config_path)`. -/
  | replace

namespace Disk

/-- The files after an operation. -/
def apply (d : Disk) : DiskOp → Disk
  | .unlink slot => { d with backups := Function.update d.backups slot none }
  | .shift slot =>
    { d with
      backups := Function.update (Function.update d.backups (slot + 1) (d.backups slot)) slot none }
  | .retire => { d with main := none, backups := Function.update d.backups 0 d.main }
  | .write f => { d with tmp := some f }
  | .replace => { d with main := d.tmp, tmp := none }

/-- One round of the loop of `_rotate_backups`. -/
def shiftOps (backups : ℕ → Option File) (slot : ℕ) : List DiskOp :=
  match backups slot with
  | none => []
  | some _ => (if (backups (slot + 1)).isSome then [.unlink (slot + 1)] else []) ++ [.shift slot]

/-- The loop of `_rotate_backups`. -/
def rotateLoop (d : Disk) : List ℕ → List DiskOp
  | [] => []
  | slot :: slots =>
    shiftOps d.backups slot ++ rotateLoop (exec apply d (shiftOps d.backups slot)) slots

/-- `_rotate_backups`. -/
def rotateOps (d : Disk) : List DiskOp :=
  let extra := if (d.backups backupKeep).isSome then [DiskOp.unlink backupKeep] else []
  extra ++ rotateLoop (exec apply d extra) (List.range (backupKeep - 1)).reverse

/-- What is done to the old files, if there is a `config.json`. -/
def retireOps (d : Disk) : List DiskOp :=
  if d.main.isSome then rotateOps d ++ [.retire] else []

/-- What is done to the new one; `parts` is what the temporary file holds while it is written. A value
that cannot be encoded raises. -/
def writeOps (c : GatewayConfig) (parts : List File) : List DiskOp :=
  parts.map .write ++
    if c.bump.dump.encodable then [.write (.json c.bump.dump), .replace] else []

/-- `save_config`. -/
def saveOps (d : Disk) (c : GatewayConfig) (parts : List File) : List DiskOp :=
  retireOps d ++ writeOps c parts

/-- A process that is started with these files. -/
def store (d : Disk) : Store :=
  .start d.main d.backups

end Disk

/-! ### Operations that leave some files alone -/

/-- The operation is one of the rotation. -/
def DiskOp.Rotates : DiskOp → Prop
  | .unlink _ | .shift _ => True
  | _ => False

/-- The operation writes to the temporary file. -/
def DiskOp.Writes : DiskOp → Prop
  | .write _ => True
  | _ => False

namespace Disk

variable {d : Disk} {ops : List DiskOp}

theorem exec_rotates (h : ∀ op ∈ ops, op.Rotates) :
    (exec apply d ops).main = d.main ∧ (exec apply d ops).tmp = d.tmp := by
  induction ops generalizing d with
  | nil => exact ⟨rfl, rfl⟩
  | cons op ops ih =>
    obtain ⟨hop, hops⟩ := List.forall_mem_cons.1 h
    have hrest : (exec apply d (op :: ops)).main = (d.apply op).main ∧
        (exec apply d (op :: ops)).tmp = (d.apply op).tmp := ih hops
    rcases op with slot | slot | - | f | -
    · exact hrest
    · exact hrest
    all_goals exact absurd hop id

theorem exec_writes (h : ∀ op ∈ ops, op.Writes) :
    (exec apply d ops).main = d.main ∧ (exec apply d ops).backups = d.backups := by
  induction ops generalizing d with
  | nil => exact ⟨rfl, rfl⟩
  | cons op ops ih =>
    obtain ⟨hop, hops⟩ := List.forall_mem_cons.1 h
    have hrest : (exec apply d (op :: ops)).main = (d.apply op).main ∧
        (exec apply d (op :: ops)).backups = (d.apply op).backups := ih hops
    rcases op with slot | slot | - | f | -
    · exact absurd hop id
    · exact absurd hop id
    · exact absurd hop id
    · exact hrest
    · exact absurd hop id

theorem writes_of_mem_map (parts : List File) : ∀ op ∈ parts.map DiskOp.write, op.Writes := by
  intro op hop
  obtain ⟨f, -, rfl⟩ := List.mem_map.1 hop
  trivial

theorem shiftOps_rotates (backups : ℕ → Option File) (slot : ℕ) :
    ∀ op ∈ shiftOps backups slot, op.Rotates := by
  intro op hop
  unfold shiftOps at hop
  split at hop
  · cases hop
  · rcases List.mem_append.1 hop with hop | hop
    · split_ifs at hop
      · rw [List.mem_singleton.1 hop]
        trivial
      · cases hop
    · rw [List.mem_singleton.1 hop]
      trivial

theorem rotateLoop_rotates (d : Disk) (slots : List ℕ) : ∀ op ∈ rotateLoop d slots, op.Rotates := by
  induction slots generalizing d with
  | nil => exact fun _ h ↦ by cases h
  | cons slot slots ih =>
    intro op hop
    exact (List.mem_append.1 hop).elim (shiftOps_rotates _ _ op) (ih _ op)

theorem rotateOps_rotates (d : Disk) : ∀ op ∈ rotateOps d, op.Rotates := by
  intro op hop
  rcases List.mem_append.1 hop with hop | hop
  · split_ifs at hop
    · rw [List.mem_singleton.1 hop]
      trivial
    · cases hop
  · exact rotateLoop_rotates _ _ op hop

/-! ### All operations together -/

/-- A round of the loop moves the backup of its slot up. -/
theorem exec_shiftOps (d : Disk) (slot : ℕ) :
    (exec apply d (shiftOps d.backups slot)).backups = shiftUp d.backups slot := by
  unfold shiftOps shiftUp
  rcases hslot : d.backups slot with - | f
  · rfl
  · simp only
    split_ifs
    · -- the slot above is unlinked first, and holds the moved file all the same
      show Function.update (Function.update (Function.update d.backups (slot + 1) none) (slot + 1)
        (Function.update d.backups (slot + 1) none slot)) slot none = _
      rw [Function.update_idem, Function.update_of_ne (Nat.ne_of_lt (Nat.lt_succ_self slot)), hslot]
    · show Function.update (Function.update d.backups (slot + 1) (d.backups slot)) slot none = _
      rw [hslot]

theorem exec_rotateLoop (d : Disk) (slots : List ℕ) :
    (exec apply d (rotateLoop d slots)).backups = slots.foldl shiftUp d.backups := by
  induction slots generalizing d with
  | nil => rfl
  | cons slot slots ih =>
    rw [rotateLoop, exec_append, ih, exec_shiftOps]
    rfl

theorem exec_rotateOps (d : Disk) :
    (exec apply d (rotateOps d)).backups = rotateBackups d.backups := by
  unfold rotateOps rotateBackups
  simp only
  rw [exec_append, exec_rotateLoop]
  split_ifs with hextra
  · rfl
  · -- the last slot is empty anyway
    have hnone : d.backups backupKeep = none := by simpa using hextra
    rw [← hnone, Function.update_eq_self]
    rfl

/-- Once the old files are put away, `config.json` has become the newest backup. -/
theorem exec_retireOps (d : Disk) (live : Option GatewayConfig) (fresh : Bool) :
    (exec apply d (retireOps d)).main = none ∧
      (exec apply d (retireOps d)).backups = (⟨live, fresh, d.main, d.backups⟩ : Store).keptBackups := by
  unfold retireOps Store.keptBackups
  rcases hmain : d.main with - | f
  · exact ⟨hmain, rfl⟩
  · have hrotated := exec_rotates (d := d) (rotateOps_rotates d)
    simp only [Option.isSome_some, if_true, exec_concat, apply]
    rw [exec_rotateOps, hrotated.1, hmain]
    exact ⟨trivial, rfl⟩

/-- **The operations are those of the save**: together they leave the files that `Store.save`
leaves. -/
theorem exec_saveOps (d : Disk) (live : Option GatewayConfig) (fresh : Bool) (c : GatewayConfig)
    (parts : List File) (shared : Bool) :
    let after := ((⟨live, fresh, d.main, d.backups⟩ : Store).save c shared).1
    (exec apply d (saveOps d c parts)).main = after.main ∧
      (exec apply d (saveOps d c parts)).backups = after.backups := by
  intro after
  obtain ⟨hmain, hbackups⟩ := exec_retireOps d live fresh
  obtain ⟨hmain', hbackups'⟩ := exec_writes (d := exec apply d (retireOps d)) (writes_of_mem_map parts)
  have hsave : after.backups = (⟨live, fresh, d.main, d.backups⟩ : Store).keptBackups ∧
      after.main = if c.bump.dump.encodable then some (.json c.bump.dump) else none := by
    simp only [after, Store.save]
    change (if c.bump.dump.encodable = true then _ else _ : Store × Bool).1.backups = _ ∧
      (if c.bump.dump.encodable = true then _ else _ : Store × Bool).1.main = _
    split_ifs <;> exact ⟨rfl, rfl⟩
  rw [saveOps, writeOps, exec_append, exec_append, hsave.1, hsave.2]
  split_ifs
  · exact ⟨rfl, hbackups'.trans hbackups⟩
  · exact ⟨hmain'.trans hmain, hbackups'.trans hbackups⟩

/-- A save of what can be encoded ends with the new `config.json` in its place. -/
theorem exec_saveOps_main (d : Disk) {c : GatewayConfig} (parts : List File)
    (henc : c.bump.dump.encodable = true) :
    (exec apply d (saveOps d c parts)).main = some (.json c.bump.dump) := by
  rw [(exec_saveOps d none false c parts false).1, save_of_encodable henc]
  rfl

/-! ### Some of the operations -/

/-- The first file the loader tries: `config.json`, or the newest backup when there is none. -/
def Newest (d : Disk) (f : File) : Prop :=
  d.main = some f ∨ d.main = none ∧ d.backups 0 = some f

/-- How far a save has come with these operations. -/
inductive Stage (d : Disk) (f : File) (c : GatewayConfig) (l : List DiskOp) : Prop
  | before (kept : DiskOp.retire ∉ l) (main : (exec apply d l).main = some f)
  | between (retired : d.main = none ∨ DiskOp.retire ∈ l) (main : (exec apply d l).main = none)
      (slot : (exec apply d l).backups 0 = some f)
  | after (retired : d.main = none ∨ DiskOp.retire ∈ l) (replaced : DiskOp.replace ∈ l)
      (encodable : c.bump.dump.encodable = true)
      (main : (exec apply d l).main = some (.json c.bump.dump))
      (slot : (exec apply d l).backups 0 = some f)

variable {f : File} {c : GatewayConfig} {parts : List File}

/-- Putting the old files away puts the newest one into slot 0. -/
theorem retireOps_slot (h : d.Newest f) : (exec apply d (retireOps d)).backups 0 = some f := by
  rw [(exec_retireOps d none false).2, Store.keptBackups]
  rcases h with hmain | ⟨hmain, hslot⟩
  · rw [hmain]
    exact Function.update_self ..
  · rw [hmain]
    exact hslot

theorem retired_of_retireOps {l : List DiskOp} (hl : retireOps d <+: l) :
    d.main = none ∨ DiskOp.retire ∈ l := by
  rcases hmain : d.main with - | f
  · exact .inl rfl
  · refine .inr (hl.subset ?_)
    rw [retireOps, hmain]
    simp

/-- The first operations on the new file only write to the temporary one, or they are all and the last
of them is the replacement. -/
theorem writes_or_replace {m : List DiskOp} (hm : m <+: writeOps c parts) :
    (∀ op ∈ m, op.Writes) ∨
      c.bump.dump.encodable = true ∧ m = writeOps c parts ∧ DiskOp.replace ∈ m := by
  unfold writeOps at hm
  split_ifs at hm with henc
  · rw [← List.singleton_append, ← List.append_assoc] at hm
    rcases List.prefix_concat_iff.1 hm with rfl | hm
    · exact .inr ⟨henc, by simp [writeOps, henc], by simp⟩
    · refine .inl fun op hop ↦ ?_
      rcases List.mem_append.1 (hm.subset hop) with hop | hop
      · exact writes_of_mem_map parts op hop
      · rw [List.mem_singleton.1 hop]
        trivial
  · rw [List.append_nil] at hm
    exact .inl fun op hop ↦ writes_of_mem_map parts op (hm.subset hop)

/-- Nothing that is done to the new file touches the backups. -/
theorem exec_writeOps_backups (d : Disk) (c : GatewayConfig) (parts : List File) :
    (exec apply d (writeOps c parts)).backups = d.backups := by
  unfold writeOps
  rw [exec_append]
  split_ifs <;> exact (exec_writes (d := d) (writes_of_mem_map parts)).2

/-- **A save that is under way.** After its first operations it is at one of three stages. -/
theorem stage_of_prefix (h : d.Newest f) {l : List DiskOp} (hl : l <+: d.saveOps c parts) :
    Stage d f c l := by
  have hslot := retireOps_slot h
  have hnone := (exec_retireOps d none false).1
  have hretire : retireOps d <+: d.saveOps c parts := List.prefix_append _ _
  rcases List.prefix_or_prefix_of_prefix hl hretire with hl' | ⟨m, rfl⟩
  · -- the old files are being put away
    have hall : l = retireOps d → Stage d f c l := by
      rintro rfl
      exact .between (retired_of_retireOps (List.prefix_refl _)) hnone hslot
    rcases h with hmain | ⟨hmain, -⟩
    · have hops : retireOps d = rotateOps d ++ [.retire] := by simp [retireOps, hmain]
      rw [hops] at hl'
      rcases List.prefix_concat_iff.1 hl' with heq | hl'
      · exact hall (heq.trans hops.symm)
      · have hrotates : ∀ op ∈ l, op.Rotates := fun op hop ↦ rotateOps_rotates d op (hl'.subset hop)
        exact .before (fun hop ↦ hrotates _ hop) ((exec_rotates hrotates).1.trans hmain)
    · have hops : retireOps d = [] := by simp [retireOps, hmain]
      exact hall (by simpa [hops] using hl')
  · have hretired : d.main = none ∨ DiskOp.retire ∈ retireOps d ++ m :=
      retired_of_retireOps (List.prefix_append _ _)
    rcases writes_or_replace ((List.prefix_append_right_inj _).1 hl) with hm | ⟨henc, rfl, hmem⟩
    · obtain ⟨hmain', hbackups⟩ := exec_writes (d := exec apply d (retireOps d)) hm
      refine .between hretired ?_ ?_
      · rw [exec_append, hmain', hnone]
      · rw [exec_append, hbackups, hslot]
    · refine .after hretired (List.mem_append_right _ hmem) henc (exec_saveOps_main d parts henc) ?_
      rw [exec_append, exec_writeOps_backups, hslot]

end Disk

end LocalGateway
