import LocalGateway.Config.Disk

/-!
# The chain of backups

A save makes `config.json` the newest backup and moves the others up one slot; so does a restore, which
stages the backup it restores first, because that moves with the others.

* `RestoreOp`: the file operations of `restore_backup`, next to those of a save (`Disk.saveOps`).
* `Generations`: what the chain is for, the configurations that were current last, newest first.
* `holds_exec`: the files hold the generations, through any run of saves and restores.
* `chain_exec`: the same in terms of the files alone.
-/

namespace LocalGateway

open Runs

/-! ### Restoring -/

/-- An operation of `restore_backup` on the files. -/
inductive RestoreOp
  /-- `copy2(_backup_at(slot), restore-tmp)`. -/
  | stage (slot : ℕ)
  /-- An operation of `_rotate_backups`. -/
  | rotate (op : DiskOp)
  /-- `copy2(_config_path, _backup_path())`. -/
  | keep
  /-- `os.replace(restore-tmp, _config_path)`. -/
  | swap

/-- The files, and the staged copy. -/
structure Staged where
  disk : Disk
  copy : Option File

namespace Staged

/-- The files after an operation. -/
def apply (s : Staged) : RestoreOp → Staged
  | .stage slot => { s with copy := s.disk.backups slot }
  | .rotate op => { s with disk := s.disk.apply op }
  | .keep => { s with disk := { s.disk with backups := Function.update s.disk.backups 0 s.disk.main } }
  | .swap => ⟨{ s.disk with main := s.copy }, none⟩

theorem exec_rotate (s : Staged) (ops : List DiskOp) :
    exec apply s (ops.map .rotate) = ⟨exec Disk.apply s.disk ops, s.copy⟩ := by
  induction ops generalizing s with
  | nil => rfl
  | cons op ops ih => exact ih (s.apply (.rotate op))

end Staged

namespace Disk

/-- `restore_backup`, once the backup is known to be valid. Without a `config.json` copying it raises. -/
def restoreOps (d : Disk) (slot : ℕ) : List RestoreOp :=
  .stage slot :: (rotateOps d).map .rotate ++ if d.main.isSome then [.keep, .swap] else []

/-- `restore_backup`: a slot that has no backup, or none that is valid, is rejected. -/
def restored (p : Pydantic) (d : Disk) (slot : ℤ) : Disk :=
  match d.store.backupAt slot with
  | none => d
  | some f =>
    match f.read p with
    | .error _ => d
    | .ok _ => (exec Staged.apply ⟨d, none⟩ (d.restoreOps slot.toNat)).disk

variable {p : Pydantic} {d : Disk} {slot : ℕ} {f g : File}

/-- **The operations of a restore together**: `config.json` is the backup, and the newest backup is the old
`config.json`. -/
theorem exec_restoreOps (hmain : d.main = some f) (hslot : d.backups slot = some g) :
    (exec Staged.apply ⟨d, none⟩ (d.restoreOps slot)).disk =
      ⟨some g, d.tmp, Function.update (rotateBackups d.backups) 0 (some f)⟩ := by
  have hrotated := exec_rotates (d := d) (rotateOps_rotates d)
  have hsplit : d.restoreOps slot = [.stage slot] ++ (rotateOps d).map .rotate ++ [.keep, .swap] := by
    rw [restoreOps, hmain]
    rfl
  rw [hsplit, exec_append, exec_append]
  show (exec Staged.apply (exec Staged.apply ⟨d, d.backups slot⟩ _) _).disk = _
  rw [Staged.exec_rotate]
  show Disk.mk (d.backups slot) (exec Disk.apply d (rotateOps d)).tmp
    (Function.update (exec Disk.apply d (rotateOps d)).backups 0 (exec Disk.apply d (rotateOps d)).main) = _
  rw [hslot, hrotated.1, hrotated.2, hmain, exec_rotateOps]

end Disk

/-! ### Rotating -/

section Rotation

variable {backups : ℕ → Option File} {f : File}

/-- Where there is no gap above a slot, its backup moves up and leaves none. -/
theorem shiftUp_eq {n : ℕ} (h : backups n = none → backups (n + 1) = none) :
    shiftUp backups n = Function.update (Function.update backups (n + 1) (backups n)) n none := by
  rcases hn : backups n with - | f
  · have habove : Function.update backups (n + 1) none = backups := by
      rw [← h hn, Function.update_eq_self]
    have hbelow : Function.update backups n none = backups := by
      rw [← hn, Function.update_eq_self]
    rw [habove, hbelow, shiftUp, hn]
  · rw [shiftUp, hn]

/-- The loop over the slots, where there are no gaps. -/
theorem foldl_shiftUp {n : ℕ} (h : ∀ k < n, backups k = none → backups (k + 1) = none) :
    (0 < n → (List.range n).reverse.foldl shiftUp backups 0 = none) ∧
      (∀ k < n, (List.range n).reverse.foldl shiftUp backups (k + 1) = backups k) ∧
      ∀ k > n, (List.range n).reverse.foldl shiftUp backups k = backups k := by
  induction n generalizing backups with
  | zero => exact ⟨nofun, nofun, fun _ _ ↦ rfl⟩
  | succ n ih =>
    have hstep := shiftUp_eq (h n (Nat.lt_succ_self n))
    have hself : shiftUp backups n n = none := by
      rw [hstep, Function.update_self]
    have habove : shiftUp backups n (n + 1) = backups n := by
      rw [hstep, Function.update_of_ne (by omega), Function.update_self]
    have hother : ∀ k, k ≠ n → k ≠ n + 1 → shiftUp backups n k = backups k := fun k hk hk' ↦ by
      rw [hstep, Function.update_of_ne hk, Function.update_of_ne hk']
    -- the slots below have no gap after the topmost has moved
    have hgaps : ∀ k < n, shiftUp backups n k = none → shiftUp backups n (k + 1) = none := by
      intro k hk hnone
      rw [hother k (by omega) (by omega)] at hnone
      rcases eq_or_ne (k + 1) n with rfl | hne
      · exact hself
      · rw [hother (k + 1) hne (by omega)]
        exact h k (by omega) hnone
    obtain ⟨hzero, hbelow, hrest⟩ := ih hgaps
    rw [List.range_succ, List.reverse_append, List.reverse_singleton, List.singleton_append, List.foldl_cons]
    refine ⟨fun _ ↦ ?_, fun k hk ↦ ?_, fun k hk ↦ ?_⟩
    · rcases Nat.eq_zero_or_pos n with rfl | hpos
      · exact hself
      · exact hzero hpos
    · rcases Nat.lt_succ_iff_lt_or_eq.1 hk with hk | rfl
      · rw [hbelow k hk, hother k (by omega) (by omega)]
      · rw [hrest (k + 1) (by omega), habove]
    · rw [hrest k (by omega), hother k (by omega) (by omega)]

/-- **What a rotation and the new backup make of a chain without gaps.** -/
theorem update_rotateBackups {gens : List File} (h : ∀ k, backups k = gens[k]?) (hlength : gens.length ≤ backupKeep)
    (k : ℕ) : Function.update (rotateBackups backups) 0 (some f) k = ((f :: gens).take backupKeep)[k]? := by
  have hextra : Function.update backups backupKeep none = backups := by
    rw [Function.update_eq_self_iff, h]
    exact (List.getElem?_eq_none hlength).symm
  have hgaps : ∀ k < backupKeep - 1, backups k = none → backups (k + 1) = none := by
    intro k _ hnone
    rw [h, List.getElem?_eq_none_iff] at hnone ⊢
    omega
  obtain ⟨-, hbelow, hrest⟩ := foldl_shiftUp hgaps
  rw [rotateBackups, hextra]
  rcases k with - | k
  · rfl
  · rw [Function.update_of_ne (Nat.succ_ne_zero k), List.getElem?_take]
    split_ifs with hk
    · rw [hbelow k (by omega), h]
      rfl
    · rw [hrest (k + 1) (by omega), h, List.getElem?_eq_none (by omega)]

end Rotation

/-! ### Generations -/

/-- The configuration that is current, and those before it that are kept, newest first. -/
structure Generations where
  current : File
  kept : List File
  bounded : kept.length ≤ backupKeep

/-- A request that replaces the current configuration. -/
inductive ChainOp
  | save (c : GatewayConfig) (parts : List File)
  | restore (slot : ℤ)

namespace Generations

/-- Another configuration becomes current, and the oldest one is dropped if there are too many. -/
def push (g : Generations) (f : File) : Generations :=
  ⟨f, (g.current :: g.kept).take backupKeep, List.length_take_le _ _⟩

/-- What a request makes of the generations. -/
def next (p : Pydantic) (g : Generations) : ChainOp → Generations
  | .save c _ => g.push (.json c.bump.dump)
  | .restore slot =>
    match if slot < 0 then none else g.kept[slot.toNat]? with
    | none => g
    | some f =>
      match f.read p with
      | .error _ => g
      | .ok _ => g.push f

end Generations

namespace Disk

/-- The files after a request. -/
def next (p : Pydantic) (d : Disk) : ChainOp → Disk
  | .save c parts => exec apply d (d.saveOps c parts)
  | .restore slot => d.restored p slot

/-- The text of a configuration that is saved can be written. -/
def Completes : ChainOp → Prop
  | .save c _ => c.bump.dump.encodable = true
  | .restore _ => True

/-- The files hold these generations: the current one in `config.json`, and the others in the slots. -/
structure Holds (d : Disk) (g : Generations) : Prop where
  current : d.main = some g.current
  kept : ∀ k, d.backups k = g.kept[k]?

variable {p : Pydantic} {d : Disk} {g : Generations} {op : ChainOp}

theorem Holds.push (h : d.Holds g) {d' : Disk} {f : File} (hmain : d'.main = some f)
    (hbackups : d'.backups = Function.update (rotateBackups d.backups) 0 (some g.current)) :
    d'.Holds (g.push f) where
  current := hmain
  kept k := by
    rw [hbackups]
    exact update_rotateBackups h.kept g.bounded k

theorem Holds.backupAt (h : d.Holds g) (slot : ℤ) :
    d.store.backupAt slot = if slot < 0 then none else g.kept[slot.toNat]? := by
  rw [← h.kept]
  rfl

/-- What the request puts in the place of `config.json`, if anything. -/
def Replaces (p : Pydantic) (d : Disk) (f : File) : ChainOp → Prop
  | .save c _ => f = .json c.bump.dump
  | .restore slot => d.store.backupAt slot = some f ∧ ∃ c, f.read p = .ok c

/-- A request that replaces `config.json`. -/
theorem Holds.next_of_replaces (h : d.Holds g) (hop : Completes op) {f : File} (hf : d.Replaces p f op) :
    (d.next p op).Holds (g.push f) ∧ g.next p op = g.push f := by
  rcases op with ⟨c, parts⟩ | slot
  · obtain rfl : f = .json c.bump.dump := hf
    refine ⟨h.push (exec_saveOps_main d parts hop) ?_, rfl⟩
    rw [Disk.next, (exec_saveOps d none false c parts false).2, save_of_encodable hop]
    show Store.keptBackups _ = _
    rw [Store.keptBackups, h.current]
  · obtain ⟨hslot, c, hread⟩ := hf
    have hgens : (if slot < 0 then none else g.kept[slot.toNat]?) = some f := (h.backupAt slot).symm.trans hslot
    have hfile : d.backups slot.toNat = some f := by
      rw [h.kept]
      split_ifs at hgens
      exact hgens
    have hnext : d.next p (.restore slot) =
        ⟨some f, d.tmp, Function.update (rotateBackups d.backups) 0 (some g.current)⟩ := by
      rw [Disk.next, restored, hslot]
      simp only [hread]
      exact exec_restoreOps h.current hfile
    refine ⟨h.push (by rw [hnext]) (by rw [hnext]), ?_⟩
    simp only [Generations.next, hgens, hread]

/-- A request that is rejected. -/
theorem Holds.next_of_not_replaces (h : d.Holds g) (hnone : ¬ ∃ f, d.Replaces p f op) :
    d.next p op = d ∧ g.next p op = g := by
  rcases op with ⟨c, parts⟩ | slot
  · exact absurd ⟨_, rfl⟩ hnone
  · rw [Disk.next, restored, Generations.next, ← h.backupAt]
    rcases hslot : d.store.backupAt slot with - | f
    · exact ⟨rfl, rfl⟩
    · rcases hread : f.read p with e | c
      · simp only [hread]
        exact ⟨trivial, trivial⟩
      · exact absurd ⟨f, hslot, c, hread⟩ hnone

/-- **One request.** -/
theorem Holds.next (h : d.Holds g) (hop : Completes op) : (d.next p op).Holds (g.next p op) := by
  by_cases hf : ∃ f, d.Replaces p f op
  · obtain ⟨f, hf⟩ := hf
    obtain ⟨hholds, hnext⟩ := h.next_of_replaces hop hf
    rwa [hnext]
  · obtain ⟨hdisk, hnext⟩ := h.next_of_not_replaces hf
    rwa [hdisk, hnext]

/-- **The files hold the generations** after any run of saves and restores. -/
theorem holds_exec (h : d.Holds g) {ops : List ChainOp} (hops : ∀ op ∈ ops, Completes op) :
    (exec (next p) d ops).Holds (exec (Generations.next p) g ops) := by
  have hevery : Every (next p) (fun _ _ op ↦ Completes op) d ops := by
    rintro past op future rfl
    exact hops op (by simp)
  refine exec_simulates Holds (fun d g op hd hop ↦ ?_) h hevery
  exact hd.next hop

/-! ### The files alone -/

/-- There is a `config.json`, and its backups fill the slots from the first on, not more than are kept. -/
structure GapFree (d : Disk) : Prop where
  current : d.main.isSome = true
  gaps : ∀ k, d.backups k = none → d.backups (k + 1) = none
  bounded : d.backups backupKeep = none

/-- Slots without gaps hold a list. -/
theorem exists_list_of_gaps {n : ℕ} {backups : ℕ → Option File} (h : ∀ k, backups k = none → backups (k + 1) = none)
    (hn : backups n = none) : ∃ gens : List File, gens.length ≤ n ∧ ∀ k, backups k = gens[k]? := by
  have hnil : backups 0 = none → ∀ k, backups k = none := fun hzero k ↦ by
    induction k with
    | zero => exact hzero
    | succ k ih => exact h k ih
  induction n generalizing backups with
  | zero => exact ⟨[], le_rfl, hnil hn⟩
  | succ n ih =>
    rcases hzero : backups 0 with - | f
    · exact ⟨[], Nat.zero_le _, hnil hzero⟩
    · have hnil' : backups 1 = none → ∀ k, backups (k + 1) = none := fun hone k ↦ by
        induction k with
        | zero => exact hone
        | succ k ih => exact h (k + 1) ih
      obtain ⟨gens, hlength, hgens⟩ := ih (fun k ↦ h (k + 1)) hn hnil'
      refine ⟨f :: gens, Nat.succ_le_succ hlength, fun k ↦ ?_⟩
      rcases k with - | k
      · exact hzero
      · exact hgens k

theorem gapFree_iff : d.GapFree ↔ ∃ g, d.Holds g := by
  constructor
  · rintro ⟨hmain, hgaps, hbounded⟩
    obtain ⟨f, hf⟩ := Option.isSome_iff_exists.1 hmain
    obtain ⟨gens, hlength, hgens⟩ := exists_list_of_gaps hgaps hbounded
    exact ⟨⟨f, gens, hlength⟩, hf, hgens⟩
  · rintro ⟨g, hmain, hkept⟩
    refine ⟨by rw [hmain]; rfl, fun k hk ↦ ?_, ?_⟩
    · rw [hkept, List.getElem?_eq_none_iff] at hk ⊢
      exact hk.trans (Nat.le_succ k)
    · rw [hkept]
      exact List.getElem?_eq_none g.bounded

/-- The law of the chain: what becomes `config.json`, where the old one and its backups go, and that none of
the last configurations is lost. -/
structure Chains (p : Pydantic) (d : Disk) (op : ChainOp) : Prop where
  current : ∀ f, d.Replaces p f op → (d.next p op).main = some f
  newest : (∃ f, d.Replaces p f op) → (d.next p op).backups 0 = d.main
  shifted : (∃ f, d.Replaces p f op) → ∀ k, k + 1 < backupKeep → (d.next p op).backups (k + 1) = d.backups k
  rejected : (¬ ∃ f, d.Replaces p f op) → d.next p op = d
  kept : ∀ f, (d.main = some f ∨ ∃ k, k + 1 < backupKeep ∧ d.backups k = some f) →
    (d.next p op).main = some f ∨ ∃ k, k < backupKeep ∧ (d.next p op).backups k = some f

theorem Holds.chains (h : d.Holds g) (hop : Completes op) : d.Chains p op := by
  have hreplaced : ∀ f, d.Replaces p f op → (d.next p op).Holds (g.push f) := fun f hf ↦
    (h.next_of_replaces hop hf).1
  have hshifted : ∀ f, d.Replaces p f op → ∀ k, k + 1 < backupKeep →
      (d.next p op).backups (k + 1) = d.backups k := by
    intro f hf k hk
    rw [(hreplaced f hf).kept, h.kept]
    exact List.getElem?_take_of_lt hk
  have hnewest : ∀ f, d.Replaces p f op → (d.next p op).backups 0 = d.main := fun f hf ↦ by
    rw [(hreplaced f hf).kept, h.current]
    rfl
  refine ⟨fun f hf ↦ (hreplaced f hf).current, fun ⟨f, hf⟩ ↦ hnewest f hf, fun ⟨f, hf⟩ ↦ hshifted f hf,
    fun hnone ↦ (h.next_of_not_replaces hnone).1, ?_⟩
  rintro f hkept
  by_cases hf : ∃ f, d.Replaces p f op
  · obtain ⟨f', hf'⟩ := hf
    refine .inr ?_
    rcases hkept with hmain | ⟨k, hk, hslot⟩
    · exact ⟨0, by decide, (hnewest f' hf').trans hmain⟩
    · exact ⟨k + 1, hk, (hshifted f' hf' k hk).trans hslot⟩
  · rw [(h.next_of_not_replaces hf).1]
    exact hkept.imp_right fun ⟨k, hk, hslot⟩ ↦ ⟨k, by omega, hslot⟩

/-- **The chain of backups.** From a `config.json` and backups without gaps, in any run of saves and restores
that can be written, the backups stay without gaps and every request keeps the law of the chain. -/
theorem chain_exec {p : Pydantic} {d : Disk} (h : d.GapFree) {ops : List ChainOp} (hops : ∀ op ∈ ops, Completes op) :
    (exec (next p) d ops).GapFree ∧ Every (next p) (fun _ d op ↦ d.Chains p op) d ops := by
  obtain ⟨g, hg⟩ := gapFree_iff.1 h
  refine ⟨gapFree_iff.2 ⟨_, holds_exec hg hops⟩, ?_⟩
  rintro past op future rfl
  have hpast : ∀ op' ∈ past, Completes op' := fun op' hop' ↦ hops op' (List.mem_append_left _ hop')
  exact (holds_exec hg hpast).chains (hops op (by simp))

/-- A `config.json` without models, and no backups. -/
def unsaved : Disk :=
  ⟨some (.json GatewayConfig.empty.dump), none, fun _ ↦ none⟩

/-- The restored backup moves while it is restored. -/
theorem chain_exec_sample :
    (exec (next .strict) unsaved [.save .empty [], .save .empty [.garbage], .restore 1, .restore 7]).GapFree ∧
      Every (next .strict) (fun _ d op ↦ d.Chains .strict op) unsaved
        [.save .empty [], .save .empty [.garbage], .restore 1, .restore 7] := by
  refine chain_exec ⟨rfl, fun _ _ ↦ rfl, rfl⟩ fun op hop ↦ ?_
  simp only [List.mem_cons, List.not_mem_nil, or_false] at hop
  rcases hop with rfl | rfl | rfl | rfl
  · rfl
  · rfl
  · trivial
  · trivial

end Disk

end LocalGateway
