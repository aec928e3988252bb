import LocalGateway.Config.Crash

/-!
# Loading while another process saves

The supervisor saves; the worker runs `load_config` on the same files, and the file operations of the
two fall between each other in any order. The worker tests which files exist before it reads the first
of them, so what it reads may have gone in the meantime.

The save puts the old `config.json` into slot 0 before it takes it away for good, and nothing later
moves slot 0 (`Disk.Stage`). So a load that goes from a missing `config.json` to slot 0 reads the old
configuration. One that does not, because slot 0 was empty when the load tested it, reads an older
backup or none: `Race.Safe` excludes this, and `load_races` shows that it happens.
-/

namespace LocalGateway

open Runs Py Json

/-! ### The reader -/

/-- A path that `load_config` tries. -/
inductive Source
  | main
  | backup (slot : ℕ)
deriving DecidableEq

/-- `[_config_path, *_backup_paths()]`. -/
def sources : List Source :=
  .main :: (List.range backupKeep).map .backup

/-- The file at a path. -/
def Disk.at (d : Disk) : Source → Option File
  | .main => d.main
  | .backup slot => d.backups slot

/-- What a load does next. -/
inductive ReadPhase
  /-- No load is going on; the first operation of one is `exists()` of `_file_mtime`. -/
  | idle
  /-- `stat()` of `_file_mtime`. -/
  | stat
  /-- `exists()` of the first of the tests; these candidates have been found. -/
  | testing (mtime : ℚ) (tests found : List Source)
  /-- `read_text()` of the first of the rest of the candidates. -/
  | reading (mtime : ℚ) (rest : List Source)
deriving DecidableEq

/-- `_config` with `_config_mtime`, and what the load under way does next. -/
structure Reader where
  cache : Option (GatewayConfig × ℚ)
  phase : ReadPhase

/-- A load that has returned, or raised. -/
abbrev LoadResult := Except ParseError GatewayConfig

namespace Reader

/-- The rest of the loop over the candidates; without any the configuration is empty. -/
def attempt (r : Reader) (mtime : ℚ) : List Source → Reader × Option LoadResult
  | [] => (⟨some (.empty, mtime), .idle⟩, some (.ok .empty))
  | s :: rest => ({ r with phase := .reading mtime (s :: rest) }, none)

/-- The rest of the tests. -/
def list (r : Reader) (mtime : ℚ) (found : List Source) : List Source → Reader × Option LoadResult
  | [] => r.attempt mtime found
  | s :: tests => ({ r with phase := .testing mtime (s :: tests) found }, none)

/-- `_file_mtime` has returned. -/
def compare (r : Reader) (mtime : ℚ) : Reader × Option LoadResult :=
  match r.cache with
  | some (c, cached) =>
    if mtime = cached then ({ r with phase := .idle }, some (.ok c)) else r.list mtime [] sources
  | none => r.list mtime [] sources

/-- What `_file_mtime` returns if this is its last operation, where the file has the time that is
given. -/
def fileMtime (d : Disk) (time : ℚ) (r : Reader) : Option ℚ :=
  match r.phase with
  | .idle => if d.main.isSome then none else some 0
  | .stat => some (if d.main.isSome then time else 0)
  | _ => none

variable (p : Pydantic) (d : Disk) (time : ℚ)

/-- The next operation of `load_config`, with the result if it is the last. -/
def next (r : Reader) : Reader × Option LoadResult :=
  match r.phase with
  | .idle =>
    if d.main.isSome then ({ r with phase := .stat }, none) else r.compare 0
  | .stat => r.compare (if d.main.isSome then time else 0)
  | .testing mtime [] found => r.attempt mtime found
  | .testing mtime (s :: tests) found =>
    r.list mtime (found ++ if (d.at s).isSome then [s] else []) tests
  | .reading mtime [] => r.attempt mtime []
  | .reading mtime (s :: rest) =>
    match d.at s with
    | none => r.attempt mtime rest
    | some f =>
      match f.read p with
      | .ok c => (⟨some (c, mtime), .idle⟩, some (.ok c))
      | .error .invalid => r.attempt mtime rest
      -- `load_config` does not catch it, so the backups are not tried
      | .error .typeError => ({ r with phase := .idle }, some (.error .typeError))

end Reader

/-! ### The two processes -/

/-- The files, what the save has left to do, the process that loads, and what its loads returned. -/
structure Race where
  disk : Disk
  pending : List DiskOp
  reader : Reader
  results : List LoadResult

/-- Who makes the next operation. The time is the one that `stat()` finds, if that is the
operation. -/
inductive RaceTurn
  | save
  | load (time : ℚ)
deriving DecidableEq

namespace Race

/-- Before the first operation of the save. -/
def start (d : Disk) (c : GatewayConfig) (parts : List File) (cache : Option (GatewayConfig × ℚ)) :
    Race :=
  ⟨d, d.saveOps c parts, ⟨cache, .idle⟩, []⟩

/-- After a turn. -/
def next (p : Pydantic) (w : Race) : RaceTurn → Race
  | .save =>
    match w.pending with
    | [] => w
    | op :: ops => { w with disk := w.disk.apply op, pending := ops }
  | .load time =>
    let (reader, result) := w.reader.next p w.disk time
    { w with reader := reader, results := w.results ++ result.toList }

/-- The turn keeps the two processes apart. The configuration that replaces `config.json` is typed.
A load that meets the time it has cached has cached the configuration before the save, or the one
after it. A load that finds `config.json` gone when it comes to read it has slot 0 as its next
candidate. -/
def Safe (before after : GatewayConfig) (w : Race) : RaceTurn → Prop
  | .save => w.pending.head? = some .replace → after.Typed
  | .load time =>
    (∀ c mtime, w.reader.fileMtime w.disk time = some mtime → w.reader.cache = some (c, mtime) →
      c = before ∨ c = after) ∧
    ∀ mtime rest, w.reader.phase = .reading mtime (.main :: rest) → w.disk.main = none →
      rest.head? = some (.backup 0)

end Race

/-! ### What the candidates of a load are -/

/-- The load has the newest file first among its candidates, or will have: `config.json`, or slot 0
once the old `config.json` is there. -/
def ReadPhase.Ready (retired : Prop) : ReadPhase → Prop
  | .idle | .stat => True
  | .testing _ tests found =>
    tests = sources ∧ found = [] ∨ found.head? = some .main ∨
      retired ∧ (tests.head? = some (.backup 0) ∧ found = [] ∨ found.head? = some (.backup 0))
  | .reading _ rest => rest.head? = some .main ∨ retired ∧ rest.head? = some (.backup 0)

theorem ReadPhase.Ready.mono {retired retired' : Prop} (h : retired → retired') :
    ∀ {phase : ReadPhase}, phase.Ready retired → phase.Ready retired'
  | .idle, _ | .stat, _ => trivial
  | .testing _ _ _, hready => hready.imp_right (Or.imp_right (And.imp_left h))
  | .reading _ _, hready => hready.imp_right (And.imp_left h)

/-- The files that a load may meet during the save: the old `config.json` is in its place, or it is in
slot 0 and there is nothing or the new one in its place. -/
def Disk.Between (d : Disk) (retired : Prop) (old : File) (new : Option File) : Prop :=
  ¬ retired ∧ d.main = some old ∨
    retired ∧ d.backups 0 = some old ∧ (d.main = none ∨ d.main = new)

namespace Reader

variable {p : Pydantic} {d : Disk} {r : Reader} {retired : Prop} {old : File}
  {before after : GatewayConfig} {time : ℚ}

/-- After an operation of a load its candidates are as they should be, and what it returned, if
anything, is one of the two configurations. -/
def Fine (retired : Prop) (before after : GatewayConfig) (out : Reader × Option LoadResult) : Prop :=
  out.1.phase.Ready retired ∧ ∀ result ∈ out.2, result = .ok before ∨ result = .ok after

theorem fine_attempt {mtime : ℚ} {rest : List Source}
    (h : rest.head? = some .main ∨ retired ∧ rest.head? = some (.backup 0)) :
    Fine retired before after (r.attempt mtime rest) := by
  rcases rest with - | ⟨s, rest⟩
  · simp at h
  · exact ⟨h, fun _ hresult ↦ by cases hresult⟩

theorem fine_list {mtime : ℚ} {found tests : List Source}
    (h : (ReadPhase.testing mtime tests found).Ready retired) :
    Fine retired before after (r.list mtime found tests) := by
  rcases tests with - | ⟨s, tests⟩
  · refine fine_attempt ?_
    rcases h with ⟨heq, -⟩ | h | ⟨hretired, ⟨hhead, -⟩ | h⟩
    · cases heq
    · exact .inl h
    · cases hhead
    · exact .inr ⟨hretired, h⟩
  · exact ⟨h, fun _ hresult ↦ by cases hresult⟩

theorem fine_compare {mtime : ℚ}
    (h : ∀ c, r.cache = some (c, mtime) → c = before ∨ c = after) :
    Fine retired before after (r.compare mtime) := by
  have hlist : Fine retired before after (r.list mtime [] sources) := fine_list (.inl ⟨rfl, rfl⟩)
  unfold compare
  rcases hcache : r.cache with - | ⟨c, cached⟩
  · exact hlist
  · show Fine retired before after (if mtime = cached then _ else _)
    split_ifs with heq
    · refine ⟨trivial, fun result hresult ↦ ?_⟩
      obtain rfl : _ = result := Option.mem_some.1 hresult
      exact (h c (by rw [hcache, heq])).imp (congrArg _) (congrArg _)
    · exact hlist

/-- A test adds what is there to the candidates. -/
theorem ready_test {new : Option File} (hd : d.Between retired old new) {mtime : ℚ} {s : Source}
    {tests found : List Source} (h : (ReadPhase.testing mtime (s :: tests) found).Ready retired) :
    (ReadPhase.testing mtime tests (found ++ if (d.at s).isSome then [s] else [])).Ready retired := by
  have hgrows : ∀ {t : Source}, found.head? = some t →
      (found ++ if (d.at s).isSome then [s] else []).head? = some t := fun hhead ↦ by
    rw [List.head?_append, hhead]
    rfl
  rcases h with ⟨heq, rfl⟩ | h | ⟨hretired, ⟨hhead, rfl⟩ | h⟩
  · -- the first test is of `config.json`
    obtain ⟨rfl, rfl⟩ := List.cons.inj heq
    rcases hmain : d.main with - | f
    · have hretired : retired := hd.elim (fun h ↦ absurd (h.2.symm.trans hmain) nofun) (·.1)
      refine .inr (.inr ⟨hretired, .inl ⟨rfl, ?_⟩⟩)
      simp [Disk.at, hmain]
    · refine .inr (.inl ?_)
      simp [Disk.at, hmain]
  · exact .inr (.inl (hgrows h))
  · -- the first test that is left is of slot 0
    obtain rfl : s = .backup 0 := Option.some.inj hhead
    have hslot : d.backups 0 = some old := hd.elim (fun h ↦ absurd hretired h.1) (·.2.1)
    refine .inr (.inr ⟨hretired, .inr ?_⟩)
    simp [Disk.at, hslot]
  · exact .inr (.inr ⟨hretired, .inr (hgrows h)⟩)

/-- A file that reads as one of the two configurations ends the load with it. -/
theorem fine_read {mtime : ℚ} {s : Source} {rest : List Source} {f : File} {c : GatewayConfig}
    (hphase : r.phase = .reading mtime (s :: rest)) (hfile : d.at s = some f)
    (hread : f.read p = .ok c) (hc : c = before ∨ c = after) :
    Fine retired before after (r.next p d time) := by
  have hnext : r.next p d time = (⟨some (c, mtime), .idle⟩, some (.ok c)) := by
    simp only [next, hphase, hfile, hread]
  rw [hnext]
  refine ⟨trivial, fun result hresult ↦ ?_⟩
  obtain rfl : _ = result := Option.mem_some.1 hresult
  exact hc.imp (congrArg _) (congrArg _)

/-- **One operation of a load.** -/
theorem fine_next {new : Option File} (hd : d.Between retired old new)
    (hold : old.read p = .ok before) (hnew : ∀ f ∈ new, f.read p = .ok after)
    (hcache : ∀ c mtime, r.fileMtime d time = some mtime → r.cache = some (c, mtime) →
      c = before ∨ c = after)
    (hgone : ∀ mtime rest, r.phase = .reading mtime (.main :: rest) → d.main = none →
      rest.head? = some (.backup 0))
    (h : r.phase.Ready retired) : Fine retired before after (r.next p d time) := by
  -- one case for each operation: the test, the stat, the tests of the candidates, the reads
  rcases hphase : r.phase with - | - | ⟨mtime, tests, found⟩ | ⟨mtime, rest⟩
  · rcases hmain : d.main with - | f
    · have hnext : r.next p d time = r.compare 0 := by simp [next, hphase, hmain]
      have hmtime : r.fileMtime d time = some 0 := by simp [fileMtime, hphase, hmain]
      exact hnext ▸ fine_compare fun c hc ↦ hcache c _ hmtime hc
    · have hnext : r.next p d time = ({ r with phase := .stat }, none) := by
        simp [next, hphase, hmain]
      exact hnext ▸ ⟨trivial, fun _ hresult ↦ by cases hresult⟩
  · have hnext : r.next p d time = r.compare (if d.main.isSome then time else 0) := by
      simp only [next, hphase]
    have hmtime : r.fileMtime d time = some (if d.main.isSome then time else 0) := by
      simp only [fileMtime, hphase]
    exact hnext ▸ fine_compare fun c hc ↦ hcache c _ hmtime hc
  · rw [hphase] at h
    rcases tests with - | ⟨s, tests⟩
    · have hnext : r.next p d time = r.list mtime found [] := by simp only [next, hphase, list]
      exact hnext ▸ fine_list h
    · have hnext : r.next p d time =
          r.list mtime (found ++ if (d.at s).isSome then [s] else []) tests := by
        simp only [next, hphase]
      exact hnext ▸ fine_list (ready_test hd h)
  · rw [hphase] at h
    rcases rest with - | ⟨s, rest⟩
    · simp [ReadPhase.Ready] at h
    · rcases h with hmain | ⟨hretired, hslot⟩
      · obtain rfl : s = .main := Option.some.inj hmain
        rcases hd with ⟨-, hfile⟩ | ⟨hretired, hfile, hfound | hfound⟩
        · exact fine_read hphase hfile hold (.inl rfl)
        · -- it has gone since it was tested
          have hnext : r.next p d time = r.attempt mtime rest := by
            simp only [next, hphase, Disk.at, hfound]
          exact hnext ▸ fine_attempt (.inr ⟨hretired, hgone _ _ hphase hfound⟩)
        · rcases hnone : new with - | f
          · have hnext : r.next p d time = r.attempt mtime rest := by
              simp only [next, hphase, Disk.at, hfound, hnone]
            exact hnext ▸ fine_attempt
              (.inr ⟨hretired, hgone _ _ hphase (hfound.trans hnone)⟩)
          · exact fine_read hphase (hfound.trans hnone) (hnew f hnone) (.inr rfl)
      · -- the save has moved it to slot 0, which nothing touches any more
        obtain rfl : s = .backup 0 := Option.some.inj hslot
        have hfile : d.backups 0 = some old := hd.elim (fun h ↦ absurd hretired h.1) (·.2.1)
        exact fine_read hphase hfile hold (.inl rfl)

end Reader

/-! ### Every order of the operations -/

namespace Race

variable {p : Pydantic} {d₀ : Disk} {f : File} {c₀ c : GatewayConfig} {parts : List File}

/-- The save is at a stage of its operations, the load has the newest file before it, and what has been
returned is one of the two configurations. -/
structure Inv (d₀ : Disk) (f : File) (c₀ c : GatewayConfig) (parts : List File) (w : Race) :
    Prop where
  files : ∃ l, l ++ w.pending = d₀.saveOps c parts ∧ w.disk = exec Disk.apply d₀ l ∧
    (DiskOp.replace ∈ l → c.Typed) ∧ w.reader.phase.Ready (DiskOp.retire ∈ l)
  results : ∀ result ∈ w.results, result = .ok c₀ ∨ result = .ok c.bump

theorem between_of_prefix {l : List DiskOp} (hmain : d₀.main = some f)
    (hl : l <+: d₀.saveOps c parts) (htyped : DiskOp.replace ∈ l → c.Typed) :
    ∃ new, (exec Disk.apply d₀ l).Between (DiskOp.retire ∈ l) f new ∧
      ∀ g ∈ new, g.read p = .ok c.bump := by
  have hretired : d₀.main = none ∨ DiskOp.retire ∈ l → DiskOp.retire ∈ l :=
    fun h ↦ h.resolve_left (by rw [hmain]; nofun)
  cases Disk.stage_of_prefix (.inl hmain) hl with
  | before hkept hfound => exact ⟨none, .inl ⟨hkept, hfound⟩, nofun⟩
  | between h hfound hslot => exact ⟨none, .inr ⟨hretired h, hslot, .inl hfound⟩, nofun⟩
  | after h hreplaced henc hfound hslot =>
    refine ⟨_, .inr ⟨hretired h, hslot, .inr hfound⟩, fun g hg ↦ ?_⟩
    obtain rfl : _ = g := Option.mem_some.1 hg
    exact Disk.read_saved p (htyped hreplaced) henc

theorem Inv.next (hmain : d₀.main = some f) (hread : f.read p = .ok c₀) {w : Race}
    (h : w.Inv d₀ f c₀ c parts) {turn : RaceTurn} (hsafe : w.Safe c₀ c.bump turn) :
    (w.next p turn).Inv d₀ f c₀ c parts := by
  obtain ⟨⟨l, hl, hdisk, htyped, hready⟩, hresults⟩ := h
  cases turn with
  | save =>
    unfold Race.next
    rcases hpending : w.pending with - | ⟨op, ops⟩
    · exact ⟨⟨l, hl, hdisk, htyped, hready⟩, hresults⟩
    · refine ⟨⟨l ++ [op], ?_, ?_, ?_, hready.mono (List.mem_append_left _)⟩, hresults⟩
      · rw [← hl, hpending, List.append_assoc, List.singleton_append]
      · rw [exec_concat, hdisk]
      · intro hmem
        rcases List.mem_append.1 hmem with hmem | hmem
        · exact htyped hmem
        · rw [← List.mem_singleton.1 hmem] at hpending
          have hafter : c.bump.Typed := hsafe (by rw [hpending]; rfl)
          exact ⟨hafter.keys, hafter.models⟩
  | load time =>
    obtain ⟨new, hbetween, hnew⟩ := between_of_prefix (p := p) hmain ⟨_, hl⟩ htyped
    rw [← hdisk] at hbetween
    have hfine := Reader.fine_next hbetween hread hnew hsafe.1 hsafe.2 hready
    refine ⟨⟨l, hl, hdisk, htyped, hfine.1⟩, fun result hmem ↦ ?_⟩
    rcases List.mem_append.1 hmem with hmem | hmem
    · exact hresults result hmem
    · exact hfine.2 result (Option.mem_toList.1 hmem)

/-- **Loads beside a save.** From a valid `config.json`, any backups and any cache, in every order of
the operations of a save and of any number of loads, each turn of which is safe: every load returns
the configuration before the save or the one after it. -/
theorem loads_exec (p : Pydantic) (hmain : d₀.main = some f) (hread : f.read p = .ok c₀)
    (c : GatewayConfig) (parts : List File) (cache : Option (GatewayConfig × ℚ))
    {turns : List RaceTurn}
    (h : Every (next p) (fun _ w turn ↦ w.Safe c₀ c.bump turn) (start d₀ c parts cache) turns) :
    ∀ result ∈ (exec (next p) (start d₀ c parts cache) turns).results,
      result = .ok c₀ ∨ result = .ok c.bump := by
  have hinv : (exec (next p) (start d₀ c parts cache) turns).Inv d₀ f c₀ c parts :=
    exec_invariant (fun _ w ↦ w.Inv d₀ f c₀ c parts)
      ⟨⟨[], rfl, rfl, nofun, trivial⟩, nofun⟩ (fun _ _ _ hw hsafe ↦ hw.next hmain hread hsafe) h
  exact hinv.results

/-- The empty configuration, with a backup that is not valid. -/
def oneBackup : Disk :=
  ⟨some (.json GatewayConfig.empty.dump), none, fun slot ↦ if slot = 0 then some .garbage else none⟩

/-- A load that tests every path, and then reads what a save has moved meanwhile. -/
theorem loads_exec_sample :
    (exec (next .strict) (start oneBackup oneModel [] none)
        (List.replicate 8 (.load 5) ++ [.save, .save, .load 5, .load 5, .save, .save])).results ≠ [] ∧
      ∀ result ∈ (exec (next .strict) (start oneBackup oneModel [] none)
          (List.replicate 8 (.load 5) ++ [.save, .save, .load 5, .load 5, .save, .save])).results,
        result = .ok GatewayConfig.empty ∨ result = .ok oneModel.bump := by
  refine ⟨by decide +kernel, ?_⟩
  refine loads_exec .strict (f := .json GatewayConfig.empty.dump) rfl rfl oneModel [] none ?_
  simp only [List.replicate_succ, List.replicate_zero, List.cons_append, List.nil_append,
    every_cons_iff, every_nil, and_true]
  refine ⟨⟨nofun, nofun⟩, ⟨nofun, nofun⟩, ⟨nofun, nofun⟩, ⟨nofun, nofun⟩, ⟨nofun, nofun⟩,
    ⟨nofun, nofun⟩, ⟨nofun, nofun⟩, ⟨nofun, nofun⟩, nofun, nofun, ?_, ⟨nofun, nofun⟩, nofun, ?_⟩
  · refine ⟨nofun, fun mtime rest hphase _ ↦ ?_⟩
    cases hphase
    rfl
  · exact fun _ ↦ Disk.bump_typed oneModel_typed

/-- **A load that loses everything.** There are no backups when it tests for them, and `config.json` is
in slot 0 when it reads it. -/
theorem load_races :
    ∃ result ∈ (exec (next .strict)
        (start ⟨some (.json oneModel.dump), none, fun _ ↦ none⟩ oneModel [] none)
        (List.replicate 8 (.load 5) ++ [.save, .load 5])).results,
      result ≠ .ok oneModel ∧ result ≠ .ok oneModel.bump := by
  refine ⟨.ok .empty, List.mem_singleton.2 rfl, ?_⟩
  constructor
  all_goals
    intro h
    have hmodels := congrArg GatewayConfig.models (Except.ok.inj h)
    exact absurd hmodels (List.cons_ne_nil _ _).symm

end Race

end LocalGateway
