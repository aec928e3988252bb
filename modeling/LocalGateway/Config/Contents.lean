import LocalGateway.Config.Version
import LocalGateway.Config.Interleaving

/-!
# What the configurations of a process have in common

A property that holds of the live configuration and of everything the files are read as
(`Store.AllOf`) stays true in a run if it lasts, that is, if it survives being written and read back,
and if the handlers keep it (`allOf_next`). Restores and reloads need nothing of their own: what they
bring back was in a file before.
-/

namespace LocalGateway

/-- The live configuration has the property, and so has whatever a file is read as. -/
structure Store.AllOf (p : Pydantic) (P : GatewayConfig → Prop) (s : Store) : Prop where
  live : ∀ c, s.live = some c → P c
  files : ∀ f c, s.HasFile f → f.read p = .ok c → P c

/-- The property is one of the empty configuration, and survives a save, and being written and read back. -/
structure Lasting (p : Pydantic) (P : GatewayConfig → Prop) : Prop where
  empty : P .empty
  bump : ∀ c, P c → P c.bump
  read : ∀ c c', P c → c.dump.encodable = true → parseConfig p c.dump = .ok c' → P c'

/-- The handler keeps the property, of the live object and of the one it saves in its place. -/
def Edit.Keeps (p : Pydantic) (P : GatewayConfig → Prop) (c : GatewayConfig) (e : Edit) : Prop :=
  P (handle p c e).live ∧ ∀ c', (handle p c e).verdict = .saveNew c' → P c'

variable {p : Pydantic} {P : GatewayConfig → Prop} {s : Store}

theorem firstValid_some {fs : List File} {c : GatewayConfig} (h : firstValid p fs = .ok (some c)) :
    ∃ f ∈ fs, f.read p = .ok c := by
  induction fs with
  | nil => cases h
  | cons f fs ih =>
    rw [firstValid] at h
    split at h
    · next c' hread =>
      obtain rfl : c' = c := by simpa using h
      exact ⟨f, List.mem_cons_self, hread⟩
    · obtain ⟨g, hg, hread⟩ := ih h
      exact ⟨g, List.mem_cons_of_mem f hg, hread⟩
    · cases h

/-- The files of a save that puts the old ones away. -/
theorem hasFile_of_kept {f : File} (h : ∃ i, s.keptBackups i = some f) : s.HasFile f := by
  rcases hmain : s.main with - | g
  · simp only [Store.keptBackups, hmain] at h
    exact .inr h
  · simp only [Store.keptBackups, hmain] at h
    exact hasFile_of_rotated (.inl hmain) h

namespace Store.AllOf

theorem of_files (h : s.AllOf p P) (hempty : P .empty) {c : GatewayConfig}
    (hc : s.fromFiles p = some c) : P c := by
  unfold Store.fromFiles at hc
  split at hc
  · next read hread =>
    obtain rfl := Option.some.inj hc
    rcases read with - | c
    · exact hempty
    · obtain ⟨f, hf, hread⟩ := firstValid_some hread
      exact h.files f c (Store.hasFile_of_mem_candidates hf) hread
  · cases hc

/-- What `load_config` returns has the property. -/
theorem current (h : s.AllOf p P) (hempty : P .empty) {c : GatewayConfig}
    (hc : s.current p = some c) : P c := by
  unfold Store.current at hc
  split at hc
  · next c' hlive _ =>
    obtain rfl := Option.some.inj hc
    exact h.live c' hlive
  · exact h.of_files hempty hc

theorem load (h : s.AllOf p P) (hempty : P .empty) : (s.load p).AllOf p P := by
  unfold Store.load
  split
  · next c hc =>
    refine ⟨fun c' heq ↦ ?_, h.files⟩
    obtain rfl := Option.some.inj heq
    exact h.current hempty hc
  · exact h

theorem reload (h : s.AllOf p P) (hempty : P .empty) : (s.reload p).AllOf p P :=
  load ⟨nofun, h.files⟩ hempty

theorem withLive (h : s.AllOf p P) {c : GatewayConfig} (hc : P c) :
    ({ s with live := some c } : Store).AllOf p P := by
  refine ⟨fun c' heq ↦ ?_, h.files⟩
  obtain rfl := Option.some.inj heq
  exact hc

theorem save (h : s.AllOf p P) (hP : Lasting p P) {c : GatewayConfig} (hc : P c) (shared : Bool) :
    (s.save c shared).1.AllOf p P := by
  have hbump : P c.bump := hP.bump c hc
  have hkept : ∀ f c', (∃ i, s.keptBackups i = some f) → f.read p = .ok c' → P c' :=
    fun f c' hf hread ↦ h.files f c' (hasFile_of_kept hf) hread
  by_cases henc : c.bump.dump.encodable = true
  · rw [save_of_encodable henc]
    refine ⟨fun c' heq ↦ ?_, fun f c' hf hread ↦ ?_⟩
    · obtain rfl := Option.some.inj heq
      exact hbump
    · rcases hf with hf | hf
      · obtain rfl := Option.some.inj hf
        exact hP.read c.bump c' hbump henc hread
      · exact hkept f c' hf hread
  · have hsave : (s.save c shared).1 =
        ⟨if shared then some c.bump else s.live, s.fresh && s.main.isNone, none, s.keptBackups⟩ := by
      show (if c.bump.dump.encodable = true then _ else _ : Store × Bool).1 = _
      rw [if_neg henc]
      rfl
    rw [hsave]
    refine ⟨fun c' heq ↦ ?_, fun f c' hf hread ↦ ?_⟩
    · cases shared with
      | true =>
        obtain rfl := Option.some.inj heq
        exact hbump
      | false => exact h.live c' heq
    · rcases hf with hf | hf
      · cases hf
      · exact hkept f c' hf hread

theorem restore (h : s.AllOf p P) (hempty : P .empty) (slot : ℤ) :
    (s.restore p slot).1.AllOf p P := by
  unfold Store.restore
  split
  · exact h
  · next f hf =>
    split
    · exact h
    · next c hread =>
      simp only
      have hbackup : s.HasFile f := by
        unfold Store.backupAt at hf
        split_ifs at hf
        exact .inr ⟨_, hf⟩
      split
      · refine ⟨h.live, fun g c' hg hread' ↦ ?_⟩
        rcases hg with hg | ⟨i, hi⟩
        · exact h.files g c' (.inl hg) hread'
        · exact h.files g c' (.inr (exists_of_rotateBackups hi)) hread'
      · next g hmain =>
        refine reload ⟨h.live, fun f' c' hf' hread' ↦ ?_⟩ hempty
        rcases hf' with hf' | hf'
        · obtain rfl := Option.some.inj hf'
          exact h.files f c' hbackup hread'
        · exact h.files f' c' (hasFile_of_rotated (.inl hmain) hf') hread'

theorem edit (h : s.AllOf p P) (hP : Lasting p P) {e : Edit}
    (he : ∀ c, s.current p = some c → e.Keeps p P c) : (s.edit p e).1.AllOf p P := by
  rcases edit_cases p s e with ⟨-, heq⟩ | ⟨c, hc, hresult⟩
  · rw [heq]
    exact h
  · obtain ⟨hlive, hnew⟩ := he c hc
    have hafter := (h.load hP.empty).withLive hlive
    rcases hresult with ⟨-, heq⟩ | ⟨c', hverdict, heq⟩ | ⟨-, heq⟩
    · rw [heq]
      exact hafter.save hP hlive true
    · rw [heq]
      exact hafter.save hP (hnew c' hverdict) false
    · rw [heq]
      exact hafter

/-- **One step.** -/
theorem next (h : s.AllOf p P) (hP : Lasting p P) {op : Op}
    (hop : ∀ e c, op = .edit e → s.current p = some c → e.Keeps p P c) :
    (s.next p op).AllOf p P := by
  cases op with
  | edit e => exact h.edit hP fun c hc ↦ hop e c rfl hc
  | restore slot => exact h.restore hP.empty slot
  | reload => exact h.reload hP.empty
  | restart => exact ⟨nofun, h.files⟩

end Store.AllOf

end LocalGateway
