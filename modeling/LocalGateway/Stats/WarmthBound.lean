import LocalGateway.Foundations.Runs
import LocalGateway.Stats.Registry

/-!
# The bounds of the warmth registry

The registry of warm caches over a run of records and lookups at increasing times. A record adds at most one key and
one entry, and evicts at most one bucket; `WarmthKept` is the invariant that makes this enough.

* `WarmthCall.next_kept`: a call keeps the invariant.
* `evictsOldest`: an eviction takes the bucket that was seen least recently, and not the one that was just recorded if
  there is another.
* `WarmthCall.every_behaves`: the bounds hold after every call of every run, and every eviction is such.
-/

namespace LocalGateway

open Py StatsRegistry

/-- A call that may change the warm caches. -/
inductive WarmthCall where
  | recordCacheActivity (key : PyStr) (cacheKey : Option PyStr) (use : CacheUse) (cacheSupported : Option Bool)
      (now : ℚ)
  | warmBackendsFor (cacheKey : PyStr) (candidates : List PyStr) (ttlSec now : ℚ)

namespace WarmthCall

/-- When a call is made. -/
def time : WarmthCall → ℚ
  | .recordCacheActivity _ _ _ _ now => now
  | .warmBackendsFor _ _ _ now => now

/-- The registry after a call. -/
def next (s : StatsRegistry) : WarmthCall → StatsRegistry
  | .recordCacheActivity key cacheKey use cacheSupported now =>
    s.recordCacheActivity key cacheKey use cacheSupported now
  | .warmBackendsFor cacheKey candidates ttlSec now => (s.warmBackendsFor cacheKey candidates ttlSec now).1

end WarmthCall

/-- The number of entries. -/
def entryCount (warmth : Dict PyStr Bucket) : ℕ :=
  (warmth.items.map fun e ↦ e.2.items.length).sum

/-- The registry is within its limits, and has no empty bucket. -/
structure WarmthBounded (warmth : Dict PyStr Bucket) : Prop where
  keys : warmth.items.length ≤ warmthMaxKeys
  entries : entryCount warmth ≤ warmthMaxEntries
  filled : ∀ k b, warmth.get? k = some b → b.items ≠ []

/-- What an eviction of the bucket of `k` may do: nothing else is removed, every other bucket was seen later, and if the
bucket is that of the key just recorded, there is no other. -/
structure EvictsOldest (before after : Dict PyStr Bucket) (recorded k : PyStr) : Prop where
  others : ∀ l, l ≠ k → after.get? l = before.get? l
  oldest : ∀ b l c, before.get? k = some b → l ≠ k → before.get? l = some c → lastSeen b < lastSeen c
  recorded_alone : k = recorded → ∀ l, l ≠ k → before.get? l = none

/-- A call keeps the bounds, and if it records and a bucket is missing afterwards, that is the one seen least
recently. -/
def WarmthCall.Behaves (s : StatsRegistry) (call : WarmthCall) : Prop :=
  WarmthBounded (call.next s).warmth ∧
    match call with
    | .recordCacheActivity key (some cacheKey) use cacheSupported now =>
      cacheKey ≠ [] → supportsCache cacheSupported use = true →
        ∀ k, (s.warmed key cacheKey use now).get? k ≠ none → (call.next s).warmth.get? k = none →
          EvictsOldest (s.warmed key cacheKey use now) (call.next s).warmth cacheKey k
    | _ => True

/-- Every entry is of the time of some call, which has no entry in another bucket. -/
structure SeenApart (past : List WarmthCall) (warmth : Dict PyStr Bucket) : Prop where
  seen : ∀ k b e, warmth.get? k = some b → e ∈ b.items → ∃ call ∈ past, call.time = e.2.lastSeenTs
  apart : ∀ k l b c e f, warmth.get? k = some b → warmth.get? l = some c → e ∈ b.items → f ∈ c.items →
    e.2.lastSeenTs = f.2.lastSeenTs → k = l

/-- What calls keep. -/
structure WarmthKept (past : List WarmthCall) (warmth : Dict PyStr Bucket) : Prop where
  bounded : WarmthBounded warmth
  seenApart : SeenApart past warmth

/-! ### Buckets -/

/-- A bucket was last seen with one of its entries. -/
theorem lastSeen_spec {b : Bucket} (h : b.items ≠ []) :
    (∃ e ∈ b.items, e.2.lastSeenTs = lastSeen b) ∧ ∀ e ∈ b.items, e.2.lastSeenTs ≤ lastSeen b := by
  have hne : b.items.map (fun e ↦ e.2.lastSeenTs) ≠ [] := by simpa using h
  obtain ⟨m, hm⟩ := Option.ne_none_iff_exists'.1 fun hnone ↦ hne (List.max?_eq_none_iff.1 hnone)
  obtain ⟨hmem, hle⟩ := List.max?_eq_some_iff.1 hm
  have hlast : lastSeen b = m := by rw [lastSeen, hm, Option.getD_some]
  rw [hlast]
  exact ⟨List.mem_map.1 hmem, fun e he ↦ hle _ (List.mem_map_of_mem he)⟩

theorem oldestKey_spec {warmth : Dict PyStr Bucket} {k : PyStr} (h : oldestKey warmth = some k) :
    ∃ b, warmth.get? k = some b ∧ ∀ l c, warmth.get? l = some c → lastSeen b ≤ lastSeen c := by
  obtain ⟨⟨k, b⟩, hmin, rfl⟩ := Option.map_eq_some_iff.1 h
  refine ⟨b, Dict.mem_items_iff.1 (List.argmin_mem hmin), fun l c hc ↦ ?_⟩
  -- the instances are those of the definition, which are not the ones found here
  have hnot := @List.not_lt_of_mem_argmin _ _ _ _ _ _ _ _ (Dict.mem_items_iff.2 hc) hmin
  exact not_lt.1 hnot

/-- There is an oldest bucket, if there is any. -/
theorem exists_oldestKey {warmth : Dict PyStr Bucket} (h : warmth.items ≠ []) : ∃ k, oldestKey warmth = some k := by
  rcases hmin : warmth.items.argmin (fun e ↦ lastSeen e.2) with - | e
  · exact absurd (List.argmin_eq_none.1 hmin) h
  · exact ⟨e.1, by rw [oldestKey, hmin]; rfl⟩

/-- The entry of an answer bears its time. -/
theorem lastSeenTs_observe (use : CacheUse) (now : ℚ) (entry : Option WarmthEntry) :
    (observe use now entry).lastSeenTs = now := by
  unfold observe
  dsimp only
  split_ifs <;> rfl

/-- A changed bucket has its entries instead of those it had. -/
theorem entryCount_alter_add (warmth : Dict PyStr Bucket) (k : PyStr) (f : Option Bucket → Bucket) :
    entryCount (warmth.alter k f) + ((warmth.get? k).elim 0 fun b ↦ b.items.length) =
      entryCount warmth + (f (warmth.get? k)).items.length :=
  Dict.sum_alter_add _ _ _

/-- With a bucket its entries go. -/
theorem entryCount_erase_add {warmth : Dict PyStr Bucket} {k : PyStr} {b : Bucket} (hb : warmth.get? k = some b) :
    entryCount (warmth.erase k) + b.items.length = entryCount warmth :=
  Dict.sum_erase_add _ _ hb

section Kept

variable {past : List WarmthCall} {s : StatsRegistry} {key cacheKey : PyStr} {use : CacheUse} {now : ℚ}

/-- An entry of a bucket that was recorded is the new one, or was in the bucket before. -/
theorem mem_recorded {b : Option Bucket} {e : PyStr × WarmthEntry}
    (h : e ∈ ((b.getD .empty).alter key (observe use now)).items) :
    e.2.lastSeenTs = now ∨ ∃ b', b = some b' ∧ e ∈ b'.items := by
  obtain ⟨k, e⟩ := e
  rw [Dict.mem_items_iff, Dict.get?_alter] at h
  split_ifs at h with hk
  · obtain rfl := Option.some.inj h
    exact .inl (lastSeenTs_observe use now _)
  · rcases b with - | b
    · cases h
    · exact .inr ⟨b, rfl, Dict.mem_items_iff.2 h⟩

/-- The new entry is in the bucket. -/
theorem exists_recorded (key : PyStr) (use : CacheUse) (now : ℚ) (b : Option Bucket) :
    ∃ e ∈ ((b.getD .empty).alter key (observe use now)).items, e.2.lastSeenTs = now :=
  ⟨(key, observe use now ((b.getD .empty).get? key)), Dict.mem_items_iff.2 (Dict.get?_alter_self ..),
    lastSeenTs_observe use now _⟩

/-- The buckets of a registry that are left, each with some of its entries. -/
def WarmthLeft (warmth warmth' : Dict PyStr Bucket) : Prop :=
  ∀ k b, warmth'.get? k = some b → ∃ b', warmth.get? k = some b' ∧ b.items ⊆ b'.items

theorem SeenApart.left {warmth warmth' : Dict PyStr Bucket} (h : SeenApart past warmth)
    (hleft : WarmthLeft warmth warmth') : SeenApart past warmth' where
  seen k b e hb he := by
    obtain ⟨b', hb', hsub⟩ := hleft k b hb
    exact h.seen k b' e hb' (hsub he)
  apart k l b c e f hb hc he hf htime := by
    obtain ⟨b', hb', hsub⟩ := hleft k b hb
    obtain ⟨c', hc', hsub'⟩ := hleft l c hc
    exact h.apart k l b' c' e f hb' hc' (hsub he) (hsub' hf) htime

theorem SeenApart.concat {warmth : Dict PyStr Bucket} (h : SeenApart past warmth) (call : WarmthCall) :
    SeenApart (past ++ [call]) warmth where
  seen k b e hb he := by
    obtain ⟨c, hc, htime⟩ := h.seen k b e hb he
    exact ⟨c, List.mem_append_left _ hc, htime⟩
  apart := h.apart

theorem warmthLeft_erase (warmth : Dict PyStr Bucket) (k : PyStr) : WarmthLeft warmth (warmth.erase k) := by
  intro l b hb
  rw [Dict.get?_erase] at hb
  split_ifs at hb
  exact ⟨b, hb, List.Subset.refl _⟩

/-! ### A record -/

theorem get?_warmed (l : PyStr) : (s.warmed key cacheKey use now).get? l =
    if l = cacheKey then some (((s.warmth.get? cacheKey).getD .empty).alter key (observe use now))
    else s.warmth.get? l :=
  Dict.get?_alter ..

variable (s key cacheKey use now) in
/-- A record adds at most one key. -/
theorem length_warmed_le : (s.warmed key cacheKey use now).items.length ≤ s.warmth.items.length + 1 := by
  have hsize := s.warmth.length_alter_add (k := cacheKey) fun bucket ↦
    (bucket.getD .empty).alter key (observe use now)
  rw [warmed, ← hsize]
  exact Nat.le_add_right _ _

variable (s key cacheKey use now) in
/-- A record adds at most one entry. -/
theorem entryCount_warmed_le : entryCount (s.warmed key cacheKey use now) ≤ entryCount s.warmth + 1 := by
  have hsize := entryCount_alter_add s.warmth cacheKey fun bucket ↦ (bucket.getD .empty).alter key (observe use now)
  have hentry : ∀ b : Bucket, (b.alter key (observe use now)).items.length ≤ b.items.length + 1 := fun b ↦
    b.length_alter_add (k := key) (observe use now) ▸ Nat.le_add_right _ _
  rw [warmed]
  rcases hb : s.warmth.get? cacheKey with - | b
  · have hone := hentry .empty
    rw [hb] at hsize
    simp only [Option.elim_none, Option.getD_none] at hsize
    have hempty : (Dict.empty : Bucket).items.length = 0 := rfl
    omega
  · have hone := hentry b
    rw [hb] at hsize
    simp only [Option.elim_some, Option.getD_some] at hsize
    omega

variable (hnow : ∀ call ∈ past, call.time < now)

include hnow in
/-- The entries of a record at a later time. -/
theorem SeenApart.warmed (h : SeenApart past s.warmth) {call : WarmthCall} (hcall : call.time = now) :
    SeenApart (past ++ [call]) (s.warmed key cacheKey use now) := by
  have hnew : ∀ k b e, (s.warmed key cacheKey use now).get? k = some b → e ∈ b.items →
      (k = cacheKey ∧ e.2.lastSeenTs = now) ∨ ∃ b', s.warmth.get? k = some b' ∧ e ∈ b'.items := by
    intro k b e hb he
    rw [get?_warmed] at hb
    split_ifs at hb with hk
    · subst hk
      obtain rfl := Option.some.inj hb
      exact (mem_recorded he).imp_left fun htime ↦ ⟨rfl, htime⟩
    · exact .inr ⟨b, hb, he⟩
  have hold : ∀ k b e, s.warmth.get? k = some b → e ∈ b.items → e.2.lastSeenTs < now := by
    intro k b e hb he
    obtain ⟨c, hc, htime⟩ := h.seen k b e hb he
    exact htime ▸ hnow c hc
  constructor
  · intro k b e hb he
    rcases hnew k b e hb he with ⟨-, htime⟩ | ⟨b', hb', he'⟩
    · exact ⟨call, by simp, hcall.trans htime.symm⟩
    · obtain ⟨c, hc, htime⟩ := h.seen k b' e hb' he'
      exact ⟨c, List.mem_append_left _ hc, htime⟩
  · intro k l b c e f hb hc he hf htime
    rcases hnew k b e hb he with ⟨hk, hknow⟩ | ⟨b', hb', he'⟩
    · rcases hnew l c f hc hf with ⟨hl, -⟩ | ⟨c', hc', hf'⟩
      · exact hk.trans hl.symm
      · exact absurd (htime.symm.trans hknow) (hold l c' f hc' hf').ne
    · rcases hnew l c f hc hf with ⟨-, hlnow⟩ | ⟨c', hc', hf'⟩
      · exact absurd (htime.trans hlnow) (hold k b' e hb' he').ne
      · exact h.apart k l b' c' e f hb' hc' he' hf' htime

theorem filled_warmed (h : WarmthBounded s.warmth) (k : PyStr) (b : Bucket)
    (hb : (s.warmed key cacheKey use now).get? k = some b) : b.items ≠ [] := by
  rw [get?_warmed] at hb
  split_ifs at hb
  · obtain rfl := Option.some.inj hb
    obtain ⟨e, he, -⟩ := exists_recorded key use now (s.warmth.get? cacheKey)
    exact List.ne_nil_of_mem he
  · exact h.filled k b hb

include hnow in
/-- The bucket that was recorded was seen last. -/
theorem lastSeen_warmed (h : WarmthKept past s.warmth) {b : Bucket}
    (hb : (s.warmed key cacheKey use now).get? cacheKey = some b) : lastSeen b = now := by
  rw [get?_warmed, if_pos rfl] at hb
  obtain rfl := Option.some.inj hb
  obtain ⟨e, he, htime⟩ := exists_recorded key use now (s.warmth.get? cacheKey)
  obtain ⟨⟨f, hf, hlast⟩, hle⟩ := lastSeen_spec (List.ne_nil_of_mem he)
  refine le_antisymm ?_ (htime ▸ hle e he)
  rw [← hlast]
  rcases mem_recorded hf with hfnow | ⟨b', hb', hf'⟩
  · exact hfnow.le
  · obtain ⟨c, hc, hctime⟩ := h.seenApart.seen cacheKey b' f hb' hf'
    exact hctime ▸ (hnow c hc).le

include hnow in
/-- **What is evicted** was seen before everything else, and the bucket that was recorded is evicted only if it is
alone. -/
theorem evictsOldest (h : WarmthKept past s.warmth) {k : PyStr}
    (hoverfull : overfull (s.warmed key cacheKey use now) = true)
    (hevicted : evicted (s.warmed key cacheKey use now) = some k) :
    EvictsOldest (s.warmed key cacheKey use now) ((s.warmed key cacheKey use now).erase k) cacheKey k := by
  rw [evicted, if_pos hoverfull] at hevicted
  obtain ⟨b, hb, hleast⟩ := oldestKey_spec hevicted
  have hfilled : ∀ k b, (s.warmed key cacheKey use now).get? k = some b → b.items ≠ [] := filled_warmed h.bounded
  have hafter : SeenApart (past ++ [.recordCacheActivity key none use none now]) (s.warmed key cacheKey use now) :=
    h.seenApart.warmed hnow rfl
  have hstrict : ∀ b l c, (s.warmed key cacheKey use now).get? k = some b → l ≠ k →
      (s.warmed key cacheKey use now).get? l = some c → lastSeen b < lastSeen c := by
    intro b' l c hb' hl hc
    obtain rfl : b = b' := Option.some.inj (hb.symm.trans hb')
    refine lt_of_le_of_ne (hleast l c hc) fun heq ↦ hl ?_
    -- two buckets that were last seen at one time are one
    obtain ⟨⟨e, he, hetime⟩, -⟩ := lastSeen_spec (hfilled k b hb)
    obtain ⟨⟨f, hf, hftime⟩, -⟩ := lastSeen_spec (hfilled l c hc)
    exact hafter.apart l k c b f e hc hb hf he (hftime.trans (heq.symm.trans hetime.symm))
  refine ⟨fun l hl ↦ by rw [Dict.get?_erase, if_neg hl], hstrict, ?_⟩
  rintro rfl l hl
  refine Option.eq_none_iff_forall_ne_some.2 fun c hc ↦ ?_
  -- any other bucket was seen before the one that was recorded
  have hlt := hstrict b l c hb hl hc
  rw [lastSeen_warmed hnow h hb] at hlt
  obtain ⟨⟨f, hf, hftime⟩, -⟩ := lastSeen_spec (hfilled l c hc)
  rw [get?_warmed, if_neg hl] at hc
  obtain ⟨call, hcall, htime⟩ := h.seenApart.seen l c f hc hf
  rw [← hftime, ← htime] at hlt
  exact absurd (hnow call hcall) (not_lt.2 hlt.le)

/-- **A record keeps the bounds.** -/
theorem bounded_record (h : WarmthKept past s.warmth) :
    WarmthBounded ((evicted (s.warmed key cacheKey use now)).elim (s.warmed key cacheKey use now)
      (s.warmed key cacheKey use now).erase) := by
  have hlength := length_warmed_le s key cacheKey use now
  have hcount := entryCount_warmed_le s key cacheKey use now
  have hfilled : ∀ k b, (s.warmed key cacheKey use now).get? k = some b → b.items ≠ [] := filled_warmed h.bounded
  have hkeys := h.bounded.keys
  have hentries := h.bounded.entries
  set W := s.warmed key cacheKey use now with hW
  by_cases hoverfull : overfull W = true
  · -- the bucket that goes has a key and at least one entry
    have hne : W.items ≠ [] := by
      intro hnil
      rw [overfull, hnil] at hoverfull
      exact absurd hoverfull (by decide)
    obtain ⟨k, hk⟩ := exists_oldestKey hne
    obtain ⟨b, hb, -⟩ := oldestKey_spec hk
    have hitems := List.length_pos_iff.2 (hfilled k b hb)
    have hkeysErase := W.length_erase_add hb
    have hentriesErase := entryCount_erase_add hb
    rw [evicted, if_pos hoverfull, hk, Option.elim_some]
    refine ⟨by omega, by omega, fun l c hc ↦ ?_⟩
    rw [Dict.get?_erase] at hc
    split_ifs at hc
    exact hfilled l c hc
  · rw [evicted, if_neg hoverfull, Option.elim_none]
    simp only [overfull, Bool.or_eq_true, decide_eq_true_eq, not_or, not_lt] at hoverfull
    exact ⟨hoverfull.1, hoverfull.2, hfilled⟩

include hnow in
theorem WarmthKept.record (h : WarmthKept past s.warmth) {cacheSupported : Option Bool} {cacheKey : Option PyStr} :
    WarmthKept (past ++ [.recordCacheActivity key cacheKey use cacheSupported now])
      (s.recordCacheActivity key cacheKey use cacheSupported now).warmth := by
  unfold recordCacheActivity
  rcases cacheKey with - | cacheKey
  · exact ⟨h.bounded, h.seenApart.concat _⟩
  · simp only
    split_ifs
    · exact ⟨h.bounded, h.seenApart.concat _⟩
    · have hwarmed : SeenApart (past ++ [.recordCacheActivity key (some cacheKey) use cacheSupported now])
          (s.warmed key cacheKey use now) := h.seenApart.warmed hnow rfl
      refine ⟨bounded_record h, hwarmed.left ?_⟩
      rcases evicted (s.warmed key cacheKey use now) with - | k
      · exact fun l b hb ↦ ⟨b, hb, List.Subset.refl _⟩
      · exact warmthLeft_erase _ k

/-! ### A lookup -/

theorem WarmthBounded.erase {warmth : Dict PyStr Bucket} {k : PyStr} {b : Bucket} (h : WarmthBounded warmth)
    (hb : warmth.get? k = some b) : WarmthBounded (warmth.erase k) where
  keys := le_trans (by rw [← warmth.length_erase_add hb]; exact Nat.le_succ _) h.keys
  entries := le_trans (by rw [← entryCount_erase_add hb]; exact Nat.le_add_right _ _) h.entries
  filled l c hc := by
    rw [Dict.get?_erase] at hc
    split_ifs at hc
    exact h.filled l c hc

/-- A bucket may be replaced by one that is no longer, and not empty. -/
theorem WarmthBounded.alter {warmth : Dict PyStr Bucket} {k : PyStr} {b b' : Bucket} (h : WarmthBounded warmth)
    (hb : warmth.get? k = some b) (hle : b'.items.length ≤ b.items.length) (hne : b'.items ≠ []) :
    WarmthBounded (warmth.alter k fun _ ↦ b') := by
  have hkeys := warmth.length_alter_add (k := k) fun _ ↦ b'
  have hentries := entryCount_alter_add warmth k fun _ ↦ b'
  rw [hb, Option.elim_some] at hkeys hentries
  refine ⟨le_trans (by omega) h.keys, le_trans (by omega) h.entries, fun l c hc ↦ ?_⟩
  rw [Dict.get?_alter] at hc
  split_ifs at hc
  · obtain rfl := Option.some.inj hc
    exact hne
  · exact h.filled l c hc

/-- A lookup leaves some of what there was, and no bucket empty. -/
theorem warmthLeft_warmBackendsFor {candidates : List PyStr} {ttlSec : ℚ} :
    WarmthLeft s.warmth (s.warmBackendsFor cacheKey candidates ttlSec now).1.warmth := by
  intro l b hb
  rcases eq_or_ne l cacheKey with rfl | hl
  · unfold warmBackendsFor at hb
    split_ifs at hb
    · exact ⟨b, hb, List.Subset.refl _⟩
    · rcases hbucket : s.warmth.get? l with - | bucket <;> rw [hbucket] at hb <;> simp only at hb
      · rw [hbucket] at hb
        cases hb
      · split_ifs at hb
        · exact ⟨b, hbucket ▸ hb, List.Subset.refl _⟩
        · rw [Dict.get?_erase, if_pos rfl] at hb
          cases hb
        · rw [Dict.get?_alter_self] at hb
          obtain rfl := Option.some.inj hb
          exact ⟨bucket, rfl, List.filter_subset_self _⟩
  · rw [get?_warmBackendsFor_of_ne s hl] at hb
    exact ⟨b, hb, List.Subset.refl _⟩

/-- **A lookup keeps the bounds.** -/
theorem bounded_warmBackendsFor {candidates : List PyStr} {ttlSec : ℚ} (h : WarmthBounded s.warmth) :
    WarmthBounded (s.warmBackendsFor cacheKey candidates ttlSec now).1.warmth := by
  unfold warmBackendsFor
  split_ifs
  · exact h
  · rcases hbucket : s.warmth.get? cacheKey with - | bucket
    · exact h
    · simp only
      split_ifs with hnil hlive
      · exact h
      · -- the bucket goes
        exact h.erase hbucket
      · -- its expired entries go
        exact h.alter hbucket (List.length_filter_le _ _) hlive

end Kept

/-! ### Runs -/

namespace WarmthCall

variable {past : List WarmthCall} {s : StatsRegistry} {call : WarmthCall}

theorem next_kept (h : WarmthKept past s.warmth) (htime : ∀ c ∈ past, c.time < call.time) :
    WarmthKept (past ++ [call]) (call.next s).warmth := by
  cases call with
  | recordCacheActivity key cacheKey use cacheSupported now => exact h.record htime
  | warmBackendsFor cacheKey candidates ttlSec now =>
    exact ⟨bounded_warmBackendsFor h.bounded, (h.seenApart.concat _).left warmthLeft_warmBackendsFor⟩

theorem behaves_of_kept (h : WarmthKept past s.warmth) (htime : ∀ c ∈ past, c.time < call.time) :
    call.Behaves s := by
  refine ⟨(next_kept h htime).bounded, ?_⟩
  rcases call with ⟨key, - | cacheKey, use, cacheSupported, now⟩ | ⟨cacheKey, candidates, ttlSec, now⟩
  · trivial
  · intro hcacheKey hsupports k hthere hgone
    have hafter : (WarmthCall.next s (.recordCacheActivity key (some cacheKey) use cacheSupported now)).warmth =
        (evicted (s.warmed key cacheKey use now)).elim (s.warmed key cacheKey use now)
          (s.warmed key cacheKey use now).erase := by
      show (s.recordCacheActivity key (some cacheKey) use cacheSupported now).warmth = _
      simp [StatsRegistry.recordCacheActivity, hcacheKey, hsupports]
    rw [hafter] at hgone ⊢
    by_cases hoverfull : overfull (s.warmed key cacheKey use now) = true
    · rcases hevicted : evicted (s.warmed key cacheKey use now) with - | l
      · rw [hevicted] at hgone
        exact absurd hgone hthere
      · rw [hevicted, Option.elim_some, Dict.get?_erase] at hgone
        obtain rfl : k = l := by
          by_contra hne
          rw [if_neg hne] at hgone
          exact hthere hgone
        exact evictsOldest htime h hoverfull hevicted
    · rw [evicted, if_neg hoverfull] at hgone
      exact absurd hgone hthere
  · trivial

theorem kept_initial : WarmthKept [] StatsRegistry.initial.warmth where
  bounded := ⟨Nat.zero_le _, Nat.zero_le _, fun k b h ↦ by cases h⟩
  seenApart := ⟨fun k b e h ↦ (by cases h), fun k l b c e f h ↦ (by cases h)⟩

/-- **Warmth registry bounds.** In every run of records and lookups at increasing times, after every call the registry
is within both limits and has no empty bucket; a bucket that a record evicts is the one that was seen least recently,
nothing else goes with it, and it is not the bucket just recorded unless that is the only one. -/
theorem every_behaves {calls : List WarmthCall} (h : (calls.map time).Pairwise (· < ·)) :
    Runs.Every next (fun _ s call ↦ call.Behaves s) .initial calls := by
  refine Runs.every_of_invariant (P := fun past _ call ↦ ∀ c ∈ past, c.time < call.time)
    (fun past s ↦ WarmthKept past s.warmth) kept_initial (fun _ _ _ h htime ↦ next_kept h htime)
    (fun _ _ _ h htime ↦ behaves_of_kept h htime) ?_
  rintro past call future rfl c hc
  rw [List.map_append, List.map_cons] at h
  exact (List.pairwise_append.1 h).2.2 _ (List.mem_map_of_mem hc) _ List.mem_cons_self

/-- A record that warms a cache. -/
def warmAt (cacheKey : PyStr) (now : ℚ) : WarmthCall :=
  .recordCacheActivity (py "p:m") (some cacheKey) ⟨some 5, none, some 10⟩ none now

/-- Two conversations, and a lookup that finds the first one expired. -/
def warmSample : List WarmthCall :=
  [warmAt (py "a") 1, warmAt (py "b") 2, .warmBackendsFor (py "a") [py "p:m"] 300 400]

theorem every_behaves_sample :
    Runs.Every next (fun _ s call ↦ call.Behaves s) .initial warmSample ∧
      (Runs.exec next .initial warmSample).warmth.items.map Prod.fst = [py "b"] :=
  ⟨every_behaves (by decide +kernel), by decide +kernel⟩

end WarmthCall

end LocalGateway
