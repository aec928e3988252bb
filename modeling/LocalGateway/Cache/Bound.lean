import LocalGateway.Cache.Calls
import Mathlib.Data.Finset.Card

/-!
# How many keys the response cache answers

A store hands the writer an insertion and, under a limit, an eviction of the rows that were used
longest ago. The eviction is a statement on the table: the memory tier, which `lookup` asks first, is
bounded by its own capacity and never hears of it.

* `canAnswer_iff`: what can be answered is what one of the two tiers holds.
* `lookup_tiers`, `store_tiers`: what a call does to the memory tier and to the queue.
* `bounded_of_coherent`: where no statement deletes a row whose key is still in memory, the limit
  bounds the keys that are answered, and what was evicted is not answered until it is stored anew.
* `not_bounded_of_evictedInMemory`: a store under a limit of one leaves two keys to be answered.
-/

namespace LocalGateway

open Py Json

namespace RespCache

/-! ### Keys -/

/-- The keys of the memory tier. -/
def memKeys (s : Cache) : List PyStr :=
  s.mem.map Prod.fst

/-- The keys of a table. -/
def tableKeys (table : List Row) : List PyStr :=
  table.map Row.key

/-- An insertion under the key is on its way to the table. -/
def Awaits (queue : List Write) (key : PyStr) : Prop :=
  ∃ row, Write.insert row ∈ queue ∧ row.key = key

/-- Some lookup of the key would be answered. -/
def CanAnswer (s : Cache) (key : PyStr) : Prop :=
  ∃ ttlSec now, (lookup s key ttlSec now).1 ≠ none

theorem lookup_eq_none_iff_notMem {mem : List (PyStr × Entry)} {key : PyStr} :
    mem.lookup key = none ↔ key ∉ mem.map Prod.fst := by
  simp [List.lookup_eq_none_iff]
  grind

theorem find?_eq_none_iff_notMem {table : List Row} {key : PyStr} :
    table.find? (·.key = key) = none ↔ key ∉ tableKeys table := by
  simp [tableKeys]

/-- A lookup finds nothing under a key that no tier holds. -/
theorem lookup_eq_none {s : Cache} {key : PyStr} (hmem : key ∉ memKeys s)
    (htable : key ∉ tableKeys s.table) (ttlSec now : ℚ) : lookup s key ttlSec now = (none, s) := by
  simp only [lookup, lookup_eq_none_iff_notMem.2 hmem, find?_eq_none_iff_notMem.2 htable]

/-- **What can be answered is what a tier holds.** A request with no time to live takes any entry. -/
theorem canAnswer_iff {s : Cache} {key : PyStr} :
    CanAnswer s key ↔ key ∈ memKeys s ∨ key ∈ tableKeys s.table := by
  constructor
  · rintro ⟨ttlSec, now, h⟩
    by_contra! hnone
    exact h (by rw [lookup_eq_none hnone.1 hnone.2])
  · have hlive : ∀ e : Entry, expired e.created e.ttl 0 0 = false := by
      intro e
      simp only [expired, Bool.and_eq_false_iff, decide_eq_false_iff_not, not_lt]
      left
      split_ifs
      · exact min_le_right _ _
      · exact le_rfl
    intro h
    refine ⟨0, 0, ?_⟩
    unfold lookup
    split
    · simp [hlive]
    · next hmem =>
      split
      · next hrow =>
        exact absurd h (not_or.2 ⟨lookup_eq_none_iff_notMem.1 hmem, find?_eq_none_iff_notMem.1 hrow⟩)
      · simp [hlive]

/-! ### Statements -/

/-- A statement adds no key but the one it inserts. -/
theorem mem_tableKeys_apply {w : Write} {table : List Row} {key : PyStr}
    (h : key ∈ tableKeys (w.apply table)) : key ∈ tableKeys table ∨ Awaits [w] key := by
  obtain ⟨row, hrow, rfl⟩ := List.mem_map.1 h
  cases w with
  | delete key => exact .inl (List.mem_map_of_mem (List.mem_of_mem_filter hrow))
  | touch key now =>
    obtain ⟨old, hold, rfl⟩ := List.mem_map.1 hrow
    left
    split_ifs <;> exact List.mem_map.2 ⟨old, hold, rfl⟩
  | insert new =>
    rcases List.mem_append.1 hrow with hrow | hrow
    · exact .inl (List.mem_map_of_mem (List.mem_of_mem_filter hrow))
    · obtain rfl := List.mem_singleton.1 hrow
      exact .inr ⟨row, List.mem_singleton_self _, rfl⟩
  | evict maxEntries => exact .inl (List.mem_map_of_mem (List.mem_of_mem_filter hrow))

theorem mem_tableKeys_insert (row : Row) (table : List Row) :
    row.key ∈ tableKeys ((Write.insert row).apply table) := by
  simp [Write.apply, tableKeys]

/-- Only an insertion makes the table longer. -/
theorem length_apply_le {w : Write} (h : ∀ row, w ≠ .insert row) (table : List Row) :
    (w.apply table).length ≤ table.length := by
  cases w with
  | delete key => exact List.length_filter_le _ _
  | touch key now => exact (List.length_map _).le
  | insert row => exact absurd rfl (h row)
  | evict maxEntries => exact List.length_filter_le _ _

/-- **An eviction leaves no more rows than the limit.** The rows in excess are filtered out of the
sorted table from its front. -/
theorem length_evict_le (maxEntries : ℕ) (table : List Row) :
    ((Write.evict maxEntries).apply table).length ≤ maxEntries := by
  have hperm : (byLastAccess table).Perm table := List.perm_insertionSort _ table
  set n := table.length - maxEntries with hn
  set excess := ((byLastAccess table).take n).map Row.key with hexcess
  have hgone : ((byLastAccess table).take n).filter (·.key ∉ excess) = [] := by
    refine List.filter_eq_nil_iff.2 fun row hrow ↦ ?_
    have hmem : row.key ∈ excess := List.mem_map_of_mem hrow
    simpa using hmem
  calc (table.filter (·.key ∉ excess)).length
      = ((byLastAccess table).filter (·.key ∉ excess)).length := (hperm.filter _).length_eq.symm
    _ = (((byLastAccess table).drop n).filter (·.key ∉ excess)).length := by
        conv_lhs => rw [← List.take_append_drop n (byLastAccess table)]
        rw [List.filter_append, hgone, List.nil_append]
    _ ≤ ((byLastAccess table).drop n).length := List.length_filter_le _ _
    _ ≤ maxEntries := by
        rw [List.length_drop, hperm.length_eq]
        omega

/-! ### Calls -/

/-- Putting an entry into the memory tier adds its key at most. -/
theorem mem_keys_memPut {mem : List (PyStr × Entry)} {key : PyStr} {entry : Entry} {k : PyStr}
    (h : k ∈ (memPut mem key entry).map Prod.fst) : k ∈ mem.map Prod.fst ∨ k = key := by
  obtain ⟨p, hp, rfl⟩ := List.mem_map.1 h
  rcases List.mem_append.1 (List.mem_of_mem_drop hp) with hp | hp
  · exact .inl (List.mem_map_of_mem (List.mem_of_mem_filter hp))
  · exact .inr (congrArg Prod.fst (List.mem_singleton.1 hp))

/-- What a call leaves behind: the table as it was, more statements for the writer, and in memory only
keys that satisfy `P`. -/
structure Leaves (s : Cache) (more : List Write) (P : PyStr → Prop) (s' : Cache) : Prop where
  running : s'.running = true
  table : s'.table = s.table
  queue : s'.queue = s.queue ++ more
  mem : ∀ key ∈ memKeys s', P key

theorem leaves_enqueue {s : Cache} (hs : s.running = true) {mem : List (PyStr × Entry)}
    {P : PyStr → Prop} (hmem : ∀ key ∈ mem.map Prod.fst, P key) (w : Write) :
    Leaves s [w] P (enqueue { s with mem := mem } w) := by
  rw [enqueue, if_pos hs]
  exact ⟨hs, rfl, rfl, hmem⟩

theorem Leaves.enqueue {s s' : Cache} {more : List Write} {P : PyStr → Prop} (h : Leaves s more P s')
    (w : Write) : Leaves s (more ++ [w]) P (enqueue s' w) := by
  rw [RespCache.enqueue, if_pos h.running]
  exact ⟨h.running, h.table, by rw [← List.append_assoc, ← h.queue], h.mem⟩

/-- **What a lookup does.** It hands the writer no insertion, and what is in memory afterwards could be
answered before. -/
theorem lookup_tiers {s : Cache} (hs : s.running = true) (key : PyStr) (ttlSec now : ℚ) :
    ∃ more, (∀ row, Write.insert row ∉ more) ∧
      Leaves s more (fun k ↦ k ∈ memKeys s ∨ k ∈ tableKeys s.table) (lookup s key ttlSec now).2 := by
  have hfilter : ∀ k ∈ (s.mem.filter (·.1 ≠ key)).map Prod.fst, k ∈ memKeys s := by
    intro k hk
    obtain ⟨p, hp, rfl⟩ := List.mem_map.1 hk
    exact List.mem_map_of_mem (List.mem_of_mem_filter hp)
  unfold lookup
  split
  · next e hmem =>
    split_ifs
    · exact ⟨[.delete key], by simp, leaves_enqueue hs (fun k hk ↦ .inl (hfilter k hk)) _⟩
    · refine ⟨[.touch key now], by simp, leaves_enqueue hs (fun k hk ↦ .inl ?_) _⟩
      rw [List.map_append] at hk
      rcases List.mem_append.1 hk with hk | hk
      · exact hfilter k hk
      · obtain rfl := List.mem_singleton.1 hk
        exact List.mem_map_of_mem (mem_of_lookup hmem)
  · split
    · exact ⟨[], by simp, hs, rfl, by simp, fun k hk ↦ .inl hk⟩
    · next row hrow =>
      have hkey : key ∈ tableKeys s.table := by
        have hrowKey : row.key = key := by simpa using List.find?_some hrow
        exact hrowKey ▸ List.mem_map_of_mem (List.mem_of_find?_eq_some hrow)
      dsimp only
      split_ifs
      · exact ⟨[.delete key], by simp, leaves_enqueue hs (fun k hk ↦ .inl hk) _⟩
      · refine ⟨[.touch key now], by simp, leaves_enqueue hs (fun k hk ↦ ?_) _⟩
        rcases mem_keys_memPut hk with hk | rfl
        · exact .inl hk
        · exact .inr hkey

/-- **What a store does** under a limit. -/
theorem store_tiers {s : Cache} (hs : s.running = true) {N : ℕ} (hN : 0 < N) (key model : PyStr)
    (body : PyBytes) (stream : Bool) (ttlSec now : ℚ) :
    Leaves s [.insert ⟨key, model, freshEntry body stream ttlSec now⟩, .evict N]
      (fun k ↦ k ∈ memKeys s ∨ k = key) (store s key model body stream ttlSec N now) := by
  have hlimit : (0 : ℤ) < N := by exact_mod_cast hN
  rw [store, if_pos hlimit]
  exact (leaves_enqueue hs (fun k hk ↦ mem_keys_memPut hk) _).enqueue _

/-! ### The bound -/

/-- A call of the bounded cache: a store under the limit, a lookup, or the writer executing its oldest
statement. -/
def CacheCall.Limited (N : ℕ) : CacheCall → Prop
  | .store _ _ _ _ _ maxEntries _ => maxEntries = N
  | .lookup .. => True
  | .write lost => lost = false
  | _ => False

/-- The call stores a reply under the key. -/
def CacheCall.Stores (key : PyStr) : CacheCall → Prop
  | .store k .. => k = key
  | _ => False

/-- A process that has just opened a database with a table in it. -/
def Cache.opened (table : List Row) : Cache :=
  { Cache.init with table := table }

/-- Once the writer has drained after a store, no more than `N` keys can be answered. -/
def BoundedAnswers (N : ℕ) (s : Cache) (calls : List CacheCall) : Prop :=
  ∀ past future, calls = past ++ future → (∃ c ∈ past, ∃ key, c.Stores key) →
    (Runs.exec after s past).queue = [] →
    ∀ keys : Finset PyStr, (∀ key ∈ keys, CanAnswer (Runs.exec after s past) key) → keys.card ≤ N

/-- The statement the writer executes next evicts the row of the key, and no newer reply is on its way
to the table. -/
def Evicts (s : Cache) (key : PyStr) : Prop :=
  ∃ maxEntries queue, s.queue = .evict maxEntries :: queue ∧ key ∈ tableKeys s.table ∧
    key ∉ tableKeys ((Write.evict maxEntries).apply s.table) ∧ ¬ Awaits queue key

/-- What was evicted is not answered until it is stored anew. -/
def EvictedStaysGone (s : Cache) (calls : List CacheCall) : Prop :=
  ∀ past between key ttlSec now future,
    calls = past ++ .write false :: (between ++ .lookup key ttlSec now :: future) →
    Evicts (Runs.exec after s past) key → (∀ c ∈ between, ¬ c.Stores key) →
    (lookup (Runs.exec after s (past ++ .write false :: between)) key ttlSec now).1 = none

/-- If the call is the writer's and its statement deletes the row of a key, the key is no longer in
memory, or a newer reply for it is on its way to the table. -/
def CacheCall.Coheres (s : Cache) (c : CacheCall) : Prop :=
  c = .write false → ∀ w queue, s.queue = w :: queue → ∀ key ∈ memKeys s, key ∈ tableKeys s.table →
    key ∉ tableKeys (w.apply s.table) → Awaits queue key

/-- The writer never deletes the row of a key that stays in memory. -/
def Coherent (s : Cache) (calls : List CacheCall) : Prop :=
  Runs.Every after (fun _ s c ↦ c.Coheres s) s calls

/-! ### The invariants -/

/-- What is in memory is in the table or on its way there. -/
structure Backed (s : Cache) : Prop where
  running : s.running = true
  backed : ∀ key ∈ memKeys s, key ∈ tableKeys s.table ∨ Awaits s.queue key

/-- No tier holds the key and nothing brings it back. -/
structure Gone (key : PyStr) (s : Cache) : Prop where
  running : s.running = true
  mem : key ∉ memKeys s
  table : key ∉ tableKeys s.table
  queue : ¬ Awaits s.queue key

/-- The table once the writer has drained. -/
def drained (s : Cache) : List Row :=
  s.queue.foldl Write.apply s.table

theorem awaits_append {queue more : List Write} {key : PyStr} :
    Awaits (queue ++ more) key ↔ Awaits queue key ∨ Awaits more key := by
  simp only [Awaits, List.mem_append, or_and_right, exists_or]

theorem awaits_cons {w : Write} {queue : List Write} {key : PyStr} :
    Awaits (w :: queue) key ↔ Awaits [w] key ∨ Awaits queue key := by
  rw [← awaits_append, List.singleton_append]

theorem not_awaits {more : List Write} (h : ∀ row, Write.insert row ∉ more) (key : PyStr) :
    ¬ Awaits more key :=
  fun ⟨row, hrow, _⟩ ↦ h row hrow

/-- An insertion that is executed has its key in the table. -/
theorem mem_tableKeys_of_awaits {w : Write} {key : PyStr} (h : Awaits [w] key) (table : List Row) :
    key ∈ tableKeys (w.apply table) := by
  obtain ⟨row, hrow, rfl⟩ := h
  obtain rfl := List.mem_singleton.1 hrow
  exact mem_tableKeys_insert row table

theorem Leaves.backed {s s' : Cache} {more : List Write} {P : PyStr → Prop} (h : Leaves s more P s')
    (hs : Backed s)
    (hP : ∀ key, P key → (key ∈ memKeys s ∨ key ∈ tableKeys s.table) ∨ Awaits more key) :
    Backed s' := by
  refine ⟨h.running, fun key hkey ↦ ?_⟩
  rw [h.table, h.queue, awaits_append, ← or_assoc]
  refine (hP key (h.mem key hkey)).imp_left fun hkey ↦ ?_
  exact hkey.elim (hs.backed key) .inl

theorem Leaves.gone {s s' : Cache} {more : List Write} {P : PyStr → Prop} (h : Leaves s more P s')
    {key : PyStr} (hs : Gone key s) (hP : ¬ P key) (hmore : ¬ Awaits more key) : Gone key s' := by
  refine ⟨h.running, fun hkey ↦ hP (h.mem key hkey), ?_, ?_⟩
  · rw [h.table]
    exact hs.table
  · rw [h.queue, awaits_append]
    exact not_or.2 ⟨hs.queue, hmore⟩

theorem Leaves.drained_eq {s s' : Cache} {more : List Write} {P : PyStr → Prop}
    (h : Leaves s more P s') : drained s' = more.foldl Write.apply (drained s) := by
  rw [drained, h.table, h.queue, List.foldl_append]
  rfl

theorem length_foldl_apply_le {more : List Write} (h : ∀ row, Write.insert row ∉ more)
    (table : List Row) : (more.foldl Write.apply table).length ≤ table.length := by
  induction more generalizing table with
  | nil => exact le_rfl
  | cons w more ih =>
    have hw : ∀ row, w ≠ .insert row := fun row hrow ↦ h row (hrow ▸ List.mem_cons_self)
    exact (ih (fun row hrow ↦ h row (List.mem_cons_of_mem w hrow)) _).trans (length_apply_le hw table)

/-- The writer's step. -/
theorem after_write (s : Cache) :
    after s (.write false) = s ∨ ∃ w queue, s.queue = w :: queue ∧
      after s (.write false) = { s with queue := queue, table := w.apply s.table } := by
  rcases hqueue : s.queue with - | ⟨w, queue⟩
  · exact .inl (by simp [after, hqueue])
  · exact .inr ⟨w, queue, rfl, by simp [after, hqueue]⟩

/-- **One call keeps the memory tier backed**, a statement if it is coherent. -/
theorem Backed.after {N : ℕ} (hN : 0 < N) {s : Cache} (hs : Backed s) {c : CacheCall}
    (hc : c.Limited N) (hcoheres : c.Coheres s) : Backed (after s c) := by
  cases c with
  | store key model body stream ttlSec maxEntries now =>
    obtain rfl : maxEntries = N := hc
    refine (store_tiers hs.running hN key model body stream ttlSec now).backed hs fun k hk ↦ ?_
    rcases hk with hk | rfl
    · exact .inl (.inl hk)
    · exact .inr ⟨_, List.mem_cons_self, rfl⟩
  | lookup key ttlSec now =>
    obtain ⟨more, -, hleaves⟩ := lookup_tiers hs.running key ttlSec now
    exact hleaves.backed hs fun k hk ↦ .inl hk
  | write lost =>
    obtain rfl : lost = false := hc
    rcases after_write s with heq | ⟨w, queue, hqueue, heq⟩
    · rwa [heq]
    rw [heq]
    refine ⟨hs.running, fun k hk ↦ ?_⟩
    by_cases htable : k ∈ tableKeys (w.apply s.table)
    · exact .inl htable
    rcases hs.backed k hk with h | h
    · exact .inr (hcoheres rfl w queue hqueue k hk h htable)
    · rw [hqueue, awaits_cons] at h
      exact .inr (h.resolve_left fun h ↦ htable (mem_tableKeys_of_awaits h s.table))
  | clear | clearTable | stop | start => exact hc.elim

/-- **One call keeps a key gone** unless it stores it. -/
theorem Gone.after {N : ℕ} (hN : 0 < N) {s : Cache} {key : PyStr} (hs : Gone key s) {c : CacheCall}
    (hc : c.Limited N) (hstores : ¬ c.Stores key) : Gone key (after s c) := by
  cases c with
  | store k model body stream ttlSec maxEntries now =>
    obtain rfl : maxEntries = N := hc
    have hne : key ≠ k := fun h ↦ hstores h.symm
    refine (store_tiers hs.running hN k model body stream ttlSec now).gone hs ?_ ?_
    · exact not_or.2 ⟨hs.mem, hne⟩
    · rintro ⟨row, hrow, rfl⟩
      rcases List.mem_cons.1 hrow with h | h
      · exact hne (congrArg Row.key (Write.insert.inj h))
      · exact nomatch List.mem_singleton.1 h
  | lookup k ttlSec now =>
    obtain ⟨more, hmore, hleaves⟩ := lookup_tiers hs.running k ttlSec now
    exact hleaves.gone hs (not_or.2 ⟨hs.mem, hs.table⟩) (not_awaits hmore key)
  | write lost =>
    obtain rfl : lost = false := hc
    rcases after_write s with heq | ⟨w, queue, hqueue, heq⟩
    · rwa [heq]
    have hqueueGone := hs.queue
    rw [hqueue, awaits_cons, not_or] at hqueueGone
    rw [heq]
    exact ⟨hs.running, hs.mem, fun h ↦ (mem_tableKeys_apply h).elim hs.table hqueueGone.1,
      hqueueGone.2⟩
  | clear | clearTable | stop | start => exact hc.elim

/-- After a store the drained table is within the limit, and every later call keeps it so. -/
theorem length_drained_after {N : ℕ} (hN : 0 < N) {s : Cache} (hs : s.running = true) {c : CacheCall}
    (hc : c.Limited N) (h : (drained s).length ≤ N ∨ ∃ key, c.Stores key) :
    (drained (after s c)).length ≤ N := by
  cases c with
  | store key model body stream ttlSec maxEntries now =>
    obtain rfl : maxEntries = N := hc
    have hleaves := store_tiers hs hN key model body stream ttlSec now
    change (drained (store s key model body stream ttlSec N now)).length ≤ N
    rw [hleaves.drained_eq]
    exact length_evict_le N _
  | lookup key ttlSec now =>
    obtain ⟨more, hmore, hleaves⟩ := lookup_tiers hs key ttlSec now
    change (drained (lookup s key ttlSec now).2).length ≤ N
    rw [hleaves.drained_eq]
    exact (length_foldl_apply_le hmore _).trans (h.resolve_right fun ⟨_, h⟩ ↦ h)
  | write lost =>
    obtain rfl : lost = false := hc
    have hdrained : (drained s).length ≤ N := h.resolve_right fun ⟨_, h⟩ ↦ h
    rcases after_write s with heq | ⟨w, queue, hqueue, heq⟩
    · rwa [heq]
    · rw [drained, hqueue, List.foldl_cons] at hdrained
      rwa [heq]
  | clear | clearTable | stop | start => exact hc.elim

/-! ### Runs -/

section Runs

variable {N : ℕ} (hN : 0 < N) {s : Cache} {calls : List CacheCall}
  (hcalls : ∀ c ∈ calls, c.Limited N) (hcoherent : Coherent s calls)

include hN hcalls hcoherent in
/-- In a coherent run the memory tier stays backed, and the drained table is within the limit from the
first store on. -/
theorem exec_backed (hs : Backed s) :
    Backed (Runs.exec after s calls) ∧ ((∃ c ∈ calls, ∃ key, c.Stores key) →
      (drained (Runs.exec after s calls)).length ≤ N) := by
  have hboth : Runs.Every after (fun _ s c ↦ c.Limited N ∧ c.Coheres s) s calls := fun past c future h ↦
    ⟨hcalls c (h ▸ List.mem_append_right _ List.mem_cons_self), hcoherent past c future h⟩
  refine Runs.exec_invariant (fun past s ↦ Backed s ∧ ((∃ c ∈ past, ∃ key, c.Stores key) →
    (drained s).length ≤ N)) ⟨hs, by simp⟩ (fun past s c hinv hc ↦ ?_) hboth
  refine ⟨hinv.1.after hN hc.1 hc.2, ?_⟩
  rintro ⟨d, hd, hstores⟩
  refine length_drained_after hN hinv.1.running hc.1 ?_
  rcases List.mem_append.1 hd with hd | hd
  · exact .inl (hinv.2 ⟨d, hd, hstores⟩)
  · obtain rfl := List.mem_singleton.1 hd
    exact .inr hstores

include hN in
/-- A key that is gone stays gone while no call stores it. -/
theorem exec_gone {key : PyStr} (hs : Gone key s)
    (hcalls : ∀ c ∈ calls, c.Limited N ∧ ¬ c.Stores key) : Gone key (Runs.exec after s calls) :=
  Runs.exec_invariant (fun _ s ↦ Gone key s) (P := fun _ _ c ↦ c.Limited N ∧ ¬ c.Stores key) hs
    (fun _ _ _ hgone hc ↦ hgone.after hN hc.1 hc.2)
    fun _ c _ h ↦ hcalls c (h ▸ List.mem_append_right _ List.mem_cons_self)

/-- In a coherent run an evicted key is gone. -/
theorem Evicts.gone {key : PyStr} (hs : Backed s) (h : Evicts s key)
    (hcoheres : (CacheCall.write false).Coheres s) : Gone key (after s (.write false)) := by
  obtain ⟨maxEntries, queue, hqueue, hrow, hevicted, hawaits⟩ := h
  have hmem : key ∉ memKeys s := fun hmem ↦
    hawaits (hcoheres rfl _ queue hqueue key hmem hrow hevicted)
  have hafter : after s (.write false) =
      { s with queue := queue, table := (Write.evict maxEntries).apply s.table } := by
    simp [after, hqueue]
  rw [hafter]
  exact ⟨hs.running, hmem, hevicted, hawaits⟩

end Runs

theorem opened_backed (table : List Row) : Backed (Cache.opened table) :=
  ⟨rfl, fun _ hkey ↦ absurd hkey List.not_mem_nil⟩

/-- **The bound of the response cache.** In every run of stores under a limit and lookups in which no
statement deletes the row of a key that is still in memory, the limit bounds the keys that can be
answered once the writer has drained after a store, and what was evicted is not answered until it is
stored anew. -/
theorem bounded_of_coherent {N : ℕ} (hN : 0 < N) (table : List Row) {calls : List CacheCall}
    (hcalls : ∀ c ∈ calls, c.Limited N) (hcoherent : Coherent (Cache.opened table) calls) :
    BoundedAnswers N (Cache.opened table) calls ∧ EvictedStaysGone (Cache.opened table) calls := by
  constructor
  · rintro past future rfl hstore hqueue keys hkeys
    obtain ⟨hbacked, hlength⟩ := exec_backed hN (fun c hc ↦ hcalls c (List.mem_append_left _ hc))
      (Runs.every_append_left hcoherent) (opened_backed table)
    have hdrained := hlength hstore
    rw [drained, hqueue, List.foldl_nil] at hdrained
    -- with nothing on its way, what is in memory is in the table
    have hsub : keys ⊆ (tableKeys (Runs.exec after (Cache.opened table) past).table).toFinset := by
      intro key hkey
      rw [List.mem_toFinset]
      refine (canAnswer_iff.1 (hkeys key hkey)).elim (fun hmem ↦ ?_) id
      refine (hbacked.backed key hmem).resolve_right ?_
      rw [hqueue]
      exact not_awaits (fun _ ↦ List.not_mem_nil) key
    calc keys.card ≤ _ := Finset.card_le_card hsub
      _ ≤ (tableKeys (Runs.exec after (Cache.opened table) past).table).length :=
          List.toFinset_card_le _
      _ = (Runs.exec after (Cache.opened table) past).table.length := List.length_map _
      _ ≤ N := hdrained
  · rintro past between key ttlSec now future rfl hevicts hbetween
    have hpast := exec_backed hN (fun c hc ↦ hcalls c (List.mem_append_left _ hc))
      (Runs.every_append_left hcoherent) (opened_backed table)
    have hgone := hevicts.gone hpast.1 (hcoherent past _ _ rfl)
    have hlater := exec_gone hN hgone fun c hc ↦ ⟨hcalls c (by simp [hc]), hbetween c hc⟩
    have hsplit : past ++ .write false :: between = (past ++ [.write false]) ++ between := by simp
    rw [hsplit, Runs.exec_append, Runs.exec_concat]
    exact congrArg Prod.fst (lookup_eq_none hlater.mem hlater.table ttlSec now)

/-! ### Runs of one request after the other -/

/-- A row of an earlier process. -/
def oldRow : Row :=
  ⟨py "old", py "m", freshEntry (pyb "{}") false 3600 0⟩

/-- A store of a plain reply under a limit of one. -/
def storeOne (key : String) (now : ℚ) : CacheCall :=
  .store (py key) (py "m") (pyb "{}") false 3600 1 now

/-- The writer's step is coherent if the rows of the keys in memory outlive its statement. -/
theorem coheres_write {s : Cache} {w : Write} {queue : List Write} (hqueue : s.queue = w :: queue)
    (h : ∀ key ∈ memKeys s, key ∈ tableKeys s.table → key ∈ tableKeys (w.apply s.table)) :
    (CacheCall.write false).Coheres s := by
  rintro - w' queue' hqueue' key hmem hrow hdeleted
  obtain ⟨rfl, rfl⟩ := List.cons.inj (hqueue.symm.trans hqueue')
  exact absurd (h key hmem hrow) hdeleted

/-- A process that finds a row of its predecessor keeps the bound: nobody asked for the old row, so it
was not in memory when it was evicted. -/
theorem bounded_after_restart :
    BoundedAnswers 1 (Cache.opened [oldRow])
        [storeOne "new" 1, .write false, .write false, .lookup (py "old") 3600 2] ∧
      EvictedStaysGone (Cache.opened [oldRow])
        [storeOne "new" 1, .write false, .write false, .lookup (py "old") 3600 2] := by
  refine bounded_of_coherent Nat.one_pos [oldRow] (by simp [CacheCall.Limited, storeOne]) ?_
  refine Runs.every_cons_iff.2 ⟨nofun, Runs.every_cons_iff.2 ⟨?_, Runs.every_cons_iff.2 ⟨?_, ?_⟩⟩⟩
  · exact coheres_write rfl (by decide +kernel)
  · exact coheres_write rfl (by decide +kernel)
  · exact Runs.every_cons_iff.2 ⟨nofun, Runs.every_nil _ _⟩

/-- Two stores under a limit of one, and both keys are answered when the writer has drained: the first
was evicted from the table but not from memory. -/
theorem not_bounded_of_evictedInMemory :
    ¬ BoundedAnswers 1 (Cache.opened [])
        [storeOne "a" 0, storeOne "b" 1, .write false, .write false, .write false, .write false] ∧
      ¬ EvictedStaysGone (Cache.opened [])
        [storeOne "a" 0, storeOne "b" 1, .write false, .write false, .write false, .write false,
          .lookup (py "a") 3600 2] := by
  constructor
  · intro h
    have hcard := h _ [] (List.append_nil _).symm ⟨storeOne "a" 0, by simp, py "a", rfl⟩ (by decide +kernel)
      {py "a", py "b"} ?_
    · exact absurd hcard (by decide +kernel)
    · intro key hkey
      refine canAnswer_iff.2 (.inl ?_)
      revert key
      decide +kernel
  · intro h
    have hnone := h [storeOne "a" 0, storeOne "b" 1, .write false, .write false, .write false] []
      (py "a") 3600 2 [] rfl ⟨1, [], by decide +kernel, by decide +kernel, by decide +kernel, ?_⟩ (by simp)
    · exact absurd hnone (by decide +kernel)
    · exact not_awaits (fun _ ↦ List.not_mem_nil) _

end RespCache

end LocalGateway
