import LocalGateway.Cache.RespCache
import Mathlib.Data.List.DropRight

/-!
# Calls of the response cache

The module as its callers see it: `store`, `lookup` and `clear` with whatever keys, times and times to
live, the writer's progress between them, and the clears of the other process. The supervisor serves
the administration pages from its own copy of the module, so what it clears is its own memory and the
table both processes share, never the worker's memory.

The machine of `RespCache` is the part of this one that chat requests drive (`next_eq_after`).

* `lookup_within_ttl`: no answer outlives its time to live, which runs from the store.
* `noStale_of_clearsAll`: no answer is older than the last clear, in the runs where a clear finds
  nothing that it cannot reach.
-/

namespace LocalGateway

open Py Json

namespace RespCache

/-! ### The machine of the calls -/

/-- A call of the module in the worker, or what happens between two. -/
inductive CacheCall
  | store (key model : PyStr) (body : PyBytes) (stream : Bool) (ttlSec : ℚ) (maxEntries : ℤ) (now : ℚ)
  | lookup (key : PyStr) (ttlSec now : ℚ)
  /-- The writer executes its oldest statement, or loses it to an error. -/
  | write (lost : Bool)
  | clear
  /-- `clear` in the supervisor. -/
  | clearTable
  /-- `stop_writer`. -/
  | stop
  /-- `set_db_path`. -/
  | start
deriving DecidableEq

/-- The cache after a call. -/
def after (s : Cache) : CacheCall → Cache
  | .store key model body stream ttlSec maxEntries now =>
    RespCache.store s key model body stream ttlSec maxEntries now
  | .lookup key ttlSec now => (RespCache.lookup s key ttlSec now).2
  | .write lost =>
    match s.queue with
    | [] => s
    | w :: queue => { s with queue := queue, table := if lost then s.table else w.apply s.table }
  | .clear => { s with mem := [], table := [] }
  | .clearTable => { s with table := [] }
  | .stop => { s with queue := [], table := s.queue.foldl Write.apply s.table, running := false }
  | .start =>
    { s with mem := [], queue := [], table := s.queue.foldl Write.apply s.table, running := true }

/-- The call that an input of the request machine makes, if it makes one. -/
def Step.call (r : FloatRepr) (sha256 : PyBytes → PyStr) : Step → Option CacheCall
  | .arrive q ttlSec now => (q.cacheFp r sha256).map fun key ↦ .lookup key ttlSec now
  | .reply q body ttlSec maxEntries now =>
    (q.cacheFp r sha256).bind fun key ↦
      if q.stream = true ∧ body = [] then none
      else some (.store key q.model body q.stream ttlSec maxEntries now)
  | .write lost => some (.write lost)
  | .clear => some .clear
  | .clearTable => some .clearTable
  | .stop => some .stop
  | .start => some .start

/-- **Requests drive the machine of the calls.** -/
theorem next_eq_after (r : FloatRepr) (sha256 : PyBytes → PyStr) (s : Cache) (i : Step) :
    next r sha256 s i = (i.call r sha256).elim s (after s) := by
  cases i with
  | arrive q ttlSec now =>
    rcases hkey : q.cacheFp r sha256 with - | key <;> simp [next, Step.call, after, hkey]
  | reply q body ttlSec maxEntries now =>
    rcases hkey : q.cacheFp r sha256 with - | key
    · simp [next, Step.call, hkey]
    · by_cases hempty : q.stream = true ∧ body = [] <;> simp [next, Step.call, after, hkey, hempty]
  | write | clear | clearTable | stop | start => rfl

/-- **What one call does to the tiers.** Nothing enters them but what a call stores. -/
theorem after_holds {P : PyStr → Entry → Prop} (hP : IgnoresHits P) {s : Cache} (hs : Holds P s)
    {i : CacheCall}
    (hnew : ∀ key model body stream ttlSec maxEntries now,
      i = .store key model body stream ttlSec maxEntries now →
        P key (freshEntry body stream ttlSec now)) : Holds P (after s i) := by
  -- what is not a call of a request is an input of the request machine as well
  have hinput : ∀ j : Step, (∀ q body ttlSec maxEntries now, j ≠ .reply q body ttlSec maxEntries now) →
      Holds P (next .ofFraction (fun _ ↦ []) s j) := fun j hj ↦
    next_holds hP hs fun q body ttlSec maxEntries now _ h _ ↦ absurd h (hj q body ttlSec maxEntries now)
  cases i with
  | store key model body stream ttlSec maxEntries now =>
    exact store_holds hP hs model maxEntries (hnew key model body stream ttlSec maxEntries now rfl)
  | lookup key ttlSec now => exact lookup_holds hP hs key ttlSec now
  | write lost => exact hinput (.write lost) nofun
  | clear => exact hinput .clear nofun
  | clearTable => exact hinput .clearTable nofun
  | stop => exact hinput .stop nofun
  | start => exact hinput .start nofun

/-! ### Where an answer comes from -/

/-- One of the calls stored the entry under the key. -/
def StoredIn (calls : List CacheCall) (key : PyStr) (e : Entry) : Prop :=
  ∃ model maxEntries, CacheCall.store key model e.body e.stream e.ttl maxEntries e.created ∈ calls

theorem storedIn_ignoresHits (calls : List CacheCall) : IgnoresHits (StoredIn calls) :=
  fun _ _ _ _ h ↦ h

theorem StoredIn.mono {calls more : List CacheCall} (hsub : calls ⊆ more) {key : PyStr} {e : Entry}
    (h : StoredIn calls key e) : StoredIn more key e := by
  obtain ⟨model, maxEntries, hmem⟩ := h
  exact ⟨model, maxEntries, hsub hmem⟩

theorem Holds.mono {P Q : PyStr → Entry → Prop} (h : ∀ {key e}, P key e → Q key e) {s : Cache}
    (hs : Holds P s) : Holds Q s :=
  ⟨fun p hp ↦ h (hs.mem p hp), fun row hrow ↦ h (hs.table row hrow), fun row hrow ↦
    h (hs.queue row hrow)⟩

/-- A call adds to what its predecessors stored. -/
theorem after_storedIn {calls : List CacheCall} {s : Cache} (hs : Holds (StoredIn calls) s)
    (i : CacheCall) : Holds (StoredIn (calls ++ [i])) (after s i) := by
  refine after_holds (storedIn_ignoresHits _) (hs.mono (StoredIn.mono (List.subset_append_left _ _))) ?_
  rintro key model body stream ttlSec maxEntries now rfl
  exact ⟨model, maxEntries, List.mem_concat_self⟩

/-- Nothing is held at the start. -/
theorem init_holds (P : PyStr → Entry → Prop) : Holds P Cache.init :=
  ⟨fun _ h ↦ absurd h List.not_mem_nil, fun _ h ↦ absurd h List.not_mem_nil, fun _ h ↦
    absurd h List.not_mem_nil⟩

/-- In every run, whatever the tiers hold was stored by an earlier call. -/
theorem exec_storedIn (calls : List CacheCall) :
    Holds (StoredIn calls) (Runs.exec after Cache.init calls) :=
  Runs.exec_invariant' (fun past s ↦ Holds (StoredIn past) s) (init_holds _)
    (fun _ _ i hs ↦ after_storedIn hs i) calls

/-! ### Time to live -/

/-- The time to live that counts: the smaller one of the entry's own and of the one asked for, or the
latter if the entry's own is zero. -/
def effectiveTtl (storedTtl ttlSec : ℚ) : ℚ :=
  if storedTtl ≠ 0 then min storedTtl ttlSec else ttlSec

theorem expired_eq_false_iff {created storedTtl ttlSec now : ℚ} :
    expired created storedTtl ttlSec now = false ↔
      (0 < effectiveTtl storedTtl ttlSec → now - created ≤ effectiveTtl storedTtl ttlSec) := by
  unfold expired
  show (decide (0 < effectiveTtl storedTtl ttlSec) &&
    decide (effectiveTtl storedTtl ttlSec < now - created)) = false ↔ _
  simp

/-- **Absolute time to live.** Whatever a lookup returns was stored under its key by an earlier call,
with its body and its kind, and no longer ago than the time to live that counts: however often it has
been returned since, and from wherever it is read. -/
theorem lookup_within_ttl (calls : List CacheCall) :
    Runs.Every after (fun past s i ↦ ∀ key ttlSec now body stream hits,
      i = .lookup key ttlSec now → (lookup s key ttlSec now).1 = some (body, stream, hits) →
        ∃ model storedTtl maxEntries created,
          CacheCall.store key model body stream storedTtl maxEntries created ∈ past ∧
            (0 < effectiveTtl storedTtl ttlSec → now - created ≤ effectiveTtl storedTtl ttlSec))
      Cache.init calls := by
  rintro past i future - key ttlSec now body stream hits - hhit
  obtain ⟨e, ⟨model, maxEntries, hstore⟩, hlive, hentry⟩ := lookup_some (exec_storedIn past) hhit
  simp only [Prod.mk.injEq] at hentry
  obtain ⟨rfl, rfl, -⟩ := hentry
  exact ⟨model, e.ttl, maxEntries, e.created, hstore, expired_eq_false_iff.1 hlive⟩

/-! ### Clears -/

/-- The call is a clear, of either process. -/
def CacheCall.clears : CacheCall → Bool
  | .clear | .clearTable => true
  | _ => false

/-- The calls since the last clear. -/
def sinceClear (past : List CacheCall) : List CacheCall :=
  past.rtakeWhile (!·.clears)

theorem sinceClear_concat_clear {past : List CacheCall} {i : CacheCall} (h : i.clears = true) :
    sinceClear (past ++ [i]) = [] :=
  List.rtakeWhile_concat_neg _ _ _ (by simp [h])

theorem sinceClear_concat {past : List CacheCall} {i : CacheCall} (h : i.clears = false) :
    sinceClear (past ++ [i]) = sinceClear past ++ [i] :=
  List.rtakeWhile_concat_pos _ _ _ (by simp [h])

/-- No lookup returns what was stored before the last clear: what it returns has been stored since. -/
def NoStale (calls : List CacheCall) : Prop :=
  Runs.Every after (fun past s i ↦ ∀ key ttlSec now body stream hits,
    i = .lookup key ttlSec now → (lookup s key ttlSec now).1 = some (body, stream, hits) →
      ∃ model storedTtl maxEntries created,
        CacheCall.store key model body stream storedTtl maxEntries created ∈ sinceClear past)
    Cache.init calls

/-- A clear reaches everything: no stored reply waits for the writer, and if the supervisor clears,
the worker has none in memory. -/
def Reaches (s : Cache) (i : CacheCall) : Prop :=
  (i.clears = true → ∀ row, Write.insert row ∉ s.queue) ∧ (i = .clearTable → s.mem = [])

/-- Every clear of the run reaches everything. -/
def ClearsAll (calls : List CacheCall) : Prop :=
  Runs.Every after (fun _ ↦ Reaches) Cache.init calls

/-- A clear that reaches everything leaves nothing. -/
theorem after_clear_holds (P : PyStr → Entry → Prop) {s : Cache} {i : CacheCall}
    (hclear : i.clears = true) (hreach : Reaches s i) : Holds P (after s i) := by
  have hqueue := hreach.1 hclear
  cases i with
  | clear =>
    exact ⟨fun p hp ↦ absurd hp List.not_mem_nil, fun row hrow ↦ absurd hrow List.not_mem_nil,
      fun row hrow ↦ absurd hrow (hqueue row)⟩
  | clearTable =>
    refine ⟨fun p hp ↦ ?_, fun row hrow ↦ absurd hrow List.not_mem_nil, fun row hrow ↦
      absurd hrow (hqueue row)⟩
    have hp : p ∈ s.mem := hp
    rw [hreach.2 rfl] at hp
    exact absurd hp List.not_mem_nil
  | store | lookup | write | stop | start => cases hclear

/-- **No stale answer after a clear**, in every run in which each clear reaches everything. -/
theorem noStale_of_clearsAll (calls : List CacheCall) (h : ClearsAll calls) : NoStale calls := by
  refine Runs.every_of_invariant (fun past s ↦ Holds (StoredIn (sinceClear past)) s) (init_holds _)
    (fun past s i hs hreach ↦ ?_) (fun past s i hs _ ↦ ?_) h
  · cases hclear : i.clears with
    | true => exact after_clear_holds _ hclear hreach
    | false =>
      rw [sinceClear_concat hclear]
      exact after_storedIn hs i
  · rintro key ttlSec now body stream hits - hhit
    obtain ⟨e, ⟨model, maxEntries, hstore⟩, -, hentry⟩ := lookup_some hs hhit
    simp only [Prod.mk.injEq] at hentry
    obtain ⟨rfl, rfl, -⟩ := hentry
    exact ⟨model, e.ttl, maxEntries, e.created, hstore⟩

/-- A reply is stored, written, cleared in the worker, and stored again. -/
theorem noStale_sample :
    NoStale [.store (py "k") (py "m") (pyb "a") false 3600 0 0, .write false, .clear,
      .store (py "k") (py "m") (pyb "b") false 3600 0 1, .lookup (py "k") 3600 2] := by
  refine noStale_of_clearsAll _ ?_
  have hreach : ∀ (s : Cache) (i : CacheCall), i.clears = false → Reaches s i := fun s i h ↦
    ⟨fun hclear ↦ absurd (h.symm.trans hclear) Bool.false_ne_true, fun hclear ↦ by
      rw [hclear] at h
      cases h⟩
  refine Runs.every_cons_iff.2 ⟨hreach _ _ rfl, Runs.every_cons_iff.2 ⟨hreach _ _ rfl,
    Runs.every_cons_iff.2 ⟨⟨fun _ row hrow ↦ ?_, fun h ↦ nomatch h⟩, Runs.every_cons_iff.2
      ⟨hreach _ _ rfl, Runs.every_cons_iff.2 ⟨hreach _ _ rfl, Runs.every_nil _ _⟩⟩⟩⟩⟩
  exact absurd hrow List.not_mem_nil

/-- **Two ways to a stale answer.** The supervisor clears while the worker has the reply in memory;
the worker clears while the reply waits for the writer. -/
theorem not_noStale_clears :
    ¬ NoStale [.store (py "k") (py "m") (pyb "a") false 3600 0 0, .write false, .clearTable,
        .lookup (py "k") 3600 1] ∧
      ¬ NoStale [.store (py "k") (py "m") (pyb "a") false 3600 0 0, .clear, .write false,
        .lookup (py "k") 3600 1] := by
  constructor
  · intro h
    obtain ⟨model, ttl, entries, created, hstore⟩ := h [_, _, _] (.lookup (py "k") 3600 1) [] rfl
      (py "k") 3600 1 (pyb "a") false 1 rfl (by decide +kernel)
    exact absurd hstore List.not_mem_nil
  · intro h
    obtain ⟨model, ttl, entries, created, hstore⟩ := h [_, _, _] (.lookup (py "k") 3600 1) [] rfl
      (py "k") 3600 1 (pyb "a") false 1 rfl (by decide +kernel)
    have hsince : sinceClear [.store (py "k") (py "m") (pyb "a") false 3600 0 0, .clear,
        .write false] = [.write false] := by decide +kernel
    rw [hsince, List.mem_singleton] at hstore
    cases hstore

end RespCache

end LocalGateway
