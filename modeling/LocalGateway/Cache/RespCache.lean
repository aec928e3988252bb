import LocalGateway.Cache.Fingerprint
import LocalGateway.Foundations.Runs
import Mathlib.Order.Defs.LinearOrder

/-!
# The response cache as a machine

`respcache.py` with its two tiers: the in-memory LRU and the SQLite table behind the background
writer. A request of either kind looks its key up when it arrives and may store its reply when it
ends; between the two anything may happen, so arrivals, replies, the writer's progress and the
administrator's clears are separate inputs of one machine (`Step`), in any order.

Both tiers keep with each reply whether a streaming request stored it. The main invariant is
`Provenance`: whatever a tier or a pending write holds for a key was put there by an earlier reply
under that key, with its kind and its time. From it `modeSound_of_separated` says when no request is
answered with a reply of the other kind — `lookup` returns the kind, and its callers do not look
at it.
-/

namespace LocalGateway

open Py Json

namespace RespCache

/-! ### The two tiers -/

/-- A cached reply: the in-memory tuple, which is also what a row of the table holds for it. -/
structure Entry where
  body : PyBytes
  stream : Bool
  hits : ℕ
  created : ℚ
  ttl : ℚ
  lastAccess : ℚ
deriving DecidableEq

/-- A row of `resp_cache`. -/
structure Row where
  key : PyStr
  model : PyStr
  entry : Entry
deriving DecidableEq

/-- A statement handed to the background writer. -/
inductive Write
  | delete (key : PyStr)
  | touch (key : PyStr) (now : ℚ)
  | insert (row : Row)
  | evict (maxEntries : ℕ)
deriving DecidableEq

/-- The state of the module: the in-memory LRU (oldest first), the table, the statements the writer
has not executed, and whether the writer runs. -/
structure Cache where
  mem : List (PyStr × Entry)
  table : List Row
  queue : List Write
  running : Bool
deriving DecidableEq

namespace Cache

/-- A process that has just opened an empty database. -/
def init : Cache where
  mem := []
  table := []
  queue := []
  running := true

end Cache

/-- `_MEM_CAPACITY`. -/
def memCapacity : ℕ :=
  256

/-- The rows `ORDER BY last_access ASC`. -/
def byLastAccess (table : List Row) : List Row :=
  table.insertionSort fun a b ↦ a.entry.lastAccess ≤ b.entry.lastAccess

/-- One statement on the table. -/
def Write.apply (table : List Row) : Write → List Row
  | .delete key => table.filter (·.key ≠ key)
  | .touch key now => table.map fun row ↦
      if row.key = key then
        { row with entry := { row.entry with hits := row.entry.hits + 1, lastAccess := now } }
      else row
  | .insert row => table.filter (·.key ≠ row.key) ++ [row]
  | .evict maxEntries =>
    let excess := ((byLastAccess table).take (table.length - maxEntries)).map Row.key
    table.filter (·.key ∉ excess)

/-- `_enqueue`. -/
def enqueue (s : Cache) (w : Write) : Cache :=
  if s.running then { s with queue := s.queue ++ [w] } else { s with table := w.apply s.table }

/-- `_mem_put`: the entry becomes the newest, and the oldest go while there are too many. -/
def memPut (mem : List (PyStr × Entry)) (key : PyStr) (entry : Entry) : List (PyStr × Entry) :=
  let mem := mem.filter (·.1 ≠ key) ++ [(key, entry)]
  mem.drop (mem.length - memCapacity)

/-- Whether an entry has outlived its time to live: the smaller of its own and the one asked for,
its own counting only if it is not zero. -/
def expired (created storedTtl ttlSec now : ℚ) : Bool :=
  let effective := if storedTtl ≠ 0 then min storedTtl ttlSec else ttlSec
  0 < effective && effective < now - created

/-- `lookup`: the body, the kind of request that stored it and the hit count, and the cache after. -/
def lookup (s : Cache) (key : PyStr) (ttlSec now : ℚ) : Option (PyBytes × Bool × ℕ) × Cache :=
  match s.mem.lookup key with
  | some e =>
    if expired e.created e.ttl ttlSec now then
      -- an expired entry is a miss, even if the table has a newer one
      (none, enqueue { s with mem := s.mem.filter (·.1 ≠ key) } (.delete key))
    else
      (some (e.body, e.stream, e.hits + 1),
        -- the entry moves to the end as it is: hits are counted in the table only
        enqueue { s with mem := s.mem.filter (·.1 ≠ key) ++ [(key, e)] } (.touch key now))
  | none =>
    match s.table.find? (·.key = key) with
    | none => (none, s)
    | some row =>
      let e := row.entry
      if expired e.created e.ttl ttlSec now then (none, enqueue s (.delete key))
      else
        (some (e.body, e.stream, e.hits + 1),
          enqueue { s with mem := memPut s.mem key { e with lastAccess := now } } (.touch key now))

/-- The entry of a reply that is stored now. -/
def freshEntry (body : PyBytes) (stream : Bool) (ttlSec now : ℚ) : Entry where
  body := body
  stream := stream
  hits := 0
  created := now
  ttl := ttlSec
  lastAccess := now

/-- `store`. -/
def store (s : Cache) (key model : PyStr) (body : PyBytes) (stream : Bool) (ttlSec : ℚ)
    (maxEntries : ℤ) (now : ℚ) : Cache :=
  let entry := freshEntry body stream ttlSec now
  let s := enqueue { s with mem := memPut s.mem key entry } (.insert ⟨key, model, entry⟩)
  if 0 < maxEntries then enqueue s (.evict maxEntries.toNat) else s

/-! ### Requests -/

/-- What a chat request brings to the cache: its kind, its body, the defaults of its model, the id of
its model, and whether caching is enabled for it. -/
structure Request where
  stream : Bool
  body : PyDict
  defaults : Option PyDict
  model : PyStr
  cacheEnabled : Bool
deriving DecidableEq

section Machine

variable (r : FloatRepr) (sha256 : PyBytes → PyStr)

/-- `cache_fp`: the key, for a request that uses the cache. -/
def Request.cacheFp (q : Request) : Option PyStr :=
  let body := applyDefaultParams q.body q.defaults
  if q.cacheEnabled && isCacheable body then fullFingerprint r sha256 body else none

/-- An input of the machine. -/
inductive Step
  /-- A request arrives; if it uses the cache it looks its key up. -/
  | arrive (q : Request) (ttlSec now : ℚ)
  /-- A request that was not answered from the cache ends with a reply. An empty stream is not
  stored. -/
  | reply (q : Request) (body : PyBytes) (ttlSec : ℚ) (maxEntries : ℤ) (now : ℚ)
  /-- The writer executes its oldest statement, or loses it to an error. -/
  | write (lost : Bool)
  /-- `clear` in this process. -/
  | clear
  /-- `clear` in another process that shares the table. -/
  | clearTable
  /-- `stop_writer`: what is pending is executed. -/
  | stop
  /-- `set_db_path`: the process starts on the table it finds. -/
  | start
deriving DecidableEq

/-- The cache after an input. -/
def next (s : Cache) : Step → Cache
  | .arrive q ttlSec now =>
    match q.cacheFp r sha256 with
    | some key => (lookup s key ttlSec now).2
    | none => s
  | .reply q body ttlSec maxEntries now =>
    match q.cacheFp r sha256 with
    | some key =>
      if q.stream = true ∧ body = [] then s
      else store s key q.model body q.stream ttlSec maxEntries now
    | none => s
  | .write lost =>
    match s.queue with
    | [] => s
    | w :: queue => { s with queue := queue, table := if lost then s.table else w.apply s.table }
  | .clear => { s with mem := [], table := [] }
  | .clearTable => { s with table := [] }
  | .stop => { s with queue := [], table := s.queue.foldl Write.apply s.table, running := false }
  | .start =>
    { s with mem := [], queue := [], table := s.queue.foldl Write.apply s.table, running := true }

/-- The answer an arriving request gets from the cache: the body, and the kind of request that
stored it. -/
def answer (s : Cache) : Step → Option (PyBytes × Bool)
  | .arrive q ttlSec now =>
    match q.cacheFp r sha256 with
    | some key => (lookup s key ttlSec now).1.map fun hit ↦ (hit.1, hit.2.1)
    | none => none
  | _ => none

end Machine

/-! ### What the tiers hold -/

/-- Every entry in memory, in the table and on its way there satisfies `P` with its key. -/
structure Holds (P : PyStr → Entry → Prop) (s : Cache) : Prop where
  mem : ∀ p ∈ s.mem, P p.1 p.2
  table : ∀ row ∈ s.table, P row.key row.entry
  queue : ∀ row, Write.insert row ∈ s.queue → P row.key row.entry

theorem Holds.withMem {P : PyStr → Entry → Prop} {s : Cache} (hs : Holds P s)
    {mem : List (PyStr × Entry)} (hmem : ∀ p ∈ mem, P p.1 p.2) : Holds P { s with mem := mem } :=
  ⟨hmem, hs.table, hs.queue⟩

/-- What lookups update in an entry does not matter to `P`. -/
def IgnoresHits (P : PyStr → Entry → Prop) : Prop :=
  ∀ key (e : Entry) hits lastAccess, P key e → P key { e with hits, lastAccess }

theorem mem_of_lookup {mem : List (PyStr × Entry)} {key : PyStr} {e : Entry}
    (h : mem.lookup key = some e) : (key, e) ∈ mem := by
  obtain ⟨before, after, rfl, -⟩ := List.lookup_eq_some_iff.1 h
  simp

section Holds

variable {P : PyStr → Entry → Prop} (hP : IgnoresHits P)

include hP in
/-- A statement puts nothing into the table but the row it inserts. -/
theorem apply_holds {table : List Row} (htable : ∀ row ∈ table, P row.key row.entry) {w : Write}
    (hw : ∀ row, w = .insert row → P row.key row.entry) :
    ∀ row ∈ w.apply table, P row.key row.entry := by
  intro row hrow
  cases w with
  | delete key => exact htable row (List.mem_of_mem_filter hrow)
  | touch key now =>
    obtain ⟨old, hold, rfl⟩ := List.mem_map.1 hrow
    split_ifs
    · exact hP _ _ _ _ (htable old hold)
    · exact htable old hold
  | insert new =>
    rcases List.mem_append.1 hrow with hrow | hrow
    · exact htable row (List.mem_of_mem_filter hrow)
    · obtain rfl := List.mem_singleton.1 hrow
      exact hw row rfl
  | evict maxEntries => exact htable row (List.mem_of_mem_filter hrow)

include hP in
theorem foldl_apply_holds {queue : List Write} {table : List Row}
    (htable : ∀ row ∈ table, P row.key row.entry)
    (hqueue : ∀ row, Write.insert row ∈ queue → P row.key row.entry) :
    ∀ row ∈ queue.foldl Write.apply table, P row.key row.entry := by
  induction queue generalizing table with
  | nil => exact htable
  | cons w queue ih =>
    refine ih (apply_holds hP htable fun row h ↦ hqueue row (h ▸ List.mem_cons_self)) ?_
    exact fun row h ↦ hqueue row (List.mem_cons_of_mem w h)

include hP in
theorem enqueue_holds {s : Cache} (hs : Holds P s) {w : Write}
    (hw : ∀ row, w = .insert row → P row.key row.entry) : Holds P (enqueue s w) := by
  unfold enqueue
  split_ifs
  · refine ⟨hs.mem, hs.table, fun row h ↦ ?_⟩
    rcases List.mem_append.1 h with h | h
    · exact hs.queue row h
    · exact hw row (List.mem_singleton.1 h).symm
  · exact ⟨hs.mem, apply_holds hP hs.table hw, hs.queue⟩

theorem memPut_holds {mem : List (PyStr × Entry)} (hmem : ∀ p ∈ mem, P p.1 p.2) {key : PyStr}
    {entry : Entry} (hentry : P key entry) : ∀ p ∈ memPut mem key entry, P p.1 p.2 := by
  intro p hp
  rcases List.mem_append.1 (List.mem_of_mem_drop hp) with hp | hp
  · exact hmem p (List.mem_of_mem_filter hp)
  · obtain rfl := List.mem_singleton.1 hp
    exact hentry

/-- What a lookup finds: an entry of some tier that is not expired. -/
theorem lookup_some {s : Cache} (hs : Holds P s) {key : PyStr} {ttlSec now : ℚ}
    {hit : PyBytes × Bool × ℕ} (h : (lookup s key ttlSec now).1 = some hit) :
    ∃ e, P key e ∧ expired e.created e.ttl ttlSec now = false ∧ hit = (e.body, e.stream, e.hits + 1) := by
  unfold lookup at h
  split at h
  · next e hmem =>
    split_ifs at h with hexp
    exact ⟨e, hs.mem (key, e) (mem_of_lookup hmem), by simpa using hexp,
      (Option.some.inj h).symm⟩
  · split at h
    · simp at h
    · next row hrow =>
      obtain rfl : row.key = key := by simpa using List.find?_some hrow
      simp only at h
      split_ifs at h with hexp
      exact ⟨row.entry, hs.table row (List.mem_of_find?_eq_some hrow), by simpa using hexp,
        (Option.some.inj h).symm⟩

include hP in
theorem lookup_holds {s : Cache} (hs : Holds P s) (key : PyStr) (ttlSec now : ℚ) :
    Holds P (lookup s key ttlSec now).2 := by
  have hfilter : ∀ p ∈ s.mem.filter (·.1 ≠ key), P p.1 p.2 := fun p hp ↦
    hs.mem p (List.mem_of_mem_filter hp)
  have hdelete : ∀ row, Write.delete key = .insert row → P row.key row.entry := fun _ h ↦ nomatch h
  have htouch : ∀ row, Write.touch key now = .insert row → P row.key row.entry := fun _ h ↦ nomatch h
  unfold lookup
  split
  · next e hmem =>
    have he : P key e := hs.mem (key, e) (mem_of_lookup hmem)
    split_ifs
    · exact enqueue_holds hP (hs.withMem hfilter) hdelete
    · refine enqueue_holds hP (hs.withMem fun p hp ↦ ?_) htouch
      rcases List.mem_append.1 hp with hp | hp
      · exact hfilter p hp
      · obtain rfl := List.mem_singleton.1 hp
        exact he
  · split
    · exact hs
    · next row hrow =>
      have hkey : row.key = key := by simpa using List.find?_some hrow
      have he : P key row.entry := hkey ▸ hs.table row (List.mem_of_find?_eq_some hrow)
      simp only
      split_ifs
      · exact enqueue_holds hP hs hdelete
      · exact enqueue_holds hP (hs.withMem (memPut_holds hs.mem (hP key row.entry _ now he))) htouch

include hP in
theorem store_holds {s : Cache} (hs : Holds P s) {key : PyStr} (model : PyStr) {body : PyBytes}
    {stream : Bool} {ttlSec now : ℚ} (maxEntries : ℤ)
    (hnew : P key (freshEntry body stream ttlSec now)) :
    Holds P (store s key model body stream ttlSec maxEntries now) := by
  have hrow : ∀ row, Write.insert ⟨key, model, freshEntry body stream ttlSec now⟩ = .insert row →
      P row.key row.entry := fun row h ↦ Write.insert.inj h ▸ hnew
  have hinsert := enqueue_holds hP (hs.withMem (memPut_holds hs.mem hnew)) hrow
  unfold store
  simp only
  split_ifs
  · exact enqueue_holds hP hinsert fun row h ↦ nomatch h
  · exact hinsert

/-- **What one input does to the tiers.** Nothing enters them but the reply of a request that uses
the cache, under its key. -/
theorem next_holds (hP : IgnoresHits P) {r : FloatRepr} {sha256 : PyBytes → PyStr} {s : Cache}
    (hs : Holds P s) {i : Step}
    (hnew : ∀ q body ttlSec maxEntries now key, i = .reply q body ttlSec maxEntries now →
      q.cacheFp r sha256 = some key → P key (freshEntry body q.stream ttlSec now)) :
    Holds P (next r sha256 s i) := by
  cases i with
  | arrive q ttlSec now =>
    rcases hkey : q.cacheFp r sha256 with - | key <;> simp only [next, hkey]
    · exact hs
    · exact lookup_holds hP hs key ttlSec now
  | reply q body ttlSec maxEntries now =>
    rcases hkey : q.cacheFp r sha256 with - | key <;> simp only [next, hkey]
    · exact hs
    · split_ifs
      · exact hs
      · exact store_holds hP hs _ _ (hnew q body ttlSec maxEntries now key rfl hkey)
  | write lost =>
    rcases hqueue : s.queue with - | ⟨w, queue⟩ <;> simp only [next, hqueue]
    · exact hs
    · have hw : ∀ row, w = .insert row → P row.key row.entry := fun row h ↦
        hs.queue row (by simp [hqueue, h])
      refine ⟨hs.mem, ?_, fun row h ↦ hs.queue row (by simp [hqueue, h])⟩
      show ∀ row ∈ if lost then s.table else w.apply s.table, P row.key row.entry
      split_ifs
      · exact hs.table
      · exact apply_holds hP hs.table hw
  | clear => exact ⟨by simp [next], by simp [next], hs.queue⟩
  | clearTable => exact ⟨hs.mem, by simp [next], hs.queue⟩
  | stop => exact ⟨hs.mem, foldl_apply_holds hP hs.table hs.queue, by simp [next]⟩
  | start => exact ⟨by simp [next], foldl_apply_holds hP hs.table hs.queue, by simp [next]⟩

end Holds

/-! ### Where an entry comes from -/

section Runs

variable (r : FloatRepr) (sha256 : PyBytes → PyStr)

/-- An earlier reply under the key, with the body, the kind, the time and the time to live of the
entry. -/
def StoredBy (past : List Step) (key : PyStr) (e : Entry) : Prop :=
  ∃ q maxEntries, Step.reply q e.body e.ttl maxEntries e.created ∈ past ∧
    q.cacheFp r sha256 = some key ∧ q.stream = e.stream

theorem storedBy_ignoresHits (past : List Step) : IgnoresHits (StoredBy r sha256 past) :=
  fun _ _ _ _ h ↦ h

/-- **Provenance.** In every run, whatever the tiers hold was stored by an earlier reply. -/
theorem exec_storedBy (steps : List Step) :
    Holds (StoredBy r sha256 steps) (Runs.exec (next r sha256) Cache.init steps) := by
  refine Runs.exec_invariant' (fun past s ↦ Holds (StoredBy r sha256 past) s) ?_
    (fun past s i hs ↦ ?_) steps
  · exact ⟨by simp [Cache.init], by simp [Cache.init], by simp [Cache.init]⟩
  · have hmono : ∀ {key e}, StoredBy r sha256 past key e → StoredBy r sha256 (past ++ [i]) key e :=
      fun ⟨q, m, hmem, h⟩ ↦ ⟨q, m, List.mem_append_left _ hmem, h⟩
    refine next_holds (storedBy_ignoresHits r sha256 _)
      ⟨fun p h ↦ hmono (hs.mem p h), fun row h ↦ hmono (hs.table row h),
        fun row h ↦ hmono (hs.queue row h)⟩ ?_
    rintro q body ttlSec maxEntries now key rfl hkey
    exact ⟨q, maxEntries, by simp [freshEntry], hkey, rfl⟩

/-! ### The kind of an answer -/

/-- No arriving request is answered with a reply that a request of the other kind stored. -/
def ModeSound (steps : List Step) : Prop :=
  Runs.Every (next r sha256) (fun _ s i ↦ ∀ q ttlSec now body stream,
    i = .arrive q ttlSec now → answer r sha256 s i = some (body, stream) → stream = q.stream)
    Cache.init steps

/-- When a request arrives, every reply that was stored under its key and is not expired was stored
by a request of its kind. -/
def Separated (steps : List Step) : Prop :=
  Runs.Every (next r sha256) (fun past _ i ↦ ∀ q ttlSec now key,
    i = .arrive q ttlSec now → q.cacheFp r sha256 = some key →
    ∀ q' body ttl maxEntries created, Step.reply q' body ttl maxEntries created ∈ past →
      q'.cacheFp r sha256 = some key → expired created ttl ttlSec now = false →
      q'.stream = q.stream) Cache.init steps

/-- **Mode soundness of the response cache.** In every run in which no request arrives while a
reply of the other kind is stored under its key and not expired, every answer is of the kind of the
request. -/
theorem modeSound_of_separated (steps : List Step) (h : Separated r sha256 steps) :
    ModeSound r sha256 steps := by
  rintro past i future hsteps q ttlSec now body stream rfl hanswer
  rcases hkey : q.cacheFp r sha256 with - | key
  · simp [answer, hkey] at hanswer
  · simp only [answer, hkey, Option.map_eq_some_iff] at hanswer
    obtain ⟨hit, hlookup, hpair⟩ := hanswer
    obtain ⟨e, ⟨q', maxEntries, hreply, hkey', hmode⟩, hlive, rfl⟩ :=
      lookup_some (exec_storedBy r sha256 past) hlookup
    obtain ⟨-, rfl⟩ := Prod.mk.inj hpair
    rw [← hmode]
    exact h past _ future hsteps q ttlSec now key rfl hkey q' e.body e.ttl maxEntries e.created hreply
      hkey' hlive

end Runs

/-- A one-message request of either kind. -/
def sampleRequest (stream : Bool) : Request where
  stream := stream
  body := sampleBody 5 ++ if stream then [(py "stream", .bool true)] else []
  defaults := none
  model := py "m"
  cacheEnabled := true

/-- A plain reply is served to a plain request. -/
theorem modeSound_plain_run :
    ModeSound .ofFraction sampleHash
      [.reply (sampleRequest false) (pyb "\x7b\x7d") 3600 1000 0,
        .arrive (sampleRequest false) 3600 1] := by
  refine modeSound_of_separated .ofFraction sampleHash _ ?_
  refine (Runs.every_concat_iff (s := Cache.init)).2
    ⟨Runs.every_concat_iff.2 ⟨Runs.every_nil _ _, ?_⟩, ?_⟩
  · rintro q ttlSec now key h
    cases h
  · rintro q ttlSec now key h - q' body ttl maxEntries created hmem - -
    cases h
    cases List.mem_singleton.1 hmem
    rfl

/-- A streamed reply answers a plain request: the key does not tell the two kinds apart, and the
kind that `lookup` returns is dropped. -/
theorem not_modeSound_stream_run :
    ¬ ModeSound .ofFraction sampleHash
      [.reply (sampleRequest true) (pyb "data: [DONE]\n\n") 3600 1000 0,
        .arrive (sampleRequest false) 3600 1] := by
  intro h
  have hkind := h [_] (.arrive (sampleRequest false) 3600 1) [] rfl (sampleRequest false) 3600 1
    (pyb "data: [DONE]\n\n") true rfl (by decide +kernel)
  exact absurd hkind (by decide)

end RespCache

end LocalGateway
