import Mathlib.Algebra.Order.Group.Multiset
import Mathlib.Data.List.ReduceOption
import Mathlib.Tactic.Abel
import LocalGateway.Foundations.Runs
import LocalGateway.Python.Json

/-!
# The background writer

The thread that writes the rows of usage and logs (`BackgroundWriter`), with the threads that call
it: one that starts and stops it, and any number that enqueue rows. Their steps interleave, and the
environment decides whether the database opens and whether SQLite fails.

* `Writer.Settled`: while the writer is stopped, what was accepted is what was handed to SQLite by
  the writer or written by the fallback, each row as often as it was accepted.
* `Writer.Safe` is what a step must not do: let an enqueue that saw the writer running put its row
  when nobody will read it any more, stop the writer while it is on its way to look whether it
  should go on, give up waiting for it, start it on an old sentinel, or fail to open the database or
  to roll back while rows are waiting.
* `Writer.settled_exec`: in every run of safe steps the writer is settled at all times.
-/

namespace LocalGateway

open Py

/-! ### The state -/

/-- A statement with its parameters. -/
structure Statement where
  sql : PyStr
  params : List Json
deriving DecidableEq

/-- The sentinel of `flush`. -/
def flushMark : Statement :=
  ⟨py "__flush__", []⟩

/-- `_BATCH_SIZE`. -/
def batchSize : ℕ :=
  50

/-- What the thread does after a flush. -/
inductive AfterFlush where
  /-- It goes on with the queue. -/
  | goOn
  /-- It looks whether it should go on: the queue was empty for a while. -/
  | check
  /-- It has read the sentinel of `stop`. -/
  | leave
deriving DecidableEq

/-- Where a writer thread is. -/
inductive WriterPhase where
  | connecting
  /-- It waits for the queue. -/
  | polling (batch : List Statement)
  | flushing (batch : List Statement) (after : AfterFlush)
  | checking
  | closing
  | dead
deriving DecidableEq

/-- A writer thread. -/
structure WriterThread where
  id : ℕ
  phase : WriterPhase
deriving DecidableEq

/-- Where the thread that starts and stops the writer is. -/
inductive Owner where
  | idle
  /-- In `stop`, before it puts the sentinel. -/
  | putting
  /-- In `stop`, waiting for the thread. -/
  | joining
deriving DecidableEq

/-- `BackgroundWriter`, with all threads, and a log of what was accepted and what became of it. -/
structure Writer where
  running : Bool
  /-- `None` is the sentinel of `stop`. -/
  queue : List (Option Statement)
  current : WriterThread
  /-- Threads that `stop` did not wait for, and that were replaced by later ones. -/
  strays : List WriterThread
  /-- The thread that opened `_conn`. -/
  conn : Option ℕ
  owner : Owner
  /-- The calls of `enqueue` that saw the writer running and have not put their rows. -/
  enqueuing : List Statement
  /-- The rows whose `enqueue` returned. -/
  accepted : Multiset Statement
  /-- The rows that the writer threads handed to SQLite. -/
  handed : Multiset Statement
  /-- The rows that the fallback wrote. -/
  written : Multiset Statement

/-- The rows of a queue. -/
def rows (queue : List (Option Statement)) : List Statement :=
  queue.reduceOption.filter fun item ↦ item.sql ≠ flushMark.sql

/-- The rows that a thread has taken. -/
def WriterPhase.batch : WriterPhase → List Statement
  | .polling batch | .flushing batch _ => batch
  | _ => []

/-- A thread in this phase will read what is in the queue. -/
def WriterPhase.reads (running : Bool) : WriterPhase → Bool
  | .connecting | .polling _ | .flushing _ .goOn => true
  | .flushing _ .check | .checking => running
  | .flushing _ .leave | .closing | .dead => false

/-- What decides about a step of a writer thread. -/
inductive WriterAct where
  /-- The step succeeds. -/
  | ok
  /-- The database cannot be opened. -/
  | cannotOpen
  /-- A statement fails after some others, and so does the rollback. -/
  | cannotRollBack (executed : ℕ)
deriving DecidableEq

/-- A step of one of the threads. -/
inductive WriterStep where
  | start
  /-- `stop` is called. -/
  | stop
  | putSentinel
  /-- The thread has ended, or the timeout has passed. -/
  | joined (timedOut : Bool)
  /-- `enqueue` looks whether the writer is running; `written`: the fallback succeeds. -/
  | enqueue (item : Statement) (written : Bool)
  /-- A call of `enqueue` puts its row. -/
  | put (i : ℕ)
  /-- `flush`. -/
  | flush
  | work (act : WriterAct)
  | strayWork (i : ℕ) (act : WriterAct)

namespace Writer

variable (s : Writer)

/-- `BackgroundWriter(db_path)`. -/
def initial : Writer where
  running := false
  queue := []
  current := ⟨0, .dead⟩
  strays := []
  conn := none
  owner := .idle
  enqueuing := []
  accepted := 0
  handed := 0
  written := 0

/-! ### The writer thread -/

/-- The phase after an item was read. -/
def taken (batch : List Statement) : Option Statement → WriterPhase
  | none => .flushing batch .leave
  | some item =>
    if item.sql = flushMark.sql then if batch = [] then .polling [] else .flushing batch .goOn
    else if batchSize ≤ batch.length + 1 then .flushing (batch ++ [item]) .goOn
    else .polling (batch ++ [item])

/-- The phase after a flush. -/
def flushed : AfterFlush → WriterPhase
  | .goOn => .polling []
  | .check => .checking
  | .leave => .closing

/-- A step of a thread: the state without it, and its next phase. -/
def workerStep (t : WriterThread) (act : WriterAct) : Writer × WriterPhase :=
  match t.phase with
  | .connecting =>
    if act = .cannotOpen then ({ s with conn := none }, .dead)
    else ({ s with conn := some t.id }, .polling [])
  | .polling batch =>
    match s.queue with
    | item :: queue => ({ s with queue }, taken batch item)
    -- the timeout has passed
    | [] => (s, if batch = [] then .checking else .flushing batch .check)
  | .flushing batch after =>
    if batch = [] then (s, flushed after)
    else
      match s.conn with
      | none => (s, flushed after)
      | some id =>
        if id = t.id then
          match act with
          | .cannotRollBack executed => ({ s with handed := s.handed + batch.take executed }, .dead)
          | _ => ({ s with handed := s.handed + batch }, flushed after)
        -- a connection is of no use to another thread, and neither is its rollback
        else (s, .dead)
  | .checking => (s, if s.running then .polling [] else .closing)
  | .closing => (if s.conn = some t.id then { s with conn := none } else s, .dead)
  | .dead => (s, .dead)

/-- The thread of the last `start` makes a step. -/
def work (act : WriterAct) : Writer :=
  let r := s.workerStep s.current act
  { r.1 with current := { s.current with phase := r.2 } }

/-- A thread that was replaced makes a step. -/
def strayWork (i : ℕ) (act : WriterAct) : Writer :=
  match s.strays[i]? with
  | none => s
  | some t =>
    let r := s.workerStep t act
    { r.1 with strays := s.strays.set i { t with phase := r.2 } }

/-! ### The callers -/

/-- `start`. -/
def start : Writer :=
  if s.running || s.owner ≠ .idle then s
  else { s with
    running := true
    strays := s.strays ++ [s.current]
    current := ⟨s.current.id + 1, .connecting⟩ }

/-- `stop`, up to the sentinel. -/
def stop : Writer :=
  if !s.running || s.owner ≠ .idle then s else { s with running := false, owner := .putting }

/-- `stop` puts the sentinel. -/
def putSentinel : Writer :=
  if s.owner = .putting then { s with queue := s.queue ++ [none], owner := .joining } else s

/-- `stop` ends when the thread has ended, or after the timeout. -/
def joined (timedOut : Bool) : Writer :=
  if s.owner = .joining && (timedOut || s.current.phase = .dead) then { s with owner := .idle } else s

/-- `enqueue`, up to the put; the fallback may raise. -/
def enqueue (item : Statement) (written : Bool) : Writer :=
  if s.running then { s with enqueuing := s.enqueuing ++ [item] }
  else if written then
    { s with accepted := s.accepted + {item}, written := s.written + {item} }
  else s

/-- `enqueue` puts the row. -/
def put (i : ℕ) : Writer :=
  match s.enqueuing[i]? with
  | none => s
  | some item =>
    { s with
      queue := s.queue ++ [some item]
      enqueuing := s.enqueuing.eraseIdx i
      accepted := s.accepted + {item} }

/-- `flush`. -/
def flush : Writer :=
  { s with queue := s.queue ++ [some flushMark] }

/-- The state after a step. -/
def next (s : Writer) : WriterStep → Writer
  | .start => s.start
  | .stop => s.stop
  | .putSentinel => s.putSentinel
  | .joined timedOut => s.joined timedOut
  | .enqueue item written => s.enqueue item written
  | .put i => s.put i
  | .flush => s.flush
  | .work act => s.work act
  | .strayWork i act => s.strayWork i act

/-! ### Nothing is lost -/

/-- While the writer is stopped, every row that was accepted has been handed to SQLite or was
written, and none twice. -/
def Settled (s : Writer) : Prop :=
  s.owner = .idle → s.running = false → s.accepted = s.handed + s.written

/-- The thread of the last start will read what is in the queue. -/
def Reads (s : Writer) : Prop :=
  s.current.phase.reads s.running = true

instance (s : Writer) : Decidable s.Reads :=
  inferInstanceAs (Decidable (_ = _))

/-- A step that loses nothing. -/
def Safe (s : Writer) : WriterStep → Prop
  /- no sentinel is left of an earlier stop -/
  | .start => none ∉ s.queue
  /- a thread that is about to look whether it should go on has nothing left to read -/
  | .stop => s.current.phase = .checking ∨ (∃ batch, s.current.phase = .flushing batch .check) →
      rows s.queue = []
  | .joined timedOut => timedOut = false
  | .enqueue item _ => s.running = true → item.sql ≠ flushMark.sql
  /- the row will be read -/
  | .put _ => none ∉ s.queue ∧ s.Reads
  | .work .cannotOpen => s.current.phase = .connecting → rows s.queue = []
  | .work (.cannotRollBack _) => ∀ batch after, s.current.phase = .flushing batch after → batch = []
  | _ => True

/-! ### Rows of a queue -/

section Rows

variable {queue past future : List (Option Statement)} {item : Statement}

theorem rows_append : rows (past ++ future) = rows past ++ rows future := by
  simp [rows, List.reduceOption_append]

@[simp] theorem rows_none_cons : rows (none :: queue) = rows queue := by
  simp [rows]

theorem rows_mark_cons (h : item.sql = flushMark.sql) : rows (some item :: queue) = rows queue := by
  simp [rows, h]

theorem rows_item_cons (h : item.sql ≠ flushMark.sql) :
    rows (some item :: queue) = item :: rows queue := by
  simp [rows, h]

end Rows

/-! ### The invariant -/

/-- What safe steps keep. -/
structure Sound (s : Writer) : Prop where
  /-- Every row that was accepted is somewhere. -/
  account : s.accepted =
    s.handed + s.written + (s.current.phase.batch : Multiset Statement) +
      (rows s.queue : Multiset Statement)
  /-- A row in the queue will be read. -/
  read : ¬ s.Reads → rows s.queue = []
  /-- No row is behind a sentinel. -/
  sentinel : ∀ past future, s.queue = past ++ none :: future → rows future = []
  conn : s.current.phase ≠ .connecting → s.current.phase ≠ .dead → s.conn = some s.current.id
  /-- A writer that is stopped has no thread. -/
  stopped : s.owner = .idle → s.running = false → s.current.phase = .dead
  owner : s.owner ≠ .idle → s.running = false
  strays : ∀ t ∈ s.strays, t.phase = .dead
  enqueuing : ∀ item ∈ s.enqueuing, item.sql ≠ flushMark.sql

section Sound

variable {s : Writer}

theorem sound_initial : initial.Sound where
  account := rfl
  read _ := rfl
  sentinel past future h := by simp [initial] at h
  conn _ hdead := absurd rfl hdead
  stopped _ _ := rfl
  owner h := absurd rfl h
  strays _ ht := absurd ht List.not_mem_nil
  enqueuing _ h := absurd h List.not_mem_nil

/-- A sound writer is settled. -/
theorem Sound.settled (h : s.Sound) : s.Settled := by
  intro howner hrunning
  have hdead := h.stopped howner hrunning
  have hrows : rows s.queue = [] := h.read (by simp [Reads, WriterPhase.reads, hdead])
  have haccount := h.account
  rw [hdead, hrows] at haccount
  simpa [WriterPhase.batch] using haccount

theorem Sound.start (h : s.Sound) : s.start.Sound := by
  unfold Writer.start
  split_ifs with hskip
  · exact h
  obtain ⟨hrunning, howner⟩ : s.running = false ∧ s.owner = .idle := by simpa using hskip
  have hdead := h.stopped howner hrunning
  have haccount := h.account
  rw [hdead] at haccount
  exact
    { account := haccount
      read := fun hreads ↦ absurd rfl hreads
      sentinel := h.sentinel
      conn := fun hconnecting ↦ absurd rfl hconnecting
      stopped := fun _ hstopped ↦ by cases hstopped
      owner := fun hother ↦ absurd howner hother
      strays := fun t ht ↦ by
        rcases List.mem_append.1 ht with ht | ht
        · exact h.strays t ht
        · rwa [List.mem_singleton.1 ht]
      enqueuing := h.enqueuing }

theorem Sound.stop (h : s.Sound) (hsafe : s.Safe .stop) : s.stop.Sound := by
  unfold Writer.stop
  split_ifs
  · exact h
  refine
    { h with
      read := fun hreads ↦ ?_
      stopped := fun howner ↦ by cases howner
      owner := fun _ ↦ rfl }
  show rows s.queue = []
  by_cases hbefore : s.Reads
  · -- only a thread that is about to look does not read any more
    refine hsafe ?_
    have hafter : s.current.phase.reads false ≠ true := hreads
    unfold Reads at hbefore
    rcases hphase : s.current.phase with - | batch | ⟨batch, - | - | -⟩ | - | - | - <;>
      rw [hphase] at hafter hbefore
    all_goals first | exact absurd rfl hafter | skip
    · exact .inr ⟨batch, rfl⟩
    · cases hbefore
    · exact .inl rfl
    · cases hbefore
    · cases hbefore
  · exact h.read hbefore

theorem Sound.putSentinel (h : s.Sound) : s.putSentinel.Sound := by
  unfold Writer.putSentinel
  split_ifs with howner
  · have hrows : rows (s.queue ++ [none]) = rows s.queue := by
      rw [rows_append]
      exact List.append_nil _
    exact
      { h with
        account := by rw [hrows]; exact h.account
        read := fun hreads ↦ hrows.trans (h.read hreads)
        sentinel := fun past future heq ↦ by
          rcases List.eq_nil_or_concat future with rfl | ⟨future, last, rfl⟩
          · rfl
          · have heq' : s.queue ++ [none] = (past ++ none :: future) ++ [last] := by
              simpa using heq
            obtain ⟨hqueue, hlast⟩ := List.append_inj' heq' rfl
            obtain rfl : none = last := by simpa using hlast
            rw [List.concat_eq_append, rows_append, h.sentinel past future hqueue]
            rfl
        stopped := fun hidle ↦ by cases hidle
        owner := fun _ ↦ h.owner (by rw [howner]; decide) }
  · exact h

theorem Sound.joined (h : s.Sound) : (s.joined false).Sound := by
  unfold Writer.joined
  split_ifs with hjoined
  · obtain ⟨howner, hdead⟩ : s.owner = .joining ∧ s.current.phase = .dead := by simpa using hjoined
    exact
      { h with
        stopped := fun _ _ ↦ hdead
        owner := fun hidle ↦ absurd rfl hidle }
  · exact h

theorem Sound.enqueue (h : s.Sound) {item : Statement} {written : Bool}
    (hsafe : s.Safe (.enqueue item written)) : (s.enqueue item written).Sound := by
  unfold Writer.enqueue
  split_ifs with hrunning hwritten
  · exact
      { h with
        enqueuing := fun other hother ↦ by
          rcases List.mem_append.1 hother with hother | hother
          · exact h.enqueuing other hother
          · rw [List.mem_singleton.1 hother]
            exact hsafe hrunning }
  · refine { h with account := ?_ }
    show s.accepted + {item} = s.handed + (s.written + {item}) +
      (s.current.phase.batch : Multiset Statement) + (rows s.queue : Multiset Statement)
    rw [h.account]
    abel
  · exact h

theorem Sound.put (h : s.Sound) {i : ℕ} (hsafe : s.Safe (.put i)) : (s.put i).Sound := by
  unfold Writer.put
  rcases hi : s.enqueuing[i]? with - | item
  · exact h
  obtain ⟨hnone, hreads⟩ := hsafe
  have hitem : item.sql ≠ flushMark.sql := h.enqueuing item (List.mem_of_getElem? hi)
  refine
    { h with
      account := ?_
      read := fun hnot ↦ absurd hreads hnot
      sentinel := fun past future heq ↦ ?_
      enqueuing := fun other hother ↦ h.enqueuing other (List.mem_of_mem_eraseIdx hother) }
  · show s.accepted + {item} = s.handed + s.written + (s.current.phase.batch : Multiset Statement) +
      (rows (s.queue ++ [some item]) : Multiset Statement)
    rw [rows_append, rows_item_cons hitem, h.account, ← Multiset.coe_add, ← add_assoc]
    rfl
  · have hmem : none ∈ s.queue ++ [some item] := by
      rw [show s.queue ++ [some item] = past ++ none :: future from heq]
      simp
    simp [hnone] at hmem

theorem Sound.flush (h : s.Sound) : s.flush.Sound := by
  have hrows : rows (s.queue ++ [some flushMark]) = rows s.queue := by
    rw [rows_append, rows_mark_cons rfl]
    exact List.append_nil _
  refine
    { h with
      account := by rw [Writer.flush, hrows]; exact h.account
      read := fun hreads ↦ hrows.trans (h.read hreads)
      sentinel := fun past future heq ↦ ?_ }
  rcases List.eq_nil_or_concat future with rfl | ⟨future, last, rfl⟩
  · rfl
  · have heq' : s.queue ++ [some flushMark] = (past ++ none :: future) ++ [last] := by
      simpa [Writer.flush] using heq
    obtain ⟨hqueue, hlast⟩ := List.append_inj' heq' rfl
    obtain rfl : some flushMark = last := by simpa using hlast
    rw [List.concat_eq_append, rows_append, h.sentinel past future hqueue, rows_mark_cons rfl]
    rfl

/-- The thread of the last start has made a step that leaves the queue and the log alone. -/
theorem Sound.moved (h : s.Sound) {phase : WriterPhase} (hbatch : phase.batch = s.current.phase.batch)
    (hreads : Reads { s with current := { s.current with phase } } ∨ rows s.queue = [])
    (hconn : phase ≠ .connecting → phase ≠ .dead → s.conn = some s.current.id)
    (hdead : s.current.phase = .dead → phase = .dead) :
    Sound { s with current := { s.current with phase } } :=
  { h with
    account := by
      rw [hbatch]
      exact h.account
    read := fun hnot ↦ hreads.resolve_left hnot
    conn := hconn
    stopped := fun howner hrunning ↦ hdead (h.stopped howner hrunning) }

/-- It reads the head of the queue. -/
theorem Sound.taken (h : s.Sound) {batch : List Statement} {item : Option Statement}
    {queue : List (Option Statement)} (hphase : s.current.phase = .polling batch)
    (hqueue : s.queue = item :: queue) :
    Sound { s with queue, current := { s.current with phase := Writer.taken batch item } } := by
  have hconn : s.conn = some s.current.id := h.conn (by rw [hphase]; nofun) (by rw [hphase]; nofun)
  have hsentinel : ∀ past future, queue = past ++ none :: future → rows future = [] :=
    fun past future heq ↦ h.sentinel (item :: past) future (by rw [hqueue, heq]; rfl)
  have hrunning : s.owner = .idle → s.running = true := by
    intro howner
    by_contra hstopped
    have hdead := h.stopped howner (by simpa using hstopped)
    rw [hphase] at hdead
    cases hdead
  have haccount := h.account
  rw [hqueue, hphase, WriterPhase.batch] at haccount
  have hstopped : s.owner = .idle → s.running = false → Writer.taken batch item = .dead :=
    fun howner hfalse ↦ absurd (hrunning howner) (by rw [hfalse]; nofun)
  refine
    { h with
      account := ?_
      read := fun hnot ↦ ?_
      sentinel := hsentinel
      conn := fun _ _ ↦ hconn
      stopped := hstopped }
  · show s.accepted = s.handed + s.written + ((Writer.taken batch item).batch : Multiset Statement) +
      (rows queue : Multiset Statement)
    rcases item with - | item
    · rw [haccount, rows_none_cons]
      rfl
    · by_cases hmark : item.sql = flushMark.sql
      · rw [haccount, rows_mark_cons hmark, Writer.taken, if_pos hmark]
        split_ifs with hnil
        · rw [hnil]
          rfl
        · rfl
      · have hbatch : (Writer.taken batch (some item)).batch = batch ++ [item] := by
          rw [Writer.taken, if_neg hmark]
          split_ifs <;> rfl
        rw [haccount, rows_item_cons hmark, hbatch, ← Multiset.coe_add, ← Multiset.cons_coe,
          ← Multiset.singleton_add, Multiset.coe_singleton]
        abel
  · rcases item with - | item
    · exact h.sentinel [] queue hqueue
    · refine absurd ?_ hnot
      show (Writer.taken batch (some item)).reads s.running = true
      simp only [Writer.taken]
      split_ifs <;> rfl

/-- It hands its batch to SQLite. -/
theorem Sound.flushed (h : s.Sound) {batch : List Statement} {after : AfterFlush}
    (hphase : s.current.phase = .flushing batch after) :
    Sound { s with handed := s.handed + batch, current := { s.current with phase := Writer.flushed after } } := by
  have hconn : s.conn = some s.current.id := h.conn (by rw [hphase]; nofun) (by rw [hphase]; nofun)
  have haccount := h.account
  rw [hphase, WriterPhase.batch] at haccount
  have hempty : (Writer.flushed after).batch = [] := by cases after <;> rfl
  refine
    { h with
      account := ?_
      read := fun hnot ↦ h.read fun hreads ↦ hnot ?_
      conn := fun _ _ ↦ hconn
      stopped := fun howner hrunning ↦ ?_ }
  · show s.accepted = s.handed + batch + s.written +
      ((Writer.flushed after).batch : Multiset Statement) + (rows s.queue : Multiset Statement)
    rw [haccount, hempty, Multiset.coe_nil]
    abel
  · unfold Reads at hreads
    rw [hphase] at hreads
    cases after with
    | goOn => rfl
    | check => exact hreads
    | leave => cases hreads
  · have hdead := h.stopped howner hrunning
    rw [hphase] at hdead
    cases hdead

theorem Sound.work (h : s.Sound) {act : WriterAct} (hsafe : s.Safe (.work act)) :
    (s.work act).Sound := by
  have hreads : s.Reads ∨ rows s.queue = [] := or_iff_not_imp_left.2 h.read
  unfold Reads at hreads
  unfold Writer.work workerStep
  rcases hphase : s.current.phase with - | batch | ⟨batch, after⟩ | - | - | - <;>
    rw [hphase] at hreads
  · -- a connection is opened: a thread that cannot open one is dead
    have haccount := h.account
    rw [hphase] at haccount
    simp only
    split_ifs with hact
    · subst hact
      exact
        { h with
          account := haccount
          read := fun _ ↦ hsafe hphase
          conn := fun _ hdead ↦ absurd rfl hdead
          stopped := fun _ _ ↦ rfl }
    · exact
        { h with
          account := haccount
          read := fun hnot ↦ absurd rfl hnot
          conn := fun _ _ ↦ rfl
          stopped := fun howner hrunning ↦ by
            have hdead := h.stopped howner hrunning
            rw [hphase] at hdead
            cases hdead }
  · simp only
    split
    · -- the poll: an item, or a timeout that finds the queue empty
      next item queue hqueue => exact h.taken hphase hqueue
    · next hqueue =>
      have hrows : rows s.queue = [] := by rw [hqueue]; rfl
      have hconn : s.conn = some s.current.id :=
        h.conn (by rw [hphase]; nofun) (by rw [hphase]; nofun)
      refine h.moved ?_ (.inr hrows) (fun _ _ ↦ hconn) (by rw [hphase]; nofun)
      rw [hphase]
      split_ifs with hnil
      · rw [hnil]
        rfl
      · rfl
  · have hconn : s.conn = some s.current.id :=
      h.conn (by rw [hphase]; nofun) (by rw [hphase]; nofun)
    simp only
    -- the flush: a batch that SQLite can neither run nor roll back would be lost, and is not safe
    split_ifs with hnil
    · refine h.moved ?_ ?_ (fun _ _ ↦ hconn) (by rw [hphase]; nofun)
      · rw [hphase, hnil]
        cases after <;> rfl
      · cases after with
        | leave => exact .inr (hreads.resolve_left nofun)
        | _ => exact hreads
    · split
      · next hnone =>
        rw [hconn] at hnone
        cases hnone
      · next id hid =>
        obtain rfl : s.current.id = id := Option.some.inj (hconn.symm.trans hid)
        simp only [if_true]
        cases act with
        | ok => exact h.flushed hphase
        | cannotOpen => exact h.flushed hphase
        | cannotRollBack executed => exact absurd (hsafe batch after hphase) hnil
  · have hconn : s.conn = some s.current.id :=
      h.conn (by rw [hphase]; nofun) (by rw [hphase]; nofun)
    refine h.moved ?_ ?_ (fun _ _ ↦ hconn) (by rw [hphase]; nofun)
    · rw [hphase]
      split_ifs <;> rfl
    · -- the thread polls again while the writer runs, and closes its connection otherwise
      rcases hreads with hrunning | hrows
      · refine .inl ?_
        have htrue : s.running = true := hrunning
        show WriterPhase.reads s.running (if s.running = true then _ else _) = true
        rw [if_pos htrue]
        rfl
      · exact .inr hrows
  · have hrows : rows s.queue = [] := hreads.resolve_left nofun
    -- the connection is closed by its own thread, with nothing left to read
    have hclosed : Sound { s with current := { s.current with phase := .dead } } :=
      h.moved (by rw [hphase]; rfl) (.inr hrows) (fun _ hdead ↦ absurd rfl hdead) fun _ ↦ rfl
    simp only
    split_ifs
    · exact { hclosed with conn := fun _ hdead ↦ absurd rfl hdead }
    · exact hclosed
  · have hrows : rows s.queue = [] := hreads.resolve_left nofun
    exact h.moved (by rw [hphase]) (.inr hrows) (fun _ hdead ↦ absurd rfl hdead) fun _ ↦ rfl

/-- A thread that was replaced has ended. -/
theorem Sound.strayWork (h : s.Sound) (i : ℕ) (act : WriterAct) : (s.strayWork i act).Sound := by
  unfold Writer.strayWork
  rcases hi : s.strays[i]? with - | t
  · exact h
  · have hdead : t.phase = .dead := h.strays t (List.mem_of_getElem? hi)
    simp only [workerStep, hdead]
    refine { h with strays := fun u hu ↦ ?_ }
    rcases List.mem_or_eq_of_mem_set hu with hu | rfl
    · exact h.strays u hu
    · rfl

theorem Sound.next (h : s.Sound) {step : WriterStep} (hsafe : s.Safe step) : (s.next step).Sound := by
  cases step with
  | start => exact h.start
  | stop => exact h.stop hsafe
  | putSentinel => exact h.putSentinel
  | joined timedOut =>
    obtain rfl : timedOut = false := hsafe
    exact h.joined
  | enqueue item written => exact h.enqueue hsafe
  | put i => exact h.put hsafe
  | flush => exact h.flush
  | work act => exact h.work hsafe
  | strayWork i act => exact h.strayWork i act

end Sound

/-! ### Runs -/

/-- **In every run of safe steps the writer is settled in every state that is reached.** -/
theorem settled_exec {steps : List WriterStep} (h : Runs.Every next (fun _ s step ↦ s.Safe step) initial steps) :
    (Runs.exec next initial steps).Settled := by
  refine Sound.settled ?_
  exact Runs.exec_invariant (fun _ ↦ Sound) sound_initial (fun _ _ _ hs hsafe ↦ hs.next hsafe) h

/-- A row of the usage table. -/
def someRow : Statement :=
  ⟨py "INSERT INTO usage VALUES (?)", [.int 1]⟩

/-- The writer is started, writes a row that was put before `stop`, and is stopped. -/
def quietStop : List WriterStep :=
  [.start, .work .ok, .enqueue someRow false, .put 0, .work .ok, .stop, .putSentinel, .work .ok,
    .work .ok, .work .ok, .joined false]

/-- It has written the row. -/
theorem settled_quietStop :
    (Runs.exec next initial quietStop).accepted = {someRow} ∧
      (Runs.exec next initial quietStop).Settled := by
  refine ⟨rfl, settled_exec ?_⟩
  unfold quietStop
  repeat' refine Runs.every_cons_iff.2 ⟨?_, ?_⟩
  · exact List.not_mem_nil
  · trivial
  · exact fun _ ↦ by decide
  · exact ⟨List.not_mem_nil, rfl⟩
  · trivial
  · rintro (hphase | ⟨batch, hphase⟩) <;> cases hphase
  all_goals first | trivial | rfl | exact Runs.every_nil _ _

/-- The database cannot be opened when the writer starts. -/
def unopened : List WriterStep :=
  [.start, .work .cannotOpen, .enqueue someRow false, .put 0, .stop, .putSentinel, .joined false]

/-- A call of `enqueue` sees the writer running, and puts its row behind the sentinel. -/
def overtaken : List WriterStep :=
  [.start, .work .ok, .enqueue someRow false, .stop, .putSentinel, .put 0, .work .ok, .work .ok,
    .work .ok, .joined false]

/-- The row is accepted, and neither handed to SQLite nor written when `stop` returns. -/
theorem not_settled_unopened :
    (¬ (Runs.exec next initial unopened).Settled) ∧ ¬ (Runs.exec next initial overtaken).Settled := by
  constructor <;>
    exact fun h ↦ absurd (congrArg Multiset.card (h rfl rfl)) (by decide +kernel)

end Writer

end LocalGateway
