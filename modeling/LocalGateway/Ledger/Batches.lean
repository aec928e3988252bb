import LocalGateway.Foundations.Transactions
import LocalGateway.Ledger.Writer

/-!
# Batches of statements

What the background writer makes of the database: its threads execute batches on one connection, cut by timing, by size
and by `flush`, and replay a batch in which a statement fails. SQLite is a parameter: what a statement makes of a
database, or that it fails and changes nothing.

* `WriterDb.Pending`: what is committed, with the statements that wait, comes to what the statements that were accepted
  make of the database one after the other.
* `WriterDb.Prompt` is what a step must not do: stop the writer while it is on its way to look whether it should go on
  with statements waiting, give up waiting for it, start it on an old sentinel, or enqueue the flush mark.
* `WriterDb.sequential_exec`: in every run of such steps with a working connection, a writer that is stopped has made of
  the database what the statements make one after the other.
-/

namespace LocalGateway

open Py Transactions

/-- The background writer with the database, and a log of the statements in the order in which they were accepted. -/
structure WriterDb (δ : Type*) where
  writer : Writer
  /-- The database file, and the transaction of the writer. -/
  session : Session δ
  arrived : List Statement

/-- The statements that wait: those of the batch, and those of the queue. -/
def unwritten (s : Writer) : List Statement :=
  s.current.phase.batch ++ rows s.queue

/-- The batch that a thread is about to flush on its connection. -/
def flushedBatch (s : Writer) (t : WriterThread) : List Statement :=
  if s.conn = some t.id then
    match t.phase with
    | .flushing batch _ => batch
    | _ => []
  else []

namespace WriterDb

variable {δ : Type*} (execute : Statement → δ → Option δ)

/-- `BackgroundWriter(db_path)` on a database. -/
def initial (db : δ) : WriterDb δ :=
  ⟨.initial, .fresh db, []⟩

/-- What the step of a thread makes of the database: `_flush`, unless the connection does not work. -/
def workSession (s : Writer) (t : WriterThread) (act : WriterAct) (session : Session δ) : Session δ :=
  if act = .ok then if flushedBatch s t = [] then session else Transactions.flush execute session (flushedBatch s t)
  else session.rollback

/-- What a step makes of the database; the fallback of `enqueue` writes on a connection of its own. -/
def nextSession (w : WriterDb δ) : WriterStep → Session δ
  | .work act => workSession execute w.writer w.writer.current act w.session
  | .strayWork i act =>
    (w.writer.strays[i]?).elim w.session fun t ↦ workSession execute w.writer t act w.session
  | .enqueue item _ =>
    if w.writer.running then w.session else .fresh (alone execute w.session.committed item)
  | _ => w.session

/-- The statements that are accepted by a step: those that are put, and those of the fallback. -/
def accepting (w : WriterDb δ) : WriterStep → List Statement
  | .put i => (w.writer.enqueuing[i]?).toList
  | .enqueue item _ => if w.writer.running then [] else [item]
  | _ => []

/-- The state after a step. -/
def next (w : WriterDb δ) (step : WriterStep) : WriterDb δ :=
  ⟨w.writer.next step, w.nextSession execute step, w.arrived ++ w.accepting step⟩

/-- The connection works. -/
def Working : WriterStep → Prop
  | .work act | .strayWork _ act => act = .ok
  | _ => True

/-- A statement is enqueued before `stop`, or by the fallback of a writer that is stopped. -/
def Timely (w : WriterDb δ) : WriterStep → Prop
  | .enqueue _ _ => w.writer.running = true ∨ w.writer.owner = .idle
  | .put _ => w.writer.running = true
  | _ => True

/-- A step that loses no statement. -/
def Prompt (w : WriterDb δ) : WriterStep → Prop
  | .start => none ∉ w.writer.queue
  | .stop => w.writer.current.phase = .checking ∨ (∃ batch, w.writer.current.phase = .flushing batch .check) →
      rows w.writer.queue = []
  | .joined timedOut => timedOut = false
  | .enqueue item _ => w.writer.running = true → item.sql ≠ flushMark.sql
  | _ => True

/-- The database of a writer that is stopped is what the statements make of it one after the other. -/
def Sequenced (db : δ) (w : WriterDb δ) : Prop :=
  w.writer.owner = .idle → w.writer.running = false → w.session.committed = sequential execute w.arrived db

/-- What prompt steps keep. -/
structure Pending (db : δ) (w : WriterDb δ) : Prop where
  sound : w.writer.Sound
  /-- While the writer runs, no sentinel is in the queue and the thread will read it. -/
  running : w.writer.running = true → none ∉ w.writer.queue ∧ w.writer.Reads
  /-- No transaction is open between two flushes. -/
  closed : w.session = .fresh w.session.committed
  /-- What waits is all that is missing. -/
  missing : sequential execute w.arrived db = sequential execute (unwritten w.writer) w.session.committed

section Pending

variable {execute} {db : δ} {w : WriterDb δ}

theorem pending_initial (db : δ) : Pending execute db (initial db) where
  sound := Writer.sound_initial
  running h := absurd h Bool.false_ne_true
  closed := rfl
  missing := rfl

/-- A writer that is stopped has nothing waiting. -/
theorem Pending.waiting_stopped (h : Pending execute db w) (howner : w.writer.owner = .idle)
    (hrunning : w.writer.running = false) : unwritten w.writer = [] := by
  have hdead := h.sound.stopped howner hrunning
  have hrows : rows w.writer.queue = [] := h.sound.read (by simp [Writer.Reads, WriterPhase.reads, hdead])
  rw [unwritten, hdead, hrows]
  rfl

/-- So the database is what the statements make of it. -/
theorem Pending.sequenced (h : Pending execute db w) : Sequenced execute db w := by
  intro howner hrunning
  rw [h.missing, h.waiting_stopped howner hrunning, sequential_nil]

/-- A step that executes some of the statements that wait, in their order. -/
theorem Pending.step (h : Pending execute db w) {step : WriterStep} (executed : List Statement)
    (hsound : (w.writer.next step).Sound)
    (hrunning : (w.writer.next step).running = true →
      none ∉ (w.writer.next step).queue ∧ (w.writer.next step).Reads)
    (hsession : w.nextSession execute step = .fresh (sequential execute executed w.session.committed))
    (hwaiting : unwritten w.writer ++ w.accepting step = executed ++ unwritten (w.writer.next step)) :
    Pending execute db (w.next execute step) where
  sound := hsound
  running := hrunning
  closed := by
    show w.nextSession execute step = .fresh (w.nextSession execute step).committed
    rw [hsession]
    rfl
  missing := by
    show sequential execute (w.arrived ++ w.accepting step) db =
      sequential execute (unwritten (w.writer.next step)) (w.nextSession execute step).committed
    rw [hsession, sequential_append, h.missing, ← sequential_append, hwaiting, sequential_append]
    rfl

/-- A prompt step of a working connection is safe. -/
theorem Pending.safe (h : Pending execute db w) {step : WriterStep} (hworking : Working step) (htimely : w.Timely step)
    (hprompt : w.Prompt step) : w.writer.Safe step := by
  cases step with
  | put i => exact h.running htimely
  | work act =>
    obtain rfl : act = .ok := hworking
    trivial
  | strayWork i act => trivial
  | putSentinel => trivial
  | flush => trivial
  | _ => exact hprompt

end Pending

end WriterDb

/-! ### A step of the thread -/

section Work

variable {s : Writer}

/-- The connection of a thread that works is its own. -/
theorem Writer.Sound.conn_of_flushing (h : s.Sound) {batch : List Statement} {after : AfterFlush}
    (hphase : s.current.phase = .flushing batch after) : s.conn = some s.current.id :=
  h.conn (fun heq ↦ by rw [hphase] at heq; cases heq) fun heq ↦ by rw [hphase] at heq; cases heq

theorem flushedBatch_of_flushing (h : s.Sound) {batch : List Statement} {after : AfterFlush}
    (hphase : s.current.phase = .flushing batch after) : flushedBatch s s.current = batch := by
  rw [flushedBatch, if_pos (h.conn_of_flushing hphase), hphase]

theorem flushedBatch_of_not_flushing {t : WriterThread} (h : ∀ batch after, t.phase ≠ .flushing batch after) :
    flushedBatch s t = [] := by
  unfold flushedBatch
  split_ifs
  · rcases hphase : t.phase with - | batch | ⟨batch, after⟩ | - | - | -
    · rfl
    · rfl
    · exact absurd hphase (h batch after)
    · rfl
    · rfl
    · rfl
  · rfl

/-- An item that is read goes from the queue to the batch. -/
theorem batch_taken (batch : List Statement) (item : Option Statement) (queue : List (Option Statement)) :
    (Writer.taken batch item).batch ++ rows queue = batch ++ rows (item :: queue) := by
  rcases item with - | item
  · rw [Writer.rows_none_cons]
    rfl
  · by_cases hmark : item.sql = flushMark.sql
    · rw [Writer.rows_mark_cons hmark, Writer.taken, if_pos hmark]
      split_ifs with hnil
      · rw [hnil]
        rfl
      · rfl
    · rw [Writer.rows_item_cons hmark, Writer.taken, if_neg hmark]
      split_ifs
      · exact List.append_assoc batch [item] _
      · exact List.append_assoc batch [item] _

/-- A thread that has read a statement or a flush mark goes on. -/
theorem reads_taken (batch : List Statement) (item : Statement) (running : Bool) :
    (Writer.taken batch (some item)).reads running = true := by
  simp only [Writer.taken]
  split_ifs <;> rfl

/-- The step of a thread that waits, with nothing to read. -/
theorem work_timeout {batch : List Statement} (hphase : s.current.phase = .polling batch) (hqueue : s.queue = []) :
    s.work .ok = { s with current := { s.current with
      phase := if batch = [] then .checking else .flushing batch .check } } := by
  simp [Writer.work, Writer.workerStep, hphase, hqueue]

/-- The step of a thread that reads an item. -/
theorem work_take {batch : List Statement} {item : Option Statement} {queue : List (Option Statement)}
    (hphase : s.current.phase = .polling batch) (hqueue : s.queue = item :: queue) :
    s.work .ok = { s with queue, current := { s.current with phase := Writer.taken batch item } } := by
  simp [Writer.work, Writer.workerStep, hphase, hqueue]

/-- The step of a thread that flushes. -/
theorem work_flush (h : s.Sound) {batch : List Statement} {after : AfterFlush}
    (hphase : s.current.phase = .flushing batch after) :
    s.work .ok = { s with
      handed := if batch = [] then s.handed else s.handed + batch
      current := { s.current with phase := Writer.flushed after } } := by
  have hconn := h.conn_of_flushing hphase
  by_cases hnil : batch = []
  · simp [Writer.work, Writer.workerStep, hphase, hnil]
  · simp [Writer.work, Writer.workerStep, hphase, hnil, hconn]

/-- The other steps leave the queue alone, and have no batch. -/
theorem work_other (hpolling : ∀ batch, s.current.phase ≠ .polling batch)
    (hflushing : ∀ batch after, s.current.phase ≠ .flushing batch after) :
    (s.work .ok).running = s.running ∧ (s.work .ok).queue = s.queue ∧ s.current.phase.batch = [] ∧
      (s.work .ok).current.phase.batch = [] ∧
      (s.running = true → s.Reads → (s.work .ok).current.phase = .polling []) := by
  unfold Writer.Reads
  rcases hphase : s.current.phase with - | batch | ⟨batch, after⟩ | - | - | -
  · simp [Writer.work, Writer.workerStep, hphase, WriterPhase.batch]
  · exact absurd hphase (hpolling batch)
  · exact absurd hphase (hflushing batch after)
  · rcases hrunning : s.running with - | -
    · simp [Writer.work, Writer.workerStep, hphase, hrunning, WriterPhase.batch]
    · simp [Writer.work, Writer.workerStep, hphase, hrunning, WriterPhase.batch]
  · by_cases hconn : s.conn = some s.current.id
    · simp [Writer.work, Writer.workerStep, hphase, hconn, WriterPhase.batch, WriterPhase.reads]
    · simp [Writer.work, Writer.workerStep, hphase, hconn, WriterPhase.batch, WriterPhase.reads]
  · simp [Writer.work, Writer.workerStep, hphase, WriterPhase.batch, WriterPhase.reads]

/-- **A step of the thread** flushes its batch, or moves statements from the queue to it. -/
theorem waiting_work (h : s.Sound) : unwritten s = flushedBatch s s.current ++ unwritten (s.work .ok) := by
  by_cases hflushing : ∃ batch after, s.current.phase = .flushing batch after
  · obtain ⟨batch, after, hphase⟩ := hflushing
    have hafter : (Writer.flushed after).batch = [] := by cases after <;> rfl
    rw [flushedBatch_of_flushing h hphase, work_flush h hphase, unwritten, unwritten, hphase, hafter]
    rfl
  · have hnot : ∀ batch after, s.current.phase ≠ .flushing batch after := fun batch after hphase ↦
      hflushing ⟨batch, after, hphase⟩
    rw [flushedBatch_of_not_flushing hnot, List.nil_append]
    by_cases hpolling : ∃ batch, s.current.phase = .polling batch
    · obtain ⟨batch, hphase⟩ := hpolling
      rcases hqueue : s.queue with - | ⟨item, queue⟩
      · rw [work_timeout hphase hqueue, unwritten, unwritten, hphase]
        dsimp only
        split_ifs with hnil
        · rw [hnil]
          rfl
        · rfl
      · rw [work_take hphase hqueue, unwritten, unwritten, hphase, hqueue]
        exact (batch_taken batch item queue).symm
    · obtain ⟨-, hqueue, hbatch, hbatch', -⟩ := work_other (fun batch hphase ↦ hpolling ⟨batch, hphase⟩) hnot
      rw [unwritten, unwritten, hqueue, hbatch, hbatch']

/-- **While the writer runs** and no sentinel is in the queue, its thread goes on. -/
theorem reads_work (h : s.Sound) (hrunning : s.running = true) (hnone : none ∉ s.queue) (hreads : s.Reads) :
    none ∉ (s.work .ok).queue ∧ (s.work .ok).Reads := by
  by_cases hflushing : ∃ batch after, s.current.phase = .flushing batch after
  · obtain ⟨batch, after, hphase⟩ := hflushing
    rw [work_flush h hphase]
    refine ⟨hnone, ?_⟩
    unfold Writer.Reads at hreads ⊢
    rw [hphase] at hreads
    cases after with
    | goOn => rfl
    | check => exact hreads
    | leave => cases hreads
  · have hnot : ∀ batch after, s.current.phase ≠ .flushing batch after := fun batch after hphase ↦
      hflushing ⟨batch, after, hphase⟩
    by_cases hpolling : ∃ batch, s.current.phase = .polling batch
    · obtain ⟨batch, hphase⟩ := hpolling
      rcases hqueue : s.queue with - | ⟨item, queue⟩
      · rw [work_timeout hphase hqueue]
        refine ⟨hnone, ?_⟩
        unfold Writer.Reads
        dsimp only
        split_ifs
        · exact hrunning
        · exact hrunning
      · rw [hqueue, List.mem_cons, not_or] at hnone
        rw [work_take hphase hqueue]
        refine ⟨hnone.2, ?_⟩
        rcases item with - | item
        · exact absurd rfl hnone.1
        · exact reads_taken batch item s.running
    · obtain ⟨-, hqueue, -, -, hphase⟩ := work_other (fun batch hphase ↦ hpolling ⟨batch, hphase⟩) hnot
      rw [Writer.Reads, hqueue, hphase hrunning hreads]
      exact ⟨hnone, rfl⟩

theorem running_work (h : s.Sound) : (s.work .ok).running = s.running := by
  rcases hphase : s.current.phase with - | batch | ⟨batch, after⟩ | - | - | -
  · simp [Writer.work, Writer.workerStep, hphase]
  · rcases hqueue : s.queue with - | ⟨item, queue⟩
    · rw [work_timeout hphase hqueue]
    · rw [work_take hphase hqueue]
  · rw [work_flush h hphase]
  · simp [Writer.work, Writer.workerStep, hphase]
  · by_cases hconn : s.conn = some s.current.id <;> simp [Writer.work, Writer.workerStep, hphase, hconn]
  · simp [Writer.work, Writer.workerStep, hphase]

end Work

/-! ### Runs -/

namespace WriterDb

variable {δ : Type*} {execute : Statement → δ → Option δ} {db : δ} {w : WriterDb δ}

/-- A step that executes nothing and accepts nothing. -/
theorem Pending.quiet (h : Pending execute db w) {step : WriterStep} (hsound : (w.writer.next step).Sound)
    (hrunning : (w.writer.next step).running = true →
      none ∉ (w.writer.next step).queue ∧ (w.writer.next step).Reads)
    (hsession : w.nextSession execute step = w.session) (haccepting : w.accepting step = [])
    (hwaiting : unwritten (w.writer.next step) = unwritten w.writer) : Pending execute db (w.next execute step) :=
  h.step [] hsound hrunning (hsession.trans h.closed) (by rw [haccepting, List.append_nil, hwaiting]; rfl)

/-- The thread makes a step. -/
theorem Pending.work (h : Pending execute db w) (hsound : (w.writer.next (.work .ok)).Sound) :
    Pending execute db (w.next execute (.work .ok)) := by
  refine h.step (flushedBatch w.writer w.writer.current) hsound (fun hrunning ↦ ?_) ?_ ?_
  · have hbefore : w.writer.running = true := (running_work h.sound).symm.trans hrunning
    obtain ⟨hnone, hreads⟩ := h.running hbefore
    exact reads_work h.sound hbefore hnone hreads
  · show workSession execute w.writer w.writer.current .ok w.session = _
    rw [workSession, if_pos rfl]
    split_ifs with hnil
    · rw [hnil]
      exact h.closed
    · rw [h.closed]
      exact flush_eq _ _
  · show unwritten w.writer ++ [] = _
    rw [List.append_nil]
    exact waiting_work h.sound

/-- A thread that was replaced has nothing to flush. -/
theorem Pending.strayWork (h : Pending execute db w) (i : ℕ) (hsound : (w.writer.next (.strayWork i .ok)).Sound) :
    Pending execute db (w.next execute (.strayWork i .ok)) := by
  have hkept : (w.writer.strayWork i .ok).running = w.writer.running ∧
      (w.writer.strayWork i .ok).queue = w.writer.queue ∧
      (w.writer.strayWork i .ok).current = w.writer.current ∧
      w.nextSession execute (.strayWork i .ok) = w.session := by
    unfold Writer.strayWork
    show _ ∧ _ ∧ _ ∧ (w.writer.strays[i]?).elim w.session _ = _
    rcases hi : w.writer.strays[i]? with - | t
    · exact ⟨rfl, rfl, rfl, rfl⟩
    · have hdead : t.phase = .dead := h.sound.strays t (List.mem_of_getElem? hi)
      have hbatch : flushedBatch w.writer t = [] :=
        flushedBatch_of_not_flushing fun batch after ↦ by rw [hdead]; exact WriterPhase.noConfusion
      refine ⟨?_, ?_, ?_, ?_⟩
      · simp [Writer.workerStep, hdead]
      · simp [Writer.workerStep, hdead]
      · simp [Writer.workerStep, hdead]
      · show workSession execute w.writer t .ok w.session = w.session
        rw [workSession, if_pos rfl, if_pos hbatch]
  obtain ⟨hrunning, hqueue, hcurrent, hsession⟩ := hkept
  refine h.quiet hsound (fun hrun ↦ ?_) hsession rfl ?_
  · show none ∉ (w.writer.strayWork i .ok).queue ∧ (w.writer.strayWork i .ok).Reads
    rw [Writer.Reads, hqueue, hcurrent, hrunning]
    exact h.running (hrunning.symm.trans hrun)
  · show unwritten (w.writer.strayWork i .ok) = unwritten w.writer
    rw [unwritten, unwritten, hqueue, hcurrent]

/-- A call of `enqueue` puts its statement. -/
theorem Pending.put (h : Pending execute db w) (i : ℕ) (hsound : (w.writer.next (.put i)).Sound) :
    Pending execute db (w.next execute (.put i)) := by
  rcases hi : w.writer.enqueuing[i]? with - | item
  · have hkept : w.writer.next (.put i) = w.writer := by simp [Writer.next, Writer.put, hi]
    refine h.quiet hsound (by rw [hkept]; exact h.running) rfl ?_ (by rw [hkept])
    show (w.writer.enqueuing[i]?).toList = []
    rw [hi]
    rfl
  · have hqueue : w.writer.next (.put i) = { w.writer with
        queue := w.writer.queue ++ [some item]
        enqueuing := w.writer.enqueuing.eraseIdx i
        accepted := w.writer.accepted + {item} } := by simp [Writer.next, Writer.put, hi]
    have hmark : item.sql ≠ flushMark.sql := h.sound.enqueuing item (List.mem_of_getElem? hi)
    have haccepting : w.accepting (.put i) = [item] := by
      show (w.writer.enqueuing[i]?).toList = [item]
      rw [hi]
      rfl
    refine h.step [] hsound (fun hrunning ↦ ?_) h.closed ?_
    · rw [hqueue] at hrunning ⊢
      obtain ⟨hnone, hreads⟩ := h.running hrunning
      exact ⟨by simpa using hnone, hreads⟩
    · rw [haccepting, hqueue, unwritten, unwritten, Writer.rows_append, Writer.rows_item_cons hmark]
      exact List.append_assoc _ _ _

/-- A call of `enqueue` looks whether the writer is running, and writes the statement itself if it is not. -/
theorem Pending.enqueue (h : Pending execute db w) {item : Statement} {written : Bool}
    (htimely : w.Timely (.enqueue item written)) (hsound : (w.writer.next (.enqueue item written)).Sound) :
    Pending execute db (w.next execute (.enqueue item written)) := by
  rcases hrunning : w.writer.running with - | -
  · have howner : w.writer.owner = .idle := htimely.resolve_left (by rw [hrunning]; exact Bool.false_ne_true)
    have hkept : (w.writer.enqueue item written).running = false ∧ unwritten (w.writer.enqueue item written) = [] := by
      have hnil := h.waiting_stopped howner hrunning
      unfold Writer.enqueue
      rw [if_neg (by rw [hrunning]; exact Bool.false_ne_true)]
      split_ifs
      · exact ⟨hrunning, hnil⟩
      · exact ⟨hrunning, hnil⟩
    refine h.step [item] hsound (fun hrun ↦ ?_) ?_ ?_
    · have hfalse : (w.writer.enqueue item written).running = true := hrun
      rw [hkept.1] at hfalse
      cases hfalse
    · show (if w.writer.running = true then _ else _) = _
      rw [hrunning, if_neg Bool.false_ne_true]
      rfl
    · show unwritten w.writer ++ (if w.writer.running = true then [] else [item]) =
        [item] ++ unwritten (w.writer.enqueue item written)
      rw [hrunning, if_neg Bool.false_ne_true, h.waiting_stopped howner hrunning, hkept.2]
      rfl
  · have hkept : w.writer.next (.enqueue item written) =
        { w.writer with enqueuing := w.writer.enqueuing ++ [item] } := by
      simp [Writer.next, Writer.enqueue, hrunning]
    refine h.quiet hsound (fun _ ↦ ?_) ?_ ?_ (by rw [hkept]; rfl)
    · rw [hkept]
      exact h.running hrunning
    · show (if w.writer.running = true then _ else _) = _
      rw [if_pos hrunning]
    · show (if w.writer.running = true then _ else _) = _
      rw [if_pos hrunning]

/-- `start`, on a queue without an old sentinel. -/
theorem Pending.start (h : Pending execute db w) (hprompt : w.Prompt .start) (hsound : (w.writer.next .start).Sound) :
    Pending execute db (w.next execute .start) := by
  by_cases hskip : (w.writer.running || w.writer.owner ≠ .idle) = true
  · have hkept : w.writer.next .start = w.writer := if_pos hskip
    exact h.quiet hsound (by rw [hkept]; exact h.running) rfl rfl (by rw [hkept])
  · have hstarted : w.writer.next .start = { w.writer with
        running := true
        strays := w.writer.strays ++ [w.writer.current]
        current := ⟨w.writer.current.id + 1, .connecting⟩ } := if_neg hskip
    obtain ⟨hrunning, howner⟩ : w.writer.running = false ∧ w.writer.owner = .idle := by simpa using hskip
    have hdead := h.sound.stopped howner hrunning
    refine h.quiet hsound (fun _ ↦ ?_) rfl rfl ?_
    · rw [hstarted]
      exact ⟨hprompt, rfl⟩
    · rw [hstarted, unwritten, unwritten, hdead]
      rfl

/-- `stop`: the writer does not run any more. -/
theorem Pending.stop (h : Pending execute db w) (hsound : (w.writer.next .stop).Sound) :
    Pending execute db (w.next execute .stop) := by
  by_cases hskip : (!w.writer.running || w.writer.owner ≠ .idle) = true
  · have hkept : w.writer.next .stop = w.writer := if_pos hskip
    exact h.quiet hsound (by rw [hkept]; exact h.running) rfl rfl (by rw [hkept])
  · have hstopped : w.writer.next .stop = { w.writer with running := false, owner := .putting } := if_neg hskip
    refine h.quiet hsound (fun hrunning ↦ ?_) rfl rfl ?_
    · rw [hstopped] at hrunning
      cases hrunning
    · rw [hstopped]
      rfl

theorem Pending.putSentinel (h : Pending execute db w) (hsound : (w.writer.next .putSentinel).Sound) :
    Pending execute db (w.next execute .putSentinel) := by
  by_cases howner : w.writer.owner = .putting
  · have hput : w.writer.next .putSentinel =
        { w.writer with queue := w.writer.queue ++ [none], owner := .joining } := if_pos howner
    have hstopped : w.writer.running = false := h.sound.owner (by rw [howner]; exact Owner.noConfusion)
    refine h.quiet hsound (fun hrunning ↦ ?_) rfl rfl ?_
    · rw [hput] at hrunning
      exact absurd (hstopped.symm.trans hrunning) Bool.false_ne_true
    · rw [hput, unwritten, unwritten, Writer.rows_append, Writer.rows_none_cons]
      exact congrArg _ (List.append_nil _)
  · have hkept : w.writer.next .putSentinel = w.writer := if_neg howner
    exact h.quiet hsound (by rw [hkept]; exact h.running) rfl rfl (by rw [hkept])

theorem Pending.joined (h : Pending execute db w) {timedOut : Bool}
    (hsound : (w.writer.next (.joined timedOut)).Sound) :
    Pending execute db (w.next execute (.joined timedOut)) := by
  by_cases hjoined : (w.writer.owner = .joining && (timedOut || w.writer.current.phase = .dead)) = true
  · have hidle : w.writer.next (.joined timedOut) = { w.writer with owner := .idle } := if_pos hjoined
    exact h.quiet hsound (by rw [hidle]; exact h.running) rfl rfl (by rw [hidle]; rfl)
  · have hkept : w.writer.next (.joined timedOut) = w.writer := if_neg hjoined
    exact h.quiet hsound (by rw [hkept]; exact h.running) rfl rfl (by rw [hkept])

theorem Pending.flush (h : Pending execute db w) (hsound : (w.writer.next .flush).Sound) :
    Pending execute db (w.next execute .flush) := by
  have hmarked : w.writer.next .flush = { w.writer with queue := w.writer.queue ++ [some flushMark] } := rfl
  refine h.quiet hsound (fun hrunning ↦ ?_) rfl rfl ?_
  · obtain ⟨hnone, hreads⟩ := h.running hrunning
    exact ⟨by rw [hmarked]; simpa using hnone, hreads⟩
  · rw [hmarked, unwritten, unwritten, Writer.rows_append, Writer.rows_mark_cons rfl]
    exact congrArg _ (List.append_nil _)

/-- **One step**: a prompt step of a working connection keeps what waits. -/
theorem Pending.next (h : Pending execute db w) {step : WriterStep} (hworking : Working step)
    (htimely : w.Timely step) (hprompt : w.Prompt step) : Pending execute db (w.next execute step) := by
  have hsound := h.sound.next (h.safe hworking htimely hprompt)
  cases step with
  | start => exact h.start hprompt hsound
  | stop => exact h.stop hsound
  | putSentinel => exact h.putSentinel hsound
  | joined timedOut => exact h.joined hsound
  | enqueue item written => exact h.enqueue htimely hsound
  | put i => exact h.put i hsound
  | flush => exact h.flush hsound
  | work act =>
    obtain rfl : act = .ok := hworking
    exact h.work hsound
  | strayWork i act =>
    obtain rfl : act = .ok := hworking
    exact h.strayWork i hsound

/-- **Batched writes equal sequential writes**: in every run of prompt steps with a working connection, whenever the
writer is stopped the database is what the statements make of it one after the other, each in a transaction of its own,
without those that fail. -/
theorem sequential_exec (execute : Statement → δ → Option δ) (db : δ) {steps : List WriterStep}
    (h : Runs.Every (next execute) (fun _ w step ↦ (Working step ∧ w.Timely step) ∧ w.Prompt step) (initial db) steps) :
    (Runs.exec (next execute) (initial db) steps).Sequenced execute db :=
  (Runs.exec_invariant (fun _ ↦ Pending execute db) (pending_initial db)
    (fun _ _ _ hw hstep ↦ hw.next hstep.1.1 hstep.1.2 hstep.2) h).sequenced

/-- A database that is the list of its rows, with a table that has none of them twice. -/
def insertOnce (statement : Statement) (db : List Statement) : Option (List Statement) :=
  if statement ∈ db then none else some (db ++ [statement])

/-- Another row of the usage table. -/
def otherRow : Statement :=
  ⟨py "INSERT INTO usage VALUES (?)", [.int 2]⟩

/-- Three statements are put before `stop`; the second fails in the batch that it shares with the first. -/
def repeatedRow : List WriterStep :=
  [.start, .work .ok, .enqueue Writer.someRow false, .put 0, .enqueue Writer.someRow false, .put 0, .work .ok,
    .work .ok, .flush, .enqueue otherRow false, .put 0, .stop, .putSentinel, .work .ok, .work .ok, .work .ok, .work .ok,
    .work .ok, .work .ok, .joined false]

/-- The good statements have taken effect, each once. -/
theorem sequential_repeatedRow :
    (Runs.exec (next insertOnce) (initial []) repeatedRow).session.committed = [Writer.someRow, otherRow] ∧
      (Runs.exec (next insertOnce) (initial []) repeatedRow).Sequenced insertOnce [] := by
  refine ⟨by decide +kernel, sequential_exec insertOnce [] ?_⟩
  unfold repeatedRow
  repeat' refine Runs.every_cons_iff.2 ⟨⟨⟨?_, ?_⟩, ?_⟩, ?_⟩
  all_goals first
    | trivial
    | exact rfl
    | exact .inl rfl
    | exact List.not_mem_nil
    | exact fun _ ↦ by decide
    | exact Runs.every_nil _ _
    | rintro (hphase | ⟨batch, hphase⟩) <;> cases hphase

/-- The thread has found the queue empty when a statement is put and `stop` is called, and does not look again. -/
def unread : List WriterStep :=
  [.start, .work .ok, .work .ok, .enqueue Writer.someRow false, .put 0, .stop, .putSentinel, .work .ok, .work .ok,
    .joined false]

/-- The statement was put before `stop`, on a connection that works and with a thread that is waited for, and has no
effect. -/
theorem not_sequenced_unread :
    Runs.Every (next insertOnce) (fun _ w step ↦ Working step ∧ w.Timely step) (initial []) unread ∧
      ¬ (Runs.exec (next insertOnce) (initial []) unread).Sequenced insertOnce [] := by
  constructor
  · unfold unread
    repeat' refine Runs.every_cons_iff.2 ⟨⟨?_, ?_⟩, ?_⟩
    all_goals first
      | trivial
      | exact rfl
      | exact .inl rfl
      | exact Runs.every_nil _ _
  · exact fun h ↦ absurd (congrArg List.length (h rfl rfl)) (by decide +kernel)

end WriterDb

end LocalGateway
