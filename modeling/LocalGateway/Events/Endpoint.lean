import LocalGateway.Events.Bus
import LocalGateway.Foundations.EventSource
import LocalGateway.Python.Encode

/-!
# The event stream of the UI

`endpoints/events.py` and the tick loop of `worker.py`: a connection subscribes to the bus, and its generator yields a
greeting, then every message it takes from its queue, and a comment when it waited in vain. A page reads what comes with
an `EventSource`.

* `EventServer.eventStream_exec`: what a page is told in every run of the server, and which connections hold a queue.
-/

namespace LocalGateway

open Py Json

/-- How far a generator of `event_stream` is. -/
inductive Phase
  /-- The queue is subscribed; nothing of the generator has run. -/
  | created
  | running
  /-- It has run its `finally`. -/
  | ended
  /-- It was given up before its first step, so its `finally` never runs. -/
  | dropped
deriving DecidableEq

/-- A connection of `/admin/events`. -/
structure Connection where
  queue : ℕ
  phase : Phase
  /-- What its generator has yielded. -/
  sent : List PyStr
deriving DecidableEq

/-- What a generator finds when it goes on. -/
inductive Wakeup
  /-- The response asks for the first time. -/
  | start (time : ℚ)
  /-- `request.is_disconnected()`. -/
  | disconnected
  /-- `asyncio.TimeoutError`. -/
  | timeout
  /-- `q.get()` has a message, if the queue does. -/
  | message
  /-- The task of the response is cancelled. -/
  | cancel
deriving DecidableEq

/-- A step of the server. -/
inductive ServerStep
  | connect
  | generator (i : ℕ) (w : Wakeup)
  | publish (eventType : PyStr) (data : Option PyDict) (time : ℚ)
  /-- `set_loop`, or the loop starts or ends. -/
  | setLoop (running : Bool)
  /-- The loop makes the first call that waits. -/
  | turn
  /-- `_event_tick_loop` wakes up. -/
  | tick (version : ℤ) (inflight : PyDict) (time : ℚ)
deriving DecidableEq

/-- The bus and the connections that were made. -/
structure EventServer where
  bus : EventBus
  connections : List Connection

/-- `subscriber_count`. -/
def EventBus.subscriberCount (s : EventBus) : ℕ :=
  s.subscribers.length

/-- The text of a message. -/
def eventText (eventType payload : PyStr) : PyStr :=
  py "event: " ++ eventType ++ py "\ndata: " ++ payload ++ py "\n\n"

/-- The greeting. -/
def helloFrame (r : FloatRepr) (time : ℚ) : PyStr :=
  eventText (py "hello") (dumps true r (.obj [(py "ts", .float (.fin time))]))

/-- What keeps the connection open. -/
def heartbeat : PyStr :=
  py ": heartbeat\n\n"

/-- The octets of what was yielded, each text encoded by itself. -/
def wire : List PyStr → Option PyBytes
  | [] => some []
  | text :: texts => (utf8Encode text).bind fun a ↦ (wire texts).map (a ++ ·)

/-- What a page is told. -/
def Connection.page (c : Connection) : Option (List EventSource.Event) :=
  (wire c.sent).map fun b ↦ EventSource.events (utf8Decode b)

/-- The queue is in `_subscribers`. -/
def Connection.holds (c : Connection) : Bool :=
  c.phase ≠ .ended

/-- `generate`, up to its first `yield`. -/
def greet (r : FloatRepr) (bus : EventBus) (c : Connection) : Wakeup → EventBus × Connection
  | .start time => (bus, { c with phase := .running, sent := c.sent ++ [helloFrame r time] })
  | .cancel => (bus, { c with phase := .dropped })
  | .disconnected | .timeout | .message => (bus, c)

/-- `generate`, from one `yield` of its loop to the next. -/
def forward (r : FloatRepr) (bus : EventBus) (c : Connection) : Wakeup → EventBus × Connection
  | .start _ => (bus, c)
  | .disconnected | .cancel => (bus.unsubscribe c.queue, { c with phase := .ended })
  | .timeout => (bus, { c with sent := c.sent ++ [heartbeat] })
  | .message =>
    match bus.queues[c.queue]?.bind fun sub ↦ sub.items.head? with
    | none => (bus, c)
    | some d =>
      (bus.consume c.queue, { c with sent := c.sent ++ [eventText d.msg.type (dumps true r (.obj d.msg.data))] })

/-- A generator goes on. -/
def resume (r : FloatRepr) (bus : EventBus) (c : Connection) (w : Wakeup) : EventBus × Connection :=
  match c.phase with
  | .created => greet r bus c w
  | .running => forward r bus c w
  | .ended | .dropped => (bus, c)

namespace EventServer

/-- The server at the start. -/
def initial : EventServer where
  bus := .initial
  connections := []

/-- A generator goes on. -/
def generator (r : FloatRepr) (s : EventServer) (i : ℕ) (w : Wakeup) : EventServer :=
  match s.connections[i]? with
  | none => s
  | some c =>
    { bus := (resume r s.bus c w).1
      connections := s.connections.set i (resume r s.bus c w).2 }

/-- `_event_tick_loop`, from one `sleep` to the next. -/
def tick (s : EventServer) (version : ℤ) (inflight : PyDict) (time : ℚ) : EventServer :=
  if s.bus.subscriberCount = 0 then s
  else
    let data : PyDict := [(py "version", .int version), (py "inflight", .obj inflight)]
    { s with bus := s.bus.publish (py "tick") (some data) time }

/-- The server after a step. -/
def next (r : FloatRepr) (s : EventServer) : ServerStep → EventServer
  | .connect =>
    { bus := s.bus.subscribe
      connections := s.connections ++ [⟨s.bus.queues.length, .created, []⟩] }
  | .generator i w => s.generator r i w
  | .publish eventType data time => { s with bus := s.bus.publish eventType data time }
  | .setLoop running => { s with bus := { s.bus with loopRunning := running } }
  | .turn => { s with bus := s.bus.turn }
  | .tick version inflight time => s.tick version inflight time

end EventServer

/-! ### What is yielded -/

/-- A line that can be encoded. -/
def LineText (l : PyStr) : Prop :=
  l ≠ [] ∧ ∀ c ∈ l, IsScalar c ∧ c ≠ 10 ∧ c ≠ 13

/-- A type that `event:` can carry. -/
abbrev PlainType (eventType : PyStr) : Prop :=
  LineText eventType

/-- The event a page gets for a message. -/
def busEvent (r : FloatRepr) (d : Delivery) : EventSource.Event :=
  ⟨d.msg.type, dumps true r (.obj d.msg.data)⟩

/-- The event a page gets for the greeting. -/
def helloEvent (r : FloatRepr) (time : ℚ) : EventSource.Event :=
  ⟨py "hello", dumps true r (.obj [(py "ts", .float (.fin time))])⟩

/-- The lines of a message. -/
def eventLines (eventType payload : PyStr) : List PyStr :=
  [py "event: " ++ eventType, py "data: " ++ payload]

theorem frame_eventLines (eventType payload : PyStr) :
    EventSource.frame (eventLines eventType payload) = eventText eventType payload := by
  have hlf : py "\ndata: " = [10] ++ py "data: " := by decide
  have hend : py "\n\n" = [10, 10] := by decide
  simp [EventSource.frame, eventLines, eventText, hlf, hend]

theorem frame_heartbeat : EventSource.frame [py ": heartbeat"] = heartbeat := by
  decide

theorem frameEvent_heartbeat : EventSource.frameEvent [py ": heartbeat"] = none := by
  decide

/-- The name and the value of a field. -/
theorem nameValue_field {name : PyStr} (hname : 58 ∉ name) (value : PyStr) :
    EventSource.nameValue (name ++ 58 :: 32 :: value) = (name, value) := by
  have hkeep : ∀ c ∈ name, decide (c ≠ 58) = true := fun c hc ↦ decide_eq_true fun h ↦ hname (h ▸ hc)
  have htake : (58 :: 32 :: value).takeWhile (fun c ↦ decide (c ≠ 58)) = [] := by simp
  have hdrop : (58 :: 32 :: value).dropWhile (fun c ↦ decide (c ≠ 58)) = 58 :: 32 :: value := by simp
  rw [EventSource.nameValue, List.takeWhile_append_of_pos hkeep, List.dropWhile_append_of_pos hkeep, htake, hdrop]
  simp

/-- **A message is read as it was published.** -/
theorem frameEvent_eventLines {eventType : PyStr} (h : eventType ≠ []) (payload : PyStr) :
    EventSource.frameEvent (eventLines eventType payload) = some ⟨eventType, payload⟩ := by
  have hevent : py "event: " = EventSource.eventField ++ [58, 32] := by decide
  have hdata : py "data: " = EventSource.dataField ++ [58, 32] := by decide
  have hnameEvent := nameValue_field (show 58 ∉ EventSource.eventField by decide)
  have hnameData := nameValue_field (show 58 ∉ EventSource.dataField by decide)
  have hne : EventSource.dataField ≠ EventSource.eventField := by decide
  simp only [EventSource.frameEvent, eventLines, hevent, hdata, List.append_assoc, List.cons_append, List.nil_append,
    List.foldl_cons, List.foldl_nil, EventSource.Block.line, hnameEvent, hnameData, if_true, if_neg hne,
    EventSource.Block.event?,
    List.cons_ne_nil, if_false, if_neg h]
  simp

theorem lineText_append {l m : PyStr} (hl : LineText l) (hm : ∀ c ∈ m, IsScalar c ∧ c ≠ 10 ∧ c ≠ 13) :
    LineText (l ++ m) :=
  ⟨List.append_ne_nil_of_left_ne_nil hl.1 m, fun c hc ↦ (List.mem_append.1 hc).elim (hl.2 c) (hm c)⟩

/-- What `json.dumps` writes goes into a line. -/
theorem lineText_dumps (r : FloatRepr) (x : Json) : ∀ c ∈ dumps true r x, IsScalar c ∧ c ≠ 10 ∧ c ≠ 13 := by
  intro c hc
  have hprintable := dumps_printable true r x c hc
  exact ⟨(forall_isScalar_dumps_iff true r x).2 (.inl rfl) c hc, by omega, by omega⟩

theorem lineText_eventLines {eventType : PyStr} (h : PlainType eventType) (r : FloatRepr) (x : Json) :
    ∀ l ∈ eventLines eventType (dumps true r x), LineText l := by
  have hevent : LineText (py "event: ") := ⟨by decide, by decide⟩
  have hdata : LineText (py "data: ") := ⟨by decide, by decide⟩
  simp only [eventLines, List.forall_mem_cons, List.not_mem_nil, false_imp_iff, implies_true, and_true]
  exact ⟨lineText_append hevent h.2, lineText_append hdata (lineText_dumps r x)⟩

/-- Texts that encode are encoded as one. -/
theorem wire_eq (texts : List PyStr) : wire texts = utf8Encode texts.flatten := by
  induction texts with
  | nil => rfl
  | cons text texts ih => rw [wire, ih, List.flatten_cons, utf8Encode_append]

/-- What was yielded is a greeting and frames that say the messages. -/
def Told (r : FloatRepr) (sent : List PyStr) (msgs : List Delivery) : Prop :=
  ∃ (time : ℚ) (frames : List (List PyStr)), sent = helloFrame r time :: frames.map EventSource.frame ∧
    (∀ lines ∈ frames, ∀ l ∈ lines, LineText l) ∧ frames.filterMap EventSource.frameEvent = msgs.map (busEvent r)

namespace Told

variable {r : FloatRepr} {sent : List PyStr} {msgs : List Delivery}

theorem hello (r : FloatRepr) (time : ℚ) : Told r [helloFrame r time] [] :=
  ⟨time, [], rfl, fun _ h ↦ absurd h List.not_mem_nil, rfl⟩

theorem heartbeat (h : Told r sent msgs) : Told r (sent ++ [heartbeat]) msgs := by
  obtain ⟨time, frames, rfl, hlines, hread⟩ := h
  refine ⟨time, frames ++ [[py ": heartbeat"]], ?_, ?_, ?_⟩
  · rw [List.map_append, List.cons_append, List.map_singleton, frame_heartbeat]
  · intro lines hmem
    rcases List.mem_append.1 hmem with hmem | hmem
    · exact hlines lines hmem
    · obtain rfl := List.mem_singleton.1 hmem
      intro l hl
      obtain rfl := List.mem_singleton.1 hl
      exact ⟨by decide, by decide⟩
  · rw [List.filterMap_append, hread, List.filterMap_cons, frameEvent_heartbeat]
    simp

theorem message (h : Told r sent msgs) {d : Delivery} (hd : PlainType d.msg.type) :
    Told r (sent ++ [eventText d.msg.type (dumps true r (.obj d.msg.data))]) (msgs ++ [d]) := by
  obtain ⟨time, frames, rfl, hlines, hread⟩ := h
  refine ⟨time, frames ++ [eventLines d.msg.type (dumps true r (.obj d.msg.data))], ?_, ?_, ?_⟩
  · rw [List.map_append, List.cons_append, List.map_singleton, frame_eventLines]
  · intro lines hmem
    rcases List.mem_append.1 hmem with hmem | hmem
    · exact hlines lines hmem
    · obtain rfl := List.mem_singleton.1 hmem
      exact lineText_eventLines hd r _
  · rw [List.filterMap_append, hread, List.filterMap_cons, frameEvent_eventLines hd.1, List.map_append]
    rfl

/-- **What was yielded is what a page is told.** -/
theorem page (h : Told r sent msgs) {c : Connection} (hc : c.sent = sent) :
    ∃ time, c.page = some (helloEvent r time :: msgs.map (busEvent r)) := by
  obtain ⟨time, frames, rfl, hlines, hread⟩ := h
  have hhello : PlainType (py "hello") := ⟨by decide, by decide⟩
  let all := eventLines (py "hello") (dumps true r (.obj [(py "ts", .float (.fin time))])) :: frames
  have hflat : c.sent.flatten = all.flatMap EventSource.frame := by
    rw [hc, List.flatten_cons, ← List.flatMap_def, List.flatMap_cons, frame_eventLines]
    rfl
  have hall : ∀ lines ∈ all, ∀ l ∈ lines, LineText l := by
    intro lines hmem
    rcases List.mem_cons.1 hmem with rfl | hmem
    · exact lineText_eventLines hhello r _
    · exact hlines lines hmem
  have hscalar : ∀ c ∈ all.flatMap EventSource.frame, IsScalar c := by
    intro c hmem
    obtain ⟨lines, hmem, hc⟩ := List.mem_flatMap.1 hmem
    rcases List.mem_append.1 hc with hc | hc
    · obtain ⟨l, hl, hc⟩ := List.mem_flatMap.1 hc
      rcases List.mem_append.1 hc with hc | hc
      · exact ((hall lines hmem l hl).2 c hc).1
      · obtain rfl := List.mem_singleton.1 hc
        decide
    · obtain rfl := List.mem_singleton.1 hc
      decide
  obtain ⟨b, hb⟩ := Option.isSome_iff_exists.1 (utf8Encode_isSome_iff.2 hscalar)
  have hmark : (all.flatMap EventSource.frame).head? ≠ some 0xFEFF := by
    have hevent : py "event: " = 101 :: py "vent: " := by decide
    rw [List.flatMap_cons, frame_eventLines, eventText, hevent]
    simp
  refine ⟨time, ?_⟩
  rw [Connection.page, wire_eq, hflat, hb, Option.map_some, utf8Decode_encode hb, EventSource.events_frames hmark
    fun lines hmem l hl ↦ ?_, List.filterMap_cons, frameEvent_eventLines hhello.1, hread]
  · rfl
  · obtain ⟨hne, hchars⟩ := hall lines hmem l hl
    exact ⟨hne, fun h ↦ (hchars 10 h).2.1 rfl, fun h ↦ (hchars 13 h).2.2 rfl⟩

end Told

/-! ### What steps keep -/

/-- What a connection has been told, by how far its generator is. -/
def Kept (r : FloatRepr) (log : List Delivery) (c : Connection) (sub : Subscription) : Prop :=
  sub.consumed.Sublist (log.drop sub.since) ∧
    match c.phase with
    | .created | .dropped => c.sent = [] ∧ sub.consumed = []
    | .running | .ended => Told r c.sent sub.consumed

/-- What steps keep of the server. -/
structure Served (r : FloatRepr) (s : EventServer) : Prop where
  sound : s.bus.Sound
  length : s.connections.length = s.bus.queues.length
  /-- Every connection has the queue that was made for it. -/
  kept : ∀ (i : ℕ) (c : Connection), s.connections[i]? = some c →
    c.queue = i ∧ (c.holds = true ↔ i ∈ s.bus.subscribers) ∧
      ∃ sub, s.bus.queues[i]? = some sub ∧ Kept r s.bus.log c sub
  plain : ∀ d ∈ s.bus.log, PlainType d.msg.type
  scheduled : ∀ msg ∈ s.bus.scheduled, PlainType msg.type

section Kept

variable {r : FloatRepr} {log : List Delivery} {c : Connection} {sub : Subscription}

theorem Kept.deliver (h : Kept r log c sub) (items : List Delivery) (d : Delivery) :
    Kept r (log ++ [d]) c { sub with items } :=
  ⟨h.1.trans ((List.sublist_append_left log [d]).drop sub.since), h.2⟩

theorem Kept.of_running (h : Kept r log c sub) (hc : c.phase = .running) : Told r c.sent sub.consumed := by
  have hphase := h.2
  rwa [hc] at hphase

end Kept

namespace EventBus

variable {s : EventBus}

theorem length_foldl_modify {α : Type} (f : α → α) (places : List ℕ) (xs : List α) :
    (places.foldl (fun xs i ↦ xs.modify i f) xs).length = xs.length := by
  induction places generalizing xs with
  | nil => rfl
  | cons i places ih => rw [List.foldl_cons, ih, List.length_modify]

/-- What a delivery does to a queue. -/
theorem queue_doPublish (h : s.Sound) (msg : BusMessage) (q : ℕ) : (s.doPublish msg).queues[q]? =
    if q ∈ s.subscribers then
      s.queues[q]?.map fun sub ↦ { sub with items := offer sub.items ⟨s.log.length, msg⟩ }
    else s.queues[q]? :=
  getElem?_foldl_modify (fun sub : Subscription ↦ { sub with items := offer sub.items ⟨s.log.length, msg⟩ }) h.nodup
    s.queues q

/-- What taking a message does. -/
theorem consume_eq {q : ℕ} {sub : Subscription} (hsub : s.queues[q]? = some sub) {d : Delivery} {items : List Delivery}
    (hitems : sub.items = d :: items) : s.consume q =
      { s with queues := s.queues.set q { sub with items, consumed := sub.consumed ++ [d] } } := by
  simp only [consume, hsub, hitems, getNowait]

end EventBus

namespace Served

variable {r : FloatRepr} {s : EventServer}

theorem initial (r : FloatRepr) : Served r .initial where
  sound := EventBus.sound_initial
  length := rfl
  kept i c hc := by simp [EventServer.initial] at hc
  plain d hd := absurd hd List.not_mem_nil
  scheduled msg hmsg := absurd hmsg List.not_mem_nil

/-- A message is delivered. -/
theorem deliver (h : Served r s) {msg : BusMessage} (hmsg : PlainType msg.type) :
    Served r { s with bus := s.bus.doPublish msg } where
  sound := h.sound.doPublish msg
  length := h.length.trans (EventBus.length_foldl_modify _ _ _).symm
  kept i c hc := by
    obtain ⟨hqueue, hholds, sub, hsub, hkept⟩ := h.kept i c hc
    refine ⟨hqueue, hholds, ?_⟩
    have hget := EventBus.queue_doPublish h.sound msg i
    rw [hsub] at hget
    split_ifs at hget
    · exact ⟨_, hget, hkept.deliver _ _⟩
    · exact ⟨_, hget, hkept.deliver sub.items _⟩
  plain d hd := by
    rcases List.mem_append.1 hd with hd | hd
    · exact h.plain d hd
    · obtain rfl := List.mem_singleton.1 hd
      exact hmsg
  scheduled := h.scheduled

theorem publish (h : Served r s) {eventType : PyStr} (htype : PlainType eventType) (data : Option PyDict) (time : ℚ) :
    Served r { s with bus := s.bus.publish eventType data time } := by
  unfold EventBus.publish
  dsimp only
  split_ifs
  · refine ⟨⟨h.sound.numbered, h.sound.nodup, h.sound.marked⟩, h.length, h.kept, h.plain, fun msg hmsg ↦ ?_⟩
    rcases List.mem_append.1 hmsg with hmsg | hmsg
    · exact h.scheduled msg hmsg
    · obtain rfl := List.mem_singleton.1 hmsg
      exact htype
  · exact h.deliver htype

theorem turn (h : Served r s) : Served r { s with bus := s.bus.turn } := by
  unfold EventBus.turn
  split
  · exact h
  · next msg scheduled hscheduled =>
    have hpopped : Served r { s with bus := { s.bus with scheduled } } :=
      ⟨⟨h.sound.numbered, h.sound.nodup, h.sound.marked⟩, h.length, h.kept, h.plain,
        fun m hm ↦ h.scheduled m (by rw [hscheduled]; exact List.mem_cons_of_mem msg hm)⟩
    exact hpopped.deliver (h.scheduled msg (by rw [hscheduled]; exact List.mem_cons_self))

theorem tick (h : Served r s) (version : ℤ) (inflight : PyDict) (time : ℚ) :
    Served r (s.tick version inflight time) := by
  unfold EventServer.tick
  split_ifs
  · exact h
  · exact h.publish ⟨by decide, by decide⟩ _ time

theorem connect (h : Served r s) : Served r (EventServer.next r s .connect) where
  sound := h.sound.subscribe
  length := by
    show (s.connections ++ _).length = (s.bus.queues ++ _).length
    rw [List.length_append, List.length_append, h.length]
    rfl
  kept i c hc := by
    have hc : (s.connections ++ [(⟨s.bus.queues.length, .created, []⟩ : Connection)])[i]? = some c := hc
    rcases Nat.lt_or_ge i s.connections.length with hi | hi
    · rw [List.getElem?_append_left hi] at hc
      obtain ⟨hqueue, hholds, sub, hsub, hkept⟩ := h.kept i c hc
      have hne : i ≠ s.bus.queues.length := (h.length ▸ hi).ne
      refine ⟨hqueue, hholds.trans ?_, sub, ?_, hkept⟩
      · show _ ↔ i ∈ s.bus.subscribers ++ [s.bus.queues.length]
        simp [hne]
      · exact (List.getElem?_append_left (h.length ▸ hi)).trans hsub
    · rw [List.getElem?_append_right hi] at hc
      obtain ⟨hlt, rfl⟩ := List.getElem?_eq_some_iff.1 hc
      obtain rfl : i = s.bus.queues.length := by
        rw [← h.length]
        simp only [List.length_singleton] at hlt
        omega
      rw [List.getElem_singleton]
      refine ⟨rfl, iff_of_true rfl ?_, _, List.getElem?_concat_length, ?_⟩
      · exact List.mem_append_right _ List.mem_cons_self
      · exact ⟨List.nil_sublist _, rfl, rfl⟩
  plain := h.plain
  scheduled := h.scheduled

/-- A generator goes on, and the bus changes in its queue at most. -/
theorem replace (h : Served r s) {i : ℕ} {c c' : Connection} {bus : EventBus} (hc : s.connections[i]? = some c)
    (hsound : bus.Sound) (hlength : bus.queues.length = s.bus.queues.length)
    (hothers : ∀ j ≠ i, bus.queues[j]? = s.bus.queues[j]? ∧ (j ∈ bus.subscribers ↔ j ∈ s.bus.subscribers))
    (hlog : bus.log = s.bus.log) (hscheduled : bus.scheduled = s.bus.scheduled) (hqueue : c'.queue = i)
    (hholds : c'.holds = true ↔ i ∈ bus.subscribers)
    (hkept : ∃ sub, bus.queues[i]? = some sub ∧ Kept r s.bus.log c' sub) :
    Served r { bus, connections := s.connections.set i c' } where
  sound := hsound
  length := List.length_set.trans (h.length.trans hlength.symm)
  kept j d hd := by
    have hd : (s.connections.set i c')[j]? = some d := hd
    by_cases hj : i = j
    · subst hj
      rw [List.getElem?_set_self (List.getElem?_eq_some_iff.1 hc).1] at hd
      obtain rfl := Option.some.inj hd
      rw [hlog]
      exact ⟨hqueue, hholds, hkept⟩
    · rw [List.getElem?_set_ne hj] at hd
      obtain ⟨hqueue', hholds', sub, hsub, hkept'⟩ := h.kept j d hd
      obtain ⟨hsame, hmem⟩ := hothers j (Ne.symm hj)
      rw [hlog, hmem, hsame]
      exact ⟨hqueue', hholds', sub, hsub, hkept'⟩
  plain := hlog.symm ▸ h.plain
  scheduled := hscheduled.symm ▸ h.scheduled

/-- The bus does not change. -/
theorem replace_self (h : Served r s) {i : ℕ} {c c' : Connection} (hc : s.connections[i]? = some c)
    (hqueue : c'.queue = i) (hholds : c'.holds = true ↔ i ∈ s.bus.subscribers)
    (hkept : ∃ sub, s.bus.queues[i]? = some sub ∧ Kept r s.bus.log c' sub) :
    Served r { s with connections := s.connections.set i c' } :=
  h.replace hc h.sound rfl (fun _ _ ↦ ⟨rfl, Iff.rfl⟩) rfl rfl hqueue hholds hkept

/-- The generator runs its `finally`. -/
theorem leave (h : Served r s) {i : ℕ} {c : Connection} (hc : s.connections[i]? = some c)
    (hrunning : c.phase = .running) :
    Served r { bus := s.bus.unsubscribe c.queue, connections := s.connections.set i { c with phase := .ended } } := by
  obtain ⟨rfl, -, sub, hsub, hkept⟩ := h.kept i c hc
  refine h.replace hc (h.sound.unsubscribe c.queue) rfl (fun j hj ↦ ⟨rfl, ?_⟩) rfl rfl rfl
    (iff_of_false (by simp [Connection.holds]) fun hmem ↦ ?_) ⟨sub, hsub, hkept.1, hkept.of_running hrunning⟩
  · simp [EventBus.unsubscribe, hj]
  · simpa using List.of_mem_filter hmem

/-- The generator yields a message of its queue. -/
theorem take (h : Served r s) {i : ℕ} {c : Connection} (hc : s.connections[i]? = some c) (hrunning : c.phase = .running)
    {sub : Subscription} (hsub : s.bus.queues[c.queue]? = some sub) {d : Delivery} {items : List Delivery}
    (hitems : sub.items = d :: items) :
    let sent := c.sent ++ [eventText d.msg.type (dumps true r (.obj d.msg.data))]
    Served r { bus := s.bus.consume c.queue, connections := s.connections.set i { c with sent } } := by
  obtain ⟨rfl, hholds, sub', hsub', hkept⟩ := h.kept i c hc
  obtain rfl : sub = sub' := Option.some.inj (hsub.symm.trans hsub')
  have hmem : c.queue ∈ s.bus.subscribers := hholds.1 (by simp [Connection.holds, hrunning])
  have hlt := (List.getElem?_eq_some_iff.1 hsub).1
  have hget : (s.bus.consume c.queue).queues[c.queue]? = some { sub with items, consumed := sub.consumed ++ [d] } := by
    rw [EventBus.consume_eq hsub hitems]
    exact List.getElem?_set_self hlt
  -- what was taken before and what waits stand in the log in that order
  have horder : (sub.consumed ++ [d]).Sublist (s.bus.log.drop sub.since) := by
    obtain ⟨sub', hsub'', hmarked⟩ := h.sound.marked c.queue hmem
    obtain rfl : sub = sub' := Option.some.inj (hsub.symm.trans hsub'')
    have hall := (hmarked.holdsLatest h.sound.numbered).order
    rw [hitems] at hall
    exact (List.Sublist.append_left (List.cons_sublist_cons.2 (List.nil_sublist items)) _).trans hall
  have hplain : PlainType d.msg.type := by
    refine h.plain d (List.mem_of_mem_drop (horder.subset ?_))
    exact List.mem_append_right _ List.mem_cons_self
  have hkept' : Kept r s.bus.log
      { c with sent := c.sent ++ [eventText d.msg.type (dumps true r (.obj d.msg.data))] }
      { sub with items, consumed := sub.consumed ++ [d] } := by
    refine ⟨horder, ?_⟩
    simp only [hrunning]
    exact (hkept.of_running hrunning).message hplain
  refine h.replace hc (h.sound.consume c.queue) ?_ (fun j hj ↦ ?_) ?_ ?_ rfl ?_ ⟨_, hget, hkept'⟩
  · rw [EventBus.consume_eq hsub hitems]
    exact List.length_set
  · rw [EventBus.consume_eq hsub hitems]
    exact ⟨List.getElem?_set_ne (Ne.symm hj), Iff.rfl⟩
  all_goals rw [EventBus.consume_eq hsub hitems]
  exact hholds

theorem generator (h : Served r s) (i : ℕ) (w : Wakeup) : Served r (s.generator r i w) := by
  unfold EventServer.generator
  split
  · exact h
  · next c hc =>
    obtain ⟨hqueue, hholds, sub, hsub, hkept⟩ := h.kept i c hc
    have hsame : Served r { s with connections := s.connections.set i c } :=
      h.replace_self hc hqueue hholds ⟨sub, hsub, hkept⟩
    unfold resume
    split
    · -- not started
      next hphase =>
      have hnothing : c.sent = [] ∧ sub.consumed = [] := by
        have hcreated := hkept.2
        rwa [hphase] at hcreated
      have hmem : i ∈ s.bus.subscribers := hholds.1 (by simp [Connection.holds, hphase])
      cases w with
      | start time =>
        have htold : Told r (c.sent ++ [helloFrame r time]) sub.consumed := by
          rw [hnothing.1, hnothing.2]
          exact .hello r time
        exact h.replace_self hc hqueue (iff_of_true rfl hmem) ⟨sub, hsub, hkept.1, htold⟩
      | cancel => exact h.replace_self hc hqueue (iff_of_true rfl hmem) ⟨sub, hsub, hkept.1, hnothing⟩
      | disconnected | timeout | message => exact hsame
    · next hphase =>
      cases w with
      | start time => exact hsame
      | disconnected | cancel => exact h.leave hc hphase
      | timeout =>
        simp only [forward]
        refine h.replace_self hc hqueue hholds ⟨sub, hsub, hkept.1, ?_⟩
        simp only [hphase]
        exact (hkept.of_running hphase).heartbeat
      | message =>
        rw [← hqueue] at hsub
        rcases hitems : sub.items with - | ⟨d, items⟩
        · simp only [forward, hsub, Option.bind_some, hitems, List.head?_nil]
          exact hsame
        · simp only [forward, hsub, Option.bind_some, hitems, List.head?_cons]
          exact h.take hc hphase hsub hitems
    · exact hsame
    · exact hsame

/-- What the types of the messages are. -/
def PlainStep : ServerStep → Prop
  | .publish eventType _ _ => PlainType eventType
  | _ => True

theorem next (h : Served r s) {step : ServerStep} (hstep : PlainStep step) : Served r (s.next r step) := by
  cases step with
  | connect => exact h.connect
  | generator i w => exact h.generator i w
  | publish eventType data time => exact h.publish hstep data time
  | setLoop running => exact ⟨⟨h.sound.numbered, h.sound.nodup, h.sound.marked⟩, h.length, h.kept, h.plain, h.scheduled⟩
  | turn => exact h.turn
  | tick version inflight time => exact h.tick version inflight time

end Served

/-! ### Nothing is lost while the queues have room -/

/-- No subscriber's queue is full. -/
def EventBus.HasRoom (s : EventBus) : Prop :=
  ∀ q ∈ s.subscribers, ∀ sub, s.queues[q]? = some sub → sub.items.length < queueSize

/-- Every subscriber took, or still has, all that was delivered since it came. -/
def EventBus.Whole (s : EventBus) : Prop :=
  ∀ q ∈ s.subscribers, ∀ sub, s.queues[q]? = some sub → sub.consumed ++ sub.items = s.log.drop sub.since

namespace EventBus.Whole

variable {s : EventBus}

theorem subscribe (h : s.Whole) (hsound : s.Sound) : s.subscribe.Whole := by
  intro q hq sub hsub
  have hsub : (s.queues ++ [⟨[], s.log.length, []⟩])[q]? = some sub := hsub
  rcases List.mem_append.1 hq with hq | hq
  · obtain ⟨sub', hsub', -⟩ := hsound.marked q hq
    rw [List.getElem?_append_left (List.getElem?_eq_some_iff.1 hsub').1] at hsub
    exact h q hq sub hsub
  · obtain rfl := List.mem_singleton.1 hq
    rw [List.getElem?_concat_length] at hsub
    obtain rfl := Option.some.inj hsub
    exact (List.drop_length (l := s.log)).symm

theorem unsubscribe (h : s.Whole) (q : ℕ) : (s.unsubscribe q).Whole :=
  fun p hp sub hsub ↦ h p (List.mem_of_mem_filter hp) sub hsub

theorem doPublish (h : s.Whole) (hsound : s.Sound) (hroom : s.HasRoom) (msg : BusMessage) :
    (s.doPublish msg).Whole := by
  intro q hq sub hsub
  have hq : q ∈ s.subscribers := hq
  obtain ⟨sub', hsub', hmarked⟩ := hsound.marked q hq
  rw [queue_doPublish hsound msg q, if_pos hq, hsub', Option.map_some] at hsub
  obtain rfl := Option.some.inj hsub
  have hoffer : offer sub'.items ⟨s.log.length, msg⟩ = sub'.items ++ [⟨s.log.length, msg⟩] := by
    simp [offer, putNowait, hroom q hq sub' hsub']
  have hsince : sub'.since ≤ s.log.length := hmarked.since_le.trans hmarked.mark_le
  show sub'.consumed ++ offer sub'.items _ = (s.log ++ [_]).drop sub'.since
  rw [hoffer, ← List.append_assoc, h q hq sub' hsub', List.drop_append_of_le_length hsince]

theorem publish (h : s.Whole) (hsound : s.Sound) (hroom : s.HasRoom) (eventType : PyStr) (data : Option PyDict)
    (time : ℚ) : (s.publish eventType data time).Whole := by
  unfold EventBus.publish
  dsimp only
  split_ifs
  · exact h
  · exact h.doPublish hsound hroom _

theorem turn (h : s.Whole) (hsound : s.Sound) (hroom : s.HasRoom) : s.turn.Whole := by
  unfold EventBus.turn
  split
  · exact h
  · next msg scheduled _ =>
    have hpopped : Whole { s with scheduled } := h
    exact hpopped.doPublish ⟨hsound.numbered, hsound.nodup, hsound.marked⟩ hroom msg

theorem consume (h : s.Whole) (q : ℕ) : (s.consume q).Whole := by
  rcases hsub : s.queues[q]? with - | sub
  · simpa only [EventBus.consume, hsub] using h
  · rcases hitems : sub.items with - | ⟨d, items⟩
    · simpa only [EventBus.consume, hsub, hitems, getNowait] using h
    · rw [consume_eq hsub hitems]
      intro p hp sub' hsub'
      have hsub' : (s.queues.set q _)[p]? = some sub' := hsub'
      by_cases hpq : q = p
      · subst hpq
        rw [List.getElem?_set_self (List.getElem?_eq_some_iff.1 hsub).1] at hsub'
        obtain rfl := Option.some.inj hsub'
        have hall := h q hp sub hsub
        rw [hitems] at hall
        show (sub.consumed ++ [d]) ++ items = _
        rw [← hall, List.append_assoc]
        rfl
      · rw [List.getElem?_set_ne hpq] at hsub'
        exact h p hp sub' hsub'

end EventBus.Whole

/-- What a generator does to the bus. -/
theorem bus_resume_cases (r : FloatRepr) (bus : EventBus) (c : Connection) (w : Wakeup) :
    (resume r bus c w).1 = bus ∨ (resume r bus c w).1 = bus.unsubscribe c.queue ∨
      (resume r bus c w).1 = bus.consume c.queue := by
  unfold resume
  split
  · cases w <;> exact .inl rfl
  · cases w with
    | message =>
      unfold forward
      dsimp only
      split
      · exact .inl rfl
      · exact .inr (.inr rfl)
    | disconnected | cancel => exact .inr (.inl rfl)
    | start _ | timeout => exact .inl rfl
  · exact .inl rfl
  · exact .inl rfl

theorem whole_next {r : FloatRepr} {s : EventServer} (h : s.bus.Whole) (hsound : s.bus.Sound) (hroom : s.bus.HasRoom)
    (step : ServerStep) : (s.next r step).bus.Whole := by
  cases step with
  | connect => exact h.subscribe hsound
  | generator i w =>
    show (s.generator r i w).bus.Whole
    unfold EventServer.generator
    split
    · exact h
    · next c _ =>
      show (resume r s.bus c w).1.Whole
      rcases bus_resume_cases r s.bus c w with heq | heq | heq <;> rw [heq]
      · exact h
      · exact h.unsubscribe c.queue
      · exact h.consume c.queue
  | publish eventType data time => exact h.publish hsound hroom eventType data time
  | setLoop running => exact h
  | turn => exact h.turn hsound hroom
  | tick version inflight time =>
    show (s.tick version inflight time).bus.Whole
    unfold EventServer.tick
    split_ifs
    · exact h
    · exact h.publish hsound hroom _ _ time

namespace EventServer

variable {r : FloatRepr} {steps : List ServerStep}

theorem served_exec (h : ∀ step ∈ steps, Served.PlainStep step) : Served r (Runs.exec (next r) initial steps) := by
  refine Runs.exec_invariant (fun _ ↦ Served r) (P := fun _ _ step ↦ Served.PlainStep step) (.initial r)
    (fun _ _ _ hs hstep ↦ hs.next hstep) fun past i future heq ↦ h i ?_
  rw [heq]
  exact List.mem_append_right _ List.mem_cons_self

theorem whole_exec (h : ∀ step ∈ steps, Served.PlainStep step)
    (hroom : Runs.Every (next r) (fun _ s _ ↦ s.bus.HasRoom) initial steps) :
    (Runs.exec (next r) initial steps).bus.Whole := by
  have hboth : Runs.Every (next r) (fun _ s step ↦ Served.PlainStep step ∧ s.bus.HasRoom) initial steps := by
    refine fun past i future heq ↦ ⟨h i ?_, hroom past i future heq⟩
    rw [heq]
    exact List.mem_append_right _ List.mem_cons_self
  refine (Runs.exec_invariant (fun _ s ↦ Served r s ∧ s.bus.Whole) ⟨.initial r, ?_⟩ ?_ hboth).2
  · exact fun q hq ↦ absurd hq List.not_mem_nil
  · exact fun _ s step hs hstep ↦ ⟨hs.1.next hstep.1, whole_next hs.2 hs.1.sound hstep.2 step⟩

/-- **The event stream.** Whatever the server does, a page is told the greeting and then exactly the messages that its
generator took, each with the type and the payload it was published with, in the order of their delivery and none of
them twice: heartbeats do not show, and neither do other connections. If no queue was full when a message came, those
that were taken and those that wait are all that were delivered since the connection was made. The queues that messages
go to are those of the connections that have not ended; one that was given up before its first step keeps its own. -/
theorem eventStream_exec (r : FloatRepr) (steps : List ServerStep) (h : ∀ step ∈ steps, Served.PlainStep step) :
    let s := Runs.exec (next r) initial steps
    (∀ i, i ∈ s.bus.subscribers ↔ ∃ c, s.connections[i]? = some c ∧ c.phase ≠ .ended) ∧
      ∀ (i : ℕ) (c : Connection), s.connections[i]? = some c → ∃ sub, s.bus.queues[i]? = some sub ∧
        (c.phase = .created ∨ c.phase = .dropped → c.page = some []) ∧
        (c.phase = .running ∨ c.phase = .ended →
          ∃ time, c.page = some (helloEvent r time :: sub.consumed.map (busEvent r))) ∧
        sub.consumed.Sublist (s.bus.log.drop sub.since) ∧
        (c.phase ≠ .ended → Runs.Every (next r) (fun _ s _ ↦ s.bus.HasRoom) initial steps →
          sub.consumed ++ sub.items = s.bus.log.drop sub.since) := by
  intro s
  have hserved : Served r s := served_exec h
  have hholds : ∀ c : Connection, c.holds = true ↔ c.phase ≠ .ended := fun c ↦ decide_eq_true_iff
  refine ⟨fun i ↦ ⟨fun hi ↦ ?_, ?_⟩, fun i c hc ↦ ?_⟩
  · obtain ⟨sub, hsub, -⟩ := hserved.sound.marked i hi
    have hlt : i < s.connections.length := by
      rw [hserved.length]
      exact (List.getElem?_eq_some_iff.1 hsub).1
    obtain ⟨-, hmem, -⟩ := hserved.kept i _ (List.getElem?_eq_getElem hlt)
    exact ⟨_, List.getElem?_eq_getElem hlt, (hholds _).1 (hmem.2 hi)⟩
  · rintro ⟨c, hc, hphase⟩
    exact (hserved.kept i c hc).2.1.1 ((hholds c).2 hphase)
  · obtain ⟨-, hmem, sub, hsub, horder, hkept⟩ := hserved.kept i c hc
    refine ⟨sub, hsub, fun hphase ↦ ?_, fun hphase ↦ ?_, horder, fun hphase hroom ↦ ?_⟩
    · have hsent : c.sent = [] := by rcases hphase with hphase | hphase <;> rw [hphase] at hkept <;> exact hkept.1
      rw [Connection.page, hsent]
      rfl
    · have htold : Told r c.sent sub.consumed := by
        rcases hphase with hphase | hphase <;> rw [hphase] at hkept <;> exact hkept
      exact htold.page rfl
    · exact whole_exec h hroom i (hmem.1 ((hholds c).2 hphase)) sub hsub

/-- A page that comes, waits, and gets one message. -/
theorem eventStream_exec_sample :
    let steps : List ServerStep := [.connect, .generator 0 (.start 1), .generator 0 .timeout,
      .publish (py "circuit") none 2, .generator 0 .message]
    let s := Runs.exec (next .ofFraction) initial steps
    ∃ c sub, s.connections[0]? = some c ∧ s.bus.queues[0]? = some sub ∧ sub.consumed.length = 1 ∧
      ∃ time, c.page = some (helloEvent .ofFraction time :: sub.consumed.map (busEvent .ofFraction)) := by
  intro steps s
  have hplain : ∀ step ∈ steps, Served.PlainStep step := by
    intro step hstep
    simp only [steps, List.mem_cons, List.not_mem_nil, or_false] at hstep
    rcases hstep with rfl | rfl | rfl | rfl | rfl
    · trivial
    · trivial
    · trivial
    · exact ⟨by decide, by decide⟩
    · trivial
  obtain ⟨c, hc, hphase⟩ : ∃ c, s.connections[0]? = some c ∧ c.phase = .running := ⟨_, rfl, rfl⟩
  obtain ⟨sub, hsub, -, htold, -⟩ := (eventStream_exec .ofFraction steps hplain).2 0 c hc
  have hone : ∀ sub, s.bus.queues[0]? = some sub → sub.consumed.length = 1 := by
    intro sub hsub
    obtain rfl : _ = sub := Option.some.inj hsub
    rfl
  exact ⟨c, sub, hc, hsub, hone sub hsub, htold (.inl hphase)⟩

end EventServer

end LocalGateway
