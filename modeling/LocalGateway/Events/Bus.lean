import LocalGateway.Foundations.Latest
import LocalGateway.Foundations.Runs
import LocalGateway.Python.Json

/-!
# The event bus

`events.py`: every subscriber has a bounded queue, and a message is put into each of them. A full queue drops its
oldest message first. Messages are delivered at once, or by the event loop if one is running.

* `EventBus.queues_exec`: in every state that a run reaches, the queue of a subscriber holds the latest of the messages
  that were delivered since it subscribed and that are newer than the last one it consumed.
* `EventBus.exec_filter_alike`: what one subscriber finds in its queue does not depend on what the others consume.
-/

namespace LocalGateway

open Py Json

/-- A message of `publish`. -/
structure BusMessage where
  type : PyStr
  data : PyDict
  ts : ℚ
deriving DecidableEq

/-- A message that `_do_publish` delivers, with the number of those before it. -/
structure Delivery where
  serial : ℕ
  msg : BusMessage
deriving DecidableEq

/-- The queue of a subscriber, with what its consumer got so far. -/
structure Subscription where
  items : List Delivery
  /-- The number of messages that were delivered before it was made. -/
  since : ℕ
  consumed : List Delivery
deriving DecidableEq

/-- The module's state. -/
structure EventBus where
  /-- All queues that `subscribe` has made, in that order. -/
  queues : List Subscription
  /-- `_subscribers`: the places of the queues in it. -/
  subscribers : List ℕ
  /-- `_loop` is registered and running. -/
  loopRunning : Bool
  /-- The calls that wait for the loop. -/
  scheduled : List BusMessage
  /-- Everything that was delivered. -/
  log : List Delivery

/-- The `maxsize` of a queue. -/
def queueSize : ℕ :=
  256

/-- `Queue.put_nowait`; `none` is `QueueFull`. -/
def putNowait (items : List Delivery) (d : Delivery) : Option (List Delivery) :=
  if items.length < queueSize then some (items ++ [d]) else none

/-- `Queue.get_nowait`; `none` is `QueueEmpty`. -/
def getNowait : List Delivery → Option (Delivery × List Delivery)
  | [] => none
  | d :: rest => some (d, rest)

/-- The body of the loop of `_do_publish`. -/
def offer (items : List Delivery) (d : Delivery) : List Delivery :=
  match putNowait items d with
  | some items => items
  | none =>
    match getNowait items with
    | none => items
    | some (_, rest) => (putNowait rest d).getD rest

/-- A step of the module or of a consumer. -/
inductive BusStep where
  | subscribe
  | unsubscribe (q : ℕ)
  /-- `set_loop`, or the loop starts or ends. -/
  | setLoop (running : Bool)
  | publish (eventType : PyStr) (data : Option PyDict) (time : ℚ)
  /-- The loop makes the first call that waits. -/
  | turn
  /-- The consumer of a queue takes a message, if there is one. -/
  | consume (q : ℕ)
deriving DecidableEq

namespace EventBus

variable (s : EventBus)

/-- The state at the start. -/
def initial : EventBus where
  queues := []
  subscribers := []
  loopRunning := false
  scheduled := []
  log := []

/-- `subscribe`. -/
def subscribe : EventBus :=
  { s with
    queues := s.queues ++ [⟨[], s.log.length, []⟩]
    subscribers := s.subscribers ++ [s.queues.length] }

/-- `unsubscribe`. -/
def unsubscribe (q : ℕ) : EventBus :=
  { s with subscribers := s.subscribers.filter (· ≠ q) }

/-- `_do_publish`. -/
def doPublish (msg : BusMessage) : EventBus :=
  let d : Delivery := ⟨s.log.length, msg⟩
  { s with
    queues := s.subscribers.foldl (fun queues q ↦ queues.modify q fun sub ↦
      { sub with items := offer sub.items d }) s.queues
    log := s.log ++ [d] }

/-- `publish`. -/
def publish (eventType : PyStr) (data : Option PyDict) (time : ℚ) : EventBus :=
  let msg : BusMessage := ⟨eventType, data.getD [], time⟩
  if s.loopRunning then { s with scheduled := s.scheduled ++ [msg] } else s.doPublish msg

/-- The loop makes the first call that waits. -/
def turn : EventBus :=
  match s.scheduled with
  | [] => s
  | msg :: scheduled => doPublish { s with scheduled } msg

/-- A consumer takes the first message of its queue. One that finds none waits. -/
def consume (q : ℕ) : EventBus :=
  match s.queues[q]? with
  | none => s
  | some sub =>
    match getNowait sub.items with
    | none => s
    | some (d, items) =>
      { s with queues := s.queues.set q { sub with items, consumed := sub.consumed ++ [d] } }

/-- The state after a step. -/
def next (s : EventBus) : BusStep → EventBus
  | .subscribe => s.subscribe
  | .unsubscribe q => s.unsubscribe q
  | .setLoop running => { s with loopRunning := running }
  | .publish eventType data time => s.publish eventType data time
  | .turn => s.turn
  | .consume q => s.consume q

/-- The messages that were delivered since a subscriber came and that are newer than the last one it consumed. -/
def newer (sub : Subscription) : List Delivery :=
  s.log.filter fun d ↦ sub.since ≤ d.serial && sub.consumed.getLast?.all fun c ↦ c.serial < d.serial

/-- What a queue is for. -/
structure HoldsLatest (sub : Subscription) : Prop where
  latest : sub.items = (s.newer sub).rtake queueSize
  /-- Nothing comes twice or out of order. -/
  order : (sub.consumed ++ sub.items).Sublist (s.log.drop sub.since)

/-! ### Queues -/

theorem offer_eq_push {items : List Delivery} (h : items.length ≤ queueSize) (d : Delivery) :
    offer items d = Latest.push queueSize items d := by
  unfold offer putNowait Latest.push
  rcases items with - | ⟨first, rest⟩
  · rfl
  · have hrest : rest.length < queueSize := Nat.lt_of_succ_le h
    split_ifs with hroom
    · rfl
    · -- the first message makes room
      simp [getNowait, hrest]

/-- What a loop over distinct places changes. -/
theorem getElem?_foldl_modify {α : Type} (f : α → α) {places : List ℕ} (h : places.Nodup) (xs : List α) (q : ℕ) :
    (places.foldl (fun xs i ↦ xs.modify i f) xs)[q]? = if q ∈ places then xs[q]?.map f else xs[q]? := by
  induction places generalizing xs with
  | nil => simp
  | cons i places ih =>
    obtain ⟨hi, hplaces⟩ := List.nodup_cons.1 h
    rw [List.foldl_cons, ih hplaces, List.getElem?_modify]
    by_cases hq : q = i
    · subst hq
      simp [hi]
    · simp [hq, Ne.symm hq]

/-! ### What a queue holds -/

/-- The number of messages that are not newer than the last one consumed. -/
def mark (sub : Subscription) : ℕ :=
  sub.consumed.getLast?.elim sub.since fun c ↦ c.serial + 1

/-- The log numbers its messages. -/
def Numbered (log : List Delivery) : Prop :=
  ∀ (i : ℕ) (d : Delivery), log[i]? = some d → d.serial = i

/-- What steps keep of a subscriber. -/
structure Marked (log : List Delivery) (sub : Subscription) : Prop where
  since_le : sub.since ≤ mark sub
  mark_le : mark sub ≤ log.length
  items : sub.items = (log.drop (mark sub)).rtake queueSize
  consumed : sub.consumed.Sublist ((log.take (mark sub)).drop sub.since)

/-- What steps keep. -/
structure Sound (s : EventBus) : Prop where
  numbered : Numbered s.log
  nodup : s.subscribers.Nodup
  marked : ∀ q ∈ s.subscribers, ∃ sub, s.queues[q]? = some sub ∧ Marked s.log sub

section Sound

variable {s} {log : List Delivery} {sub : Subscription} {d : Delivery}

theorem Numbered.concat (h : Numbered log) (msg : BusMessage) : Numbered (log ++ [⟨log.length, msg⟩]) := by
  intro i d hd
  rw [List.getElem?_append] at hd
  split_ifs at hd with hi
  · exact h i d hd
  · obtain ⟨hlt, rfl⟩ := List.getElem?_eq_some_iff.1 hd
    simp only [List.length_singleton] at hlt
    simp only [List.getElem_singleton]
    omega

/-- The messages from a number on are those that come that late. -/
theorem Numbered.filter_le (h : Numbered log) (n : ℕ) :
    log.filter (fun d ↦ n ≤ d.serial) = log.drop n := by
  have hbefore : (log.take n).filter (fun d ↦ n ≤ d.serial) = [] := by
    refine List.filter_eq_nil_iff.2 fun d hd ↦ ?_
    obtain ⟨i, hi⟩ := List.mem_iff_getElem?.1 hd
    rw [List.getElem?_take] at hi
    split_ifs at hi with hlt
    simpa [h i d hi] using hlt
  have hafter : (log.drop n).filter (fun d ↦ n ≤ d.serial) = log.drop n := by
    refine List.filter_eq_self.2 fun d hd ↦ ?_
    obtain ⟨i, hi⟩ := List.mem_iff_getElem?.1 hd
    rw [List.getElem?_drop] at hi
    simp [h _ d hi]
  rw [← List.take_append_drop n log, List.filter_append, hbefore, List.nil_append, hafter,
    List.take_append_drop]

/-- The newer messages are those from the mark on. -/
theorem newer_eq (h : Numbered s.log) (hsince : sub.since ≤ mark sub) : s.newer sub = s.log.drop (mark sub) := by
  rw [newer, ← h.filter_le]
  refine List.filter_congr fun d _ ↦ ?_
  unfold mark at hsince ⊢
  rw [Bool.eq_iff_iff, Bool.and_eq_true, decide_eq_true_eq, decide_eq_true_eq]
  rcases hlast : sub.consumed.getLast? with - | c <;> rw [hlast] at hsince
  · exact and_iff_left rfl
  · rw [Option.all_some, decide_eq_true_eq, Option.elim_some]
    rw [Option.elim_some] at hsince
    omega

theorem Marked.holdsLatest (h : Marked s.log sub) (hlog : Numbered s.log) : s.HoldsLatest sub where
  latest := by rw [newer_eq hlog h.since_le, h.items]
  order := by
    have hitems : sub.items.Sublist (s.log.drop (mark sub)) := by
      rw [h.items]
      exact List.drop_sublist _ _
    have hsplit : s.log.drop sub.since =
        (s.log.take (mark sub)).drop sub.since ++ s.log.drop (mark sub) := by
      have hsince : sub.since ≤ (s.log.take (mark sub)).length := by
        rw [List.length_take]
        exact le_min h.since_le (h.since_le.trans h.mark_le)
      rw [← List.drop_append_of_le_length hsince, List.take_append_drop]
    rw [hsplit]
    exact h.consumed.append hitems

/-- A new subscriber. -/
theorem marked_new (log : List Delivery) : Marked log ⟨[], log.length, []⟩ where
  since_le := le_rfl
  mark_le := le_rfl
  items := by
    show [] = (log.drop log.length).rtake queueSize
    rw [List.drop_length, List.rtake_nil]
  consumed := List.nil_sublist _

/-- A message is delivered. -/
theorem Marked.deliver (h : Marked log sub) (d : Delivery) :
    Marked (log ++ [d]) { sub with items := offer sub.items d } where
  since_le := h.since_le
  mark_le := by
    rw [List.length_append]
    exact h.mark_le.trans (Nat.le_add_right _ _)
  items := by
    have hfits : sub.items.length ≤ queueSize := by
      rw [h.items, Latest.length_rtake]
      exact min_le_left _ _
    show offer sub.items d = ((log ++ [d]).drop (mark sub)).rtake queueSize
    rw [offer_eq_push hfits, h.items, Latest.push_rtake (by decide), List.drop_append_of_le_length h.mark_le]
  consumed := by
    show sub.consumed.Sublist (((log ++ [d]).take (mark sub)).drop sub.since)
    rw [List.take_append_of_le_length h.mark_le]
    exact h.consumed

/-- The consumer takes a message. -/
theorem Marked.consume (h : Marked log sub) (hlog : Numbered log) {items : List Delivery}
    (hitems : sub.items = d :: items) : Marked log { sub with items, consumed := sub.consumed ++ [d] } := by
  obtain ⟨⟨front, hfront⟩, hrest⟩ := Latest.of_rtake_eq_cons (h.items.symm.trans hitems)
  -- the message stands behind the mark and those that were dropped
  have hlogSplit : log = (log.take (mark sub) ++ front) ++ d :: items := by
    rw [List.append_assoc, ← hfront, List.take_append_drop]
  have hserial : d.serial = mark sub + front.length := by
    refine hlog _ d ?_
    rw [hlogSplit, List.getElem?_append_right, List.length_append, List.length_take, min_eq_left h.mark_le,
      Nat.sub_self, List.getElem?_cons_zero]
    rw [List.length_append, List.length_take, min_eq_left h.mark_le]
  have hmark : mark { sub with items, consumed := sub.consumed ++ [d] } = mark sub + front.length + 1 := by
    simp [mark, hserial]
  have hdrop : log.drop (mark sub + front.length + 1) = items := by
    rw [Nat.add_assoc, ← List.drop_drop, hfront]
    simp
  have htake : log.take (mark sub + front.length + 1) = log.take (mark sub) ++ (front ++ [d]) := by
    rw [Nat.add_assoc, List.take_add, hfront, List.take_length_add_append]
    rfl
  refine ⟨?_, ?_, ?_, ?_⟩
  · rw [hmark]
    exact h.since_le.trans (by omega)
  · have hlength := congrArg List.length hlogSplit
    rw [List.length_append, List.length_append, List.length_take, min_eq_left h.mark_le, List.length_cons] at hlength
    omega
  · rw [hmark, hdrop, hrest]
  · have hsince : sub.since ≤ (log.take (mark sub)).length := by
      rw [List.length_take, min_eq_left h.mark_le]
      exact h.since_le
    rw [hmark, htake, List.drop_append_of_le_length hsince]
    exact h.consumed.append (List.sublist_append_right _ _)

theorem sound_initial : initial.Sound where
  numbered i d hd := by simp [initial] at hd
  nodup := List.nodup_nil
  marked q hq := absurd hq List.not_mem_nil

theorem Sound.subscribe (h : s.Sound) : s.subscribe.Sound where
  numbered := h.numbered
  nodup := by
    refine List.nodup_append.2 ⟨h.nodup, List.nodup_singleton _, fun q hq r hr heq ↦ ?_⟩
    obtain ⟨sub, hsub, -⟩ := h.marked q hq
    obtain rfl : r = s.queues.length := List.mem_singleton.1 hr
    exact absurd (List.getElem?_eq_some_iff.1 hsub).1 (by omega)
  marked q hq := by
    rcases List.mem_append.1 hq with hq | hq
    · obtain ⟨sub, hsub, hmarked⟩ := h.marked q hq
      refine ⟨sub, ?_, hmarked⟩
      show (s.queues ++ _)[q]? = some sub
      rw [List.getElem?_append_left (List.getElem?_eq_some_iff.1 hsub).1, hsub]
    · obtain rfl : q = s.queues.length := List.mem_singleton.1 hq
      exact ⟨_, List.getElem?_concat_length, marked_new s.log⟩

theorem Sound.unsubscribe (h : s.Sound) (q : ℕ) : (s.unsubscribe q).Sound :=
  ⟨h.numbered, h.nodup.filter _, fun r hr ↦ h.marked r (List.mem_of_mem_filter hr)⟩

theorem Sound.doPublish (h : s.Sound) (msg : BusMessage) : (s.doPublish msg).Sound where
  numbered := h.numbered.concat msg
  nodup := h.nodup
  marked q hq := by
    obtain ⟨sub, hsub, hmarked⟩ := h.marked q hq
    refine ⟨_, ?_, hmarked.deliver ⟨s.log.length, msg⟩⟩
    have hqueue := getElem?_foldl_modify (fun sub ↦ { sub with items := offer sub.items ⟨s.log.length, msg⟩ })
      h.nodup s.queues q
    rw [if_pos (show q ∈ s.subscribers from hq), hsub] at hqueue
    exact hqueue

theorem Sound.publish (h : s.Sound) (eventType : PyStr) (data : Option PyDict) (time : ℚ) :
    (s.publish eventType data time).Sound := by
  unfold EventBus.publish
  dsimp only
  split_ifs
  · exact ⟨h.numbered, h.nodup, h.marked⟩
  · exact h.doPublish _

theorem Sound.turn (h : s.Sound) : s.turn.Sound := by
  unfold EventBus.turn
  split
  · exact h
  · next msg scheduled _ =>
    have hpopped : Sound { s with scheduled } := ⟨h.numbered, h.nodup, h.marked⟩
    exact hpopped.doPublish msg

theorem Sound.consume (h : s.Sound) (q : ℕ) : (s.consume q).Sound := by
  unfold EventBus.consume
  split
  · exact h
  · next sub hsub =>
    split
    · exact h
    · next d items hitems =>
      have hhead : sub.items = d :: items := by
        rcases hsubItems : sub.items with - | ⟨first, rest⟩ <;> rw [hsubItems] at hitems
        · cases hitems
        · obtain ⟨rfl, rfl⟩ := Prod.mk.inj (Option.some.inj hitems)
          rfl
      refine ⟨h.numbered, h.nodup, fun r hr ↦ ?_⟩
      obtain ⟨sub', hsub', hmarked⟩ := h.marked r hr
      by_cases hqr : q = r
      · subst hqr
        obtain rfl : sub = sub' := Option.some.inj (hsub.symm.trans hsub')
        refine ⟨_, ?_, hmarked.consume h.numbered hhead⟩
        exact List.getElem?_set_self (List.getElem?_eq_some_iff.1 hsub).1
      · exact ⟨sub', (List.getElem?_set_ne hqr).trans hsub', hmarked⟩

theorem Sound.next (h : s.Sound) (step : BusStep) : (s.next step).Sound := by
  cases step with
  | subscribe => exact h.subscribe
  | unsubscribe q => exact h.unsubscribe q
  | setLoop running => exact ⟨h.numbered, h.nodup, h.marked⟩
  | publish eventType data time => exact h.publish eventType data time
  | turn => exact h.turn
  | consume q => exact h.consume q

theorem sound_exec (steps : List BusStep) : (Runs.exec next initial steps).Sound :=
  Runs.exec_invariant' (fun _ ↦ Sound) sound_initial (fun _ _ step h ↦ h.next step) steps

end Sound

/-! ### Subscribers do not affect one another -/

/-- A step that is not another subscriber's taking a message. -/
def Concerns (q : ℕ) : BusStep → Bool
  | .consume r => r = q
  | _ => true

/-- Two states that differ in the queues of other subscribers at most. -/
structure Alike (q : ℕ) (s t : EventBus) : Prop where
  queue : s.queues[q]? = t.queues[q]?
  length : s.queues.length = t.queues.length
  subscribers : s.subscribers = t.subscribers
  loopRunning : s.loopRunning = t.loopRunning
  scheduled : s.scheduled = t.scheduled
  log : s.log = t.log

section Alike

variable {q : ℕ} {s t : EventBus}

theorem Alike.refl (s : EventBus) : Alike q s s :=
  ⟨rfl, rfl, rfl, rfl, rfl, rfl⟩

theorem Alike.subscribe (h : Alike q s t) : Alike q s.subscribe t.subscribe := by
  refine { h with queue := ?_, length := ?_, subscribers := ?_ }
  · show (s.queues ++ _)[q]? = (t.queues ++ _)[q]?
    rw [List.getElem?_append, List.getElem?_append, h.length, h.queue, h.log]
  · show (s.queues ++ _).length = (t.queues ++ _).length
    rw [List.length_append, List.length_append, h.length]
    rfl
  · show s.subscribers ++ _ = t.subscribers ++ _
    rw [h.subscribers, h.length]

theorem Alike.doPublish (h : Alike q s t) (msg : BusMessage) : Alike q (s.doPublish msg) (t.doPublish msg) := by
  have hloop : ∀ (f : Subscription → Subscription) (places : List ℕ) (xs ys : List Subscription),
      xs[q]? = ys[q]? → xs.length = ys.length →
      (places.foldl (fun xs i ↦ xs.modify i f) xs)[q]? = (places.foldl (fun xs i ↦ xs.modify i f) ys)[q]? ∧
        (places.foldl (fun xs i ↦ xs.modify i f) xs).length =
          (places.foldl (fun xs i ↦ xs.modify i f) ys).length := by
    intro f places
    induction places with
    | nil => exact fun xs ys hq hlength ↦ ⟨hq, hlength⟩
    | cons i places ih =>
      intro xs ys hq hlength
      refine ih _ _ ?_ (by rw [List.length_modify, List.length_modify, hlength])
      rw [List.getElem?_modify, List.getElem?_modify, hq]
  have hqueues := hloop (fun sub ↦ { sub with items := offer sub.items ⟨t.log.length, msg⟩ }) t.subscribers
    s.queues t.queues h.queue h.length
  rw [EventBus.doPublish, EventBus.doPublish, h.subscribers, h.log]
  exact { h with queue := hqueues.1, length := hqueues.2, subscribers := rfl, log := rfl }

theorem Alike.turn (h : Alike q s t) : Alike q s.turn t.turn := by
  unfold EventBus.turn
  rw [h.scheduled]
  rcases t.scheduled with - | ⟨msg, scheduled⟩
  · exact h
  · have hpopped : Alike q { s with scheduled } { t with scheduled } := { h with scheduled := rfl }
    exact hpopped.doPublish msg

/-- Taking a message from one queue leaves the others. -/
theorem alike_consume_of_ne {r : ℕ} (hr : r ≠ q) (s : EventBus) : Alike q (s.consume r) s := by
  unfold EventBus.consume
  split
  · exact .refl s
  · split
    · exact .refl s
    · exact ⟨List.getElem?_set_ne hr, List.length_set, rfl, rfl, rfl, rfl⟩

theorem Alike.consume (h : Alike q s t) : Alike q (s.consume q) (t.consume q) := by
  unfold EventBus.consume
  rw [← h.queue]
  rcases hsub : s.queues[q]? with - | sub
  · exact h
  · rcases hget : getNowait sub.items with - | ⟨d, items⟩
    · simp only [hget]
      exact h
    · simp only [hget]
      have hs := (List.getElem?_eq_some_iff.1 hsub).1
      refine { h with queue := ?_, length := ?_ }
      · show (s.queues.set q _)[q]? = (t.queues.set q _)[q]?
        rw [List.getElem?_set_self hs, List.getElem?_set_self (h.length ▸ hs)]
      · show (s.queues.set q _).length = (t.queues.set q _).length
        rw [List.length_set, List.length_set, h.length]

theorem Alike.next (h : Alike q s t) {step : BusStep} (hstep : Concerns q step = true) :
    Alike q (s.next step) (t.next step) := by
  cases step with
  | subscribe => exact h.subscribe
  | unsubscribe r => exact { h with subscribers := congrArg (List.filter (· ≠ r)) h.subscribers }
  | setLoop running => exact { h with loopRunning := rfl }
  | publish eventType data time =>
    show Alike q (s.publish ..) (t.publish ..)
    unfold EventBus.publish
    rw [h.loopRunning]
    dsimp only
    split_ifs
    · exact { h with loopRunning := rfl, scheduled := congrArg (· ++ _) h.scheduled }
    · exact h.doPublish _
  | turn => exact h.turn
  | consume r =>
    obtain rfl : r = q := of_decide_eq_true hstep
    exact h.consume

/-- **A subscriber finds the same in its queue whatever the others take from theirs.** -/
theorem exec_filter_alike (q : ℕ) (steps : List BusStep) :
    Alike q (Runs.exec next initial steps) (Runs.exec next initial (steps.filter (Concerns q))) := by
  induction steps using List.reverseRecOn with
  | nil => exact .refl initial
  | append_singleton steps step ih =>
    rw [Runs.exec_concat, List.filter_append]
    rcases hstep : Concerns q step with - | -
    · -- another subscriber takes a message
      rw [List.filter_cons_of_neg (by simp [hstep]), List.filter_nil, List.append_nil]
      cases step with
      | consume r =>
        have hother := alike_consume_of_ne (of_decide_eq_false hstep) (Runs.exec next initial steps)
        exact ⟨hother.queue.trans ih.queue, hother.length.trans ih.length,
          hother.subscribers.trans ih.subscribers, hother.loopRunning.trans ih.loopRunning,
          hother.scheduled.trans ih.scheduled, hother.log.trans ih.log⟩
      | _ => cases hstep
    · rw [List.filter_cons_of_pos hstep, List.filter_nil, Runs.exec_concat]
      exact ih.next hstep

end Alike

/-- **Event bus queues.** In every state that a run reaches, a subscriber's queue holds the latest of the messages that
were delivered since it subscribed and are newer than the last one it consumed, as many as fit, in the order of
delivery; nothing comes to it twice or out of order; the newest message that it has not consumed is in it; and what
the other subscribers take makes no difference to it. -/
theorem queues_exec (steps : List BusStep) :
    let s := Runs.exec next initial steps
    ∀ q ∈ s.subscribers, ∃ sub, s.queues[q]? = some sub ∧ s.HoldsLatest sub ∧
      sub.items.length = min queueSize (s.newer sub).length ∧
      sub.items.getLast? = (s.newer sub).getLast? ∧
      (Runs.exec next initial (steps.filter (Concerns q))).queues[q]? = some sub := by
  intro s q hq
  have hsound : s.Sound := sound_exec steps
  obtain ⟨sub, hsub, hmarked⟩ := hsound.marked q hq
  have hholds := hmarked.holdsLatest hsound.numbered
  refine ⟨sub, hsub, hholds, ?_, ?_, (exec_filter_alike q steps).queue.symm.trans hsub⟩
  · rw [hholds.latest, Latest.length_rtake]
  · rw [hholds.latest, Latest.getLast?_rtake (by decide)]

/-- A subscriber that consumes and one that does not: the second one loses the oldest message. -/
example : ∃ s : EventBus, s.subscribers = [0, 1] ∧
    (s.queues.map fun sub ↦ sub.items.map Delivery.serial) = [[1], [0, 1]] :=
  ⟨Runs.exec next initial [.subscribe, .subscribe, .publish (py "a") none 0, .consume 0, .publish (py "b") none 1],
    by decide +kernel, by decide +kernel⟩

end EventBus

end LocalGateway
