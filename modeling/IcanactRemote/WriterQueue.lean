/-
The queues between the senders and a connection's writer.

`WriteQueue` and `StreamingQueue` are bounded queues with two notifiers.  A sender
that finds no room waits on `space_notify`; the writer parks on `data_notify`.
Wakeups of the writer are coalesced through `data_pending`, space permits do not
accumulate, and teardown counts the senders in flight in the word that holds the
closed bit.  Every atomic operation is a step here, and any sender, the writer and
the teardown take their steps in any order.

* `WriterQueue.step` — the atomic steps;
* `Someone` — what some sender is at, and how it survives the steps of others;
* `Logged` — what leaves the queue is what it took, in this order.
-/
import IcanactRemote.Run

namespace IcanactRemote

open Function

inductive QueueKind
  | write
  | streaming
  deriving DecidableEq, Repr

/-- `ArrayQueue::new(capacity.max(128))`, and 64 for the streaming queue. -/
def QueueKind.capacity : QueueKind → ℕ → ℕ
  | .write, capacity => max capacity 128
  | .streaming, capacity => max capacity 64

lemma QueueKind.capacity_pos (kind : QueueKind) (capacity : ℕ) : 0 < kind.capacity capacity := by
  cases kind
  · exact lt_of_lt_of_le (by decide) (le_max_right capacity 128)
  · exact lt_of_lt_of_le (by decide) (le_max_right capacity 64)

/-- What a sender calls: `try_push`, which on the write queue is followed by
`notify_data` when it succeeds, or `push`. -/
inductive EnqueueCall
  | tryPush
  | push
  deriving DecidableEq, Repr

inductive EnqueueResult
  | ok
  | full
  | closed
  | closedDropped
  | cancelled
  deriving DecidableEq, Repr

/-- The `Notified` future of a waiting `push`. -/
inductive Waiter
  | waiting
  /-- woken by `notify_one` -/
  | notifiedOne
  /-- woken by `notify_waiters` -/
  | notifiedAll
  /-- took the stored permit -/
  | taken
  deriving DecidableEq, Repr

/-- Before which atomic operation a sender is. -/
inductive SenderPc
  | starting (retry : Bool)
  | guarded (retry : Bool)
  | loading (result : EnqueueResult)
  | announcing
  | notifying
  | checking
  | releasing (result : EnqueueResult)
  | failed
  | created (waitersCalled : Bool)
  | enabled (waiter : Waiter)
  | awaiting (waiter : Waiter)
  | woken (handed : Bool)
  | returned (result : EnqueueResult)
  deriving DecidableEq, Repr

/-- The waiter is told. -/
def SenderPc.wake (waiter : Waiter) : SenderPc → SenderPc
  | .enabled .waiting => .enabled waiter
  | .awaiting .waiting => .awaiting waiter
  | pc => pc

structure Sender where
  call : EnqueueCall
  command : ℕ
  pc : SenderPc
  /-- the call began after `close_and_reclaim` had returned -/
  late : Bool
  deriving DecidableEq, Repr

inductive WriterPc
  | running
  /-- in `prepare_park`: the flag is cleared, the queue not looked at yet -/
  | cleared
  /-- in `prepare_park`: a command was there, the flag is not set again yet -/
  | rearming
  /-- `prepare_park` returned `None` -/
  | drained
  | parked
  deriving DecidableEq, Repr

inductive CloserPc
  | before
  /-- the closed bit is set -/
  | marked
  /-- and `closed` is -/
  | stored
  /-- all waiters are woken -/
  | draining
  | counting
  | lastDrain
  | returned
  deriving DecidableEq, Repr

structure WriterQueue where
  queue : List ℕ
  dataPending : Bool
  /-- the stored permit of `data_notify` -/
  dataPermit : Bool
  /-- the stored permit of `space_notify`, and its waiters -/
  spacePermit : Bool
  waiters : List ℕ
  waitersCalled : Bool
  closed : Bool
  /-- `try_push_state`: the high bit, and the senders in flight -/
  closedBit : Bool
  pushers : ℕ
  senders : ℕ → Sender
  writer : WriterPc
  /-- commands the writer has popped and not called `notify_space` for -/
  owed : ℕ
  closer : CloserPc
  /-- every command the queue took, every one that left it, and those the writer took -/
  accepted : List ℕ
  popped : List ℕ
  consumed : List ℕ

namespace WriterQueue

/-- A new queue; nobody has called anything. -/
def new : WriterQueue where
  queue := []
  dataPending := false
  dataPermit := false
  spacePermit := false
  waiters := []
  waitersCalled := false
  closed := false
  closedBit := false
  pushers := 0
  senders _ := ⟨.tryPush, 0, .returned .ok, false⟩
  writer := .running
  owed := 0
  closer := .before
  accepted := []
  popped := []
  consumed := []

def pcOf (s : WriterQueue) (id : ℕ) : SenderPc := (s.senders id).pc

/-- The sender goes on. -/
def goto (s : WriterQueue) (id : ℕ) (pc : SenderPc) : WriterQueue :=
  { s with senders := update s.senders id { s.senders id with pc } }

/-- `space_notify.notify_one()`: the first waiter is told, or a permit is stored. -/
def notifyOne (s : WriterQueue) : WriterQueue :=
  match s.waiters with
  | [] => { s with spacePermit := true }
  | id :: rest => { s with waiters := rest }.goto id ((s.pcOf id).wake .notifiedOne)

/-- `space_notify.notify_waiters()`. -/
def notifyWaiters (s : WriterQueue) : WriterQueue :=
  { s with
    waiters := []
    waitersCalled := true
    senders := fun id =>
      if id ∈ s.waiters then { s.senders id with pc := (s.pcOf id).wake .notifiedAll }
      else s.senders id }

/-- The `Notified` future is dropped; a notification it was given goes on to the
next waiter. -/
def dropNotified (s : WriterQueue) (id : ℕ) : Waiter → WriterQueue
  | .waiting => { s with waiters := s.waiters.erase id }
  | .notifiedOne => s.notifyOne
  | .notifiedAll => s
  | .taken => s

/-- Where a sender is after `notify_data`. -/
def afterNotify (kind : QueueKind) : EnqueueCall → SenderPc
  | .push => .checking
  | .tryPush =>
    match kind with
    | .write => .returned .ok
    | .streaming => .loading .ok

/-- Where a sender is after `queue.push` took its command. -/
def afterPush (kind : QueueKind) (call : EnqueueCall) : SenderPc :=
  if kind = .write ∧ call = .tryPush then .loading .ok else .announcing

/-- What `try_push` returns when it finds the closed bit at its end. -/
def closedResult : QueueKind → EnqueueResult
  | .write => .closedDropped
  | .streaming => .closed

/-- Where a sender is when its guard is dropped. -/
def afterRelease (kind : QueueKind) (call : EnqueueCall) (result : EnqueueResult) : SenderPc :=
  if call = .push ∧ result = .full then .failed
  else if kind = .write ∧ call = .tryPush ∧ result = .ok then .announcing
  else .returned result

/-- The next atomic operation of a sender. -/
def send (kind : QueueKind) (cap : ℕ) (s : WriterQueue) (id : ℕ) : WriterQueue :=
  let call := (s.senders id).call
  match s.pcOf id with
  | .starting retry =>
    if s.closedBit then s.goto id (.returned .closed)
    else { s with pushers := s.pushers + 1 }.goto id (.guarded retry)
  | .guarded _ =>
    if s.queue.length < cap then
      { s with
        queue := s.queue ++ [(s.senders id).command]
        accepted := s.accepted ++ [(s.senders id).command] }.goto id (afterPush kind call)
    else s.goto id (if call = .push then .releasing .full else .loading .full)
  | .loading result =>
    s.goto id (.releasing (if s.closedBit then closedResult kind else result))
  | .announcing =>
    { s with dataPending := true }.goto id
      (if s.dataPending then afterNotify kind call else .notifying)
  | .notifying => { s with dataPermit := true }.goto id (afterNotify kind call)
  | .checking => s.goto id (.releasing (if s.closed then .closed else .ok))
  | .releasing result =>
    { s with pushers := s.pushers - 1 }.goto id (afterRelease kind call result)
  | .failed => s.goto id (.created s.waitersCalled)
  | .created waitersCalled =>
    if s.spacePermit then { s with spacePermit := false }.goto id (.enabled .taken)
    else if waitersCalled = s.waitersCalled then
      { s with waiters := s.waiters ++ [id] }.goto id (.enabled .waiting)
    else s.goto id (.enabled .notifiedAll)
  | .enabled waiter =>
    if s.closed then (s.dropNotified id waiter).goto id (.returned .closed)
    else s.goto id (.awaiting waiter)
  | .awaiting .waiting => s
  | .awaiting waiter => s.goto id (.woken (waiter ≠ .notifiedAll))
  | .woken handed =>
    s.goto id (if s.closed then .returned .closed else .starting handed)
  | .returned _ => s

/-- A new call of a sender that is in none. -/
def begin (s : WriterQueue) (id : ℕ) (call : EnqueueCall) (command : ℕ) : WriterQueue :=
  match s.pcOf id with
  | .returned _ =>
    { s with
      senders := update s.senders id
        ⟨call, command, .starting false, s.closer = .returned⟩ }
  | _ => s

/-- The future of a `push` that waits for space is dropped.  One that took the stored
permit never waits: its `await` is ready at once. -/
def cancel (s : WriterQueue) (id : ℕ) : WriterQueue :=
  match s.pcOf id with
  | .awaiting .taken => s
  | .awaiting waiter => (s.dropNotified id waiter).goto id (.returned .cancelled)
  | _ => s

/-- `queue.pop()`. -/
def pop (s : WriterQueue) : WriterQueue :=
  match s.queue with
  | [] => s
  | command :: queue => { s with queue, popped := s.popped ++ [command] }

/-- The writer pops a command. -/
def take (s : WriterQueue) : WriterQueue :=
  match s.queue with
  | [] => s
  | command :: _ =>
    { s.pop with owed := s.owed + 1, consumed := s.consumed ++ [command] }

/-- What the writer does next. -/
inductive WriterOp
  | pop
  | notifySpace
  /-- `prepare_park`, one atomic operation after the other -/
  | preparePark
  | park
  /-- something else than `data_notify` ends the park -/
  | resume
  deriving DecidableEq, Repr

def write (s : WriterQueue) : WriterOp → WriterQueue
  | .pop => if s.writer = .running then s.take else s
  | .notifySpace =>
    if s.writer = .running ∧ 0 < s.owed then { s with owed := s.owed - 1 }.notifyOne else s
  | .preparePark =>
    match s.writer with
    | .running => { s with dataPending := false, writer := .cleared }
    | .cleared =>
      { s.take with writer := if s.queue = [] then .drained else .rearming }
    | .rearming => { s with dataPending := true, writer := .running }
    | _ => s
  | .park =>
    match s.writer with
    | .drained => { s with writer := .parked }
    | .parked => if s.dataPermit then { s with dataPermit := false, writer := .running } else s
    | _ => s
  | .resume =>
    match s.writer with
    | .drained => { s with writer := .running }
    | .parked => { s with writer := .running }
    | _ => s

/-- The next atomic operation of `close_and_reclaim`. -/
def close (s : WriterQueue) : WriterQueue :=
  match s.closer with
  | .before => { s with closedBit := true, closer := .marked }
  | .marked => { s with closed := true, closer := .stored }
  | .stored => { s.notifyWaiters with closer := .draining }
  | .draining => { s.pop with closer := if s.queue = [] then .counting else .draining }
  | .counting => { s with closer := if s.pushers = 0 then .lastDrain else .draining }
  | .lastDrain => { s.pop with closer := if s.queue = [] then .returned else .lastDrain }
  | .returned => s

inductive Event
  | begin (id : ℕ) (call : EnqueueCall) (command : ℕ)
  | send (id : ℕ)
  | cancel (id : ℕ)
  | write (op : WriterOp)
  /-- `wake_consumer` -/
  | wakeConsumer
  | close
  deriving DecidableEq, Repr

def step (kind : QueueKind) (capacity : ℕ) (s : WriterQueue) : Event → WriterQueue
  | .begin id call command => s.begin id call command
  | .send id => s.send kind (kind.capacity capacity) id
  | .cancel id => s.cancel id
  | .write op => s.write op
  | .wakeConsumer => { s with dataPermit := true }
  | .close => s.close

/-! ### Senders -/

section Senders

variable {s : WriterQueue} {id j : ℕ} {pc : SenderPc} {P : Sender → Prop}

lemma senders_goto_self :
    (s.goto id pc).senders id = { s.senders id with pc } := update_self ..

lemma senders_goto_of_ne (s : WriterQueue) {id j : ℕ} (h : j ≠ id) (pc : SenderPc) :
    (s.goto id pc).senders j = s.senders j := update_of_ne h ..

/-- Some sender is at such a point. -/
def Someone (P : Sender → Prop) (s : WriterQueue) : Prop := ∃ id, P (s.senders id)

lemma someone_goto_self (h : P { s.senders id with pc }) : Someone P (s.goto id pc) := by
  refine ⟨id, ?_⟩
  rw [senders_goto_self]
  exact h

section

variable (h : Someone P s)
include h

lemma Someone.goto (hkeep : P (s.senders id) → P { s.senders id with pc }) :
    Someone P (s.goto id pc) := by
  obtain ⟨j, hj⟩ := h
  by_cases hid : j = id
  · rw [hid] at hj
    exact someone_goto_self (hkeep hj)
  · refine ⟨j, ?_⟩
    rw [senders_goto_of_ne s hid]
    exact hj

lemma Someone.begin {call : EnqueueCall} {command : ℕ}
    (hret : ∀ result, ¬ P { s.senders id with pc := .returned result }) :
    Someone P (s.begin id call command) := by
  unfold WriterQueue.begin
  split
  next result hpc =>
    obtain ⟨j, hj⟩ := h
    have hid : j ≠ id := by
      rintro rfl
      refine hret result ?_
      rw [← hpc]
      exact hj
    refine ⟨j, ?_⟩
    show P (update s.senders id _ j)
    rw [update_of_ne hid]
    exact hj
  · exact h

lemma Someone.notifyOne
    (hwake : ∀ sender : Sender, P sender → P { sender with pc := sender.pc.wake .notifiedOne }) :
    Someone P s.notifyOne := by
  unfold WriterQueue.notifyOne
  split
  · exact h
  next first rest _ =>
    exact Someone.goto (s := { s with waiters := rest }) h (hwake _)

lemma Someone.notifyWaiters
    (hwake : ∀ sender : Sender, P sender → P { sender with pc := sender.pc.wake .notifiedAll }) :
    Someone P s.notifyWaiters := by
  obtain ⟨j, hj⟩ := h
  refine ⟨j, ?_⟩
  show P (if j ∈ s.waiters then _ else _)
  split
  · exact hwake _ hj
  · exact hj

end

lemma someone_of_goto (h : Someone P (s.goto id pc)) :
    P { s.senders id with pc } ∨ Someone P s := by
  obtain ⟨j, hj⟩ := h
  by_cases hid : j = id
  · rw [hid, senders_goto_self] at hj
    exact .inl hj
  · rw [senders_goto_of_ne s hid] at hj
    exact .inr ⟨j, hj⟩

end Senders

/-! ### The queue itself -/

variable {kind : QueueKind} {capacity cap : ℕ} {s : WriterQueue} {id : ℕ}

/-- What left the queue and what is still in it is what it took, in this order;
until the teardown drains it only the writer takes. -/
def Logged (s : WriterQueue) : Prop :=
  s.accepted = s.popped ++ s.queue ∧ s.consumed.Sublist s.popped ∧
    (s.closer ∈ [.before, .marked, .stored] → s.consumed = s.popped)

variable (h : Logged s)
include h

lemma Logged.notifyOne : Logged s.notifyOne := by
  unfold WriterQueue.notifyOne
  split <;> exact h

lemma Logged.dropNotified (id : ℕ) (waiter : Waiter) : Logged (s.dropNotified id waiter) := by
  cases waiter with
  | notifiedOne => exact h.notifyOne
  | _ => exact h

lemma Logged.send (id : ℕ) : Logged (s.send kind cap id) := by
  unfold WriterQueue.send
  cases hpc : s.pcOf id with
  | starting =>
    simp only
    split <;> exact h
  | guarded =>
    simp only
    split
    · refine ⟨?_, h.2.1, h.2.2⟩
      show s.accepted ++ _ = s.popped ++ (s.queue ++ _)
      rw [h.1, List.append_assoc]
    · exact h
  | created =>
    simp only
    split
    · exact h
    · split <;> exact h
  | enabled waiter =>
    simp only
    split
    · exact h.dropNotified id waiter
    · exact h
  | awaiting waiter =>
    cases waiter with
    | _ => exact h
  | _ => exact h

lemma Logged.take : Logged s.take := by
  unfold WriterQueue.take WriterQueue.pop
  cases hq : s.queue with
  | nil => exact h
  | cons command queue =>
    rw [Logged, hq] at h
    refine ⟨?_, h.2.1.append (List.Sublist.refl _), ?_⟩
    · show s.accepted = (s.popped ++ [command]) ++ queue
      rw [h.1, List.append_assoc]
      rfl
    · intro hopen
      exact congrArg (· ++ [command]) (h.2.2 hopen)

lemma Logged.pop {closer : CloserPc} (hcloser : closer ∉ [CloserPc.before, .marked, .stored]) :
    Logged { s.pop with closer } := by
  unfold WriterQueue.pop
  cases hq : s.queue with
  | nil => exact ⟨h.1, h.2.1, fun hopen => absurd hopen hcloser⟩
  | cons =>
    rw [Logged, hq] at h
    refine ⟨?_, h.2.1.trans (List.sublist_append_left _ _), fun hopen => absurd hopen hcloser⟩
    rw [h.1, List.append_assoc]
    rfl

lemma Logged.step (e : Event) : Logged (s.step kind capacity e) := by
  cases e with
  | begin =>
    simp only [WriterQueue.step, begin]
    split <;> exact h
  | send id => exact h.send id
  | cancel id =>
    simp only [WriterQueue.step, WriterQueue.cancel]
    split
    · exact h
    · exact h.dropNotified id _
    · exact h
  | write op =>
    cases op with
    | pop =>
      simp only [WriterQueue.step, write]
      split
      · exact h.take
      · exact h
    | notifySpace =>
      simp only [WriterQueue.step, write]
      split
      · exact Logged.notifyOne (s := { s with owed := s.owed - 1 }) h
      · exact h
    | preparePark =>
      simp only [WriterQueue.step, write]
      split
      · exact h
      · exact h.take
      · exact h
      · exact h
    | park =>
      simp only [WriterQueue.step, write]
      split
      · exact h
      · split <;> exact h
      · exact h
    | resume =>
      simp only [WriterQueue.step, write]
      split <;> exact h
  | wakeConsumer => exact h
  | close =>
    simp only [WriterQueue.step, close]
    cases hcloser : s.closer with
    | before | marked => exact ⟨h.1, h.2.1, fun _ => h.2.2 (by rw [hcloser]; simp)⟩
    | stored => exact ⟨h.1, h.2.1, fun hopen => absurd hopen (by simp)⟩
    | draining | lastDrain => exact h.pop (by split <;> simp)
    | counting =>
      refine ⟨h.1, h.2.1, fun hopen => absurd hopen ?_⟩
      show (if _ then CloserPc.lastDrain else .draining) ∉ _
      split <;> simp
    | returned => exact h

end WriterQueue

end IcanactRemote
