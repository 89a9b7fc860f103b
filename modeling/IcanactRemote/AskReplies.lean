/-
Replies to one inbound ask.

The ask is handed to the handler with an `AskContext`.  Responders taken from it,
their clones, the fallbacks of rejected attempts and the leases all share the
guard `used`, and the first call that swaps it owns the reply.  The dispatcher
writes what the handler returns, whatever the guard says.

* `AskReplies.Task.advance` — the atomic steps of the calls;
* `AskReplies.Effect.Fair` — what a step may do: only the owner sends or notifies;
* `AskReplies.one_reply_per_ask` — one reply, unless the handler both returns
  one and has a responder that claims.
-/
import IcanactRemote.Run
import IcanactRemote.WireFormat

namespace IcanactRemote

def masterBufferSize : ℕ := 1024 * 1024

def streamingThreshold : ℕ := masterBufferSize - 1024

/-! ### What the handler returns -/

inductive ActorResponse
  | bytes (payload : Bytes)
  | aligned (payload : Bytes)
  | pooled (payload : Bytes) (pre : Option Bytes) (payloadLen : ℕ)
  deriving DecidableEq, Repr

inductive AskDisposition
  | immediate (response : ActorResponse)
  | immediateBytes (payload : Bytes)
  | immediateAligned (payload : Bytes)
  | immediatePooled (payload : Bytes) (pre : Option Bytes) (payloadLen : ℕ)
  | deferred
  | nack (reason : AskNackReason)
  deriving DecidableEq, Repr

/-- An entry of the connection's outgoing queues. -/
inductive Outgoing
  | response (payload : Bytes)
  | nack (reason : AskNackReason)
  | leased (normalPayload : Option Bytes)
  deriving DecidableEq, Repr

namespace AskReplies

/-- What the dispatcher finds: room in the streaming queue and for a NACK, and
whether there is a stream id left. -/
structure LocalQueues where
  maxMessageSize : ℕ
  canAdmitResponse : Bool
  streamIdLeft : Bool
  nackRoom : Bool
  deriving DecidableEq, Repr

inductive QueueOutcome
  | queued (entry : Outgoing)
  | wouldBlock
  | failed
  deriving DecidableEq, Repr

def queueAskNack (q : LocalQueues) (reason : AskNackReason) : Option Outgoing :=
  if q.nackRoom then some (.nack reason) else none

/-- The admission that both `queue_streaming_response_*` end with. -/
def admitStreaming (q : LocalQueues) (payload : Bytes) : QueueOutcome :=
  if q.maxMessageSize - streamResponseStartHeaderLen = 0 then .failed
  else if !q.canAdmitResponse then .wouldBlock
  else if !q.streamIdLeft then .failed
  else .queued (.response payload)

def queueStreamingResponseBytes (q : LocalQueues) (payload : Bytes) : QueueOutcome :=
  if payload.length > maxStreamSize then .failed else admitStreaming q payload

def queueStreamingResponsePooled (q : LocalQueues) (payload : Bytes) (pre : Option Bytes)
    (payloadLen : ℕ) : QueueOutcome :=
  let prefixLen := (pre.getD []).length
  if payloadLen > maxStreamSize then .failed
  else if prefixLen > payloadLen then .failed
  else if payload.length < payloadLen - prefixLen then .failed
  else admitStreaming q (pre.getD [] ++ payload.take (payloadLen - prefixLen))

/-- `queue_streaming_response_*_or_nack`. -/
def orNack (q : LocalQueues) : QueueOutcome → Option Outgoing
  | .queued entry => some entry
  | .wouldBlock => queueAskNack q .backpressure
  | .failed => none

def shouldStream (q : LocalQueues) (len : ℕ) : Bool :=
  len > q.maxMessageSize - askResponseHeaderLen || len > streamingThreshold

def writeBytes (q : LocalQueues) (payload : Bytes) : Option Outgoing :=
  if shouldStream q payload.length then orNack q (queueStreamingResponseBytes q payload)
  else some (.response payload)

def parkPooledInlineResponse (q : LocalQueues) (payload : Bytes) (pre : Option Bytes)
    (payloadLen : ℕ) : Option Outgoing :=
  let bytes := pre.getD [] ++ payload
  if bytes.length ≠ payloadLen then none
  else
    match rejectOversizeForInlineSend askResponseHeaderLen bytes.length q.maxMessageSize with
    | .error _ => none
    | .ok () => some (.response bytes)

def writePooled (q : LocalQueues) (payload : Bytes) (pre : Option Bytes) (payloadLen : ℕ) :
    Option Outgoing :=
  if shouldStream q payloadLen then orNack q (queueStreamingResponsePooled q payload pre payloadLen)
  else parkPooledInlineResponse q payload pre payloadLen

/-- `write_ask_disposition_io`: what it queues, if anything. -/
def writeAskDisposition (q : LocalQueues) : AskDisposition → Option Outgoing
  | .deferred => none
  | .nack reason => queueAskNack q reason
  | .immediate (.bytes payload) | .immediate (.aligned payload) => writeBytes q payload
  | .immediate (.pooled payload pre payloadLen) => writePooled q payload pre payloadLen
  | .immediateBytes payload | .immediateAligned payload => writeBytes q payload
  | .immediatePooled payload pre payloadLen => writePooled q payload pre payloadLen

/-- A handler's error is answered with its NACK reason. -/
def dispositionOf : Except AskNackReason AskDisposition → AskDisposition
  | .ok disposition => disposition
  | .error reason => .nack reason

/-! ### Responders, fallbacks and leases -/

structure AskResponder where
  replyObserver : Option ℕ
  observerNotified : Bool
  deriving DecidableEq, Repr

/-- `notify_observer`: the observer that is called. -/
def AskResponder.notifyObserver (r : AskResponder) (len : ℕ) : Option ℕ :=
  if len ≤ maxStreamSize ∧ !r.observerNotified then r.replyObserver else none

/-- The flag after `notify_observer`. -/
def AskResponder.afterNotify (r : AskResponder) (len : ℕ) : AskResponder :=
  if (r.notifyObserver len).isSome then { r with observerNotified := true } else r

/-- The calls that consume a responder and reply at once.  A typed value may fail
to encode. -/
inductive ReplyCall
  | reply (response : Bytes)
  | replyTyped (encoded : Option Bytes)
  | tryReplyBytes (response : Bytes)
  | tryReplyBytesImmediate (response : Bytes)
  | tryReplyBytesWithFallback (response : Bytes)
  | tryReplyBytesImmediateWithFallback (response : Bytes)
  | replyBytesGuaranteed (response : Bytes)
  deriving DecidableEq, Repr

def ReplyCall.response : ReplyCall → Option Bytes
  | .replyTyped encoded => encoded
  | .reply response | .tryReplyBytes response | .tryReplyBytesImmediate response
  | .tryReplyBytesWithFallback response | .tryReplyBytesImmediateWithFallback response
  | .replyBytesGuaranteed response => some response

/-- The calls that wait for room: they can be dropped there. -/
def ReplyCall.isAsync : ReplyCall → Bool
  | .reply _ | .replyTyped _ => true
  | _ => false

structure ReplyLease where
  responder : AskResponder
  maxReplyBytes : ℕ
  cancelled : Bool
  normalPayload : Option Bytes
  activated : Bool
  deriving DecidableEq, Repr

inductive PublishError
  | cancelled
  | messageTooLarge
  | connectionClosed
  | alreadyExists
  deriving DecidableEq, Repr

namespace ReplyLease

def reserve (r : AskResponder) (maxReplyBytes : ℕ) : ReplyLease :=
  ⟨r, maxReplyBytes, false, none, false⟩

def publish (l : ReplyLease) (payload : Bytes) (closed : Bool) :
    Except PublishError ReplyLease :=
  if l.cancelled then .error .cancelled
  else if payload.length > l.maxReplyBytes then .error .messageTooLarge
  else if closed then .error .connectionClosed
  else if l.normalPayload.isSome then .error .alreadyExists
  else .ok { l with normalPayload := some payload }

/-- `ReplySlotRecord::activate`: only the first one puts the record on the ready
queue, while that is open. -/
def activate (l : ReplyLease) (isOpen : Bool) : Option Outgoing × ReplyLease :=
  (if !l.activated && isOpen then some (.leased l.normalPayload) else none,
    { l with activated := true })

/-- `notify_observer` of a lease. -/
def notifyObserver (l : ReplyLease) : Option ℕ :=
  if l.responder.observerNotified then none else l.responder.replyObserver

def afterNotify (l : ReplyLease) : ReplyLease :=
  if l.notifyObserver.isSome then
    { l with responder := { l.responder with observerNotified := true } }
  else l

end ReplyLease

/-- What one task holds, and before which atomic operation it is. -/
inductive Task
  | gone
  | responder (r : AskResponder)
  | claiming (r : AskResponder) (call : ReplyCall)
  | claimed (r : AskResponder) (call : ReplyCall)
  | sending (r : AskResponder) (call : ReplyCall) (response : Bytes)
  /-- the awaited attempt of a fallback -/
  | retrying (r : AskResponder) (response : Bytes)
  | fallback (r : AskResponder)
  /-- in `reserve_for_responder` -/
  | reserving (r : AskResponder) (isClaimed : Bool) (maxReplyBytes : ℕ)
  /-- the record is reserved, the guard not swapped yet -/
  | reserved (r : AskResponder) (maxReplyBytes : ℕ)
  | lease (l : ReplyLease)
  | publishing (l : ReplyLease) (payload : Bytes) (wait : Bool)
  | published (l : ReplyLease) (wait : Bool)
  | activating (l : ReplyLease) (wait : Bool)
  | waiting (l : ReplyLease)
  /-- in `cancel`; `again` if the lease is still to be dropped -/
  | cancelling (l : ReplyLease) (again : Bool)
  deriving DecidableEq, Repr

/-- What one atomic step does. -/
structure Effect where
  task : Task
  /-- the guard is swapped -/
  claims : Bool := false
  sends : Option Outgoing := none
  observes : Option ℕ := none

open Effect

namespace Task

/-- The next atomic operation of the call the task is in.  `ok` is what the
queue, the encoder or the slot table answers. -/
def advance (used ok : Bool) : Task → Effect
  | .claiming r call =>
    { task := if used then .gone else .claimed r call, claims := true }
  | .claimed r call =>
    match call.response with
    | none => { task := .gone }
    | some response =>
      { task := .sending (r.afterNotify response.length) call response
        observes := r.notifyObserver response.length }
  | .sending r call response =>
    if ok then { task := .gone, sends := some (.response response) }
    else
      match call with
      | .tryReplyBytesWithFallback _ | .tryReplyBytesImmediateWithFallback _ =>
        { task := .fallback r }
      | .replyBytesGuaranteed _ => { task := .retrying r response }
      | _ => { task := .gone }
  | .retrying _ response =>
    { task := .gone, sends := if ok then some (.response response) else none }
  | .reserving r isClaimed maxReplyBytes =>
    -- a refusal gives the responder, or the fallback, back
    if !ok then { task := if isClaimed then .fallback r else .responder r }
    else if isClaimed then { task := .lease (.reserve r maxReplyBytes) }
    else { task := .reserved r maxReplyBytes }
  | .reserved r maxReplyBytes =>
    -- the record is discarded when a sibling has the claim
    { task := if used then .gone else .lease (.reserve r maxReplyBytes), claims := true }
  | .publishing l payload wait =>
    match l.publish payload (!ok) with
    | .ok l => { task := .published l wait }
    | .error .connectionClosed => { task := .gone }
    | .error _ => { task := .cancelling { l with cancelled := true } true }
  | .published l wait =>
    { task := .activating l.afterNotify wait, observes := l.notifyObserver }
  | .activating l wait =>
    { task := if wait then .waiting (l.activate ok).2 else .gone, sends := (l.activate ok).1 }
  | .waiting _ => { task := .gone }
  | .cancelling l again =>
    { task := if again then .cancelling (l.activate ok).2 false else .gone
      sends := (l.activate ok).1 }
  | k => { task := k }

def call (c : ReplyCall) : Task → Task
  | .responder r => .claiming r c
  | k => k

/-- `try_reply_bytes`, `try_reply_bytes_immediate` or `reply_bytes` of a fallback. -/
def retry (response : Bytes) : Task → Task
  | .fallback r => .retrying r response
  | k => k

/-- `try_reply_lease` and `try_into_reply_lease`. -/
def intoLease (maxReplyBytes : ℕ) : Task → Task
  | .responder r => .reserving r false maxReplyBytes
  | .fallback r => .reserving r true maxReplyBytes
  | k => k

/-- `try_reply_bytes` and `reply_bytes` of a lease. -/
def leaseReply (payload : Bytes) (wait : Bool) : Task → Task
  | .lease l => .publishing l payload wait
  | k => k

/-- What is dropped, where a value or a waiting future can be. -/
def drop : Task → Task
  | .responder _ | .fallback _ | .retrying _ _ => .gone
  | .sending r call response => if call.isAsync then .gone else .sending r call response
  | .lease l | .waiting l => .cancelling { l with cancelled := true } false
  | k => k

/-- The task holds the claim and has not used it up. -/
def owns : Task → Bool
  | .claimed _ _ | .sending _ _ _ | .retrying _ _ | .fallback _ => true
  | .reserving _ isClaimed _ => isClaimed
  | .lease _ | .publishing _ _ _ | .published _ _ => true
  | .activating l _ | .waiting l | .cancelling l _ => !l.activated
  | .gone | .responder _ | .claiming _ _ | .reserved _ _ => false

/-- Its observer has been called. -/
def notified : Task → Bool
  | .gone => false
  | .responder r | .claiming r _ | .claimed r _ | .sending r _ _ | .retrying r _ | .fallback r
  | .reserving r _ _ | .reserved r _ => r.observerNotified
  | .lease l | .publishing l _ _ | .published l _ | .activating l _ | .waiting l
  | .cancelling l _ => l.responder.observerNotified

end Task

/-! ### What a step may do -/

/-- Only the owner of the claim sends, and it owns it no more then; only an owner
that has not notified its observer does; ownership comes from the guard. -/
structure Effect.Fair (used : Bool) (k : Task) (e : Effect) : Prop where
  owner : e.task.owns → k.owns ∨ e.claims ∧ used = false
  sent : e.sends ≠ none → k.owns ∧ ¬ e.task.owns
  observed : e.observes ≠ none → k.owns ∧ ¬ k.notified ∧ (e.task.owns → e.task.notified)
  keeps : k.owns → k.notified → e.task.owns → e.task.notified

namespace Effect

variable {used : Bool}

variable {k k' : Task}

lemma fair_of_task (hown : k'.owns → k.owns)
    (hkeeps : k.owns → k.notified → k'.owns → k'.notified) : Fair used k { task := k' } :=
  ⟨fun h => .inl (hown h), fun h => absurd rfl h, fun h => absurd rfl h, hkeeps⟩

lemma fair_gone : Fair used k { task := .gone } := fair_of_task nofun fun _ _ h => nomatch h

lemma fair_self : Fair used k { task := k } := fair_of_task id fun _ h _ => h

lemma fair_of_claim (hk : k.owns = false) :
    Fair used k { task := if used then .gone else k', claims := true } := by
  refine ⟨fun h => ?_, fun h => absurd rfl h, fun h => absurd rfl h, fun h => ?_⟩
  · cases used with
    | true => exact nomatch h
    | false => exact .inr ⟨rfl, rfl⟩
  · rw [hk] at h
    exact nomatch h

lemma fair_of_send {out : Option Outgoing} (hout : out ≠ none → k.owns) (hk' : k'.owns = false) :
    Fair used k { task := k', sends := out } := by
  refine ⟨fun h => ?_, fun h => ⟨hout h, ?_⟩, fun h => absurd rfl h, fun _ _ h => ?_⟩
  · rw [hk'] at h
    exact nomatch h
  · rw [hk']
    exact nofun
  · rw [hk'] at h
    exact nomatch h

lemma fair_of_observe {observer : Option ℕ} (hk : k.owns)
    (hquiet : observer ≠ none → ¬ k.notified) (hnote : observer ≠ none ∨ k.notified → k'.notified) :
    Fair used k { task := k', observes := observer } :=
  ⟨fun _ => .inl hk, fun h => absurd rfl h, fun h => ⟨hk, hquiet h, fun _ => hnote (.inl h)⟩,
    fun _ h _ => hnote (.inr h)⟩

end Effect

namespace AskResponder

variable {r : AskResponder} {len : ℕ}

lemma notNotified_of_notify (h : r.notifyObserver len ≠ none) : ¬ r.observerNotified := by
  intro hnote
  refine h (if_neg fun hboth => ?_)
  rw [hnote] at hboth
  exact nomatch hboth.2

lemma afterNotify_notified (h : r.notifyObserver len ≠ none ∨ r.observerNotified) :
    (r.afterNotify len).observerNotified := by
  unfold afterNotify
  split
  · rfl
  next hnone =>
    refine h.resolve_left fun hsome => hnone ?_
    exact Option.isSome_iff_ne_none.mpr hsome

end AskResponder

namespace ReplyLease

variable {l l' : ReplyLease}

lemma notNotified_of_notify (h : l.notifyObserver ≠ none) : ¬ l.responder.observerNotified := by
  intro hnote
  exact h (if_pos hnote)

lemma afterNotify_notified (h : l.notifyObserver ≠ none ∨ l.responder.observerNotified) :
    l.afterNotify.responder.observerNotified := by
  unfold afterNotify
  split
  · rfl
  next hnone =>
    refine h.resolve_left fun hsome => hnone ?_
    exact Option.isSome_iff_ne_none.mpr hsome

lemma publish_responder {payload : Bytes} {closed : Bool}
    (h : l.publish payload closed = .ok l') : l'.responder = l.responder := by
  unfold publish at h
  split at h
  · cases h
  · split at h
    · cases h
    · split at h
      · cases h
      · split at h
        · cases h
        · cases h
          rfl

lemma activate_ne_none {isOpen : Bool} (h : (l.activate isOpen).1 ≠ none) :
    l.activated = false := by
  cases hact : l.activated with
  | false => rfl
  | true =>
    refine absurd (if_neg fun hboth => ?_) h
    rw [hact] at hboth
    exact nomatch hboth

end ReplyLease

open Effect in
/-- **Every step of a call is fair.** -/
theorem Task.fair_advance (used ok : Bool) (k : Task) : (k.advance used ok).Fair used k := by
  cases k with
  | gone | responder | fallback | lease => exact fair_self
  | claiming | reserved => exact fair_of_claim rfl
  | claimed r call =>
    simp only [Task.advance]
    cases call.response with
    | none => exact fair_gone
    | some =>
      exact fair_of_observe rfl (fun h => AskResponder.notNotified_of_notify h)
        fun h => AskResponder.afterNotify_notified h
  | sending r call =>
    cases ok with
    | true => exact fair_of_send (fun _ => rfl) rfl
    | false =>
      -- only the calls with a fallback keep the claim when the send fails
      cases call with
      | tryReplyBytesWithFallback | tryReplyBytesImmediateWithFallback | replyBytesGuaranteed =>
        exact fair_of_task (fun _ => rfl) fun _ h _ => h
      | reply | replyTyped | tryReplyBytes | tryReplyBytesImmediate => exact fair_gone
  | retrying => exact fair_of_send (fun _ => rfl) rfl
  | reserving r isClaimed =>
    cases ok with
    | false =>
      cases isClaimed with
      | true | false => exact fair_of_task id fun _ h _ => h
    | true =>
      cases isClaimed with
      | true => exact fair_of_task (fun _ => rfl) fun _ h _ => h
      | false => exact fair_of_task nofun fun h => nomatch h
  | publishing l payload =>
    simp only [Task.advance]
    cases hpub : l.publish payload (!ok) with
    | ok l' =>
      refine fair_of_task (fun _ => rfl) fun _ h _ => ?_
      show l'.responder.observerNotified = true
      rw [ReplyLease.publish_responder hpub]
      exact h
    | error e =>
      cases e with
      | connectionClosed => exact fair_gone
      | cancelled | messageTooLarge
      | alreadyExists => exact fair_of_task (fun _ => rfl) fun _ h _ => h
  | published =>
    exact fair_of_observe rfl (fun h => ReplyLease.notNotified_of_notify h)
      fun h => ReplyLease.afterNotify_notified h
  | activating l wait =>
    -- the lease sends only if it was not activated before
    refine fair_of_send (fun h => ?_) ?_
    · show (!l.activated) = true
      rw [ReplyLease.activate_ne_none h]
      rfl
    · cases wait with
      | true | false => rfl
  | waiting => exact fair_gone
  | cancelling l again =>
    refine fair_of_send (fun h => ?_) ?_
    · show (!l.activated) = true
      rw [ReplyLease.activate_ne_none h]
      rfl
    · cases again with
      | true | false => rfl

lemma Task.fair_call {used : Bool} (c : ReplyCall) (k : Task) :
    Fair used k { task := k.call c } := by
  cases k with
  | responder => exact fair_of_task nofun fun h => nomatch h
  | _ => exact fair_self

lemma Task.fair_retry {used : Bool} (response : Bytes) (k : Task) :
    Fair used k { task := k.retry response } := by
  cases k with
  | fallback => exact fair_of_task id fun _ h _ => h
  | _ => exact fair_self

lemma Task.fair_intoLease {used : Bool} (maxReplyBytes : ℕ) (k : Task) :
    Fair used k { task := k.intoLease maxReplyBytes } := by
  cases k with
  | responder => exact fair_of_task nofun fun h => nomatch h
  | fallback => exact fair_of_task id fun _ h _ => h
  | _ => exact fair_self

lemma Task.fair_leaseReply {used : Bool} (payload : Bytes) (wait : Bool) (k : Task) :
    Fair used k { task := k.leaseReply payload wait } := by
  cases k with
  | lease => exact fair_of_task id fun _ h _ => h
  | _ => exact fair_self

lemma Task.fair_drop {used : Bool} (k : Task) : Fair used k { task := k.drop } := by
  cases k with
  | responder | fallback | retrying => exact fair_gone
  | sending r call =>
    simp only [Task.drop]
    cases call.isAsync with
    | true => exact fair_gone
    | false => exact fair_self
  | lease => exact fair_of_task (fun _ => rfl) fun _ h _ => h
  | waiting => exact fair_of_task id fun _ h _ => h
  | _ => exact fair_self

/-! ### One ask -/

structure State where
  /-- the single-use guard -/
  used : Bool
  /-- the observer of the `AskContext`, while the handler runs -/
  context : Option (Option ℕ)
  tasks : ℕ → Task
  /-- accepted from responders, fallbacks and leases -/
  replied : List Outgoing
  /-- accepted from the dispatcher -/
  dispatched : List Outgoing
  /-- the observers called -/
  observed : List ℕ

inductive Event
  /-- `with_reply_observer` -/
  | attach (observer : ℕ)
  /-- `AskContext::responder` -/
  | responder (t : ℕ)
  | clone (t u : ℕ)
  | call (t : ℕ) (c : ReplyCall)
  | retry (t : ℕ) (response : Bytes)
  | intoLease (t maxReplyBytes : ℕ)
  | leaseReply (t : ℕ) (payload : Bytes) (wait : Bool)
  | drop (t : ℕ)
  | advance (t : ℕ) (ok : Bool)
  /-- the handler returns, and the dispatcher writes -/
  | returns (result : Except AskNackReason AskDisposition) (q : LocalQueues)

namespace State

def start : State := ⟨false, some none, fun _ => .gone, [], [], []⟩

/-- Everything the connection's queues took for this ask. -/
def accepted (s : State) : List Outgoing := s.replied ++ s.dispatched

def apply (s : State) (t : ℕ) (e : Effect) : State :=
  { s with
    used := s.used || e.claims
    tasks := Function.update s.tasks t e.task
    replied := s.replied ++ e.sends.toList
    observed := s.observed ++ e.observes.toList }

@[simp] lemma tasks_apply_self (s : State) (t : ℕ) (e : Effect) :
    (s.apply t e).tasks t = e.task := Function.update_self ..

lemma tasks_apply_of_ne (s : State) {t u : ℕ} (h : u ≠ t) (e : Effect) :
    (s.apply t e).tasks u = s.tasks u := Function.update_of_ne h ..

/-- A new responder for an idle task. -/
def mint (s : State) (t : ℕ) (r : AskResponder) : State :=
  match s.tasks t with
  | .gone => s.apply t { task := .responder r }
  | _ => s

def step (s : State) : Event → State
  | .attach observer =>
    { s with context := s.context.map fun _ => some observer }
  | .responder t =>
    match s.context with
    | some observer => s.mint t ⟨observer, false⟩
    | none => s
  | .clone t u =>
    match s.tasks t with
    | .responder r => s.mint u r
    | _ => s
  | .call t c => s.apply t { task := (s.tasks t).call c }
  | .retry t response => s.apply t { task := (s.tasks t).retry response }
  | .intoLease t maxReplyBytes => s.apply t { task := (s.tasks t).intoLease maxReplyBytes }
  | .leaseReply t payload wait => s.apply t { task := (s.tasks t).leaseReply payload wait }
  | .drop t => s.apply t { task := (s.tasks t).drop }
  | .advance t ok => s.apply t ((s.tasks t).advance s.used ok)
  | .returns result q =>
    match s.context with
    | some _ =>
      { s with
        context := none
        dispatched := (writeAskDisposition q (dispositionOf result)).toList }
    | none => s

/-- The single-use guard does its work. -/
structure Guarded (s : State) : Prop where
  exclusive : ∀ t u, (s.tasks t).owns → (s.tasks u).owns → t = u
  unclaimed : s.used = false → s.replied = [] ∧ s.observed = [] ∧ ∀ t, ¬ (s.tasks t).owns
  pending : ∀ t, (s.tasks t).owns → s.replied = []
  quiet : ∀ t, (s.tasks t).owns → ¬ (s.tasks t).notified → s.observed = []
  repliedOnce : s.replied.length ≤ 1
  observedOnce : s.observed.length ≤ 1

lemma guarded_start : Guarded start :=
  ⟨fun _ _ h => (nomatch h), fun _ => ⟨rfl, rfl, fun _ h => nomatch h⟩, fun _ h => (nomatch h),
    fun _ h => (nomatch h), Nat.zero_le _, Nat.zero_le _⟩

section Apply

variable {s : State} {t : ℕ} {e : Effect}

variable {u : ℕ}

lemma owns_apply (h : ((s.apply t e).tasks u).owns) :
    u = t ∧ e.task.owns ∨ u ≠ t ∧ (s.tasks u).owns := by
  by_cases hut : u = t
  · subst hut
    refine .inl ⟨rfl, ?_⟩
    rw [tasks_apply_self] at h
    exact h
  · refine .inr ⟨hut, ?_⟩
    rw [tasks_apply_of_ne s hut] at h
    exact h

section

variable (hs : Guarded s) (he : e.Fair s.used (s.tasks t))
include hs he

lemma Guarded.alone (hut : u ≠ t) (hu : (s.tasks u).owns) : ¬ e.task.owns := by
  intro htask
  cases he.owner htask with
  | inl hown => exact hut (hs.exclusive u t hu hown)
  | inr hclaim => exact (hs.unclaimed hclaim.2).2.2 u hu

section

variable (hu : ((s.apply t e).tasks u).owns)
include hu

lemma Guarded.sends_eq_none : e.sends = none := by
  by_contra hsends
  obtain ⟨hown, htask⟩ := he.sent hsends
  cases owns_apply hu with
  | inl h => exact htask h.2
  | inr h => exact h.1 (hs.exclusive u t h.2 hown)

lemma Guarded.replied_eq_nil : s.replied = [] := by
  cases owns_apply hu with
  | inl h =>
    cases he.owner h.2 with
    | inl hown => exact hs.pending t hown
    | inr hclaim => exact (hs.unclaimed hclaim.2).1
  | inr h => exact hs.pending u h.2

lemma Guarded.observed_eq_nil (hn : ¬ ((s.apply t e).tasks u).notified) :
    s.observed = [] ∧ e.observes = none := by
  cases owns_apply hu with
  | inl h =>
    obtain ⟨rfl, htask⟩ := h
    have hquiet : ¬ e.task.notified := by
      rw [tasks_apply_self] at hn
      exact hn
    have hobserves : e.observes = none := by
      by_contra hobs
      exact hquiet ((he.observed hobs).2.2 htask)
    cases he.owner htask with
    | inl hown =>
      exact ⟨hs.quiet _ hown fun hnot => hquiet (he.keeps hown hnot htask), hobserves⟩
    | inr hclaim => exact ⟨(hs.unclaimed hclaim.2).2.1, hobserves⟩
  | inr h =>
    obtain ⟨hut, hown⟩ := h
    rw [tasks_apply_of_ne s hut] at hn
    refine ⟨hs.quiet u hown hn, ?_⟩
    by_contra hobs
    exact hut (hs.exclusive u t hown (he.observed hobs).1)

end

lemma Guarded.apply : Guarded (s.apply t e) := by
  refine ⟨?_, ?_, ?_, ?_, ?_, ?_⟩
  · -- two owners: at most one of them became one by this step
    intro u v hu hv
    cases owns_apply hu with
    | inl hu' =>
      cases owns_apply hv with
      | inl hv' => rw [hu'.1, hv'.1]
      | inr hv' => exact absurd hu'.2 (hs.alone he hv'.1 hv'.2)
    | inr hu' =>
      cases owns_apply hv with
      | inl hv' => exact absurd hv'.2 (hs.alone he hu'.1 hu'.2)
      | inr hv' => exact hs.exclusive u v hu'.2 hv'.2
  · -- the guard is still free: this step neither claimed nor was an owner's
    intro hused
    obtain ⟨hfree, hclaims⟩ := Bool.or_eq_false_iff.mp hused
    obtain ⟨hreplied, hobserved, hnone⟩ := hs.unclaimed hfree
    have hsends : e.sends = none := by
      by_contra h
      exact hnone t (he.sent h).1
    have hobs : e.observes = none := by
      by_contra h
      exact hnone t (he.observed h).1
    refine ⟨?_, ?_, fun u hu => ?_⟩
    · show s.replied ++ e.sends.toList = []
      rw [hreplied, hsends]
      rfl
    · show s.observed ++ e.observes.toList = []
      rw [hobserved, hobs]
      rfl
    · cases owns_apply hu with
      | inl h =>
        cases he.owner h.2 with
        | inl hown => exact hnone t hown
        | inr hclaim => rw [hclaims] at hclaim; exact nomatch hclaim.1
      | inr h => exact hnone u h.2
  · intro u hu
    show s.replied ++ e.sends.toList = []
    rw [hs.replied_eq_nil he hu, hs.sends_eq_none he hu]
    rfl
  · intro u hu hn
    obtain ⟨hobserved, hobs⟩ := hs.observed_eq_nil he hu hn
    show s.observed ++ e.observes.toList = []
    rw [hobserved, hobs]
    rfl
  · -- what is sent is sent by the owner, and nothing was before
    show (s.replied ++ e.sends.toList).length ≤ 1
    cases hsends : e.sends with
    | none => simpa using hs.repliedOnce
    | some =>
      have hown := (he.sent (by rw [hsends]; exact nofun)).1
      rw [hs.pending t hown]
      exact le_rfl
  · show (s.observed ++ e.observes.toList).length ≤ 1
    cases hobs : e.observes with
    | none => simpa using hs.observedOnce
    | some =>
      obtain ⟨hown, hquiet, -⟩ := he.observed (by rw [hobs]; exact nofun)
      rw [hs.quiet t hown hquiet]
      exact le_rfl

end

lemma Guarded.mint (hs : Guarded s) (r : AskResponder) : Guarded (s.mint t r) := by
  unfold State.mint
  split
  next hgone =>
    refine hs.apply ?_
    rw [hgone]
    exact fair_of_task nofun fun h => nomatch h
  · exact hs

end Apply

lemma Guarded.step {s : State} (hs : Guarded s) (ev : Event) : Guarded (s.step ev) := by
  cases ev with
  | attach => exact ⟨hs.1, hs.2, hs.3, hs.4, hs.5, hs.6⟩
  | responder | clone =>
    simp only [State.step]
    split
    · exact hs.mint _
    · exact hs
  | call t c => exact hs.apply (Task.fair_call c _)
  | retry t response => exact hs.apply (Task.fair_retry response _)
  | intoLease t maxReplyBytes => exact hs.apply (Task.fair_intoLease maxReplyBytes _)
  | leaseReply t payload wait => exact hs.apply (Task.fair_leaseReply payload wait _)
  | drop => exact hs.apply (Task.fair_drop _)
  | advance t ok => exact hs.apply (Task.fair_advance s.used ok _)
  | returns =>
    simp only [State.step]
    split
    · exact ⟨hs.1, hs.2, hs.3, hs.4, hs.5, hs.6⟩
    · exact hs

/-! ### The dispatcher -/

/-- The step does not answer the ask twice: a handler that returns anything but
`Deferred` has no responder that claimed, and no responder claims after that. -/
def Undoubled (s : State) : Event → Prop
  | .returns result _ => dispositionOf result = .deferred ∨ s.used = false
  | .advance t ok => ((s.tasks t).advance s.used ok).claims → s.dispatched = []
  | _ => True

instance (s : State) (ev : Event) : Decidable (Undoubled s ev) := by
  cases ev <;> unfold Undoubled <;> infer_instance

/-- The dispatcher has queued nothing, or nobody has claimed; it queues one entry
at most. -/
structure Dispatched (s : State) : Prop where
  free : s.dispatched = [] ∨ s.used = false
  once : s.dispatched.length ≤ 1

lemma Dispatched.apply {s : State} (hs : Dispatched s) {t : ℕ} {e : Effect}
    (he : e.claims → s.dispatched = []) : Dispatched (s.apply t e) := by
  refine ⟨?_, hs.once⟩
  cases hclaims : e.claims with
  | true => exact .inl (he hclaims)
  | false =>
    refine hs.free.imp_right fun hused => ?_
    show (s.used || e.claims) = false
    rw [hused, hclaims]
    rfl

lemma Dispatched.mint {s : State} (hs : Dispatched s) (t : ℕ) (r : AskResponder) :
    Dispatched (s.mint t r) := by
  unfold State.mint
  split
  · exact hs.apply fun h => nomatch h
  · exact hs

lemma Dispatched.step {s : State} (hs : Dispatched s) {ev : Event} (hev : Undoubled s ev) :
    Dispatched (s.step ev) := by
  cases ev with
  | attach => exact ⟨hs.1, hs.2⟩
  | responder | clone =>
    simp only [State.step]
    split
    · exact hs.mint _ _
    · exact hs
  | advance => exact hs.apply hev
  | returns result q =>
    simp only [State.step]
    split
    · refine ⟨?_, ?_⟩
      · refine hev.imp_left fun hdeferred => ?_
        rw [hdeferred]
        rfl
      · show (writeAskDisposition q (dispositionOf result)).toList.length ≤ 1
        cases writeAskDisposition q (dispositionOf result) with
        | none => exact Nat.zero_le _
        | some => exact le_rfl
    · exact hs
  | call | retry | intoLease | leaseReply | drop => exact hs.apply fun h => nomatch h

lemma accepted_length_le {s : State} (hg : Guarded s) (hd : Dispatched s) :
    s.accepted.length ≤ 1 := by
  rw [accepted, List.length_append]
  cases hd.free with
  | inl hnone =>
    rw [hnone]
    exact hg.repliedOnce
  | inr hfree =>
    rw [(hg.unclaimed hfree).1, List.length_nil, Nat.zero_add]
    exact hd.once

end State

lemma guarded_exec (es : List Event) : State.Guarded (Run.exec State.step State.start es) :=
  Run.exec_invariant (P := State.Guarded) (fun _ ev hs => hs.step ev) State.guarded_start es

/-- **One reply for each ask**, in every run in which the handler does not both
return an answer and have a responder claim.  The observer is called once at
most in every run. -/
theorem one_reply_per_ask (es : List Event) :
    (Run.exec State.step State.start es).observed.length ≤ 1 ∧
      (Run.Meets State.step State.Undoubled State.start es →
        (Run.exec State.step State.start es).accepted.length ≤ 1) := by
  refine ⟨(guarded_exec es).observedOnce, fun hes => ?_⟩
  have hd : State.Dispatched (Run.exec State.step State.start es) :=
    Run.exec_invariant_of_meets (P := State.Dispatched) (fun _ _ hs hev => hs.step hev)
      ⟨.inl rfl, Nat.zero_le _⟩ hes
  exact State.accepted_length_le (guarded_exec es) hd

/-- A handler that replies through a responder and defers, with two observers
attached one after the other. -/
theorem one_reply_per_ask_deferred : (Run.exec State.step State.start
    [.attach 7, .attach 8, .responder 0, .clone 0 1, .call 0 (.tryReplyBytesWithFallback [1]),
      .advance 0 true, .advance 0 true, .advance 0 false, .call 1 (.reply [2]),
      .advance 1 true, .intoLease 0 16, .advance 0 true, .leaseReply 0 [1] false,
      .advance 0 true, .advance 0 true, .advance 0 true,
      .returns (.ok .deferred) ⟨1024, true, true, true⟩]).accepted.length ≤ 1 :=
  (one_reply_per_ask _).2 (by decide)

/-- The handler replies through a responder and returns bytes as well. -/
theorem handler_and_responder_reply :
    ¬ ∀ es : List Event, (Run.exec State.step State.start es).accepted.length ≤ 1 := by
  intro h
  have htwo := h [.responder 0, .call 0 (.tryReplyBytes [1]), .advance 0 true, .advance 0 true,
    .advance 0 true, .returns (.ok (.immediateBytes [2])) ⟨1024, true, true, true⟩]
  exact absurd htwo (by decide)

/-- **Responders reply once**, whatever the handler returns. -/
theorem responders_reply_once (es : List Event) : let s := Run.exec State.step State.start es
    s.replied.length ≤ 1 ∧ ∀ t u, (s.tasks t).owns → (s.tasks u).owns → t = u :=
  ⟨(guarded_exec es).repliedOnce, (guarded_exec es).exclusive⟩

end AskReplies

end IcanactRemote
