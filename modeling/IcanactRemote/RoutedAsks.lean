/-
Compact routed asks over one connection (`write_routed_actor_ask`).

A call takes the connection's `route_bind_gate`, looks its key up in the
outbound table, puts a `RouteBind` for a new slot on the write queue, then its
`RoutedActorAsk`, and gives the gate back.  It may be dropped at every await
point, and each enqueue may find the queue full or closing.  The receiver takes
the frames off the queue in order.

The steps of `RouteConnection.step` are the atomic ones: taking the gate, the
lookup, passing the queue's admission guard, appending, reading the closed
flag back, and the drop of a call that is parked.  What else can fail between
them is chosen by the event.

-/
import IcanactRemote.RouteTable
import IcanactRemote.WireFormat

namespace IcanactRemote

/-! ### The connection -/

inductive RouteFrame
  | routeBind (slot : UInt32) (key : RouteKey)
  | routedActorAsk (correlationId slot : UInt32)
  | actorAsk (correlationId : UInt32) (key : RouteKey) (requestId : Option UInt64)
  deriving DecidableEq, Repr

/-- How far the enqueue of a frame got. -/
inductive PushStage
  | start
  /-- the queue was full: waiting for space -/
  | parked
  /-- past the admission guard, in `try_push` or, after a wait, in `push` -/
  | admitted (waited : Bool)
  /-- on the queue, before the closed flag is read back -/
  | appended (waited : Bool)
  deriving DecidableEq, Repr

/-- The frame a call is about to enqueue. -/
inductive Sending
  | bind (slot : UInt32)
  | ask (slot : UInt32)
  | uncompact
  deriving DecidableEq, Repr

inductive AskStage
  /-- waiting for the connection to be identified, or for the gate -/
  | waiting
  /-- holds the gate, before the lookup -/
  | locked
  | sending (what : Sending) (push : PushStage)
  | returned (ok : Bool)
  | dropped
  deriving DecidableEq, Repr

structure AskCall where
  key : RouteKey
  correlationId : UInt32
  payloadLen : ℕ
  requestId : Option UInt64
  stage : AskStage
  deriving DecidableEq, Repr

def AskCall.frame (c : AskCall) : Sending → RouteFrame
  | .bind slot => .routeBind slot c.key
  | .ask slot => .routedActorAsk c.correlationId slot
  | .uncompact => .actorAsk c.correlationId c.key c.requestId

/-- A frame on the queue, with the key its sender passed. -/
structure SentFrame where
  frame : RouteFrame
  key : RouteKey
  deriving DecidableEq, Repr

/-- What the receiver made of a frame. -/
inductive ReceiveOutcome
  | bindRefused
  | bound
  | unknownSlot
  | resolved (key : RouteKey)
  deriving DecidableEq, Repr

structure RouteConnection where
  maxMessageSize : ℕ
  outbound : RouteTable
  gate : Option ℕ
  /-- the closed bit of the queue's admission state -/
  closing : Bool
  /-- the queue's closed flag, stored after the bit -/
  closed : Bool
  calls : ℕ → Option AskCall
  queue : List SentFrame
  inbound : RouteTable
  received : List (SentFrame × ReceiveOutcome)
  /-- every slot the outbound table has handed out, with its key -/
  issued : List (UInt32 × RouteKey)

inductive RouteEvent
  | begin (id : ℕ) (key : RouteKey) (correlationId : UInt32) (payloadLen : ℕ)
      (requestId : Option UInt64)
  | identifyFailed (id : ℕ)
  | proceed (id : ℕ)
  | lookup (id : ℕ)
  | flagged (id : ℕ)
  | enqueue (id : ℕ)
  | push (id : ℕ) (full : Bool)
  | confirm (id : ℕ)
  | wokenClosed (id : ℕ)
  | cancel (id : ℕ)
  | close
  | markClosed
  | deliver
  deriving DecidableEq, Repr

namespace RouteConnection

def start (maxMessageSize maxRoutes : ℕ) : RouteConnection :=
  { maxMessageSize, outbound := .withLimit maxRoutes, gate := none, closing := false,
    closed := false, calls := fun _ => none, queue := [], inbound := .withLimit maxRoutes,
    received := [], issued := [] }

def setStage (s : RouteConnection) (id : ℕ) (c : AskCall) (stage : AskStage) : RouteConnection :=
  { s with calls := Function.update s.calls id (some { c with stage }) }

/-- The call ends: its locals drop, the gate last. -/
def finish (s : RouteConnection) (id : ℕ) (c : AskCall) (stage : AskStage) : RouteConnection :=
  { s.setStage id c stage with gate := if s.gate = some id then none else s.gate }

/-- An armed `UnboundRouteGuard` rolls the allocation back. -/
def rollback (s : RouteConnection) (c : AskCall) : Sending → RouteConnection
  | .bind slot => { s with outbound := s.outbound.removeUnbound slot c.key }
  | _ => s

/-- The enqueue returned an error. -/
def fail (s : RouteConnection) (id : ℕ) (c : AskCall) (what : Sending) : RouteConnection :=
  (s.rollback c what).finish id c (.returned false)

/-- Go on to the compact ask, unless its header cannot be built. -/
def sendAsk (s : RouteConnection) (id : ℕ) (c : AskCall) (slot : UInt32) : RouteConnection :=
  match tryWriteRoutedActorAskHeader c.correlationId slot c.payloadLen with
  | .ok _ => s.setStage id c (.sending (.ask slot) .start)
  | .error _ => s.finish id c (.returned false)

/-- Go on to the uncompact ask, unless it is too large. -/
def sendUncompact (s : RouteConnection) (id : ℕ) (c : AskCall) : RouteConnection :=
  match rejectOversizeForInlineSend actorAskHeaderLen c.payloadLen s.maxMessageSize with
  | .error _ => s.finish id c (.returned false)
  | .ok () =>
    match tryWriteActorAskHeaderWithRequestId c.correlationId c.key.actorId c.key.typeHash
        c.payloadLen c.requestId with
    | .ok _ => s.setStage id c (.sending .uncompact .start)
    | .error _ => s.finish id c (.returned false)

/-- `slot_for`, under the gate. -/
def lookup (s : RouteConnection) (id : ℕ) (c : AskCall) : RouteConnection :=
  match s.outbound.slotFor c.key with
  | (none, _) => s.sendUncompact id c
  | (some (slot, false), _) => s.sendAsk id c slot
  | (some (slot, true), outbound) =>
    { s with outbound, issued := s.issued ++ [(slot, c.key)] }.setStage id c
      (.sending (.bind slot) .start)

/-- The enqueue returned `Ok`. -/
def succeed (s : RouteConnection) (id : ℕ) (c : AskCall) : Sending → RouteConnection
  | .bind slot => s.sendAsk id c slot
  | _ => s.finish id c (.returned true)

/-- The size check before anything else, with the smaller of the two headers
unless the call carries a request id. -/
def admits (s : RouteConnection) (payloadLen : ℕ) (requestId : Option UInt64) : Bool :=
  match requestId with
  | none => (rejectOversizeForInlineSend routedActorAskHeaderLen payloadLen s.maxMessageSize).isOk
  | some r =>
    r ≠ 0 && (rejectOversizeForInlineSend actorAskHeaderLen payloadLen s.maxMessageSize).isOk

/-- The receiver takes one frame: `RouteTable::bind` and `resolve`. -/
def receive (inbound : RouteTable) : RouteFrame → ReceiveOutcome × RouteTable
  | .routeBind slot key =>
    match inbound.bind slot key with
    | (true, inbound) => (.bound, inbound)
    | (false, inbound) => (.bindRefused, inbound)
  | .routedActorAsk _ slot =>
    match inbound.resolve slot with
    | some key => (.resolved key, inbound)
    | none => (.unknownSlot, inbound)
  | .actorAsk _ key _ => (.resolved key, inbound)

def step (s : RouteConnection) : RouteEvent → RouteConnection
  | .begin id key correlationId payloadLen requestId =>
    match s.calls id with
    | some _ => s
    | none =>
      let c : AskCall := ⟨key, correlationId, payloadLen, requestId, .waiting⟩
      if s.admits payloadLen requestId then s.setStage id c .waiting
      else s.setStage id c (.returned false)
  | .identifyFailed id =>
    match s.calls id with
    | some c => if c.stage = .waiting then s.finish id c (.returned false) else s
    | none => s
  | .proceed id =>
    match s.calls id with
    | some c =>
      if c.stage = .waiting then
        -- a marked ask bypasses the gate
        if c.requestId.isSome then s.sendUncompact id c
        else if s.gate = none then { s with gate := some id }.setStage id c .locked
        else s
      else s
    | none => s
  | .lookup id =>
    match s.calls id with
    | some c => if c.stage = .locked then s.lookup id c else s
    | none => s
  | .flagged id =>
    -- `exit_flag` or `shutdown_signal` is set
    match s.calls id with
    | some c =>
      match c.stage with
      | .sending what .start => s.fail id c what
      | _ => s
    | none => s
  | .enqueue id =>
    match s.calls id with
    | some c =>
      match c.stage with
      | .sending what .start =>
        if s.closing then s.fail id c what
        else s.setStage id c (.sending what (.admitted false))
      | .sending what .parked =>
        if s.closing then s.fail id c what
        else s.setStage id c (.sending what (.admitted true))
      | _ => s
    | none => s
  | .push id full =>
    match s.calls id with
    | some c =>
      match c.stage with
      | .sending what (.admitted waited) =>
        if full then
          if !waited && s.closing then s.fail id c what
          else s.setStage id c (.sending what .parked)
        else
          { s with queue := s.queue ++ [(⟨c.frame what, c.key⟩ : SentFrame)] }.setStage id c
            (.sending what (.appended waited))
      | _ => s
    | none => s
  | .confirm id =>
    match s.calls id with
    | some c =>
      match c.stage with
      | .sending what (.appended waited) =>
        -- `try_push` reads the closed bit back, `push` the closed flag
        if (if waited then s.closed else s.closing) then s.fail id c what
        else s.succeed id c what
      | _ => s
    | none => s
  | .wokenClosed id =>
    match s.calls id with
    | some c =>
      match c.stage with
      | .sending what .parked => if s.closed then s.fail id c what else s
      | _ => s
    | none => s
  | .cancel id =>
    match s.calls id with
    | some c =>
      match c.stage with
      | .waiting => s.finish id c .dropped
      | .sending what .parked => (s.rollback c what).finish id c .dropped
      | _ => s
    | none => s
  | .close => { s with closing := true }
  | .markClosed => if s.closing then { s with closed := true } else s
  | .deliver =>
    match s.queue with
    | [] => s
    | f :: rest =>
      match receive s.inbound f.frame with
      | (outcome, inbound) =>
        { s with queue := rest, inbound, received := s.received ++ [(f, outcome)] }

end RouteConnection

end IcanactRemote
