/-
The frame reader of a connection (`read_message_step_poll`).

The reader is a machine of five states: it collects the control word, the body
of an inline frame, the metadata of a stream frame, the payload of a stream
frame, which goes straight into the buffer of its stream, or it throws a payload
away.  Each call reads at most once from the transport, and what it gets may be
any part of what it asked for.

A `Connection` is a reader with the rest of its incoming bytes, cut into the
pieces in which the transport hands them over, and a log of what was read.
-/
import IcanactRemote.StreamingState

namespace IcanactRemote

/-! ### The transport -/

/-- One answer of the transport.  A read of no bytes is the end of the stream,
so a piece of data has at least one. -/
inductive Segment
  | pending
  | data (head : Fin 256) (tail : Bytes)
  | failed (code : ℕ)
  deriving DecidableEq, Repr

def Segment.bytes : Segment → Bytes
  | .data head tail => head :: tail
  | _ => []

/-- The bytes that are still to come. -/
def inboxBytes (inbox : List Segment) : Bytes := inbox.flatMap Segment.bytes

inductive IoRead
  | pending
  | ready (bytes : Bytes)
  | failed (code : ℕ)
  deriving DecidableEq, Repr

/-- `poll_read_once` into a target of `target` bytes. -/
def pollReadOnce (inbox : List Segment) (target : ℕ) : IoRead × List Segment :=
  match inbox with
  | [] => (.ready [], [])
  | .pending :: rest => (.pending, rest)
  | .failed code :: rest => (.failed code, rest)
  | .data head tail :: rest =>
    match target with
    | 0 => (.ready [], .data head tail :: rest)
    | n + 1 =>
      (.ready (head :: tail.take n),
        match tail.drop n with
        | [] => rest
        | b :: bs => .data b bs :: rest)

/-! ### Stream metadata -/

def streamMetaLen : WireKind → Option ℕ
  | .streamStart => some streamRequestStartHeaderLen
  | .streamResponseStart => some streamResponseStartHeaderLen
  | .streamData | .streamResponseData => some streamDataHeaderLen
  | _ => none

/-- The result a completed stream is delivered as. -/
def completedV5StreamResult {α : Type} (completed : CompletedV5Stream) : MessageReadResult α :=
  if completed.isResponse then .response completed.correlationId completed.payload
  else
    .actor (if completed.correlationId = 0 then .actorTell else .actorAsk)
      completed.correlationId completed.actorId completed.typeHash none completed.payload

/-- The header and correlation id of a start frame. -/
def readStartMeta (kind : WireKind) (metadata : Bytes) (payloadLen : ℕ) :
    Except Stop (StreamHeader × UInt32) := do
  let streamId ← readU32 metadata 0
  let correlationId ← readU32 metadata 4
  let totalSize ← readU32 metadata 8
  match kind with
  | .streamStart => do
    let actorId ← readU64 metadata 12
    let typeHash ← readU32 metadata 20
    return (⟨streamId.toNat, totalSize.toNat, payloadLen % 2 ^ 32, 0, typeHash, actorId⟩,
      correlationId)
  | _ => return (⟨streamId.toNat, totalSize.toNat, payloadLen % 2 ^ 32, 0, 0, 0⟩, correlationId)

/-- The stream id and chunk index of a data frame. -/
def readDataMeta (metadata : Bytes) : Except Stop (ℕ × ℕ) := do
  let streamId ← readU32 metadata 0
  let chunkIndex ← readU32 metadata 4
  return (streamId.toNat, chunkIndex.toNat)

def reserveV5StreamPayload (kind : WireKind) (bodyLen : ℕ) (metadata : Bytes)
    (streaming : StreamingState) (clock : ℕ → Instant) :
    Except Stop (Option StreamChunkReservation) × StreamingState :=
  match streamMetaLen kind with
  | none => (.error .fault, streaming)
  | some metaLen =>
    if bodyLen < metaLen then
      (.error (StreamingState.networkError .truncatedStreamMetadata), streaming)
    else
      let payloadLen := bodyLen - metaLen
      match kind with
      | .streamStart | .streamResponseStart =>
        match readStartMeta kind metadata payloadLen with
        | .error e => (.error e, streaming)
        | .ok (header, correlationId) =>
          streaming.beginV5StreamOrDiscard clock header correlationId
            (kind = .streamResponseStart) payloadLen
      | .streamData | .streamResponseData =>
        match readDataMeta metadata with
        | .error e => (.error e, streaming)
        | .ok (streamId, chunkIndex) =>
          streaming.reserveV5ChunkOrDiscard streamId chunkIndex payloadLen
      | _ => (.error .fault, streaming)

/-! ### The reader -/

/-- Buffers hold the bytes read so far. -/
inductive ReadState
  | readLen (buf : Bytes)
  | readBody (buf : Bytes) (msgLen : ℕ) (body : Bytes)
  | readStreamMeta (kind : WireKind) (bodyLen : ℕ) (metadata : Bytes) (metaLen : ℕ)
  | readStreamPayload (reservation : StreamChunkReservation) (read : ℕ)
  | discardStreamPayload (remaining : ℕ) (onCompleteMarkReceived : Option (ℕ × ℕ))
  deriving DecidableEq, Repr

def ReadState.new : ReadState := .readLen []

/-- The scratch buffer of a discard. -/
def scratchLen : ℕ := 8192

structure ReadContext (α : Type) where
  decodeRegistryMessage : Bytes → Option α
  maxMessageSize : ℕ

structure Reader where
  state : ReadState
  streaming : StreamingState
  routes : RouteTable

structure ReadPollResult (α : Type) where
  result : Option (MessageReadResult α)
  /-- the stream this result delivers, if it is one -/
  completed : Option CompletedV5Stream
  progressed : Bool

/-- What one poll of the future returns: nothing while it is pending. -/
abbrev PollOutcome (α : Type) := Except Stop (Option (ReadPollResult α))

namespace Reader

variable {α : Type}

def progress : PollOutcome α := .ok (some ⟨none, none, true⟩)

def noProgress : PollOutcome α := .ok (some ⟨none, none, false⟩)

def eofInLengthPrefix (prefixBytesRead : ℕ) : NetworkError :=
  if prefixBytesRead = 0 then .orderlyPeerClose else .connectionClosed

/-- The state for the payload of a stream frame. -/
def streamPayloadState (reservation : Option StreamChunkReservation) (bodyLen metaLen : ℕ) :
    Except Stop ReadState :=
  match reservation with
  | some r => if r.len = 0 then .ok .new else .ok (.readStreamPayload r 0)
  | none => (subLen bodyLen metaLen).map fun remaining => .discardStreamPayload remaining none

def discardRemainderOfReservation (r : StreamChunkReservation) (read : ℕ) :
    Except Stop ReadState :=
  (subLen r.len read).map fun remaining =>
    .discardStreamPayload remaining (some (r.streamId, r.chunkIndex))

def finishDiscardingReservation (streaming : StreamingState) (mark : Option (ℕ × ℕ)) :
    Except Stop Unit × StreamingState :=
  match mark with
  | some (streamId, chunkIndex) => streaming.markReapDiscardedChunkReceived streamId chunkIndex
  | none => (.ok (), streaming)

/-- The bytes of the control word so far. -/
def gotPrefix (ctx : ReadContext α) (r : Reader) (buf : Bytes) : PollOutcome α × Reader :=
  if buf.length < lengthPrefixLen then (progress, { r with state := .readLen buf })
  else
    match decodeControl buf with
    | none => (.error (StreamingState.networkError .unknownV5WireKind), r)
    | some control =>
      if control.bodyLen = 0 then (.error (StreamingState.networkError .zeroLengthFrame), r)
      else if control.bodyLen > ctx.maxMessageSize then
        (.error (.error (.messageTooLarge control.bodyLen ctx.maxMessageSize)), r)
      else
        match streamMetaLen control.kind with
        | some metaLen =>
          if control.bodyLen < metaLen then
            (.error (StreamingState.networkError .truncatedStreamMetadata), r)
          else
            (progress, { r with state := .readStreamMeta control.kind control.bodyLen [] metaLen })
        | none => (progress, { r with state := .readBody buf control.bodyLen [] })

/-- The bytes of the body so far. -/
def gotBody (ctx : ReadContext α) (r : Reader) (buf : Bytes) (msgLen : ℕ) (body : Bytes) :
    PollOutcome α × Reader :=
  if body.length < msgLen then (progress, { r with state := .readBody buf msgLen body })
  else
    let r := { r with state := .new }
    match parseMessage ctx.decodeRegistryMessage (buf ++ body) msgLen (some r.routes) with
    | .error e => (.error e, r)
    | .ok (result, routes) =>
      (.ok (some ⟨some result, none, true⟩), { r with routes := routes.getD r.routes })

/-- The bytes of the metadata so far. -/
def gotMeta (r : Reader) (clock : ℕ → Instant) (kind : WireKind) (bodyLen : ℕ) (metadata : Bytes)
    (metaLen : ℕ) : PollOutcome α × Reader :=
  if metadata.length < metaLen then
    (progress, { r with state := .readStreamMeta kind bodyLen metadata metaLen })
  else
    match reserveV5StreamPayload kind bodyLen metadata r.streaming clock with
    | (.error e, streaming) => (.error e, { r with streaming })
    | (.ok reservation, streaming) =>
      match streamPayloadState reservation bodyLen metaLen with
      | .error e => (.error e, { r with streaming })
      | .ok state => (progress, { r with state, streaming })

/-- New bytes of the payload, which the transport wrote into the stream's buffer. -/
def gotPayload (r : Reader) (clock : ℕ → Instant) (reservation : StreamChunkReservation)
    (read : ℕ) (bytes : Bytes) : PollOutcome α × Reader :=
  let streaming := (r.streaming.fillTarget reservation read bytes).recordV5ChunkProgress (clock 0)
    reservation bytes.length
  let read := read + bytes.length
  if read < reservation.len then
    (progress, { r with state := .readStreamPayload reservation read, streaming })
  else
    match streaming.commitV5Chunk (clock 1) reservation with
    | (.error e, streaming) => (.error e, { r with state := .new, streaming })
    | (.ok completed, streaming) =>
      (.ok (some ⟨completed.map completedV5StreamResult, completed, true⟩),
        { r with state := .new, streaming })

def finishDiscard (r : Reader) (mark : Option (ℕ × ℕ)) : PollOutcome α × Reader :=
  match finishDiscardingReservation r.streaming mark with
  | (.error e, streaming) => (.error e, { r with streaming })
  | (.ok (), streaming) => (progress, { r with state := .new, streaming })

/-- New bytes of a payload that is thrown away. -/
def gotDiscard (r : Reader) (remaining : ℕ) (mark : Option (ℕ × ℕ)) (bytes : Bytes) :
    PollOutcome α × Reader :=
  match subLen remaining bytes.length with
  | .error e => (.error e, r)
  | .ok remaining =>
    if remaining = 0 then
      { r with state := .discardStreamPayload remaining mark }.finishDiscard mark
    else (progress, { r with state := .discardStreamPayload remaining mark })

/-- One read from the transport: what comes of it is given to `got`. -/
def readInto (r : Reader) (inbox : List Segment) (blockOnPending : Bool) (target : ℕ)
    (eof : NetworkError) (got : Bytes → PollOutcome α × Reader) :
    PollOutcome α × Reader × List Segment :=
  match pollReadOnce inbox target with
  | (.pending, inbox) => (if blockOnPending then .ok none else noProgress, r, inbox)
  | (.failed code, inbox) => (.error (StreamingState.networkError (.transport code)), r, inbox)
  | (.ready [], inbox) => (.error (StreamingState.networkError eof), r, inbox)
  | (.ready bytes, inbox) => ((got bytes).1, (got bytes).2, inbox)

/-- One poll of `read_message_step_poll`. -/
def readMessageStepPoll (ctx : ReadContext α) (clock : ℕ → Instant) (blockOnPending : Bool)
    (r : Reader) (inbox : List Segment) : PollOutcome α × Reader × List Segment :=
  match r.state with
  | .readLen buf =>
    match subLen lengthPrefixLen buf.length with
    | .error e => (.error e, r, inbox)
    | .ok target =>
      if target = 0 then (noProgress, r, inbox)
      else
        r.readInto inbox blockOnPending target (eofInLengthPrefix buf.length)
          fun bytes => r.gotPrefix ctx (buf ++ bytes)
  | .readBody buf msgLen body =>
    match subLen msgLen body.length with
    | .error e => (.error e, r, inbox)
    | .ok target =>
      if target = 0 then (noProgress, r, inbox)
      else
        r.readInto inbox blockOnPending target .connectionClosed
          fun bytes => r.gotBody ctx buf msgLen (body ++ bytes)
  | .readStreamMeta kind bodyLen metadata metaLen =>
    -- the metadata array has room for the longest of the headers
    match subLen metaLen metadata.length,
      subLen streamRequestStartHeaderLen metaLen with
    | .ok target, .ok _ =>
      r.readInto inbox blockOnPending target .closedDuringStreamMetadata
        fun bytes => r.gotMeta clock kind bodyLen (metadata ++ bytes) metaLen
    | _, _ => (.error .fault, r, inbox)
  | .readStreamPayload reservation read =>
    match r.streaming.v5ChunkTarget reservation read with
    | .error (.error (.network .streamReaped)) =>
      match discardRemainderOfReservation reservation read with
      | .error e => (.error e, r, inbox)
      | .ok state => (progress, { r with state }, inbox)
    | .error e => (.error e, r, inbox)
    | .ok target =>
      r.readInto inbox blockOnPending target .closedDuringStreamPayload
        fun bytes => r.gotPayload clock reservation read bytes
  | .discardStreamPayload remaining mark =>
    let readLen := min remaining scratchLen
    if readLen = 0 then
      let (outcome, r) := r.finishDiscard mark
      (outcome, r, inbox)
    else
      r.readInto inbox blockOnPending readLen .closedWhileDiscarding
        fun bytes => r.gotDiscard remaining mark bytes

end Reader

/-! ### A connection -/

structure Connection (α : Type) where
  reader : Reader
  inbox : List Segment
  results : List (MessageReadResult α)
  delivered : List CompletedV5Stream
  stopped : Option Stop

inductive ConnectionEvent
  | poll (blockOnPending : Bool) (clock : ℕ → Instant)
  | cleanup (idleTimeout rateWindow minBytesPerWindow : ℕ) (clock : ℕ → ℕ → Instant)
      (order : List ℕ)

namespace Connection

variable {α : Type}

def start (streaming : StreamingState) (routes : RouteTable) (inbox : List Segment) :
    Connection α :=
  { reader := ⟨.new, streaming, routes⟩, inbox, results := [], delivered := [], stopped := none }

/-- Dispatch of a result, as far as it touches the stream table. -/
def dispatch (streaming : StreamingState) : Option (MessageReadResult α) → StreamingState
  | some (.streamAbort streamId _) => (streaming.abortStream streamId).2
  | _ => streaming

/-- Each result is dispatched before the next read; an error ends the reading. -/
def step (ctx : ReadContext α) (c : Connection α) : ConnectionEvent → Connection α
  | .poll blockOnPending clock =>
    if c.stopped.isSome then c
    else
      match c.reader.readMessageStepPoll ctx clock blockOnPending c.inbox with
      | (.error e, reader, inbox) => { c with reader, inbox, stopped := some e }
      | (.ok none, reader, inbox) => { c with reader, inbox }
      | (.ok (some poll), reader, inbox) =>
        { c with
          reader := { reader with streaming := dispatch reader.streaming poll.result }
          inbox
          results := c.results ++ poll.result.toList
          delivered := c.delivered ++ poll.completed.toList }
  | .cleanup idleTimeout rateWindow minBytesPerWindow clock order =>
    if c.stopped.isSome then c
    else
      match c.reader.streaming.cleanupStaleWith idleTimeout rateWindow minBytesPerWindow clock
          order with
      | (.error e, streaming) =>
        { c with reader := { c.reader with streaming }, stopped := some e }
      | (.ok _, streaming) => { c with reader := { c.reader with streaming } }

end Connection

end IcanactRemote
