/-
The V5 frame headers.

Every frame is a control word — five bits of kind, twenty-seven bits of body
length, big endian — followed by the body.  A builder writes the control word
and the fixed part of the body for one kind of frame; the payload follows.

* `decodeControl_encodeControl` — a control word that was written reads back;
* `encodeControl_of_decodeControl` — a control word that reads is the one that
  is written for what it reads as, so kind and length determine its bytes;
* `buildHeader_eq_ok` — what a builder returns, once for all builders.
-/
import IcanactRemote.BigEndian

namespace IcanactRemote

open BigEndian

/-- A byte string. -/
abbrev Bytes := List (Fin 256)

/-- The largest `usize`. -/
def usizeMax : ℕ := 2 ^ 64 - 1

/-- `usize::saturating_add`. -/
def saturatingAdd (a b : ℕ) : ℕ := min (a + b) usizeMax

/-- `u32::to_be_bytes`. -/
def toBe32 (x : UInt32) : Bytes := BigEndian.encode 4 x.toNat

/-- `u64::to_be_bytes`. -/
def toBe64 (x : UInt64) : Bytes := BigEndian.encode 8 x.toNat

/-- `u32::from_be_bytes`. -/
def fromBe32 (bs : Bytes) : UInt32 := UInt32.ofNat (BigEndian.decode bs)

/-- `u64::from_be_bytes`. -/
def fromBe64 (bs : Bytes) : UInt64 := UInt64.ofNat (BigEndian.decode bs)

@[simp] lemma length_toBe32 (x : UInt32) : (toBe32 x).length = 4 := length_encode ..

@[simp] lemma length_toBe64 (x : UInt64) : (toBe64 x).length = 8 := length_encode ..

@[simp] lemma fromBe32_toBe32 (x : UInt32) : fromBe32 (toBe32 x) = x := by
  have hlt : x.toNat < 256 ^ 4 := x.toNat_lt
  rw [fromBe32, toBe32, decode_encode hlt, UInt32.ofNat_toNat]

@[simp] lemma fromBe64_toBe64 (x : UInt64) : fromBe64 (toBe64 x) = x := by
  have hlt : x.toNat < 256 ^ 8 := x.toNat_lt
  rw [fromBe64, toBe64, decode_encode hlt, UInt64.ofNat_toNat]

/-- The bytes `a..b`. -/
def slice (bs : Bytes) (a b : ℕ) : Bytes := (bs.drop a).take (b - a)

variable {bs bytes fixed header : Bytes} {b n headerLen payloadLen : ℕ}

lemma slice_append_left (h : b ≤ bs.length) (a : ℕ) (rest : Bytes) :
    slice (bs ++ rest) a b = slice bs a b := by
  unfold slice
  by_cases hab : a ≤ bs.length
  · rw [List.drop_append_of_le_length hab, List.take_append_of_le_length]
    rw [List.length_drop]
    omega
  · rw [show b - a = 0 by omega, List.take_zero, List.take_zero]

lemma slice_zero_length (h : bs.length = n) : slice bs 0 n = bs := by
  rw [slice, List.drop_zero, Nat.sub_zero, List.take_of_length_le (by omega)]

/-! ### Errors -/

/-- `std::io::ErrorKind`, as far as these functions use it. -/
inductive IoErrorKind
  | invalidData
  | resourceBusy
  | quotaExceeded
  | notFound
  | unexpectedEof
  | other
  deriving DecidableEq, Repr

/-- The `GossipError::Network` errors of the stream reader, one for each text. -/
inductive NetworkError
  | orderlyPeerClose
  | connectionClosed
  | closedDuringStreamMetadata
  | closedDuringStreamPayload
  | closedWhileDiscarding
  | transport (code : ℕ)
  | unknownV5WireKind
  | zeroLengthFrame
  | truncatedStreamMetadata
  | invalidV5Frame (reason : String)
  | misalignedPayload
  | payloadRangeOutOfBounds
  | streamSizeExceeds (size : ℕ)
  | tooManyConcurrentStreams
  | inflightBudgetExceeded (inflight requested : ℕ)
  | emptyStreamChunk
  | invalidFirstChunkLength
  | unknownStream (streamId : ℕ)
  | chunkIndexOutOfRange
  | chunkOffsetOverflow
  | chunkLengthMismatch
  | duplicateChunk
  | streamReaped
  | readExceedsReservedChunk
  | streamVanished
  | duplicateChunkCommit
  | tombstoneBudgetExhausted
  deriving DecidableEq, Repr

/-- `io::Error::kind`. -/
def NetworkError.kind : NetworkError → IoErrorKind
  | .orderlyPeerClose | .connectionClosed | .closedDuringStreamMetadata
  | .closedDuringStreamPayload | .closedWhileDiscarding => .unexpectedEof
  | .transport _ => .other
  | .tooManyConcurrentStreams | .inflightBudgetExceeded _ _ => .resourceBusy
  | .streamReaped => .notFound
  | .tombstoneBudgetExhausted => .quotaExceeded
  | _ => .invalidData

/-- `MAX_STREAM_SIZE`: 64 MiB. -/
def maxStreamSize : ℕ := 64 * 1024 * 1024

/-- `MAX_INFLIGHT_STREAM_BYTES`. -/
def maxInflightStreamBytes : ℕ := 2 * maxStreamSize

/-- The text of the error. -/
def NetworkError.message : NetworkError → String
  | .orderlyPeerClose => "peer closed the connection between frames"
  | .connectionClosed => "connection closed"
  | .closedDuringStreamMetadata => "connection closed during V5 stream metadata"
  | .closedDuringStreamPayload => "connection closed during V5 stream payload"
  | .closedWhileDiscarding => "connection closed while discarding rejected stream payload"
  | .transport code => s!"os error {code}"
  | .unknownV5WireKind => "unknown V5 wire kind"
  | .zeroLengthFrame => "zero-length frame is invalid"
  | .truncatedStreamMetadata => "truncated V5 stream metadata"
  | .invalidV5Frame reason => reason
  | .misalignedPayload => "misaligned payload buffer"
  | .payloadRangeOutOfBounds => "payload range out of bounds"
  | .streamSizeExceeds size => s!"stream size {size} exceeds MAX_STREAM_SIZE {maxStreamSize}"
  | .tooManyConcurrentStreams => "Too many concurrent streams"
  | .inflightBudgetExceeded inflight requested =>
    s!"per-connection in-flight stream budget exceeded: {inflight} in flight + {requested} " ++
      s!"requested > {maxInflightStreamBytes}"
  | .emptyStreamChunk => "V5 stream chunk is empty"
  | .invalidFirstChunkLength => "V5 StreamStartData has invalid first chunk length"
  | .unknownStream streamId => s!"Received chunk for unknown stream_id={streamId}"
  | .chunkIndexOutOfRange => "V5 stream chunk index out of range"
  | .chunkOffsetOverflow => "V5 stream chunk offset overflow"
  | .chunkLengthMismatch => "V5 stream chunk length does not match its index"
  | .duplicateChunk => "duplicate V5 stream chunk"
  | .streamReaped => "stream reaped while its chunk reservation was still live"
  | .readExceedsReservedChunk => "V5 stream read exceeds reserved chunk"
  | .streamVanished => "stream vanished"
  | .duplicateChunkCommit => "duplicate V5 stream chunk commit"
  | .tombstoneBudgetExhausted => "rejected-stream tombstone budget exhausted"

/-- The errors the wire code returns. -/
inductive GossipError
  | network (e : NetworkError)
  | messageTooLarge (size max : ℕ)
  | invalidConfig (message : String)
  deriving DecidableEq, Repr

/-- How a call ends without a value: it returns an error, or it indexes out of
range or subtracts below zero, which stops the program. -/
inductive Stop
  | error (e : GossipError)
  | fault
  deriving DecidableEq, Repr

/-! ### The control word -/

def lengthPrefixLen : ℕ := 4
def controlBodyLenBits : ℕ := 27
def controlBodyLenMask : ℕ := 2 ^ controlBodyLenBits - 1

inductive WireKind
  | gossip
  | ask
  | response
  | actorTell
  | actorAsk
  | streamStart
  | streamData
  | streamResponseStart
  | streamResponseData
  | directAsk
  | directResponse
  | pubSub
  | streamAbort
  | routeBind
  | routedActorAsk
  deriving DecidableEq, Repr

/-- The discriminant of the kind. -/
def WireKind.toU8 : WireKind → ℕ
  | .gossip => 0
  | .ask => 1
  | .response => 2
  | .actorTell => 3
  | .actorAsk => 4
  | .streamStart => 5
  | .streamData => 6
  | .streamResponseStart => 7
  | .streamResponseData => 8
  | .directAsk => 9
  | .directResponse => 10
  | .pubSub => 11
  | .streamAbort => 12
  | .routeBind => 13
  | .routedActorAsk => 14

def WireKind.fromU8 : ℕ → Option WireKind
  | 0 => some .gossip
  | 1 => some .ask
  | 2 => some .response
  | 3 => some .actorTell
  | 4 => some .actorAsk
  | 5 => some .streamStart
  | 6 => some .streamData
  | 7 => some .streamResponseStart
  | 8 => some .streamResponseData
  | 9 => some .directAsk
  | 10 => some .directResponse
  | 11 => some .pubSub
  | 12 => some .streamAbort
  | 13 => some .routeBind
  | 14 => some .routedActorAsk
  | _ => none

structure Control where
  kind : WireKind
  bodyLen : ℕ
  deriving DecidableEq, Repr

def tryCheckedBodyLen (fixedLen payloadLen : ℕ) : Except GossipError ℕ :=
  if fixedLen + payloadLen ≤ controlBodyLenMask then .ok (fixedLen + payloadLen)
  else .error (.messageTooLarge (saturatingAdd fixedLen payloadLen) controlBodyLenMask)

/-- The control word as bytes. -/
def encodeControl (c : Control) : Bytes :=
  BigEndian.encode lengthPrefixLen (c.kind.toU8 * 2 ^ controlBodyLenBits + c.bodyLen)

def tryEncodeControl (kind : WireKind) (bodyLen : ℕ) : Except GossipError Bytes :=
  if bodyLen > controlBodyLenMask then .error (.messageTooLarge bodyLen controlBodyLenMask)
  else .ok (encodeControl ⟨kind, bodyLen⟩)

def decodeControl (bytes : Bytes) : Option Control :=
  let word := BigEndian.decode bytes
  (WireKind.fromU8 (word / 2 ^ controlBodyLenBits)).map fun kind =>
    ⟨kind, word % 2 ^ controlBodyLenBits⟩

@[simp] lemma length_encodeControl (c : Control) : (encodeControl c).length = lengthPrefixLen :=
  length_encode ..

lemma WireKind.fromU8_toU8 (k : WireKind) : WireKind.fromU8 k.toU8 = some k := by
  cases k <;> rfl

lemma WireKind.toU8_lt (k : WireKind) : k.toU8 < 15 := by
  cases k <;> decide

lemma WireKind.toU8_of_fromU8 {k : WireKind} (h : WireKind.fromU8 n = some k) : k.toU8 = n := by
  unfold WireKind.fromU8 at h
  split at h <;> cases h <;> rfl

lemma two_pow_controlBodyLenBits : 2 ^ controlBodyLenBits = 134217728 := by decide

lemma controlBodyLenMask_eq : controlBodyLenMask = 134217727 := by decide

lemma decodeControl_encodeControl {c : Control} (h : c.bodyLen ≤ controlBodyLenMask) :
    decodeControl (encodeControl c) = some c := by
  have hkind := c.kind.toU8_lt
  rw [controlBodyLenMask_eq] at h
  have hword : c.kind.toU8 * 134217728 + c.bodyLen < 256 ^ lengthPrefixLen := by
    have hpow : 256 ^ lengthPrefixLen = 4294967296 := by decide
    omega
  have hdiv : (c.kind.toU8 * 134217728 + c.bodyLen) / 134217728 = c.kind.toU8 := by omega
  have hmod : (c.kind.toU8 * 134217728 + c.bodyLen) % 134217728 = c.bodyLen := by omega
  simp only [decodeControl, encodeControl, two_pow_controlBodyLenBits,
    decode_encode hword, hdiv, hmod, WireKind.fromU8_toU8, Option.map_some]

/-- A control word that reads is the one written for what it reads as. -/
lemma encodeControl_of_decodeControl {c : Control} (hlen : bytes.length = lengthPrefixLen)
    (h : decodeControl bytes = some c) :
    encodeControl c = bytes ∧ c.bodyLen ≤ controlBodyLenMask := by
  simp only [decodeControl, Option.map_eq_some_iff] at h
  obtain ⟨kind, hkind, rfl⟩ := h
  have htoU8 := WireKind.toU8_of_fromU8 hkind
  constructor
  · have hword : kind.toU8 * 2 ^ controlBodyLenBits +
        decode bytes % 2 ^ controlBodyLenBits = decode bytes := by
      rw [htoU8]
      exact Nat.div_add_mod' ..
    rw [encodeControl, hword, ← hlen, encode_decode]
  · show decode bytes % 2 ^ controlBodyLenBits ≤ controlBodyLenMask
    rw [two_pow_controlBodyLenBits, controlBodyLenMask_eq]
    omega

/-! ### Header lengths, after the control word -/

def askResponseHeaderLen : ℕ := 12
def gossipHeaderLen : ℕ := 12
def actorTellHeaderLen : ℕ := 12
def actorAskHeaderLen : ℕ := 28
def routedActorAskHeaderLen : ℕ := 12
def routeBindHeaderLen : ℕ := 20
def directAskHeaderLen : ℕ := 12
def directResponseHeaderLen : ℕ := 12
def pubsubHeaderLen : ℕ := 12
def streamRequestStartHeaderLen : ℕ := 24
def streamResponseStartHeaderLen : ℕ := 12
def streamDataHeaderLen : ℕ := 8

/-! ### Builders -/

/-- Reserved bytes, left at zero. -/
def reserved (n : ℕ) : Bytes := List.replicate n 0

@[simp] lemma length_reserved (n : ℕ) : (reserved n).length = n := List.length_replicate

/-- The control word and the fixed region of a frame whose body is `headerLen`
bytes of header and the payload. -/
def buildHeader (kind : WireKind) (headerLen : ℕ) (fixed : Bytes) (payloadLen : ℕ) :
    Except GossipError Bytes := do
  let bodyLen ← tryCheckedBodyLen headerLen payloadLen
  let control ← tryEncodeControl kind bodyLen
  return control ++ fixed

/-- **What a builder returns.** -/
theorem buildHeader_eq_ok {kind : WireKind} :
    buildHeader kind headerLen fixed payloadLen = .ok header ↔
      headerLen + payloadLen ≤ controlBodyLenMask ∧
        header = encodeControl ⟨kind, headerLen + payloadLen⟩ ++ fixed := by
  by_cases h : headerLen + payloadLen ≤ controlBodyLenMask
  · have hlen : tryCheckedBodyLen headerLen payloadLen = .ok (headerLen + payloadLen) := if_pos h
    have hctl : tryEncodeControl kind (headerLen + payloadLen) =
        .ok (encodeControl ⟨kind, headerLen + payloadLen⟩) := if_neg (by omega)
    have hbuild : buildHeader kind headerLen fixed payloadLen =
        .ok (encodeControl ⟨kind, headerLen + payloadLen⟩ ++ fixed) := by
      simp only [buildHeader, hlen, hctl, bind, Except.bind, pure, Except.pure]
    rw [hbuild, Except.ok.injEq, eq_comm]
    simp [h]
  · simp [buildHeader, tryCheckedBodyLen, h, bind, Except.bind]

def tryWriteActorTellHeader (actorId : UInt64) (typeHash : UInt32) (payloadLen : ℕ) :
    Except GossipError Bytes :=
  buildHeader .actorTell actorTellHeaderLen (toBe64 actorId ++ toBe32 typeHash) payloadLen

def tryWriteActorAskHeaderWithRequestId (correlationId : UInt32) (actorId : UInt64)
    (typeHash : UInt32) (payloadLen : ℕ) (requestId : Option UInt64) :
    Except GossipError Bytes :=
  if requestId = some 0 then .error (.invalidConfig "actor ask request id must be nonzero")
  else
    -- without a request id its eight bytes stay reserved
    buildHeader .actorAsk actorAskHeaderLen
      (toBe32 correlationId ++ toBe64 actorId ++ toBe32 typeHash ++
        toBe64 (requestId.getD 0) ++ reserved 4) payloadLen

def tryWriteRoutedActorAskHeader (correlationId routeSlot : UInt32) (payloadLen : ℕ) :
    Except GossipError Bytes :=
  buildHeader .routedActorAsk routedActorAskHeaderLen
    (toBe32 correlationId ++ toBe32 routeSlot ++ reserved 4) payloadLen

/-- `write_route_bind_header`: the length is a constant, so it cannot fail. -/
def writeRouteBindHeader (routeSlot : UInt32) (actorId : UInt64) (typeHash : UInt32) : Bytes :=
  encodeControl ⟨.routeBind, routeBindHeaderLen⟩ ++
    (toBe32 routeSlot ++ toBe64 actorId ++ toBe32 typeHash ++ reserved 4)

/-- The two message types `try_write_ask_response_header` does not refuse. -/
inductive AskOrResponse
  | ask
  | response
  deriving DecidableEq, Repr

def AskOrResponse.wireKind : AskOrResponse → WireKind
  | .ask => .ask
  | .response => .response

def tryWriteAskResponseHeader (msgType : AskOrResponse) (correlationId : UInt32)
    (payloadLen : ℕ) : Except GossipError Bytes :=
  buildHeader msgType.wireKind askResponseHeaderLen (toBe32 correlationId ++ reserved 8) payloadLen

inductive AskNackReason
  | unknownActor
  | handlerError
  | noDispatcher
  | backpressure
  | unsupported
  deriving DecidableEq, Repr

def AskNackReason.toU8 : AskNackReason → Fin 256
  | .unknownActor => 1
  | .handlerError => 2
  | .noDispatcher => 3
  | .backpressure => 4
  | .unsupported => 0

def AskNackReason.fromU8 (value : Fin 256) : AskNackReason :=
  if value = 1 then .unknownActor
  else if value = 2 then .handlerError
  else if value = 3 then .noDispatcher
  else if value = 4 then .backpressure
  else .unsupported

lemma AskNackReason.fromU8_toU8 (r : AskNackReason) : AskNackReason.fromU8 r.toU8 = r := by
  cases r <;> rfl

def askNackFlagBodyOffset : ℕ := 4
def askNackReasonBodyOffset : ℕ := 5
def askNackFlagSet : Fin 256 := 1

/-- `try_write_ask_nack_header`: a response header without payload, its marker
and reason in the reserved bytes. -/
def tryWriteAskNackHeader (correlationId : UInt32) (reason : AskNackReason) :
    Except GossipError Bytes := do
  let control ← tryEncodeControl .response askResponseHeaderLen
  return control ++ (toBe32 correlationId ++ [askNackFlagSet, reason.toU8] ++ reserved 6)

/-- `ask_nack_reason`: the reason, if the marker is set. -/
def askNackReason (responseFixedRegion : Bytes) : Option AskNackReason :=
  if responseFixedRegion.length < askResponseHeaderLen then none
  else if responseFixedRegion.getD askNackFlagBodyOffset 0 ≠ askNackFlagSet then none
  else some (.fromU8 (responseFixedRegion.getD askNackReasonBodyOffset 0))

def tryWriteGossipFramePrefix (payloadLen : ℕ) : Except GossipError Bytes :=
  buildHeader .gossip gossipHeaderLen (reserved 12) payloadLen

def tryWritePubsubFramePrefix (payloadLen : ℕ) : Except GossipError Bytes :=
  buildHeader .pubSub pubsubHeaderLen (reserved 12) payloadLen

def tryWriteDirectAskHeader (correlationId : UInt32) (requestId : UInt64) (payloadLen : ℕ) :
    Except GossipError Bytes :=
  buildHeader .directAsk directAskHeaderLen (toBe32 correlationId ++ toBe64 requestId) payloadLen

/-- `direct_ask_request_id`: zero stands for an absent id. -/
def directAskRequestId (body : Bytes) : Option UInt64 :=
  if body.length < directAskHeaderLen then none
  else
    let requestId := fromBe64 (slice body 4 12)
    if requestId = 0 then none else some requestId

def tryWriteDirectResponseHeader (correlationId : UInt32) (payloadLen : ℕ) :
    Except GossipError Bytes :=
  buildHeader .directResponse directResponseHeaderLen (toBe32 correlationId ++ reserved 8)
    payloadLen

def tryWriteStreamRequestStartHeader (streamId correlationId totalSize : UInt32)
    (actorId : UInt64) (typeHash : UInt32) (firstChunkLen : ℕ) : Except GossipError Bytes :=
  buildHeader .streamStart streamRequestStartHeaderLen
    (toBe32 streamId ++ toBe32 correlationId ++ toBe32 totalSize ++ toBe64 actorId ++
      toBe32 typeHash) firstChunkLen

def tryWriteStreamResponseStartHeader (streamId correlationId totalSize : UInt32)
    (firstChunkLen : ℕ) : Except GossipError Bytes :=
  buildHeader .streamResponseStart streamResponseStartHeaderLen
    (toBe32 streamId ++ toBe32 correlationId ++ toBe32 totalSize) firstChunkLen

def tryWriteStreamDataHeader (response : Bool) (streamId chunkIndex : UInt32) (payloadLen : ℕ) :
    Except GossipError Bytes :=
  buildHeader (if response then .streamResponseData else .streamData) streamDataHeaderLen
    (toBe32 streamId ++ toBe32 chunkIndex) payloadLen

/-- `write_stream_abort_header`: the length is a constant, so it cannot fail. -/
def writeStreamAbortHeader (streamId reason : UInt32) : Bytes :=
  encodeControl ⟨.streamAbort, streamDataHeaderLen⟩ ++ (toBe32 streamId ++ toBe32 reason)

/-- `reject_oversize_for_inline_send`. -/
def rejectOversizeForInlineSend (fixedHeaderLen payloadLen maxMessageSize : ℕ) :
    Except GossipError Unit :=
  let bodyLen := saturatingAdd fixedHeaderLen payloadLen
  if bodyLen > maxMessageSize then .error (.messageTooLarge bodyLen maxMessageSize) else .ok ()

end IcanactRemote
