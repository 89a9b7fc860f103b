/-
What one poll of the reader can do.

* `Reader.Wf` — the reader's state belongs to its stream table: a reservation
  that is being filled is one the stream has room for, and every stream has its
  first chunk, except while that chunk is being read;
* `PollStep` — the ways in which a poll moves on, one constructor for each;
* `poll_step` — every poll of a well-formed reader moves on in one of these
  ways, waits, or ends in an error, and never indexes out of range;
* `PollStep.wf` — the reader stays well-formed.
-/
import IcanactRemote.FrameReader
import IcanactRemote.StreamingSafety

namespace IcanactRemote

open StreamingState Reader List Nat

/-! ### Fields of stream metadata -/

def metaStreamId (bytes : Bytes) : ℕ := (fromBe32 (slice bytes 0 4)).toNat
def metaCorrelationId (bytes : Bytes) : UInt32 := fromBe32 (slice bytes 4 8)
def metaTotalSize (bytes : Bytes) : ℕ := (fromBe32 (slice bytes 8 12)).toNat
def metaActorId (bytes : Bytes) : UInt64 := fromBe64 (slice bytes 12 20)
def metaTypeHash (bytes : Bytes) : UInt32 := fromBe32 (slice bytes 20 24)
def metaChunkIndex (bytes : Bytes) : ℕ := (fromBe32 (slice bytes 4 8)).toNat

def WireKind.isStreamStart : WireKind → Bool
  | .streamStart | .streamResponseStart => true
  | _ => false

def WireKind.isStreamData : WireKind → Bool
  | .streamData | .streamResponseData => true
  | _ => false

section Metadata

variable {kind : WireKind}

lemma WireKind.isStreamStart_of_data (h : kind.isStreamData = true) :
    kind.isStreamStart = false := by
  cases kind <;> first | rfl | cases h

lemma WireKind.isStreamStart_of_inline (h : streamMetaLen kind = none) :
    kind.isStreamStart = false := by
  cases kind <;> first | rfl | cases h

lemma WireKind.isStreamData_of_inline (h : streamMetaLen kind = none) :
    kind.isStreamData = false := by
  cases kind <;> first | rfl | cases h

/-- The header a start frame declares. -/
def startHeader (kind : WireKind) (bytes : Bytes) (payloadLen : ℕ) : StreamHeader :=
  if kind = .streamStart then
    ⟨metaStreamId bytes, metaTotalSize bytes, payloadLen % 2 ^ 32, 0, metaTypeHash bytes,
      metaActorId bytes⟩
  else ⟨metaStreamId bytes, metaTotalSize bytes, payloadLen % 2 ^ 32, 0, 0, 0⟩

@[simp] lemma streamId_startHeader (bytes : Bytes) (payloadLen : ℕ) :
    (startHeader kind bytes payloadLen).streamId = metaStreamId bytes := by
  unfold startHeader
  split <;> rfl

@[simp] lemma totalSize_startHeader (kind : WireKind) (bytes : Bytes) (payloadLen : ℕ) :
    (startHeader kind bytes payloadLen).totalSize = metaTotalSize bytes := by
  unfold startHeader
  split <;> rfl

lemma streamMetaLen_cases {metaLen : ℕ} (h : streamMetaLen kind = some metaLen) :
    (kind.isStreamStart = true ∧ (metaLen = 24 ∨ (metaLen = 12 ∧ kind = .streamResponseStart))) ∨
      (kind.isStreamData = true ∧ metaLen = 8) := by
  cases kind <;> cases h
  · exact .inl ⟨rfl, .inl rfl⟩
  · exact .inr ⟨rfl, rfl⟩
  · exact .inl ⟨rfl, .inr ⟨rfl, rfl⟩⟩
  · exact .inr ⟨rfl, rfl⟩

lemma streamMetaLen_pos {metaLen : ℕ} (h : streamMetaLen kind = some metaLen) : 0 < metaLen := by
  obtain ⟨-, h24 | ⟨h12, -⟩⟩ | ⟨-, h8⟩ := streamMetaLen_cases h
  · omega
  · omega
  · omega

variable
  {bodyLen metaLen msgLen offset len start : ℕ} {metadata bs : Bytes} {streaming : StreamingState}

lemma reserveV5StreamPayload_start (clock : ℕ → Instant) (hkind : kind.isStreamStart = true)
    (hmeta : streamMetaLen kind = some metaLen) (hlen : metadata.length = metaLen)
    (hbody : metaLen ≤ bodyLen) : reserveV5StreamPayload kind bodyLen metadata streaming clock =
      streaming.beginV5StreamOrDiscard clock (startHeader kind metadata (bodyLen - metaLen))
        (metaCorrelationId metadata) (kind = .streamResponseStart) (bodyLen - metaLen) := by
  have hnot : ¬(bodyLen < metaLen) := by omega
  cases kind <;> cases hkind
  · cases hmeta
    have hlen : metadata.length = 24 := hlen
    simp (disch := omega) only [reserveV5StreamPayload, streamMetaLen, if_neg hnot, readStartMeta,
      readU32_of_le, readU64_of_le]
    rfl
  · cases hmeta
    have hlen : metadata.length = 12 := hlen
    simp (disch := omega) only [reserveV5StreamPayload, streamMetaLen, if_neg hnot, readStartMeta,
      readU32_of_le]
    rfl

lemma reserveV5StreamPayload_data (clock : ℕ → Instant) (hkind : kind.isStreamData = true)
    (hmeta : streamMetaLen kind = some metaLen) (hlen : metadata.length = metaLen)
    (hbody : metaLen ≤ bodyLen) : reserveV5StreamPayload kind bodyLen metadata streaming clock =
      streaming.reserveV5ChunkOrDiscard (metaStreamId metadata) (metaChunkIndex metadata)
        (bodyLen - metaLen) := by
  have hnot : ¬(bodyLen < metaLen) := by omega
  -- a chunk of a request and one of a response carry the same fields
  cases kind <;> cases hkind <;> cases hmeta
  all_goals
    have hlen : metadata.length = 8 := hlen
    simp (disch := omega) only [reserveV5StreamPayload, streamMetaLen, if_neg hnot, readDataMeta,
      readU32_of_le]
    rfl

/-! ### The invariant -/

/-- The stream after a part of a chunk has arrived. -/
def filled (stream : InProgressStream) (now : Instant) (r : StreamChunkReservation) (read : ℕ)
    (bytes : Bytes) : InProgressStream :=
  { stream with
    buffer := writeAt stream.buffer (r.offset + read) bytes
    lastActivity := now
    totalBytesProgressed := saturatingAdd stream.totalBytesProgressed bytes.length }

lemma recordV5ChunkProgress_fillTarget (s : StreamingState) (now : Instant)
    (r : StreamChunkReservation) (read : ℕ) (bytes : Bytes) :
    (s.fillTarget r read bytes).recordV5ChunkProgress now r bytes.length =
      s.modifyActive r.streamId fun stream => filled stream now r read bytes := by
  unfold fillTarget recordV5ChunkProgress modifyActive
  rw [Table.modify_modify]
  rfl

namespace Reader

/-- What the read state knows. -/
def StateWf (streaming : StreamingState) : ReadState → Prop
  | .readLen buf => buf.length < lengthPrefixLen
  | .readBody buf msgLen body =>
    buf.length = lengthPrefixLen ∧ body.length < msgLen ∧
      ∃ kind, decodeControl buf = some ⟨kind, msgLen⟩ ∧ streamMetaLen kind = none
  | .readStreamMeta kind bodyLen metadata metaLen =>
    streamMetaLen kind = some metaLen ∧ metadata.length < metaLen ∧ metaLen ≤ bodyLen ∧
      bodyLen ≤ controlBodyLenMask
  | .readStreamPayload reservation read =>
    read < reservation.len ∧ ∀ stream stride,
      streaming.activeStreams.get reservation.streamId = some stream → stream.Wf stride →
        Reserved stream stride reservation
  | .discardStreamPayload _ _ => True

/-- The first chunk of this stream is being read. -/
def ReadsFirst (state : ReadState) (streamId : ℕ) : Prop :=
  ∃ r read, state = .readStreamPayload r read ∧ r.streamId = streamId ∧ r.chunkIndex = 0

structure Wf (r : Reader) : Prop where
  streaming : r.streaming.Wf
  state : StateWf r.streaming r.state
  first : ∀ streamId stream, r.streaming.activeStreams.get streamId = some stream →
    stream.receivedChunks.test 0 = true ∨ ReadsFirst r.state streamId

lemma wf_new (h : streaming.Wf) (routes : RouteTable)
    (hnone : ∀ streamId, streaming.activeStreams.get streamId = none) :
    (⟨.new, streaming, routes⟩ : Reader).Wf where
  streaming := h
  state := zero_lt_succ 3
  first streamId stream hget := by
    rw [hnone] at hget
    cases hget

end Reader

end Metadata

/-! ### One poll -/

section Steps

variable {α : Type}

/-- What a poll that moves on does to the reader, with the bytes it took. -/
inductive PollStep (ctx : ReadContext α) (r : Reader) : Bytes → ReadPollResult α → Reader → Prop
  /-- nothing to read yet, or nothing asked for -/
  | idle : PollStep ctx r [] ⟨none, none, false⟩ r
  | prefixMore (hstate : r.state = .readLen buf)
      (hlen : (buf ++ bytes).length < lengthPrefixLen) :
      PollStep ctx r bytes ⟨none, none, true⟩ { r with state := .readLen (buf ++ bytes) }
  | prefixBody (hstate : r.state = .readLen buf) (hlen : (buf ++ bytes).length = lengthPrefixLen)
      (hcontrol : decodeControl (buf ++ bytes) = some ⟨kind, len⟩)
      (hkind : streamMetaLen kind = none) (hpos : 0 < len) :
      PollStep ctx r bytes ⟨none, none, true⟩ { r with state := .readBody (buf ++ bytes) len [] }
  | prefixMeta (hstate : r.state = .readLen buf) (hlen : (buf ++ bytes).length = lengthPrefixLen)
      (hcontrol : decodeControl (buf ++ bytes) = some ⟨kind, len⟩)
      (hkind : streamMetaLen kind = some metaLen) (hle : metaLen ≤ len) :
      PollStep ctx r bytes ⟨none, none, true⟩
        { r with state := .readStreamMeta kind len [] metaLen }
  | bodyMore (hstate : r.state = .readBody buf msgLen body) (hlen : (body ++ bytes).length < msgLen)
      :
      PollStep ctx r bytes ⟨none, none, true⟩
        { r with state := .readBody buf msgLen (body ++ bytes) }
  | bodyDone {routes : Option RouteTable}
      (hstate : r.state = .readBody buf msgLen body) (hlen : (body ++ bytes).length = msgLen)
      (hbuf : encodeControl ⟨kind, msgLen⟩ = buf ∧ msgLen ≤ controlBodyLenMask)
      (hkind : streamMetaLen kind = none)
      (habort : AbortOf kind (body ++ bytes) result)
      (hparse : parseMessage ctx.decodeRegistryMessage (buf ++ (body ++ bytes)) msgLen
        (some r.routes) = .ok (result, routes)) :
      PollStep ctx r bytes ⟨some result, none, true⟩
        { r with state := .new, routes := routes.getD r.routes }
  | metaMore (hstate : r.state = .readStreamMeta kind bodyLen metadata metaLen)
      (hlen : (metadata ++ bytes).length < metaLen) :
      PollStep ctx r bytes ⟨none, none, true⟩
        { r with state := .readStreamMeta kind bodyLen (metadata ++ bytes) metaLen }
  /-- a start frame opens its stream -/
  | opened (clock : ℕ → Instant) (hstate : r.state = .readStreamMeta kind bodyLen metadata metaLen)
      (hlen : (metadata ++ bytes).length = metaLen) (hkind : kind.isStreamStart = true)
      (hnone : r.streaming.activeStreams.get (metaStreamId (metadata ++ bytes)) = none)
      (hvalid : ValidStart (startHeader kind (metadata ++ bytes) (bodyLen - metaLen))
        (bodyLen - metaLen))
      (hwf : ((r.streaming.removeTombstone (metaStreamId (metadata ++ bytes))).insertActive
        (metaStreamId (metadata ++ bytes))
        (startedStream clock (startHeader kind (metadata ++ bytes) (bodyLen - metaLen))
          (metaCorrelationId (metadata ++ bytes)) (kind = .streamResponseStart)
          (bodyLen - metaLen))).Wf) :
      PollStep ctx r bytes ⟨none, none, true⟩
        { r with
          state := .readStreamPayload
            ⟨metaStreamId (metadata ++ bytes), 0, 0, bodyLen - metaLen⟩ 0
          streaming := (r.streaming.removeTombstone
            (metaStreamId (metadata ++ bytes))).insertActive (metaStreamId (metadata ++ bytes))
              (startedStream clock (startHeader kind (metadata ++ bytes) (bodyLen - metaLen))
                (metaCorrelationId (metadata ++ bytes)) (kind = .streamResponseStart)
                (bodyLen - metaLen)) }
  /-- a start frame is turned away, its only chunk with it -/
  | turnedAway (hstate : r.state = .readStreamMeta kind bodyLen metadata metaLen)
      (hlen : (metadata ++ bytes).length = metaLen) (hkind : kind.isStreamStart = true)
      (hnone : r.streaming.activeStreams.get (metaStreamId (metadata ++ bytes)) = none)
      (hvalid : ValidStart (startHeader kind (metadata ++ bytes) (bodyLen - metaLen))
        (bodyLen - metaLen))
      (hcount : divCeil (metaTotalSize (metadata ++ bytes)) (bodyLen - metaLen) ≤ 1) :
      PollStep ctx r bytes ⟨none, none, true⟩
        { r with
          state := .discardStreamPayload (bodyLen - metaLen) none
          streaming := r.streaming.removeTombstone (metaStreamId (metadata ++ bytes)) }
  /-- a start frame is turned away and leaves a tombstone -/
  | tombstoned {streaming : StreamingState}
      (hstate : r.state = .readStreamMeta kind bodyLen metadata metaLen)
      (hlen : (metadata ++ bytes).length = metaLen) (hkind : kind.isStreamStart = true)
      (hnone : r.streaming.activeStreams.get (metaStreamId (metadata ++ bytes)) = none)
      (hvalid : ValidStart (startHeader kind (metadata ++ bytes) (bodyLen - metaLen))
        (bodyLen - metaLen))
      (hcount : 1 < divCeil (metaTotalSize (metadata ++ bytes)) (bodyLen - metaLen))
      (hwf : streaming.Wf) (hactive : streaming.activeStreams = r.streaming.activeStreams)
      (hlimit : streaming.maxConcurrentStreams = r.streaming.maxConcurrentStreams)
      (hget : ∀ id, streaming.rejectedStreams.get id =
        if id = metaStreamId (metadata ++ bytes) then
          some (RejectedStreamTombstone.rejected (metaTotalSize (metadata ++ bytes))
            (bodyLen - metaLen))
        else r.streaming.rejectedStreams.get id) :
      PollStep ctx r bytes ⟨none, none, true⟩
        { r with state := .discardStreamPayload (bodyLen - metaLen) none, streaming }
  /-- a data frame finds its place -/
  | reserved (hstate : r.state = .readStreamMeta kind bodyLen metadata metaLen)
      (hlen : (metadata ++ bytes).length = metaLen) (hkind : kind.isStreamData = true)
      (hget : r.streaming.activeStreams.get (metaStreamId (metadata ++ bytes)) = some stream)
      (hwf : stream.Wf stride)
      (hreserved : Reserved stream stride ⟨metaStreamId (metadata ++ bytes),
        metaChunkIndex (metadata ++ bytes), metaChunkIndex (metadata ++ bytes) * stride,
        bodyLen - metaLen⟩) :
      PollStep ctx r bytes ⟨none, none, true⟩
        { r with
          state := .readStreamPayload ⟨metaStreamId (metadata ++ bytes),
            metaChunkIndex (metadata ++ bytes), metaChunkIndex (metadata ++ bytes) * stride,
            bodyLen - metaLen⟩ 0 }
  /-- a data frame of a stream with a tombstone -/
  | marked {streaming : StreamingState}
      (hstate : r.state = .readStreamMeta kind bodyLen metadata metaLen)
      (hlen : (metadata ++ bytes).length = metaLen) (hkind : kind.isStreamData = true)
      (hget : r.streaming.rejectedStreams.get (metaStreamId (metadata ++ bytes)) = some t)
      (hmark : r.streaming.markTombstone (metaStreamId (metadata ++ bytes))
        (metaChunkIndex (metadata ++ bytes)) = (.ok (), streaming)) :
      PollStep ctx r bytes ⟨none, none, true⟩
        { r with state := .discardStreamPayload (bodyLen - metaLen) none, streaming }
  /-- the stream was reaped while its chunk was being read -/
  | reaped {read : ℕ} (hstate : r.state = .readStreamPayload reservation read)
      (hnone : r.streaming.activeStreams.get reservation.streamId = none) :
      PollStep ctx r [] ⟨none, none, true⟩
        { r with
          state := .discardStreamPayload (reservation.len - read)
            (some (reservation.streamId, reservation.chunkIndex)) }
  | payloadMore {read : ℕ} (now : Instant)
      (hstate : r.state = .readStreamPayload reservation read)
      (hget : r.streaming.activeStreams.get reservation.streamId = some stream)
      (hlen : read + bytes.length < reservation.len) :
      PollStep ctx r bytes ⟨none, none, true⟩
        { r with
          state := .readStreamPayload reservation (read + bytes.length)
          streaming := r.streaming.modifyActive reservation.streamId
            fun stream => filled stream now reservation read bytes }
  /-- a chunk is in -/
  | chunkDone {read : ℕ} (now now' : Instant)
      (hstate : r.state = .readStreamPayload reservation read)
      (hget : r.streaming.activeStreams.get reservation.streamId = some stream)
      (hlen : read + bytes.length = reservation.len)
      (hwf : (committed (filled stream now reservation read bytes) now' reservation).Wf stride) :
      PollStep ctx r bytes ⟨none, none, true⟩
        { r with
          state := .new
          streaming := r.streaming.modifyActive reservation.streamId
            fun _ => committed (filled stream now reservation read bytes) now' reservation }
  /-- the last chunk is in -/
  | streamDone {read : ℕ} (now now' : Instant)
      (hstate : r.state = .readStreamPayload reservation read)
      (hget : r.streaming.activeStreams.get reservation.streamId = some stream)
      (hlen : read + bytes.length = reservation.len) (hwf : stream.Wf stride)
      (hall : ∀ i < divCeil stream.totalSize stride,
        (stream.receivedChunks.mark reservation.chunkIndex).test i = true) :
      PollStep ctx r bytes
        ⟨some (completedV5StreamResult (committed (filled stream now reservation read bytes) now'
            reservation).completed),
          some (committed (filled stream now reservation read bytes) now' reservation).completed,
          true⟩
        { r with
          state := .new
          streaming := { r.streaming with
            activeStreams := r.streaming.activeStreams.remove reservation.streamId } }
  | discardMore (hstate : r.state = .discardStreamPayload remaining mark)
      (hlen : bytes.length < remaining) :
      PollStep ctx r bytes ⟨none, none, true⟩
        { r with state := .discardStreamPayload (remaining - bytes.length) mark }
  | discardDone {streaming : StreamingState}
      (hstate : r.state = .discardStreamPayload remaining mark)
      (hlen : bytes.length = remaining)
      (hfinish : Reader.finishDiscardingReservation r.streaming mark = (.ok (), streaming)) :
      PollStep ctx r bytes ⟨none, none, true⟩ { r with state := .new, streaming }

/-! ### Errors -/

/-- The end of the stream, as an error. -/
def Stop.isEof : Stop → Bool
  | .error (.network e) => e.kind = .unexpectedEof
  | _ => false

/-- The call does not end in the end of the stream. -/
def NotEof {β : Type} : Except Stop β → Prop
  | .ok _ => True
  | .error e => e.isEof = false

namespace StreamingState

variable (s : StreamingState)

variable (streamId chunkIndex chunkLen : ℕ)

lemma notEof_reserveV5Chunk : NotEof (s.reserveV5Chunk streamId chunkIndex chunkLen).1 := by
  unfold reserveV5Chunk
  cases s.activeStreams.get streamId with
  | none => rfl
  | some =>
    simp only
    split
    · rfl
    · split
      · split
        · rfl
        · split
          · rfl
          · unfold subLen
            split
            next hsub =>
              split at hsub
              · cases hsub
              · cases hsub
                rfl
            · split
              · rfl
              · split
                · rfl
                · split
                  · rfl
                  · trivial
      · rfl

lemma notEof_startStream (clock : ℕ → Instant) (header : StreamHeader) (correlationId : UInt32)
    (isResponse : Bool) : NotEof (s.startStream clock header correlationId isResponse).1 := by
  unfold startStream
  simp only
  split_ifs
  · trivial
  · rfl
  · rfl
  · rfl
  · trivial

lemma notEof_allChunksReceived (totalSize : ℕ) (expectedChunks : Option ℕ)
    (receivedChunks : Bitmap 64) :
    NotEof (allChunksReceived totalSize expectedChunks receivedChunks) := by
  unfold allChunksReceived
  split
  · trivial
  · split_ifs
    · trivial
    · rfl
    · trivial
    · trivial
    · split
      · rfl
      · trivial

section

variable (clock : ℕ → Instant)
  (header : StreamHeader)
  (correlationId : UInt32)
  (isResponse : Bool)
  (firstChunkLen : ℕ)
include clock header correlationId isResponse firstChunkLen

lemma notEof_beginV5Stream :
    NotEof (s.beginV5Stream clock header correlationId isResponse firstChunkLen).1 := by
  have hsta := notEof_startStream s clock header correlationId isResponse
  unfold beginV5Stream
  split
  · rfl
  · split
    · rfl
    · generalize s.startStream clock header correlationId isResponse = out at hsta ⊢
      obtain ⟨out, s'⟩ := out
      cases out with
      | error => exact hsta
      | ok => exact notEof_reserveV5Chunk s' ..

lemma notEof_beginV5StreamOrDiscard :
    NotEof (s.beginV5StreamOrDiscard clock header correlationId isResponse firstChunkLen).1 := by
  have hbegin := notEof_beginV5Stream (s.removeTombstone header.streamId) clock header
    correlationId isResponse firstChunkLen
  unfold beginV5StreamOrDiscard
  simp only
  generalize (s.removeTombstone header.streamId).beginV5Stream clock header correlationId
    isResponse firstChunkLen = out at hbegin ⊢
  obtain ⟨out, s'⟩ := out
  cases out with
  | ok => trivial
  | error =>
    simp only
    split
    · have hreject : NotEof (s'.rejectStream header.streamId header.totalSize firstChunkLen).1 := by
        unfold rejectStream
        simp only
        split_ifs
        · rfl
        · trivial
        · split <;> trivial
      generalize s'.rejectStream header.streamId header.totalSize firstChunkLen = out at hreject ⊢
      obtain ⟨out, s''⟩ := out
      cases out with
      | error => exact hreject
      | ok inserted =>
        cases inserted with
        | true => trivial
        | false => rfl
    · exact hbegin

end

lemma notEof_reserveV5ChunkOrDiscard :
    NotEof (s.reserveV5ChunkOrDiscard streamId chunkIndex chunkLen).1 := by
  unfold reserveV5ChunkOrDiscard
  split
  · have hmark : NotEof (s.markTombstone streamId chunkIndex).1 := by
      unfold markTombstone
      cases s.rejectedStreams.get streamId with
      | none => trivial
      | some tombstone =>
        have hcmpl : NotEof (tombstone.markChunkReceived chunkIndex).isComplete :=
          notEof_allChunksReceived ..
        simp only
        cases hout : (tombstone.markChunkReceived chunkIndex).isComplete with
        | error =>
          rw [hout] at hcmpl
          exact hcmpl
        | ok complete => cases complete <;> trivial
    generalize s.markTombstone streamId chunkIndex = out at hmark ⊢
    obtain ⟨out, s'⟩ := out
    cases out with
    | error => exact hmark
    | ok => trivial
  · have hrsv := notEof_reserveV5Chunk s streamId chunkIndex chunkLen
    generalize s.reserveV5Chunk streamId chunkIndex chunkLen = out at hrsv ⊢
    obtain ⟨out, s'⟩ := out
    cases out with
    | error => exact hrsv
    | ok => trivial

end StreamingState

/-- A control word the reader goes on from. -/
def GoodControl (ctx : ReadContext α) (buf : Bytes) : Prop :=
  ∃ kind len, decodeControl buf = some ⟨kind, len⟩ ∧ 0 < len ∧ len ≤ ctx.maxMessageSize ∧
    ∀ metaLen, streamMetaLen kind = some metaLen → metaLen ≤ len

/-- Why a poll refuses the bytes it took. -/
inductive PollError (ctx : ReadContext α) (r : Reader) : Bytes → Stop → Prop
  | control (hstate : r.state = .readLen buf)
      (hlen : (buf ++ bytes).length = lengthPrefixLen) (hbad : ¬GoodControl ctx (buf ++ bytes))
      (hfatal : e ∈ [networkError .unknownV5WireKind, networkError .zeroLengthFrame,
        networkError .truncatedStreamMetadata] ∨ ∃ size, e = .error (.messageTooLarge size
          ctx.maxMessageSize)) :
      PollError ctx r bytes e
  | body (hstate : r.state = .readBody buf msgLen body) (hlen : (body ++ bytes).length = msgLen)
      (hparse : parseMessage ctx.decodeRegistryMessage (buf ++ (body ++ bytes)) msgLen
        (some r.routes) = .error e) (hfatal : IsParseError e) :
      PollError ctx r bytes e
  | start (hstate : r.state = .readStreamMeta kind bodyLen metadata metaLen)
      (hlen : (metadata ++ bytes).length = metaLen) (hkind : kind.isStreamStart = true)
      (hbudget : r.streaming.activeStreams.get (metaStreamId (metadata ++ bytes)) = none →
        ValidStart (startHeader kind (metadata ++ bytes) (bodyLen - metaLen))
          (bodyLen - metaLen) → e = networkError .tombstoneBudgetExhausted)
      (heof : e.isEof = false) :
      PollError ctx r bytes e
  | data (hstate : r.state = .readStreamMeta kind bodyLen metadata metaLen)
      (hlen : (metadata ++ bytes).length = metaLen) (hkind : kind.isStreamData = true)
      (hnone : r.streaming.rejectedStreams.get (metaStreamId (metadata ++ bytes)) = none)
      (hset : ∀ stream stride,
        r.streaming.activeStreams.get (metaStreamId (metadata ++ bytes)) = some stream →
        stream.Wf stride →
        metaChunkIndex (metadata ++ bytes) < divCeil stream.totalSize stride →
        bodyLen - metaLen =
          min (stream.totalSize - metaChunkIndex (metadata ++ bytes) * stride) stride →
        stream.receivedChunks.test (metaChunkIndex (metadata ++ bytes)) = true)
      (heof : e.isEof = false) :
      PollError ctx r bytes e

variable {kind : WireKind} {bodyLen metaLen msgLen offset len start : ℕ} {metadata bs : Bytes}
  {streaming : StreamingState}

lemma PollError.isEof {ctx : ReadContext α} {r : Reader} {bytes : Bytes} {e : Stop}
    (h : PollError ctx r bytes e) : e.isEof = false := by
  cases h with
  | control _ _ _ hfatal =>
    obtain hmem | ⟨size, rfl⟩ := hfatal
    · simp only [mem_cons, not_mem_nil, or_false] at hmem
      obtain rfl | rfl | rfl := hmem <;> rfl
    · rfl
  | body _ _ _ hfatal =>
    unfold IsParseError at hfatal
    split at hfatal
    · rfl
    · rfl
    · rfl
    · exact hfatal.elim
  | start hstate hlen hkind hbudget heof | data hstate hlen hkind hnone hset heof => exact heof

/-- The transport gave no bytes. -/
def IsIoError (e : Stop) : Prop :=
  (∃ code, e = networkError (.transport code)) ∨
    e ∈ [networkError .orderlyPeerClose, networkError .connectionClosed,
      networkError .closedDuringStreamMetadata, networkError .closedDuringStreamPayload,
      networkError .closedWhileDiscarding]

/-- The new bytes are taken up in one of these ways, or refused. -/
def GotTo (ctx : ReadContext α) (r : Reader) (bytes : Bytes) (out : PollOutcome α × Reader) :
    Prop :=
  (∃ e r', out = (.error e, r') ∧ e ≠ .fault ∧ PollError ctx r bytes e) ∨
    ∃ res r', out = (.ok (some res), r') ∧ PollStep ctx r bytes res r'

/-- A poll moves on, waits, or ends in an error. -/
def PollsTo (ctx : ReadContext α) (r : Reader) (inbox : List Segment)
    (out : PollOutcome α × Reader × List Segment) : Prop :=
  (∃ e r' inbox', out = (.error e, r', inbox') ∧ e ≠ .fault ∧ (IsIoError e ∨
      ∃ bytes, inboxBytes inbox = bytes ++ inboxBytes inbox' ∧ PollError ctx r bytes e)) ∨
    (∃ inbox', inboxBytes inbox' = inboxBytes inbox ∧ out = (.ok none, r, inbox')) ∨
    ∃ bytes res r' inbox', inboxBytes inbox = bytes ++ inboxBytes inbox' ∧
      out = (.ok (some res), r', inbox') ∧ PollStep ctx r bytes res r'

lemma pollReadOnce_cases (inbox : List Segment) {target : ℕ} (htgt : 0 < target) :
    (inbox = [] ∧ pollReadOnce inbox target = (.ready [], [])) ∨
      (∃ rest, inbox = .pending :: rest ∧ pollReadOnce inbox target = (.pending, rest)) ∨
      (∃ code rest, inbox = .failed code :: rest ∧
        pollReadOnce inbox target = (.failed code, rest)) ∨
      ∃ b bs rest, pollReadOnce inbox target = (.ready (b :: bs), rest) ∧
        (b :: bs).length ≤ target ∧ inboxBytes inbox = (b :: bs) ++ inboxBytes rest ∧
        rest.length ≤ inbox.length ∧ ∀ code, .failed code ∈ rest → .failed code ∈ inbox := by
  cases inbox with
  | nil => exact .inl ⟨rfl, rfl⟩
  | cons segment rest =>
    refine .inr ?_
    cases segment with
    | pending => exact .inl ⟨rest, rfl, rfl⟩
    | failed code => exact .inr (.inl ⟨code, rest, rfl, rfl⟩)
    | data head tail =>
      obtain ⟨n, rfl⟩ : ∃ n, target = n + 1 := ⟨target - 1, by omega⟩
      refine .inr (.inr ⟨head, tail.take n, _, rfl, ?_, ?_, ?_⟩)
      · rw [length_cons, length_take]
        omega
      · have hspl : tail = tail.take n ++ tail.drop n := (take_append_drop n tail).symm
        show head :: tail ++ inboxBytes rest = _
        -- what does not fit the target stays in front
        cases hdrop : tail.drop n with
        | nil =>
          rw [hdrop, append_nil] at hspl
          rw [← hspl]
        | cons b bs =>
          rw [hdrop] at hspl
          nth_rewrite 1 [hspl]
          show head :: (tail.take n ++ b :: bs) ++ inboxBytes rest =
            head :: tail.take n ++ (b :: bs ++ inboxBytes rest)
          rw [cons_append, cons_append, append_assoc]
      · cases tail.drop n with
        | nil => exact ⟨le_succ _, fun code h => mem_cons_of_mem _ h⟩
        | cons =>
          refine ⟨le_refl _, fun code h => ?_⟩
          obtain ⟨⟩ | ⟨_, hmem⟩ := h
          exact mem_cons_of_mem _ hmem

section ReadInto

variable {r : Reader} {inbox rest : List Segment} {blockOnPending : Bool} {target code : ℕ}
  {eof : NetworkError} {got : Bytes → PollOutcome α × Reader}

lemma readInto_pending (h : pollReadOnce inbox target = (.pending, rest)) :
    r.readInto inbox blockOnPending target eof got =
      (if blockOnPending then .ok none else noProgress, r, rest) := by
  simp [readInto, h]

lemma readInto_failed (h : pollReadOnce inbox target = (.failed code, rest)) :
    r.readInto inbox blockOnPending target eof got =
      (.error (networkError (.transport code)), r, rest) := by
  simp [readInto, h]

lemma readInto_eof (h : pollReadOnce inbox target = (.ready [], rest)) :
    r.readInto inbox blockOnPending target eof got = (.error (networkError eof), r, rest) := by
  simp [readInto, h]

lemma readInto_ready {b : Fin 256} (h : pollReadOnce inbox target = (.ready (b :: bs), rest)) :
    r.readInto inbox blockOnPending target eof got =
      ((got (b :: bs)).1, (got (b :: bs)).2, rest) := by
  simp [readInto, h]

lemma pollsTo_readInto {ctx : ReadContext α}
    (htgt : 0 < target) (heof : IsIoError (networkError eof))
    (hgot : ∀ bytes, bytes ≠ [] → bytes.length ≤ target → GotTo ctx r bytes (got bytes)) :
    PollsTo ctx r inbox (r.readInto inbox blockOnPending target eof got) := by
  obtain ⟨-, heq⟩ | ⟨rest, rfl, heq⟩ | ⟨code, rest, -, heq⟩ |
    ⟨b, bs, rest, heq, hlen, hby, -⟩ := pollReadOnce_cases inbox htgt
  · rw [readInto_eof heq]
    exact .inl ⟨_, _, _, rfl, nofun, .inl heof⟩
  · rw [readInto_pending heq]
    cases blockOnPending with
    | true => exact .inr (.inl ⟨rest, rfl, rfl⟩)
    | false => exact .inr (.inr ⟨[], _, r, rest, rfl, rfl, .idle⟩)
  · rw [readInto_failed heq]
    exact .inl ⟨_, _, _, rfl, nofun, .inl (.inl ⟨code, rfl⟩)⟩
  · rw [readInto_ready heq]
    obtain ⟨e, r', hout, hflt, herror⟩ | ⟨res, r', hout, hstep⟩ := hgot (b :: bs) (by simp) hlen
    · exact .inl ⟨e, r', rest, by rw [hout], hflt, .inr ⟨b :: bs, hby, herror⟩⟩
    · exact .inr (.inr ⟨b :: bs, res, r', rest, hby, by rw [hout], hstep⟩)

end ReadInto

variable {ctx : ReadContext α} {r r' : Reader} {bytes buf body buffer : Bytes}

lemma gotTo_gotPrefix (hstate : r.state = .readLen buf)
    (hlen : bytes.length ≤ lengthPrefixLen - buf.length) (hbuf : buf.length < lengthPrefixLen) :
    GotTo ctx r bytes (r.gotPrefix ctx (buf ++ bytes)) := by
  unfold gotPrefix
  split
  next hshort =>
    exact .inr ⟨_, _, rfl, .prefixMore hstate hshort⟩
  next hdone =>
    have hfull : (buf ++ bytes).length = lengthPrefixLen := by
      rw [length_append] at hdone ⊢
      omega
    cases hcontrol : decodeControl (buf ++ bytes) with
    | none =>
      refine .inl ⟨_, _, rfl, nofun, .control hstate hfull ?_ (.inl (by simp))⟩
      rintro ⟨kind, len, heq, -⟩
      rw [hcontrol] at heq
      cases heq
    | some control =>
      dsimp only
      -- the errors of a control word that reads: each test that fails
      have hgood : ∀ kind len, decodeControl (buf ++ bytes) = some ⟨kind, len⟩ →
          control = ⟨kind, len⟩ := by
        intro kind len heq
        rw [hcontrol] at heq
        exact Option.some.inj heq
      split
      next hzero =>
        refine .inl ⟨_, _, rfl, nofun, .control hstate hfull ?_ (.inl (by simp))⟩
        rintro ⟨kind, len, heq, hpos, -⟩
        rw [hgood kind len heq] at hzero
        have hzero : len = 0 := hzero
        omega
      next hpos =>
        split
        next hlarge =>
          refine .inl ⟨_, _, rfl, nofun, .control hstate hfull ?_ (.inr ⟨_, rfl⟩)⟩
          rintro ⟨kind, len, heq, -, hle, -⟩
          rw [hgood kind len heq] at hlarge
          have hlarge : ctx.maxMessageSize < len := hlarge
          omega
        · split
          next metaLen hkind =>
            split
            next hshort =>
              refine .inl ⟨_, _, rfl, nofun, .control hstate hfull ?_ (.inl (by simp))⟩
              rintro ⟨kind, len, heq, -, -, hle⟩
              rw [hgood kind len heq] at hshort hkind
              have hshort : len < metaLen := hshort
              have := hle metaLen hkind
              omega
            next hle =>
              exact .inr ⟨_, _, rfl, .prefixMeta hstate hfull hcontrol hkind (Nat.le_of_not_lt hle)⟩
          next hkind =>
            exact .inr ⟨_, _, rfl,
              .prefixBody hstate hfull hcontrol hkind (Nat.pos_of_ne_zero hpos)⟩

lemma gotTo_gotBody (hstate : r.state = .readBody buf msgLen body) (h : r.Wf)
    (hlen : bytes.length ≤ msgLen - body.length) :
    GotTo ctx r bytes (r.gotBody ctx buf msgLen (body ++ bytes)) := by
  have hwf := h.state
  rw [hstate] at hwf
  obtain ⟨hbuf, hbody, kind, hcontrol, hkind⟩ := hwf
  unfold gotBody
  split
  next hshort =>
    exact .inr ⟨_, _, rfl, .bodyMore hstate hshort⟩
  next hdone =>
    have hfull : (body ++ bytes).length = msgLen := by
      rw [length_append] at hdone ⊢
      omega
    have hbuffer : (buf ++ (body ++ bytes)).length = lengthPrefixLen + msgLen := by
      rw [length_append, hbuf, hfull]
    have hpre : slice (buf ++ (body ++ bytes)) 0 lengthPrefixLen = buf := by
      rw [slice_append_left (by omega), slice_zero_length hbuf]
    have hdrop : (buf ++ (body ++ bytes)).drop lengthPrefixLen = body ++ bytes := by
      rw [← hbuf, drop_left]
    -- the parser gets the buffer the control word announced
    have hret : Returns (fun out => AbortOf kind (body ++ bytes) out.1)
        (parseMessage ctx.decodeRegistryMessage (buf ++ (body ++ bytes)) msgLen (some r.routes)) :=
      returns_parseMessage hbuffer (by rw [hpre]; exact hcontrol) hdrop (some r.routes)
    dsimp only
    cases hparse : parseMessage ctx.decodeRegistryMessage (buf ++ (body ++ bytes)) msgLen
        (some r.routes) with
    | error e =>
      rw [hparse] at hret
      refine .inl ⟨e, _, rfl, ?_, .body hstate hfull hparse hret⟩
      rintro rfl
      exact hret
    | ok =>
      rw [hparse] at hret
      have hencoded := encodeControl_of_decodeControl hbuf hcontrol
      exact .inr ⟨_, _, rfl, .bodyDone hstate hfull hencoded hkind hret hparse⟩

lemma streamPayloadState_reserved {streamId chunkIndex : ℕ} (h : 0 < len) :
    streamPayloadState (some ⟨streamId, chunkIndex, offset, len⟩) bodyLen metaLen =
      .ok (.readStreamPayload ⟨streamId, chunkIndex, offset, len⟩ 0) :=
  if_neg (pos_iff_ne_zero.mp h)

lemma streamPayloadState_discarded (h : metaLen ≤ bodyLen) :
    streamPayloadState none bodyLen metaLen =
      .ok (.discardStreamPayload (bodyLen - metaLen) none) := by
  rw [streamPayloadState, subLen_of_le h]
  rfl

section

variable (clock : ℕ → Instant) (h : r.Wf)
  (hstate : r.state = .readStreamMeta kind bodyLen metadata metaLen)
include h hstate

lemma gotTo_start (hmeta : streamMetaLen kind = some metaLen) (hle : metaLen ≤ bodyLen)
    (hlen : (metadata ++ bytes).length = metaLen) (hkind : kind.isStreamStart = true) :
    GotTo ctx r bytes (r.gotMeta clock kind bodyLen (metadata ++ bytes) metaLen) := by
  -- no payload is being read, so every stream has its first chunk
  have hzero : ∀ stream, r.streaming.activeStreams.get (metaStreamId (metadata ++ bytes)) =
      some stream → stream.receivedChunks.test 0 = true := by
    intro stream hget
    obtain hset | ⟨_, _, hpay, -, -⟩ := h.first _ stream hget
    · exact hset
    · rw [hstate] at hpay
      cases hpay
  have hcases := beginV5StreamOrDiscard_cases h.streaming clock
    (startHeader kind (metadata ++ bytes) (bodyLen - metaLen))
    (metaCorrelationId (metadata ++ bytes)) (kind = .streamResponseStart) (bodyLen - metaLen)
    (by rw [streamId_startHeader]; exact hzero)
  rw [streamId_startHeader, totalSize_startHeader] at hcases
  rw [gotMeta, if_neg (by omega),
    reserveV5StreamPayload_start clock hkind hmeta hlen hle]
  obtain ⟨e, s', heq, hflt, hbudget⟩ | ⟨hnone, hvalid, heq, hwf⟩ | ⟨hnone, hvalid, hcount, heq⟩ |
    ⟨hnone, hvalid, hcount, s', heq, hwf, hactive, hlimit, hget⟩ := hcases
  · have heof := notEof_beginV5StreamOrDiscard r.streaming clock
      (startHeader kind (metadata ++ bytes) (bodyLen - metaLen))
      (metaCorrelationId (metadata ++ bytes)) (kind = .streamResponseStart) (bodyLen - metaLen)
    rw [heq] at heof
    rw [heq]
    exact .inl ⟨e, _, rfl, hflt, .start hstate hlen hkind hbudget heof⟩
  · rw [heq]
    exact .inr ⟨_, _, by simp only [streamPayloadState_reserved hvalid.pos]; rfl,
      .opened clock hstate hlen hkind hnone hvalid hwf⟩
  · rw [heq]
    exact .inr ⟨_, _, by simp only [streamPayloadState_discarded hle]; rfl,
      .turnedAway hstate hlen hkind hnone hvalid hcount⟩
  · rw [heq]
    exact .inr ⟨_, _, by simp only [streamPayloadState_discarded hle]; rfl,
      .tombstoned hstate hlen hkind hnone hvalid hcount hwf hactive hlimit hget⟩

lemma gotTo_data (hmeta : streamMetaLen kind = some metaLen) (hle : metaLen ≤ bodyLen)
    (hlen : (metadata ++ bytes).length = metaLen) (hkind : kind.isStreamData = true) :
    GotTo ctx r bytes (r.gotMeta clock kind bodyLen (metadata ++ bytes) metaLen) := by
  rw [gotMeta, if_neg (by omega),
    reserveV5StreamPayload_data clock hkind hmeta hlen hle]
  obtain ⟨e, s', heq, hflt, hnone, hset⟩ | ⟨stream, stride, hget, hwf, hreserved, heq⟩ |
    ⟨t, s', hget, hmark, heq⟩ := reserveV5ChunkOrDiscard_cases h.streaming
      (metaStreamId (metadata ++ bytes)) (metaChunkIndex (metadata ++ bytes)) (bodyLen - metaLen)
  · have heof := notEof_reserveV5ChunkOrDiscard r.streaming (metaStreamId (metadata ++ bytes))
      (metaChunkIndex (metadata ++ bytes)) (bodyLen - metaLen)
    rw [heq] at heof
    rw [heq]
    exact .inl ⟨e, _, rfl, hflt, .data hstate hlen hkind hnone hset heof⟩
  · rw [heq]
    exact .inr ⟨_, _, by simp only [streamPayloadState_reserved (hreserved.pos hwf)]; rfl,
      .reserved hstate hlen hkind hget hwf hreserved⟩
  · rw [heq]
    exact .inr ⟨_, _, by simp only [streamPayloadState_discarded hle]; rfl,
      .marked hstate hlen hkind hget hmark⟩

lemma gotTo_gotMeta (hlen : bytes.length ≤ metaLen - metadata.length) :
    GotTo ctx r bytes (r.gotMeta clock kind bodyLen (metadata ++ bytes) metaLen) := by
  have hwf := h.state
  rw [hstate] at hwf
  obtain ⟨hmeta, hshort, hle, -⟩ := hwf
  by_cases hmore : (metadata ++ bytes).length < metaLen
  · rw [gotMeta, if_pos hmore]
    exact .inr ⟨_, _, rfl, .metaMore hstate hmore⟩
  · have hfull : (metadata ++ bytes).length = metaLen := by
      rw [length_append] at hmore ⊢
      omega
    obtain ⟨hkind, -⟩ | ⟨hkind, -⟩ := streamMetaLen_cases hmeta
    · exact gotTo_start clock h hstate hmeta hle hfull hkind
    · exact gotTo_data clock h hstate hmeta hle hfull hkind

end

lemma length_writeAt (h : start + bytes.length ≤ buffer.length) :
    (writeAt buffer start bytes).length = buffer.length := by
  rw [writeAt, length_append, length_append, length_take, length_drop]
  omega

variable {reservation : StreamChunkReservation} {stream stream' : InProgressStream}

variable {mark : Option (ℕ × ℕ)} {clock : ℕ → Instant} {now now' : Instant}
  {read stride remaining stride' : ℕ}

lemma wf_filled (h : stream.Wf stride) (hr : Reserved stream stride reservation)
    (hlen : read + bytes.length ≤ reservation.len) :
    (filled stream now reservation read bytes).Wf stride where
  layout := h.layout
  size := h.size
  buffer := by
    have hend := hr.end_le h
    refine (length_writeAt ?_).trans h.buffer
    rw [h.buffer]
    omega
  missing := h.missing

lemma gotTo_gotPayload (h : r.Wf) (hstate : r.state = .readStreamPayload reservation read)
    (hget : r.streaming.activeStreams.get reservation.streamId = some stream)
    (hlen : bytes.length ≤ reservation.len - read) :
    GotTo ctx r bytes (r.gotPayload clock reservation read bytes) := by
  have hstateWf := h.state
  rw [hstate] at hstateWf
  obtain ⟨hread, hreserved⟩ := hstateWf
  obtain ⟨-, stride, hwf⟩ := h.streaming.active _ stream hget
  have hr := hreserved stream stride hget hwf
  unfold gotPayload
  rw [recordV5ChunkProgress_fillTarget]
  dsimp only
  split
  next hmore =>
    exact .inr ⟨_, _, rfl, .payloadMore (clock 0) hstate hget hmore⟩
  next hdone =>
    -- the chunk is complete and is committed
    have hfull : read + bytes.length = reservation.len := by omega
    have hget' : (r.streaming.modifyActive reservation.streamId fun stream =>
        filled stream (clock 0) reservation read bytes).activeStreams.get reservation.streamId =
        some (filled stream (clock 0) reservation read bytes) := by
      refine (Table.get_modify ..).trans ?_
      rw [if_pos rfl, hget]
      rfl
    have hr' : Reserved (filled stream (clock 0) reservation read bytes) stride reservation :=
      ⟨hr.index, hr.offset, hr.len, hr.unset⟩
    obtain ⟨hall, heq⟩ | ⟨hwf', heq⟩ := commitV5Chunk_cases (clock 1) hget'
      (wf_filled hwf hr (by omega)) hr'
    · have hrem : (r.streaming.modifyActive reservation.streamId fun stream =>
          filled stream (clock 0) reservation read bytes).activeStreams.remove
            reservation.streamId = r.streaming.activeStreams.remove reservation.streamId :=
        Table.remove_modify ..
      rw [heq, hrem]
      exact .inr ⟨_, _, rfl, .streamDone (clock 0) (clock 1) hstate hget hfull hwf hall⟩
    · have hmod : ((r.streaming.modifyActive reservation.streamId fun stream =>
          filled stream (clock 0) reservation read bytes).modifyActive reservation.streamId fun _ =>
            committed (filled stream (clock 0) reservation read bytes) (clock 1) reservation) =
          r.streaming.modifyActive reservation.streamId fun _ =>
            committed (filled stream (clock 0) reservation read bytes) (clock 1) reservation := by
        unfold modifyActive
        rw [Table.modify_modify]
        rfl
      rw [heq, hmod]
      exact .inr ⟨_, _, rfl, .chunkDone (clock 0) (clock 1) hstate hget hfull hwf'⟩

lemma finishDiscardingReservation_ok (h : r.Wf) (mark : Option (ℕ × ℕ)) :
    ∃ streaming, finishDiscardingReservation r.streaming mark = (.ok (), streaming) := by
  cases mark with
  | none => exact ⟨_, rfl⟩
  | some mark =>
    obtain ⟨streaming, hmark, -⟩ := h.streaming.markTombstone mark.1 mark.2
    exact ⟨streaming, hmark⟩

lemma gotTo_gotDiscard (h : r.Wf) (hstate : r.state = .discardStreamPayload remaining mark)
    (hlen : bytes.length ≤ remaining) : GotTo ctx r bytes (r.gotDiscard remaining mark bytes) := by
  unfold gotDiscard
  rw [subLen_of_le hlen]
  dsimp only
  split
  next hdone =>
    obtain ⟨streaming, hfinish⟩ := finishDiscardingReservation_ok h mark
    simp only [finishDiscard, hfinish]
    exact .inr ⟨_, _, rfl, .discardDone hstate (by omega) hfinish⟩
  next hmore =>
    exact .inr ⟨_, _, rfl, .discardMore hstate (by omega)⟩

/-! ### Reading once -/

namespace Reader

/-- New bytes, whatever the reader is in the middle of. -/
def got (ctx : ReadContext α) (clock : ℕ → Instant) (r : Reader) (bytes : Bytes) :
    PollOutcome α × Reader :=
  match r.state with
  | .readLen buf => r.gotPrefix ctx (buf ++ bytes)
  | .readBody buf msgLen body => r.gotBody ctx buf msgLen (body ++ bytes)
  | .readStreamMeta kind bodyLen metadata metaLen =>
    r.gotMeta clock kind bodyLen (metadata ++ bytes) metaLen
  | .readStreamPayload reservation read => r.gotPayload clock reservation read bytes
  | .discardStreamPayload remaining mark => r.gotDiscard remaining mark bytes

/-- How many bytes are missing to what the reader is in the middle of. -/
def want (r : Reader) : ℕ :=
  match r.state with
  | .readLen buf => lengthPrefixLen - buf.length
  | .readBody _ msgLen body => msgLen - body.length
  | .readStreamMeta _ _ metadata metaLen => metaLen - metadata.length
  | .readStreamPayload reservation read => reservation.len - read
  | .discardStreamPayload remaining _ => remaining

/-- The error with which the end of the stream is met. -/
def eof (r : Reader) : NetworkError :=
  match r.state with
  | .readLen buf => eofInLengthPrefix buf.length
  | .readBody _ _ _ => .connectionClosed
  | .readStreamMeta _ _ _ _ => .closedDuringStreamMetadata
  | .readStreamPayload _ _ => .closedDuringStreamPayload
  | .discardStreamPayload _ _ => .closedWhileDiscarding

/-- The stream whose chunk is being read is still there. -/
def Present (r : Reader) : Prop :=
  ∀ reservation read, r.state = .readStreamPayload reservation read →
    ∃ stream, r.streaming.activeStreams.get reservation.streamId = some stream

end Reader

lemma isIoError_eof : IsIoError (networkError r.eof) := by
  unfold eof
  cases r.state with
  | readLen =>
    simp only [eofInLengthPrefix]
    split <;> exact .inr (by simp)
  | _ => exact .inr (by simp)

lemma gotTo_got (h : r.Wf) (hpres : r.Present)
    (hlen : bytes.length ≤ r.want) : GotTo ctx r bytes (r.got ctx clock bytes) := by
  unfold got
  unfold want at hlen
  have hwf := h.state
  cases hstate : r.state with
  | readLen =>
    rw [hstate] at hlen hwf
    exact gotTo_gotPrefix hstate hlen hwf
  | readBody =>
    rw [hstate] at hlen
    exact gotTo_gotBody hstate h hlen
  | readStreamMeta =>
    rw [hstate] at hlen
    exact gotTo_gotMeta clock h hstate hlen
  | readStreamPayload reservation read =>
    rw [hstate] at hlen
    obtain ⟨stream, hget⟩ := hpres reservation read hstate
    exact gotTo_gotPayload h hstate hget hlen
  | discardStreamPayload =>
    rw [hstate] at hlen
    exact gotTo_gotDiscard h hstate hlen

lemma v5ChunkTarget_eq {s : StreamingState}
    (hget : s.activeStreams.get reservation.streamId = some stream) (hstr : stream.Wf stride)
    (hreserved : Reserved stream stride reservation) (hread : read < reservation.len) :
    s.v5ChunkTarget reservation read = .ok (reservation.len - read) := by
  have hend := hreserved.end_le hstr
  have hrange : readRange stream.buffer (reservation.offset + read)
      (reservation.offset + reservation.len) =
      .ok (slice stream.buffer (reservation.offset + read)
        (reservation.offset + reservation.len)) :=
    readRange_of_le (by omega) (by rw [hstr.buffer]; exact hend)
  have hlen : (slice stream.buffer (reservation.offset + read)
      (reservation.offset + reservation.len)).length = reservation.len - read := by
    rw [slice, length_take, length_drop, hstr.buffer]
    omega
  simp only [v5ChunkTarget, hget, if_neg (not_lt.mpr (le_of_lt hread)), hrange, Except.map, hlen]

lemma poll_eq (ctx : ReadContext α) (h : r.Wf) (hpres : r.Present) (hwant : 0 < r.want)
    (clock : ℕ → Instant) (blockOnPending : Bool) (inbox : List Segment) :
    ∃ target, 0 < target ∧ target ≤ r.want ∧
      r.readMessageStepPoll ctx clock blockOnPending inbox =
        r.readInto inbox blockOnPending target r.eof (r.got ctx clock) := by
  have hwf := h.state
  unfold readMessageStepPoll want eof got
  unfold want at hwant
  cases hstate : r.state with
  | readLen buf =>
    rw [hstate] at hwant
    have hwant : 0 < lengthPrefixLen - buf.length := hwant
    refine ⟨_, hwant, le_refl _, ?_⟩
    simp only [subLen_of_le (show buf.length ≤ lengthPrefixLen by omega), if_neg hwant.ne']
  | readBody _ msgLen body =>
    rw [hstate] at hwant
    have hwant : 0 < msgLen - body.length := hwant
    refine ⟨_, hwant, le_refl _, ?_⟩
    simp only [subLen_of_le (show body.length ≤ msgLen by omega), if_neg hwant.ne']
  | readStreamMeta kind _ metadata metaLen =>
    rw [hstate] at hwf hwant
    have hwant : 0 < metaLen - metadata.length := hwant
    obtain ⟨hmeta, -⟩ := hwf
    have hroom : metaLen ≤ streamRequestStartHeaderLen := by
      cases kind <;> cases hmeta <;> decide
    refine ⟨_, hwant, le_refl _, ?_⟩
    simp only [subLen_of_le (show metadata.length ≤ metaLen by omega), subLen_of_le hroom]
  | readStreamPayload reservation read =>
    rw [hstate] at hwf hwant
    obtain ⟨hread, hreserved⟩ := hwf
    obtain ⟨stream, hget⟩ := hpres reservation read hstate
    obtain ⟨-, stride, hstr⟩ := h.streaming.active _ stream hget
    refine ⟨_, hwant, le_refl _, ?_⟩
    simp only [v5ChunkTarget_eq hget hstr (hreserved stream stride hget hstr) hread]
  | discardStreamPayload remaining =>
    rw [hstate] at hwant
    have hwant : 0 < remaining := hwant
    -- a discard reads through a scratch buffer
    have hscratch : scratchLen = 8192 := rfl
    have hread : 0 < min remaining scratchLen := by omega
    refine ⟨_, hread, min_le_left .., ?_⟩
    simp only [if_neg hread.ne']

lemma poll_of_want_zero (ctx : ReadContext α) (h : r.Wf) (hwant : r.want = 0) :
    ∃ mark streaming, r.state = .discardStreamPayload 0 mark ∧
      finishDiscardingReservation r.streaming mark = (.ok (), streaming) ∧
      ∀ (clock : ℕ → Instant) blockOnPending inbox,
        r.readMessageStepPoll ctx clock blockOnPending inbox =
          (progress, { r with state := .new, streaming }, inbox) := by
  have hwf := h.state
  unfold want at hwant
  cases hstate : r.state with
  | readLen =>
    rw [hstate] at hwf hwant
    exact absurd hwant (sub_ne_zero_of_lt hwf)
  | readBody | readStreamMeta =>
    rw [hstate] at hwf hwant
    exact absurd hwant (sub_ne_zero_of_lt hwf.2.1)
  | readStreamPayload =>
    rw [hstate] at hwf hwant
    exact absurd hwant (sub_ne_zero_of_lt hwf.1)
  | discardStreamPayload _ mark =>
    rw [hstate] at hwant
    subst hwant
    obtain ⟨streaming, hfinish⟩ := finishDiscardingReservation_ok h mark
    refine ⟨mark, streaming, rfl, hfinish, ?_⟩
    intro clock blockOnPending inbox
    have hzero : min 0 scratchLen = 0 := zero_min _
    simp only [readMessageStepPoll, hstate, if_pos hzero, finishDiscard, hfinish]

/-- **What a poll can do.**  A poll of a well-formed reader moves on in one of
the ways of `PollStep`, waits, or ends in an error; it never indexes out of
range and never subtracts below zero. -/
theorem poll_step (h : r.Wf) (clock : ℕ → Instant) (blockOnPending : Bool) (inbox : List Segment) :
    PollsTo ctx r inbox (r.readMessageStepPoll ctx clock blockOnPending inbox) := by
  by_cases hpres : r.Present
  · obtain hwant | hwant := Nat.eq_zero_or_pos r.want
    · obtain ⟨mark, streaming, hstate, hfinish, hpoll⟩ := poll_of_want_zero ctx h hwant
      rw [hpoll]
      exact .inr (.inr ⟨[], _, _, inbox, rfl, rfl, .discardDone hstate rfl hfinish⟩)
    · obtain ⟨target, htgt, hle, hpoll⟩ :=
        poll_eq ctx h hpres hwant clock blockOnPending inbox
      rw [hpoll]
      refine pollsTo_readInto htgt isIoError_eof ?_
      intro bytes _ hlen
      exact gotTo_got h hpres (hlen.trans hle)
  · -- the stream was reaped while its chunk was being read
    unfold Present at hpres
    push Not at hpres
    obtain ⟨reservation, read, hstate, hgone⟩ := hpres
    have hget := Option.eq_none_iff_forall_ne_some.mpr hgone
    have hwf := h.state
    rw [hstate] at hwf
    have htgt : r.streaming.v5ChunkTarget reservation read =
        .error (networkError .streamReaped) := by
      simp only [v5ChunkTarget, hget]
    have hdiscard : discardRemainderOfReservation reservation read =
        .ok (.discardStreamPayload (reservation.len - read)
          (some (reservation.streamId, reservation.chunkIndex))) := by
      rw [discardRemainderOfReservation, subLen_of_le (Nat.le_of_lt hwf.1)]
      rfl
    simp only [readMessageStepPoll, hstate, htgt, networkError, hdiscard]
    exact .inr (.inr ⟨[], _, _, inbox, rfl, rfl, .reaped hstate hget⟩)

/-! ### The invariant along a poll -/

lemma Reader.Wf.settled (h : r.Wf) (hnot : ∀ res read, r.state ≠ .readStreamPayload res read) :
    ∀ streamId stream, r.streaming.activeStreams.get streamId = some stream →
      stream.receivedChunks.test 0 = true := by
  intro streamId stream hget
  obtain hset | ⟨res, read, hpay, -, -⟩ := h.first streamId stream hget
  · exact hset
  · exact absurd hpay (hnot res read)

lemma stride_eq (h : stream.Wf stride) (h' : stream'.Wf stride')
    (hsame : stream'.chunkStride = stream.chunkStride) : stride' = stride :=
  Option.some.inj (h'.layout.known.symm.trans (hsame.trans h.layout.known))

lemma reserved_startedStream {header : StreamHeader} {correlationId : UInt32}
    {isResponse : Bool} {firstChunkLen streamId : ℕ} (h : ValidStart header firstChunkLen)
    (hwf : (startedStream clock header correlationId isResponse firstChunkLen).Wf stride) :
    Reserved (startedStream clock header correlationId isResponse firstChunkLen) stride
      ⟨streamId, 0, 0, firstChunkLen⟩ := by
  have hstarted : (startedStream clock header correlationId isResponse firstChunkLen).Wf
      firstChunkLen := startedStream_wf h
  obtain rfl := stride_eq hstarted hwf rfl
  refine ⟨hwf.layout.count_pos, (zero_mul _).symm, ?_, Bitmap.test_zeros ..⟩
  have hle := h.le
  show stride = min (header.totalSize - 0 * stride) stride
  omega

lemma Reader.Wf.opened (h : r.Wf)
    (hstate : r.state = .readStreamMeta kind bodyLen metadata metaLen)
    (hvalid : ValidStart (startHeader kind (metadata ++ bytes) (bodyLen - metaLen))
      (bodyLen - metaLen))
    (hwf : ((r.streaming.removeTombstone (metaStreamId (metadata ++ bytes))).insertActive
      (metaStreamId (metadata ++ bytes)) (startedStream clock
      (startHeader kind (metadata ++ bytes) (bodyLen - metaLen))
      (metaCorrelationId (metadata ++ bytes)) (kind = .streamResponseStart)
        (bodyLen - metaLen))).Wf) :
    Wf { r with
      state := .readStreamPayload ⟨metaStreamId (metadata ++ bytes), 0, 0, bodyLen - metaLen⟩ 0
      streaming := (r.streaming.removeTombstone (metaStreamId (metadata ++ bytes))).insertActive
        (metaStreamId (metadata ++ bytes))
        (startedStream clock (startHeader kind (metadata ++ bytes) (bodyLen - metaLen))
          (metaCorrelationId (metadata ++ bytes)) (kind = .streamResponseStart)
          (bodyLen - metaLen)) } := by
  have hsett := h.settled (by intro _ _ heq; rw [hstate] at heq; cases heq)
  have hget := Table.get_insert (r.streaming.removeTombstone
    (metaStreamId (metadata ++ bytes))).activeStreams (metaStreamId (metadata ++ bytes))
    (startedStream clock (startHeader kind (metadata ++ bytes) (bodyLen - metaLen))
      (metaCorrelationId (metadata ++ bytes)) (kind = .streamResponseStart) (bodyLen - metaLen))
  refine ⟨hwf, ⟨hvalid.pos, ?_⟩, ?_⟩
  · intro stream stride hstr hstride
    have hstr := (hget _).symm.trans hstr
    rw [if_pos rfl] at hstr
    cases hstr
    exact reserved_startedStream hvalid hstride
  · intro streamId stream hstr
    have hstr := (hget streamId).symm.trans hstr
    split at hstr
    next heq =>
      exact .inr ⟨_, _, rfl, heq.symm, rfl⟩
    · rw [activeStreams_removeTombstone] at hstr
      exact .inl (hsett streamId stream hstr)

section

variable (h : r.Wf) (hstate : r.state = .readStreamPayload reservation read)
include h hstate

lemma Reader.Wf.payloadMore
    (hget : r.streaming.activeStreams.get reservation.streamId = some stream)
    (hlen : read + bytes.length < reservation.len) : Wf { r with
      state := .readStreamPayload reservation (read + bytes.length)
      streaming := r.streaming.modifyActive reservation.streamId
        fun stream => filled stream now reservation read bytes } := by
  have hwf := h.state
  rw [hstate] at hwf
  obtain ⟨-, hreserved⟩ := hwf
  have hget' := Table.get_modify r.streaming.activeStreams reservation.streamId
    fun stream => filled stream now reservation read bytes
  refine ⟨?_, ⟨hlen, ?_⟩, ?_⟩
  · refine h.streaming.modifyActive (fun _ _ => ⟨rfl, rfl⟩) ?_
    intro stream' stride hstr' hstride
    exact wf_filled hstride (hreserved stream' stride hstr' hstride) (by omega)
  · intro stream' stride hstr' hstride
    have hstr' := (hget' _).symm.trans hstr'
    rw [if_pos rfl, hget] at hstr'
    cases hstr'
    obtain ⟨-, stride₀, hstride₀⟩ := h.streaming.active _ stream hget
    -- filling a chunk does not move the stride
    obtain rfl := stride_eq hstride₀ hstride rfl
    have hr := hreserved stream stride hget hstride₀
    exact ⟨hr.index, hr.offset, hr.len, hr.unset⟩
  · intro streamId stream' hstr'
    have hfst : ∀ s, r.streaming.activeStreams.get streamId = some s →
        s.receivedChunks.test 0 = true ∨
          ReadsFirst (.readStreamPayload reservation (read + bytes.length)) streamId := by
      intro s hs
      obtain hset | ⟨res, read', hpay, hid, hidx⟩ := h.first streamId s hs
      · exact .inl hset
      · rw [hstate] at hpay
        cases hpay
        exact .inr ⟨_, _, rfl, hid, hidx⟩
    have hstr' := (hget' streamId).symm.trans hstr'
    split at hstr'
    next heq =>
      obtain ⟨s, hs, rfl⟩ := Option.map_eq_some_iff.mp hstr'
      exact hfst s (heq ▸ hs)
    · exact hfst stream' hstr'

lemma Reader.Wf.chunkDone
    (hget : r.streaming.activeStreams.get reservation.streamId = some stream)
    (hwf : (committed (filled stream now reservation read bytes) now' reservation).Wf stride) :
    Wf { r with
      state := .new
      streaming := r.streaming.modifyActive reservation.streamId
        fun _ => committed (filled stream now reservation read bytes) now' reservation } := by
  have hstateWf := h.state
  rw [hstate] at hstateWf
  obtain ⟨-, hreserved⟩ := hstateWf
  obtain ⟨hid, stride₀, hstride₀⟩ := h.streaming.active _ stream hget
  have hr := hreserved stream stride₀ hget hstride₀
  have hget' := Table.get_modify r.streaming.activeStreams reservation.streamId
    fun _ => committed (filled stream now reservation read bytes) now' reservation
  refine ⟨?_, zero_lt_succ 3, ?_⟩
  · refine h.streaming.modifyActive ?_ ?_
    · intro stream' hstr'
      rw [hget] at hstr'
      cases hstr'
      exact ⟨rfl, rfl⟩
    · intro stream' stride' hstr' hstride'
      rw [hget] at hstr'
      cases hstr'
      obtain rfl := stride_eq hstride' hwf rfl
      exact hwf
  · intro streamId stream' hstr'
    have hstr' := (hget' streamId).symm.trans hstr'
    split at hstr'
    · rw [hget] at hstr'
      cases hstr'
      left
      -- the chunk that was just committed, or one that was in before
      show (stream.receivedChunks.mark reservation.chunkIndex).test 0 = true
      rw [hstride₀.layout.test_mark hr.index]
      obtain hset | ⟨res, read', hpay, -, hidx⟩ := h.first _ stream hget
      · rw [hset]
        rfl
      · rw [hstate] at hpay
        cases hpay
        rw [hidx]
        simp
    next hne =>
      obtain hset | ⟨res, read', hpay, hid', -⟩ := h.first streamId stream' hstr'
      · exact .inl hset
      · rw [hstate] at hpay
        cases hpay
        exact absurd hid'.symm hne

lemma Reader.Wf.streamDone : Wf { r with
    state := .new
    streaming := { r.streaming with
      activeStreams := r.streaming.activeStreams.remove reservation.streamId } } := by
  refine ⟨h.streaming.removeActive _, zero_lt_succ 3, ?_⟩
  intro streamId stream hstr
  have hstr := (Table.get_remove ..).symm.trans hstr
  split at hstr
  · cases hstr
  next hne =>
    obtain hset | ⟨res, read', hpay, hid', -⟩ := h.first streamId stream hstr
    · exact .inl hset
    · rw [hstate] at hpay
      cases hpay
      exact absurd hid'.symm hne

end

lemma Reader.Wf.settle {state : ReadState} {routes : RouteTable} (h : r.Wf)
    (hnot : ∀ res read, r.state ≠ .readStreamPayload res read) (hstr : streaming.Wf)
    (hactive : streaming.activeStreams = r.streaming.activeStreams)
    (hstate : StateWf streaming state) : Wf ⟨state, streaming, routes⟩ := by
  refine ⟨hstr, hstate, ?_⟩
  intro streamId stream hget
  rw [hactive] at hget
  exact .inl (h.settled hnot streamId stream hget)

lemma Reader.Wf.of_finishDiscarding (h : r.Wf)
    (hfinish : finishDiscardingReservation r.streaming mark = (.ok (), streaming)) :
    streaming.Wf ∧ streaming.activeStreams = r.streaming.activeStreams ∧
      streaming.maxConcurrentStreams = r.streaming.maxConcurrentStreams := by
  cases mark with
  | none =>
    cases hfinish
    exact ⟨h.streaming, rfl, rfl⟩
  | some => exact h.streaming.of_markTombstone hfinish

lemma PollStep.wf {res : ReadPollResult α} (hstep : PollStep ctx r bytes res r') (h : r.Wf) :
    r'.Wf := by
  cases hstep with
  | idle => exact h
  | prefixMore hstate hlen =>
    exact h.settle (by rw [hstate]; exact nofun) h.streaming rfl hlen
  | prefixBody hstate hlen hcontrol hkind hpos =>
    exact h.settle (by rw [hstate]; exact nofun) h.streaming rfl ⟨hlen, hpos, _, hcontrol, hkind⟩
  | prefixMeta hstate hlen hcontrol hkind hle =>
    exact h.settle (by rw [hstate]; exact nofun) h.streaming rfl
      ⟨hkind, streamMetaLen_pos hkind, hle, (encodeControl_of_decodeControl hlen hcontrol).2⟩
  | bodyMore hstate hlen | metaMore hstate hlen =>
    have hwf := h.state
    rw [hstate] at hwf
    exact h.settle (by rw [hstate]; exact nofun) h.streaming rfl ⟨hwf.1, hlen, hwf.2.2⟩
  | bodyDone hstate =>
    exact h.settle (by rw [hstate]; exact nofun) h.streaming rfl (zero_lt_succ 3)
  | opened _ hstate _ _ _ hvalid hwf => exact h.opened hstate hvalid hwf
  | turnedAway hstate =>
    exact h.settle (by rw [hstate]; exact nofun) (h.streaming.removeTombstone _)
      (activeStreams_removeTombstone ..) trivial
  | tombstoned hstate _ _ _ _ _ hwf hactive =>
    exact h.settle (by rw [hstate]; exact nofun) hwf hactive trivial
  | reserved hstate _ _ hget hwf hreserved =>
    refine h.settle (by rw [hstate]; exact nofun) h.streaming rfl ⟨hreserved.pos hwf, ?_⟩
    intro stream' stride' hstr' hstride'
    have hstr' := hget.symm.trans hstr'
    cases hstr'
    obtain rfl := stride_eq hwf hstride' rfl
    exact hreserved
  | marked hstate _ _ _ hmark =>
    obtain ⟨hwf, hactive, -⟩ := h.streaming.of_markTombstone hmark
    exact h.settle (by rw [hstate]; exact nofun) hwf hactive trivial
  | reaped hstate hnone =>
    refine ⟨h.streaming, trivial, ?_⟩
    intro streamId stream hget
    obtain hset | ⟨res, read, hpay, hid, -⟩ := h.first streamId stream hget
    · exact .inl hset
    · rw [hstate] at hpay
      cases hpay
      rw [← hid, hnone] at hget
      cases hget
  | payloadMore _ hstate hget hlen => exact h.payloadMore hstate hget hlen
  | chunkDone _ _ hstate hget _ hwf => exact h.chunkDone hstate hget hwf
  | streamDone _ _ hstate => exact h.streamDone hstate
  | discardMore hstate => exact h.settle (by rw [hstate]; exact nofun) h.streaming rfl trivial
  | discardDone hstate _ hfinish =>
    obtain ⟨hwf, hactive, -⟩ := h.of_finishDiscarding hfinish
    exact h.settle (by rw [hstate]; exact nofun) hwf hactive (zero_lt_succ 3)

end Steps

end IcanactRemote
