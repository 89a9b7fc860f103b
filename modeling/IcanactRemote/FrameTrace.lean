/-
A connection seen frame by frame.

A `StreamTrace` is the list of the whole frames a connection has read, where it
is in the next one, and its stream table.  `FrameStep` says what a poll does to
it; how the transport cuts the bytes no longer shows.

* `Matches.polled` — every poll of the reader is such a step;
* `Connection.trace_invariant` — what every step and every pass of the reaper
  preserves holds of the trace of every run.
-/
import IcanactRemote.StreamBounds

namespace IcanactRemote

open StreamingState List

/-! ### Frames -/

structure Frame where
  kind : WireKind
  body : Bytes
  deriving DecidableEq, Repr

namespace Frame

def bytes (f : Frame) : Bytes := encodeControl ⟨f.kind, f.body.length⟩ ++ f.body

def isStart (f : Frame) : Bool := f.kind.isStreamStart

def streamId (f : Frame) : ℕ := metaStreamId f.body

def correlationId (f : Frame) : UInt32 := metaCorrelationId f.body

def totalSize (f : Frame) : ℕ := metaTotalSize f.body

def actorId (f : Frame) : UInt64 := if f.kind = .streamStart then metaActorId f.body else 0

def typeHash (f : Frame) : UInt32 := if f.kind = .streamStart then metaTypeHash f.body else 0

/-- The index of the chunk a stream frame carries; a start frame carries the first. -/
def chunkIndex (f : Frame) : ℕ := if f.kind.isStreamStart then 0 else metaChunkIndex f.body

def payload (f : Frame) : Bytes := f.body.drop ((streamMetaLen f.kind).getD 0)

/-- A frame that carries chunk `i` of the stream. -/
def IsChunk (f : Frame) (streamId i : ℕ) : Prop :=
  (f.kind.isStreamStart || f.kind.isStreamData) = true ∧ f.streamId = streamId ∧ f.chunkIndex = i

/-- The frame starts a stream of this id. -/
def Starts (f : Frame) (streamId : ℕ) : Prop := f.isStart = true ∧ f.streamId = streamId

/-- The stream an abort frame names. -/
def aborts (f : Frame) : Option ℕ := if f.kind = .streamAbort then some f.streamId else none

end Frame

/-- The control word has room for the length of each body. -/
abbrev AllFit (frames : List Frame) : Prop := ∀ f ∈ frames, f.body.length ≤ controlBodyLenMask

/-- The transport hands over each frame in one piece. -/
def Frame.segments (f : Frame) : List Segment :=
  match f.bytes with
  | [] => []
  | b :: bs => [.data b bs]

/-- A stream frame whose metadata is in, with the part of its payload read so far. -/
structure Cursor where
  kind : WireKind
  metadata : Bytes
  payloadLen : ℕ
  payload : Bytes
  deriving DecidableEq, Repr

open Cursor

namespace Cursor

def bytes (cur : Cursor) : Bytes :=
  encodeControl ⟨cur.kind, cur.metadata.length + cur.payloadLen⟩ ++ (cur.metadata ++ cur.payload)

def frame (cur : Cursor) : Frame := ⟨cur.kind, cur.metadata ++ cur.payload⟩

def streamId (cur : Cursor) : ℕ := metaStreamId cur.metadata

def chunkIndex (cur : Cursor) : ℕ :=
  if cur.kind.isStreamStart then 0 else metaChunkIndex cur.metadata

def header (cur : Cursor) : StreamHeader := startHeader cur.kind cur.metadata cur.payloadLen

def reservation (cur : Cursor) (offset : ℕ) : StreamChunkReservation :=
  ⟨cur.streamId, cur.chunkIndex, offset, cur.payloadLen⟩

/-- The stream once the next bytes of the payload are in its buffer. -/
abbrev fill (cur : Cursor) (stream : InProgressStream) (now : Instant) (offset : ℕ)
    (bytes : Bytes) : InProgressStream :=
  filled stream now (cur.reservation offset) cur.payload.length bytes

def mark (cur : Cursor) (marks : Bool) : Option (ℕ × ℕ) :=
  if marks then some (cur.streamId, cur.chunkIndex) else none

def add (cur : Cursor) (bytes : Bytes) : Cursor := { cur with payload := cur.payload ++ bytes }

/-- The metadata has the length its kind asks for, and the frame fits its
control word. -/
def Ok (cur : Cursor) : Prop :=
  streamMetaLen cur.kind = some cur.metadata.length ∧
    cur.metadata.length + cur.payloadLen ≤ controlBodyLenMask

@[simp] lemma streamId_add (cur : Cursor) (bytes : Bytes) :
    (cur.add bytes).streamId = cur.streamId := rfl

lemma chunkIndex_of_data {cur : Cursor} (h : cur.kind.isStreamData = true) :
    cur.chunkIndex = metaChunkIndex cur.metadata := by
  rw [chunkIndex, WireKind.isStreamStart_of_data h]
  rfl

lemma bytes_add {cur : Cursor} {bytes : Bytes} : (cur.add bytes).bytes = cur.bytes ++ bytes := by
  rw [Cursor.bytes, Cursor.bytes, append_assoc, append_assoc]
  rfl

lemma bytes_frame {cur : Cursor} (h : cur.payload.length = cur.payloadLen) :
    cur.frame.bytes = cur.bytes := by
  rw [Frame.bytes, bytes, ← h]
  show encodeControl ⟨cur.kind, (cur.metadata ++ cur.payload).length⟩ ++ _ = _
  rw [length_append]
  rfl

section Fields

variable {cur : Cursor} (h : cur.Ok)

include h

lemma length_metadata : (cur.kind.isStreamStart = true ∧ (cur.metadata.length = 24 ∨
      (cur.metadata.length = 12 ∧ cur.kind = .streamResponseStart))) ∨
    (cur.kind.isStreamData = true ∧ cur.metadata.length = 8) :=
  streamMetaLen_cases h.1

lemma eight_le_metadata : 8 ≤ cur.metadata.length := by
  obtain ⟨-, h24 | ⟨h12, -⟩⟩ | ⟨-, h8⟩ := length_metadata h
  · omega
  · omega
  · omega

lemma streamId_frame : cur.frame.streamId = cur.streamId := by
  have hlen := eight_le_metadata h
  show metaStreamId (cur.metadata ++ cur.payload) = metaStreamId cur.metadata
  rw [metaStreamId, slice_append_left (by omega), metaStreamId]

lemma correlationId_frame : cur.frame.correlationId = metaCorrelationId cur.metadata := by
  have hlen := eight_le_metadata h
  show metaCorrelationId (cur.metadata ++ cur.payload) = _
  rw [metaCorrelationId, slice_append_left (by omega), metaCorrelationId]

lemma chunkIndex_frame : cur.frame.chunkIndex = cur.chunkIndex := by
  have hlen := eight_le_metadata h
  have hidx : metaChunkIndex (cur.metadata ++ cur.payload) = metaChunkIndex cur.metadata := by
    rw [metaChunkIndex, slice_append_left (by omega), metaChunkIndex]
  show (if cur.kind.isStreamStart then 0 else metaChunkIndex (cur.metadata ++ cur.payload)) = _
  rw [hidx, chunkIndex]

lemma payload_frame : cur.frame.payload = cur.payload := by
  have hmeta := h.1
  show (cur.metadata ++ cur.payload).drop ((streamMetaLen cur.kind).getD 0) = cur.payload
  rw [hmeta, Option.getD_some, drop_left]

lemma aborts_frame : cur.frame.aborts = none := by
  have hmeta := h.1
  refine if_neg ?_
  intro hkind
  have hkind : cur.kind = .streamAbort := hkind
  rw [hkind] at hmeta
  cases hmeta

lemma twelve_le_metadata (hsta : cur.kind.isStreamStart = true) : 12 ≤ cur.metadata.length := by
  obtain ⟨-, h24 | ⟨h12, -⟩⟩ | ⟨hdata, -⟩ := length_metadata h
  · omega
  · omega
  · rw [WireKind.isStreamStart_of_data hdata] at hsta
    cases hsta

lemma totalSize_frame (hsta : cur.kind.isStreamStart = true) :
    cur.frame.totalSize = metaTotalSize cur.metadata := by
  have hlen := twelve_le_metadata h hsta
  show metaTotalSize (cur.metadata ++ cur.payload) = _
  rw [metaTotalSize, slice_append_left (by omega), metaTotalSize]

lemma length_metadata_streamStart (hkind : cur.kind = .streamStart) : cur.metadata.length = 24 := by
  have hmeta := h.1
  rw [hkind] at hmeta
  exact (Option.some.inj hmeta).symm

lemma start_frame :
    cur.frame.actorId = cur.header.actorId ∧ cur.frame.typeHash = cur.header.typeHash := by
  show (if cur.kind = .streamStart then metaActorId (cur.metadata ++ cur.payload) else 0) = _ ∧
    (if cur.kind = .streamStart then metaTypeHash (cur.metadata ++ cur.payload) else 0) = _
  rw [header, startHeader]
  by_cases hkind : cur.kind = .streamStart
  · have hlen := length_metadata_streamStart h hkind
    simp only [if_pos hkind, metaActorId, metaTypeHash]
    rw [slice_append_left (by omega), slice_append_left (by omega)]
    exact ⟨rfl, rfl⟩
  · simp only [if_neg hkind, and_self]

end Fields

end Cursor

/-! ### Traces -/

/-- Where the reader is: before the payload of a stream frame or in an inline
frame, filling the buffer of a stream, or throwing a payload away. -/
inductive Phase
  | between (part : Bytes)
  | filling (cur : Cursor) (offset : ℕ)
  | discarding (cur : Cursor) (marks : Bool)

def Phase.bytes : Phase → Bytes
  | .between part => part
  | .filling cur _ => cur.bytes
  | .discarding cur _ => cur.bytes

structure StreamTrace where
  frames : List Frame
  phase : Phase
  streaming : StreamingState
  delivered : List CompletedV5Stream

open StreamTrace

namespace StreamTrace

def start (streaming : StreamingState) : StreamTrace := ⟨[], .between [], streaming, []⟩

def bytes (t : StreamTrace) : Bytes := t.frames.flatMap Frame.bytes ++ t.phase.bytes

/-- The stream table after an inline frame. -/
def aborted (streaming : StreamingState) : Option ℕ → StreamingState
  | some streamId => (streaming.abortStream streamId).2
  | none => streaming

/-- What the phase knows of the stream table. -/
structure Wf (t : StreamTrace) : Prop where
  frames : ∀ f ∈ t.frames, f.body.length ≤ controlBodyLenMask
  streaming : t.streaming.Wf
  filling : ∀ cur offset, t.phase = .filling cur offset → cur.Ok ∧
    cur.payload.length < cur.payloadLen ∧ ∀ stream stride,
      t.streaming.activeStreams.get cur.streamId = some stream → stream.Wf stride →
        Reserved stream stride (cur.reservation offset)
  discarding : ∀ cur marks, t.phase = .discarding cur marks →
    cur.Ok ∧ cur.payload.length ≤ cur.payloadLen
  first : ∀ streamId stream, t.streaming.activeStreams.get streamId = some stream →
    stream.receivedChunks.test 0 = true ∨
      ∃ cur offset, t.phase = .filling cur offset ∧ cur.streamId = streamId ∧ cur.chunkIndex = 0

end StreamTrace

/-- What a poll does to a trace. -/
inductive FrameStep (t : StreamTrace) : StreamTrace → Prop
  | quiet (bytes : Bytes) (hphase : t.phase = .between part) :
      FrameStep t { t with phase := .between (part ++ bytes) }
  /-- an inline frame is in and dispatched -/
  | inline {bytes : Bytes} {f : Frame} (hphase : t.phase = .between part)
      (hkind : streamMetaLen f.kind = none) (hlen : f.body.length ≤ controlBodyLenMask)
      (hbytes : f.bytes = part ++ bytes) :
      FrameStep t { t with
        frames := t.frames ++ [f]
        phase := .between []
        streaming := StreamTrace.aborted t.streaming f.aborts }
  | opened {bytes : Bytes} {cur : Cursor} (clock : ℕ → Instant)
      (hphase : t.phase = .between part) (hcur : cur.Ok) (hempty : cur.payload = [])
      (hbytes : cur.bytes = part ++ bytes) (hkind : cur.kind.isStreamStart = true)
      (hnone : t.streaming.activeStreams.get cur.streamId = none)
      (hvalid : ValidStart cur.header cur.payloadLen) :
      FrameStep t { t with
        phase := .filling cur 0
        streaming := (t.streaming.removeTombstone cur.streamId).insertActive cur.streamId
          (startedStream clock cur.header (metaCorrelationId cur.metadata)
            (cur.kind = .streamResponseStart) cur.payloadLen) }
  | turnedAway {bytes : Bytes} {cur : Cursor} (hphase : t.phase = .between part)
      (hcur : cur.Ok) (hempty : cur.payload = []) (hbytes : cur.bytes = part ++ bytes)
      (hkind : cur.kind.isStreamStart = true)
      (hnone : t.streaming.activeStreams.get cur.streamId = none)
      (hvalid : ValidStart cur.header cur.payloadLen)
      (hcount : divCeil (metaTotalSize cur.metadata) cur.payloadLen ≤ 1) :
      FrameStep t { t with
        phase := .discarding cur false
        streaming := t.streaming.removeTombstone cur.streamId }
  | tombstoned {bytes : Bytes} {cur : Cursor} {streaming : StreamingState}
      (hphase : t.phase = .between part) (hcur : cur.Ok) (hempty : cur.payload = [])
      (hbytes : cur.bytes = part ++ bytes) (hkind : cur.kind.isStreamStart = true)
      (hnone : t.streaming.activeStreams.get cur.streamId = none)
      (hvalid : ValidStart cur.header cur.payloadLen)
      (hcount : 1 < divCeil (metaTotalSize cur.metadata) cur.payloadLen)
      (hactive : streaming.activeStreams = t.streaming.activeStreams)
      (hget : ∀ id, streaming.rejectedStreams.get id =
        if id = cur.streamId then
          some (RejectedStreamTombstone.rejected (metaTotalSize cur.metadata) cur.payloadLen)
        else t.streaming.rejectedStreams.get id) :
      FrameStep t { t with phase := .discarding cur false, streaming }
  | reserved {bytes : Bytes} {cur : Cursor} {stream : InProgressStream}
      (hphase : t.phase = .between part) (hcur : cur.Ok) (hempty : cur.payload = [])
      (hbytes : cur.bytes = part ++ bytes) (hkind : cur.kind.isStreamData = true)
      (hget : t.streaming.activeStreams.get cur.streamId = some stream) (hwf : stream.Wf stride)
      (hreserved : Reserved stream stride (cur.reservation (cur.chunkIndex * stride))) :
      FrameStep t { t with phase := .filling cur (cur.chunkIndex * stride) }
  | marked {bytes : Bytes} {cur : Cursor}
      {streaming : StreamingState} (hphase : t.phase = .between part) (hcur : cur.Ok)
      (hempty : cur.payload = []) (hbytes : cur.bytes = part ++ bytes)
      (hkind : cur.kind.isStreamData = true)
      (hget : t.streaming.rejectedStreams.get cur.streamId = some tombstone)
      (hmark : t.streaming.markTombstone cur.streamId cur.chunkIndex = (.ok (), streaming)) :
      FrameStep t { t with phase := .discarding cur false, streaming }
  | reaped {cur : Cursor} (hphase : t.phase = .filling cur offset)
      (hnone : t.streaming.activeStreams.get cur.streamId = none) :
      FrameStep t { t with phase := .discarding cur true }
  | payloadMore {cur : Cursor} {bytes : Bytes} {stream : InProgressStream}
      (now : Instant) (hphase : t.phase = .filling cur offset)
      (hget : t.streaming.activeStreams.get cur.streamId = some stream)
      (hlen : cur.payload.length + bytes.length < cur.payloadLen) :
      FrameStep t { t with
        phase := .filling (cur.add bytes) offset
        streaming := t.streaming.modifyActive cur.streamId
          fun stream => filled stream now (cur.reservation offset) cur.payload.length bytes }
  | chunkDone {cur : Cursor} {bytes : Bytes} {stream : InProgressStream}
      (now now' : Instant) (hphase : t.phase = .filling cur offset)
      (hget : t.streaming.activeStreams.get cur.streamId = some stream)
      (hlen : cur.payload.length + bytes.length = cur.payloadLen)
      (hwf : (committed (filled stream now (cur.reservation offset) cur.payload.length bytes) now'
        (cur.reservation offset)).Wf stride) :
      FrameStep t { t with
        frames := t.frames ++ [(cur.add bytes).frame]
        phase := .between []
        streaming := t.streaming.modifyActive cur.streamId fun _ =>
          committed (filled stream now (cur.reservation offset) cur.payload.length bytes) now'
            (cur.reservation offset) }
  | streamDone {cur : Cursor} {bytes : Bytes} {stream : InProgressStream}
      (now now' : Instant) (hphase : t.phase = .filling cur offset)
      (hget : t.streaming.activeStreams.get cur.streamId = some stream)
      (hlen : cur.payload.length + bytes.length = cur.payloadLen) (hwf : stream.Wf stride)
      (hall : ∀ i < divCeil stream.totalSize stride,
        (stream.receivedChunks.mark cur.chunkIndex).test i = true) :
      FrameStep t
        { frames := t.frames ++ [(cur.add bytes).frame]
          phase := .between []
          streaming := { t.streaming with
            activeStreams := t.streaming.activeStreams.remove cur.streamId }
          delivered := t.delivered ++ [(committed (filled stream now (cur.reservation offset)
            cur.payload.length bytes) now' (cur.reservation offset)).completed] }
  | discardMore {cur : Cursor} {bytes : Bytes}
      (hphase : t.phase = .discarding cur marks)
      (hlen : cur.payload.length + bytes.length < cur.payloadLen) :
      FrameStep t { t with phase := .discarding (cur.add bytes) marks }
  | discardDone {cur : Cursor} {bytes : Bytes} {streaming : StreamingState}
      (hphase : t.phase = .discarding cur marks)
      (hlen : cur.payload.length + bytes.length = cur.payloadLen)
      (hfinish : Reader.finishDiscardingReservation t.streaming (cur.mark marks) =
        (.ok (), streaming)) :
      FrameStep t { t with
        frames := t.frames ++ [(cur.add bytes).frame]
        phase := .between []
        streaming }

/-! ### The reader's steps are steps of the trace -/

/-- The phase a state of the reader is in. -/
def PhaseOf : ReadState → Phase → Prop
  | .readLen buf, .between part => part = buf
  | .readBody buf _ body, .between part => part = buf ++ body
  | .readStreamMeta kind bodyLen metadata _, .between part =>
    part = encodeControl ⟨kind, bodyLen⟩ ++ metadata
  | .readStreamPayload reservation read, .filling cur offset =>
    cur.Ok ∧ reservation = cur.reservation offset ∧ read = cur.payload.length
  | .discardStreamPayload remaining mark, .discarding cur marks =>
    cur.Ok ∧ cur.payload.length + remaining = cur.payloadLen ∧ mark = cur.mark marks
  | _, _ => False

section Sim

variable {α : Type} {ctx : ReadContext α} {c c' : Connection α} {t t' : StreamTrace} {total : Bytes}

/-- The trace of a connection that has taken all but its inbox of `total`. -/
structure Matches (total : Bytes) (c : Connection α) (t : StreamTrace) : Prop where
  frames : ∀ f ∈ t.frames, f.body.length ≤ controlBodyLenMask
  reader : c.reader.Wf
  phase : PhaseOf c.reader.state t.phase
  streaming : t.streaming = c.reader.streaming
  delivered : t.delivered = c.delivered
  bytes : total = t.bytes ++ inboxBytes c.inbox

lemma Matches.wf (h : Matches total c t) : t.Wf where
  frames := h.frames
  streaming := h.streaming ▸ h.reader.streaming
  filling cur offset hphase := by
    have hof := h.phase
    have hwf := h.reader.state
    rw [hphase] at hof
    cases hst : c.reader.state with
    | readStreamPayload =>
      rw [hst] at hof hwf
      obtain ⟨hcur, rfl, rfl⟩ := hof
      obtain ⟨hread, hreserved⟩ := hwf
      refine ⟨hcur, hread, ?_⟩
      rw [h.streaming]
      exact hreserved
    | _ => rw [hst] at hof; cases hof
  discarding cur marks hphase := by
    have hof := h.phase
    rw [hphase] at hof
    cases hst : c.reader.state with
    | discardStreamPayload =>
      rw [hst] at hof
      obtain ⟨hcur, hlen, -⟩ := hof
      exact ⟨hcur, by omega⟩
    | _ => rw [hst] at hof; cases hof
  first streamId stream hget := by
    rw [h.streaming] at hget
    obtain hset | ⟨reservation, read, hst, hid, hidx⟩ := h.reader.first streamId stream hget
    · exact .inl hset
    · have hof := h.phase
      rw [hst] at hof
      -- the stream without its first chunk is the one being read
      cases hphase : t.phase with
      | filling cur offset =>
        rw [hphase] at hof
        obtain ⟨-, rfl, -⟩ := hof
        exact .inr ⟨cur, offset, rfl, hid, hidx⟩
      | _ => rw [hphase] at hof; cases hof

lemma matches_start (streaming : StreamingState) (routes : RouteTable) (inbox : List Segment)
    (h : streaming.Wf) (hnone : ∀ streamId, streaming.activeStreams.get streamId = none) :
    Matches (inboxBytes inbox) (Connection.start streaming routes inbox : Connection α)
      (.start streaming) where
  frames := nofun
  reader := Reader.wf_new h routes hnone
  phase := rfl
  streaming := rfl
  delivered := rfl
  bytes := rfl

variable {phase : Phase}

lemma phaseOf_readLen {buf : Bytes} (h : PhaseOf (.readLen buf) phase) : phase = .between buf := by
  cases phase with
  | between => exact congrArg _ h
  | _ => cases h

variable {kind : WireKind} {I : StreamTrace → Prop} {bodyLen metaLen : ℕ} {buf body : Bytes}
  {metadata : Bytes} {msgLen read remaining : ℕ} {f : Frame}

lemma phaseOf_readBody (h : PhaseOf (.readBody buf msgLen body) phase) :
    phase = .between (buf ++ body) := by
  cases phase with
  | between => exact congrArg _ h
  | _ => cases h

lemma phaseOf_readStreamMeta (h : PhaseOf (.readStreamMeta kind bodyLen metadata metaLen) phase) :
    phase = .between (encodeControl ⟨kind, bodyLen⟩ ++ metadata) := by
  cases phase with
  | between => exact congrArg _ h
  | _ => cases h

lemma phaseOf_readStreamPayload {reservation : StreamChunkReservation}
    (h : PhaseOf (.readStreamPayload reservation read) phase) :
    ∃ cur offset, phase = .filling cur offset ∧ cur.Ok ∧
      reservation = cur.reservation offset ∧ read = cur.payload.length := by
  cases phase with
  | filling cur offset => exact ⟨cur, offset, rfl, h⟩
  | _ => cases h

lemma phaseOf_discardStreamPayload {mark : Option (ℕ × ℕ)}
    (h : PhaseOf (.discardStreamPayload remaining mark) phase) :
    ∃ cur marks, phase = .discarding cur marks ∧ cur.Ok ∧
      cur.payload.length + remaining = cur.payloadLen ∧ mark = cur.mark marks := by
  cases phase with
  | discarding cur marks => exact ⟨cur, marks, rfl, h⟩
  | _ => cases h

variable {delivered : List CompletedV5Stream} {streaming : StreamingState}

lemma StreamTrace.bytes_within {bytes : Bytes} (hbytes : phase.bytes = t.phase.bytes ++ bytes) :
    (⟨t.frames, phase, streaming, delivered⟩ : StreamTrace).bytes = t.bytes ++ bytes := by
  show t.frames.flatMap Frame.bytes ++ phase.bytes = _
  rw [hbytes, StreamTrace.bytes, append_assoc]

lemma StreamTrace.bytes_done {bytes : Bytes} (hbytes : f.bytes = t.phase.bytes ++ bytes) :
    (⟨t.frames ++ [f], .between [], streaming, delivered⟩ : StreamTrace).bytes =
      t.bytes ++ bytes := by
  show (t.frames ++ [f]).flatMap Frame.bytes ++ [] = _
  rw [append_nil, flatMap_append, flatMap_singleton, hbytes, StreamTrace.bytes, append_assoc]

lemma dispatch_of_abortOf {result : MessageReadResult α} (h : AbortOf kind body result)
    (s : StreamingState) : Connection.dispatch s (some result) =
      aborted s (⟨kind, body⟩ : Frame).aborts := by
  unfold AbortOf at h
  by_cases hkind : kind = .streamAbort
  · rw [if_pos hkind] at h
    obtain ⟨reason, rfl⟩ := h
    rw [Frame.aborts, if_pos hkind]
    rfl
  · rw [if_neg hkind] at h
    rw [Frame.aborts, if_neg hkind]
    cases result with
    | streamAbort streamId reason => exact absurd rfl (h streamId reason)
    | _ => rfl

lemma dispatch_completed (completed : CompletedV5Stream) (s : StreamingState) :
    Connection.dispatch s (some (completedV5StreamResult completed : MessageReadResult α)) = s := by
  unfold completedV5StreamResult
  split <;> rfl

section Polled

variable {bytes : Bytes} {res : ReadPollResult α} {reader : Reader} {inbox : List Segment}

lemma Matches.next (h : Matches total c t)
    (hbytes : inboxBytes c.inbox = bytes ++ inboxBytes inbox)
    (hstep : PollStep ctx c.reader bytes res reader) (t' : StreamTrace)
    (hphase : PhaseOf reader.state t'.phase)
    (hstr : t'.streaming = Connection.dispatch reader.streaming res.result)
    (hdeliv : t'.delivered = t.delivered ++ res.completed.toList) (hfrs : AllFit t'.frames)
    (htaken : t'.bytes = t.bytes ++ bytes) : Matches total (c.polled res reader inbox) t' where
  frames := hfrs
  reader := h.reader.dispatched hstep
  phase := hphase
  streaming := hstr
  delivered := by
    rw [hdeliv, h.delivered]
    rfl
  bytes := by
    show total = t'.bytes ++ inboxBytes inbox
    rw [h.bytes, hbytes, htaken, append_assoc]

lemma cursor_of_meta (h : c.reader.Wf)
    (hst : c.reader.state = .readStreamMeta kind bodyLen metadata metaLen)
    (hlen : (metadata ++ bytes).length = metaLen) :
    (⟨kind, metadata ++ bytes, bodyLen - metaLen, []⟩ : Cursor).Ok ∧
      (⟨kind, metadata ++ bytes, bodyLen - metaLen, []⟩ : Cursor).bytes =
        (encodeControl ⟨kind, bodyLen⟩ ++ metadata) ++ bytes := by
  have hwf := h.state
  rw [hst] at hwf
  obtain ⟨hmeta, -, hle, hmask⟩ := hwf
  constructor
  · constructor
    · show streamMetaLen kind = some (metadata ++ bytes).length
      rw [hlen, hmeta]
    · show (metadata ++ bytes).length + (bodyLen - metaLen) ≤ controlBodyLenMask
      omega
  · show encodeControl ⟨kind, (metadata ++ bytes).length + (bodyLen - metaLen)⟩ ++
      ((metadata ++ bytes) ++ []) = _
    rw [hlen, Nat.add_sub_cancel' hle, append_nil, append_assoc]

lemma bytes_of_body (hlen : (body ++ bytes).length = msgLen)
    (hbuf : encodeControl ⟨kind, msgLen⟩ = buf) :
    (⟨kind, body ++ bytes⟩ : Frame).bytes = (buf ++ body) ++ bytes := by
  show encodeControl ⟨kind, (body ++ bytes).length⟩ ++ (body ++ bytes) = _
  rw [hlen, hbuf, append_assoc]

variable {result : Option (MessageReadResult α)} {delivered : List CompletedV5Stream}
  {streaming : StreamingState} {frames : List Frame} {cur : Cursor}

section

variable (h : AllFit frames)
include h

lemma frames_concat (hf : f.body.length ≤ controlBodyLenMask) : AllFit (frames ++ [f]) := by
  intro g hg
  obtain hg | hg := mem_append.mp hg
  · exact h g hg
  · rw [mem_singleton.mp hg]
    exact hf

lemma frames_done (hcur : cur.Ok) (hlen : cur.payload.length + bytes.length = cur.payloadLen) :
    AllFit (frames ++ [(cur.add bytes).frame]) := by
  refine frames_concat h ?_
  have hmask := hcur.2
  show (cur.metadata ++ (cur.payload ++ bytes)).length ≤ controlBodyLenMask
  rw [length_append, length_append]
  omega

end

/-- An abort frame shows in the results. -/
def AbortShows (t t' : StreamTrace) (result : Option (MessageReadResult α)) : Prop :=
  ∀ f id, t'.frames = t.frames ++ [f] → f.aborts = some id →
    ∃ reason, result = some (.streamAbort id reason)

lemma abortShows_within (h : t'.frames = t.frames) : AbortShows t t' result := by
  intro f id hfrs
  rw [h] at hfrs
  exact absurd (self_eq_append_right.mp hfrs) (cons_ne_nil _ _)

lemma abortShows_cursor (hcur : cur.Ok) :
    AbortShows t ⟨t.frames ++ [(cur.add bytes).frame], phase, streaming, delivered⟩ result := by
  intro f id hfrs haborts
  have hf := append_cancel_left hfrs
  cases hf
  have hok : (cur.add bytes).Ok := hcur
  rw [aborts_frame hok] at haborts
  cases haborts

lemma abortShows_inline {result : MessageReadResult α} (h : AbortOf kind body result) :
    AbortShows t ⟨t.frames ++ [⟨kind, body⟩], phase, streaming, delivered⟩ (some result) := by
  intro f id hfrs haborts
  have hf := append_cancel_left hfrs
  cases hf
  unfold Frame.aborts at haborts
  unfold AbortOf at h
  split at haborts
  next hkind =>
    rw [if_pos hkind] at h
    obtain ⟨reason, rfl⟩ := h
    cases haborts
    exact ⟨reason, rfl⟩
  · cases haborts

lemma Matches.within (h : Matches total c t)
    (hbytes : inboxBytes c.inbox = bytes ++ inboxBytes inbox)
    (hpoll : PollStep ctx c.reader bytes res reader) ⦃phase : Phase⦄ ⦃streaming : StreamingState⦄
    (hstep : FrameStep t ⟨t.frames, phase, streaming, t.delivered⟩)
    (hphase : PhaseOf reader.state phase)
    (hstr : streaming = Connection.dispatch reader.streaming res.result)
    (htaken : phase.bytes = t.phase.bytes ++ bytes) (hdone : res.completed = none) :
    ∃ t', FrameStep t t' ∧ AbortShows t t' res.result ∧
      Matches total (c.polled res reader inbox) t' := by
  refine ⟨_, hstep, abortShows_within rfl, h.next hbytes hpoll _ hphase hstr ?_ h.frames
    (bytes_within htaken ..)⟩
  rw [hdone]
  exact (append_nil _).symm

/-- **The reader follows the trace.**  A poll that moves on is a step of the
trace, or does nothing. -/
theorem Matches.polled (h : Matches total c t)
    (hbytes : inboxBytes c.inbox = bytes ++ inboxBytes inbox)
    (hstep : PollStep ctx c.reader bytes res reader) : Matches total (c.polled res reader inbox) t ∨
      ∃ t', FrameStep t t' ∧ AbortShows t t' res.result ∧
        Matches total (c.polled res reader inbox) t' := by
  have hphase := h.phase
  have hs := h.streaming
  have hnext := h.next hbytes hstep
  have hwithin := h.within hbytes hstep
  have hsame : t.delivered = t.delivered ++ [] := (append_nil _).symm
  cases hstep with
  | idle => exact .inl (hnext t hphase hs hsame h.frames (append_nil _).symm)
  -- up to the end of the metadata a step is quiet: the bytes only change hands
  | prefixMore hst =>
    have hphase := phaseOf_readLen (hst ▸ hphase)
    refine .inr (hwithin (.quiet bytes hphase) rfl hs ?_ rfl)
    rw [hphase]
    rfl
  | prefixBody hst =>
    have hphase := phaseOf_readLen (hst ▸ hphase)
    refine .inr (hwithin (.quiet bytes hphase) ?_ hs ?_ rfl)
    · exact (append_nil _).symm
    · rw [hphase]
      rfl
  | prefixMeta hst hlen hctl =>
    have hphase := phaseOf_readLen (hst ▸ hphase)
    refine .inr (hwithin (.quiet bytes hphase) ?_ hs ?_ rfl)
    · show _ = encodeControl _ ++ []
      rw [append_nil, (encodeControl_of_decodeControl hlen hctl).1]
    · rw [hphase]
      rfl
  | bodyMore hst =>
    have hphase := phaseOf_readBody (hst ▸ hphase)
    refine .inr (hwithin (.quiet bytes hphase) ?_ hs ?_ rfl)
    · exact append_assoc ..
    · rw [hphase]
      rfl
  | bodyDone hst hlen hbuf hkind habort =>
    have hphase := phaseOf_readBody (hst ▸ hphase)
    have hfr := bytes_of_body hlen hbuf.1
    have hmask := (Nat.le_of_eq hlen).trans hbuf.2
    refine .inr ⟨_, .inline hphase hkind hmask hfr, abortShows_inline habort, hnext _ rfl ?_
      hsame
      (frames_concat h.frames hmask) (bytes_done ?_ ..)⟩
    · show aborted t.streaming _ = Connection.dispatch c.reader.streaming (some _)
      rw [dispatch_of_abortOf habort, hs]
    · rw [hphase]
      exact hfr
  | metaMore hst =>
    have hphase := phaseOf_readStreamMeta (hst ▸ hphase)
    refine .inr (hwithin (.quiet bytes hphase) ?_ hs ?_ rfl)
    · exact append_assoc ..
    · rw [hphase]
      rfl
  -- the metadata is complete, and what becomes of the payload is decided
  | opened clock hst hlen hkind hnone hvalid =>
    have hphase := phaseOf_readStreamMeta (hst ▸ hphase)
    obtain ⟨hcur, hcby⟩ := cursor_of_meta h.reader hst hlen
    refine .inr (hwithin (.opened clock hphase hcur rfl hcby hkind (hs ▸ hnone) hvalid)
      ?_ ?_ ?_ rfl)
    · refine ⟨hcur, ?_, rfl⟩
      rw [reservation, chunkIndex, if_pos hkind]
      rfl
    · rw [hs]
      rfl
    · rw [hphase]
      exact hcby
  | turnedAway hst hlen hkind hnone hvalid hcount =>
    have hphase := phaseOf_readStreamMeta (hst ▸ hphase)
    obtain ⟨hcur, hcby⟩ := cursor_of_meta h.reader hst hlen
    refine .inr (hwithin
      (.turnedAway hphase hcur rfl hcby hkind (hs ▸ hnone) hvalid hcount) ?_ ?_ ?_ rfl)
    · exact ⟨hcur, Nat.zero_add _, rfl⟩
    · rw [hs]
      rfl
    · rw [hphase]
      exact hcby
  | tombstoned hst hlen hkind hnone hvalid hcount _ hactive _ hget =>
    have hphase := phaseOf_readStreamMeta (hst ▸ hphase)
    obtain ⟨hcur, hcby⟩ := cursor_of_meta h.reader hst hlen
    refine .inr (hwithin (.tombstoned hphase hcur rfl hcby hkind (hs ▸ hnone) hvalid hcount
      (hs ▸ hactive) (hs ▸ hget)) ?_ rfl ?_ rfl)
    · exact ⟨hcur, Nat.zero_add _, rfl⟩
    · rw [hphase]
      exact hcby
  | reserved hst hlen hkind hget hwf hreserved =>
    rename_i kind bodyLen metadata metaLen _ _
    have hphase := phaseOf_readStreamMeta (hst ▸ hphase)
    obtain ⟨hcur, hcby⟩ := cursor_of_meta h.reader hst hlen
    have hidx : (⟨kind, metadata ++ bytes, bodyLen - metaLen, []⟩ : Cursor).chunkIndex =
      metaChunkIndex (metadata ++ bytes) := chunkIndex_of_data hkind
    refine .inr (hwithin (.reserved hphase hcur rfl hcby hkind (hs ▸ hget) hwf ?_)
      ?_ hs ?_ rfl)
    · rw [reservation, hidx]
      exact hreserved
    · refine ⟨hcur, ?_, rfl⟩
      rw [reservation, hidx]
      rfl
    · rw [hphase]
      exact hcby
  | marked hst hlen hkind hget hmark =>
    have hphase := phaseOf_readStreamMeta (hst ▸ hphase)
    obtain ⟨hcur, hcby⟩ := cursor_of_meta h.reader hst hlen
    refine .inr (hwithin (.marked hphase hcur rfl hcby hkind (hs ▸ hget) ?_)
      ⟨hcur, Nat.zero_add _, rfl⟩ rfl ?_ rfl)
    · rw [chunkIndex_of_data hkind, hs]
      exact hmark
    · rw [hphase]
      exact hcby
  -- the stream of the chunk may have been cleaned up while its payload was read
  | reaped hst hnone =>
    obtain ⟨cur, offset, hfill, hcur, rfl, rfl⟩ := phaseOf_readStreamPayload (hst ▸ hphase)
    refine .inr (hwithin (.reaped hfill (hs ▸ hnone)) ?_ hs ?_ rfl)
    · have hread := (h.wf.filling cur offset hfill).2.1
      refine ⟨hcur, ?_, rfl⟩
      show cur.payload.length + (cur.payloadLen - cur.payload.length) = cur.payloadLen
      omega
    · rw [hfill]
      exact (append_nil _).symm
  | payloadMore now hst hget hlen =>
    obtain ⟨cur, offset, hfill, hcur, rfl, rfl⟩ := phaseOf_readStreamPayload (hst ▸ hphase)
    refine .inr (hwithin (.payloadMore now hfill (hs ▸ hget) hlen) ?_ ?_ ?_ rfl)
    · exact ⟨hcur, rfl, (length_append ..).symm⟩
    · rw [hs]
      rfl
    · rw [hfill]
      exact bytes_add
  -- with its last byte the chunk becomes a frame of the trace
  | chunkDone now now' hst hget hlen hwf =>
    obtain ⟨cur, offset, hfill, hcur, rfl, rfl⟩ := phaseOf_readStreamPayload (hst ▸ hphase)
    refine .inr ⟨_, .chunkDone now now' hfill (hs ▸ hget) hlen hwf, abortShows_cursor hcur,
      hnext _ rfl ?_ hsame
      (frames_done h.frames hcur hlen) (bytes_done ?_ ..)⟩
    · rw [hs]
      rfl
    · rw [hfill, bytes_frame ((length_append ..).trans hlen)]
      exact bytes_add
  | streamDone now now' hst hget hlen hwf hall =>
    obtain ⟨cur, offset, hfill, hcur, rfl, rfl⟩ := phaseOf_readStreamPayload (hst ▸ hphase)
    refine .inr ⟨_, .streamDone now now' hfill (hs ▸ hget) hlen hwf hall, abortShows_cursor hcur,
      hnext _ rfl ?_ rfl
      (frames_done h.frames hcur hlen) (bytes_done ?_ ..)⟩
    · rw [dispatch_completed, hs]
      rfl
    · rw [hfill, bytes_frame ((length_append ..).trans hlen)]
      exact bytes_add
  | discardMore hst =>
    obtain ⟨cur, marks, hdisc, hcur, hrest, rfl⟩ :=
      phaseOf_discardStreamPayload (hst ▸ hphase)
    have hless : cur.payload.length + bytes.length < cur.payloadLen := by omega
    refine .inr (hwithin (.discardMore hdisc hless) ?_ hs ?_ rfl)
    · refine ⟨hcur, ?_, rfl⟩
      show (cur.payload ++ bytes).length + _ = cur.payloadLen
      rw [length_append]
      omega
    · rw [hdisc]
      exact bytes_add
  | discardDone hst _ hfinish =>
    obtain ⟨cur, marks, hdisc, hcur, hrest, rfl⟩ :=
      phaseOf_discardStreamPayload (hst ▸ hphase)
    have hwhole : cur.payload.length + bytes.length = cur.payloadLen := by omega
    refine .inr ⟨_, .discardDone hdisc hwhole (hs ▸ hfinish), abortShows_cursor hcur,
      hnext _ rfl rfl hsame (frames_done h.frames hcur hwhole) (bytes_done ?_ ..)⟩
    rw [hdisc, bytes_frame ((length_append ..).trans hwhole)]
    exact bytes_add

end Polled

lemma Matches.reaps {s : StreamingState} {ok : Bool} (h : Matches total c t) (hwf : s.Wf)
    (hreaps : Reaps c.reader.streaming s ok) :
    Matches total { c with reader := { c.reader with streaming := s } }
      { t with streaming := s } where
  frames := h.frames
  reader := h.reader.reaps hwf hreaps
  phase := h.phase
  streaming := rfl
  delivered := h.delivered
  bytes := h.bytes

lemma Matches.step {e : ConnectionEvent} (h : Matches total c t) (hopen : c.stopped = none)
    (hopen' : (c.step ctx e).stopped = none) : Matches total (c.step ctx e) t ∨
      (∃ t' result, FrameStep t t' ∧ AbortShows t t' result ∧
        (c.step ctx e).results = c.results ++ result.toList ∧ Matches total (c.step ctx e) t') ∨
      ∃ idleTimeout rateWindow minBytesPerWindow clock order ok s,
        e = .cleanup idleTimeout rateWindow minBytesPerWindow clock order ∧
        t.streaming.cleanupStaleWith idleTimeout rateWindow minBytesPerWindow clock order =
          (.ok ok, s) ∧ s.Wf ∧ Reaps t.streaming s ok ∧
        Matches total (c.step ctx e) { t with streaming := s } := by
  have hcases : Connection.StepsTo ctx c e (c.step ctx e) := Connection.step_cases hopen h.reader e
  generalize c.step ctx e = c' at hcases hopen' ⊢
  cases hcases with
  | failed => cases hopen'
  | waited hbytes =>
    refine .inl ⟨h.frames, h.reader, h.phase, h.streaming, h.delivered, ?_⟩
    exact h.bytes.trans (congrArg _ hbytes.symm)
  | polled hbytes hstep =>
    obtain hsame | ⟨t', hfr, hshows, hmatch⟩ := h.polled hbytes hstep
    · exact .inl hsame
    · exact .inr (.inl ⟨t', _, hfr, hshows, rfl, hmatch⟩)
  | cleaned hclean hwf hreaps =>
    have hmat := h.reaps hwf hreaps
    rw [← h.streaming] at hclean hreaps
    exact .inr (.inr ⟨_, _, _, _, _, _, _, rfl, hclean, hwf, hreaps, hmat⟩)

/-- A run whose trace has the property `I`, up to the event that ended it. -/
structure Traced (I : StreamTrace → Prop) (total : Bytes) (c : Connection α) : Prop where
  noFault : c.stopped ≠ some .fault
  trace : ∃ t rest, total = t.bytes ++ rest ∧ t.Wf ∧ I t ∧ t.delivered = c.delivered ∧
    (c.stopped = none → Matches total c t)

lemma Traced.step (h : Traced I total c)
    (hstep : ∀ t t', t.Wf → t'.Wf → I t → FrameStep t t' → I t')
    (hreaps : ∀ t s ok, t.Wf → s.Wf → I t → Reaps t.streaming s ok → I { t with streaming := s })
    (e : ConnectionEvent) : Traced I total (c.step ctx e) := by
  obtain ⟨t, rest, htot, hwf, hI, hdeliv, hmat⟩ := h.trace
  cases hstop : c.stopped with
  | some =>
    rw [Connection.step_of_stopped (by rw [hstop]; rfl)]
    exact h
  | none =>
    have hmatch := hmat hstop
    cases hnext : (c.step ctx e).stopped with
    | none =>
      have hflt : (c.step ctx e).stopped ≠ some .fault := by
        rw [hnext]
        exact nofun
      obtain hsame | ⟨t', _, hfr, -, -, hmatch'⟩ |
        ⟨_, _, _, _, _, ok, s, -, -, hs, hreap, hmatch'⟩ := hmatch.step hstop hnext
      · exact ⟨hflt, t, _, hsame.bytes, hwf, hI, hsame.delivered, fun _ => hsame⟩
      · exact ⟨hflt, t', _, hmatch'.bytes, hmatch'.wf, hstep t t' hmatch.wf hmatch'.wf hI hfr,
          hmatch'.delivered, fun _ => hmatch'⟩
      · exact ⟨hflt, _, _, hmatch'.bytes, hmatch'.wf, hreaps t s ok hmatch.wf hs hI hreap,
          hmatch'.delivered, fun _ => hmatch'⟩
    | some =>
      -- an error delivers nothing
      have hcases : Connection.StepsTo ctx c e (c.step ctx e) :=
        Connection.step_cases hstop hmatch.reader e
      generalize c.step ctx e = c' at hcases hnext ⊢
      cases hcases with
      | failed hflt =>
        refine ⟨fun heq => hflt (Option.some.inj heq), t, rest, htot, hwf, hI, hdeliv,
          nofun⟩
      | waited | polled | cleaned => cases hstop.symm.trans hnext

/-- **Invariants of traces.**  What every step and every pass of the reaper
preserves holds of the trace of every run. -/
theorem Connection.trace_invariant (hstep : ∀ t t', t.Wf → t'.Wf → I t → FrameStep t t' → I t')
    (hreaps : ∀ t s ok, t.Wf → s.Wf → I t → Reaps t.streaming s ok → I { t with streaming := s })
    (n : ℕ) (routes : RouteTable) (inbox : List Segment) (hsta : I (.start (freshStreaming n)))
    (es : List ConnectionEvent) :
    Traced I (inboxBytes inbox) (Connection.after ctx n routes inbox es) := by
  refine Run.exec_invariant (fun _ e h => h.step hstep hreaps e) ?_ es
  have hmatch : Matches (inboxBytes inbox)
      (Connection.start (freshStreaming n) routes inbox : Connection α)
      (.start (freshStreaming n)) := matches_start _ routes inbox (wf_freshStreaming n) fun _ => rfl
  exact ⟨nofun, _, _, hmatch.bytes, hmatch.wf, hsta, hmatch.delivered, fun _ => hmatch⟩

end Sim

end IcanactRemote
