/-
The receiver's stream table (`StreamingState`).

A stream is assembled in a buffer of its declared size; the length of its first
chunk is the stride, and a bitmap records which chunks are in.  Streams the
connection has no room for, and streams that stall, leave a tombstone that
counts their remaining chunks.

Functions return their result beside the state they leave, since the state is
also changed by calls that end in an error.  An index out of range and a length
below zero end in `Stop.fault`.
-/
import IcanactRemote.AddrOwnership
import IcanactRemote.Bitmap
import IcanactRemote.MessageParser

namespace IcanactRemote

def rejectedStreamsBitmapWordBudget : ℕ := 131072
def rejectedStreamsEntryBudget : ℕ := 4096

/-- `usize::div_ceil`. -/
def divCeil (a b : ℕ) : ℕ := (a + b - 1) / b

/-- `all_chunks_received` and `is_complete`, which are the same text: every
expected chunk is marked. -/
def allChunksReceived (totalSize : ℕ) (expectedChunks : Option ℕ) (receivedChunks : Bitmap 64) :
    Except Stop Bool :=
  match expectedChunks with
  | none => .ok (totalSize = 0)
  | some expected =>
    if expected = 0 then .ok true
    else if receivedChunks.length < expected / 64 then .error .fault
    else if (receivedChunks.take (expected / 64)).any (· ≠ BitVec.allOnes 64) then .ok false
    else if expected % 64 = 0 then .ok true
    else
      match receivedChunks[expected / 64]? with
      | none => .error .fault
      | some word =>
        let mask := BitVec.ofNat 64 (2 ^ (expected % 64) - 1)
        .ok (word &&& mask = mask)

structure RejectedStreamTombstone where
  totalSize : ℕ
  chunkStride : Option ℕ
  expectedChunks : Option ℕ
  receivedChunks : Bitmap 64
  deriving DecidableEq, Repr

namespace RejectedStreamTombstone

def expectedChunkCount (totalSize chunkLen : ℕ) : ℕ := divCeil totalSize chunkLen

def bitmapWordsFor (expectedChunks : ℕ) : ℕ := divCeil expectedChunks 64

def establishStride (t : RejectedStreamTombstone) (chunkLen : ℕ) : RejectedStreamTombstone :=
  if t.chunkStride.isSome ∨ chunkLen = 0 then t
  else
    let expected := expectedChunkCount t.totalSize chunkLen
    { t with
      chunkStride := some chunkLen
      expectedChunks := some expected
      receivedChunks := .zeros 64 (bitmapWordsFor expected) }

/-- An index without a word is ignored. -/
def markChunkReceived (t : RejectedStreamTombstone) (chunkIndex : ℕ) : RejectedStreamTombstone :=
  { t with receivedChunks := t.receivedChunks.mark chunkIndex }

def rejected (totalSize firstChunkLen : ℕ) : RejectedStreamTombstone :=
  ((⟨totalSize, none, none, []⟩ : RejectedStreamTombstone).establishStride
    firstChunkLen).markChunkReceived 0

def isComplete (t : RejectedStreamTombstone) : Except Stop Bool :=
  allChunksReceived t.totalSize t.expectedChunks t.receivedChunks

end RejectedStreamTombstone

/-- A validated, not yet committed chunk destination. -/
structure StreamChunkReservation where
  streamId : ℕ
  chunkIndex : ℕ
  offset : ℕ
  len : ℕ
  deriving DecidableEq, Repr

structure CompletedV5Stream where
  actorId : UInt64
  typeHash : UInt32
  correlationId : UInt32
  isResponse : Bool
  payload : Bytes
  deriving DecidableEq, Repr

structure InProgressStream where
  streamId : ℕ
  totalSize : ℕ
  typeHash : UInt32
  actorId : UInt64
  correlationId : UInt32
  isResponse : Bool
  receivedSize : ℕ
  buffer : Bytes
  chunkStride : Option ℕ
  receivedChunks : Bitmap 64
  expectedChunks : Option ℕ
  duplicateChunks : ℕ
  startedAt : Instant
  lastActivity : Instant
  totalBytesProgressed : ℕ
  rateWindowStartedAt : Instant
  progressedBytesAtWindowStart : ℕ
  deriving DecidableEq, Repr

/-- Overwrite the buffer from `start` on. -/
def writeAt (buffer : Bytes) (start : ℕ) (bytes : Bytes) : Bytes :=
  buffer.take start ++ bytes ++ buffer.drop (start + bytes.length)

namespace InProgressStream

/-- The stride is that of the first chunk. -/
def establishStride (stream : InProgressStream) (chunkLen : ℕ) : InProgressStream :=
  match stream.chunkStride with
  | some _ => stream
  | none =>
    let expected := divCeil stream.totalSize chunkLen
    { stream with
      chunkStride := some chunkLen
      expectedChunks := some expected
      receivedChunks := .zeros 64 (divCeil expected 64) }

/-- `u32::saturating_add(1)` on the diagnostic counter. -/
def countDuplicate (stream : InProgressStream) : InProgressStream :=
  { stream with duplicateChunks := min (stream.duplicateChunks + 1) (2 ^ 32 - 1) }

def completed (stream : InProgressStream) : CompletedV5Stream :=
  { actorId := stream.actorId, typeHash := stream.typeHash,
    correlationId := stream.correlationId, isResponse := stream.isResponse,
    payload := stream.buffer }

end InProgressStream

structure StreamingState where
  activeStreams : Table ℕ InProgressStream
  rejectedStreams : Table ℕ RejectedStreamTombstone
  rejectedStreamsBitmapWords : ℕ
  maxConcurrentStreams : ℕ

namespace StreamingState

def new : StreamingState := ⟨.empty, .empty, 0, 16⟩

/-- `HashMap::get_mut` on the active streams. -/
def modifyActive (s : StreamingState) (streamId : ℕ) (f : InProgressStream → InProgressStream) :
    StreamingState :=
  { s with activeStreams := s.activeStreams.modify streamId f }

def insertActive (s : StreamingState) (streamId : ℕ) (stream : InProgressStream) :
    StreamingState :=
  { s with activeStreams := s.activeStreams.insert streamId stream }

def networkError (e : NetworkError) : Stop := .error (.network e)

/-! ### Tombstones -/

def removeTombstone (s : StreamingState) (streamId : ℕ) : StreamingState :=
  match s.rejectedStreams.get streamId with
  | none => s
  | some removed =>
    { s with
      rejectedStreams := s.rejectedStreams.remove streamId
      rejectedStreamsBitmapWords := s.rejectedStreamsBitmapWords - removed.receivedChunks.length }

def projectedBitmapWords (s : StreamingState) (streamId newWords : ℕ) : Option ℕ :=
  if (!s.rejectedStreams.containsKey streamId) &&
      s.rejectedStreams.len ≥ rejectedStreamsEntryBudget then none
  else
    let previousWords := match s.rejectedStreams.get streamId with
      | some existing => existing.receivedChunks.length
      | none => 0
    let projectedWords := saturatingAdd (s.rejectedStreamsBitmapWords - previousWords) newWords
    if projectedWords ≤ rejectedStreamsBitmapWordBudget then some projectedWords else none

def tryInsertTombstone (s : StreamingState) (streamId : ℕ) (tombstone : RejectedStreamTombstone) :
    Bool × StreamingState :=
  match s.projectedBitmapWords streamId tombstone.receivedChunks.length with
  | none => (false, s)
  | some projectedWords =>
    (true, { s with
      rejectedStreamsBitmapWords := projectedWords
      rejectedStreams := s.rejectedStreams.insert streamId tombstone })

/-- `reject_stream`: the projected size is checked before anything is built. -/
def rejectStream (s : StreamingState) (streamId totalSize firstChunkLen : ℕ) :
    Except Stop Bool × StreamingState :=
  -- a division by zero
  if firstChunkLen = 0 then (.error .fault, s)
  else
    let expectedChunks := RejectedStreamTombstone.expectedChunkCount totalSize firstChunkLen
    if expectedChunks ≤ 1 then (.ok true, s.removeTombstone streamId)
    else
      let newWords := RejectedStreamTombstone.bitmapWordsFor expectedChunks
      match s.projectedBitmapWords streamId newWords with
      | none => (.ok false, s)
      | some _ =>
        let (inserted, s) := s.tryInsertTombstone streamId
          (RejectedStreamTombstone.rejected totalSize firstChunkLen)
        (.ok inserted, s)

/-- `HashMap::get_mut` on the tombstones. -/
def setTombstone (s : StreamingState) (streamId : ℕ) (tombstone : RejectedStreamTombstone) :
    StreamingState :=
  { s with rejectedStreams := s.rejectedStreams.modify streamId fun _ => tombstone }

/-- Mark a chunk on the tombstone of the stream, and drop the tombstone with its
last chunk.  Without a tombstone nothing happens. -/
def markTombstone (s : StreamingState) (streamId chunkIndex : ℕ) :
    Except Stop Unit × StreamingState :=
  match s.rejectedStreams.get streamId with
  | none => (.ok (), s)
  | some tombstone =>
    let tombstone := tombstone.markChunkReceived chunkIndex
    let s := s.setTombstone streamId tombstone
    match tombstone.isComplete with
    | .error e => (.error e, s)
    | .ok true => (.ok (), s.removeTombstone streamId)
    | .ok false => (.ok (), s)

def markReapDiscardedChunkReceived (s : StreamingState) (streamId chunkIndex : ℕ) :
    Except Stop Unit × StreamingState := s.markTombstone streamId chunkIndex

/-! ### Starting a stream -/

/-- The entry of a new stream. -/
def newStream (clock : ℕ → Instant) (header : StreamHeader) (correlationId : UInt32)
    (isResponse : Bool) : InProgressStream :=
  { streamId := header.streamId, totalSize := header.totalSize, typeHash := header.typeHash,
    actorId := header.actorId, correlationId, isResponse, receivedSize := 0,
    buffer := List.replicate header.totalSize 0, chunkStride := none, receivedChunks := [],
    expectedChunks := none, duplicateChunks := 0, startedAt := clock 0, lastActivity := clock 1,
    totalBytesProgressed := 0, rateWindowStartedAt := clock 2, progressedBytesAtWindowStart := 0 }

/-- `start_stream_with_correlation_and_kind`; the clock is read three times. -/
def startStream (s : StreamingState) (clock : ℕ → Instant) (header : StreamHeader)
    (correlationId : UInt32) (isResponse : Bool) : Except Stop Unit × StreamingState :=
  if s.activeStreams.containsKey header.streamId then (.ok (), s)
  else if header.totalSize > maxStreamSize then
    (.error (networkError (.streamSizeExceeds header.totalSize)), s)
  else if s.activeStreams.len ≥ s.maxConcurrentStreams then
    (.error (networkError .tooManyConcurrentStreams), s)
  else
    let inflightBytes := s.activeStreams.total (·.totalSize)
    if saturatingAdd inflightBytes header.totalSize > maxInflightStreamBytes then
      (.error (networkError (.inflightBudgetExceeded inflightBytes header.totalSize)), s)
    else
      (.ok (), s.insertActive header.streamId
        (newStream clock header correlationId isResponse))

def reserveV5Chunk (s : StreamingState) (streamId chunkIndex chunkLen : ℕ) :
    Except Stop StreamChunkReservation × StreamingState :=
  match s.activeStreams.get streamId with
  | none => (.error (networkError (.unknownStream streamId)), s)
  | some stream =>
    if chunkLen = 0 then (.error (networkError .emptyStreamChunk), s)
    else
      let stream := stream.establishStride chunkLen
      let s := s.modifyActive streamId fun _ => stream
      match stream.chunkStride, stream.expectedChunks with
      | some stride, some expected =>
        if chunkIndex ≥ expected then (.error (networkError .chunkIndexOutOfRange), s)
        else if chunkIndex * stride > usizeMax then
          (.error (networkError .chunkOffsetOverflow), s)
        else
          let offset := chunkIndex * stride
          match subLen stream.totalSize offset with
          | .error e => (.error e, s)
          | .ok remaining =>
            if chunkLen ≠ min remaining stride then
              (.error (networkError .chunkLengthMismatch), s)
            else
              match stream.receivedChunks[chunkIndex / 64]? with
              | none => (.error .fault, s)
              | some word =>
                if word.getLsbD (chunkIndex % 64) then
                  (.error (networkError .duplicateChunk),
                    s.modifyActive streamId InProgressStream.countDuplicate)
                else (.ok ⟨streamId, chunkIndex, offset, chunkLen⟩, s)
      | _, _ => (.error .fault, s)

def beginV5Stream (s : StreamingState) (clock : ℕ → Instant) (header : StreamHeader)
    (correlationId : UInt32) (isResponse : Bool) (firstChunkLen : ℕ) :
    Except Stop StreamChunkReservation × StreamingState :=
  if firstChunkLen = 0 then (.error (networkError .emptyStreamChunk), s)
  else if firstChunkLen > header.totalSize then
    (.error (networkError .invalidFirstChunkLength), s)
  else
    match s.startStream clock header correlationId isResponse with
    | (.error e, s) => (.error e, s)
    | (.ok (), s) => s.reserveV5Chunk header.streamId 0 firstChunkLen

def isResourceBusy : Stop → Bool
  | .error (.network e) => e.kind = .resourceBusy
  | _ => false

/-- Only a shortage of resources is turned into a discard. -/
def beginV5StreamOrDiscard (s : StreamingState) (clock : ℕ → Instant) (header : StreamHeader)
    (correlationId : UInt32) (isResponse : Bool) (firstChunkLen : ℕ) :
    Except Stop (Option StreamChunkReservation) × StreamingState :=
  let s := s.removeTombstone header.streamId
  match s.beginV5Stream clock header correlationId isResponse firstChunkLen with
  | (.ok reservation, s) => (.ok (some reservation), s)
  | (.error e, s) =>
    if isResourceBusy e then
      match s.rejectStream header.streamId header.totalSize firstChunkLen with
      | (.error e, s) => (.error e, s)
      | (.ok true, s) => (.ok none, s)
      | (.ok false, s) => (.error (networkError .tombstoneBudgetExhausted), s)
    else (.error e, s)

/-! ### Receiving a chunk -/

def reserveV5ChunkOrDiscard (s : StreamingState) (streamId chunkIndex chunkLen : ℕ) :
    Except Stop (Option StreamChunkReservation) × StreamingState :=
  if s.rejectedStreams.containsKey streamId then
    match s.markTombstone streamId chunkIndex with
    | (.error e, s) => (.error e, s)
    | (.ok (), s) => (.ok none, s)
  else
    match s.reserveV5Chunk streamId chunkIndex chunkLen with
    | (.error e, s) => (.error e, s)
    | (.ok reservation, s) => (.ok (some reservation), s)

/-- `v5_chunk_target`: the length of the range that is still to be filled. -/
def v5ChunkTarget (s : StreamingState) (reservation : StreamChunkReservation) (read : ℕ) :
    Except Stop ℕ :=
  match s.activeStreams.get reservation.streamId with
  | none => .error (networkError .streamReaped)
  | some stream =>
    if read > reservation.len then .error (networkError .readExceedsReservedChunk)
    else
      (readRange stream.buffer (reservation.offset + read)
        (reservation.offset + reservation.len)).map List.length

/-- The transport fills the target range, `read` bytes into it. -/
def fillTarget (s : StreamingState) (reservation : StreamChunkReservation) (read : ℕ)
    (bytes : Bytes) : StreamingState :=
  s.modifyActive reservation.streamId fun stream =>
    { stream with buffer := writeAt stream.buffer (reservation.offset + read) bytes }

def recordV5ChunkProgress (s : StreamingState) (now : Instant)
    (reservation : StreamChunkReservation) (newBytes : ℕ) : StreamingState :=
  s.modifyActive reservation.streamId fun stream =>
    { stream with
      lastActivity := now
      totalBytesProgressed := saturatingAdd stream.totalBytesProgressed newBytes }

def commitV5Chunk (s : StreamingState) (now : Instant) (reservation : StreamChunkReservation) :
    Except Stop (Option CompletedV5Stream) × StreamingState :=
  match s.activeStreams.get reservation.streamId with
  | none => (.error (networkError .streamVanished), s)
  | some stream =>
    match stream.receivedChunks[reservation.chunkIndex / 64]? with
    | none => (.error .fault, s)
    | some word =>
      if word.getLsbD (reservation.chunkIndex % 64) then
        (.error (networkError .duplicateChunkCommit), s)
      else
        let stream := { stream with
          receivedChunks := stream.receivedChunks.mark reservation.chunkIndex
          receivedSize := stream.receivedSize + reservation.len
          lastActivity := now }
        let s := s.modifyActive reservation.streamId fun _ => stream
        match allChunksReceived stream.totalSize stream.expectedChunks stream.receivedChunks with
        | .error e => (.error e, s)
        | .ok false => (.ok none, s)
        | .ok true =>
          (.ok (some stream.completed),
            { s with activeStreams := s.activeStreams.remove reservation.streamId })

def abortStream (s : StreamingState) (streamId : ℕ) : Bool × StreamingState :=
  (s.activeStreams.containsKey streamId,
    { s with activeStreams := s.activeStreams.remove streamId })

/-! ### Reaping -/

/-- What `cleanup_stale_with` does with one stream: drop it, or keep it, perhaps
with a new rate window.  `clock` gives its readings in order. -/
def cleanupVisit (idleTimeout rateWindow minBytesPerWindow : ℕ) (clock : ℕ → Instant)
    (stream : InProgressStream) : Option InProgressStream :=
  if clock 0 - stream.lastActivity > idleTimeout then none
  else if clock 1 - stream.rateWindowStartedAt ≥ rateWindow then
    if stream.totalBytesProgressed - stream.progressedBytesAtWindowStart < minBytesPerWindow then
      none
    else
      some { stream with
        rateWindowStartedAt := clock 2
        progressedBytesAtWindowStart := stream.totalBytesProgressed }
  else some stream

def tombstoneReapedStream (s : StreamingState) (streamId : ℕ) (stream : InProgressStream) :
    Except Stop Bool × StreamingState :=
  if stream.chunkStride.isNone then (.ok true, s.removeTombstone streamId)
  else
    let tombstone : RejectedStreamTombstone :=
      ⟨stream.totalSize, stream.chunkStride, stream.expectedChunks, stream.receivedChunks⟩
    match tombstone.isComplete with
    | .error e => (.error e, s)
    | .ok true => (.ok true, s.removeTombstone streamId)
    | .ok false =>
      let (inserted, s) := s.tryInsertTombstone streamId tombstone
      (.ok inserted, s)

/-- The loop over the reaped streams. -/
def tombstoneReaped :
    List (ℕ × InProgressStream) → StreamingState → Except Stop Bool × StreamingState
  | [], s => (.ok true, s)
  | (streamId, stream) :: rest, s =>
    match s.tombstoneReapedStream streamId stream with
    | (.error e, s) => (.error e, s)
    | (.ok inserted, s) =>
      match tombstoneReaped rest s with
      | (.error e, s) => (.error e, s)
      | (.ok others, s) => (.ok (inserted && others), s)

/-- `HashMap::retain` with a closure that may also change what it keeps. -/
def retainActive (s : StreamingState)
    (visit : ℕ → InProgressStream → Option InProgressStream) : StreamingState :=
  { s with
    activeStreams := (s.activeStreams.retain fun streamId stream =>
      (visit streamId stream).isSome).iterMut fun streamId stream =>
        (visit streamId stream).getD stream }

/-- `cleanup_stale_with`.  The map is walked in any order: `order` lists the
reaped streams, if it lists exactly them. -/
def cleanupStaleWith (s : StreamingState) (idleTimeout rateWindow minBytesPerWindow : ℕ)
    (clock : ℕ → ℕ → Instant) (order : List ℕ) : Except Stop Bool × StreamingState :=
  let visit := fun streamId =>
    cleanupVisit idleTimeout rateWindow minBytesPerWindow (clock streamId)
  let stale := (s.activeStreams.toList.filter fun e => (visit e.1 e.2).isNone).map Prod.fst
  let ids := if order.isPerm stale then order else stale
  let reaped := ids.filterMap fun streamId =>
    (s.activeStreams.get streamId).map fun stream => (streamId, stream)
  tombstoneReaped reaped (s.retainActive visit)

end StreamingState

end IcanactRemote
