/-
The stream table without its clock readings.

Streams carry the moments at which they were started and last active.  Only the
reaper looks at them: every other operation gives the same answer, and leaves the
same table, whatever the clock showed.

* `untimed` — the table with all moments set to zero;
* `untimed_…` — each operation on the table commutes with it;
* `Reader.untimed_got` — and so does the reader when it takes up new bytes.
-/
import IcanactRemote.ReaderSteps

namespace IcanactRemote

open StreamingState

/-- A stream without its clock readings. -/
def InProgressStream.untimed (stream : InProgressStream) : InProgressStream :=
  { stream with startedAt := 0, lastActivity := 0, rateWindowStartedAt := 0 }

lemma InProgressStream.untimed_establishStride (stream : InProgressStream) (chunkLen : ℕ) :
    (stream.establishStride chunkLen).untimed = stream.untimed.establishStride chunkLen := by
  unfold establishStride
  cases hstride : stream.chunkStride with
  | none =>
    have hstride' : stream.untimed.chunkStride = none := hstride
    rw [hstride']
    rfl
  | some stride =>
    have hstride' : stream.untimed.chunkStride = some stride := hstride
    rw [hstride']

namespace StreamingState

variable {s : StreamingState}

def untimed (s : StreamingState) : StreamingState :=
  { s with activeStreams := s.activeStreams.iterMut fun _ stream => stream.untimed }

/-- The outcome of an operation, without the clock readings. -/
def untimedOut {β : Type} (out : β × StreamingState) : β × StreamingState := (out.1, out.2.untimed)

variable (streamId : ℕ) (now : Instant)

section

variable (s)

lemma get_untimed : s.untimed.activeStreams.get streamId =
    (s.activeStreams.get streamId).map InProgressStream.untimed :=
  Table.get_iterMut ..

lemma len_untimed : s.untimed.activeStreams.len = s.activeStreams.len := Table.len_iterMut ..

lemma containsKey_untimed :
    s.untimed.activeStreams.containsKey streamId = s.activeStreams.containsKey streamId := by
  rw [Table.containsKey, get_untimed, Option.isSome_map]
  rfl

lemma total_untimed :
    s.untimed.activeStreams.total (·.totalSize) = s.activeStreams.total (·.totalSize) :=
  Table.total_iterMut fun _ _ _ => rfl

end

lemma untimed_modifyActive {streamId : ℕ} {f g : InProgressStream → InProgressStream}
    (h : ∀ stream, s.activeStreams.get streamId = some stream →
      (f stream).untimed = g stream.untimed) :
    (s.modifyActive streamId f).untimed = s.untimed.modifyActive streamId g := by
  unfold untimed modifyActive
  rw [Table.iterMut_modify h]

lemma untimed_removeActive (streamId : ℕ) :
    untimed { s with activeStreams := s.activeStreams.remove streamId } =
      { s.untimed with activeStreams := s.untimed.activeStreams.remove streamId } := by
  unfold untimed
  rw [Table.iterMut_remove]

/-! ### Tombstones -/

variable (s)

lemma untimed_removeTombstone :
    (s.removeTombstone streamId).untimed = s.untimed.removeTombstone streamId := by
  unfold removeTombstone
  have hsame : s.untimed.rejectedStreams.get streamId = s.rejectedStreams.get streamId := rfl
  rw [hsame]
  cases s.rejectedStreams.get streamId <;> rfl

lemma untimed_rejectStream (streamId totalSize firstChunkLen : ℕ) :
    untimedOut (s.rejectStream streamId totalSize firstChunkLen) =
      s.untimed.rejectStream streamId totalSize firstChunkLen := by
  have hwords (words : ℕ) : s.untimed.projectedBitmapWords streamId words =
    s.projectedBitmapWords streamId words := rfl
  unfold rejectStream tryInsertTombstone
  simp only [hwords]
  split_ifs
  · rfl
  · rw [← untimed_removeTombstone]
    rfl
  · cases s.projectedBitmapWords streamId (RejectedStreamTombstone.bitmapWordsFor
          (RejectedStreamTombstone.expectedChunkCount totalSize firstChunkLen)) with
    | none => rfl
    | some =>
      cases s.projectedBitmapWords streamId
        (RejectedStreamTombstone.rejected totalSize firstChunkLen).receivedChunks.length <;> rfl

lemma untimed_markTombstone (streamId chunkIndex : ℕ) :
    untimedOut (s.markTombstone streamId chunkIndex) =
      s.untimed.markTombstone streamId chunkIndex := by
  have hsame : s.untimed.rejectedStreams.get streamId = s.rejectedStreams.get streamId := rfl
  unfold markTombstone
  rw [hsame]
  cases s.rejectedStreams.get streamId with
  | none => rfl
  | some tombstone =>
    cases hcmpl : (tombstone.markChunkReceived chunkIndex).isComplete with
    | error =>
      simp only [hcmpl]
      rfl
    | ok complete =>
      cases complete with
      | true =>
        simp only [hcmpl]
        exact congrArg _ (untimed_removeTombstone (s.setTombstone ..) streamId)
      | false =>
        simp only [hcmpl]
        rfl

/-! ### Streams -/

variable (clock : ℕ → Instant) (header : StreamHeader) (correlationId : UInt32)
  (isResponse : Bool) (firstChunkLen : ℕ)

lemma untimed_startStream : untimedOut (s.startStream clock header correlationId isResponse) =
    s.untimed.startStream (fun _ => 0) header correlationId isResponse := by
  have hlim : s.untimed.maxConcurrentStreams = s.maxConcurrentStreams := rfl
  unfold startStream
  simp only [containsKey_untimed, len_untimed, total_untimed, hlim]
  split_ifs
  · rfl
  · rfl
  · rfl
  · rfl
  · refine congrArg (Prod.mk (Except.ok ())) ?_
    unfold insertActive untimed
    rw [Table.iterMut_insert]
    rfl

lemma untimed_reserveV5Chunk (streamId chunkIndex chunkLen : ℕ) :
    untimedOut (s.reserveV5Chunk streamId chunkIndex chunkLen) =
      s.untimed.reserveV5Chunk streamId chunkIndex chunkLen := by
  unfold reserveV5Chunk
  rw [get_untimed]
  cases hget : s.activeStreams.get streamId with
  | none => rfl
  | some stream =>
    simp only [Option.map_some, ← InProgressStream.untimed_establishStride]
    generalize stream.establishStride chunkLen = stream'
    have hmod : (s.modifyActive streamId fun _ => stream').untimed =
        s.untimed.modifyActive streamId fun _ => stream'.untimed :=
      untimed_modifyActive fun _ _ => rfl
    rw [← hmod]
    generalize s.modifyActive streamId (fun _ => stream') = s'
    have hcnt : (s'.modifyActive streamId InProgressStream.countDuplicate).untimed =
        s'.untimed.modifyActive streamId InProgressStream.countDuplicate :=
      untimed_modifyActive fun _ _ => rfl
    rw [← hcnt]
    -- none of what is compared is a time
    have hstride : stream'.untimed.chunkStride = stream'.chunkStride := rfl
    have hexpected : stream'.untimed.expectedChunks = stream'.expectedChunks := rfl
    have htot : stream'.untimed.totalSize = stream'.totalSize := rfl
    have hchk : stream'.untimed.receivedChunks = stream'.receivedChunks := rfl
    simp only [hstride, hexpected, htot, hchk]
    split
    · rfl
    · split
      next stride _ _ _ =>
        split
        · rfl
        · split
          · rfl
          · cases subLen stream'.totalSize (chunkIndex * stride) with
            | error => rfl
            | ok =>
              simp only
              split
              · rfl
              · cases stream'.receivedChunks[chunkIndex / 64]? with
                | none => rfl
                | some =>
                  simp only
                  split <;> rfl
      · rfl

lemma untimed_beginV5Stream :
    untimedOut (s.beginV5Stream clock header correlationId isResponse firstChunkLen) =
      s.untimed.beginV5Stream (fun _ => 0) header correlationId isResponse firstChunkLen := by
  unfold beginV5Stream
  rw [← untimed_startStream s clock]
  split
  · rfl
  · split
    · rfl
    · obtain ⟨out, s'⟩ := s.startStream clock header correlationId isResponse
      cases out with
      | error => rfl
      | ok => exact untimed_reserveV5Chunk s' ..

lemma untimed_beginV5StreamOrDiscard :
    untimedOut (s.beginV5StreamOrDiscard clock header correlationId isResponse firstChunkLen) =
      s.untimed.beginV5StreamOrDiscard (fun _ => 0) header correlationId isResponse
        firstChunkLen := by
  unfold beginV5StreamOrDiscard
  simp only [← untimed_removeTombstone]
  rw [← untimed_beginV5Stream _ clock]
  obtain ⟨out, s'⟩ := (s.removeTombstone header.streamId).beginV5Stream clock header correlationId
    isResponse firstChunkLen
  cases out with
  | ok => rfl
  | error =>
    simp only [untimedOut]
    split
    · rw [← untimed_rejectStream]
      obtain ⟨out, s''⟩ := s'.rejectStream header.streamId header.totalSize firstChunkLen
      cases out with
      | error => rfl
      | ok inserted => cases inserted <;> rfl
    · rfl

lemma untimed_reserveV5ChunkOrDiscard (streamId chunkIndex chunkLen : ℕ) :
    untimedOut (s.reserveV5ChunkOrDiscard streamId chunkIndex chunkLen) =
      s.untimed.reserveV5ChunkOrDiscard streamId chunkIndex chunkLen := by
  have hrej : s.untimed.rejectedStreams = s.rejectedStreams := rfl
  unfold reserveV5ChunkOrDiscard
  rw [← untimed_markTombstone, ← untimed_reserveV5Chunk, hrej]
  split
  · obtain ⟨out, s'⟩ := s.markTombstone streamId chunkIndex
    cases out <;> rfl
  · obtain ⟨out, s'⟩ := s.reserveV5Chunk streamId chunkIndex chunkLen
    cases out <;> rfl

variable (reservation : StreamChunkReservation)

lemma untimed_recordV5ChunkProgress (newBytes : ℕ) :
    (s.recordV5ChunkProgress now reservation newBytes).untimed =
      s.untimed.recordV5ChunkProgress 0 reservation newBytes :=
  untimed_modifyActive fun _ _ => rfl

lemma untimed_fillTarget (read : ℕ) (bytes : Bytes) :
    (s.fillTarget reservation read bytes).untimed = s.untimed.fillTarget reservation read bytes :=
  untimed_modifyActive fun _ _ => rfl

variable {s} in
lemma commitV5Chunk_eq {stream : InProgressStream} {word : BitVec 64}
    {reservation : StreamChunkReservation}
    (hget : s.activeStreams.get reservation.streamId = some stream)
    (hword : stream.receivedChunks[reservation.chunkIndex / 64]? = some word)
    (hunset : word.getLsbD (reservation.chunkIndex % 64) = false) :
    s.commitV5Chunk now reservation =
      let s' := s.modifyActive reservation.streamId fun _ => committed stream now reservation
      match allChunksReceived stream.totalSize stream.expectedChunks
          (stream.receivedChunks.mark reservation.chunkIndex) with
      | .error e => (.error e, s')
      | .ok false => (.ok none, s')
      | .ok true => (.ok (some (committed stream now reservation).completed),
          { s' with activeStreams := s'.activeStreams.remove reservation.streamId }) := by
  simp only [commitV5Chunk, hget, hword, hunset]
  rfl

lemma untimed_commitV5Chunk :
    untimedOut (s.commitV5Chunk now reservation) = s.untimed.commitV5Chunk 0 reservation := by
  have hget' := get_untimed s reservation.streamId
  cases hget : s.activeStreams.get reservation.streamId with
  | none =>
    rw [hget] at hget'
    simp only [commitV5Chunk, hget, hget']
    rfl
  | some stream =>
    rw [hget] at hget'
    have hchk : stream.untimed.receivedChunks = stream.receivedChunks := rfl
    cases hword : stream.receivedChunks[reservation.chunkIndex / 64]? with
    | none =>
      simp only [commitV5Chunk, hget, hget', Option.map_some, hchk, hword]
      rfl
    | some word =>
      cases hbit : word.getLsbD (reservation.chunkIndex % 64) with
      | true =>
        simp only [commitV5Chunk, hget, hget', Option.map_some, hchk, hword, hbit]
        rfl
      | false =>
        have hmod : (s.modifyActive reservation.streamId fun _ =>
            committed stream now reservation).untimed =
            s.untimed.modifyActive reservation.streamId fun _ =>
              committed stream.untimed 0 reservation := untimed_modifyActive fun _ _ => rfl
        rw [commitV5Chunk_eq now hget hword hbit,
          commitV5Chunk_eq 0 hget' (show stream.untimed.receivedChunks[_]? = _ from hword) hbit]
        simp only [← hmod]
        show untimedOut _ = match allChunksReceived stream.totalSize stream.expectedChunks
          (stream.receivedChunks.mark reservation.chunkIndex) with
          | .error e | .ok false | .ok true => _
        cases allChunksReceived stream.totalSize stream.expectedChunks
          (stream.receivedChunks.mark reservation.chunkIndex) with
        | error => rfl
        | ok complete =>
          cases complete with
          | false => rfl
          | true => exact congrArg _ (untimed_removeActive ..)

lemma untimed_abortStream :
    untimedOut (s.abortStream streamId) = s.untimed.abortStream streamId := by
  unfold abortStream untimedOut
  rw [containsKey_untimed, untimed_removeActive]

end StreamingState

/-! ### The reader -/

namespace Reader

variable {α : Type} {r : Reader}

def untimed (r : Reader) : Reader := { r with streaming := r.streaming.untimed }

def untimedOut (out : PollOutcome α × Reader) : PollOutcome α × Reader := (out.1, out.2.untimed)

variable (ctx : ReadContext α)

lemma untimed_gotPrefix (buf : Bytes) :
    untimedOut (r.gotPrefix ctx buf) = r.untimed.gotPrefix ctx buf := by
  unfold gotPrefix
  split
  · rfl
  · cases decodeControl buf with
    | none => rfl
    | some control =>
      simp only
      split
      · rfl
      · split
        · rfl
        · cases streamMetaLen control.kind with
          | none => rfl
          | some =>
            simp only
            split <;> rfl

lemma untimed_gotBody (buf : Bytes) (msgLen : ℕ) (body : Bytes) :
    untimedOut (r.gotBody ctx buf msgLen body) = r.untimed.gotBody ctx buf msgLen body := by
  have hroutes : r.untimed.routes = r.routes := rfl
  unfold gotBody
  split
  · rfl
  · simp only [hroutes]
    cases parseMessage ctx.decodeRegistryMessage (buf ++ body) msgLen (some r.routes) <;> rfl

lemma untimed_reserveV5StreamPayload (kind : WireKind) (bodyLen : ℕ) (metadata : Bytes)
    (s : StreamingState) (clock : ℕ → Instant) :
    StreamingState.untimedOut (reserveV5StreamPayload kind bodyLen metadata s clock) =
      reserveV5StreamPayload kind bodyLen metadata s.untimed fun _ => 0 := by
  unfold reserveV5StreamPayload
  cases streamMetaLen kind with
  | none => rfl
  | some metaLen =>
    simp only
    split
    · rfl
    · cases kind with
      | streamStart | streamResponseStart =>
        dsimp only
        split
        · rfl
        · exact StreamingState.untimed_beginV5StreamOrDiscard ..
      | streamData | streamResponseData =>
        dsimp only
        split
        · rfl
        · exact StreamingState.untimed_reserveV5ChunkOrDiscard ..
      | _ => rfl

variable (r)

lemma untimed_gotMeta (clock : ℕ → Instant) (kind : WireKind) (bodyLen : ℕ)
    (metadata : Bytes) (metaLen : ℕ) :
    untimedOut (r.gotMeta clock kind bodyLen metadata metaLen : PollOutcome α × Reader) =
      r.untimed.gotMeta (fun _ => 0) kind bodyLen metadata metaLen := by
  have hrsv := untimed_reserveV5StreamPayload kind bodyLen metadata r.streaming clock
  have hstr : r.untimed.streaming = r.streaming.untimed := rfl
  unfold gotMeta
  rw [hstr, ← hrsv]
  split
  · rfl
  · obtain ⟨out, s⟩ := reserveV5StreamPayload kind bodyLen metadata r.streaming clock
    cases out with
    | error => rfl
    | ok reservation =>
      simp only [StreamingState.untimedOut]
      cases streamPayloadState reservation bodyLen metaLen <;> rfl

lemma untimed_gotPayload (clock : ℕ → Instant)
    (reservation : StreamChunkReservation) (read : ℕ) (bytes : Bytes) :
    untimedOut (r.gotPayload clock reservation read bytes : PollOutcome α × Reader) =
      r.untimed.gotPayload (fun _ => 0) reservation read bytes := by
  have hstr : r.untimed.streaming = r.streaming.untimed := rfl
  unfold gotPayload
  simp only [hstr, ← untimed_fillTarget]
  rw [← untimed_recordV5ChunkProgress _ (clock 0)]
  generalize (r.streaming.fillTarget reservation read bytes).recordV5ChunkProgress (clock 0)
    reservation bytes.length = s
  split
  · rfl
  · rw [← untimed_commitV5Chunk s (clock 1)]
    obtain ⟨out, s'⟩ := s.commitV5Chunk (clock 1) reservation
    cases out <;> rfl

lemma untimed_finishDiscard (mark : Option (ℕ × ℕ)) :
    untimedOut (r.finishDiscard mark : PollOutcome α × Reader) =
      r.untimed.finishDiscard mark := by
  have hstr : r.untimed.streaming = r.streaming.untimed := rfl
  unfold finishDiscard finishDiscardingReservation markReapDiscardedChunkReceived
  cases mark with
  | none => rfl
  | some mark =>
    obtain ⟨streamId, chunkIndex⟩ := mark
    simp only [hstr, ← untimed_markTombstone]
    obtain ⟨out, s⟩ := r.streaming.markTombstone streamId chunkIndex
    cases out <;> rfl

lemma untimed_gotDiscard (remaining : ℕ) (mark : Option (ℕ × ℕ)) (bytes : Bytes) :
    untimedOut (r.gotDiscard remaining mark bytes : PollOutcome α × Reader) =
      r.untimed.gotDiscard remaining mark bytes := by
  unfold gotDiscard
  cases subLen remaining bytes.length with
  | error => rfl
  | ok =>
    simp only
    split
    · exact untimed_finishDiscard ..
    · rfl

variable {r}

/-- **The clock does not matter.** -/
theorem untimed_got (clock : ℕ → Instant) (r : Reader) (bytes : Bytes) :
    untimedOut (r.got ctx clock bytes) = r.untimed.got ctx (fun _ => 0) bytes := by
  have hst : r.untimed.state = r.state := rfl
  unfold got
  rw [hst]
  cases r.state with
  | readLen => exact untimed_gotPrefix ..
  | readBody => exact untimed_gotBody ..
  | readStreamMeta => exact untimed_gotMeta ..
  | readStreamPayload => exact untimed_gotPayload ..
  | discardStreamPayload => exact untimed_gotDiscard ..

end Reader

end IcanactRemote
