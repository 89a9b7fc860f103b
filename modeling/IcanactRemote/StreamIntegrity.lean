/-
What a delivered stream is made of.

The peer may send any bytes.  Each active stream is tied to the start frame that
opened it, and each chunk it has marked to the frame that brought it; the buffer
holds exactly what these frames carried.

* `Assembling` — a stream, its start frame, and the frames of its chunks;
* `Assembles.step` — every step of a trace keeps this;
* `Connection.stream_integrity` — a delivered stream is the payload of the frames
  of one generation, and no generation is delivered twice.
-/
import IcanactRemote.FrameTrace

namespace IcanactRemote

open StreamingState Cursor List Nat

/-! ### Buffers -/

variable {k : ℕ} {a b totalSize len : ℕ}

lemma slice_eq_of_getElem {xs ys : Bytes} (h : ∀ k, a ≤ k → k < b → xs[k]? = ys[k]?) :
    slice xs a b = slice ys a b := by
  apply ext_getElem?
  intro k
  unfold slice
  rw [getElem?_take, getElem?_take, getElem?_drop, getElem?_drop]
  split
  · exact h (a + k) (by omega) (by omega)
  · rfl

section WriteAt

variable {buffer bytes : Bytes} {start : ℕ} (hend : start + bytes.length ≤ buffer.length)

include hend

lemma getElem?_writeAt_of_lt (hk : k < start) :
    (writeAt buffer start bytes)[k]? = buffer[k]? := by
  rw [writeAt, append_assoc,
    getElem?_append_left (by rw [length_take]; omega), getElem?_take, if_pos hk]

lemma getElem?_writeAt_of_ge (hk : start + bytes.length ≤ k) :
    (writeAt buffer start bytes)[k]? = buffer[k]? := by
  have hlen : (buffer.take start ++ bytes).length = start + bytes.length := by
    rw [length_append, length_take]
    omega
  rw [writeAt, getElem?_append_right (by omega), hlen, getElem?_drop]
  congr 1
  omega

lemma slice_writeAt_of_disjoint (h : b ≤ start ∨ start + bytes.length ≤ a) :
    slice (writeAt buffer start bytes) a b = slice buffer a b := by
  apply slice_eq_of_getElem
  intro k ha hb
  obtain hbefore | haft := h
  · exact getElem?_writeAt_of_lt hend (by omega)
  · exact getElem?_writeAt_of_ge hend (by omega)

lemma slice_writeAt_append (ha : a ≤ start) :
    slice (writeAt buffer start bytes) a (start + bytes.length) =
      slice buffer a start ++ bytes := by
  have hlen : (buffer.take start).length = start := by
    rw [length_take]
    omega
  unfold slice writeAt
  rw [append_assoc, drop_append_of_le_length (by omega), ← append_assoc,
    take_append_of_le_length, take_of_length_le]
  · congr 1
    rw [drop_take]
  · simp
    omega
  · simp
    omega

end WriteAt

lemma slice_chunk {buffer : Bytes} {stride i : ℕ} (hlen : buffer.length = totalSize) :
    slice buffer (i * stride) ((i + 1) * stride) =
      slice buffer (i * stride) (i * stride + min (totalSize - i * stride) stride) := by
  unfold slice
  rw [Nat.add_mul, Nat.one_mul, Nat.add_sub_cancel_left, Nat.add_sub_cancel_left,
    take_eq_take_iff, length_drop, hlen]
  omega

lemma chunk_apart {i stride : ℕ} (hlen : len ≤ stride) (hne : i ≠ k) :
    (k + 1) * stride ≤ i * stride ∨ i * stride + len ≤ k * stride := by
  obtain hlt | hlt := lt_or_gt_of_ne hne
  · right
    have := mul_le_mul_right stride hlt
    rw [succ_mul] at this
    omega
  · left
    exact mul_le_mul_right stride hlt

/-! ### Streams and the frames they are made of -/

/-- Chunk `i` of the buffer is the payload of a frame that came after the start
frame `j` (or is that frame, for the first chunk), and before any other start
frame of the stream. -/
def ChunkFrom (frames : List Frame) (streamId j stride : ℕ) (buffer : Bytes) (i : ℕ) : Prop :=
  ∃ m g, frames[m]? = some g ∧ j ≤ m ∧ (m = j ↔ i = 0) ∧ g.IsChunk streamId i ∧
    slice buffer (i * stride) ((i + 1) * stride) = g.payload ∧
    ∀ k f, j < k → k ≤ m → frames[k]? = some f → ¬f.Starts streamId

/-- The stream was declared by this frame. -/
structure DeclaredBy (f : Frame) (stream : InProgressStream) : Prop where
  correlationId : stream.correlationId = f.correlationId
  actorId : stream.actorId = f.actorId
  typeHash : stream.typeHash = f.typeHash
  isResponse : stream.isResponse = decide (f.kind = .streamResponseStart)
  totalSize : stream.totalSize = f.totalSize
  stride : stream.chunkStride = some f.payload.length

/-- A stream that frame `j` started and no later frame started anew, with the
frames of its chunks. -/
def Assembling (frames : List Frame) (streamId j : ℕ) (stream : InProgressStream) : Prop :=
  ∃ f, frames[j]? = some f ∧ f.Starts streamId ∧ DeclaredBy f stream ∧
    (∀ k g, j < k → frames[k]? = some g → ¬g.Starts streamId) ∧
    ∀ i, stream.receivedChunks.test i = true →
      ChunkFrom frames streamId j f.payload.length stream.buffer i

/-- A delivered stream and the frame it was started by. -/
def DeliveredFrom (frames : List Frame) (j : ℕ) (completed : CompletedV5Stream) : Prop :=
  ∃ f, frames[j]? = some f ∧ f.isStart = true ∧ completed.correlationId = f.correlationId ∧
    completed.actorId = f.actorId ∧ completed.typeHash = f.typeHash ∧
    completed.isResponse = decide (f.kind = .streamResponseStart) ∧
    completed.payload.length = f.totalSize ∧
    ∀ i < divCeil f.totalSize f.payload.length,
      ChunkFrom frames f.streamId j f.payload.length completed.payload i

section Frames

variable {frames : List Frame} {streamId j stride i : ℕ} {buffer buffer' : Bytes} {g f : Frame}
  {stream stream' : InProgressStream}

lemma getElem?_concat_of_some (h : frames[k]? = some f) : (frames ++ [g])[k]? = some f := by
  obtain ⟨hk, -⟩ := List.getElem?_eq_some_iff.mp h
  rw [getElem?_append_left hk, h]

lemma of_getElem?_concat (h : (frames ++ [g])[k]? = some f) :
    frames[k]? = some f ∨ (k = frames.length ∧ f = g) := by
  rw [getElem?_append] at h
  split at h
  · exact .inl h
  next hk =>
    obtain ⟨hlt, heq⟩ := List.getElem?_eq_some_iff.mp h
    rw [length_singleton] at hlt
    right
    refine ⟨by omega, ?_⟩
    rw [← heq]
    exact getElem_singleton _

lemma ChunkFrom.concat (h : ChunkFrom frames streamId j stride buffer i) (g : Frame) :
    ChunkFrom (frames ++ [g]) streamId j stride buffer i := by
  obtain ⟨m, f, hf, hle, hfst, hchunk, hsl, hnone⟩ := h
  refine ⟨m, f, getElem?_concat_of_some hf, hle, hfst, hchunk, hsl, ?_⟩
  intro k f' hjk hkm hk
  obtain hk | ⟨hk, -⟩ := of_getElem?_concat hk
  · exact hnone k f' hjk hkm hk
  · obtain ⟨hm, -⟩ := List.getElem?_eq_some_iff.mp hf
    omega

lemma ChunkFrom.of_slice_eq (h : ChunkFrom frames streamId j stride buffer i)
    (heq : slice buffer' (i * stride) ((i + 1) * stride) = slice buffer (i * stride)
      ((i + 1) * stride)) :
    ChunkFrom frames streamId j stride buffer' i := by
  obtain ⟨m, f, hf, hle, hfst, hchunk, hsl, hnone⟩ := h
  exact ⟨m, f, hf, hle, hfst, hchunk, heq.trans hsl, hnone⟩

lemma DeliveredFrom.concat {completed : CompletedV5Stream} (h : DeliveredFrom frames j completed)
    (g : Frame) : DeliveredFrom (frames ++ [g]) j completed := by
  obtain ⟨f, hf, hsta, hcorr, hactor, htype, hresp, hlen, hchk⟩ := h
  exact ⟨f, getElem?_concat_of_some hf, hsta, hcorr, hactor, htype, hresp, hlen,
    fun i hi => (hchk i hi).concat g⟩

lemma Assembling.concat (h : Assembling frames streamId j stream) (hnot : ¬g.Starts streamId) :
    Assembling (frames ++ [g]) streamId j stream := by
  obtain ⟨f, hf, hstarts, hdecl, hnone, hchk⟩ := h
  refine ⟨f, getElem?_concat_of_some hf, hstarts, hdecl, ?_,
    fun i hi => (hchk i hi).concat g⟩
  intro k f' hjk hk
  obtain hk | ⟨-, rfl⟩ := of_getElem?_concat hk
  · exact hnone k f' hjk hk
  · exact hnot

lemma Assembling.of_eq (h : Assembling frames streamId j stream)
    (hdecl : ∀ f, DeclaredBy f stream → DeclaredBy f stream')
    (hchk : stream'.receivedChunks = stream.receivedChunks)
    (hsl : ∀ i stride, stream.chunkStride = some stride → stream.receivedChunks.test i = true →
      slice stream'.buffer (i * stride) ((i + 1) * stride) = slice stream.buffer (i * stride)
      ((i + 1) * stride)) :
    Assembling frames streamId j stream' := by
  obtain ⟨f, hf, hstarts, hf', hnone, hfrom⟩ := h
  refine ⟨f, hf, hstarts, hdecl f hf', hnone, ?_⟩
  intro i hi
  rw [hchk] at hi
  exact (hfrom i hi).of_slice_eq (hsl i _ hf'.stride hi)

end Frames

/-! ### A chunk arrives -/

variable (clock : ℕ → Instant)

/-- A stream whose first chunk is being read. -/
structure OpenedBy (cur : Cursor) (stream : InProgressStream) : Prop where
  correlationId : stream.correlationId = metaCorrelationId cur.metadata
  actorId : stream.actorId = cur.header.actorId
  typeHash : stream.typeHash = cur.header.typeHash
  isResponse : stream.isResponse = decide (cur.kind = .streamResponseStart)
  totalSize : stream.totalSize = metaTotalSize cur.metadata
  stride : stream.chunkStride = some cur.payloadLen
  unset : ∀ i, stream.receivedChunks.test i = false

lemma openedBy_startedStream (cur : Cursor) :
    OpenedBy cur (startedStream clock cur.header (metaCorrelationId cur.metadata)
      (cur.kind = .streamResponseStart) cur.payloadLen) where
  correlationId := rfl
  actorId := rfl
  typeHash := rfl
  isResponse := rfl
  totalSize := totalSize_startHeader ..
  stride := rfl
  unset _ := Bitmap.test_zeros ..

section Filled

variable {frames : List Frame} {j offset streamId stride : ℕ} {stream : InProgressStream}
  {cur : Cursor} {bytes : Bytes} {now now' : Instant}

lemma Assembling.delivered (h : Assembling frames streamId j stream)
    (hlen : stream.buffer.length = stream.totalSize) (hstride : stream.chunkStride = some stride)
    (hall : ∀ i < divCeil stream.totalSize stride, stream.receivedChunks.test i = true) :
    DeliveredFrom frames j stream.completed := by
  obtain ⟨f, hf, ⟨hsta, hid⟩, hdecl, hnone, hchk⟩ := h
  have hs : f.payload.length = stride := Option.some.inj (hdecl.stride.symm.trans hstride)
  refine ⟨f, hf, hsta, hdecl.correlationId, hdecl.actorId, hdecl.typeHash,
    hdecl.isResponse, hlen.trans hdecl.totalSize, ?_⟩
  intro i hi
  rw [hid]
  rw [← hdecl.totalSize, hs] at hi
  exact hchk i (hall i hi)

variable (hwf : stream.Wf stride) (hr : Reserved stream stride (cur.reservation offset))
include hwf hr

lemma slice_filled {i : ℕ} (hlen : cur.payload.length + bytes.length ≤ cur.payloadLen)
    (hne : i ≠ cur.chunkIndex) : slice (cur.fill stream now offset bytes).buffer (i * stride)
      ((i + 1) * stride) = slice stream.buffer (i * stride) ((i + 1) * stride) := by
  have hoffset : offset = cur.chunkIndex * stride := hr.offset
  have hsize : cur.payloadLen = min (stream.totalSize - cur.chunkIndex * stride) stride := hr.len
  have hend : offset + cur.payloadLen ≤ stream.totalSize := hr.end_le hwf
  apply slice_writeAt_of_disjoint
  · show offset + cur.payload.length + bytes.length ≤ stream.buffer.length
    rw [hwf.buffer]
    omega
  · show _ ≤ offset + cur.payload.length ∨ offset + cur.payload.length + bytes.length ≤ _
    have hshort : cur.payloadLen ≤ stride := by omega
    obtain hbefore | haft := chunk_apart hshort hne.symm
    · left
      omega
    · right
      omega

lemma Assembling.filled (h : Assembling frames streamId j stream) (now : Instant)
    (hlen : cur.payload.length + bytes.length ≤ cur.payloadLen) : Assembling frames streamId j
      (cur.fill stream now offset bytes) := by
  refine h.of_eq (fun f hf => ⟨hf.1, hf.2, hf.3, hf.4, hf.5, hf.6⟩) rfl ?_
  intro i stride' hstride' hset
  obtain rfl : stride' = stride := Option.some.inj (hstride'.symm.trans hwf.layout.known)
  refine slice_filled hwf hr hlen ?_
  rintro rfl
  have hunset : stream.receivedChunks.test cur.chunkIndex = false := hr.unset
  rw [hunset] at hset
  cases hset

variable (hsl : slice stream.buffer offset (offset + cur.payload.length) = cur.payload)
include hsl

lemma slice_filled_self (hlen : cur.payload.length + bytes.length ≤ cur.payloadLen) :
    slice (cur.fill stream now offset bytes).buffer offset
      (offset + (cur.payload ++ bytes).length) = cur.payload ++ bytes := by
  have hend : offset + cur.payloadLen ≤ stream.totalSize := hr.end_le hwf
  show slice (writeAt stream.buffer (offset + cur.payload.length) bytes) offset _ = _
  rw [length_append, ← add_assoc, slice_writeAt_append, hsl]
  · rw [hwf.buffer]
    omega
  · omega

variable (hcur : cur.Ok) (hlen : cur.payload.length + bytes.length = cur.payloadLen)
include hcur hlen

lemma chunkFrom_committed (hj : j ≤ frames.length)
    (hfst : frames.length = j ↔ cur.chunkIndex = 0)
    (hnone : ∀ k g, j < k → (frames ++ [(cur.add bytes).frame])[k]? = some g →
      ¬g.Starts cur.streamId) :
    ChunkFrom (frames ++ [(cur.add bytes).frame]) cur.streamId j stride
      (committed (cur.fill stream now offset bytes) now' (cur.reservation offset)).buffer
        cur.chunkIndex := by
  have hok : (cur.add bytes).Ok := hcur
  have hoffset : offset = cur.chunkIndex * stride := hr.offset
  have hsize : cur.payloadLen = min (stream.totalSize - cur.chunkIndex * stride) stride := hr.len
  refine ⟨frames.length, (cur.add bytes).frame, getElem?_concat_length, hj, hfst,
    ⟨?_, streamId_frame hok, chunkIndex_frame hok⟩, ?_, fun k g hk _ => hnone k g hk⟩
  · show (cur.kind.isStreamStart || cur.kind.isStreamData) = true
    obtain ⟨hsta, -⟩ | ⟨hdata, -⟩ := length_metadata hcur
    · rw [hsta]
      rfl
    · rw [hdata, Bool.or_true]
  · have hbuf : (cur.fill stream now offset bytes).buffer.length
        = stream.totalSize := (wf_filled hwf hr (le_of_eq hlen)).buffer
    show slice (cur.fill stream now offset bytes).buffer _ _ = _
    rw [slice_chunk hbuf, ← hsize, ← hoffset, ← hlen, ← length_append,
      slice_filled_self hwf hr hsl (by omega), payload_frame hok]
    rfl

lemma Assembling.committed (h : Assembling frames cur.streamId j stream)
    (hdata : cur.kind.isStreamData = true) (hfst : cur.chunkIndex ≠ 0) :
    Assembling (frames ++ [(cur.add bytes).frame]) cur.streamId j
      (committed (cur.fill stream now offset bytes) now' (cur.reservation offset)) := by
  have hnot : ¬(cur.add bytes).frame.Starts cur.streamId := by
    rintro ⟨hsta, -⟩
    have hsta : cur.kind.isStreamStart = true := hsta
    rw [WireKind.isStreamStart_of_data hdata] at hsta
    cases hsta
  obtain ⟨f, hf, hstarts, hdecl, hnone, hchk⟩ :=
    (h.filled hwf hr now (le_of_eq hlen)).concat hnot
  have hstride : f.payload.length = stride :=
    Option.some.inj (hdecl.stride.symm.trans hwf.layout.known)
  refine ⟨f, hf, hstarts, ⟨hdecl.1, hdecl.2, hdecl.3, hdecl.4, hdecl.5,
    hdecl.6⟩, hnone, ?_⟩
  intro i hi
  have hi : (stream.receivedChunks.mark cur.chunkIndex).test i = true := hi
  have hidx : cur.chunkIndex < divCeil stream.totalSize stride := hr.index
  rw [hwf.layout.test_mark hidx, Bool.or_eq_true, decide_eq_true_eq] at hi
  -- an earlier chunk, or the one just committed
  obtain hi | rfl := hi
  · exact hchk i hi
  · have hj : j < frames.length := by
      obtain ⟨f', hf', -⟩ := h
      exact (List.getElem?_eq_some_iff.mp hf').1
    rw [hstride]
    exact chunkFrom_committed hwf hr hsl hcur hlen (by omega)
      ⟨fun heq => by omega, fun heq => absurd heq hfst⟩ hnone

/-- With its first chunk a stream is tied to the frame that declared it. -/
lemma OpenedBy.committed (h : OpenedBy cur stream) (hsta : cur.kind.isStreamStart = true) :
    Assembling (frames ++ [(cur.add bytes).frame]) cur.streamId frames.length
      (committed (cur.fill stream now offset bytes) now' (cur.reservation offset)) := by
  have hok : (cur.add bytes).Ok := hcur
  have hfst : cur.chunkIndex = 0 := if_pos hsta
  have hpay : (cur.add bytes).frame.payload.length = cur.payloadLen := by
    rw [payload_frame hok]
    exact (length_append ..).trans hlen
  have hstride : stride = cur.payloadLen := Option.some.inj (hwf.layout.known.symm.trans h.stride)
  -- no frame follows the start yet
  have hlast : ∀ k g, frames.length < k →
      (frames ++ [(cur.add bytes).frame])[k]? = some g → ¬g.Starts cur.streamId := by
    intro k g hk hget
    obtain ⟨hlt, -⟩ := List.getElem?_eq_some_iff.mp hget
    rw [length_append, length_singleton] at hlt
    omega
  refine ⟨(cur.add bytes).frame, getElem?_concat_length, ⟨hsta, streamId_frame hok⟩,
    ⟨?_, ?_, ?_, h.isResponse, ?_, ?_⟩, hlast, ?_⟩
  · exact h.correlationId.trans (correlationId_frame hok).symm
  · exact h.actorId.trans (start_frame hok).1.symm
  · exact h.typeHash.trans (start_frame hok).2.symm
  · exact h.totalSize.trans (totalSize_frame hok hsta).symm
  · rw [hpay]
    exact h.stride
  · intro i hi
    have hi : (stream.receivedChunks.mark cur.chunkIndex).test i = true := hi
    have hidx : cur.chunkIndex < divCeil stream.totalSize stride := hr.index
    rw [hwf.layout.test_mark hidx, h.unset, Bool.false_or, decide_eq_true_eq] at hi
    subst hi
    rw [hpay, ← hstride]
    exact chunkFrom_committed hwf hr hsl hcur hlen (le_refl _)
      ⟨fun _ => hfst, fun _ => rfl⟩ hlast

end Filled

/-! ### The invariant -/

/-- Every active stream is tied to its frames, and so is every delivered one;
`starts` are the start frames of the streams delivered so far. -/
structure Assembles (t : StreamTrace) (starts : List ℕ) : Prop where
  settled : ∀ id stream, t.streaming.activeStreams.get id = some stream →
    (∀ cur offset, t.phase = .filling cur offset → cur.streamId ≠ id) →
    ∃ j, j ∉ starts ∧ Assembling t.frames id j stream
  filling : ∀ cur offset stream, t.phase = .filling cur offset →
    t.streaming.activeStreams.get cur.streamId = some stream →
    slice stream.buffer offset (offset + cur.payload.length) = cur.payload ∧
      ((cur.kind.isStreamStart = true ∧ OpenedBy cur stream) ∨
        (cur.kind.isStreamData = true ∧ cur.chunkIndex ≠ 0 ∧
          ∃ j, j ∉ starts ∧ Assembling t.frames cur.streamId j stream))
  discarding : ∀ cur marks, t.phase = .discarding cur marks → cur.kind.isStreamStart = true →
    t.streaming.activeStreams.get cur.streamId = none
  delivered : List.Forall₂ (DeliveredFrom t.frames) starts t.delivered
  nodup : starts.Nodup
  known : ∀ j ∈ starts, j < t.frames.length

lemma assembles_start (n : ℕ) : Assembles (.start (Connection.freshStreaming n)) [] where
  settled id stream h := by cases h
  filling cur offset stream h := by cases h
  discarding cur marks h := by cases h
  delivered := .nil
  nodup := nodup_nil
  known j h := by cases h

section Steps

variable {t t' : StreamTrace} {starts : List ℕ}

variable {stream : InProgressStream} {cur : Cursor} {bytes : Bytes}
  {offset id id' j' : ℕ} {part : Bytes}

lemma slice_nil : slice bytes a (a + ([] : Bytes).length) = [] := by
  rw [length_nil, Nat.add_zero, slice, Nat.sub_self, take_zero]

lemma Assembles.pass (h : Assembles t starts) (g : Option Frame)
    (hfrs : t'.frames = t.frames ++ g.toList)
    (hnot : ∀ f, g = some f → ∀ id stream, t'.streaming.activeStreams.get id = some stream →
      ¬f.Starts id)
    (hph : ∀ cur offset, t'.phase ≠ .filling cur offset)
    (hact : ∀ id stream, t'.streaming.activeStreams.get id = some stream →
      t.streaming.activeStreams.get id = some stream ∧
        ∀ cur offset, t.phase = .filling cur offset → cur.streamId ≠ id)
    (hdisc : ∀ cur marks, t'.phase = .discarding cur marks →
      cur.kind.isStreamStart = true → t'.streaming.activeStreams.get cur.streamId = none)
    (hdeliv : t'.delivered = t.delivered) : Assembles t' starts where
  settled id stream hget _ := by
    obtain ⟨hget₀, hsett⟩ := hact id stream hget
    obtain ⟨j, hj, hasm⟩ := h.settled id stream hget₀ hsett
    refine ⟨j, hj, ?_⟩
    rw [hfrs]
    cases g with
    | none =>
      rw [Option.toList_none, append_nil]
      exact hasm
    | some f => exact hasm.concat (hnot f rfl id stream hget)
  filling cur offset stream hfill := absurd hfill (hph cur offset)
  discarding := hdisc
  delivered := by
    rw [hdeliv, hfrs]
    cases g with
    | none =>
      rw [Option.toList_none, append_nil]
      exact h.delivered
    | some f => exact h.delivered.imp fun _ _ hfrom => hfrom.concat f
  nodup := h.nodup
  known j hj := by
    have := h.known j hj
    rw [hfrs, length_append]
    omega

lemma Assembling.ne {frames : List Frame} {j : ℕ} {stream stream' : InProgressStream}
    (h : Assembling frames id j stream) (h' : Assembling frames id' j' stream') (hne : id ≠ id') :
    j ≠ j' := by
  rintro rfl
  obtain ⟨f, hf, ⟨-, hid⟩, -⟩ := h
  obtain ⟨f', hf', ⟨-, hid'⟩, -⟩ := h'
  rw [hf] at hf'
  cases hf'
  exact hne (hid.symm.trans hid')

variable (h : Assembles t starts)
include h

lemma Assembles.others {offset : ℕ} (hwf : t.Wf) (hph : t.phase = .filling cur offset)
    (hne : id ≠ cur.streamId) (hget : t.streaming.activeStreams.get id = some stream) :
    ∃ j, j ∉ starts ∧ Assembling (t.frames ++ [(cur.add bytes).frame]) id j stream := by
  have hok : (cur.add bytes).Ok := (hwf.filling cur offset hph).1
  obtain ⟨j, hj, hasm⟩ := h.settled id stream hget fun cur' offset' hph' => by
    rw [hph] at hph'
    cases hph'
    exact hne.symm
  refine ⟨j, hj, hasm.concat ?_⟩
  rintro ⟨-, hid⟩
  rw [streamId_frame hok] at hid
  exact hne hid.symm

lemma Assembles.opened (hph : t.phase = .between part) (hemp : cur.payload = [])
    (hkind : cur.kind.isStreamStart = true) : Assembles { t with
      phase := .filling cur 0
      streaming := (t.streaming.removeTombstone cur.streamId).insertActive cur.streamId
        (startedStream clock cur.header (metaCorrelationId cur.metadata)
          (cur.kind = .streamResponseStart) cur.payloadLen) } starts where
  settled id stream hget hne := by
    have hget := (Table.get_insert ..).symm.trans hget
    split at hget
    next hid =>
      exact absurd hid.symm (hne cur 0 rfl)
    · rw [activeStreams_removeTombstone] at hget
      exact h.settled id stream hget fun cur' offset' hph' => by
        rw [hph] at hph'
        cases hph'
  filling cur' offset stream hph' hget := by
    cases hph'
    have hget := (Table.get_insert ..).symm.trans hget
    rw [if_pos rfl] at hget
    cases hget
    rw [hemp]
    exact ⟨slice_nil, .inl ⟨hkind, openedBy_startedStream clock cur⟩⟩
  discarding cur' marks hph' := by cases hph'
  delivered := h.delivered
  nodup := h.nodup
  known := h.known

lemma Assembles.reserved {stride : ℕ} (hwf : t.Wf) (hph : t.phase = .between part)
    (hemp : cur.payload = []) (hkind : cur.kind.isStreamData = true)
    (hget : t.streaming.activeStreams.get cur.streamId = some stream)
    (hr : Reserved stream stride (cur.reservation (cur.chunkIndex * stride))) :
    Assembles { t with phase := .filling cur (cur.chunkIndex * stride) } starts where
  settled id stream hget _ := h.settled id stream hget fun cur' offset' hph' => by
    rw [hph] at hph'
    cases hph'
  filling cur' offset stream' hph' hget' := by
    cases hph'
    rw [hget] at hget'
    cases hget'
    rw [hemp]
    refine ⟨slice_nil, .inr ⟨hkind, ?_, ?_⟩⟩
    · -- the first chunk of a stream comes with its start frame
      intro hzero
      have hunset : stream.receivedChunks.test cur.chunkIndex = false := hr.unset
      obtain hset | ⟨cur', offset', hph', -⟩ := hwf.first _ stream hget
      · rw [hzero, hset] at hunset
        cases hunset
      · rw [hph] at hph'
        cases hph'
    · exact h.settled _ stream hget fun cur' offset' hph' => by
        rw [hph] at hph'
        cases hph'
  discarding cur' marks hph' := by cases hph'
  delivered := h.delivered
  nodup := h.nodup
  known := h.known

section

variable (hwf : t.Wf) (now now' : Instant) (hph : t.phase = .filling cur offset)
  (hget : t.streaming.activeStreams.get cur.streamId = some stream)
include hwf hph hget

lemma Assembles.committed (hlen : cur.payload.length + bytes.length = cur.payloadLen) :
    ∃ j, j ∉ starts ∧ Assembling (t.frames ++ [(cur.add bytes).frame]) cur.streamId j
      (committed (cur.fill stream now offset bytes) now' (cur.reservation offset)) := by
  obtain ⟨hcur, -, hres⟩ := hwf.filling cur offset hph
  obtain ⟨-, stride, hstride⟩ := hwf.streaming.active _ stream hget
  have hr := hres stream stride hget hstride
  obtain ⟨hsl, ⟨hsta, hopened⟩ | ⟨hdata, hne, j, hj, hasm⟩⟩ :=
    h.filling cur offset stream hph hget
  · refine ⟨t.frames.length, ?_, hopened.committed hstride hr hsl hcur hlen hsta⟩
    intro hmem
    have := h.known _ hmem
    omega
  · exact ⟨j, hj, hasm.committed hstride hr hsl hcur hlen hdata hne⟩

lemma Assembles.payloadMore (hlen : cur.payload.length + bytes.length < cur.payloadLen) :
    Assembles { t with
      phase := .filling (cur.add bytes) offset
      streaming := t.streaming.modifyActive cur.streamId
        fun stream => cur.fill stream now offset bytes }
      starts where
  settled id stream' hget' hne := by
    have hget' := (Table.get_modify ..).symm.trans hget'
    split at hget'
    next hid =>
      exact absurd hid.symm (hne (cur.add bytes) offset rfl)
    next hid =>
      exact h.settled id stream' hget' fun cur' offset' hph' => by
        rw [hph] at hph'
        cases hph'
        exact Ne.symm hid
  filling cur' offset' stream' hph' hget' := by
    cases hph'
    obtain ⟨-, -, hres⟩ := hwf.filling cur offset hph
    obtain ⟨-, stride, hstride⟩ := hwf.streaming.active _ stream hget
    have hr := hres stream stride hget hstride
    obtain ⟨hsl, hkind⟩ := h.filling cur offset stream hph hget
    have hget' := (Table.get_modify ..).symm.trans hget'
    rw [streamId_add, if_pos rfl, hget] at hget'
    cases hget'
    refine ⟨slice_filled_self hstride hr hsl (le_of_lt hlen), ?_⟩
    obtain ⟨hsta, hopened⟩ | ⟨hdata, hne, j, hj, hasm⟩ := hkind
    · exact .inl ⟨hsta, ⟨hopened.1, hopened.2, hopened.3, hopened.4, hopened.5, hopened.6,
        hopened.7⟩⟩
    · exact .inr ⟨hdata, hne, j, hj, hasm.filled hstride hr now (le_of_lt hlen)⟩
  discarding cur' marks hph' := by cases hph'
  delivered := h.delivered
  nodup := h.nodup
  known := h.known

lemma Assembles.chunkDone (hlen : cur.payload.length + bytes.length = cur.payloadLen) : Assembles
    { t with
      frames := t.frames ++ [(cur.add bytes).frame]
      phase := .between []
      streaming := t.streaming.modifyActive cur.streamId fun _ =>
        StreamingState.committed (cur.fill stream now offset bytes)
          now' (cur.reservation offset) } starts where
  settled id stream' hget' _ := by
    have hget' := (Table.get_modify ..).symm.trans hget'
    split at hget'
    next hid =>
      rw [hget] at hget'
      cases hget'
      rw [hid]
      exact h.committed hwf now now' hph hget hlen
    next hid =>
      exact h.others hwf hph hid hget'
  filling cur' offset' stream' hph' := by cases hph'
  discarding cur' marks hph' := by cases hph'
  delivered := h.delivered.imp fun _ _ hfrom => hfrom.concat _
  nodup := h.nodup
  known j hj := lt_of_lt_of_le (h.known j hj) (by rw [length_append]; omega)

lemma Assembles.streamDone {stride : ℕ} (hlen : cur.payload.length + bytes.length =
      cur.payloadLen) (hstride : stream.Wf stride)
    (hall : ∀ i < divCeil stream.totalSize stride,
      (stream.receivedChunks.mark cur.chunkIndex).test i = true) :
    ∃ starts', Assembles
      { frames := t.frames ++ [(cur.add bytes).frame]
        phase := .between []
        streaming := { t.streaming with
          activeStreams := t.streaming.activeStreams.remove cur.streamId }
        delivered := t.delivered ++ [(StreamingState.committed (cur.fill stream now offset bytes)
          now'
          (cur.reservation offset)).completed] } starts' := by
  obtain ⟨-, -, hres⟩ := hwf.filling cur offset hph
  have hr := hres stream stride hget hstride
  have hfilled : (cur.fill stream now offset bytes).Wf stride :=
    wf_filled hstride hr (le_of_eq hlen)
  obtain ⟨j, hj, hasm⟩ := h.committed hwf now now' hph hget hlen
  have hfrom := hasm.delivered hfilled.buffer hstride.layout.known hall
  -- the delivered stream takes its start with it
  refine ⟨starts ++ [j], ?_, ?_, ?_, ?_, ?_, ?_⟩
  · intro id stream' hget' _
    have hget' := (Table.get_remove ..).symm.trans hget'
    split at hget'
    · cases hget'
    next hid =>
      obtain ⟨j', hj', hassembling'⟩ := h.others hwf hph hid hget'
      refine ⟨j', ?_, hassembling'⟩
      rw [mem_append, mem_singleton, not_or]
      exact ⟨hj', hassembling'.ne hasm hid⟩
  · intro cur' offset' stream' hph'
    cases hph'
  · intro cur' marks hph'
    cases hph'
  · exact rel_append (h.delivered.imp fun _ _ hfrom => hfrom.concat _) (.cons hfrom .nil)
  · rw [nodup_append]
    refine ⟨h.nodup, nodup_singleton j, ?_⟩
    intro k hk k' hk'
    rw [mem_singleton] at hk'
    rintro rfl
    exact hj (hk' ▸ hk)
  · intro k hk
    rw [length_append]
    obtain hk | hk := mem_append.mp hk
    · have := h.known k hk
      omega
    · rw [mem_singleton.mp hk]
      obtain ⟨f, hf, -⟩ := hasm
      obtain ⟨hlt, -⟩ := List.getElem?_eq_some_iff.mp hf
      rw [length_append] at hlt
      exact hlt

end

/-- A pass of the reaper takes streams out and leaves the rest of them as they are. -/
lemma Assembles.reaps {s : StreamingState} {ok : Bool} (hreaps : Reaps t.streaming s ok) :
    Assembles { t with streaming := s } starts := by
  have hslid : ∀ {frames id j stream₀ startedAt progressed}, Assembling frames id j stream₀ →
      Assembling frames id j (slid stream₀ startedAt progressed) := by
    intro frames id j stream₀ startedAt progressed hasm
    exact hasm.of_eq (fun f hf => ⟨hf.1, hf.2, hf.3, hf.4, hf.5, hf.6⟩) rfl
      fun _ _ _ _ => rfl
  refine { h with settled := ?_, filling := ?_, discarding := ?_ }
  · intro id stream hget hne
    obtain ⟨stream₀, startedAt, progressed, hget₀, rfl⟩ := hreaps.kept hget
    obtain ⟨j, hj, hasm⟩ := h.settled id stream₀ hget₀ hne
    exact ⟨j, hj, hslid hasm⟩
  · intro cur offset stream hph hget
    obtain ⟨stream₀, startedAt, progressed, hget₀, rfl⟩ := hreaps.kept hget
    obtain ⟨hsl, ⟨hsta, hopened⟩ | ⟨hdata, hne, j, hj, hasm⟩⟩ :=
      h.filling cur offset stream₀ hph hget₀
    · exact ⟨hsl, .inl ⟨hsta, ⟨hopened.1, hopened.2, hopened.3, hopened.4, hopened.5,
        hopened.6, hopened.7⟩⟩⟩
    · exact ⟨hsl, .inr ⟨hdata, hne, j, hj, hslid hasm⟩⟩
  · intro cur marks hph hsta
    exact (hreaps.untouched _ (h.discarding cur marks hph hsta)).1

/-- **Every step keeps the streams tied to their frames.** -/
theorem Assembles.step (hwf : t.Wf) (hstep : FrameStep t t') : ∃ starts', Assembles t' starts' := by
  cases hstep with
  | quiet bytes hph =>
    exact ⟨starts, h.pass none (append_nil _).symm (by simp) (by simp)
      (fun id stream hget => ⟨hget, by simp [hph]⟩) (by simp) rfl⟩
  | inline hph hkind hlen hby =>
    rename_i part bytes f
    have hnot : f.isStart = false := WireKind.isStreamStart_of_inline hkind
    refine ⟨starts, h.pass (some f) rfl ?_ (by simp) ?_ (by simp) rfl⟩
    · rintro f' heq id stream - ⟨hsta, -⟩
      cases heq
      rw [hnot] at hsta
      cases hsta
    · intro id stream hget
      refine ⟨?_, by simp [hph]⟩
      cases haborts : f.aborts with
      | none =>
        rw [haborts] at hget
        exact hget
      | some =>
        rw [haborts] at hget
        have hget := (Table.get_remove ..).symm.trans hget
        split at hget
        · cases hget
        · exact hget
  | opened clock hph hcur hemp hby hkind =>
    exact ⟨starts, h.opened clock hph hemp hkind⟩
  -- no stream is opened, so none is active for the payload that is thrown away
  | turnedAway hph hcur hemp hby hkind hnone =>
    refine ⟨starts, h.pass none (append_nil _).symm (by simp) (by simp) ?_ ?_ rfl⟩
    · intro id stream hget
      exact ⟨(activeStreams_removeTombstone t.streaming _) ▸ hget, by simp [hph]⟩
    · rintro cur' marks heq -
      cases heq
      exact (congrArg (fun table => Table.get table _) (activeStreams_removeTombstone ..)).trans
        hnone
  | tombstoned hph hcur hemp hby hkind hnone hval hcnt hact hget =>
    refine ⟨starts, h.pass none (append_nil _).symm (by simp) (by simp) ?_ ?_ rfl⟩
    · intro id stream hget
      exact ⟨hact ▸ hget, by simp [hph]⟩
    · rintro cur' marks heq -
      cases heq
      exact (congrArg (fun table => Table.get table _) hact).trans hnone
  | reserved hph hcur hemp hby hkind hget hstride hres =>
    exact ⟨starts, h.reserved hwf hph hemp hkind hget hres⟩
  | marked hph hcur hemp hby hkind hget hmark =>
    obtain ⟨-, hact, -⟩ := hwf.streaming.of_markTombstone hmark
    refine ⟨starts, h.pass none (append_nil _).symm (by simp) (by simp) ?_ ?_ rfl⟩
    · intro id stream hget
      exact ⟨hact ▸ hget, by simp [hph]⟩
    · intro cur' marks heq hsta
      cases heq
      rw [WireKind.isStreamStart_of_data hkind] at hsta
      cases hsta
  -- the stream of the chunk is gone; every other one is as it was
  | reaped hph hnone =>
    refine ⟨starts, h.pass none (append_nil _).symm (by simp) (by simp) ?_ ?_ rfl⟩
    · intro id stream hget
      refine ⟨hget, ?_⟩
      intro cur' offset' hph' hid
      rw [hph] at hph'
      cases hph'
      rw [← hid, hnone] at hget
      cases hget
    · rintro cur' marks heq -
      cases heq
      exact hnone
  | payloadMore now hph hget hlen => exact ⟨starts, h.payloadMore hwf now hph hget hlen⟩
  | chunkDone now now' hph hget hlen =>
    exact ⟨starts, h.chunkDone hwf now now' hph hget hlen⟩
  | streamDone now now' hph hget hlen hstride hall =>
    exact h.streamDone hwf now now' hph hget hlen hstride hall
  | discardMore hph =>
    refine ⟨starts, h.pass none (append_nil _).symm (by simp) (by simp) ?_ ?_ rfl⟩
    · intro id stream hget
      exact ⟨hget, by simp [hph]⟩
    · intro cur' marks heq hsta
      cases heq
      have hnone := h.discarding _ _ hph hsta
      exact hnone
  | discardDone hph hlen hfin =>
    rename_i marks cur bytes streaming
    have hact : streaming.activeStreams = t.streaming.activeStreams := by
      cases hmark : cur.mark marks with
      | none =>
        rw [hmark] at hfin
        cases hfin
        rfl
      | some =>
        rw [hmark] at hfin
        exact (hwf.streaming.of_markTombstone hfin).2.1
    refine ⟨starts, h.pass (some (cur.add bytes).frame) rfl ?_ (by simp) ?_ (by simp) rfl⟩
    · -- a start frame whose payload is thrown away has no active stream
      rintro f heq id stream hget ⟨hsta, hid⟩
      cases heq
      have hok : (cur.add bytes).Ok := (hwf.discarding cur marks hph).1
      have hnone := h.discarding cur marks hph hsta
      rw [streamId_frame hok, streamId_add] at hid
      rw [hact, ← hid, hnone] at hget
      cases hget
    · intro id stream hget
      exact ⟨hact ▸ hget, by simp [hph]⟩

end Steps

end IcanactRemote
