/-
The writer of a leased reply (`write_leased_response_command_slice`).

A lease reserves the place of a reply before the reply is there.  The writer is
called again and again and writes one slice at a time; the socket may take any
part of a slice, the slice may time out, and the lease may be cancelled at any
moment.  What the stage says is what the wire already holds.

* `LeasedResponse.attempt` — one call of the writer;
* `Written` — what is on the wire at each stage;
* `LeasedResponse.one_outcome` — one reply, the whole stream, or a stream cut at a
  frame with its abort and the terminal reply.
-/
import IcanactRemote.AskReplies

namespace IcanactRemote

open List Nat

def streamChunkSize : ℕ := masterBufferSize

def streamWriteSliceBytes : ℕ := 64 * 1024

/-- `expect` on a header: the source panics where there is none. -/
def expectHeader : Except GossipError Bytes → Bytes
  | .ok header => header
  | .error _ => []

/-- `write_ask_response_header` for a response. -/
def writeResponseHeader (correlationId : UInt32) (payloadLen : ℕ) : Bytes :=
  expectHeader (tryWriteAskResponseHeader .response correlationId payloadLen)

/-- `write_vectored_once`: the socket takes the first `accept` bytes it is offered.
When it takes none the call ends in an error, or is dropped by its timeout. -/
def writeVectoredOnce (offered : Bytes) (accept : ℕ) : Option Bytes :=
  if offered.take accept = [] then none else some (offered.take accept)

/-! ### Slices -/

/-- The bytes `write_inline_lease_slice` offers. -/
def inlineOffer (header payload : Bytes) (offset budget : ℕ) : Bytes :=
  if offset < header.length then
    let headerEnd := min (offset + budget) header.length
    let headerBytes := headerEnd - offset
    slice header offset headerEnd ++
      (if headerBytes < budget then slice payload 0 (budget - headerBytes) else [])
  else slice payload (offset - header.length) (offset - header.length + budget)

/-- `write_inline_lease_slice`: the bytes written, and whether it is complete. -/
def writeInlineLeaseSlice (offset : ℕ) (header payload : Bytes) (accept : ℕ) :
    Option (Bytes × Bool) :=
  let totalLen := header.length + payload.length
  if totalLen ≤ offset then some ([], true)
  else
    let budget := min streamWriteSliceBytes (totalLen - offset)
    (writeVectoredOnce (inlineOffer header payload offset budget) accept).map fun sent =>
      (sent, decide (totalLen ≤ offset + sent.length))

def writeFixedLeaseSlice (offset : ℕ) (bytes : Bytes) (accept : ℕ) : Option (Bytes × Bool) :=
  if bytes.length ≤ offset then some ([], true)
  else
    let last := min (offset + streamWriteSliceBytes) bytes.length
    (writeVectoredOnce (slice bytes offset last) accept).map fun sent =>
      (sent, decide (bytes.length ≤ offset + sent.length))

/-! ### The stream of a large reply -/

structure BytesStreamingResponse where
  streamId : UInt32
  correlationId : UInt32
  payload : Bytes
  chunkSize : ℕ
  chunkCount : ℕ
  frameIndex : ℕ
  frameOffset : ℕ
  deriving DecidableEq, Repr

namespace BytesStreamingResponse

def new (streamId correlationId : UInt32) (payload : Bytes) (chunkSize : ℕ) :
    BytesStreamingResponse :=
  { streamId, correlationId, payload, chunkSize
    chunkCount :=
      if payload.length = 0 then 1 else (payload.length + (chunkSize - 1)) / chunkSize
    frameIndex := 0
    frameOffset := 0 }

def framePayloadLen (r : BytesStreamingResponse) (frameIndex : ℕ) : ℕ :=
  if frameIndex = 0 then min r.payload.length r.chunkSize
  else min (r.payload.length - (r.chunkSize + (frameIndex - 1) * r.chunkSize)) r.chunkSize

def frameHeader (r : BytesStreamingResponse) (frameIndex : ℕ) : Bytes :=
  if frameIndex = 0 then
    expectHeader (tryWriteStreamResponseStartHeader r.streamId r.correlationId
      (UInt32.ofNat r.payload.length) (r.framePayloadLen frameIndex))
  else
    expectHeader (tryWriteStreamDataHeader true r.streamId (UInt32.ofNat frameIndex)
      (r.framePayloadLen frameIndex))

def framePayloadStart (r : BytesStreamingResponse) (frameIndex : ℕ) : ℕ :=
  if frameIndex = 0 then 0 else r.chunkSize + (frameIndex - 1) * r.chunkSize

def frameTotalLen (r : BytesStreamingResponse) : ℕ :=
  (r.frameHeader r.frameIndex).length + r.framePayloadLen r.frameIndex

/-- A frame that is already over is passed by. -/
def settle : ℕ → BytesStreamingResponse → BytesStreamingResponse
  | 0, r => r
  | fuel + 1, r =>
    if r.frameIndex < r.chunkCount ∧ r.frameTotalLen ≤ r.frameOffset then
      settle fuel { r with frameIndex := r.frameIndex + 1, frameOffset := 0 }
    else r

/-- The bytes of the current frame that are offered. -/
def offer (r : BytesStreamingResponse) : Bytes :=
  let header := r.frameHeader r.frameIndex
  let budget := min streamWriteSliceBytes (r.frameTotalLen - r.frameOffset)
  let headerBytesOffered :=
    if r.frameOffset < header.length then min (header.length - r.frameOffset) budget else 0
  let dataBudget := budget - headerBytesOffered
  let payloadOffset := r.framePayloadStart r.frameIndex + (r.frameOffset - header.length)
  slice header r.frameOffset (r.frameOffset + headerBytesOffered) ++
    slice r.payload payloadOffset (payloadOffset + dataBudget)

/-- `write_bytes_streaming_command_slice`: the stream after it, and the bytes
written, whether the stream is complete, and whether a frame ends here. -/
def writeSlice (r : BytesStreamingResponse) (accept : ℕ) :
    BytesStreamingResponse × Option (Bytes × Bool × Bool) :=
  let r := r.settle r.chunkCount
  if r.chunkCount ≤ r.frameIndex then (r, some ([], true, false))
  else
    match writeVectoredOnce r.offer accept with
    | none => (r, none)
    | some sent =>
      let frameComplete := decide (r.frameTotalLen ≤ r.frameOffset + sent.length)
      let r' :=
        if frameComplete then { r with frameIndex := r.frameIndex + 1, frameOffset := 0 }
        else { r with frameOffset := r.frameOffset + sent.length }
      let complete := decide (r'.chunkCount ≤ r'.frameIndex)
      (r', some (sent, complete, frameComplete && !complete))

def frame (r : BytesStreamingResponse) (i : ℕ) : Bytes :=
  r.frameHeader i ++
    slice r.payload (r.framePayloadStart i) (r.framePayloadStart i + r.framePayloadLen i)

def frames (r : BytesStreamingResponse) (k : ℕ) : Bytes := (List.range k).flatMap r.frame

end BytesStreamingResponse

/-! ### The lease -/

/-- What `reserve_for_responder` admits, as far as the writer depends on it, and the
limits of the connection. -/
structure LeaseTerms where
  correlationId : UInt32
  maxReplyBytes : ℕ
  terminalPayload : Bytes
  streamingThreshold : ℕ
  maxMessageSize : ℕ
  within : maxReplyBytes ≤ maxStreamSize
  terminal : terminalPayload.length ≤ maxReplyBytes

inductive LeasedResponseStage
  | reserved
  | writingNormal (normal : BytesStreamingResponse)
  | writingInline (header payload : Bytes)
  | writingAbort (header : Bytes)
  | writingTerminal (header payload : Bytes)
  | flushing
  | complete
  deriving DecidableEq, Repr

def leaseStreamChunkSize (maxMessageSize : ℕ) : Option ℕ :=
  let maxChunk := maxMessageSize - streamRequestStartHeaderLen
  if maxChunk = 0 then none else some (min streamChunkSize maxChunk)

/-- `allocate_lease_stream_id`, with the counter at `current`. -/
def allocateLeaseStreamId (current : UInt32) : Option UInt32 :=
  if current.toNat = 2 ^ 32 - 1 then none
  else if current.toNat + 2 ≤ 2 ^ 32 - 1 then some current
  else none

/-- What the writer meets in one call. -/
structure Attempt where
  accept : ℕ
  nextStreamId : UInt32
  /-- the lease is cancelled while the write is under way -/
  cancels : Bool := false
  /-- the flush goes through -/
  flushes : Bool := true
  deriving DecidableEq, Repr

structure LeasedResponse where
  stage : LeasedResponseStage
  pendingOffset : ℕ
  /-- the record's `normal_payload` and `cancelled` -/
  normalPayload : Option Bytes
  cancelled : Bool
  /-- the bytes that went out -/
  wire : Bytes
  deriving DecidableEq, Repr

namespace LeasedResponse

def start : LeasedResponse := ⟨.reserved, 0, none, false, []⟩

def terminalStage (terms : LeaseTerms) : LeasedResponseStage :=
  .writingTerminal (writeResponseHeader terms.correlationId terms.terminalPayload.length)
    terms.terminalPayload

/-- The stage `Reserved` goes on to with the payload, or none if it is of no use. -/
def normalStage (terms : LeaseTerms) (nextStreamId : UInt32) :
    Option Bytes → Option LeasedResponseStage
  | none => none
  | some payload =>
    if payload.length > terms.streamingThreshold ∨
        payload.length > terms.maxMessageSize - askResponseHeaderLen then
      match leaseStreamChunkSize terms.maxMessageSize, allocateLeaseStreamId nextStreamId with
      | some chunkSize, some streamId =>
        some (.writingNormal (.new streamId terms.correlationId payload chunkSize))
      | _, _ => none
    else some (.writingInline (writeResponseHeader terms.correlationId payload.length) payload)

/-- The bytes are written; the offset moves on. -/
def sent (s : LeasedResponse) (bytes : Bytes) (stage : LeasedResponseStage) : LeasedResponse :=
  { s with stage, pendingOffset := s.pendingOffset + bytes.length, wire := s.wire ++ bytes }

/-- `write_leased_response_command_slice`: the response after it, whether it is
complete, and whether the writer shall yield. -/
def attempt (terms : LeaseTerms) (s : LeasedResponse) (a : Attempt) :
    LeasedResponse × Bool × Bool :=
  let after := { s with cancelled := s.cancelled || a.cancels }
  match s.stage with
  | .reserved =>
    if s.cancelled then
      ({ after with stage := terminalStage terms, pendingOffset := 0 }, false, false)
    else
      let stage := (normalStage terms a.nextStreamId s.normalPayload).getD (terminalStage terms)
      ({ after with stage, pendingOffset := 0 }, false, false)
  | .writingInline header payload =>
    if s.cancelled ∧ s.pendingOffset = 0 then
      ({ after with stage := terminalStage terms, pendingOffset := 0 }, false, false)
    else
      match writeInlineLeaseSlice s.pendingOffset header payload a.accept with
      | none => (after, false, false)
      | some (bytes, complete) =>
        (after.sent bytes (if complete then .flushing else s.stage), false, false)
  | .writingNormal normal =>
    let finalFrame := normal.chunkCount ≤ normal.frameIndex + 1
    if s.cancelled ∧ normal.frameOffset = 0 then
      let stage :=
        if normal.frameIndex = 0 then terminalStage terms
        else .writingAbort (writeStreamAbortHeader normal.streamId 0)
      ({ after with stage, pendingOffset := 0 }, false, false)
    else
      match normal.writeSlice a.accept with
      | (normal, none) => ({ after with stage := .writingNormal normal }, false, false)
      | (normal, some (bytes, complete, frameBoundary)) =>
        if complete then (after.sent bytes .flushing, false, false)
        else if after.cancelled ∧ frameBoundary ∧ ¬ finalFrame then
          let abort := .writingAbort (writeStreamAbortHeader normal.streamId 0)
          ({ after.sent bytes abort with pendingOffset := 0 }, false, false)
        else (after.sent bytes (.writingNormal normal), false, frameBoundary)
  | .writingAbort header =>
    match writeFixedLeaseSlice s.pendingOffset header a.accept with
    | none => (after, false, false)
    | some (bytes, complete) =>
      if complete then
        ({ after.sent bytes (terminalStage terms) with pendingOffset := 0 }, false, false)
      else (after.sent bytes s.stage, false, false)
  | .writingTerminal header payload =>
    match writeInlineLeaseSlice s.pendingOffset header payload a.accept with
    | none => (after, false, false)
    | some (bytes, complete) =>
      (after.sent bytes (if complete then .flushing else s.stage), false, false)
  | .flushing =>
    if a.flushes then ({ after with stage := .complete }, true, false) else (after, false, false)
  | .complete => (after, true, false)

end LeasedResponse

inductive LeaseEvent
  | publish (payload : Bytes)
  | cancel
  | attempt (a : Attempt)
  deriving DecidableEq, Repr

namespace LeasedResponse

/-- A payload is published once, and not after a cancellation. -/
def step (terms : LeaseTerms) (s : LeasedResponse) : LeaseEvent → LeasedResponse
  | .publish payload =>
    if s.cancelled ∨ payload.length > terms.maxReplyBytes ∨ s.normalPayload ≠ none then s
    else { s with normalPayload := some payload }
  | .cancel => { s with cancelled := true }
  | .attempt a => (s.attempt terms a).1

end LeasedResponse

/-! ### What a slice writes -/

variable {complete : Bool}

section Slices

variable {l sent : Bytes} {offset n k : ℕ}

lemma take_append_sent (h : sent = (l.drop offset).take k) :
    l.take offset ++ sent = l.take (offset + sent.length) := by
  subst h
  rw [take_add, length_take, ← take_eq_take_min]

variable {header payload offered bytes fixed : Bytes}
  {accept budget start len headerLen payloadLen : ℕ}

lemma writeVectoredOnce_eq_some (h : writeVectoredOnce offered accept = some sent) :
    sent = offered.take accept ∧ sent ≠ [] := by
  unfold writeVectoredOnce at h
  split at h
  · cases h
  · obtain rfl := Option.some.inj h
    exact ⟨rfl, by assumption⟩

lemma inlineOffer_eq :
    inlineOffer header payload offset budget = ((header ++ payload).drop offset).take budget := by
  unfold inlineOffer
  rw [drop_append, take_append, length_drop]
  split
  next hlt =>
    simp only [slice]
    have hpay : offset - header.length = 0 := by omega
    rw [hpay, drop_zero]
    congr 1
    · -- the budget ends in the header, or reaches into the payload
      by_cases hb : offset + budget ≤ header.length
      · rw [Nat.min_eq_left hb, Nat.add_sub_cancel_left]
      · rw [Nat.min_eq_right (by omega), take_of_length_le (by rw [length_drop]),
          take_of_length_le (by rw [length_drop]; omega)]
    · split
      · congr 1
        omega
      · have hzero : budget - (header.length - offset) = 0 := by omega
        rw [hzero, take_zero]
  next hge =>
    rw [drop_eq_nil_of_le (by omega : header.length ≤ offset), take_nil, nil_append]
    simp only [slice]
    congr 1
    omega

theorem writeInlineLeaseSlice_eq (hle : offset ≤ (header ++ payload).length)
    (h : writeInlineLeaseSlice offset header payload accept = some (sent, complete)) :
    (header ++ payload).take offset ++ sent = (header ++ payload).take (offset + sent.length) ∧
      offset + sent.length ≤ (header ++ payload).length ∧
      (complete = true → offset + sent.length = (header ++ payload).length) := by
  have hlen : (header ++ payload).length = header.length + payload.length := length_append
  simp only [writeInlineLeaseSlice] at h
  split at h
  · cases h
    exact ⟨by rw [append_nil, length_nil, add_zero], hle, fun _ => by
      rw [length_nil]; omega⟩
  · rw [Option.map_eq_some_iff] at h
    obtain ⟨bytes, hby, heq⟩ := h
    cases heq
    obtain ⟨hsent, -⟩ := writeVectoredOnce_eq_some hby
    rw [inlineOffer_eq, take_take] at hsent
    have hbd : sent.length ≤ (header ++ payload).length - offset := by
      rw [hsent, length_take, length_drop]
      exact min_le_right _ _
    refine ⟨take_append_sent hsent, by omega, fun hc => ?_⟩
    have := of_decide_eq_true hc
    omega

lemma writeFixedLeaseSlice_eq (hle : offset ≤ bytes.length)
    (h : writeFixedLeaseSlice offset bytes accept = some (sent, complete)) :
    bytes.take offset ++ sent = bytes.take (offset + sent.length) ∧
      offset + sent.length ≤ bytes.length ∧
      (complete = true → offset + sent.length = bytes.length) := by
  simp only [writeFixedLeaseSlice] at h
  split at h
  · cases h
    exact ⟨by rw [append_nil, length_nil, add_zero], hle, fun _ => by
      rw [length_nil]; omega⟩
  · rw [Option.map_eq_some_iff] at h
    obtain ⟨out, hout, heq⟩ := h
    cases heq
    obtain ⟨hsent, -⟩ := writeVectoredOnce_eq_some hout
    simp only [slice] at hsent
    rw [take_take] at hsent
    have hbd : sent.length ≤ bytes.length - offset := by
      rw [hsent, length_take, length_drop]
      exact min_le_right _ _
    refine ⟨take_append_sent hsent, by omega, fun hc => ?_⟩
    have := of_decide_eq_true hc
    omega

lemma offered_eq (h : budget ≤ header.length + len - offset) : slice header offset (offset +
      if offset < header.length then min (header.length - offset) budget else 0) ++
    slice payload (start + (offset - header.length))
      (start + (offset - header.length) + (budget -
        if offset < header.length then min (header.length - offset) budget else 0)) =
    ((header ++ slice payload start (start + len)).drop offset).take budget := by
  simp only [slice, Nat.add_sub_cancel_left]
  rw [drop_append, take_append, length_drop, drop_take, take_take, drop_drop]
  split
  next hlt =>
    congr 1
    · by_cases hb : budget ≤ header.length - offset
      · rw [Nat.min_eq_right hb]
      · rw [Nat.min_eq_left (by omega), take_of_length_le (by rw [length_drop]),
          take_of_length_le (by rw [length_drop]; omega)]
    · congr 1
      omega
  next hge =>
    rw [drop_eq_nil_of_le (by omega : header.length ≤ offset), take_nil, take_nil]
    congr 2
    omega

/-- What the source would panic on does not happen to a body within the limit. -/
lemma expectHeader_build {kind : WireKind} (h : headerLen + payloadLen ≤ controlBodyLenMask) :
    buildHeader kind headerLen fixed payloadLen =
        .ok (expectHeader (buildHeader kind headerLen fixed payloadLen)) ∧
      expectHeader (buildHeader kind headerLen fixed payloadLen) ≠ [] := by
  have hok : buildHeader kind headerLen fixed payloadLen =
      .ok (encodeControl ⟨kind, headerLen + payloadLen⟩ ++ fixed) :=
    buildHeader_eq_ok.mpr ⟨h, rfl⟩
  rw [hok]
  refine ⟨rfl, fun hnil => ?_⟩
  have hlen := congrArg length hnil
  rw [expectHeader, length_append, length_encodeControl, lengthPrefixLen, length_nil]
    at hlen
  omega

end Slices

namespace BytesStreamingResponse

/-- The stream with its next byte at offset `o` of frame `i`. -/
def placed (base : BytesStreamingResponse) (i o : ℕ) : BytesStreamingResponse :=
  { base with frameIndex := i, frameOffset := o }

variable (base : BytesStreamingResponse)

section Frames

variable (r : BytesStreamingResponse) (i : ℕ)

lemma framePayloadLen_eq :
    r.framePayloadLen i = min (r.payload.length - r.framePayloadStart i) r.chunkSize := by
  cases i with
  | zero | succ => rfl

lemma length_frame : (r.frame i).length = (r.frameHeader i).length + r.framePayloadLen i := by
  have hlen := r.framePayloadLen_eq i
  rw [frame, slice, length_append, length_take, length_drop]
  omega

lemma frames_succ : r.frames (i + 1) = r.frames i ++ r.frame i := by
  rw [frames, range_succ, flatMap_append, flatMap_singleton]
  rfl

theorem frameHeader_ok (h : r.chunkSize ≤ streamChunkSize) : (if i = 0 then
    tryWriteStreamResponseStartHeader r.streamId r.correlationId
      (UInt32.ofNat r.payload.length) (r.framePayloadLen i)
    else tryWriteStreamDataHeader true r.streamId (UInt32.ofNat i) (r.framePayloadLen i)) =
    .ok (r.frameHeader i) ∧ r.frameHeader i ≠ [] := by
  have hlen : r.framePayloadLen i ≤ 1024 * 1024 := by
    rw [framePayloadLen_eq]
    exact (min_le_right _ _).trans h
  have hmask := controlBodyLenMask_eq
  unfold frameHeader
  split
  · exact expectHeader_build (by unfold streamResponseStartHeaderLen; omega)
  · exact expectHeader_build (by unfold streamDataHeaderLen; omega)

lemma offer_eq {i o : ℕ} : (base.placed i o).offer =
    ((base.frame i).drop o).take (min streamWriteSliceBytes ((base.frame i).length - o)) := by
  have htot : (base.placed i o).frameTotalLen = (base.frame i).length :=
    (base.length_frame i).symm
  have hlen := base.length_frame i
  have hbud : min streamWriteSliceBytes ((base.frame i).length - o) ≤
      (base.frameHeader i).length + base.framePayloadLen i - o := by
    rw [← hlen]
    exact min_le_right _ _
  simp only [offer, htot]
  exact offered_eq hbud

lemma settle_eq {n : ℕ} (h : r.frameOffset < r.frameTotalLen) : r.settle n = r := by
  cases n with
  | zero => rfl
  | succ => exact if_neg fun hle => by omega

end Frames

/-- **A slice of the stream.**  Nothing goes out; or a part of the frame; or the
rest of it, and the stream is complete with its last frame. -/
theorem writeSlice_cases {i o : ℕ} (accept : ℕ) (hi : i < base.chunkCount)
    (ho : o < (base.frame i).length) :
    (base.placed i o).writeSlice accept = (base.placed i o, none) ∨
      (∃ sent, (base.placed i o).writeSlice accept =
          (base.placed i (o + sent.length), some (sent, false, false)) ∧
        o + sent.length < (base.frame i).length ∧
        (base.frame i).take o ++ sent = (base.frame i).take (o + sent.length)) ∨
      ∃ sent, (base.placed i o).writeSlice accept =
          (base.placed (i + 1) 0,
            some (sent, decide (base.chunkCount ≤ i + 1), !decide (base.chunkCount ≤ i + 1))) ∧
        (base.frame i).take o ++ sent = base.frame i := by
  have htot : (base.placed i o).frameTotalLen = (base.frame i).length :=
    (base.length_frame i).symm
  have hsettle : (base.placed i o).settle (base.placed i o).chunkCount = base.placed i o :=
    settle_eq _ (by rw [htot]; exact ho)
  have hmore : ¬ (base.placed i o).chunkCount ≤ (base.placed i o).frameIndex := by
    change ¬ base.chunkCount ≤ i
    omega
  simp only [writeSlice, hsettle, if_neg hmore, htot]
  cases hwrite : writeVectoredOnce (base.placed i o).offer accept with
  | none => exact .inl rfl
  | some sent =>
    obtain ⟨hsent, -⟩ := writeVectoredOnce_eq_some hwrite
    rw [offer_eq base, take_take] at hsent
    have htake := take_append_sent hsent
    -- does the slice end the frame
    by_cases hend : (base.frame i).length ≤ o + sent.length
    · refine .inr (.inr ⟨sent, ?_, ?_⟩)
      · have hdec : decide ((base.frame i).length ≤ (base.placed i o).frameOffset + sent.length) =
            true := decide_eq_true hend
        simp only [hdec, if_true, Bool.true_and]
        rfl
      · rw [htake, take_of_length_le hend]
    · refine .inr (.inl ⟨sent, ?_, by omega, htake⟩)
      have hdec : decide ((base.frame i).length ≤ (base.placed i o).frameOffset + sent.length) =
          false := decide_eq_false hend
      have hcnt : decide (base.chunkCount ≤ i) = false := decide_eq_false (by omega)
      simp only [hdec, Bool.false_and, if_false, Bool.false_eq_true]
      change (_, some (sent, decide (base.chunkCount ≤ i), false)) = _
      rw [hcnt]
      rfl

end BytesStreamingResponse

lemma leaseStreamChunkSize_eq_some {maxMessageSize chunkSize : ℕ}
    (h : leaseStreamChunkSize maxMessageSize = some chunkSize) :
    0 < chunkSize ∧ chunkSize ≤ streamChunkSize := by
  simp only [leaseStreamChunkSize] at h
  split at h
  · cases h
  · obtain rfl := Option.some.inj h
    have hchunk : streamChunkSize = 1048576 := by decide
    omega

/-! ### What is on the wire -/

namespace LeasedResponse

/-- The frame of an unstreamed reply. -/
def replyFrame (terms : LeaseTerms) (payload : Bytes) : Bytes :=
  writeResponseHeader terms.correlationId payload.length ++ payload

/-- The stream of the published payload. -/
def StreamOf (terms : LeaseTerms) (s : LeasedResponse) (base : BytesStreamingResponse) : Prop :=
  ∃ streamId payload chunkSize, s.normalPayload = some payload ∧
    leaseStreamChunkSize terms.maxMessageSize = some chunkSize ∧
    base = .new streamId terms.correlationId payload chunkSize

/-- The first frames of the stream and its abort. -/
def Aborted (terms : LeaseTerms) (s : LeasedResponse) (before : Bytes) : Prop :=
  s.cancelled = true ∧ ∃ base k, StreamOf terms s base ∧ 0 < k ∧ k < base.chunkCount ∧
    before = base.frames k ++ writeStreamAbortHeader base.streamId 0

/-- The call finds no payload in `Reserved`, or one that must be streamed while there is
no chunk size or no stream id. -/
def NothingToSend (terms : LeaseTerms) (s : LeasedResponse) (a : Attempt) : Prop :=
  s.stage = .reserved ∧ ∀ payload, s.normalPayload = some payload →
    (terms.streamingThreshold < payload.length ∨
      terms.maxMessageSize - askResponseHeaderLen < payload.length) ∧
    (leaseStreamChunkSize terms.maxMessageSize = none ∨
      allocateLeaseStreamId a.nextStreamId = none)

/-- A call of the run found nothing to send. -/
def Unusable (terms : LeaseTerms) (es : List LeaseEvent) : Prop :=
  ∃ earlier a later, es = earlier ++ .attempt a :: later ∧
    NothingToSend terms (Run.exec (step terms) start earlier) a

/-- What may stand before the terminal reply. -/
def Opening (terms : LeaseTerms) (unusable : Prop) (s : LeasedResponse) (before : Bytes) : Prop :=
  before = [] ∧ (s.cancelled = true ∨ unusable) ∨ Aborted terms s before

/-- **The outcomes of a leased reply.** -/
def Outcome (terms : LeaseTerms) (unusable : Prop) (s : LeasedResponse) (wire : Bytes) : Prop :=
  (∃ payload, s.normalPayload = some payload ∧ wire = replyFrame terms payload) ∨
    (∃ base, StreamOf terms s base ∧ wire = base.frames base.chunkCount) ∨
    ∃ before, Opening terms unusable s before ∧
      wire = before ++ replyFrame terms terms.terminalPayload

/-- What the wire holds at a stage, with the next byte at `offset`. -/
def Written (terms : LeaseTerms) (unusable : Prop) (s : LeasedResponse) (offset : ℕ)
    (wire : Bytes) : LeasedResponseStage → Prop
  | .reserved => wire = []
  | .writingInline header payload =>
    s.normalPayload = some payload ∧ header ++ payload = replyFrame terms payload ∧
      offset ≤ (header ++ payload).length ∧ wire = (header ++ payload).take offset
  | .writingNormal normal =>
    ∃ base i o, StreamOf terms s base ∧ normal = base.placed i o ∧ i < base.chunkCount ∧
      o < (base.frame i).length ∧ wire = base.frames i ++ (base.frame i).take o
  | .writingAbort header =>
    s.cancelled = true ∧ ∃ base k, StreamOf terms s base ∧ 0 < k ∧ k < base.chunkCount ∧
      header = writeStreamAbortHeader base.streamId 0 ∧ offset ≤ header.length ∧
      wire = base.frames k ++ header.take offset
  | .writingTerminal header payload =>
    ∃ before, Opening terms unusable s before ∧
      header ++ payload = replyFrame terms terms.terminalPayload ∧ offset ≤ (header ++ payload).length ∧ wire = before ++ (header ++ payload).take offset
  | .flushing | .complete => Outcome terms unusable s wire

/-- A payload stays published, and what is cancelled or of no use stays so. -/
structure Grows (u u' : Prop) (s s' : LeasedResponse) : Prop where
  payload : ∀ p, s.normalPayload = some p → s'.normalPayload = some p
  cancelled : s.cancelled = true → s'.cancelled = true
  unusable : u → u'

variable {stage : LeasedResponseStage}

section Grows

variable {terms : LeaseTerms} {s s' : LeasedResponse} {u u' : Prop}

lemma StreamOf.mono (h : Grows u u' s s') {base : BytesStreamingResponse}
    (hb : StreamOf terms s base) : StreamOf terms s' base := by
  obtain ⟨streamId, payload, chunkSize, hp, hrest⟩ := hb
  exact ⟨streamId, payload, chunkSize, h.payload _ hp, hrest⟩

lemma Aborted.mono (h : Grows u u' s s') {before : Bytes} (hb : Aborted terms s before) :
    Aborted terms s' before := by
  obtain ⟨hcanc, base, k, hstr, hrest⟩ := hb
  exact ⟨h.cancelled hcanc, base, k, hstr.mono h, hrest⟩

lemma Opening.mono (h : Grows u u' s s') {before : Bytes} (hb : Opening terms u s before) :
    Opening terms u' s' before := by
  obtain ⟨hnil, hwhy⟩ | haborted := hb
  · exact .inl ⟨hnil, hwhy.imp h.cancelled h.unusable⟩
  · exact .inr (haborted.mono h)

lemma Outcome.mono (h : Grows u u' s s') {wire : Bytes} (ho : Outcome terms u s wire) :
    Outcome terms u' s' wire := by
  obtain ⟨payload, hp, hwire⟩ | ⟨base, hstr, hwire⟩ | ⟨before, hopening, hwire⟩ := ho
  · exact .inl ⟨payload, h.payload _ hp, hwire⟩
  · exact .inr (.inl ⟨base, hstr.mono h, hwire⟩)
  · exact .inr (.inr ⟨before, hopening.mono h, hwire⟩)

lemma Written.mono (h : Grows u u' s s') {offset : ℕ} {wire : Bytes}
    (hw : Written terms u s offset wire stage) : Written terms u' s' offset wire stage := by
  cases stage with
  | reserved => exact hw
  | writingInline => exact ⟨h.payload _ hw.1, hw.2⟩
  | writingNormal =>
    obtain ⟨base, i, o, hstr, hrest⟩ := hw
    exact ⟨base, i, o, hstr.mono h, hrest⟩
  | writingAbort =>
    obtain ⟨hcanc, base, k, hstr, hrest⟩ := hw
    exact ⟨h.cancelled hcanc, base, k, hstr.mono h, hrest⟩
  | writingTerminal =>
    obtain ⟨before, hopening, hrest⟩ := hw
    exact ⟨before, hopening.mono h, hrest⟩
  | flushing | complete => exact Outcome.mono h hw

lemma StreamOf.count_pos {base : BytesStreamingResponse} (h : StreamOf terms s base) :
    0 < base.chunkCount := by
  obtain ⟨streamId, payload, chunkSize, -, hsize, rfl⟩ := h
  obtain ⟨hpos, -⟩ := leaseStreamChunkSize_eq_some hsize
  change 0 < if payload.length = 0 then 1 else (payload.length + (chunkSize - 1)) / chunkSize
  split
  · exact one_pos
  · exact div_pos (by omega) hpos

lemma StreamOf.size_le {base : BytesStreamingResponse} (h : StreamOf terms s base) :
    base.chunkSize ≤ streamChunkSize := by
  obtain ⟨streamId, payload, chunkSize, -, hsize, rfl⟩ := h
  exact (leaseStreamChunkSize_eq_some hsize).2

lemma StreamOf.frame_pos {base : BytesStreamingResponse} (h : StreamOf terms s base) (i : ℕ) :
    0 < (base.frame i).length := by
  rw [base.length_frame]
  exact Nat.add_pos_left (length_pos_of_ne_nil (base.frameHeader_ok i h.size_le).2) _

end Grows

section Attempt

variable {terms : LeaseTerms} {s : LeasedResponse} {u v : Prop}

lemma written_terminal {before : Bytes} (h : Opening terms u s before) :
    Written terms u s 0 before (terminalStage terms) :=
  ⟨before, h, rfl, zero_le _, by rw [take_zero, append_nil]⟩

lemma written_slice {header payload b sent : Bytes} {offset accept : ℕ}
    (hle : offset ≤ (header ++ payload).length)
    (h : writeInlineLeaseSlice offset header payload accept = some (sent, complete)) :
    b ++ (header ++ payload).take offset ++ sent =
        b ++ (header ++ payload).take (offset + sent.length) ∧
      offset + sent.length ≤ (header ++ payload).length ∧
      (complete = true → b ++ (header ++ payload).take (offset + sent.length) =
        b ++ (header ++ payload)) := by
  obtain ⟨htake, hbd, hdone⟩ := writeInlineLeaseSlice_eq hle h
  refine ⟨by rw [append_assoc, htake], hbd, fun hc => ?_⟩
  rw [hdone hc, take_length]

lemma written_normalStage {nextStreamId : UInt32}
    (h : normalStage terms nextStreamId s.normalPayload = some stage) :
    Written terms u s 0 [] stage := by
  cases hp : s.normalPayload with
  | none =>
    rw [hp] at h
    cases h
  | some payload =>
    rw [hp] at h
    simp only [normalStage] at h
    split at h
    · cases hsize : leaseStreamChunkSize terms.maxMessageSize with
      | none =>
        rw [hsize] at h
        cases h
      | some chunkSize =>
        cases hid : allocateLeaseStreamId nextStreamId with
        | none =>
          rw [hsize, hid] at h
          cases h
        | some streamId =>
          rw [hsize, hid] at h
          obtain rfl := Option.some.inj h
          have hstr : StreamOf terms s (.new streamId terms.correlationId payload chunkSize) :=
            ⟨streamId, payload, chunkSize, hp, hsize, rfl⟩
          exact ⟨_, 0, 0, hstr, rfl, hstr.count_pos, hstr.frame_pos 0, rfl⟩
    · obtain rfl := Option.some.inj h
      exact ⟨hp, rfl, zero_le _, rfl⟩

lemma nothingToSend {a : Attempt} (hsg : s.stage = .reserved)
    (h : normalStage terms a.nextStreamId s.normalPayload = none) : NothingToSend terms s a := by
  refine ⟨hsg, fun payload hp => ?_⟩
  rw [hp] at h
  simp only [normalStage] at h
  split at h
  next hlong =>
    refine ⟨hlong, ?_⟩
    cases hsize : leaseStreamChunkSize terms.maxMessageSize with
    | none => exact .inl rfl
    | some chunkSize =>
      cases hid : allocateLeaseStreamId a.nextStreamId with
      | none => exact .inr rfl
      | some streamId => simp [hsize, hid] at h
  · cases h

/-- What one call of the writer leaves behind. -/
def After (terms : LeaseTerms) (u : Prop) (r : LeasedResponse × Bool × Bool) : Prop :=
  Written terms u r.1 r.1.pendingOffset r.1.wire r.1.stage ∧
    (r.2.1 = true → r.1.stage = .complete) ∧
    (r.2.2 = true → ∃ base k, StreamOf terms r.1 base ∧ 0 < k ∧ k < base.chunkCount ∧
      r.1.wire = base.frames k)

lemma after_of_written {s' : LeasedResponse}
    (h : Written terms u s' s'.pendingOffset s'.wire s'.stage) : After terms u (s', false, false) :=
  ⟨h, nofun, nofun⟩

lemma grows_cancelled (s : LeasedResponse) (cancels : Bool) :
    Grows u (u ∨ v) s { s with cancelled := s.cancelled || cancels } :=
  ⟨fun _ h => h, fun h => by change (s.cancelled || cancels) = true; rw [h]; rfl, .inl⟩

lemma after_normal {a : Attempt} {normal : BytesStreamingResponse}
    (hsg : s.stage = .writingNormal normal)
    (h : Written terms u s s.pendingOffset s.wire (.writingNormal normal)) :
    After terms (u ∨ v) (s.attempt terms a) := by
  have hgrows := grows_cancelled (u := u) (v := v) s a.cancels
  obtain ⟨base, i, o, hstr, rfl, hi, ho, hwire⟩ := h
  have hstr' := hstr.mono hgrows
  simp only [attempt, hsg]
  split
  next hcancel =>
    have hcanc := hgrows.cancelled hcancel.1
    have hzero : o = 0 := hcancel.2
    rw [hzero, take_zero, append_nil] at hwire
    refine after_of_written ?_
    -- nothing is out yet, or whole frames are and an abort has to follow
    by_cases hfst : i = 0
    · have hnil : s.wire = [] := by rw [hwire, hfst]; rfl
      have hterm : Written terms (u ∨ v) { s with cancelled := s.cancelled || a.cancels } 0 []
          (terminalStage terms) := written_terminal (.inl ⟨rfl, .inl hcanc⟩)
      simp only [BytesStreamingResponse.placed, hfst, if_true, hnil]
      exact hterm.mono ⟨fun _ h => h, id, id⟩
    · simp only [BytesStreamingResponse.placed, hfst, if_false]
      exact ⟨hcanc, base, i, hstr', by omega, hi, rfl, zero_le _,
        by rw [hwire, take_zero, append_nil]⟩
  · obtain hnone | ⟨sent, hpart, hmore, htake⟩ | ⟨sent, hwhole, htake⟩ :=
      base.writeSlice_cases a.accept hi ho
    · rw [hnone]
      exact after_of_written ⟨base, i, o, hstr', rfl, hi, ho, hwire⟩
    · rw [hpart]
      simp only [Bool.false_eq_true, if_false, false_and, and_false]
      refine after_of_written ⟨base, i, o + sent.length, hstr', rfl, hi, hmore, ?_⟩
      change s.wire ++ sent = _
      rw [hwire, append_assoc, htake]
    · have hfrs : s.wire ++ sent = base.frames (i + 1) := by
        rw [hwire, append_assoc, htake, base.frames_succ]
      rw [hwhole]
      -- a whole frame went out: the last one, or the lane is yielded
      by_cases hlast : base.chunkCount ≤ i + 1
      · simp only [hlast, decide_true, if_true]
        refine after_of_written (.inr (.inl ⟨base, hstr', ?_⟩))
        change s.wire ++ sent = _
        rw [hfrs, show base.chunkCount = i + 1 by omega]
      · simp only [hlast, decide_false, Bool.false_eq_true, if_false, Bool.not_false, true_and]
        have hnext : StreamOf terms _ base ∧ 0 < i + 1 ∧ i + 1 < base.chunkCount :=
          ⟨hstr', succ_pos i, by omega⟩
        split
        next hcancel =>
          refine after_of_written ⟨hcancel.1, base, i + 1, hnext.1, hnext.2.1, hnext.2.2, rfl,
            zero_le _, ?_⟩
          change s.wire ++ sent = _
          rw [hfrs, take_zero, append_nil]
        · refine ⟨⟨base, i + 1, 0, hnext.1, rfl, hnext.2.2, hnext.1.frame_pos _, ?_⟩, nofun,
            fun _ => ⟨base, i + 1, hnext.1, hnext.2.1, hnext.2.2, hfrs⟩⟩
          change s.wire ++ sent = _
          rw [hfrs, take_zero, append_nil]

lemma after_attempt (a : Attempt) (h : Written terms u s s.pendingOffset s.wire s.stage) :
    After terms (u ∨ NothingToSend terms s a) (s.attempt terms a) := by
  have hgrows := grows_cancelled (u := u) (v := NothingToSend terms s a) s a.cancels
  generalize hsg : s.stage = stage at h
  cases stage with
  -- nothing is on the wire, so a cancelled reply may still become a terminal frame
  | reserved =>
    have hnil : s.wire = [] := h
    simp only [attempt, hsg, hnil]
    split
    next hcanc =>
      refine after_of_written ?_
      exact (written_terminal (.inl ⟨rfl, .inl (hgrows.cancelled hcanc)⟩)).mono
        ⟨fun _ h => h, id, id⟩
    · cases hnormal : normalStage terms a.nextStreamId s.normalPayload with
      | some stage =>
        have hfst : Written terms u s 0 [] stage := written_normalStage hnormal
        refine after_of_written (Written.mono (s := s) ?_ hfst)
        exact ⟨fun _ h => h, hgrows.cancelled, .inl⟩
      | none =>
        refine after_of_written ?_
        exact written_terminal (.inl ⟨rfl, .inr (.inr (nothingToSend hsg hnormal))⟩)
  -- only a frame of which nothing was written is given up
  | writingInline header payload =>
    obtain ⟨hp, hfr, hle, hwire⟩ := h
    simp only [attempt, hsg]
    split
    next hcancel =>
      have hnil : s.wire = [] := by rw [hwire, hcancel.2, take_zero]
      simp only [hnil]
      refine after_of_written ?_
      exact (written_terminal (.inl ⟨rfl, .inl (hgrows.cancelled hcancel.1)⟩)).mono
        ⟨fun _ h => h, id, id⟩
    · cases hsl : writeInlineLeaseSlice s.pendingOffset header payload a.accept with
      | none => exact after_of_written ⟨hp, hfr, hle, hwire⟩
      | some out =>
        obtain ⟨sent, complete⟩ := out
        obtain ⟨htake, hbd, hdone⟩ := written_slice (b := []) hle hsl
        rw [nil_append, nil_append, ← hwire] at htake
        refine after_of_written ?_
        cases complete with
        | false => exact ⟨hp, hfr, hbd, htake⟩
        | true => exact .inl ⟨payload, hp, (htake.trans (hdone rfl)).trans hfr⟩
  | writingNormal =>
    exact after_normal hsg h
  -- the abort follows whole frames of the stream, and the terminal frame follows it
  | writingAbort header =>
    obtain ⟨hcanc, base, k, hstr, hpos, hlt, hheader, hle, hwire⟩ := h
    simp only [attempt, hsg]
    cases hsl : writeFixedLeaseSlice s.pendingOffset header a.accept with
    | none =>
      refine after_of_written ?_
      exact ⟨hgrows.cancelled hcanc, base, k, hstr.mono hgrows, hpos, hlt, hheader, hle,
        hwire⟩
    | some out =>
      obtain ⟨sent, complete⟩ := out
      obtain ⟨htake, hbd, hdone⟩ := writeFixedLeaseSlice_eq hle hsl
      have hall : s.wire ++ sent =
          base.frames k ++ header.take (s.pendingOffset + sent.length) := by
        rw [hwire, append_assoc, htake]
      cases complete with
      | false =>
        refine after_of_written ?_
        exact ⟨hgrows.cancelled hcanc, base, k, hstr.mono hgrows, hpos, hlt, hheader,
          hbd, hall⟩
      | true =>
        rw [hdone rfl, take_length] at hall
        refine after_of_written ?_
        have hopening : Opening terms u s (s.wire ++ sent) :=
          .inr ⟨hcanc, base, k, hstr, hpos, hlt, by rw [hall, hheader]⟩
        refine Written.mono (s := s) ?_ (written_terminal hopening)
        exact ⟨fun _ h => h, hgrows.cancelled, .inl⟩
  | writingTerminal header payload =>
    obtain ⟨before, hopening, hfr, hle, hwire⟩ := h
    simp only [attempt, hsg]
    cases hsl : writeInlineLeaseSlice s.pendingOffset header payload a.accept with
    | none =>
      refine after_of_written ?_
      exact ⟨before, hopening.mono hgrows, hfr, hle, hwire⟩
    | some out =>
      obtain ⟨sent, complete⟩ := out
      obtain ⟨htake, hbd, hdone⟩ := written_slice (b := before) hle hsl
      rw [← hwire] at htake
      refine after_of_written ?_
      cases complete with
      | false => exact ⟨before, hopening.mono hgrows, hfr, hbd, htake⟩
      | true =>
        exact .inr (.inr ⟨before, hopening.mono hgrows, by
          rw [← hfr]
          exact htake.trans (hdone rfl)⟩)
  | flushing =>
    simp only [attempt, hsg]
    split
    · exact ⟨Outcome.mono hgrows h, fun _ => rfl, nofun⟩
    · exact after_of_written (Outcome.mono hgrows h)
  | complete =>
    simp only [attempt, hsg]
    exact ⟨Outcome.mono hgrows h, fun _ => rfl, nofun⟩

end Attempt

/-! ### Every run -/

/-- What every step keeps. -/
structure Consistent (terms : LeaseTerms) (u : Prop) (s : LeasedResponse) : Prop where
  written : Written terms u s s.pendingOffset s.wire s.stage
  bound : ∀ p, s.normalPayload = some p → p.length ≤ terms.maxReplyBytes

lemma normalPayload_attempt {terms : LeaseTerms} {s : LeasedResponse} {a : Attempt} :
    (s.attempt terms a).1.normalPayload = s.normalPayload := by
  cases hsg : s.stage with
  | writingInline | writingAbort =>
    simp only [attempt, hsg]
    split
    · rfl
    · split <;> rfl
  | writingNormal =>
    simp only [attempt, hsg]
    split
    · rfl
    · split
      · rfl
      · split
        · rfl
        · split <;> rfl
  | reserved | writingTerminal | flushing =>
    simp only [attempt, hsg]
    split <;> rfl
  | complete =>
    simp [attempt, hsg]

lemma Consistent.step {terms : LeaseTerms} {s : LeasedResponse} {u u' : Prop} {e : LeaseEvent}
    (hs : Consistent terms u s) (hu : u → u')
    (hnow : ∀ a, e = .attempt a → NothingToSend terms s a → u') :
    Consistent terms u' (s.step terms e) := by
  cases e with
  | publish payload =>
    simp only [LeasedResponse.step]
    split
    · exact ⟨hs.written.mono ⟨fun _ h => h, id, hu⟩, hs.bound⟩
    next hopen =>
      simp only [not_or, not_lt, ne_eq, not_not] at hopen
      obtain ⟨-, hlen, hnone⟩ := hopen
      have hgrows : Grows u u' s { s with normalPayload := some payload } := by
        refine ⟨fun p hp => ?_, id, hu⟩
        rw [hnone] at hp
        cases hp
      refine ⟨hs.written.mono hgrows, fun p hp => ?_⟩
      obtain rfl := Option.some.inj hp
      exact hlen
  | cancel =>
    refine ⟨Written.mono (s := s) ?_ hs.written, hs.bound⟩
    exact ⟨fun _ h => h, fun _ => rfl, hu⟩
  | attempt a =>
    have hwritten := (after_attempt a hs.written).1
    refine ⟨hwritten.mono ⟨fun _ h => h, id, fun h => h.elim hu (hnow a rfl)⟩,
      fun p hp => hs.bound p ?_⟩
    exact normalPayload_attempt.symm.trans hp

lemma Unusable.concat {terms : LeaseTerms} {es : List LeaseEvent} (e : LeaseEvent)
    (h : Unusable terms es) : Unusable terms (es ++ [e]) := by
  obtain ⟨earlier, a, later, rfl, hnone⟩ := h
  exact ⟨earlier, a, later ++ [e], by simp, hnone⟩

lemma consistent (terms : LeaseTerms) (es : List LeaseEvent) :
    Consistent terms (Unusable terms es) (Run.exec (step terms) start es) := by
  induction es using reverseRecOn with
  | nil => exact ⟨rfl, nofun⟩
  | append_singleton es e ih =>
    rw [Run.exec_concat]
    refine ih.step (Unusable.concat e) fun a he hnone => ?_
    exact ⟨es, a, [], by rw [he], hnone⟩

/-- **A leased reply has exactly one outcome on the wire.**  Whatever the socket
takes and whenever the lease is cancelled, a writer that is complete has written
the reply, or its whole stream, or the terminal reply — alone, or after the first
frames of the stream and its abort; the terminal reply only if the lease was
cancelled or had no payload the writer could send.  When it asks to yield, whole
frames are on the wire.  None of the headers can fail to be built. -/
theorem one_outcome (terms : LeaseTerms) (es : List LeaseEvent) :
    let s := Run.exec (step terms) start es
    (s.stage = .complete → Outcome terms (Unusable terms es) s s.wire) ∧
      (∀ a, (s.attempt terms a).2.1 = true →
        Outcome terms (Unusable terms (es ++ [.attempt a])) (s.attempt terms a).1
          (s.attempt terms a).1.wire) ∧
      (∀ a, (s.attempt terms a).2.2 = true → ∃ base k, StreamOf terms (s.attempt terms a).1 base ∧
        0 < k ∧ k < base.chunkCount ∧ (s.attempt terms a).1.wire = base.frames k) ∧
      (∀ payload, s.normalPayload = some payload ∨ payload = terms.terminalPayload →
        tryWriteAskResponseHeader .response terms.correlationId payload.length =
          .ok (writeResponseHeader terms.correlationId payload.length)) ∧
      ∀ base i, StreamOf terms s base →
        (if i = 0 then
          tryWriteStreamResponseStartHeader base.streamId base.correlationId
            (UInt32.ofNat base.payload.length) (base.framePayloadLen i)
        else
          tryWriteStreamDataHeader true base.streamId (UInt32.ofNat i) (base.framePayloadLen i)) =
          .ok (base.frameHeader i) := by
  intro s
  have hs : Consistent terms (Unusable terms es) s := consistent terms es
  refine ⟨fun hsg => ?_, fun a hdone => ?_, fun a => (after_attempt a hs.written).2.2,
    fun payload hpay => ?_, fun base i hbase => (base.frameHeader_ok i hbase.size_le).1⟩
  · have hwrit := hs.written
    rw [hsg] at hwrit
    exact hwrit
  · have hwrit := (consistent terms (es ++ [.attempt a])).written
    rw [Run.exec_concat] at hwrit
    change Written _ _ (s.attempt terms a).1 _ _ (s.attempt terms a).1.stage at hwrit
    rw [(after_attempt a hs.written).2.1 hdone] at hwrit
    exact hwrit
  · have hlen : payload.length ≤ terms.maxReplyBytes := by
      obtain hp | rfl := hpay
      · exact hs.bound payload hp
      · exact terms.terminal
    have hmax : terms.maxReplyBytes ≤ 67108864 := terms.within
    have hmask := controlBodyLenMask_eq
    exact (expectHeader_build (by unfold askResponseHeaderLen; omega)).1

end LeasedResponse

end IcanactRemote
