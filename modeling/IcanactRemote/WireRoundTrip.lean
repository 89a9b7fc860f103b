/-
Frames read back as they were built.

A `Header` is a call of one of the builders.  The frame is what the builder
returns followed by the payload, and the receiver reads the control word and then
the body, or the stream metadata.

* `Header.build_eq_ok` — what any of the builders returns;
* `readFrame_inline`, `readFrame_stream` — how the receiver reads such a frame;
* `Header.reads_back_iff` — which frames read back: the builders accept some
  field values that the receiver refuses.
-/
import IcanactRemote.ReaderSteps

namespace IcanactRemote

open Reader List

open StreamingState

attribute [local simp] bind Except.bind pure Except.pure

/-! ### Fields at their offsets -/

section Fields

variable {bytes x z y : Bytes}

lemma slice_middle (h : bytes = x ++ (y ++ z)) :
    slice bytes x.length (x.length + y.length) = y := by
  rw [slice, h, drop_left, Nat.add_sub_cancel_left, take_left]

variable {k n offset : ℕ}

lemma readRange_skip (hx : x.length = k) {a b : ℕ} :
    readRange (x ++ z) (a + k) (b + k) = readRange z a b := by
  subst hx
  have hsl : slice (x ++ z) (a + x.length) (b + x.length) = slice z a b := by
    rw [slice, slice, Nat.add_sub_add_right, Nat.add_comm a, ← drop_drop, drop_left]
  simp only [readRange, hsl, length_append, Nat.add_comm x.length, Nat.add_le_add_iff_right]

variable (v : UInt32) (w : UInt64) (a b : ℕ)

@[simp] lemma readRange_skip32 : readRange (toBe32 v ++ z) (a + 4) (b + 4) = readRange z a b :=
  readRange_skip (length_toBe32 v)

@[simp] lemma readRange_skip64 : readRange (toBe64 w ++ z) (a + 8) (b + 8) = readRange z a b :=
  readRange_skip (length_toBe64 w)

@[simp] lemma readU32_skip32 : readU32 (toBe32 v ++ z) (a + 4) = readU32 z a := by
  rw [readU32, readRange_skip32, readU32]

@[simp] lemma readU32_skip64 : readU32 (toBe64 w ++ z) (a + 8) = readU32 z a := by
  rw [readU32, Nat.add_right_comm, readRange_skip64, readU32]

@[simp] lemma readU64_skip32 : readU64 (toBe32 v ++ z) (a + 4) = readU64 z a := by
  rw [readU64, Nat.add_right_comm, readRange_skip32, readU64]

@[simp] lemma readU64_skip64 : readU64 (toBe64 w ++ z) (a + 8) = readU64 z a := by
  rw [readU64, readRange_skip64, readU64]

lemma readRange_take (hx : x.length = k) : readRange (x ++ z) 0 k = .ok x := by
  have hle : k ≤ (x ++ z).length := by
    rw [length_append]
    omega
  rw [readRange_of_le (Nat.zero_le k) hle, slice, drop_zero, Nat.sub_zero, ← hx, take_left]

@[simp] lemma readRange_reserved : readRange (reserved n ++ z) 0 n = .ok (reserved n) :=
  readRange_take (length_reserved n)

@[simp] lemma readU32_head : readU32 (toBe32 v ++ z) 0 = .ok v := by
  exact congrArg _ (fromBe32_toBe32 v)

@[simp] lemma readU64_head : readU64 (toBe64 w ++ z) 0 = .ok w := by
  exact congrArg _ (fromBe64_toBe64 w)

@[simp] lemma mem_reserved {c} : c ∈ reserved n ↔ n ≠ 0 ∧ c = 0 := mem_replicate

lemma readRange_rest (h : bytes = x ++ z) (hoffset : x.length = offset) :
    readRange bytes offset bytes.length = .ok z := by
  have hlen : offset ≤ bytes.length := by
    rw [h, length_append]
    omega
  rw [readRange_of_le hlen le_rfl, slice, h, ← hoffset, drop_left, take_of_length_le]
  rw [length_append, Nat.add_sub_cancel_left]

end Fields

lemma inlinePayload_eq {buffer payload : Bytes} (header : Bytes) {headerLen : ℕ}
    (h : buffer = header ++ payload) (hlen : header.length = lengthPrefixLen + headerLen)
    (haligned : (lengthPrefixLen + headerLen) % payloadAlignment = 0) :
    inlinePayload buffer (headerLen + payload.length) headerLen = .ok payload := by
  have hbuf : buffer.length = lengthPrefixLen + headerLen + payload.length := by
    rw [h, length_append, hlen]
  have hsub : subLen (headerLen + payload.length) headerLen = .ok payload.length := by
    rw [subLen_of_le (Nat.le_add_right ..), Nat.add_sub_cancel_left]
  have hrange : ¬ saturatingAdd (lengthPrefixLen + headerLen) payload.length > buffer.length := by
    unfold saturatingAdd
    omega
  simp only [inlinePayload, hsub, bind, Except.bind, fromPooledBufferRange, if_neg hrange]
  split
  next hemp =>
    rw [eq_nil_of_length_eq_zero hemp]
  · have hsl : slice buffer (lengthPrefixLen + headerLen)
        (lengthPrefixLen + headerLen + payload.length) = payload := by
      rw [← hlen]
      exact slice_middle (z := []) (by rw [h, append_nil])
    rw [if_neg (not_not.mpr haligned), hsl]

/-! ### The builders -/

/-- A call of a builder. -/
inductive Header
  | actorTell (actorId : UInt64) (typeHash : UInt32)
  | actorAsk (correlationId : UInt32) (actorId : UInt64) (typeHash : UInt32)
      (requestId : Option UInt64)
  | routedActorAsk (correlationId routeSlot : UInt32)
  | routeBind (routeSlot : UInt32) (actorId : UInt64) (typeHash : UInt32)
  | ask (correlationId : UInt32)
  | response (correlationId : UInt32)
  | askNack (correlationId : UInt32) (reason : AskNackReason)
  | gossip
  | pubSub
  | directAsk (correlationId : UInt32) (requestId : UInt64)
  | directResponse (correlationId : UInt32)
  | streamStart (streamId correlationId totalSize : UInt32) (actorId : UInt64)
      (typeHash : UInt32)
  | streamResponseStart (streamId correlationId totalSize : UInt32)
  | streamData (isResponse : Bool) (streamId chunkIndex : UInt32)
  | streamAbort (streamId reason : UInt32)
  deriving DecidableEq, Repr

open Header

variable (header : Header)

namespace Header

/-- What the builder returns. -/
def build (payloadLen : ℕ) : Header → Except GossipError Bytes
  | .actorTell actorId typeHash => tryWriteActorTellHeader actorId typeHash payloadLen
  | .actorAsk correlationId actorId typeHash requestId =>
    tryWriteActorAskHeaderWithRequestId correlationId actorId typeHash payloadLen requestId
  | .routedActorAsk correlationId routeSlot =>
    tryWriteRoutedActorAskHeader correlationId routeSlot payloadLen
  | .routeBind routeSlot actorId typeHash =>
    .ok (writeRouteBindHeader routeSlot actorId typeHash)
  | .ask correlationId => tryWriteAskResponseHeader .ask correlationId payloadLen
  | .response correlationId => tryWriteAskResponseHeader .response correlationId payloadLen
  | .askNack correlationId reason => tryWriteAskNackHeader correlationId reason
  | .gossip => tryWriteGossipFramePrefix payloadLen
  | .pubSub => tryWritePubsubFramePrefix payloadLen
  | .directAsk correlationId requestId =>
    tryWriteDirectAskHeader correlationId requestId payloadLen
  | .directResponse correlationId => tryWriteDirectResponseHeader correlationId payloadLen
  | .streamStart streamId correlationId totalSize actorId typeHash =>
    tryWriteStreamRequestStartHeader streamId correlationId totalSize actorId typeHash payloadLen
  | .streamResponseStart streamId correlationId totalSize =>
    tryWriteStreamResponseStartHeader streamId correlationId totalSize payloadLen
  | .streamData isResponse streamId chunkIndex =>
    tryWriteStreamDataHeader isResponse streamId chunkIndex payloadLen
  | .streamAbort streamId reason => .ok (writeStreamAbortHeader streamId reason)

/-- The frames of these builders have no payload. -/
def bare : Header → Bool
  | .routeBind _ _ _ | .askNack _ _ | .streamAbort _ _ => true
  | _ => false

def kind : Header → WireKind
  | .actorTell _ _ => .actorTell
  | .actorAsk _ _ _ _ => .actorAsk
  | .routedActorAsk _ _ => .routedActorAsk
  | .routeBind _ _ _ => .routeBind
  | .ask _ => .ask
  | .response _ | .askNack _ _ => .response
  | .gossip => .gossip
  | .pubSub => .pubSub
  | .directAsk _ _ => .directAsk
  | .directResponse _ => .directResponse
  | .streamStart _ _ _ _ _ => .streamStart
  | .streamResponseStart _ _ _ => .streamResponseStart
  | .streamData isResponse _ _ => if isResponse then .streamResponseData else .streamData
  | .streamAbort _ _ => .streamAbort

/-- The bytes between the control word and the payload. -/
def fixed : Header → Bytes
  | .actorTell actorId typeHash => toBe64 actorId ++ toBe32 typeHash
  | .actorAsk correlationId actorId typeHash requestId =>
    toBe32 correlationId ++ toBe64 actorId ++ toBe32 typeHash ++ toBe64 (requestId.getD 0) ++
      reserved 4
  | .routedActorAsk correlationId routeSlot =>
    toBe32 correlationId ++ toBe32 routeSlot ++ reserved 4
  | .routeBind routeSlot actorId typeHash =>
    toBe32 routeSlot ++ toBe64 actorId ++ toBe32 typeHash ++ reserved 4
  | .ask correlationId | .response correlationId | .directResponse correlationId =>
    toBe32 correlationId ++ reserved 8
  | .askNack correlationId reason =>
    toBe32 correlationId ++ [askNackFlagSet, reason.toU8] ++ reserved 6
  | .gossip | .pubSub => reserved 12
  | .directAsk correlationId requestId => toBe32 correlationId ++ toBe64 requestId
  | .streamStart streamId correlationId totalSize actorId typeHash =>
    toBe32 streamId ++ toBe32 correlationId ++ toBe32 totalSize ++ toBe64 actorId ++
      toBe32 typeHash
  | .streamResponseStart streamId correlationId totalSize =>
    toBe32 streamId ++ toBe32 correlationId ++ toBe32 totalSize
  | .streamData _ streamId chunkIndex => toBe32 streamId ++ toBe32 chunkIndex
  | .streamAbort streamId reason => toBe32 streamId ++ toBe32 reason

/-- Its length. -/
def headerLen : Header → ℕ
  | .actorTell _ _ => actorTellHeaderLen
  | .actorAsk _ _ _ _ => actorAskHeaderLen
  | .routedActorAsk _ _ => routedActorAskHeaderLen
  | .routeBind _ _ _ => routeBindHeaderLen
  | .ask _ | .response _ | .askNack _ _ => askResponseHeaderLen
  | .gossip => gossipHeaderLen
  | .pubSub => pubsubHeaderLen
  | .directAsk _ _ => directAskHeaderLen
  | .directResponse _ => directResponseHeaderLen
  | .streamStart _ _ _ _ _ => streamRequestStartHeaderLen
  | .streamResponseStart _ _ _ => streamResponseStartHeaderLen
  | .streamData _ _ _ | .streamAbort _ _ => streamDataHeaderLen

lemma length_fixed : header.fixed.length = header.headerLen := by
  cases header <;>
    simp only [fixed, length_append, length_toBe32, length_toBe64, length_reserved,
      length_cons, length_nil] <;> rfl

lemma headerLen_pos : 0 < header.headerLen := by
  cases header <;> exact Nat.succ_pos _

/-- The frame as the bytes that go out. -/
def frame (header : Header) (payload : Bytes) : Bytes :=
  encodeControl ⟨header.kind, header.headerLen + payload.length⟩ ++ (header.fixed ++ payload)

/-- A request id of zero, given explicitly. -/
def marksZero : Header → Bool
  | .actorAsk _ _ _ requestId => requestId = some 0
  | _ => false

/-- **What the builders return**: the control word of the whole body and the fixed
region.  Only an explicit request id of zero is refused. -/
theorem build_eq_ok {header : Header} {payload bytes : Bytes}
    (hbare : header.bare → payload = []) (h : header.build payload.length = .ok bytes) :
    header.headerLen + payload.length ≤ controlBodyLenMask ∧
      bytes ++ payload = header.frame payload ∧ header.marksZero = false := by
  have hbuilt : ∀ {n}, buildHeader header.kind header.headerLen header.fixed n = .ok bytes →
      n = payload.length → header.marksZero = false →
      header.headerLen + payload.length ≤ controlBodyLenMask ∧
        bytes ++ payload = header.frame payload ∧ header.marksZero = false := by
    rintro n hok rfl hmarks
    obtain ⟨hle, rfl⟩ := buildHeader_eq_ok.mp hok
    exact ⟨hle, append_assoc .., hmarks⟩
  cases header with
  | actorAsk correlationId actorId typeHash requestId =>
    have hask : tryWriteActorAskHeaderWithRequestId correlationId actorId typeHash payload.length
        requestId = .ok bytes := h
    unfold tryWriteActorAskHeaderWithRequestId at hask
    split at hask
    · cases hask
    next hzero =>
      exact hbuilt hask rfl (decide_eq_false hzero)
  | routeBind =>
    rw [hbare rfl]
    cases h
    exact ⟨(by decide : routeBindHeaderLen ≤ controlBodyLenMask), append_nil .., rfl⟩
  | askNack =>
    rw [hbare rfl]
    cases h
    exact ⟨(by decide : askResponseHeaderLen ≤ controlBodyLenMask), append_nil .., rfl⟩
  | streamAbort =>
    rw [hbare rfl]
    cases h
    exact ⟨(by decide : streamDataHeaderLen ≤ controlBodyLenMask), append_nil .., rfl⟩
  | _ => exact hbuilt h rfl rfl

end Header

/-! ### The parser on a built frame -/

section Parse

variable {α : Type} {decode : Bytes → Option α} {control payload : Bytes}

/-- What the parsers are given: the frame of a control word, a fixed region and the
payload. -/
structure BuiltFrame (control fixed payload buffer body : Bytes) (headerLen : ℕ) : Prop where
  controlLen : control.length = lengthPrefixLen
  fixedLen : fixed.length = headerLen
  buffer_eq : buffer = control ++ body
  body_eq : body = fixed ++ payload
  fits : headerLen + payload.length ≤ controlBodyLenMask

namespace BuiltFrame

variable {fixed buffer body : Bytes} {headerLen : ℕ}

variable (h : BuiltFrame control fixed payload buffer body headerLen)
include h

lemma length_body : body.length = headerLen + payload.length := by
  rw [h.body_eq, length_append, h.fixedLen]

lemma length_sub : body.length - headerLen = payload.length := by
  rw [h.length_body, Nat.add_sub_cancel_left]

lemma not_short : ¬ body.length < headerLen := by
  rw [h.length_body]
  omega

lemma inlinePayload (haligned : (lengthPrefixLen + headerLen) % payloadAlignment = 0) :
    inlinePayload buffer (headerLen + payload.length) headerLen = .ok payload := by
  refine inlinePayload_eq (control ++ fixed) ?_ ?_ haligned
  · rw [h.buffer_eq, h.body_eq, append_assoc]
  · rw [length_append, h.controlLen, h.fixedLen]

lemma readRange_payload :
    readRange buffer (lengthPrefixLen + headerLen) buffer.length = .ok payload := by
  refine readRange_rest (x := control ++ fixed) ?_ ?_
  · rw [h.buffer_eq, h.body_eq, append_assoc]
  · rw [length_append, h.controlLen, h.fixedLen]

lemma readRange_body : readRange buffer lengthPrefixLen buffer.length = .ok body :=
  readRange_rest h.buffer_eq h.controlLen

end BuiltFrame

variable {buffer body : Bytes} {correlationId routeSlot typeHash streamId reason : UInt32}
  {actorId requestId : UInt64}

lemma parseActorTell_framed
    (h : BuiltFrame control (actorTell actorId typeHash).fixed payload buffer body
      actorTellHeaderLen) :
    parseActorTell (α := α) buffer body body.length =
      .ok (.actor .actorTell 0 actorId typeHash none payload) := by
  rw [h.length_body]
  simp only [parseActorTell, if_neg h.not_short]
  simp [h.body_eq, fixed, h.inlinePayload rfl]

lemma parseActorAsk_framed {requestId : Option UInt64}
    (h : BuiltFrame control (actorAsk correlationId actorId typeHash requestId).fixed payload
      buffer body actorAskHeaderLen) (hcorr : correlationId ≠ 0) (hid : requestId ≠ some 0) :
    parseActorAsk (α := α) buffer body body.length =
      .ok (.actor .actorAsk correlationId actorId typeHash requestId payload) := by
  -- zero stands for the absent id, which the builder writes for none only
  have hback : (if requestId.getD 0 = 0 then none else some (requestId.getD 0)) = requestId := by
    cases requestId with
    | none => rfl
    | some id => exact if_neg fun hzero : id = 0 => hid (by rw [hzero])
  rw [h.length_body]
  simp only [parseActorAsk, if_neg h.not_short]
  simp [h.body_eq, fixed, hcorr, hback, h.inlinePayload rfl]

lemma parseRoutedActorAsk_framed {routes : RouteTable} {route : RouteKey}
    (h : BuiltFrame control (routedActorAsk correlationId routeSlot).fixed payload buffer
      body routedActorAskHeaderLen) (hcorr : correlationId ≠ 0)
    (hrt : routes.resolve routeSlot = some route) :
    parseRoutedActorAsk (α := α) buffer body body.length (some routes) =
      .ok (.actor .actorAsk correlationId route.actorId route.typeHash none payload) := by
  rw [h.length_body]
  simp only [parseRoutedActorAsk, if_neg h.not_short]
  simp [h.body_eq, fixed, hcorr, hrt, h.inlinePayload rfl]

lemma parseRouteBind_framed (routes : RouteTable)
    (h : BuiltFrame control (routeBind routeSlot actorId typeHash).fixed [] buffer body
      routeBindHeaderLen) :
    parseRouteBind (α := α) body (some routes) =
      match routes.bind routeSlot ⟨actorId, typeHash⟩ with
      | (false, _) => .error (invalidV5Frame "conflicting route bind")
      | (true, routes) => .ok (.routeBound, some routes) := by
  have hlen : ¬ body.length ≠ routeBindHeaderLen := not_not.mpr h.length_body
  simp only [parseRouteBind, if_neg hlen]
  cases hbind : routes.bind routeSlot ⟨actorId, typeHash⟩ with
  | mk accepted =>
    cases accepted <;>
      simp [-append_nil, h.body_eq, fixed, hbind]

lemma parseAsk_framed
    (h : BuiltFrame control (ask correlationId).fixed payload buffer body askResponseHeaderLen) :
    parseAsk decode buffer body body.length =
      .ok (match decode payload with
        | some message => .gossip message (some correlationId)
        | none => .askRaw correlationId payload) := by
  rw [h.length_body]
  simp only [parseAsk, if_neg h.not_short, h.readRange_payload, bind, Except.bind]
  cases decode payload with
  | some => simp [h.body_eq, fixed]
  | none => simp [h.body_eq, fixed, h.inlinePayload rfl]

lemma parseResponse_framed
    (h : BuiltFrame control (response correlationId).fixed payload buffer body askResponseHeaderLen) :
    parseResponse (α := α) buffer body body.length = .ok (.response correlationId payload) := by
  have hbody := h.body_eq
  simp only [fixed, append_assoc] at hbody
  have hcorr : readU32 body 0 = .ok correlationId := by simp [hbody]
  -- the marker byte is the first reserved one
  have hflag : body.getD askNackFlagBodyOffset 0 = 0 := by
    rw [hbody, getD_append_right _ _ _ _ (by simp [askNackFlagBodyOffset]), length_toBe32]
    rfl
  have hnack : askNackReason body = none := by
    rw [askNackReason, if_neg h.not_short, hflag, if_pos (by decide)]
  rw [h.length_body]
  simp only [parseResponse, if_neg h.not_short, hcorr, hnack, h.inlinePayload rfl, bind,
    Except.bind, pure, Except.pure]

lemma parseResponse_nack_framed {reason : AskNackReason}
    (h : BuiltFrame control (askNack correlationId reason).fixed payload buffer body
      askResponseHeaderLen) :
    parseResponse (α := α) buffer body body.length =
      .ok (.askNack correlationId reason) := by
  have hbody := h.body_eq
  simp only [fixed, append_assoc] at hbody
  have hcorr : readU32 body 0 = .ok correlationId := by simp [hbody]
  have hflag : body.getD askNackFlagBodyOffset 0 = askNackFlagSet := by
    rw [hbody, getD_append_right _ _ _ _ (by simp [askNackFlagBodyOffset]), length_toBe32]
    rfl
  have hreason : body.getD askNackReasonBodyOffset 0 = reason.toU8 := by
    rw [hbody, getD_append_right _ _ _ _ (by simp [askNackReasonBodyOffset]), length_toBe32]
    rfl
  have hnack : askNackReason body = some reason := by
    rw [askNackReason, if_neg h.not_short, hflag, if_neg (not_not.mpr rfl), hreason,
      AskNackReason.fromU8_toU8]
  simp only [parseResponse, if_neg h.not_short, hcorr, hnack, bind, Except.bind, pure,
    Except.pure]

lemma parseDirectAsk_framed
    (h : BuiltFrame control (directAsk correlationId requestId).fixed payload buffer body
      directAskHeaderLen) :
    parseDirectAsk (α := α) buffer body body.length =
      if requestId = 0 then .error (invalidV5Frame "direct ask missing a nonzero request_id")
      else .ok (.directAsk correlationId requestId payload) := by
  have hbody := h.body_eq
  simp only [fixed, append_assoc] at hbody
  have hcorr : readU32 body 0 = .ok correlationId := by simp [hbody]
  have hsl : slice body 4 12 = toBe64 requestId := by
    have hmiddle := slice_middle hbody
    rwa [length_toBe32, length_toBe64] at hmiddle
  rw [h.length_body]
  simp only [parseDirectAsk, if_neg h.not_short, hcorr, directAskRequestId, hsl,
    fromBe64_toBe64, bind, Except.bind, pure, Except.pure]
  by_cases hzero : requestId = 0
  · simp only [if_pos hzero]
  · simp only [if_neg hzero, h.inlinePayload rfl]

lemma parseDirectResponse_framed
    (h : BuiltFrame control (directResponse correlationId).fixed payload buffer body
      directResponseHeaderLen) :
    parseDirectResponse (α := α) buffer body body.length =
      .ok (.directResponse correlationId payload) := by
  have hbody := h.body_eq
  have hcorr : readU32 body 0 = .ok correlationId := by simp [hbody, fixed]
  have hshort : ¬ body.length < directAskHeaderLen := h.not_short
  have hpay : inlinePayload buffer (directResponseHeaderLen + payload.length)
      directAskHeaderLen = .ok payload := h.inlinePayload rfl
  rw [h.length_body]
  simp only [parseDirectResponse, if_neg hshort, hcorr, hpay, bind, Except.bind, pure,
    Except.pure]

lemma parsePubSub_framed (h : BuiltFrame control pubSub.fixed payload buffer body pubsubHeaderLen) :
    parsePubSub (α := α) buffer body body.length =
      .ok (.pubSub payload) := by
  rw [h.length_body]
  simp only [parsePubSub, if_neg h.not_short, h.inlinePayload rfl, bind, Except.bind, pure,
    Except.pure]

lemma parseGossip_framed (h : BuiltFrame control gossip.fixed payload buffer body gossipHeaderLen) :
    parseGossip decode buffer body =
      .ok (match decode payload with
        | some message => .gossip message none
        | none => .raw body) := by
  simp only [parseGossip, if_neg h.not_short, h.readRange_payload, h.readRange_body, bind,
    Except.bind]
  cases decode payload with
  | some | none => rfl

lemma parseStreamAbort_framed
    (h : BuiltFrame control (streamAbort streamId reason).fixed [] buffer body
      streamDataHeaderLen) : parseStreamAbort (α := α) body = .ok
        (.streamAbort streamId.toNat reason) := by
  have hlen : ¬ body.length ≠ streamDataHeaderLen := not_not.mpr h.length_body
  simp only [parseStreamAbort, if_neg hlen]
  simp [-append_nil, h.body_eq, fixed]

end Parse

/-! ### The reader -/

section Read

variable {α : Type} {ctx : ReadContext α} {r : Reader} {clock : ℕ → Instant} {payload : Bytes}

/-- A frame that arrives whole, up to the payload of a stream frame: the control
word, and then the body or the stream metadata. -/
def readFrame (ctx : ReadContext α) (clock : ℕ → Instant) (r : Reader) (bytes : Bytes) :
    PollOutcome α × Reader :=
  match r.gotPrefix ctx (bytes.take lengthPrefixLen) with
  | (.error e, r) => (.error e, r)
  | (.ok out, r) =>
    match r.state with
    | .readBody buf msgLen body => r.gotBody ctx buf msgLen (body ++ bytes.drop lengthPrefixLen)
    | .readStreamMeta kind bodyLen metadata metaLen =>
      r.gotMeta clock kind bodyLen (metadata ++ (bytes.drop lengthPrefixLen).take metaLen) metaLen
    | _ => (.ok out, r)

/-- What follows the fixed region of a frame. -/
def afterHeader (header : Header) (bytes : Bytes) : Bytes :=
  bytes.drop (lengthPrefixLen + header.headerLen)

lemma afterHeader_frame (payload : Bytes) :
    afterHeader header (header.frame payload) = payload := by
  have hlen : (encodeControl ⟨header.kind, header.headerLen + payload.length⟩ ++
      header.fixed).length = lengthPrefixLen + header.headerLen := by
    rw [length_append, length_encodeControl, header.length_fixed]
  rw [afterHeader, frame, ← append_assoc, ← hlen, drop_left]

/-- What the parser is to find in the frame of an inline header. -/
def Header.result (decode : Bytes → Option α) (routes : RouteTable) (payload : Bytes) :
    Header → Option (MessageReadResult α)
  | .actorTell actorId typeHash => some (.actor .actorTell 0 actorId typeHash none payload)
  | .actorAsk correlationId actorId typeHash requestId =>
    some (.actor .actorAsk correlationId actorId typeHash requestId payload)
  | .routedActorAsk correlationId routeSlot =>
    (routes.resolve routeSlot).map fun route =>
      .actor .actorAsk correlationId route.actorId route.typeHash none payload
  | .routeBind _ _ _ => some .routeBound
  | .ask correlationId => some (.askRaw correlationId payload)
  | .response correlationId => some (.response correlationId payload)
  | .askNack correlationId reason => some (.askNack correlationId reason)
  | .gossip => (decode payload).map fun message => .gossip message none
  | .pubSub => some (.pubSub payload)
  | .directAsk correlationId requestId => some (.directAsk correlationId requestId payload)
  | .directResponse correlationId => some (.directResponse correlationId payload)
  | .streamAbort streamId reason => some (.streamAbort streamId.toNat reason)
  | .streamStart _ _ _ _ _ | .streamResponseStart _ _ _ | .streamData _ _ _ => none

/-- The stream that a start frame opens, with its first chunk to be read. -/
def Opens (out : PollOutcome α × Reader) (streamId totalSize correlationId : UInt32)
    (actorId : UInt64) (typeHash : UInt32) (isResponse : Bool) (len : ℕ) : Prop :=
  out.1 = Reader.progress ∧ out.2.state = .readStreamPayload ⟨streamId.toNat, 0, 0, len⟩ 0 ∧
    ∃ stream, out.2.streaming.activeStreams.get streamId.toNat = some stream ∧
      stream.totalSize = totalSize.toNat ∧ stream.correlationId = correlationId ∧
      stream.actorId = actorId ∧ stream.typeHash = typeHash ∧ stream.isResponse = isResponse

/-- The frame reads back: an inline frame as the result with the same fields and
payload, a stream frame as the same stream and chunk, with the payload next. -/
def Header.ReadAs (decode : Bytes → Option α) (r : Reader) (payload : Bytes)
    (out : PollOutcome α × Reader) : Header → Prop
  | .streamStart streamId correlationId totalSize actorId typeHash =>
    Opens out streamId totalSize correlationId actorId typeHash false payload.length
  | .streamResponseStart streamId correlationId totalSize =>
    Opens out streamId totalSize correlationId 0 0 true payload.length
  | .streamData _ streamId chunkIndex =>
    out.1 = Reader.progress ∧ ∃ offset, out.2.state =
      .readStreamPayload ⟨streamId.toNat, chunkIndex.toNat, offset, payload.length⟩ 0
  | .routeBind routeSlot actorId typeHash =>
    out.1 = .ok (some ⟨some .routeBound, none, true⟩) ∧
      out.2.routes.resolve routeSlot = some ⟨actorId, typeHash⟩
  | header => ∃ result, header.result decode r.routes payload = some result ∧
      out.1 = .ok (some ⟨some result, none, true⟩)

/-- What the receiver is to know before the frame: the route of a routed ask, no
other binding for a slot that is bound, room for a stream that starts, and the
stream of a chunk with this chunk still to come. -/
def Header.Expected (r : Reader) (payload : Bytes) : Header → Prop
  | .actorAsk correlationId _ _ _ => correlationId ≠ 0
  | .routedActorAsk correlationId routeSlot =>
    correlationId ≠ 0 ∧ (r.routes.resolve routeSlot).isSome
  | .routeBind routeSlot actorId typeHash =>
    routeSlot ≠ 0 → (r.routes.bind routeSlot ⟨actorId, typeHash⟩).1 = true
  | .streamStart streamId _ totalSize _ _ | .streamResponseStart streamId _ totalSize =>
    r.streaming.activeStreams.get streamId.toNat = none ∧
      r.streaming.activeStreams.len < r.streaming.maxConcurrentStreams ∧
      r.streaming.activeStreams.total (·.totalSize) + totalSize.toNat ≤ maxInflightStreamBytes
  | .streamData _ streamId chunkIndex =>
    ∃ stream stride, r.streaming.activeStreams.get streamId.toNat = some stream ∧
      stream.Wf stride ∧ chunkIndex.toNat < divCeil stream.totalSize stride ∧
      stream.receivedChunks.test chunkIndex.toNat = false ∧
      (payload ≠ [] →
        payload.length = min (stream.totalSize - chunkIndex.toNat * stride) stride)
  | _ => True

/-- The field values and payloads that the receiver does not refuse or take for
something else. -/
def Header.Accepted (decode : Bytes → Option α) (payload : Bytes) : Header → Prop
  | .routeBind routeSlot _ _ => routeSlot ≠ 0
  | .directAsk _ requestId => requestId ≠ 0
  | .ask _ => decode payload = none
  | .gossip => (decode payload).isSome
  | .streamStart _ _ totalSize _ _ | .streamResponseStart _ _ totalSize =>
    0 < payload.length ∧ payload.length ≤ totalSize.toNat ∧ totalSize.toNat ≤ maxStreamSize
  | .streamData _ _ _ => payload ≠ []
  | _ => True

/-- The parser once the control word is read: one parser for each kind. -/
def parseKind (decode : Bytes → Option α) (buffer body : Bytes) (routes : Option RouteTable) :
    WireKind → Except Stop (MessageReadResult α × Option RouteTable)
  | .actorTell => (parseActorTell buffer body body.length).map (·, routes)
  | .actorAsk => (parseActorAsk buffer body body.length).map (·, routes)
  | .routeBind => parseRouteBind body routes
  | .routedActorAsk => (parseRoutedActorAsk buffer body body.length routes).map (·, routes)
  | .ask => (parseAsk decode buffer body body.length).map (·, routes)
  | .response => (parseResponse buffer body body.length).map (·, routes)
  | .directAsk => (parseDirectAsk buffer body body.length).map (·, routes)
  | .directResponse => (parseDirectResponse buffer body body.length).map (·, routes)
  | .pubSub => (parsePubSub buffer body body.length).map (·, routes)
  | .gossip => (parseGossip decode buffer body).map (·, routes)
  | .streamStart => (parseStreamStart buffer body).map (·, routes)
  | .streamResponseStart => (parseStreamResponseStart buffer body).map (·, routes)
  | .streamData => (parseStreamData buffer body .streamData).map (·, routes)
  | .streamResponseData => (parseStreamData buffer body .streamResponseData).map (·, routes)
  | .streamAbort => (parseStreamAbort body).map (·, routes)

/-- A frame before its bytes are looked at: the control word reads as `kind` and the
length of the body. -/
structure Announces (ctx : ReadContext α) (control body : Bytes) (kind : WireKind) : Prop where
  len : control.length = lengthPrefixLen
  control : decodeControl control = some ⟨kind, body.length⟩
  pos : 0 < body.length
  max : body.length ≤ ctx.maxMessageSize

variable {metaLen firstChunkLen stride : ℕ}

namespace Announces

variable {control body : Bytes} {kind : WireKind}

variable (h : Announces ctx control body kind)
include h

lemma take : (control ++ body).take lengthPrefixLen = control := take_left' h.len

lemma drop : (control ++ body).drop lengthPrefixLen = body := drop_left' h.len

lemma gotPrefix : r.gotPrefix ctx control =
    match streamMetaLen kind with
    | some metaLen =>
      if body.length < metaLen then
        (.error (networkError .truncatedStreamMetadata), r)
      else (progress, { r with state := .readStreamMeta kind body.length [] metaLen })
    | none => (progress, { r with state := .readBody control body.length [] }) := by
  have hlen : ¬ control.length < lengthPrefixLen := by
    rw [h.len]
    omega
  rw [Reader.gotPrefix, if_neg hlen, h.control]
  exact (if_neg h.pos.ne').trans (if_neg h.max.not_gt)

lemma readFrame_inline (hkind : streamMetaLen kind = none) :
    readFrame ctx clock r (control ++ body) =
      match parseMessage ctx.decodeRegistryMessage (control ++ body) body.length
        (some r.routes) with
      | .error e => (.error e, { r with state := .new })
      | .ok (result, routes) =>
        (.ok (some ⟨some result, none, true⟩),
          { r with state := .new, routes := routes.getD r.routes }) := by
  have hpre : r.gotPrefix ctx ((control ++ body).take lengthPrefixLen) =
      (progress, { r with state := .readBody control body.length [] }) := by
    rw [h.take, h.gotPrefix, hkind]
  rw [readFrame, hpre, h.drop]
  exact if_neg (lt_irrefl body.length)

lemma readFrame_stream (hkind : streamMetaLen kind = some metaLen) (hle : metaLen ≤ body.length) :
    readFrame ctx clock r (control ++ body) =
      match reserveV5StreamPayload kind body.length (body.take metaLen) r.streaming clock with
      | (.error e, streaming) =>
        (.error e, { r with state := .readStreamMeta kind body.length [] metaLen, streaming })
      | (.ok reservation, streaming) =>
        match streamPayloadState reservation body.length metaLen with
        | .error e =>
          (.error e, { r with state := .readStreamMeta kind body.length [] metaLen, streaming })
        | .ok state => (progress, { r with state, streaming }) := by
  have hpre : r.gotPrefix ctx ((control ++ body).take lengthPrefixLen) = (progress,
        { r with state := .readStreamMeta kind body.length [] metaLen }) := by
    rw [h.take, h.gotPrefix, hkind]
    exact if_neg (by omega)
  have hmeta : ¬ (body.take metaLen).length < metaLen := by
    rw [length_take]
    omega
  rw [readFrame, hpre, h.drop]
  exact if_neg hmeta

lemma parseMessage (decode : Bytes → Option α) (routes : Option RouteTable) :
    parseMessage decode (control ++ body) body.length routes =
      parseKind decode (control ++ body) body routes kind := by
  have hrange : readRange (control ++ body) 0 lengthPrefixLen = .ok control := by
    rw [readRange_of_le (Nat.zero_le _) (by rw [length_append, h.len]; omega), slice,
      drop_zero, Nat.sub_zero, h.take]
  simp only [IcanactRemote.parseMessage, hrange, bind, Except.bind, h.control, h.drop, ne_eq,
    not_true_eq_false, if_false]
  cases kind <;> rfl

end Announces

section ReadBack

variable {control : Bytes} {kind : WireKind} {body : Bytes}

lemma readFrame_ok (h : Announces ctx control body kind) (hkind : streamMetaLen kind = none)
    {result : MessageReadResult α} {routes : Option RouteTable}
    (hparse : parseKind ctx.decodeRegistryMessage (control ++ body) body (some r.routes) kind =
      .ok (result, routes)) :
    readFrame ctx clock r (control ++ body) =
      (.ok (some ⟨some result, none, true⟩),
        { r with state := .new, routes := routes.getD r.routes }) := by
  rw [h.readFrame_inline hkind, h.parseMessage, hparse]

lemma readFrame_error (h : Announces ctx control body kind) (hkind : streamMetaLen kind = none)
    {e : Stop}
    (hparse : parseKind ctx.decodeRegistryMessage (control ++ body) body (some r.routes) kind =
      .error e) :
    (readFrame ctx clock r (control ++ body)).1 = .error e := by
  rw [h.readFrame_inline hkind, h.parseMessage, hparse]

lemma resolve_of_bind {t t' : RouteTable} {slot : UInt32} {key : RouteKey}
    (h : t.bind slot key = (true, t')) : t'.resolve slot = some key := by
  have hentered : (t.enter slot key).resolve slot = some key :=
    (Table.get_insert ..).trans (if_pos rfl)
  unfold RouteTable.bind at h
  split at h
  · cases h
  · split at h
    next hget =>
      split at h
      · cases h
      next hsame =>
        cases h
        rw [RouteTable.resolve, hget, not_not.mp hsame]
    · split at h
      · cases h
      · split at h
        · split at h
          · cases h
          · cases h
            exact hentered
        · cases h
          exact hentered

variable {isResponse : Bool}

lemma beginV5StreamOrDiscard_of_room {s : StreamingState} {streamHeader : StreamHeader}
    {correlationId : UInt32} (hval : ValidStart streamHeader firstChunkLen)
    (hnone : s.activeStreams.get streamHeader.streamId = none)
    (hroom : s.activeStreams.len < s.maxConcurrentStreams)
    (hby : s.activeStreams.total (·.totalSize) + streamHeader.totalSize ≤ maxInflightStreamBytes) :
    s.beginV5StreamOrDiscard clock streamHeader correlationId isResponse firstChunkLen =
      (.ok (some ⟨streamHeader.streamId, 0, 0, firstChunkLen⟩),
        (s.removeTombstone streamHeader.streamId).insertActive streamHeader.streamId
          (startedStream clock streamHeader correlationId isResponse
            firstChunkLen)) := by
  have hpos := hval.pos
  have hle := hval.le
  have hsize := hval.size
  have hact := activeStreams_removeTombstone s streamHeader.streamId
  have hlim : (s.removeTombstone streamHeader.streamId).maxConcurrentStreams =
      s.maxConcurrentStreams := maxConcurrentStreams_removeTombstone ..
  have hcont : s.activeStreams.containsKey streamHeader.streamId = false :=
    Table.containsKey_eq_false.mpr hnone
  have hbud : ¬ saturatingAdd (s.activeStreams.total (·.totalSize)) streamHeader.totalSize >
      maxInflightStreamBytes := by
    unfold saturatingAdd
    omega
  have hsta : (s.removeTombstone streamHeader.streamId).startStream clock streamHeader
      correlationId isResponse = (.ok (), (s.removeTombstone streamHeader.streamId).insertActive
        streamHeader.streamId
        (newStream clock streamHeader correlationId isResponse)) := by
    simp only [startStream, hact, hlim, hcont, Bool.false_eq_true,
      if_false, if_neg (show ¬ streamHeader.totalSize > maxStreamSize by omega),
      if_neg (show ¬ s.activeStreams.len ≥ s.maxConcurrentStreams by omega), if_neg hbud]
  simp only [beginV5StreamOrDiscard, beginV5Stream, if_neg (show ¬ firstChunkLen = 0 by omega),
    if_neg (show ¬ firstChunkLen > streamHeader.totalSize by omega), hsta,
    reserveV5Chunk_first hval]

lemma opens_iff {streamId totalSize correlationId : UInt32} {actorId : UInt64}
    {typeHash : UInt32} (h : Announces ctx control body kind)
    (hkind : streamMetaLen kind = some metaLen) (hlen : body.length = metaLen + payload.length)
    (hwf : r.streaming.Wf)
    (hrsv : reserveV5StreamPayload kind body.length (body.take metaLen) r.streaming clock =
      r.streaming.beginV5StreamOrDiscard clock
        ⟨streamId.toNat, totalSize.toNat, payload.length % 2 ^ 32, 0, typeHash, actorId⟩
        correlationId isResponse payload.length)
    (hnone : r.streaming.activeStreams.get streamId.toNat = none)
    (hroom : r.streaming.activeStreams.len < r.streaming.maxConcurrentStreams)
    (hby : r.streaming.activeStreams.total (·.totalSize) + totalSize.toNat ≤
      maxInflightStreamBytes) :
    Opens (readFrame ctx clock r (control ++ body)) streamId totalSize
        correlationId actorId typeHash isResponse payload.length ↔
      0 < payload.length ∧ payload.length ≤ totalSize.toNat ∧
        totalSize.toNat ≤ maxStreamSize := by
  rw [h.readFrame_stream hkind (by omega), hrsv]
  constructor
  · rintro ⟨hok, -, -⟩
    obtain ⟨e, s', heq, -, -⟩ | ⟨-, hval, -, -⟩ | ⟨-, hval, -, -⟩ | ⟨-, hval, -, -⟩ :=
      beginV5StreamOrDiscard_cases hwf clock
        ⟨streamId.toNat, totalSize.toNat, payload.length % 2 ^ 32, 0, typeHash, actorId⟩
        correlationId isResponse payload.length (fun stream hget => by
          rw [hnone] at hget
          cases hget)
    · rw [heq] at hok
      cases hok
    · exact ⟨hval.pos, hval.le, hval.size⟩
    · exact ⟨hval.pos, hval.le, hval.size⟩
    · exact ⟨hval.pos, hval.le, hval.size⟩
  · rintro ⟨hpos, hle, hsize⟩
    rw [beginV5StreamOrDiscard_of_room ⟨hpos, hle, hsize⟩ hnone hroom hby]
    have hne : ¬ payload.length = 0 := by omega
    simp only [streamPayloadState, if_neg hne]
    refine ⟨rfl, rfl, _, (Table.get_insert ..).trans (if_pos rfl), rfl, rfl, rfl, rfl, rfl⟩

lemma chunk_iff {streamId chunkIndex : UInt32} {stream : InProgressStream}
    (h : Announces ctx control body kind) (hkind : streamMetaLen kind = some streamDataHeaderLen)
    (hlen : body.length = streamDataHeaderLen + payload.length) (hwf : r.streaming.Wf)
    (hrsv : reserveV5StreamPayload kind body.length (body.take streamDataHeaderLen) r.streaming
      clock = r.streaming.reserveV5ChunkOrDiscard streamId.toNat chunkIndex.toNat payload.length)
    (hget : r.streaming.activeStreams.get streamId.toNat = some stream)
    (hstr : stream.Wf stride) (hidx : chunkIndex.toNat < divCeil stream.totalSize stride)
    (hunset : stream.receivedChunks.test chunkIndex.toNat = false)
    (hchunk : payload ≠ [] → payload.length = min (stream.totalSize - chunkIndex.toNat * stride)
      stride) :
    ((readFrame ctx clock r (control ++ body)).1 = progress ∧
      ∃ offset, (readFrame ctx clock r (control ++ body)).2.state =
        .readStreamPayload ⟨streamId.toNat, chunkIndex.toNat, offset, payload.length⟩ 0) ↔
      payload ≠ [] := by
  rw [h.readFrame_stream hkind (by omega), hrsv]
  obtain ⟨e, s', heq, -, -, hset⟩ | ⟨stream', stride', hget', hstr', hres, heq⟩ |
    ⟨t, s', htomb, -, -⟩ := reserveV5ChunkOrDiscard_cases hwf streamId.toNat chunkIndex.toNat
        payload.length
  · -- an error, so the chunk was not one that is missing
    refine iff_of_false (fun hok => ?_) fun hne => ?_
    · rw [heq] at hok
      cases hok.1
    · rw [hset stream stride hget hstr hidx (hchunk hne)] at hunset
      cases hunset
  · have hpos : 0 < payload.length := hres.pos hstr'
    have hne : ¬ payload.length = 0 := by omega
    rw [heq]
    simp only [streamPayloadState, if_neg hne]
    exact iff_of_true ⟨trivial, _, rfl⟩ (ne_nil_of_length_pos hpos)
  · rw [hwf.apart _ _ hget] at htomb
    cases htomb

/-! The metadata reader on built frames. -/

section Metadata

variable {streamId correlationId totalSize typeHash chunkIndex : UInt32} {actorId : UInt64}
  {buffer : Bytes}

lemma take_built (h : BuiltFrame control header.fixed payload buffer body header.headerLen) :
    body.take header.headerLen = header.fixed := by
  rw [h.body_eq, take_left' header.length_fixed]

lemma reserve_streamStart
    (h : BuiltFrame control (streamStart streamId correlationId totalSize actorId
      typeHash).fixed payload buffer body streamRequestStartHeaderLen) :
    reserveV5StreamPayload .streamStart body.length (body.take streamRequestStartHeaderLen)
        r.streaming clock =
      r.streaming.beginV5StreamOrDiscard clock
        ⟨streamId.toNat, totalSize.toNat, payload.length % 2 ^ 32, 0, typeHash, actorId⟩
        correlationId false payload.length := by
  have htake := take_built (.streamStart streamId correlationId totalSize actorId typeHash) h
  have hmeta : body.take streamRequestStartHeaderLen = toBe32 streamId ++ (toBe32 correlationId ++
      (toBe32 totalSize ++ (toBe64 actorId ++ (toBe32 typeHash ++ [])))) := by
    simpa only [headerLen, fixed, append_assoc, append_nil] using htake
  generalize body.take streamRequestStartHeaderLen = metadata at hmeta
  simp only [reserveV5StreamPayload, streamMetaLen, if_neg h.not_short, readStartMeta, h.length_sub]
  simp [-append_nil, hmeta]

lemma reserve_streamResponseStart
    (h : BuiltFrame control (streamResponseStart streamId correlationId totalSize).fixed
      payload buffer body streamResponseStartHeaderLen) :
    reserveV5StreamPayload .streamResponseStart body.length
        (body.take streamResponseStartHeaderLen) r.streaming clock =
      r.streaming.beginV5StreamOrDiscard clock
        ⟨streamId.toNat, totalSize.toNat, payload.length % 2 ^ 32, 0, 0, 0⟩
        correlationId true payload.length := by
  have htake := take_built (.streamResponseStart streamId correlationId totalSize) h
  have hmeta : body.take streamResponseStartHeaderLen = toBe32 streamId ++
      (toBe32 correlationId ++ (toBe32 totalSize ++ [])) := by
    simpa only [headerLen, fixed, append_assoc, append_nil] using htake
  generalize body.take streamResponseStartHeaderLen = metadata at hmeta
  simp only [reserveV5StreamPayload, streamMetaLen, if_neg h.not_short, readStartMeta, h.length_sub]
  simp [-append_nil, hmeta]

lemma reserve_streamData
    (h : BuiltFrame control (streamData isResponse streamId chunkIndex).fixed payload buffer
      body streamDataHeaderLen) :
    reserveV5StreamPayload (streamData isResponse streamId chunkIndex).kind body.length
        (body.take streamDataHeaderLen) r.streaming clock =
      r.streaming.reserveV5ChunkOrDiscard streamId.toNat chunkIndex.toNat payload.length := by
  have htake := take_built (.streamData isResponse streamId chunkIndex) h
  have hmeta : body.take streamDataHeaderLen = toBe32 streamId ++ (toBe32 chunkIndex ++ []) := by
    simpa only [headerLen, fixed, append_nil] using htake
  generalize body.take streamDataHeaderLen = metadata at hmeta
  cases isResponse <;>
    simp only [kind, if_true, Bool.false_eq_true, if_false, reserveV5StreamPayload,
      streamMetaLen, if_neg h.not_short, readDataMeta, h.length_sub] <;>
    simp [-append_nil, hmeta]

end Metadata

end ReadBack

lemma announces_frame {header : Header}
    (hfits : header.headerLen + payload.length ≤ controlBodyLenMask)
    (hmax : header.headerLen + payload.length ≤ ctx.maxMessageSize) :
    Announces ctx (encodeControl ⟨header.kind, header.headerLen + payload.length⟩)
      (header.fixed ++ payload) header.kind := by
  have hlen : (header.fixed ++ payload).length = header.headerLen + payload.length := by
    rw [length_append, header.length_fixed]
  have hpos := header.headerLen_pos
  refine ⟨length_encodeControl _, ?_, by omega, by omega⟩
  rw [hlen]
  exact decodeControl_encodeControl hfits

/-- What the receiver makes of the frame, for each header. -/
lemma Header.readAs_iff {header : Header} {control body : Bytes}
    (h : Announces ctx control body header.kind)
    (hf : BuiltFrame control header.fixed payload (control ++ body) body header.headerLen)
    (hbare : header.bare → payload = []) (hzero : header.marksZero = false)
    (hwf : r.streaming.Wf) (hexp : header.Expected r payload) :
    header.ReadAs ctx.decodeRegistryMessage r payload (readFrame ctx clock r (control ++ body)) ↔
      header.Accepted ctx.decodeRegistryMessage payload := by
  cases header with
  | actorTell =>
    rw [readFrame_ok h rfl (by rw [kind, parseKind, parseActorTell_framed hf]; rfl)]
    exact iff_of_true ⟨_, rfl, rfl⟩ trivial
  | actorAsk _ _ _ requestId =>
    have hid : requestId ≠ some 0 := of_decide_eq_false hzero
    rw [readFrame_ok h rfl (by rw [kind, parseKind, parseActorAsk_framed hf hexp hid]; rfl)]
    exact iff_of_true ⟨_, rfl, rfl⟩ trivial
  | routedActorAsk =>
    obtain ⟨hcorr, hbd⟩ := hexp
    obtain ⟨route, hrt⟩ := Option.isSome_iff_exists.mp hbd
    rw [readFrame_ok h rfl (by
      rw [kind, parseKind, parseRoutedActorAsk_framed hf hcorr hrt]; rfl)]
    refine iff_of_true ⟨_, ?_, rfl⟩ trivial
    rw [result, hrt]
    rfl
  | routeBind routeSlot actorId typeHash =>
    obtain rfl := hbare rfl
    have hparse := parseRouteBind_framed (α := α) r.routes hf
    -- slot 0 is refused by the table
    by_cases hslot : routeSlot = 0
    · have href : r.routes.bind routeSlot ⟨actorId, typeHash⟩ = (false, r.routes) := by
        rw [RouteTable.bind, if_pos hslot]
      rw [href] at hparse
      refine iff_of_false (fun hread => ?_) (not_not.mpr hslot)
      have hout := hread.1
      rw [readFrame_error h rfl (by rw [kind, parseKind, hparse])] at hout
      cases hout
    · cases hbind : r.routes.bind routeSlot ⟨actorId, typeHash⟩ with
      | mk accepted =>
        have hacc : accepted = true := by
          rw [← hexp hslot, hbind]
        subst hacc
        rw [hbind] at hparse
        rw [readFrame_ok h rfl (by rw [kind, parseKind, hparse])]
        exact iff_of_true ⟨rfl, resolve_of_bind hbind⟩ hslot
  | ask correlationId =>
    rw [readFrame_ok h rfl (by rw [kind, parseKind, parseAsk_framed hf]; rfl)]
    show (∃ result, some (MessageReadResult.askRaw correlationId payload) = some result ∧ _) ↔
      ctx.decodeRegistryMessage payload = none
    -- a body that decodes is a registry message to the reader
    cases hdecode : ctx.decodeRegistryMessage payload with
    | none => exact iff_of_true ⟨_, rfl, rfl⟩ rfl
    | some =>
      refine iff_of_false ?_ nofun
      rintro ⟨result, hres, hout⟩
      cases hres
      cases hout
  | response =>
    rw [readFrame_ok h rfl (by rw [kind, parseKind, parseResponse_framed hf]; rfl)]
    exact iff_of_true ⟨_, rfl, rfl⟩ trivial
  | askNack =>
    rw [readFrame_ok h rfl (by rw [kind, parseKind, parseResponse_nack_framed hf]; rfl)]
    exact iff_of_true ⟨_, rfl, rfl⟩ trivial
  | gossip =>
    rw [readFrame_ok h rfl (by rw [kind, parseKind, parseGossip_framed hf]; rfl)]
    show (∃ result, (ctx.decodeRegistryMessage payload).map
      (fun message => MessageReadResult.gossip message none) = some result ∧ _) ↔
      (ctx.decodeRegistryMessage payload).isSome
    cases hdecode : ctx.decodeRegistryMessage payload with
    | some => exact iff_of_true ⟨_, rfl, rfl⟩ rfl
    | none => exact iff_of_false (fun ⟨_, hres, _⟩ => nomatch hres) nofun
  | pubSub =>
    rw [readFrame_ok h rfl (by rw [kind, parseKind, parsePubSub_framed hf]; rfl)]
    exact iff_of_true ⟨_, rfl, rfl⟩ trivial
  | directAsk _ requestId =>
    have hparse := parseDirectAsk_framed (α := α) hf
    by_cases hid : requestId = 0
    · rw [if_pos hid] at hparse
      refine iff_of_false ?_ (not_not.mpr hid)
      rintro ⟨result, -, hout⟩
      rw [readFrame_error h rfl (by rw [kind, parseKind, hparse]; rfl)] at hout
      cases hout
    · rw [if_neg hid] at hparse
      rw [readFrame_ok h rfl (by rw [kind, parseKind, hparse]; rfl)]
      exact iff_of_true ⟨_, rfl, rfl⟩ hid
  | directResponse =>
    rw [readFrame_ok h rfl (by rw [kind, parseKind, parseDirectResponse_framed hf]; rfl)]
    exact iff_of_true ⟨_, rfl, rfl⟩ trivial
  | streamAbort =>
    obtain rfl := hbare rfl
    rw [readFrame_ok h rfl (by rw [kind, parseKind, parseStreamAbort_framed hf]; rfl)]
    exact iff_of_true ⟨_, rfl, rfl⟩ trivial
  | streamStart =>
    obtain ⟨hnone, hroom, hby⟩ := hexp
    exact opens_iff h rfl hf.length_body hwf (reserve_streamStart hf) hnone hroom hby
  | streamResponseStart =>
    obtain ⟨hnone, hroom, hby⟩ := hexp
    exact opens_iff h rfl hf.length_body hwf (reserve_streamResponseStart hf) hnone hroom hby
  | streamData isResponse streamId chunkIndex =>
    obtain ⟨stream, stride, hget, hstr, hidx, hunset, hchunk⟩ := hexp
    have hkind : streamMetaLen (streamData isResponse streamId chunkIndex).kind =
        some streamDataHeaderLen := by
      cases isResponse <;> rfl
    exact chunk_iff h hkind hf.length_body hwf (reserve_streamData hf) hget hstr hidx hunset
      hchunk

/-- **Which frames read back.**  Whatever a builder returned, followed by a payload
of the announced length: the payload follows the header, and the receiver reads
the same fields back exactly if their values are ones it accepts. -/
theorem Header.reads_back_iff (ctx : ReadContext α) (clock : ℕ → Instant) (r : Reader)
    (header : Header) (payload bytes : Bytes) (hbuild : header.build payload.length = .ok bytes)
    (hbare : header.bare → payload = [])
    (hmax : header.headerLen + payload.length ≤ ctx.maxMessageSize) (hwf : r.streaming.Wf)
    (hexp : header.Expected r payload) : afterHeader header (bytes ++ payload) = payload ∧
      (header.ReadAs ctx.decodeRegistryMessage r payload
          (readFrame ctx clock r (bytes ++ payload)) ↔
        header.Accepted ctx.decodeRegistryMessage payload) := by
  obtain ⟨hfits, hfr, hzero⟩ := build_eq_ok hbare hbuild
  rw [hfr]
  refine ⟨afterHeader_frame header payload, ?_⟩
  exact readAs_iff (announces_frame hfits hmax)
    ⟨length_encodeControl _, header.length_fixed, rfl, rfl, hfits⟩ hbare hzero hwf hexp

/-- A direct ask with a request id, an empty payload included. -/
theorem Header.reads_back_iff_directAsk :
    afterHeader (.directAsk 1 5) ((Header.directAsk 1 5).frame []) = [] ∧
      ((Header.directAsk 1 5).ReadAs (fun _ => (none : Option Unit))
          ⟨.new, .new, .new⟩ [] (readFrame ⟨fun _ => none, 1024⟩ (fun _ => 0) ⟨.new, .new, .new⟩
            ((Header.directAsk 1 5).frame [])) ↔ (5 : UInt64) ≠ 0) := by
  have hbuild : (directAsk 1 5).build 0 = .ok ((directAsk 1 5).frame []) := rfl
  have hread := reads_back_iff ⟨fun _ => (none : Option Unit), 1024⟩ (fun _ => 0)
    ⟨.new, .new, .new⟩ (.directAsk 1 5) [] _ hbuild (fun _ => rfl) (by decide)
    wf_new trivial
  rwa [append_nil] at hread

/-- The builder takes a request id of zero, the receiver refuses the frame. -/
theorem Header.zero_request_id_refused : ∃ bytes, (Header.directAsk 1 0).build 1 = .ok bytes ∧
    (readFrame ⟨fun _ => (none : Option Unit), 1024⟩ (fun _ => 0) ⟨.new, .new, .new⟩
      (bytes ++ [7])).1 =
      .error (invalidV5Frame "direct ask missing a nonzero request_id") :=
  ⟨_, rfl, rfl⟩

end Read

end IcanactRemote
