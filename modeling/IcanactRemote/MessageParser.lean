/-
`parse_message_from_pooled_buffer_with_routes`.

The parser is given a whole frame — the control word and the body — and the
route table of its connection.  Every field sits at a fixed offset of the body,
the payload after it.

* `returns_parseMessage` — on a frame whose buffer has the length the reader gives
  it, no index is out of range and no length is subtracted below zero, and only
  abort frames are taken for aborts.
-/
import IcanactRemote.RouteTable
import IcanactRemote.WireFormat

namespace IcanactRemote

/-! ### Checked access -/

/-- `&bytes[a..b]`. -/
def readRange (bytes : Bytes) (a b : ℕ) : Except Stop Bytes :=
  if a ≤ b ∧ b ≤ bytes.length then .ok (slice bytes a b) else .error .fault

def readU32 (bytes : Bytes) (offset : ℕ) : Except Stop UInt32 :=
  (readRange bytes offset (offset + 4)).map fromBe32

def readU64 (bytes : Bytes) (offset : ℕ) : Except Stop UInt64 :=
  (readRange bytes offset (offset + 8)).map fromBe64

def subLen (a b : ℕ) : Except Stop ℕ := if b ≤ a then .ok (a - b) else .error .fault

variable {bytes : Bytes} {offset : ℕ} {a b headerLen msgLen : ℕ}

lemma readRange_of_le (hab : a ≤ b) (hb : b ≤ bytes.length) :
    readRange bytes a b = .ok (slice bytes a b) := if_pos ⟨hab, hb⟩

lemma readU32_of_le (h : offset + 4 ≤ bytes.length) :
    readU32 bytes offset = .ok (fromBe32 (slice bytes offset (offset + 4))) := by
  rw [readU32, readRange_of_le (by omega) h]
  rfl

lemma readU64_of_le (h : offset + 8 ≤ bytes.length) :
    readU64 bytes offset = .ok (fromBe64 (slice bytes offset (offset + 8))) := by
  rw [readU64, readRange_of_le (by omega) h]
  rfl

lemma subLen_of_le (h : b ≤ a) : subLen a b = .ok (a - b) := if_pos h

/-! ### What a frame is read as -/

/-- The message types of an actor frame. -/
inductive ActorMessageType
  | actorTell
  | actorAsk
  deriving DecidableEq, Repr

structure StreamHeader where
  streamId : ℕ
  totalSize : ℕ
  chunkSize : ℕ
  chunkIndex : ℕ
  typeHash : UInt32
  actorId : UInt64
  deriving DecidableEq, Repr

/-- `MessageReadResult`, for registry messages of type `α`. -/
inductive MessageReadResult (α : Type)
  | routeBound
  | gossip (message : α) (correlationId : Option UInt32)
  | askRaw (correlationId : UInt32) (payload : Bytes)
  | response (correlationId : UInt32) (payload : Bytes)
  | askNack (correlationId : UInt32) (reason : AskNackReason)
  | raw (payload : Bytes)
  | pubSub (payload : Bytes)
  | actor (msgType : ActorMessageType) (correlationId : UInt32) (actorId : UInt64)
      (typeHash : UInt32) (requestId : Option UInt64) (payload : Bytes)
  | streaming (kind : WireKind) (correlationId : UInt32) (header : StreamHeader)
      (chunkData : Bytes)
  | streamAbort (streamId : ℕ) (reason : UInt32)
  | directAsk (correlationId : UInt32) (requestId : UInt64) (payload : Bytes)
  | directResponse (correlationId : UInt32) (payload : Bytes)
  deriving DecidableEq, Repr

def payloadAlignment : ℕ := 16

/-- `AlignedBytes::from_pooled_buffer_range`.  Pooled buffers start at an aligned
address, so the offset decides. -/
def fromPooledBufferRange (buffer : Bytes) (offset len : ℕ) : Except Stop Bytes :=
  if saturatingAdd offset len > buffer.length then
    .error (.error (.network .payloadRangeOutOfBounds))
  else if len = 0 then .ok []
  else if offset % payloadAlignment ≠ 0 then .error (.error (.network .misalignedPayload))
  else .ok (slice buffer offset (offset + len))

def invalidV5Frame (reason : String) : Stop := .error (.network (.invalidV5Frame reason))

/-- The payload of an inline frame: what follows `headerLen` bytes of header. -/
def inlinePayload (buffer : Bytes) (bodyLen headerLen : ℕ) : Except Stop Bytes := do
  let len ← subLen bodyLen headerLen
  fromPooledBufferRange buffer (lengthPrefixLen + headerLen) len

section Kinds

variable {α γ : Type} (decodeRegistryMessage : Bytes → Option α) (buffer body : Bytes)
  (bodyLen : ℕ)

def parseActorTell : Except Stop (MessageReadResult α) :=
  if body.length < actorTellHeaderLen then .error (invalidV5Frame "truncated actor tell")
  else do
    let actorId ← readU64 body 0
    let typeHash ← readU32 body 8
    let payload ← inlinePayload buffer bodyLen actorTellHeaderLen
    return .actor .actorTell 0 actorId typeHash none payload

def parseActorAsk : Except Stop (MessageReadResult α) :=
  if body.length < actorAskHeaderLen then .error (invalidV5Frame "truncated actor ask")
  else do
    let correlationId ← readU32 body 0
    if correlationId = 0 then .error (invalidV5Frame "actor ask has zero correlation id")
    else
      let actorId ← readU64 body 4
      let typeHash ← readU32 body 12
      let padding ← readRange body 24 28
      if padding.any (· ≠ 0) then .error (invalidV5Frame "noncanonical actor ask padding")
      else
        let requestId ← readU64 body 16
        let payload ← inlinePayload buffer bodyLen actorAskHeaderLen
        return .actor .actorAsk correlationId actorId typeHash
          (if requestId ≠ 0 then some requestId else none) payload

def parseRouteBind (routes : Option RouteTable) :
    Except Stop (MessageReadResult α × Option RouteTable) :=
  if body.length ≠ routeBindHeaderLen then .error (invalidV5Frame "invalid route bind length")
  else do
    let routeSlot ← readU32 body 0
    let actorId ← readU64 body 4
    let typeHash ← readU32 body 12
    let padding ← readRange body 16 20
    if padding.any (· ≠ 0) then .error (invalidV5Frame "noncanonical route bind padding")
    else
      match routes with
      | none => .error (invalidV5Frame "route bind before connection setup")
      | some routes =>
        match routes.bind routeSlot ⟨actorId, typeHash⟩ with
        | (false, _) => .error (invalidV5Frame "conflicting route bind")
        | (true, routes) => return (.routeBound, some routes)

def parseRoutedActorAsk (routes : Option RouteTable) : Except Stop (MessageReadResult α) :=
  if body.length < routedActorAskHeaderLen then
    .error (invalidV5Frame "truncated routed actor ask")
  else do
    let correlationId ← readU32 body 0
    if correlationId = 0 then .error (invalidV5Frame "routed actor ask has zero correlation id")
    else
      let routeSlot ← readU32 body 4
      let padding ← readRange body 8 12
      if padding.any (· ≠ 0) then .error (invalidV5Frame "noncanonical routed ask padding")
      else
        match routes with
        | none => .error (invalidV5Frame "routed ask before connection setup")
        | some routes =>
          match routes.resolve routeSlot with
          | none => .error (invalidV5Frame "unknown route slot")
          | some route => do
            let payload ← inlinePayload buffer bodyLen routedActorAskHeaderLen
            return .actor .actorAsk correlationId route.actorId route.typeHash none payload

def parseAsk : Except Stop (MessageReadResult α) :=
  if body.length < askResponseHeaderLen then .error (invalidV5Frame "truncated ask")
  else do
    let correlationId ← readU32 body 0
    let encoded ← readRange buffer (lengthPrefixLen + askResponseHeaderLen) buffer.length
    match decodeRegistryMessage encoded with
    | some message => return .gossip message (some correlationId)
    | none => do
      let payload ← inlinePayload buffer bodyLen askResponseHeaderLen
      return .askRaw correlationId payload

def parseResponse : Except Stop (MessageReadResult α) :=
  if body.length < askResponseHeaderLen then .error (invalidV5Frame "truncated response")
  else do
    let correlationId ← readU32 body 0
    match askNackReason body with
    | some reason => return .askNack correlationId reason
    | none => do
      let payload ← inlinePayload buffer bodyLen askResponseHeaderLen
      return .response correlationId payload

def parseDirectAsk : Except Stop (MessageReadResult α) :=
  if body.length < directAskHeaderLen then .error (invalidV5Frame "truncated direct ask")
  else do
    let correlationId ← readU32 body 0
    match directAskRequestId body with
    | none => .error (invalidV5Frame "direct ask missing a nonzero request_id")
    | some requestId => do
      let payload ← inlinePayload buffer bodyLen directAskHeaderLen
      return .directAsk correlationId requestId payload

def parseDirectResponse : Except Stop (MessageReadResult α) :=
  if body.length < directAskHeaderLen then .error (invalidV5Frame "truncated direct response")
  else do
    let correlationId ← readU32 body 0
    let payload ← inlinePayload buffer bodyLen directAskHeaderLen
    return .directResponse correlationId payload

def parsePubSub : Except Stop (MessageReadResult α) :=
  if body.length < pubsubHeaderLen then .error (invalidV5Frame "truncated pubsub")
  else do
    let payload ← inlinePayload buffer bodyLen pubsubHeaderLen
    return .pubSub payload

/-- An undecodable gossip frame is passed on whole, its reserved bytes included. -/
def parseGossip : Except Stop (MessageReadResult α) :=
  if body.length < gossipHeaderLen then .error (invalidV5Frame "truncated gossip")
  else do
    let encoded ← readRange buffer (lengthPrefixLen + gossipHeaderLen) buffer.length
    match decodeRegistryMessage encoded with
    | some message => return .gossip message none
    | none => do
      let rest ← readRange buffer lengthPrefixLen buffer.length
      return .raw rest

def parseStreamStart : Except Stop (MessageReadResult α) :=
  if body.length < streamRequestStartHeaderLen then
    .error (invalidV5Frame "truncated stream start")
  else do
    let streamId ← readU32 body 0
    let correlationId ← readU32 body 4
    let totalSize ← readU32 body 8
    let actorId ← readU64 body 12
    let typeHash ← readU32 body 20
    let chunkData ← readRange buffer (lengthPrefixLen + streamRequestStartHeaderLen) buffer.length
    return .streaming .streamStart correlationId
      ⟨streamId.toNat, totalSize.toNat, chunkData.length, 0, typeHash, actorId⟩ chunkData

def parseStreamResponseStart : Except Stop (MessageReadResult α) :=
  if body.length < streamResponseStartHeaderLen then
    .error (invalidV5Frame "truncated stream response start")
  else do
    let streamId ← readU32 body 0
    let correlationId ← readU32 body 4
    let totalSize ← readU32 body 8
    let chunkData ← readRange buffer (lengthPrefixLen + streamResponseStartHeaderLen) buffer.length
    return .streaming .streamResponseStart correlationId
      ⟨streamId.toNat, totalSize.toNat, chunkData.length, 0, 0, 0⟩ chunkData

def parseStreamData (kind : WireKind) : Except Stop (MessageReadResult α) :=
  if body.length < streamDataHeaderLen then .error (invalidV5Frame "truncated stream data")
  else do
    let streamId ← readU32 body 0
    let chunkIndex ← readU32 body 4
    let chunkData ← readRange buffer (lengthPrefixLen + streamDataHeaderLen) buffer.length
    return .streaming kind 0
      ⟨streamId.toNat, 0, chunkData.length, chunkIndex.toNat, 0, 0⟩ chunkData

def parseStreamAbort : Except Stop (MessageReadResult α) :=
  if body.length ≠ streamDataHeaderLen then .error (invalidV5Frame "invalid stream abort length")
  else do
    let streamId ← readU32 body 0
    let reason ← readU32 body 4
    return .streamAbort streamId.toNat reason

/-- One frame, and the route table after it. -/
def parseMessage (msgLen : ℕ) (routes : Option RouteTable) :
    Except Stop (MessageReadResult α × Option RouteTable) := do
  let prefixBytes ← readRange buffer 0 lengthPrefixLen
  match decodeControl prefixBytes with
  | none => .error (invalidV5Frame "unknown wire kind")
  | some control =>
    if control.bodyLen ≠ msgLen then .error (invalidV5Frame "control/body length mismatch")
    else
      let body := buffer.drop lengthPrefixLen
      let keep := fun r : Except Stop (MessageReadResult α) => r.map fun result => (result, routes)
      match control.kind with
      | .actorTell => keep (parseActorTell buffer body msgLen)
      | .actorAsk => keep (parseActorAsk buffer body msgLen)
      | .routeBind => parseRouteBind body routes
      | .routedActorAsk => keep (parseRoutedActorAsk buffer body msgLen routes)
      | .ask => keep (parseAsk decodeRegistryMessage buffer body msgLen)
      | .response => keep (parseResponse buffer body msgLen)
      | .directAsk => keep (parseDirectAsk buffer body msgLen)
      | .directResponse => keep (parseDirectResponse buffer body msgLen)
      | .pubSub => keep (parsePubSub buffer body msgLen)
      | .gossip => keep (parseGossip decodeRegistryMessage buffer body)
      | .streamStart => keep (parseStreamStart buffer body)
      | .streamResponseStart => keep (parseStreamResponseStart buffer body)
      | .streamData => keep (parseStreamData buffer body .streamData)
      | .streamResponseData => keep (parseStreamData buffer body .streamResponseData)
      | .streamAbort => keep (parseStreamAbort body)

/-! ### No index out of range -/

variable {decodeRegistryMessage buffer body bodyLen}

/-- The errors of the parser: none of them is an index out of range. -/
def IsParseError : Stop → Prop
  | .error (.network (.invalidV5Frame _)) => True
  | .error (.network .payloadRangeOutOfBounds) => True
  | .error (.network .misalignedPayload) => True
  | _ => False

/-- The call ends in an error of the parser, or in a result with `P`. -/
def Returns {β : Type} (P : β → Prop) : Except Stop β → Prop
  | .ok b => P b
  | .error e => IsParseError e

lemma returns_bind {β : Type} {P : β → Prop} {Q : γ → Prop} {x : Except Stop β}
    {f : β → Except Stop γ} (hx : Returns P x) (hf : ∀ b, P b → Returns Q (f b)) :
    Returns Q (x >>= f) := by
  cases x with
  | error => exact hx
  | ok b => exact hf b hx

lemma returns_map {β : Type} {P : β → Prop} {Q : γ → Prop} {x : Except Stop β} {f : β → γ}
    (hx : Returns P x) (hf : ∀ b, P b → Q (f b)) : Returns Q (x.map f) := by
  cases x with
  | error => exact hx
  | ok b => exact hf b hx

lemma returns_check {β : Type} {P : β → Prop} {c : Prop} [Decidable c] {reason : String}
    {x : Except Stop β} (h : ¬ c → Returns P x) :
    Returns P (if c then .error (invalidV5Frame reason) else x) := by
  split
  · trivial
  next hpassed =>
    exact h hpassed

section Fields

variable {β : Type} {Q : β → Prop} {f : Bytes → Except Stop β}

lemma returns_readRange (hab : a ≤ b) (hb : b ≤ bytes.length)
    (hf : Returns Q (f (slice bytes a b))) : Returns Q (readRange bytes a b >>= f) := by
  rw [readRange_of_le hab hb]
  exact hf

lemma returns_readU32 {f : UInt32 → Except Stop β} (h : offset + 4 ≤ bytes.length)
    (hf : Returns Q (f (fromBe32 (slice bytes offset (offset + 4))))) :
    Returns Q (readU32 bytes offset >>= f) := by
  rw [readU32_of_le h]
  exact hf

lemma returns_readU64 {f : UInt64 → Except Stop β} (h : offset + 8 ≤ bytes.length)
    (hf : Returns Q (f (fromBe64 (slice bytes offset (offset + 8))))) :
    Returns Q (readU64 bytes offset >>= f) := by
  rw [readU64_of_le h]
  exact hf

lemma returns_fromPooledBufferRange (buffer : Bytes) (offset len : ℕ) :
    Returns (fun _ => True) (fromPooledBufferRange buffer offset len) := by
  unfold fromPooledBufferRange
  split
  · trivial
  · split
    · trivial
    · split <;> trivial

lemma returns_inlinePayload (h : headerLen ≤ bodyLen) (hf : ∀ payload, Returns Q (f payload)) :
    Returns Q (inlinePayload buffer bodyLen headerLen >>= f) := by
  rw [inlinePayload, subLen_of_le h]
  exact returns_bind (returns_fromPooledBufferRange buffer _ _) fun payload _ => hf payload

end Fields

def NoAbort (result : MessageReadResult α) : Prop :=
  ∀ streamId reason, result ≠ .streamAbort streamId reason

lemma returns_parseActorTell (hbody : body.length = bodyLen) :
    Returns (NoAbort (α := α)) (parseActorTell buffer body bodyLen) := by
  unfold parseActorTell actorTellHeaderLen
  refine returns_check fun hlen => ?_
  refine returns_readU64 (by omega) ?_
  refine returns_readU32 (by omega) ?_
  exact returns_inlinePayload (by omega) fun payload => nofun

lemma returns_parseActorAsk (hbody : body.length = bodyLen) :
    Returns (NoAbort (α := α)) (parseActorAsk buffer body bodyLen) := by
  unfold parseActorAsk actorAskHeaderLen
  refine returns_check fun hlen => ?_
  refine returns_readU32 (by omega) ?_
  refine returns_check fun hcorr => ?_
  refine returns_readU64 (by omega) ?_
  refine returns_readU32 (by omega) ?_
  refine returns_readRange (by omega) (by omega) ?_
  refine returns_check fun hpadding => ?_
  refine returns_readU64 (by omega) ?_
  exact returns_inlinePayload (by omega) fun payload => nofun

lemma returns_parseRouteBind (routes : Option RouteTable) :
    Returns (fun out => NoAbort (α := α) out.1) (parseRouteBind body routes) := by
  unfold parseRouteBind routeBindHeaderLen
  refine returns_check fun hlen => ?_
  refine returns_readU32 (by omega) ?_
  refine returns_readU64 (by omega) ?_
  refine returns_readU32 (by omega) ?_
  refine returns_readRange (by omega) (by omega) ?_
  refine returns_check fun hpadding => ?_
  split
  · trivial
  · split
    · trivial
    · exact nofun

lemma returns_parseRoutedActorAsk (hbody : body.length = bodyLen) (routes : Option RouteTable) :
    Returns (NoAbort (α := α)) (parseRoutedActorAsk buffer body bodyLen routes) := by
  unfold parseRoutedActorAsk routedActorAskHeaderLen
  refine returns_check fun hlen => ?_
  refine returns_readU32 (by omega) ?_
  refine returns_check fun hcorr => ?_
  refine returns_readU32 (by omega) ?_
  refine returns_readRange (by omega) (by omega) ?_
  refine returns_check fun hpadding => ?_
  split
  · trivial
  · split
    · trivial
    · exact returns_inlinePayload (by omega) fun payload => nofun

lemma returns_parseAsk (hbuf : buffer.length = lengthPrefixLen + bodyLen)
    (hbody : body.length = bodyLen) :
    Returns NoAbort (parseAsk decodeRegistryMessage buffer body bodyLen) := by
  unfold parseAsk askResponseHeaderLen
  refine returns_check fun hlen => ?_
  refine returns_readU32 (by omega) ?_
  refine returns_readRange (by omega) (by omega) ?_
  split
  · exact nofun
  · exact returns_inlinePayload (by omega) fun payload => nofun

section

variable (hbody : body.length = bodyLen)
include hbody

lemma returns_parseResponse : Returns (NoAbort (α := α)) (parseResponse buffer body bodyLen) := by
  unfold parseResponse askResponseHeaderLen
  refine returns_check fun hlen => ?_
  refine returns_readU32 (by omega) ?_
  split
  · exact nofun
  · exact returns_inlinePayload (by omega) fun payload => nofun

lemma returns_parseDirectAsk : Returns (NoAbort (α := α)) (parseDirectAsk buffer body bodyLen) := by
  unfold parseDirectAsk directAskHeaderLen
  refine returns_check fun hlen => ?_
  refine returns_readU32 (by omega) ?_
  split
  · trivial
  · exact returns_inlinePayload (by omega) fun payload => nofun

lemma returns_parseDirectResponse :
    Returns (NoAbort (α := α)) (parseDirectResponse buffer body bodyLen) := by
  unfold parseDirectResponse directAskHeaderLen
  refine returns_check fun hlen => ?_
  refine returns_readU32 (by omega) ?_
  exact returns_inlinePayload (by omega) fun payload => nofun

lemma returns_parsePubSub : Returns (NoAbort (α := α)) (parsePubSub buffer body bodyLen) := by
  unfold parsePubSub pubsubHeaderLen
  refine returns_check fun hlen => ?_
  exact returns_inlinePayload (by omega) fun payload => nofun

end

lemma returns_parseGossip (hbuf : buffer.length = lengthPrefixLen + body.length) :
    Returns NoAbort (parseGossip decodeRegistryMessage buffer body) := by
  unfold parseGossip gossipHeaderLen
  refine returns_check fun hlen => ?_
  refine returns_readRange (by omega) (by omega) ?_
  split
  · exact nofun
  · exact returns_readRange (by omega) (by omega) nofun

lemma returns_parseStreamAbort : Returns (fun result : MessageReadResult α => ∃ reason,
    result = .streamAbort (fromBe32 (slice body 0 4)).toNat reason) (parseStreamAbort body) := by
  unfold parseStreamAbort streamDataHeaderLen
  refine returns_check fun hlen => ?_
  refine returns_readU32 (by omega) ?_
  exact returns_readU32 (by omega) ⟨_, rfl⟩

section

variable (hbuf : buffer.length = lengthPrefixLen + body.length)
include hbuf

lemma returns_parseStreamStart : Returns (NoAbort (α := α)) (parseStreamStart buffer body) := by
  unfold parseStreamStart streamRequestStartHeaderLen
  refine returns_check fun hlen => ?_
  refine returns_readU32 (by omega) ?_
  refine returns_readU32 (by omega) ?_
  refine returns_readU32 (by omega) ?_
  refine returns_readU64 (by omega) ?_
  refine returns_readU32 (by omega) ?_
  exact returns_readRange (by omega) (by omega) nofun

lemma returns_parseStreamResponseStart :
    Returns (NoAbort (α := α)) (parseStreamResponseStart buffer body) := by
  unfold parseStreamResponseStart streamResponseStartHeaderLen
  refine returns_check fun hlen => ?_
  refine returns_readU32 (by omega) ?_
  refine returns_readU32 (by omega) ?_
  refine returns_readU32 (by omega) ?_
  exact returns_readRange (by omega) (by omega) nofun

lemma returns_parseStreamData (kind : WireKind) :
    Returns (NoAbort (α := α)) (parseStreamData buffer body kind) := by
  unfold parseStreamData streamDataHeaderLen
  refine returns_check fun hlen => ?_
  refine returns_readU32 (by omega) ?_
  refine returns_readU32 (by omega) ?_
  exact returns_readRange (by omega) (by omega) nofun

end

/-- What an abort frame, and only an abort frame, is parsed as. -/
def AbortOf (kind : WireKind) (body : Bytes) (result : MessageReadResult α) : Prop :=
  if kind = .streamAbort then
    ∃ reason, result = .streamAbort (fromBe32 (slice body 0 4)).toNat reason
  else NoAbort result

/-- **The parser stays in range** on every buffer of the length the reader gives
it, and takes abort frames, and nothing else, for aborts. -/
theorem returns_parseMessage {kind : WireKind} (hbuf : buffer.length = lengthPrefixLen + msgLen)
    (hctl : decodeControl (slice buffer 0 lengthPrefixLen) = some ⟨kind, msgLen⟩)
    (hdrop : buffer.drop lengthPrefixLen = body) (routes : Option RouteTable) :
    Returns (fun out => AbortOf kind body out.1)
      (parseMessage decodeRegistryMessage buffer msgLen routes) := by
  subst hdrop
  have hbody : (buffer.drop lengthPrefixLen).length = msgLen := by
    rw [List.length_drop, hbuf]
    omega
  have hrest : buffer.length = lengthPrefixLen + (buffer.drop lengthPrefixLen).length := by
    rw [hbody, hbuf]
  refine returns_readRange (Nat.zero_le _) (by omega) ?_
  rw [hctl]
  dsimp only
  rw [if_neg (not_not.mpr rfl)]
  cases kind with
  | actorTell => exact returns_map (returns_parseActorTell hbody) fun _ h => h
  | actorAsk => exact returns_map (returns_parseActorAsk hbody) fun _ h => h
  | routeBind => exact returns_parseRouteBind routes
  | routedActorAsk => exact returns_map (returns_parseRoutedActorAsk hbody routes) fun _ h => h
  | ask => exact returns_map (returns_parseAsk hbuf hbody) fun _ h => h
  | response => exact returns_map (returns_parseResponse hbody) fun _ h => h
  | directAsk => exact returns_map (returns_parseDirectAsk hbody) fun _ h => h
  | directResponse => exact returns_map (returns_parseDirectResponse hbody) fun _ h => h
  | pubSub => exact returns_map (returns_parsePubSub hbody) fun _ h => h
  | gossip => exact returns_map (returns_parseGossip hrest) fun _ h => h
  | streamStart => exact returns_map (returns_parseStreamStart hrest) fun _ h => h
  | streamResponseStart => exact returns_map (returns_parseStreamResponseStart hrest) fun _ h => h
  | streamData
  | streamResponseData => exact returns_map (returns_parseStreamData hrest _) fun _ h => h
  | streamAbort => exact returns_map returns_parseStreamAbort fun _ h => h

end Kinds

end IcanactRemote
