/-
Fast pubsub frames.

A frame is a header of 120 bytes, the destinations and the payload.  The header
counts the destinations in a `u16`, so the writer drops those past 65535.

* `parse_writeFastFrame` — what is parsed is what was written;
* `fast_frame_round_trip` — the announced length is that of the frame exactly as
  long as no destination is dropped.
-/
import IcanactRemote.ActorRecords
import IcanactRemote.WireFormat

namespace IcanactRemote

open BigEndian List

inductive PubSubDeliveryMode
  | atMostOnce
  | atLeastOnceHopAck
  deriving DecidableEq

def encodeDeliveryMode : PubSubDeliveryMode → Byte
  | .atMostOnce => 0
  | .atLeastOnceHopAck => 1

def decodeDeliveryMode : Byte → Option PubSubDeliveryMode
  | 0 => some .atMostOnce
  | 1 => some .atLeastOnceHopAck
  | _ => none

def PeerId.asBytes (p : PeerId) : Bytes := encode 32 p.bytes.toNat

/-- What the header carries besides the count. -/
structure FastFrameHeader where
  topicKey : UInt64
  typeHash : UInt64
  msgId : BitVec 128
  originPeerId : PeerId
  sourcePeerId : PeerId
  hopsRemaining : Byte
  mode : PubSubDeliveryMode
  publisherEnqueuedNs : UInt64

/-- `PSF1`. -/
def fastFrameMagic : Bytes := [0x50, 0x53, 0x46, 0x31]
def fastFrameHeaderLen : ℕ := 120
def fastFrameDestPeerLen : ℕ := 32

section

variable (header : FastFrameHeader) (destinationPeers : List PeerId) (payload : Bytes)

def fastFrameLen : ℕ :=
  saturatingAdd (saturatingAdd fastFrameHeaderLen
    (min (destinationPeers.length * fastFrameDestPeerLen) usizeMax)) payload.length

def writeFastFrame : Bytes :=
  let destCount := min destinationPeers.length 65535
  fastFrameMagic ++ [1, encodeDeliveryMode header.mode, header.hopsRemaining, 0] ++
    toBe64 header.topicKey ++ toBe64 header.typeHash ++ encode 16 header.msgId.toNat ++
    header.originPeerId.asBytes ++ header.sourcePeerId.asBytes ++ encode 2 destCount ++
    replicate 6 0 ++ toBe64 header.publisherEnqueuedNs ++
    (destinationPeers.take destCount).flatMap PeerId.asBytes ++ payload

/-- `acquired` is whether there is a buffer of that size. -/
def encodeFastFramePooled (acquired : Bool) : Option (Bytes × Option Bytes × ℕ) :=
  if acquired then
    some (writeFastFrame header destinationPeers payload, none, fastFrameLen destinationPeers payload)
  else none

end

structure FastFrameView where
  header : FastFrameHeader
  destinationPeers : Bytes
  destinationCount : ℕ
  payload : Bytes

/-- The offset of the payload is no overflow for a `u16` count. -/
def FastFrameView.parse (frame : Bytes) : Option FastFrameView :=
  if frame.length < fastFrameHeaderLen ∨ slice frame 0 4 ≠ fastFrameMagic then none
  else if frame.getD 4 0 ≠ 1 then none
  else
    match decodeDeliveryMode (frame.getD 5 0) with
    | none => none
    | some mode =>
      let destinationCount := decode (slice frame 104 106)
      let payloadOffset := fastFrameHeaderLen + destinationCount * fastFrameDestPeerLen
      if payloadOffset > frame.length then none
      else
        some
          { header :=
              { topicKey := fromBe64 (slice frame 8 16)
                typeHash := fromBe64 (slice frame 16 24)
                msgId := .ofNat 128 (decode (slice frame 24 40))
                originPeerId := ⟨.ofNat 256 (decode (slice frame 40 72))⟩
                sourcePeerId := ⟨.ofNat 256 (decode (slice frame 72 104))⟩
                hopsRemaining := frame.getD 6 0
                mode
                publisherEnqueuedNs := fromBe64 (slice frame 112 120) }
            destinationPeers := slice frame fastFrameHeaderLen payloadOffset
            destinationCount
            payload := frame.drop payloadOffset }

@[simp] lemma length_asBytes (p : PeerId) : p.asBytes.length = 32 := length_encode ..

variable (header : FastFrameHeader) (peers : List PeerId) (payload : Bytes)

lemma length_writeFastFrame : (writeFastFrame header peers payload).length =
    120 + min peers.length 65535 * 32 + payload.length := by
  simp [writeFastFrame, fastFrameMagic]
  omega

lemma parse_writeFastFrame : FastFrameView.parse (writeFastFrame header peers payload) =
    some ⟨header, (peers.take 65535).flatMap PeerId.asBytes, min peers.length 65535, payload⟩ := by
  have hcnt : decode (slice (writeFastFrame header peers payload) 104 106) =
      min peers.length 65535 := by
    simp [writeFastFrame, slice, drop_append, fastFrameMagic, drop_eq_nil_of_le, decode_encode_mod]
  have hpayload : (writeFastFrame header peers payload).drop
      (120 + min peers.length 65535 * 32) = payload := by
    refine drop_left' ?_
    simp [fastFrameMagic]
    omega
  have htake : peers.take (min peers.length 65535) = peers.take 65535 := by
    rw [Nat.min_comm, ← take_take, take_length]
  have hmsg : decode (encode 16 header.msgId.toNat) = header.msgId.toNat :=
    decode_encode header.msgId.isLt
  have hpeer (p : PeerId) : decode p.asBytes = p.bytes.toNat := decode_encode p.bytes.isLt
  have hmode : decodeDeliveryMode (encodeDeliveryMode header.mode) = some header.mode := by
    cases header.mode <;> rfl
  simp only [FastFrameView.parse, length_writeFastFrame, fastFrameHeaderLen, fastFrameDestPeerLen,
    hcnt, hpayload]
  simp [writeFastFrame, slice, drop_append, take_append, fastFrameMagic, drop_eq_nil_of_le,
    take_of_length_le, hmsg, hpeer, hmode, htake]
  omega

/-- **A fast frame reads back**; its length is announced iff no destination is dropped. -/
theorem fast_frame_round_trip {acquired : Bool} {frame : Bytes} {first : Option Bytes} {len : ℕ}
    (h : encodeFastFramePooled header peers payload acquired = some (frame, first, len))
    (hsize : 120 + peers.length * 32 + payload.length ≤ usizeMax) :
    (len = frame.length ↔ peers.length ≤ 65535) ∧
    FastFrameView.parse frame = some ⟨header, (peers.take 65535).flatMap PeerId.asBytes,
      min peers.length 65535, payload⟩ := by
  obtain ⟨-, rfl, -, rfl⟩ : acquired = true ∧ _ = frame ∧ none = first ∧ _ = len := by
    simpa [encodeFastFramePooled] using h
  refine ⟨?_, parse_writeFastFrame ..⟩
  rw [length_writeFastFrame]
  unfold fastFrameLen saturatingAdd fastFrameHeaderLen fastFrameDestPeerLen
  omega

def plainHeader : FastFrameHeader := ⟨1, 2, 3, ⟨4⟩, ⟨5⟩, 6, .atMostOnce, 7⟩

theorem fast_frame_round_trip_one : fastFrameLen [⟨8⟩] [9] = 153 ∧
    (fastFrameLen [⟨8⟩] [9] = (writeFastFrame plainHeader [⟨8⟩] [9]).length ↔ 1 ≤ 65535) := by
  have h : encodeFastFramePooled plainHeader [⟨8⟩] [9] true = some (_, none, _) := rfl
  exact ⟨rfl, (fast_frame_round_trip plainHeader [⟨8⟩] [9] h (by decide)).1⟩

/-- **A dropped destination is announced.** -/
theorem dropped_destination_announced : ∃ frame len,
    encodeFastFramePooled plainHeader (replicate 65536 ⟨8⟩) [9] true = some (frame, none, len) ∧
      len = frame.length + 32 := by
  refine ⟨_, _, rfl, ?_⟩
  rw [length_writeFastFrame, fastFrameLen, length_replicate]
  rfl

end IcanactRemote
