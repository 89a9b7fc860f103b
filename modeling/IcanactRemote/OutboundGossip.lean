/-
Encoding of outbound gossip within the frame limit (`registry.rs`).

A message that fits is sent as it is.  A delta that does not fit is packed into
batches, by estimate first and then, where the estimate was too low, by halving.
A full sync that does not fit is sent as a compact full sync, with the metadata of
every actor left out, followed by deltas that add the actors with their metadata.

Messages stand for their encodings; only the length of an encoding is looked at.

Main results: `fits_of_mem_encode`, `split_loses_nothing`.
-/
import IcanactRemote.ActorGossip

namespace IcanactRemote

open List

structure MessageTooLarge where
  size : ℕ
  max : ℕ
  deriving DecidableEq

def gossipRecordSizeSlack : ℕ := 512

def estimatedActorPairBytes (name : Text) (location : RemoteActorLocation) : ℕ :=
  name.length + location.metadata.length + location.address.length + gossipRecordSizeSlack

def estimatedChangeBytes : RegistryChange → ℕ
  | .actorAdded name location _ => estimatedActorPairBytes name location
  | .actorRemoved name _ _ _ => name.length + gossipRecordSizeSlack

def stripMetadata (location : RemoteActorLocation) : RemoteActorLocation :=
  { location with metadata := [] }

def stripActorPairMetadata (actors : List (Text × RemoteActorLocation)) :
    List (Text × RemoteActorLocation) :=
  actors.map fun e => (e.1, stripMetadata e.2)

def actorPairsToAddedChanges (localActors knownActors : List (Text × RemoteActorLocation)) :
    List RegistryChange :=
  (localActors ++ knownActors).map fun e => .actorAdded e.1 e.2 e.2.priority

abbrev ActorPairs := List (Text × RemoteActorLocation)

def RegistryMessage.changes : RegistryMessage → List RegistryChange
  | .deltaGossip delta => delta.changes
  | .fullSync .. => []

namespace NodeConfig

variable (cfg : NodeConfig)

def fits (m : RegistryMessage) : Bool := gossipPayloadFits (cfg.encodedLen m) cfg.maxMessageSize

def oversizedGossipError (m : RegistryMessage) : MessageTooLarge :=
  ⟨gossipHeaderLen + cfg.encodedLen m, cfg.maxMessageSize⟩

/-- Encode a batch, or its halves if it does not fit. -/
def encodeDeltaBatchFitting (emitBatch : List RegistryChange → RegistryMessage)
    (batch : List RegistryChange) : Except MessageTooLarge (List RegistryMessage) :=
  if batch.length = 0 then .ok []
  else if cfg.fits (emitBatch batch) then .ok [emitBatch batch]
  else if batch.length = 1 then .error (cfg.oversizedGossipError (emitBatch batch))
  else do
    let left ← encodeDeltaBatchFitting emitBatch (batch.take (batch.length / 2))
    let right ← encodeDeltaBatchFitting emitBatch (batch.drop (batch.length / 2))
    pure (left ++ right)
termination_by batch.length
decreasing_by
  · rw [List.length_take]
    omega
  · rw [List.length_drop]
    omega

/-- The loop that fills batches by estimate. -/
def packBatches (emitBatch : List RegistryChange → RegistryMessage) :
    List RegistryChange → List RegistryChange → ℕ → Except MessageTooLarge (List RegistryMessage)
  | [], batch, _ => cfg.encodeDeltaBatchFitting emitBatch batch
  | change :: changes, batch, batchEst =>
    let changeEst := estimatedChangeBytes change
    if !batch.isEmpty && !gossipPayloadFits (batchEst + changeEst + gossipMessageSizeSlack)
        cfg.maxMessageSize then do
      let full ← cfg.encodeDeltaBatchFitting emitBatch batch
      let rest ← packBatches emitBatch changes [change] changeEst
      pure (full ++ rest)
    else packBatches emitBatch changes (batch ++ [change]) (batchEst + changeEst)

def packDeltaChangeBatches (changes : List RegistryChange) (senderPeerId : PeerId)
    (sinceSequence currentSequence : ℕ) : Except MessageTooLarge (List RegistryMessage) :=
  cfg.packBatches
    (fun batch => .deltaGossip ⟨sinceSequence, max currentSequence sinceSequence, batch,
      senderPeerId⟩)
    changes [] 0

/-- Encode one message so that every payload fits the frame limit. -/
def encodeOutboundGossipForInlineLimit (message : RegistryMessage) :
    Except MessageTooLarge (List RegistryMessage) :=
  if cfg.fits message then .ok [message]
  else
    match message with
    | .fullSync localActors knownActors senderPeerId senderBindAddr sequence =>
      let compact : RegistryMessage :=
        .fullSync (stripActorPairMetadata localActors) (stripActorPairMetadata knownActors)
          senderPeerId senderBindAddr sequence
      if !cfg.fits compact then .error (cfg.oversizedGossipError compact)
      else
        let adds := actorPairsToAddedChanges localActors knownActors
        if adds.isEmpty then .ok [compact]
        else do
          let deltas ← cfg.packDeltaChangeBatches adds senderPeerId sequence sequence
          pure (compact :: deltas)
    | .deltaGossip delta =>
      if delta.changes.isEmpty then .error (cfg.oversizedGossipError (.deltaGossip delta))
      else
        cfg.packDeltaChangeBatches delta.changes delta.senderPeerId delta.sinceSequence
          delta.currentSequence

/-! ### The fragments -/

variable {cfg} {emitBatch : List RegistryChange → RegistryMessage}

/-- What a successful packing yields: batches that fit, and the changes in order. -/
def Packs (cfg : NodeConfig) (emitBatch : List RegistryChange → RegistryMessage)
    (changes : List RegistryChange) (messages : List RegistryMessage) : Prop :=
  ∃ batches : List (List RegistryChange), batches.flatten = changes ∧
    messages = batches.map emitBatch ∧ ∀ m ∈ messages, cfg.fits m = true

/-- What packing yields, and that it fails only on a change that is too large by itself. -/
def PacksOr (cfg : NodeConfig) (emitBatch : List RegistryChange → RegistryMessage)
    (changes : List RegistryChange) : Except MessageTooLarge (List RegistryMessage) → Prop
  | .ok messages => Packs cfg emitBatch changes messages
  | .error _ => ∃ c ∈ changes, cfg.fits (emitBatch [c]) = false

lemma PacksOr.append {cs ds : List RegistryChange}
    {x y : Except MessageTooLarge (List RegistryMessage)} (h : PacksOr cfg emitBatch cs x)
    (h' : PacksOr cfg emitBatch ds y) : PacksOr cfg emitBatch (cs ++ ds) (do
      let ms ← x
      let ns ← y
      pure (ms ++ ns)) := by
  cases x with
  | error =>
    obtain ⟨c, hc, hbig⟩ := h
    exact ⟨c, mem_append_left _ hc, hbig⟩
  | ok =>
    cases y with
    | error =>
      obtain ⟨c, hc, hbig⟩ := h'
      exact ⟨c, mem_append_right _ hc, hbig⟩
    | ok =>
      obtain ⟨batches, rfl, rfl, hfits⟩ := h
      obtain ⟨batches', rfl, rfl, hfits'⟩ := h'
      exact ⟨batches ++ batches', flatten_append, map_append.symm,
        forall_mem_append.mpr ⟨hfits, hfits'⟩⟩

lemma packsOr_encodeDeltaBatchFitting (batch : List RegistryChange) :
    PacksOr cfg emitBatch batch (cfg.encodeDeltaBatchFitting emitBatch batch) := by
  induction batch using encodeDeltaBatchFitting.induct cfg emitBatch with
  | case1 batch hemp =>
    rw [encodeDeltaBatchFitting, if_pos hemp]
    exact ⟨[], (length_eq_zero_iff.mp hemp).symm, rfl, by simp⟩
  | case2 batch hemp hfits =>
    rw [encodeDeltaBatchFitting, if_neg hemp, if_pos hfits]
    exact ⟨[batch], by simp, rfl, by simpa using hfits⟩
  | case3 batch hemp hfits hone =>
    obtain ⟨c, rfl⟩ := length_eq_one_iff.mp hone
    rw [encodeDeltaBatchFitting, if_neg hemp, if_neg hfits, if_pos hone]
    exact ⟨c, mem_singleton_self c, Bool.eq_false_iff.mpr hfits⟩
  | case4 batch hemp hfits hone ihleft ihright =>
    rw [encodeDeltaBatchFitting, if_neg hemp, if_neg hfits, if_neg hone]
    have hpacks := ihleft.append ihright
    rwa [take_append_drop] at hpacks

lemma packsOr_packBatches (changes batch : List RegistryChange) (batchEst : ℕ) :
    PacksOr cfg emitBatch (batch ++ changes)
      (cfg.packBatches emitBatch changes batch batchEst) := by
  induction changes generalizing batch batchEst with
  | nil =>
    rw [append_nil]
    exact packsOr_encodeDeltaBatchFitting batch
  | cons change changes ih =>
    rw [packBatches]
    split_ifs
    · exact (packsOr_encodeDeltaBatchFitting batch).append (ih [change] _)
    · have hpacks := ih (batch ++ [change]) (batchEst + estimatedChangeBytes change)
      rwa [append_assoc] at hpacks

variable {fragments messages : List RegistryMessage}

section

variable {changes batch : List RegistryChange} {batchEst : ℕ}

lemma packs_packBatches (h : cfg.packBatches emitBatch changes batch batchEst = .ok messages) :
    Packs cfg emitBatch (batch ++ changes) messages := by
  have hpacks : PacksOr cfg emitBatch _ _ := packsOr_packBatches changes batch batchEst
  rwa [h] at hpacks

lemma exists_of_packBatches_error {e : MessageTooLarge}
    (h : cfg.packBatches emitBatch changes batch batchEst = .error e) :
    ∃ c ∈ batch ++ changes, cfg.fits (emitBatch [c]) = false := by
  have hpacks : PacksOr cfg emitBatch _ _ := packsOr_packBatches changes batch batchEst
  rwa [h] at hpacks

end

lemma bind_eq_ok {ε α β : Type} {x : Except ε α} {f : α → Except ε β} {b : β}
    (h : x >>= f = .ok b) : ∃ a, x = .ok a ∧ f a = .ok b := by
  cases x with
  | error => simp [bind, Except.bind] at h
  | ok a => exact ⟨a, rfl, h⟩

variable {senderPeerId : PeerId}

/-- **The fragments of a full sync** that does not fit: the compact snapshot, and
deltas that add its actors in order, all under the sequence of the full sync. -/
theorem encode_fullSync {localActors knownActors : ActorPairs} {senderBindAddr : Option Text}
    {sequence : ℕ}
    (hbig : cfg.fits (.fullSync localActors knownActors senderPeerId senderBindAddr sequence) =
      false)
    (h : cfg.encodeOutboundGossipForInlineLimit
      (.fullSync localActors knownActors senderPeerId senderBindAddr sequence) = .ok fragments) :
    ∃ batches : List (List RegistryChange),
      batches.flatten = actorPairsToAddedChanges localActors knownActors ∧
      fragments =
        .fullSync (stripActorPairMetadata localActors) (stripActorPairMetadata knownActors)
            senderPeerId senderBindAddr sequence ::
          batches.map fun batch => .deltaGossip ⟨sequence, sequence, batch, senderPeerId⟩ := by
  rw [encodeOutboundGossipForInlineLimit, if_neg (by simp [hbig])] at h
  dsimp only at h
  split_ifs at h with hcompact hemp
  · cases h
    exact ⟨[], by simpa using hemp.symm, rfl⟩
  · obtain ⟨deltas, hdeltas, h⟩ := bind_eq_ok h
    cases h
    obtain ⟨batches, hflat, rfl, -⟩ := packs_packBatches hdeltas
    refine ⟨batches, hflat, ?_⟩
    rw [max_self]

lemma packDeltaChangeBatches_ok {changes : List RegistryChange}
    {sinceSequence currentSequence : ℕ}
    (h : cfg.packDeltaChangeBatches changes senderPeerId sinceSequence currentSequence = .ok
      messages) :
    (∀ m ∈ messages, cfg.fits m = true) ∧ messages.flatMap (·.changes) = changes := by
  obtain ⟨batches, hflat, rfl, hfits⟩ := packs_packBatches h
  refine ⟨hfits, ?_⟩
  rw [flatMap_map]
  exact flatMap_id.trans hflat

/-- **Every fragment fits the limit.** -/
theorem fits_of_mem_encode {message : RegistryMessage}
    (h : cfg.encodeOutboundGossipForInlineLimit message = .ok fragments) :
    ∀ m ∈ fragments, cfg.fits m = true := by
  unfold encodeOutboundGossipForInlineLimit at h
  split_ifs at h with hfits
  · cases h
    exact forall_mem_singleton.mpr hfits
  · cases message with
    | fullSync =>
      dsimp only at h
      split_ifs at h with hcompact hemp
      · cases h
        exact forall_mem_singleton.mpr (by simpa using hcompact)
      · obtain ⟨deltas, hdeltas, h⟩ := bind_eq_ok h
        cases h
        exact forall_mem_cons.mpr ⟨by simpa using hcompact, (packDeltaChangeBatches_ok hdeltas).1⟩
    | deltaGossip =>
      dsimp only at h
      split_ifs at h
      exact (packDeltaChangeBatches_ok h).1

/-! ### A full sync in parts

The actors that are left are a stack, `known_actors` over `local_actors`: a pop takes the last
known actor, and the last local one once none is left.  What was taken out is listed in order. -/

def estimatedFullSyncBytes (actors : ActorPairs) : ℕ :=
  actors.foldl (fun acc e => acc + estimatedActorPairBytes e.1 e.2) gossipMessageSizeSlack

/-- The loop that takes actors out by estimate. -/
def shedByEstimate (cfg : NodeConfig) : ActorPairs → ActorPairs → ℕ → ActorPairs × ActorPairs
  | [], overflow, _ => ([], overflow)
  | item :: stack, overflow, estimate =>
    if gossipPayloadFits estimate cfg.maxMessageSize then (item :: stack, overflow)
    else
      shedByEstimate cfg stack (item :: overflow)
        (estimate - estimatedActorPairBytes item.1 item.2)

/-- The loop that encodes, and takes out one more actor while the payload does not fit. -/
def shedByEncoding (cfg : NodeConfig) (emit : ActorPairs → RegistryMessage) :
    ActorPairs → ActorPairs → Except MessageTooLarge (RegistryMessage × ActorPairs)
  | stack, overflow =>
    if cfg.fits (emit stack) then .ok (emit stack, overflow)
    else
      match stack with
      | [] => .error (cfg.oversizedGossipError (emit []))
      | item :: stack => shedByEncoding cfg emit stack (item :: overflow)

def splitFullSyncForInlineLimit (cfg : NodeConfig) (localActors knownActors : ActorPairs)
    (senderPeerId : PeerId) (senderBindAddr : Option Text) (sequence maxMessageSize : ℕ) :
    Except MessageTooLarge (List RegistryMessage) := do
  let cfg := { cfg with maxMessageSize := min maxMessageSize cfg.maxMessageSize }
  let left := cfg.shedByEstimate (localActors ++ knownActors).reverse []
    (estimatedFullSyncBytes (localActors ++ knownActors))
  let emit (stack : ActorPairs) : RegistryMessage :=
    .fullSync (stack.reverse.take localActors.length) (stack.reverse.drop localActors.length)
      senderPeerId senderBindAddr sequence
  let (payload, overflow) ← cfg.shedByEncoding emit left.1 left.2
  if overflow.isEmpty then return [payload]
  else
    let deltas ← cfg.packDeltaChangeBatches (actorPairsToAddedChanges [] overflow) senderPeerId
      sequence sequence
    return payload :: deltas

lemma shedByEstimate_keeps (stack overflow : ActorPairs) (estimate : ℕ) :
    let left := cfg.shedByEstimate stack overflow estimate
    left.1.reverse ++ left.2 = stack.reverse ++ overflow := by
  induction stack generalizing overflow estimate with
  | nil => rfl
  | cons item stack ih =>
    rw [shedByEstimate]
    split
    · rfl
    · rw [reverse_cons, append_assoc]
      exact ih (item :: overflow) _

lemma shedByEncoding_ok {emit : ActorPairs → RegistryMessage} {payload : RegistryMessage}
    {stack overflow rest : ActorPairs}
    (h : cfg.shedByEncoding emit stack overflow = .ok (payload, rest)) :
    ∃ stack', payload = emit stack' ∧ cfg.fits payload = true ∧
      stack'.reverse ++ rest = stack.reverse ++ overflow := by
  induction stack generalizing overflow with
  | nil =>
    rw [shedByEncoding] at h
    split at h
    · next hfits =>
      cases h
      exact ⟨[], rfl, hfits, rfl⟩
    · cases h
  | cons item stack ih =>
    rw [shedByEncoding] at h
    split at h
    · next hfits =>
      cases h
      exact ⟨item :: stack, rfl, hfits, rfl⟩
    · obtain ⟨stack', hpay, hfits, hkept⟩ := ih h
      refine ⟨stack', hpay, hfits, hkept.trans ?_⟩
      rw [reverse_cons, append_assoc]
      rfl

/-- **Splitting gossip loses and duplicates nothing.**  Packed changes come out in order and
within the limit, unless one of them alone is too large; a full sync in parts is a full sync
and deltas that add the rest of its actors. -/
theorem split_loses_nothing (cfg : NodeConfig) (changes : List RegistryChange)
    (localActors knownActors : ActorPairs) (senderPeerId : PeerId) (senderBindAddr : Option Text)
    (sinceSequence currentSequence maxMessageSize : ℕ) : (∀ messages,
      cfg.packDeltaChangeBatches changes senderPeerId sinceSequence currentSequence =
        .ok messages →
      (∀ m ∈ messages, cfg.fits m = true) ∧ messages.flatMap (·.changes) = changes) ∧
    (∀ e,
      cfg.packDeltaChangeBatches changes senderPeerId sinceSequence currentSequence = .error e →
      ∃ c ∈ changes, cfg.fits (.deltaGossip ⟨sinceSequence, max currentSequence sinceSequence,
        [c], senderPeerId⟩) = false) ∧
    ∀ messages,
      cfg.splitFullSyncForInlineLimit localActors knownActors senderPeerId senderBindAddr
        currentSequence maxMessageSize = .ok messages →
      ∃ l k rest deltas,
        messages = .fullSync l k senderPeerId senderBindAddr currentSequence :: deltas ∧
        deltas.flatMap (·.changes) = actorPairsToAddedChanges [] rest ∧
        l ++ k ++ rest = localActors ++ knownActors ∧
        ∀ m ∈ messages, gossipPayloadFits (cfg.encodedLen m)
          (min maxMessageSize cfg.maxMessageSize) = true := by
  refine ⟨fun _ h => packDeltaChangeBatches_ok h, fun _ h => exists_of_packBatches_error h,
    fun messages h => ?_⟩
  obtain ⟨⟨payload, overflow⟩, hshed, h⟩ := bind_eq_ok h
  obtain ⟨stack, rfl, hfits, hkept⟩ := shedByEncoding_ok hshed
  -- both ways of shedding only move actors from the stack to the overflow
  have hall : stack.reverse ++ overflow = localActors ++ knownActors := by
    rw [hkept, shedByEstimate_keeps, reverse_reverse, append_nil]
  rw [← take_append_drop localActors.length stack.reverse] at hall
  dsimp only at h
  split_ifs at h with hemp
  · cases h
    obtain rfl := isEmpty_iff.mp hemp
    exact ⟨_, _, [], [], rfl, rfl, hall, forall_mem_singleton.mpr hfits⟩
  · obtain ⟨deltas, hpack, h⟩ := bind_eq_ok h
    cases h
    obtain ⟨hdeltas, hchanges⟩ := packDeltaChangeBatches_ok hpack
    exact ⟨_, _, overflow, deltas, rfl, hchanges, hall, forall_mem_cons.mpr ⟨hfits, hdeltas⟩⟩

end NodeConfig

end IcanactRemote
