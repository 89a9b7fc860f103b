/-
What a connection keeps along every run.

The peer may send any bytes, the transport may cut them in any way, and the
reaper may run between any two reads, also in the middle of a chunk.

* `Connection.step_cases` — what one event can do to a connection that still
  reads;
* `Connection.wf_exec` — the reader stays well-formed, and no run ends in an
  index out of range or a length below zero;
* `Connection.stream_state_bounded` — the stream table stays within its bounds,
  a tombstone stays until its last chunk or a new start frame, and a malformed
  start frame is an error.
-/
import IcanactRemote.ReaderSteps
import IcanactRemote.Run

namespace IcanactRemote

open StreamingState

variable {α : Type} {ctx : ReadContext α}

/-! ### The reader under an abort and under the reaper -/

section Reader

variable {r r' : Reader} {bytes : Bytes} {res : ReadPollResult α} {s : StreamingState} {ok : Bool}

lemma Reader.stateWf_of_ne_payload {state : ReadState} {s s' : StreamingState}
    (h : Reader.StateWf s state) (hnot : ∀ res read, state ≠ .readStreamPayload res read) :
    Reader.StateWf s' state := by
  cases state with
  | readStreamPayload res read => exact absurd rfl (hnot res read)
  | readLen | readBody | readStreamMeta | discardStreamPayload => exact h

lemma Reader.Wf.abort (h : r.Wf) (hnot : ∀ res read, r.state ≠ .readStreamPayload res read)
    (streamId : ℕ) : Reader.Wf { r with streaming := (r.streaming.abortStream streamId).2 } := by
  refine ⟨h.streaming.removeActive streamId, Reader.stateWf_of_ne_payload h.state hnot, ?_⟩
  intro id stream hget
  have hget := (Table.get_remove ..).symm.trans hget
  split at hget
  · cases hget
  · exact .inl (h.settled hnot id stream hget)

lemma PollStep.state_of_result {result : MessageReadResult α}
    (hstep : PollStep ctx r bytes res r') (hres : res.result = some result) : r'.state = .new := by
  cases hstep with
  | bodyDone | streamDone => rfl
  | _ => cases hres

lemma Reader.Wf.dispatched (h : r.Wf) (hstep : PollStep ctx r bytes res r') :
    Reader.Wf { r' with streaming := Connection.dispatch r'.streaming res.result } := by
  have hwf := hstep.wf h
  unfold Connection.dispatch
  split
  next streamId _ hres =>
    have hnew := hstep.state_of_result hres
    exact hwf.abort (by rw [hnew]; exact nofun) streamId
  · exact hwf

lemma Reader.Wf.reaps (h : r.Wf) (hwf : s.Wf) (hreaps : Reaps r.streaming s ok) :
    Reader.Wf { r with streaming := s } := by
  have hst := h.state
  refine ⟨hwf, ?_, ?_⟩
  · show Reader.StateWf s r.state
    cases hr : r.state with
    | readStreamPayload =>
      rw [hr] at hst
      obtain ⟨hread, hres⟩ := hst
      refine ⟨hread, ?_⟩
      intro stream stride hget hstride
      obtain ⟨stream₀, startedAt, progressed, hget₀, rfl⟩ := hreaps.kept hget
      have hstride₀ : stream₀.Wf stride :=
        ⟨hstride.layout, hstride.size, hstride.buffer, hstride.missing⟩
      have hr₀ := hres stream₀ stride hget₀ hstride₀
      exact ⟨hr₀.index, hr₀.offset, hr₀.len, hr₀.unset⟩
    | _ =>
      rw [hr] at hst
      exact Reader.stateWf_of_ne_payload hst nofun
  · intro id stream hget
    obtain ⟨stream₀, startedAt, progressed, hget₀, rfl⟩ := hreaps.kept hget
    exact h.first id stream₀ hget₀

end Reader

/-! ### One event -/

namespace Connection

variable {c c' : Connection α} {e : ConnectionEvent}

/-- What is left of a connection after a poll that moved on. -/
def polled (c : Connection α) (res : ReadPollResult α) (reader : Reader) (inbox : List Segment) :
    Connection α :=
  { c with
    reader := { reader with streaming := dispatch reader.streaming res.result }
    inbox
    results := c.results ++ res.result.toList
    delivered := c.delivered ++ res.completed.toList }

/-- What an event does to a connection that still reads. -/
inductive StepsTo (ctx : ReadContext α) (c : Connection α) :
    ConnectionEvent → Connection α → Prop
  | failed {reader : Reader} {inbox : List Segment} (hfault : stop ≠ .fault)
      (hwhy : IsIoError stop ∨ ∃ bytes, inboxBytes c.inbox = bytes ++ inboxBytes inbox ∧
        PollError ctx c.reader bytes stop) :
      StepsTo ctx c (.poll blockOnPending clock) { c with reader, inbox, stopped := some stop }
  | waited {inbox : List Segment} (hbytes : inboxBytes inbox = inboxBytes c.inbox) :
      StepsTo ctx c (.poll blockOnPending clock) { c with inbox }
  | polled {inbox : List Segment} {reader : Reader}
      (hbytes : inboxBytes c.inbox = bytes ++ inboxBytes inbox)
      (hstep : PollStep ctx c.reader bytes res reader) :
      StepsTo ctx c (.poll blockOnPending clock) (c.polled res reader inbox)
  | cleaned {streaming : StreamingState}
      (hcleanup : c.reader.streaming.cleanupStaleWith idleTimeout rateWindow minBytesPerWindow
        clock order = (.ok ok, streaming))
      (hwf : streaming.Wf) (hreaps : Reaps c.reader.streaming streaming ok) :
      StepsTo ctx c (.cleanup idleTimeout rateWindow minBytesPerWindow clock order)
        { c with reader := { c.reader with streaming } }

lemma step_of_stopped (h : c.stopped.isSome = true) (e : ConnectionEvent) : c.step ctx e = c := by
  cases e with
  | poll | cleanup => exact if_pos h

lemma step_cases (hopen : c.stopped = none) (h : c.reader.Wf) (e : ConnectionEvent) :
    StepsTo ctx c e (c.step ctx e) := by
  have hnot : ¬(c.stopped.isSome = true) := by
    rw [hopen]
    exact nofun
  cases e with
  | poll blockOnPending clock =>
    have hpoll : PollsTo ctx c.reader c.inbox
        (c.reader.readMessageStepPoll ctx clock blockOnPending c.inbox) :=
      poll_step h clock blockOnPending c.inbox
    obtain ⟨stop, reader, inbox, hout, hfault, hwhy⟩ | ⟨inbox, hbytes, hout⟩ |
      ⟨bytes, res, reader, inbox, hbytes, hout, hstep⟩ := hpoll
    · simp only [step, if_neg hnot, hout]
      exact .failed hfault hwhy
    · simp only [step, if_neg hnot, hout]
      exact .waited hbytes
    · simp only [step, if_neg hnot, hout]
      exact .polled hbytes hstep
  | cleanup idleTimeout rateWindow minBytesPerWindow clock order =>
    obtain ⟨ok, streaming, hcleanup, hwf, hreaps⟩ := cleanupStaleWith_spec h.streaming idleTimeout
      rateWindow minBytesPerWindow clock order
    simp only [step, if_neg hnot, hcleanup]
    exact .cleaned hcleanup hwf hreaps

variable {res : ReadPollResult α} {kind : WireKind} {s s' : StreamingState} {r r' : Reader}
  {bodyLen metaLen : ℕ} {bytes metadata : Bytes} {n : ℕ}
    {id firstChunkLen streamId chunkIndex stride : ℕ}

lemma limit_of_pollStep (hstep : PollStep ctx r bytes res r') (h : r.Wf) :
    r'.streaming.maxConcurrentStreams = r.streaming.maxConcurrentStreams := by
  cases hstep with
  | opened | turnedAway => exact maxConcurrentStreams_removeTombstone ..
  | tombstoned _ _ _ _ _ _ _ _ hlim => exact hlim
  | marked _ _ _ _ hmark => exact (h.streaming.of_markTombstone hmark).2.2
  | discardDone _ _ hfin => exact (h.of_finishDiscarding hfin).2.2
  | _ => rfl

variable {result : Option (MessageReadResult α)}

lemma limit_dispatch : (dispatch s result).maxConcurrentStreams = s.maxConcurrentStreams := by
  unfold dispatch
  split <;> rfl

/-- The reader is well-formed as long as it reads, and it never ends in a fault. -/
structure Sound (n : ℕ) (c : Connection α) : Prop where
  noFault : c.stopped ≠ some .fault
  reader : c.stopped = none → c.reader.Wf ∧ c.reader.streaming.maxConcurrentStreams = n

lemma Sound.step (h : c.Sound n) (e : ConnectionEvent) : (c.step ctx e).Sound n := by
  cases hstop : c.stopped with
  | some =>
    rw [step_of_stopped (by rw [hstop]; rfl)]
    exact h
  | none =>
    obtain ⟨hwf, hlim⟩ := h.reader hstop
    have hcases : StepsTo ctx c e (c.step ctx e) := step_cases hstop hwf e
    generalize c.step ctx e = c' at hcases ⊢
    cases hcases with
    | failed hfault =>
      refine ⟨?_, nofun⟩
      intro heq
      exact hfault (Option.some.inj heq)
    | waited => exact ⟨h.noFault, fun _ => ⟨hwf, hlim⟩⟩
    | polled _ hstep =>
      refine ⟨h.noFault, fun _ => ⟨hwf.dispatched hstep, ?_⟩⟩
      exact (limit_dispatch ..).trans ((limit_of_pollStep hstep hwf).trans hlim)
    | cleaned _ hwf' hreaps =>
      exact ⟨h.noFault, fun _ => ⟨hwf.reaps hwf' hreaps, hreaps.limit.trans hlim⟩⟩

/-- The stream table of a new connection that may have `n` streams at a time. -/
def freshStreaming (n : ℕ) : StreamingState :=
  { StreamingState.new with maxConcurrentStreams := n }

lemma wf_freshStreaming (n : ℕ) : (freshStreaming n).Wf :=
  { wf_new with streams := Nat.zero_le n }

lemma sound_start (n : ℕ) (routes : RouteTable) (inbox : List Segment) :
    (start (freshStreaming n) routes inbox : Connection α).Sound n where
  noFault := nofun
  reader _ := ⟨Reader.wf_new (wf_freshStreaming n) routes fun _ => rfl, rfl⟩

/-- A connection under any events. -/
def after (ctx : ReadContext α) (n : ℕ) (routes : RouteTable) (inbox : List Segment)
    (es : List ConnectionEvent) : Connection α :=
  Run.exec (step ctx) (start (freshStreaming n) routes inbox) es

lemma wf_exec {routes : RouteTable} {inbox : List Segment}
    {es : List ConnectionEvent} : (after ctx n routes inbox es).Sound n :=
  Run.exec_invariant (fun _ e h => h.step e) (sound_start n routes inbox) es

/-! ### Start frames and chunks -/

/-- With these bytes the metadata of a start frame for this stream is complete. -/
def StartArrives (r : Reader) (bytes : Bytes) (streamId : ℕ) : Prop :=
  ∃ kind bodyLen metadata metaLen, r.state = .readStreamMeta kind bodyLen metadata metaLen ∧
    kind.isStreamStart = true ∧ (metadata ++ bytes).length = metaLen ∧
    metaStreamId (metadata ++ bytes) = streamId

/-- With these bytes a chunk of this stream is accounted for: the metadata of its
frame is complete, or its payload has been thrown away because the stream was
reaped meanwhile. -/
def ChunkArrives (r : Reader) (bytes : Bytes) (streamId chunkIndex : ℕ) : Prop :=
  (∃ kind bodyLen metadata metaLen, r.state = .readStreamMeta kind bodyLen metadata metaLen ∧
      kind.isStreamData = true ∧ (metadata ++ bytes).length = metaLen ∧
      metaStreamId (metadata ++ bytes) = streamId ∧
      metaChunkIndex (metadata ++ bytes) = chunkIndex) ∨
    ∃ remaining, r.state = .discardStreamPayload remaining (some (streamId, chunkIndex)) ∧
      bytes.length = remaining

/-- A malformed start frame: too large, without a first chunk, or with a first
chunk longer than the stream. -/
def MalformedStart (metadata : Bytes) (firstChunkLen : ℕ) : Prop :=
  maxStreamSize < metaTotalSize metadata ∨ firstChunkLen = 0 ∨
    metaTotalSize metadata < firstChunkLen

lemma not_malformedStart (h : ValidStart (startHeader kind metadata firstChunkLen) firstChunkLen) :
    ¬MalformedStart metadata firstChunkLen := by
  have hpos := h.pos
  have hle := h.le
  have hsize := h.size
  rw [totalSize_startHeader] at hle hsize
  rintro (hlarge | hemp | hlong)
  · omega
  · omega
  · omega

variable {t : RejectedStreamTombstone}

lemma tombstone_of_mark (h : s.Wf) (hmark : s.markTombstone streamId chunkIndex = (.ok (), s'))
    (hget : s.rejectedStreams.get id = some t) (hgone : s'.rejectedStreams.get id = none) :
    id = streamId ∧ (t.markChunkReceived chunkIndex).isComplete = .ok true := by
  cases hmarked : s.rejectedStreams.get streamId with
  | none =>
    rw [markTombstone_of_none hmarked] at hmark
    cases hmark
    rw [hget] at hgone
    cases hgone
  | some u =>
    obtain ⟨stride, hu⟩ := h.tombstones streamId u hmarked
    obtain ⟨hall, heq⟩ | ⟨-, heq⟩ := markTombstone_spec hmarked hu chunkIndex
    · rw [heq] at hmark
      cases hmark
      -- the last missing chunk: only this tombstone goes
      by_cases hid : id = streamId
      · subst hid
        rw [hmarked] at hget
        cases hget
        refine ⟨rfl, ?_⟩
        have hlay := hu.layout.mark chunkIndex
        rw [RejectedStreamTombstone.isComplete]
        exact hlay.allChunksReceived_eq.trans (congrArg _ (hlay.prefixSet_iff.mpr hall))
      · rw [get_removeTombstone, if_neg hid, hget] at hgone
        cases hgone
    · rw [heq] at hmark
      cases hmark
      have hgone : (s.rejectedStreams.modify streamId
        fun _ => u.markChunkReceived chunkIndex).get id = none := hgone
      rw [Table.get_modify] at hgone
      split at hgone
      · rw [hmarked] at hgone
        cases hgone
      · rw [hget] at hgone
        cases hgone

lemma tombstone_of_discard {mark : Option (ℕ × ℕ)} (h : s.Wf)
    (hfin : Reader.finishDiscardingReservation s mark = (.ok (), s'))
    (hget : s.rejectedStreams.get id = some t) (hgone : s'.rejectedStreams.get id = none) :
    ∃ i, mark = some (id, i) ∧ (t.markChunkReceived i).isComplete = .ok true := by
  cases mark with
  | none =>
    cases hfin
    rw [hget] at hgone
    cases hgone
  | some mark =>
    obtain ⟨streamId, chunkIndex⟩ := mark
    obtain ⟨rfl, hcmpl⟩ := tombstone_of_mark h hfin hget hgone
    exact ⟨chunkIndex, rfl, hcmpl⟩

/-- A poll drops a tombstone only for a start frame of its stream or with its
last chunk. -/
lemma tombstone_of_pollStep (hstep : PollStep ctx r bytes res r') (h : r.Wf)
    (hget : r.streaming.rejectedStreams.get id = some t)
    (hgone : r'.streaming.rejectedStreams.get id = none) :
    (∃ i, ChunkArrives r bytes id i ∧ (t.markChunkReceived i).isComplete = .ok true) ∨
      StartArrives r bytes id := by
  -- most steps leave the tombstones as they are
  have hsame : r'.streaming.rejectedStreams.get id ≠ r.streaming.rejectedStreams.get id := by
    rw [hget, hgone]
    exact nofun
  cases hstep with
  | opened _ hst hlen hkind =>
    refine .inr ⟨_, _, _, _, hst, hkind, hlen, ?_⟩
    by_contra hne
    apply hsame
    show (r.streaming.removeTombstone _).rejectedStreams.get id = _
    rw [get_removeTombstone, if_neg (Ne.symm hne)]
  | turnedAway hst hlen hkind =>
    refine .inr ⟨_, _, _, _, hst, hkind, hlen, ?_⟩
    by_contra hne
    apply hsame
    rw [get_removeTombstone, if_neg (Ne.symm hne)]
  | tombstoned hst hlen hkind _ _ _ _ _ _ hrej =>
    refine .inr ⟨_, _, _, _, hst, hkind, hlen, ?_⟩
    by_contra hne
    apply hsame
    exact (hrej id).trans (if_neg (Ne.symm hne))
  | marked hst hlen hkind _ hmark =>
    obtain ⟨rfl, hcmpl⟩ := tombstone_of_mark h.streaming hmark hget hgone
    exact .inl ⟨_, .inl ⟨_, _, _, _, hst, hkind, hlen, rfl, rfl⟩, hcmpl⟩
  | discardDone hst hlen hfin =>
    obtain ⟨i, rfl, hcmpl⟩ := tombstone_of_discard h.streaming hfin hget hgone
    exact .inl ⟨i, .inr ⟨_, hst, hlen⟩, hcmpl⟩
  | _ => exact absurd rfl hsame

/-- A poll that completes the metadata of a start frame and goes on has read a
well-formed one. -/
lemma validStart_of_pollStep {bytes : Bytes} (hstep : PollStep ctx r bytes res r') (h : r.Wf)
    (hst : r.state = .readStreamMeta kind bodyLen metadata metaLen)
    (hkind : kind.isStreamStart = true) (hlen : (metadata ++ bytes).length = metaLen) :
    ValidStart (startHeader kind (metadata ++ bytes) (bodyLen - metaLen)) (bodyLen - metaLen) := by
  have hwf := h.state
  rw [hst] at hwf
  have hshort : metadata.length < metaLen := hwf.2.1
  rw [List.length_append] at hlen
  -- the reader looks at the start only when its metadata is whole
  cases hstep with
  | idle =>
    rw [List.length_nil] at hlen
    omega
  | metaMore hst' hless =>
    rw [hst] at hst'
    cases hst'
    rw [List.length_append] at hless
    omega
  | opened _ hst' _ _ _ hval =>
    rw [hst] at hst'
    cases hst'
    exact hval
  | turnedAway hst' hlen' hkind' hnone hval | tombstoned hst' hlen' hkind' hnone hval =>
    rw [hst] at hst'
    cases hst'
    exact hval
  | reserved hst' hlen' hkind' | marked hst' hlen' hkind' =>
    rw [hst] at hst'
    cases hst'
    rw [WireKind.isStreamStart_of_data hkind'] at hkind
    cases hkind
  | prefixMore hst' | prefixBody hst' | prefixMeta hst' | bodyMore hst'
  | bodyDone hst' | reaped hst' | payloadMore now hst' | chunkDone now now' hst'
  | streamDone now now' hst' | discardMore hst'
  | discardDone hst' => cases hst.symm.trans hst'

/-! ### The bounds -/

/-- The bounds of the receiver's stream state. -/
structure Bounded (n : ℕ) (s : StreamingState) : Prop where
  streams : s.activeStreams.len ≤ n
  sizes : ∀ id stream, s.activeStreams.get id = some stream → stream.totalSize ≤ maxStreamSize
  bytes : s.activeStreams.total (·.totalSize) ≤ maxInflightStreamBytes
  words : s.rejectedStreamsBitmapWords = s.rejectedStreams.total (·.receivedChunks.length)
  wordBudget : s.rejectedStreamsBitmapWords ≤ rejectedStreamsBitmapWordBudget
  entries : s.rejectedStreams.len ≤ rejectedStreamsEntryBudget
  incomplete : ∀ id t, s.rejectedStreams.get id = some t →
    t.isComplete = .ok false ∧ 0 < t.receivedChunks.length
  apart : ∀ id, s.activeStreams.get id = none ∨ s.rejectedStreams.get id = none

lemma incomplete_of_wf (h : t.Wf stride) :
    t.isComplete = .ok false ∧ 0 < t.receivedChunks.length := by
  constructor
  · rw [RejectedStreamTombstone.isComplete, h.layout.allChunksReceived_eq,
      h.layout.prefixSet_eq_false h.missing]
  · rw [h.layout.words]
    exact divCeil_pos h.layout.count_pos (by omega)

lemma bounded_of_wf {s : StreamingState} (h : s.Wf) (hlim : s.maxConcurrentStreams = n) :
    Bounded n s where
  streams := hlim ▸ h.streams
  sizes id stream hget := by
    obtain ⟨-, stride, hwf⟩ := h.active id stream hget
    exact hwf.size
  bytes := h.bytes
  words := h.words
  wordBudget := h.wordBudget
  entries := h.entries
  incomplete id t hget := by
    obtain ⟨stride, hwf⟩ := h.tombstones id t hget
    exact incomplete_of_wf hwf
  apart id := by
    cases hget : s.activeStreams.get id with
    | none => exact .inl rfl
    | some stream => exact .inr (h.apart id stream hget)

lemma rejectedStreams_dispatch : (dispatch s result).rejectedStreams = s.rejectedStreams := by
  unfold dispatch
  split <;> rfl

/-- An event drops a tombstone only for a start frame of its stream or with its
last chunk. -/
lemma tombstone_of_step (h : c.Sound n) (hopen : c.stopped = none)
    (hopen' : (c.step ctx e).stopped = none)
    (hget : c.reader.streaming.rejectedStreams.get id = some t)
    (hgone : (c.step ctx e).reader.streaming.rejectedStreams.get id = none) :
    ∃ bytes, inboxBytes c.inbox = bytes ++ inboxBytes (c.step ctx e).inbox ∧
      ((∃ i, ChunkArrives c.reader bytes id i ∧ (t.markChunkReceived i).isComplete = .ok true) ∨
        StartArrives c.reader bytes id) := by
  obtain ⟨hwf, -⟩ := h.reader hopen
  have hcases : StepsTo ctx c e (c.step ctx e) := step_cases hopen hwf e
  generalize c.step ctx e = c' at hcases hopen' hgone ⊢
  cases hcases with
  | failed => cases hopen'
  | waited => cases hget.symm.trans hgone
  | @polled bytes res _ _ inbox reader hbytes hstep =>
    have hgone : (dispatch reader.streaming res.result).rejectedStreams.get id = none := hgone
    rw [rejectedStreams_dispatch] at hgone
    exact ⟨bytes, hbytes, tombstone_of_pollStep hstep hwf hget hgone⟩
  | cleaned _ _ hreaps =>
    -- the reaper only adds tombstones, and this stream is not active
    have hnone : c.reader.streaming.activeStreams.get id = none := by
      cases hact : c.reader.streaming.activeStreams.get id with
      | none => rfl
      | some stream => cases hget.symm.trans (hwf.streaming.apart id stream hact)
    have hsame := (hreaps.untouched id hnone).2
    cases hget.symm.trans (hsame.symm.trans hgone)

lemma stopped_of_malformed {bytes : Bytes} (h : c.Sound n) (hopen : c.stopped = none)
    (hst : c.reader.state = .readStreamMeta kind bodyLen metadata metaLen)
    (hkind : kind.isStreamStart = true) (hlen : (metadata ++ bytes).length = metaLen)
    (hbytes : inboxBytes c.inbox = bytes ++ inboxBytes (c.step ctx e).inbox)
    (hbad : MalformedStart (metadata ++ bytes) (bodyLen - metaLen)) :
    (c.step ctx e).stopped.isSome = true := by
  obtain ⟨hwf, -⟩ := h.reader hopen
  -- some of the metadata was missing
  have hshort : bytes ≠ [] := by
    have hstateWf := hwf.state
    rw [hst] at hstateWf
    have hless : metadata.length < metaLen := hstateWf.2.1
    rintro rfl
    rw [List.append_nil] at hlen
    omega
  have hcases : StepsTo ctx c e (c.step ctx e) := step_cases hopen hwf e
  generalize c.step ctx e = c' at hcases hbytes ⊢
  cases hcases with
  | failed => rfl
  | waited hsame =>
    rw [hsame] at hbytes
    exact absurd (List.self_eq_append_left.mp hbytes) hshort
  | polled hby' hstep =>
    have htaken := List.append_cancel_right (hby'.symm.trans hbytes)
    subst htaken
    exact absurd hbad (not_malformedStart (validStart_of_pollStep hstep hwf hst hkind hlen))
  | cleaned =>
    exact absurd (List.self_eq_append_left.mp hbytes) hshort

/-- **The receiver's stream state stays bounded.**  On any bytes, cut in any way,
with the reaper run at any moment, as long as no error has been returned: the
stream table keeps its bounds, the next event drops a tombstone only with the
last of its chunks or for a start frame of its stream, and it ends in an error
if it completes the metadata of a malformed start frame. -/
theorem stream_state_bounded (ctx : ReadContext α) (n : ℕ) (routes : RouteTable)
    (inbox : List Segment) (es : List ConnectionEvent)
    (hopen : (after ctx n routes inbox es).stopped = none) :
    Bounded n (after ctx n routes inbox es).reader.streaming ∧
    (∀ e id t, (after ctx n routes inbox es).reader.streaming.rejectedStreams.get id = some t →
      (after ctx n routes inbox (es ++ [e])).stopped = none →
      (after ctx n routes inbox (es ++ [e])).reader.streaming.rejectedStreams.get id = none →
      ∃ bytes, inboxBytes (after ctx n routes inbox es).inbox =
          bytes ++ inboxBytes (after ctx n routes inbox (es ++ [e])).inbox ∧
        ((∃ i, ChunkArrives (after ctx n routes inbox es).reader bytes id i ∧
            (t.markChunkReceived i).isComplete = .ok true) ∨
          StartArrives (after ctx n routes inbox es).reader bytes id)) ∧
    ∀ e bytes kind bodyLen metadata metaLen,
      (after ctx n routes inbox es).reader.state = .readStreamMeta kind bodyLen metadata metaLen →
      kind.isStreamStart = true → (metadata ++ bytes).length = metaLen →
      inboxBytes (after ctx n routes inbox es).inbox =
        bytes ++ inboxBytes (after ctx n routes inbox (es ++ [e])).inbox →
      MalformedStart (metadata ++ bytes) (bodyLen - metaLen) →
      (after ctx n routes inbox (es ++ [e])).stopped.isSome = true := by
  have hsound : (after ctx n routes inbox es).Sound n := wf_exec
  obtain ⟨hwf, hlim⟩ := hsound.reader hopen
  have hnext : ∀ e, after ctx n routes inbox (es ++ [e]) =
      (after ctx n routes inbox es).step ctx e := fun e => Run.exec_concat ..
  refine ⟨bounded_of_wf hwf.streaming hlim, ?_, ?_⟩
  · intro e id t hget hopen' hgone
    rw [hnext] at hopen' hgone ⊢
    exact tombstone_of_step hsound hopen hopen' hget hgone
  · intro e bytes kind bodyLen metadata metaLen hst hkind hlen hbytes hbad
    rw [hnext] at hbytes ⊢
    exact stopped_of_malformed hsound hopen hst hkind hlen hbytes hbad

/-- A start frame of a stream of four bytes, with the first two of them. -/
def twoChunkStart : Segment :=
  .data 40 ([0, 0, 26] ++ toBe32 7 ++ toBe32 0 ++ toBe32 4 ++ toBe64 1 ++ toBe32 2 ++ [9, 9])

/-- A connection that may have no stream at all leaves a tombstone and goes on. -/
theorem stream_state_bounded_at_capacity :
    (after (⟨fun _ => none, 64⟩ : ReadContext Unit) 0 (.withLimit 8) [twoChunkStart]
        (List.replicate 3 (.poll true fun _ => 0))).stopped = none ∧
      (after (⟨fun _ => none, 64⟩ : ReadContext Unit) 0 (.withLimit 8) [twoChunkStart]
        (List.replicate 3 (.poll true fun _ => 0))).reader.streaming.rejectedStreams.len = 1 ∧
      Bounded 0 (after (⟨fun _ => none, 64⟩ : ReadContext Unit) 0 (.withLimit 8) [twoChunkStart]
        (List.replicate 3 (.poll true fun _ => 0))).reader.streaming :=
  ⟨by decide +kernel, by decide +kernel,
    (stream_state_bounded ⟨fun _ => none, 64⟩ 0 (.withLimit 8) [twoChunkStart]
      (List.replicate 3 (.poll true fun _ => 0)) (by decide +kernel)).1⟩

end Connection

end IcanactRemote
