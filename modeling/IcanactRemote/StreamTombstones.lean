/-
How long tombstones live.

The sender keeps to the protocol.  The receiver may turn streams away, and reap
them at any moment, also in the middle of a chunk.  As long as the sender is
within a stream, the receiver has it either among its active streams or among
its tombstones, with exactly the chunks marked that were sent.

* `Tracks` — the receiver's tables follow the sender, stream by stream;
* `Tracks.step`, `Tracks.reaps` — every step of a trace keeps this;
* `Connection.tombstones_while_needed` — no frame is taken for one of an unknown
  stream or for a duplicate, and no tombstone outlives its stream, as long as no
  abort is handled for a stream that has one.
-/
import IcanactRemote.StreamSender

namespace IcanactRemote

open WireKind

open StreamingState IcanactRemote.Frame Table Connection

/-! ### A stream on the receiver's side -/

/-- The chunks below `n` are marked, and no others. -/
def MarkedBelow (chunks : Bitmap 64) (totalSize stride n : ℕ) : Prop :=
  ∀ i < divCeil totalSize stride, chunks.test i = decide (i < n)

/-- The stream is active, with the chunks below `n`. -/
def Receiving (s : StreamingState) (id totalSize stride n : ℕ) : Prop :=
  ∃ stream, s.activeStreams.get id = some stream ∧ stream.totalSize = totalSize ∧
    stream.Wf stride ∧ MarkedBelow stream.receivedChunks totalSize stride n

/-- The stream is counted on a tombstone, with the chunks below `n`. -/
def Counting (s : StreamingState) (id totalSize stride n : ℕ) : Prop :=
  s.activeStreams.get id = none ∧ ∃ t, s.rejectedStreams.get id = some t ∧
    t.totalSize = totalSize ∧ t.Wf stride ∧ MarkedBelow t.receivedChunks totalSize stride n

/-- What the receiver has of a stream the sender is at `σ` with.  `clean` says
that no abort has met a tombstone. -/
def At (clean : Prop) (s : StreamingState) (id : ℕ) : StreamSending → Prop
  | .idle => s.activeStreams.get id = none ∧ s.rejectedStreams.get id = none
  | .sending totalSize stride next => next < divCeil totalSize stride ∧
    (Receiving s id totalSize stride next ∨ Counting s id totalSize stride next)
  | .ended => s.activeStreams.get id = none ∧ (clean → s.rejectedStreams.get id = none)

/-- The frame being read is the one the sender sends next. -/
def Expects (σ : StreamSending) (cur : Cursor) (totalSize stride : ℕ) : Prop :=
  (σ = .idle ∧ cur.kind.isStreamStart = true ∧ totalSize = metaTotalSize cur.metadata ∧
      stride = cur.payloadLen ∧ ValidStart cur.header cur.payloadLen) ∨
    (σ = .sending totalSize stride cur.chunkIndex ∧ cur.kind.isStreamData = true ∧
      cur.payloadLen = min (totalSize - cur.chunkIndex * stride) stride)

/-- The receiver in the middle of a frame. -/
def AtPhase (clean : Prop) (s : StreamingState) (phase : Phase) (id : ℕ) (σ : StreamSending) : Prop
    :=
  match phase with
  | .between _ => At clean s id σ
  | .filling cur _ =>
    if cur.streamId = id then
      ∃ totalSize stride, Expects σ cur totalSize stride ∧
        cur.chunkIndex < divCeil totalSize stride ∧
        (Receiving s id totalSize stride cur.chunkIndex ∨
          Counting s id totalSize stride cur.chunkIndex)
    else At clean s id σ
  | .discarding cur marks =>
    if cur.streamId = id then
      ∃ totalSize stride, Expects σ cur totalSize stride ∧
        cur.payload.length < cur.payloadLen ∧
        if marks then
          cur.chunkIndex < divCeil totalSize stride ∧
            Counting s id totalSize stride cur.chunkIndex
        else At clean s id (.after totalSize stride cur.chunkIndex)
    else At clean s id σ

/-- **The receiver follows the sender.** -/
def Tracks (clean : Prop) (t : StreamTrace) : Prop :=
  ∀ id, ∃ σ, sentFor id t.frames = some σ ∧ AtPhase clean t.streaming t.phase id σ

section Tables

variable {clean : Prop} {s s' : StreamingState} {id totalSize stride n : ℕ} {σ : StreamSending}

lemma Receiving.congr (h : Receiving s id totalSize stride n)
    (hact : s'.activeStreams.get id = s.activeStreams.get id) :
    Receiving s' id totalSize stride n := by
  unfold Receiving
  rw [hact]
  exact h

lemma Counting.congr (h : Counting s id totalSize stride n)
    (hact : s'.activeStreams.get id = s.activeStreams.get id)
    (hrej : s'.rejectedStreams.get id = s.rejectedStreams.get id) :
    Counting s' id totalSize stride n := by
  unfold Counting
  rw [hact, hrej]
  exact h

lemma At.congr (h : At clean s id σ) (hact : s'.activeStreams.get id = s.activeStreams.get id)
    (hrej : s'.rejectedStreams.get id = s.rejectedStreams.get id) : At clean s' id σ := by
  cases σ with
  | idle => exact ⟨hact.trans h.1, hrej.trans h.2⟩
  | sending =>
    obtain ⟨hnext, hrec | hcnt⟩ := h
    · exact ⟨hnext, .inl (hrec.congr hact)⟩
    · exact ⟨hnext, .inr (hcnt.congr hact hrej)⟩
  | ended => exact ⟨hact.trans h.1, fun hclean => hrej.trans (h.2 hclean)⟩

variable {chunks : Bitmap 64}

lemma markedBelow_mark {chunkStride expectedChunks : Option ℕ}
    (hlay : ChunkLayout totalSize stride chunkStride expectedChunks chunks)
    (hn : n < divCeil totalSize stride) (h : MarkedBelow chunks totalSize stride n) :
    MarkedBelow (chunks.mark n) totalSize stride (n + 1) := by
  intro i hi
  rw [hlay.test_mark hn, h i hi]
  by_cases hlt : i < n
  · rw [decide_eq_true hlt, decide_eq_true (by omega : i < n + 1)]
    rfl
  · rw [decide_eq_false hlt, Bool.false_or]
    exact decide_eq_decide.mpr ⟨fun heq => by omega, fun hlt' => by omega⟩

lemma after_of_all (h : MarkedBelow chunks totalSize stride (n + 1))
    (hall : ∀ i < divCeil totalSize stride, chunks.test i = true) :
    StreamSending.after totalSize stride n = .ended := by
  refine if_pos ?_
  by_contra hmore
  have hset := hall (n + 1) (by omega)
  rw [h (n + 1) (by omega)] at hset
  have := of_decide_eq_true hset
  omega

lemma after_of_missing (h : MarkedBelow chunks totalSize stride (n + 1))
    (hmiss : ∃ i < divCeil totalSize stride, chunks.test i = false) :
    n + 1 < divCeil totalSize stride ∧
      StreamSending.after totalSize stride n = .sending totalSize stride (n + 1) := by
  obtain ⟨i, hi, hunset⟩ := hmiss
  rw [h i hi] at hunset
  have hle := of_decide_eq_false hunset
  exact ⟨by omega, if_neg (by omega)⟩

lemma Counting.mark (h : Counting s id totalSize stride n) (hn : n < divCeil totalSize stride)
    (hmark : s.markTombstone id n = (.ok (), s')) : At clean s' id (.after totalSize stride n) := by
  obtain ⟨hnone, t, hget, rfl, ht, hmarked⟩ := h
  have hmarked' := markedBelow_mark ht.layout hn hmarked
  obtain ⟨hall, heq⟩ | ⟨ht', heq⟩ := markTombstone_spec hget ht n
  · -- the last chunk
    rw [heq] at hmark
    cases hmark
    rw [after_of_all hmarked' hall]
    refine ⟨?_, fun _ => ?_⟩
    · rw [activeStreams_removeTombstone]
      exact hnone
    · rw [get_removeTombstone, if_pos rfl]
  · rw [heq] at hmark
    cases hmark
    obtain ⟨hmore, haft⟩ := after_of_missing hmarked' ht'.missing
    rw [haft]
    refine ⟨hmore, .inr ⟨hnone, t.markChunkReceived n, ?_, rfl, ht', hmarked'⟩⟩
    refine (get_modify s.rejectedStreams id (fun _ => t.markChunkReceived n) id).trans ?_
    rw [if_pos rfl, hget]
    rfl

/-- The entries of the other streams. -/
def OthersKept (s s' : StreamingState) (id : ℕ) : Prop :=
  ∀ id', id' ≠ id → s'.activeStreams.get id' = s.activeStreams.get id' ∧
    s'.rejectedStreams.get id' = s.rejectedStreams.get id'

lemma othersKept_removeTombstone : OthersKept s (s.removeTombstone id) id := by
  intro id' hne
  rw [activeStreams_removeTombstone, get_removeTombstone, if_neg hne]
  exact ⟨rfl, rfl⟩

lemma othersKept_modifyActive
    (f : InProgressStream → InProgressStream) : OthersKept s (s.modifyActive id f) id :=
  fun _ hne => ⟨(get_modify ..).trans (if_neg hne), rfl⟩

lemma othersKept_markTombstone (h : s.Wf) (hmark : s.markTombstone id n = (.ok (), s')) :
    OthersKept s s' id := by
  cases hget : s.rejectedStreams.get id with
  | none =>
    rw [markTombstone_of_none hget] at hmark
    cases hmark
    exact fun _ _ => ⟨rfl, rfl⟩
  | some t =>
    obtain ⟨stride, ht⟩ := h.tombstones id t hget
    obtain ⟨-, heq⟩ | ⟨-, heq⟩ := markTombstone_spec hget ht n
    · rw [heq] at hmark
      cases hmark
      exact othersKept_removeTombstone
    · rw [heq] at hmark
      cases hmark
      intro id' hne
      exact ⟨rfl, (get_modify ..).trans (if_neg hne)⟩

lemma counting_of_tombstone {t : RejectedStreamTombstone} (hwf : s.Wf)
    (h : Receiving s id totalSize stride n ∨ Counting s id totalSize stride n)
    (hget : s.rejectedStreams.get id = some t) : Counting s id totalSize stride n := by
  obtain ⟨stream, hact, -⟩ | hcnt := h
  · rw [hwf.apart id stream hact] at hget
    cases hget
  · exact hcnt

lemma counting_of_inactive
    (h : Receiving s id totalSize stride n ∨ Counting s id totalSize stride n)
    (hnone : s.activeStreams.get id = none) : Counting s id totalSize stride n := by
  obtain ⟨stream, hact, -⟩ | hcnt := h
  · rw [hnone] at hact
    cases hact
  · exact hcnt

lemma Receiving.reaps (h : Receiving s id totalSize stride n) (hreaps : Reaps s s' true) :
    Receiving s' id totalSize stride n ∨ Counting s' id totalSize stride n := by
  obtain ⟨stream, hget, rfl, hwf, hmarked⟩ := h
  obtain ⟨startedAt, progressed, hslid, -⟩ | ⟨hnone, htomb | ⟨hfalse, -⟩⟩ :=
    hreaps.visited id stream hget
  · exact .inl ⟨_, hslid, rfl, wf_slid hwf, hmarked⟩
  · exact .inr ⟨hnone, _, htomb, rfl, tombstoneOf_wf hwf, hmarked⟩
  · cases hfalse

lemma Counting.reaps {ok : Bool} (h : Counting s id totalSize stride n)
    (hreaps : Reaps s s' ok) : Counting s' id totalSize stride n := by
  obtain ⟨hact, hrej⟩ := hreaps.untouched id h.1
  exact h.congr (hact.trans h.1.symm) hrej

lemma At.reaps (h : At clean s id σ) (hreaps : Reaps s s' true) : At clean s' id σ := by
  cases σ with
  | idle =>
    obtain ⟨hact, hrej⟩ := hreaps.untouched id h.1
    exact ⟨hact, hrej.trans h.2⟩
  | sending =>
    obtain ⟨hnext, hrec | hcnt⟩ := h
    · exact ⟨hnext, hrec.reaps hreaps⟩
    · exact ⟨hnext, .inr (hcnt.reaps hreaps)⟩
  | ended =>
    obtain ⟨hact, hrej⟩ := hreaps.untouched id h.1
    exact ⟨hact, fun hclean => hrej.trans (h.2 hclean)⟩

end Tables

variable {part x : Bytes}

section Trace

variable {clean : Prop} {t t' : StreamTrace} {sent : List Frame}

lemma tracks_start (n : ℕ) : Tracks clean (.start (freshStreaming n)) :=
  fun _ => ⟨.idle, rfl, rfl, rfl⟩

/-! ### The next frame of the sender -/

section Next

variable {cur : Cursor} {f : Frame} {post frames : List Frame} {σ σ' : StreamSending}

lemma next_of_cursor (hsent : AllFit sent) (hfrs : AllFit frames) (hcur : cur.Ok)
    (hby : frames.flatMap bytes ++ (cur.bytes ++ x) <+: sent.flatMap bytes) :
    ∃ f post, sent = frames ++ f :: post ∧ cur.Of f := by
  obtain ⟨post, rfl, hpost⟩ := prefix_frames hfrs hsent hby
  obtain ⟨f, post', rfl, hof⟩ := prefix_cursor hcur
    (fun f hf => hsent f (List.mem_append_right _ hf)) hpost
  exact ⟨f, post', rfl, hof⟩

lemma next_of_concat (hsent : AllFit sent) (hwf : t'.Wf) (hby : t'.bytes <+: sent.flatMap bytes)
    (hfrs : t'.frames = t.frames ++ [f]) : ∃ post, sent = t.frames ++ f :: post := by
  obtain ⟨post, hpost, -⟩ := prefix_frames hwf.frames hsent hby
  rw [hfrs, List.append_assoc] at hpost
  exact ⟨post, hpost⟩

section

variable (hcur : cur.Ok) (hof : cur.Of f)
include hcur hof

lemma concerns_of (id : ℕ) : f.concerns id = decide (cur.streamId = id) := by
  have hkind : (cur.kind.isStreamStart || cur.kind.isStreamData) = true := by
    obtain ⟨hsta, -⟩ | ⟨hdata, -⟩ := Cursor.length_metadata hcur
    · rw [hsta]
      rfl
    · rw [hdata, Bool.or_true]
  rw [concerns, hof.kind, hkind, Bool.true_or, Bool.true_and, hof.streamId hcur]

lemma expects_of_start (hkind : cur.kind.isStreamStart = true) (hsend : σ.send f = some σ') :
    Expects σ cur (metaTotalSize cur.metadata) cur.payloadLen := by
  have hfkind := hof.kind
  unfold StreamSending.send at hsend
  split at hsend
  · split at hsend
    next hval =>
      obtain ⟨-, hpos, hle, hsize⟩ := hval
      rw [hof.payload hcur] at hpos hle
      rw [hof.totalSize hcur hkind] at hle hsize
      refine .inl ⟨rfl, hkind, rfl, rfl, ⟨hpos, ?_, ?_⟩⟩
      · rw [Cursor.header, totalSize_startHeader]
        exact hle
      · rw [Cursor.header, totalSize_startHeader]
        exact hsize
    · cases hsend
  · split at hsend
    next habort =>
      rw [← hfkind, habort] at hkind
      cases hkind
    · split at hsend
      next hdata =>
        rw [← hfkind, isStreamStart_of_data hdata.1] at hkind
        cases hkind
      · cases hsend
  · cases hsend

lemma expects_of_data (hkind : cur.kind.isStreamData = true) (hsend : σ.send f = some σ') :
    ∃ totalSize stride, σ = .sending totalSize stride cur.chunkIndex ∧
      Expects σ cur totalSize stride := by
  have hfkind := hof.kind
  unfold StreamSending.send at hsend
  split at hsend
  · split at hsend
    next hval =>
      have hsta : f.kind.isStreamStart = true := hval.1
      rw [hfkind, isStreamStart_of_data hkind] at hsta
      cases hsta
    · cases hsend
  · split at hsend
    next habort =>
      rw [← hfkind, habort] at hkind
      cases hkind
    · split at hsend
      next totalSize stride _ _ hdata =>
        obtain ⟨-, hidx, hlen⟩ := hdata
        rw [hof.chunkIndex hcur] at hidx
        rw [hof.payload hcur] at hlen
        subst hidx
        exact ⟨totalSize, stride, rfl, .inr ⟨rfl, hkind, hlen⟩⟩
      · cases hsend
  · cases hsend

end

lemma Expects.pos {s : StreamingState} {id totalSize stride : ℕ}
    (h : Expects σ cur totalSize stride) (hkind : cur.kind.isStreamData = true)
    (hidx : cur.chunkIndex < divCeil totalSize stride)
    (hcnt : Counting s id totalSize stride cur.chunkIndex) : 0 < cur.payloadLen := by
  obtain ⟨-, tombstone, -, -, hwf, -⟩ := hcnt
  have hpos := hwf.layout.pos
  have hlt := (lt_divCeil hpos).mp hidx
  obtain ⟨-, hsta, -⟩ | ⟨-, -, hlen⟩ := h
  · rw [isStreamStart_of_data hkind] at hsta
    cases hsta
  · omega

lemma send_of_expects {totalSize stride : ℕ} (hcur : cur.Ok) (hof : cur.Of f)
    (h : Expects σ cur totalSize stride) :
    σ.send f = some (.after totalSize stride cur.chunkIndex) := by
  have hfkind := hof.kind
  obtain ⟨rfl, hkind, rfl, rfl, hval⟩ | ⟨rfl, hkind, hlen⟩ := h
  · have hle := hval.le
    have hsize := hval.size
    rw [Cursor.header, totalSize_startHeader] at hle hsize
    have hsta : f.isStart = true := by
      rw [isStart, hfkind]
      exact hkind
    have hidx : cur.chunkIndex = 0 := if_pos hkind
    rw [hidx, ← hof.payload hcur, ← hof.totalSize hcur hkind]
    rw [← hof.payload hcur, ← hof.totalSize hcur hkind] at hle
    rw [← hof.totalSize hcur hkind] at hsize
    have hpos := hval.pos
    rw [← hof.payload hcur] at hpos
    exact if_pos ⟨hsta, hpos, hle, hsize⟩
  · have hnot : f.kind ≠ .streamAbort := by
      rw [hfkind]
      intro habort
      rw [habort] at hkind
      cases hkind
    unfold StreamSending.send
    simp only [if_neg hnot]
    refine if_pos ⟨?_, hof.chunkIndex hcur, ?_⟩
    · rw [hfkind]
      exact hkind
    · rw [hof.payload hcur]
      exact hlen

end Next

/-! ### One step -/

def Phase.cursor : Phase → Option Cursor
  | .between _ => none
  | .filling cur _ => some cur
  | .discarding cur _ => some cur

section Step

variable {cur cur' : Cursor}

variable {phase : Phase}

lemma atPhase_of_ne {s : StreamingState} {id : ℕ} {σ : StreamSending}
    (hph : phase.cursor = some cur) (hne : cur.streamId ≠ id) :
    AtPhase clean s phase id σ ↔ At clean s id σ := by
  cases phase with
  | between => cases hph
  | filling | discarding =>
    cases hph
    exact Iff.of_eq (if_neg hne)

section

variable (h : Tracks clean t)
include h

lemma Tracks.enter (hcomp : Compliant sent)
    (hsent : AllFit sent) (hwf : t'.Wf)
    (hby : t'.bytes <+: sent.flatMap bytes) (hph : t.phase = .between part)
    (hph' : t'.phase.cursor = some cur) (hcur : cur.Ok) (hfrs : t'.frames = t.frames)
    (hothers : OthersKept t.streaming t'.streaming cur.streamId)
    (hown : ∀ σ σ' f, cur.Of f → σ.send f = some σ' → At clean t.streaming cur.streamId σ →
      AtPhase clean t'.streaming t'.phase cur.streamId σ) :
    Tracks clean t' := by
  have hcby : t'.phase.bytes = cur.bytes := by
    cases hp : t'.phase with
    | between => rw [hp] at hph'; cases hph'
    | filling | discarding => rw [hp] at hph'; cases hph'; rfl
  intro id
  obtain ⟨σ, hσ, hat⟩ := h id
  rw [hph] at hat
  rw [hfrs]
  refine ⟨σ, hσ, ?_⟩
  by_cases hid : cur.streamId = id
  · subst hid
    rw [StreamTrace.bytes, hcby, ← List.append_nil cur.bytes, hfrs] at hby
    -- the frame being read is the next one sent
    obtain ⟨f, post, hpost, hof⟩ := next_of_cursor hsent (hfrs ▸ hwf.frames) hcur hby
    have hconc : f.concerns cur.streamId = true := by
      rw [concerns_of hcur hof]
      exact decide_eq_true rfl
    obtain ⟨σ', hsend, -⟩ := hcomp.send hpost hσ hconc
    exact hown σ σ' f hof hsend hat
  · rw [atPhase_of_ne hph' hid]
    obtain ⟨hact, hrej⟩ := hothers id (Ne.symm hid)
    exact At.congr hat hact hrej

lemma Tracks.onwards (hph : t.phase.cursor = some cur)
    (hph' : t'.phase.cursor = some cur') (hid : cur'.streamId = cur.streamId)
    (hfrs : t'.frames = t.frames) (hothers : OthersKept t.streaming t'.streaming cur.streamId)
    (hown : ∀ σ, AtPhase clean t.streaming t.phase cur.streamId σ → AtPhase clean t'.streaming
      t'.phase cur.streamId σ) :
    Tracks clean t' := by
  intro id
  obtain ⟨σ, hσ, hat⟩ := h id
  rw [hfrs]
  refine ⟨σ, hσ, ?_⟩
  by_cases heq : cur.streamId = id
  · subst heq
    exact hown σ hat
  · have hne : cur'.streamId ≠ id := by
      rw [hid]
      exact heq
    rw [atPhase_of_ne hph heq] at hat
    rw [atPhase_of_ne hph' hne]
    obtain ⟨hact, hrej⟩ := hothers id (Ne.symm heq)
    exact At.congr hat hact hrej

lemma Tracks.leave {bytes : Bytes} (hph : t.phase.cursor = some cur) (hcur : cur.Ok)
    (hlen : cur.payload.length + bytes.length = cur.payloadLen) (hph' : t'.phase = .between [])
    (hfrs : t'.frames = t.frames ++ [(cur.add bytes).frame])
    (hothers : OthersKept t.streaming t'.streaming cur.streamId)
    (hown : ∀ σ, AtPhase clean t.streaming t.phase cur.streamId σ →
      ∃ totalSize stride, Expects σ cur totalSize stride ∧
        At clean t'.streaming cur.streamId (.after totalSize stride cur.chunkIndex)) :
    Tracks clean t' := by
  have hof : cur.Of (cur.add bytes).frame :=
    ⟨cur.payload ++ bytes, (List.length_append ..).trans hlen, rfl⟩
  intro id
  obtain ⟨σ, hσ, hat⟩ := h id
  rw [hfrs, hph']
  have hconc := concerns_of hcur hof id
  by_cases hid : cur.streamId = id
  · subst hid
    rw [decide_eq_true rfl] at hconc
    obtain ⟨totalSize, stride, hexp, hat'⟩ := hown σ hat
    refine ⟨_, ?_, hat'⟩
    rw [sentFor_concat, hσ, Option.bind_some, sendStep, if_pos hconc]
    exact send_of_expects hcur hof hexp
  · rw [decide_eq_false hid] at hconc
    refine ⟨σ, sentFor_of_not_concerns hσ hconc, ?_⟩
    rw [atPhase_of_ne hph hid] at hat
    obtain ⟨hact, hrej⟩ := hothers id (Ne.symm hid)
    exact At.congr hat hact hrej

/-- An inline frame: an abort ends its stream, and nothing else changes. -/
lemma Tracks.inline {f : Frame} {delivered : List CompletedV5Stream}
    (hph : t.phase = .between part) (hkind : streamMetaLen f.kind = none)
    (hnext : ∃ post, sent = t.frames ++ f :: post) (hcomp : Compliant sent)
    (habort : clean → ∀ id, f.aborts = some id → t.streaming.rejectedStreams.get id = none) :
    Tracks clean ⟨t.frames ++ [f], .between [], StreamTrace.aborted t.streaming f.aborts,
      delivered⟩ := by
  have hsta := isStreamStart_of_inline hkind
  have hdata := isStreamData_of_inline hkind
  intro id
  obtain ⟨σ, hσ, hat⟩ := h id
  rw [hph] at hat
  have hconc : f.concerns id = decide (f.aborts = some id) := by
    rw [concerns, hsta, hdata, aborts]
    by_cases haborts : f.kind = .streamAbort
    · rw [if_pos haborts, decide_eq_true haborts]
      exact decide_eq_decide.mpr Option.some_inj.symm
    · rw [if_neg haborts, decide_eq_false haborts]
      rfl
  by_cases hid : f.aborts = some id
  · obtain ⟨post, hpost⟩ := hnext
    rw [decide_eq_true hid] at hconc
    obtain ⟨σ', hsend, hσ'⟩ := hcomp.send hpost hσ hconc
    refine ⟨σ', hσ', ?_⟩
    have hnot : ¬(f.isStart = true) := by
      rw [isStart, hsta]
      simp
    rw [hid]
    -- only a stream in the middle is aborted
    cases σ with
    | idle => cases (if_neg fun hval => hnot hval.1).symm.trans hsend
    | sending =>
      have haborts : f.kind = .streamAbort := by
        by_contra hne
        rw [aborts, if_neg hne] at hid
        cases hid
      cases (if_pos haborts).symm.trans hsend
      exact ⟨(get_remove ..).trans (if_pos rfl), fun hclean => habort hclean id hid⟩
    | ended => cases hsend
  · rw [decide_eq_false hid] at hconc
    refine ⟨σ, sentFor_of_not_concerns hσ hconc, ?_⟩
    cases haborts : f.aborts with
    | none => exact hat
    | some id' =>
      have hne : id ≠ id' := by
        rintro rfl
        exact hid haborts
      exact At.congr hat ((get_remove ..).trans (if_neg hne)) rfl

end

lemma receiving_of_filling {s : StreamingState} {offset : ℕ} {σ : StreamSending}
    {stream : InProgressStream} (hat : AtPhase clean s (.filling cur offset) cur.streamId σ)
    (hget : s.activeStreams.get cur.streamId = some stream) :
    ∃ stride, Expects σ cur stream.totalSize stride ∧
      cur.chunkIndex < divCeil stream.totalSize stride ∧ stream.Wf stride ∧
        MarkedBelow stream.receivedChunks stream.totalSize stride cur.chunkIndex := by
  simp only [AtPhase, if_true] at hat
  obtain ⟨totalSize, stride, hexp, hidx, ⟨stream', hget', rfl, hwf, hmarked⟩ | hcnt⟩ :=
    hat
  · rw [hget] at hget'
    cases hget'
    exact ⟨stride, hexp, hidx, hwf, hmarked⟩
  · rw [hcnt.1] at hget
    cases hget

section Start

variable {s : StreamingState} {σ : StreamSending} (hval : ValidStart cur.header cur.payloadLen)
  (hkind : cur.kind.isStreamStart = true)
  (hexp : Expects σ cur (metaTotalSize cur.metadata) cur.payloadLen)

include hval in
lemma counting_rejected (hcnt : 1 < divCeil (metaTotalSize cur.metadata) cur.payloadLen)
    (hnone : s.activeStreams.get cur.streamId = none)
    (hget : s.rejectedStreams.get cur.streamId =
      some (RejectedStreamTombstone.rejected (metaTotalSize cur.metadata) cur.payloadLen)) :
    Counting s cur.streamId (metaTotalSize cur.metadata) cur.payloadLen 1 := by
  have htot : cur.header.totalSize = metaTotalSize cur.metadata := totalSize_startHeader ..
  rw [← htot] at hcnt hget ⊢
  refine ⟨hnone, _, hget, totalSize_rejected .., rejected_wf hval hcnt, ?_⟩
  intro i _
  refine (test_rejected hval i).trans (decide_eq_decide.mpr ?_)
  omega

include hkind hexp

lemma atPhase_turnedAway (hph : phase = .discarding cur false)
    (hmore : cur.payload.length < cur.payloadLen)
    (hat : At clean s cur.streamId (.after (metaTotalSize cur.metadata) cur.payloadLen 0)) :
    AtPhase clean s phase cur.streamId σ := by
  have hidx : cur.chunkIndex = 0 := if_pos hkind
  subst hph
  simp only [AtPhase, if_true]
  refine ⟨_, _, hexp, hmore, ?_⟩
  rw [hidx]
  exact hat

include hval in
lemma atPhase_opened {clock : ℕ → Instant} {isResponse : Bool} :
    AtPhase clean ((s.removeTombstone cur.streamId).insertActive cur.streamId
      (startedStream clock cur.header (metaCorrelationId cur.metadata) isResponse cur.payloadLen))
      (.filling cur 0) cur.streamId σ := by
  have hidx : cur.chunkIndex = 0 := if_pos hkind
  have hpos := hval.pos
  have hle := hval.le
  have htot : cur.header.totalSize = metaTotalSize cur.metadata := totalSize_startHeader ..
  simp only [AtPhase, if_true]
  refine ⟨_, _, hexp, ?_, .inl ⟨_, (get_insert ..).trans (if_pos rfl), htot,
    startedStream_wf hval, ?_⟩⟩
  · rw [hidx]
    exact divCeil_pos (by omega) hpos
  · rw [hidx]
    intro i _
    exact Bitmap.test_zeros ..

end Start

end Step

/-- **One step.**  The receiver goes on with the sender, except that an abort
leaves the tombstone of its stream. -/
theorem Tracks.step (h : Tracks clean t) (hstep : FrameStep t t') (hcomp : Compliant sent)
    (hsent : AllFit sent) (hwf : t.Wf) (hwf' : t'.Wf)
    (hby : t'.bytes <+: sent.flatMap bytes)
    (habort : clean → ∀ f id, t'.frames = t.frames ++ [f] → f.aborts = some id →
      t.streaming.rejectedStreams.get id = none) : Tracks clean t' := by
  cases hstep with
  | quiet _ hph =>
    intro id
    obtain ⟨σ, hσ, hat⟩ := h id
    rw [hph] at hat
    exact ⟨σ, hσ, hat⟩
  | inline hph hkind =>
    exact h.inline hph hkind (next_of_concat hsent hwf' hby rfl) hcomp
      fun hclean id haborts => habort hclean _ id rfl haborts
  | opened _ hph hcur _ _ hkind _ hval =>
    refine h.enter hcomp hsent hwf' hby hph rfl hcur rfl ?_ ?_
    · intro id hne
      refine ⟨?_, ?_⟩
      · refine (get_insert ..).trans ((if_neg hne).trans ?_)
        rw [activeStreams_removeTombstone]
      · exact (get_removeTombstone ..).trans (if_neg hne)
    · intro σ σ' f hof hsend hat
      exact atPhase_opened hval hkind (expects_of_start hcur hof hkind hsend)
  | turnedAway hph hcur hemp _ hkind hnone hval hcnt =>
    refine h.enter hcomp hsent hwf' hby hph rfl hcur rfl
      othersKept_removeTombstone ?_
    intro σ σ' f hof hsend hat
    refine atPhase_turnedAway hkind (expects_of_start hcur hof hkind hsend) rfl
      (hemp ▸ hval.pos) ?_
    rw [StreamSending.after, if_pos hcnt]
    refine ⟨?_, fun _ => ?_⟩
    · rw [activeStreams_removeTombstone]
      exact hnone
    · rw [get_removeTombstone, if_pos rfl]
  | tombstoned hph hcur hemp _ hkind hnone hval hcnt hact hget =>
    refine h.enter hcomp hsent hwf' hby hph rfl hcur rfl ?_ ?_
    · intro id hne
      exact ⟨congrArg (get · id) hact, (hget id).trans (if_neg hne)⟩
    · intro σ σ' f hof hsend hat
      refine atPhase_turnedAway hkind (expects_of_start hcur hof hkind hsend) rfl
        (hemp ▸ hval.pos) ?_
      rw [StreamSending.after, if_neg (by omega)]
      exact ⟨hcnt, .inr (counting_rejected hval hcnt
        ((congrArg (get · _) hact).trans hnone) ((hget _).trans (if_pos rfl)))⟩
  | reserved hph hcur _ _ hkind =>
    refine h.enter hcomp hsent hwf' hby hph rfl hcur rfl (fun _ _ => ⟨rfl, rfl⟩) ?_
    intro σ σ' f hof hsend hat
    obtain ⟨totalSize, stride, rfl, hexp⟩ := expects_of_data hcur hof hkind hsend
    obtain ⟨hidx, hat⟩ := hat
    simp only [AtPhase, if_true]
    exact ⟨totalSize, stride, hexp, hidx, hat⟩
  | marked hph hcur hemp _ hkind hget hmark =>
    refine h.enter hcomp hsent hwf' hby hph rfl hcur rfl
      (othersKept_markTombstone hwf.streaming hmark) ?_
    intro σ σ' f hof hsend hat
    obtain ⟨totalSize, stride, rfl, hexp⟩ := expects_of_data hcur hof hkind hsend
    simp only [AtPhase, if_true]
    have hcounting := counting_of_tombstone hwf.streaming hat.2 hget
    exact ⟨totalSize, stride, hexp, hemp ▸ hexp.pos hkind hat.1 hcounting,
      hcounting.mark hat.1 hmark⟩
  | reaped hph hnone =>
    refine h.onwards (congrArg Phase.cursor hph) rfl rfl rfl (fun _ _ => ⟨rfl, rfl⟩) ?_
    intro σ hat
    rw [hph] at hat
    simp only [AtPhase, if_true] at hat ⊢
    obtain ⟨totalSize, stride, hexp, hidx, hat⟩ := hat
    exact ⟨totalSize, stride, hexp, (hwf.filling _ _ hph).2.1, hidx,
      counting_of_inactive hat hnone⟩
  | payloadMore _ hph hget hlen =>
    refine h.onwards (congrArg Phase.cursor hph) rfl rfl rfl (othersKept_modifyActive _) ?_
    intro σ hat
    rw [hph] at hat
    obtain ⟨stride, hexp, hidx, hstr, hmarked⟩ := receiving_of_filling hat hget
    obtain ⟨-, -, hres⟩ := hwf.filling _ _ hph
    simp only [AtPhase, Cursor.streamId_add, if_true]
    exact ⟨_, stride, hexp, hidx, .inl ⟨_, get_modifyActive_self hget _, rfl,
      wf_filled hstr (hres _ stride hget hstr) hlen.le, hmarked⟩⟩
  | chunkDone _ _ hph hget hlen hcomm =>
    obtain ⟨hcur, -, -⟩ := hwf.filling _ _ hph
    refine h.leave (congrArg Phase.cursor hph) hcur hlen rfl rfl
      (othersKept_modifyActive _) ?_
    intro σ hat
    rw [hph] at hat
    obtain ⟨stride, hexp, hidx, hstr, hmarked⟩ := receiving_of_filling hat hget
    obtain rfl := stride_eq hstr hcomm rfl
    -- not the last chunk: the stream is still there
    have hmarked' := markedBelow_mark hstr.layout hidx hmarked
    obtain ⟨hmore, haft⟩ := after_of_missing hmarked' hcomm.missing
    refine ⟨_, _, hexp, ?_⟩
    rw [haft]
    exact ⟨hmore, .inl ⟨_, get_modifyActive_self hget _, rfl, hcomm, hmarked'⟩⟩
  | streamDone _ _ hph hget hlen hstr' hall =>
    obtain ⟨hcur, -, -⟩ := hwf.filling _ _ hph
    refine h.leave (congrArg Phase.cursor hph) hcur hlen rfl rfl ?_ ?_
    · intro id hne
      exact ⟨(get_remove ..).trans (if_neg hne), rfl⟩
    · intro σ hat
      rw [hph] at hat
      obtain ⟨stride, hexp, hidx, hstr, hmarked⟩ := receiving_of_filling hat hget
      obtain rfl := stride_eq hstr hstr' rfl
      have hmarked' := markedBelow_mark hstr.layout hidx hmarked
      refine ⟨_, _, hexp, ?_⟩
      rw [after_of_all hmarked' hall]
      refine ⟨(get_remove ..).trans (if_pos rfl), fun _ => ?_⟩
      exact hwf.streaming.apart _ _ hget
  | discardMore hph hlen =>
    refine h.onwards (congrArg Phase.cursor hph) rfl rfl rfl (fun _ _ => ⟨rfl, rfl⟩) ?_
    intro σ hat
    rw [hph] at hat
    simp only [AtPhase, Cursor.streamId_add, if_true] at hat ⊢
    obtain ⟨totalSize, stride, hexp, -, hat⟩ := hat
    refine ⟨totalSize, stride, hexp, ?_, hat⟩
    exact (List.length_append ..).trans_lt hlen
  | discardDone hph hlen hfin =>
    rename_i marks cur _ streaming
    obtain ⟨hcur, -⟩ := hwf.discarding _ _ hph
    cases marks with
    | true =>
      have hmark : t.streaming.markTombstone cur.streamId cur.chunkIndex = (.ok (), streaming) :=
        hfin
      refine h.leave (congrArg Phase.cursor hph) hcur hlen rfl rfl
        (othersKept_markTombstone hwf.streaming hmark) ?_
      intro σ hat
      rw [hph] at hat
      simp only [AtPhase, if_true] at hat
      obtain ⟨totalSize, stride, hexp, -, hidx, hcounting⟩ := hat
      exact ⟨totalSize, stride, hexp, hcounting.mark hidx hmark⟩
    | false =>
      cases hfin
      refine h.leave (congrArg Phase.cursor hph) hcur hlen rfl rfl (fun _ _ => ⟨rfl, rfl⟩) ?_
      intro σ hat
      rw [hph] at hat
      simp only [AtPhase, if_true] at hat
      obtain ⟨totalSize, stride, hexp, -, hat⟩ := hat
      exact ⟨totalSize, stride, hexp, hat⟩

lemma Tracks.reaps {s : StreamingState} (h : Tracks clean t) (hreaps : Reaps t.streaming s true) :
    Tracks clean { t with streaming := s } := by
  intro id
  obtain ⟨σ, hσ, hat⟩ := h id
  refine ⟨σ, hσ, ?_⟩
  unfold AtPhase at hat ⊢
  cases hph : t.phase with
  | between =>
    rw [hph] at hat
    exact At.reaps hat hreaps
  | filling =>
    simp only [hph] at hat ⊢
    split at hat
    next hid =>
      rw [if_pos hid]
      obtain ⟨totalSize, stride, hexp, hidx, hrec | hcnt⟩ := hat
      · exact ⟨totalSize, stride, hexp, hidx, hrec.reaps hreaps⟩
      · exact ⟨totalSize, stride, hexp, hidx, .inr (hcnt.reaps hreaps)⟩
    next hid =>
      rw [if_neg hid]
      exact At.reaps hat hreaps
  | discarding _ marks =>
    simp only [hph] at hat ⊢
    split at hat
    next hid =>
      rw [if_pos hid]
      obtain ⟨totalSize, stride, hexp, hmore, hat⟩ := hat
      refine ⟨totalSize, stride, hexp, hmore, ?_⟩
      cases marks with
      | true => exact ⟨hat.1, hat.2.reaps hreaps⟩
      | false => exact At.reaps hat hreaps
    next hid =>
      rw [if_neg hid]
      exact At.reaps hat hreaps

end Trace

/-! ### Runs -/

/-- A frame was taken for one of an unknown stream or for a duplicate, or its
stream vanished while it was read. -/
def IsStreamFault : Stop → Prop
  | .error (.network (.unknownStream _)) => True
  | .error (.network .duplicateChunk) => True
  | .error (.network .duplicateChunkCommit) => True
  | .error (.network .streamReaped) => True
  | .error (.network .streamVanished) => True
  | _ => False

section Runs

variable {α : Type} {ctx : ReadContext α} {c : Connection α} {clean : Prop} {t : StreamTrace}
  {sent received pending : List Frame} {total bytes body : Bytes} {stop : Stop}

lemma not_isStreamFault_of_io (h : IsIoError stop) : ¬IsStreamFault stop := by
  obtain ⟨code, rfl⟩ | hmem := h
  · exact id
  · simp only [List.mem_cons, List.not_mem_nil, or_false] at hmem
    obtain rfl | rfl | rfl | rfl | rfl := hmem <;> exact id

lemma not_isStreamFault_of_parse (h : IsParseError stop) : ¬IsStreamFault stop := by
  intro hflt
  unfold IsStreamFault at hflt
  split at hflt <;> first | exact h | exact hflt

variable {inbox : List Segment} {e : ConnectionEvent} {f : Frame}

/-- A frame of the sender is refused only for want of a tombstone, or for
reasons that lie in an inline frame. -/
lemma Matches.not_isStreamFault (h : Matches total c t) (htracks : Tracks clean t)
    (hcomp : Compliant sent) (hsent : AllFit sent) (htot : total <+: sent.flatMap Frame.bytes)
    (hby : inboxBytes c.inbox = bytes ++ inboxBytes inbox)
    (herror : PollError ctx c.reader bytes stop) : ¬IsStreamFault stop := by
  have hs := h.streaming
  -- the frame of the sender whose metadata is complete
  have hnext {kind : WireKind} {bodyLen metaLen : ℕ} {metadata : Bytes}
      (hst : c.reader.state = .readStreamMeta kind bodyLen metadata metaLen)
      (hlen : (metadata ++ bytes).length = metaLen) :
      ∃ cur : Cursor, cur = ⟨kind, metadata ++ bytes, bodyLen - metaLen, []⟩ ∧ cur.Ok ∧
        ∃ f σ σ', cur.Of f ∧ σ.send f = some σ' ∧ At clean t.streaming cur.streamId σ := by
    obtain ⟨hcur, hcby⟩ := cursor_of_meta h.reader hst hlen
    have hph := h.phase
    rw [hst] at hph
    have hph := phaseOf_readStreamMeta hph
    have hpre := htot
    rw [h.bytes, hby, StreamTrace.bytes, hph, Phase.bytes, List.append_assoc,
      ← List.append_assoc _ bytes, ← hcby] at hpre
    obtain ⟨f, post, hpost, hof⟩ := next_of_cursor hsent h.frames hcur hpre
    obtain ⟨σ, hσ, hat⟩ := htracks (Cursor.streamId
      ⟨kind, metadata ++ bytes, bodyLen - metaLen, []⟩)
    rw [hph] at hat
    have hconc := (concerns_of hcur hof _).trans (decide_eq_true rfl)
    obtain ⟨σ', hsend, -⟩ := hcomp.send hpost hσ hconc
    exact ⟨_, rfl, hcur, f, σ, σ', hof, hsend, hat⟩
  cases herror with
  | control _ _ _ hfatal =>
    obtain hmem | ⟨size, rfl⟩ := hfatal
    · simp only [List.mem_cons, List.not_mem_nil, or_false] at hmem
      obtain rfl | rfl | rfl := hmem <;> exact id
    · exact id
  | body _ _ _ hfatal => exact not_isStreamFault_of_parse hfatal
  | start hst hlen hkind hbud =>
    obtain ⟨cur, rfl, hcur, f, σ, σ', hof, hsend, hat⟩ := hnext hst hlen
    obtain ⟨rfl, -, -, -, hval⟩ | ⟨-, hdata, -⟩ := expects_of_start hcur hof hkind hsend
    · rw [hs] at hat
      rw [hbud hat.1 hval]
      exact id
    · rw [isStreamStart_of_data hdata] at hkind
      cases hkind
  | data hst hlen hkind hnone hset =>
    obtain ⟨cur, heq, hcur, f, σ, σ', hof, hsend, hat⟩ := hnext hst hlen
    have hdata : cur.kind.isStreamData = true := heq ▸ hkind
    obtain ⟨totalSize, stride, rfl, hexp⟩ := expects_of_data hcur hof hdata hsend
    have hchunk := Cursor.chunkIndex_of_data hdata
    obtain ⟨hidx, ⟨stream, hget, rfl, hwf, hmarked⟩ | ⟨-, tombstone, hget, -⟩⟩ := hat
    · -- the chunk is not there yet
      obtain ⟨-, hsta, -⟩ | ⟨-, -, hpay⟩ := hexp
      · rw [isStreamStart_of_data hdata] at hsta
        cases hsta
      · have hunset := hmarked _ hidx
        rw [decide_eq_false (Nat.lt_irrefl _)] at hunset
        rw [hs] at hget
        rw [hchunk] at hidx hpay hunset
        subst heq
        rw [hset stream stride hget hwf hidx hpay] at hunset
        cases hunset
    · rw [hs] at hget
      subst heq
      cases hnone.symm.trans hget

/-- The reaper stays within the tombstone budgets. -/
def WithinBudget (c : Connection α) : ConnectionEvent → Prop
  | .poll _ _ => True
  | .cleanup idleTimeout rateWindow minBytesPerWindow clock order =>
    (c.reader.streaming.cleanupStaleWith idleTimeout rateWindow minBytesPerWindow clock order).1 =
      .ok true

/-- No abort is handled for a stream that has a tombstone. -/
def SparesTombstones (ctx : ReadContext α) (c : Connection α) (e : ConnectionEvent) : Prop :=
  ∀ id reason, (c.step ctx e).results = c.results ++ [.streamAbort id reason] →
    c.reader.streaming.rejectedStreams.get id = none

lemma sparesTombstones_of_length (h : (c.step ctx e).results.length = c.results.length) :
    SparesTombstones ctx c e := by
  intro id reason hresults
  have hlen := congrArg List.length hresults
  rw [List.length_append, h] at hlen
  exact absurd hlen (Nat.ne_of_lt (Nat.lt_succ_self _))

/-- A connection that follows its sender. -/
structure Follows (clean : Prop) (total : Bytes) (c : Connection α) : Prop where
  stopped : ∀ stop, c.stopped = some stop → ¬IsStreamFault stop
  trace : c.stopped = none → ∃ t, Matches total c t ∧ Tracks clean t

lemma Follows.step (h : Follows clean total c) (hcomp : Compliant sent) (hsent : AllFit sent)
    (htot : total <+: sent.flatMap Frame.bytes) (hbud : c.stopped = none → WithinBudget c e)
    (hspares : clean → SparesTombstones ctx c e) : Follows clean total (c.step ctx e) := by
  cases hstop : c.stopped with
  | some =>
    rw [step_of_stopped (by rw [hstop]; rfl)]
    exact h
  | none =>
    obtain ⟨t, hmatch, htracks⟩ := h.trace hstop
    cases hnext : (c.step ctx e).stopped with
    | none =>
      have hopen : ∀ stop, (c.step ctx e).stopped = some stop → ¬IsStreamFault stop := by
        intro stop hsome
        cases hnext.symm.trans hsome
      refine ⟨hopen, fun _ => ?_⟩
      obtain hsame | ⟨t', result, hfr, hshows, hresults, hmatch'⟩ |
        ⟨_, _, _, _, _, ok, s, rfl, hcleanup, -, hreaps, hmatch'⟩ := hmatch.step hstop hnext
      · exact ⟨t, hsame, htracks⟩
      · -- a frame was read
        have hby : t'.bytes <+: total := ⟨_, hmatch'.bytes.symm⟩
        refine ⟨t', hmatch', htracks.step hfr hcomp hsent hmatch.wf hmatch'.wf
          (hby.trans htot) ?_⟩
        intro hclean f id hfrs haborts
        obtain ⟨reason, rfl⟩ := hshows f id hfrs haborts
        rw [hmatch.streaming]
        exact hspares hclean id reason hresults
      · -- the reaper
        have hok := hbud hstop
        simp only [WithinBudget, ← hmatch.streaming, hcleanup] at hok
        cases hok
        exact ⟨_, hmatch', htracks.reaps hreaps⟩
    | some =>
      have hcases : StepsTo ctx c e (c.step ctx e) := step_cases hstop hmatch.reader e
      generalize c.step ctx e = c' at hcases hnext ⊢
      cases hcases with
      | failed _ hwhy =>
        refine ⟨?_, nofun⟩
        rintro _ ⟨⟩
        obtain hio | ⟨bytes, hby, herror⟩ := hwhy
        · exact not_isStreamFault_of_io hio
        · exact hmatch.not_isStreamFault htracks hcomp hsent htot hby herror
      | waited | polled | cleaned => cases hstop.symm.trans hnext

lemma Connection.follows (hcomp : Compliant sent)
    (hsent : AllFit sent)
    (hinbox : inboxBytes inbox <+: sent.flatMap Frame.bytes) {n : ℕ} {routes : RouteTable}
    {es : List ConnectionEvent}
    (hmeets : Run.Meets (step ctx) (fun c e => (c.stopped = none → WithinBudget c e) ∧
      (clean → SparesTombstones ctx c e)) (.start (freshStreaming n) routes inbox) es) :
    Follows clean (inboxBytes inbox) (after ctx n routes inbox es) := by
  refine Run.exec_invariant_of_meets (fun c e h hc => h.step hcomp hsent hinbox hc.1 hc.2)
    ⟨nofun, fun _ => ?_⟩ hmeets
  exact ⟨_, matches_start _ routes inbox (wf_freshStreaming n) fun _ => rfl, tracks_start n⟩

/-! ### Between two frames -/

/-- The bytes of a frame up to its payload. -/
def Frame.headLen (f : Frame) : ℕ :=
  lengthPrefixLen + min ((streamMetaLen f.kind).getD f.body.length) f.body.length

lemma Frame.headLen_le (f : Frame) : f.headLen ≤ f.bytes.length := by
  rw [headLen, bytes, List.length_append, length_encodeControl]
  omega

lemma not_whole {kind : WireKind} {len : ℕ} (hf : f.body.length ≤ controlBodyLenMask)
    (hlen : len ≤ controlBodyLenMask) (hbody : body.length < len) :
    ¬f.bytes <+: encodeControl ⟨kind, len⟩ ++ body := by
  rintro ⟨x, hx⟩
  rw [bytes, List.append_assoc] at hx
  obtain ⟨hctl, hrest⟩ := List.append_inj hx (by simp)
  obtain ⟨-, hsame⟩ := Control.mk.inj (encodeControl_inj hf hlen hctl)
  have hle := congrArg List.length hrest
  rw [List.length_append] at hle
  omega

lemma Matches.not_whole (h : Matches total c t) (htracks : Tracks clean t)
    (hf : f.body.length ≤ controlBodyLenMask) : ¬f.bytes <+: t.phase.bytes := by
  have hph := h.phase
  have hwf := h.reader.state
  cases hst : c.reader.state with
  | readLen =>
    rw [hst] at hph hwf
    rw [phaseOf_readLen hph]
    intro hpre
    have hle := hpre.length_le.trans_lt hwf
    rw [Frame.bytes, List.length_append, length_encodeControl] at hle
    omega
  | readBody =>
    rw [hst] at hph hwf
    obtain ⟨hbuf, hbody, kind, hctl, -⟩ := hwf
    obtain ⟨hencode, hmask⟩ := encodeControl_of_decodeControl hbuf hctl
    rw [phaseOf_readBody hph, Phase.bytes, ← hencode]
    exact IcanactRemote.not_whole hf hmask hbody
  | readStreamMeta =>
    rw [hst] at hph hwf
    obtain ⟨-, hmore, hle, hmask⟩ := hwf
    rw [phaseOf_readStreamMeta hph]
    exact IcanactRemote.not_whole hf hmask (by omega)
  | readStreamPayload =>
    rw [hst] at hph
    obtain ⟨cur, offset, hfill, hcur, -, -⟩ := phaseOf_readStreamPayload hph
    obtain ⟨-, hmore, -⟩ := h.wf.filling cur offset hfill
    rw [hfill]
    refine IcanactRemote.not_whole hf hcur.2 ?_
    rw [List.length_append]
    omega
  | discardStreamPayload =>
    rw [hst] at hph
    obtain ⟨cur, marks, hdisc, hcur, -⟩ := phaseOf_discardStreamPayload hph
    obtain ⟨σ, -, hat⟩ := htracks cur.streamId
    rw [hdisc] at hat ⊢
    simp only [AtPhase, if_true] at hat
    refine IcanactRemote.not_whole hf hcur.2 ?_
    rw [List.length_append]
    omega

/-- The reader is between two frames, or in the head of the next one. -/
lemma Matches.between (h : Matches total c t) (htracks : Tracks clean t)
    (hmask : AllFit (received ++ pending))
    (htot : total <+: (received ++ pending).flatMap Frame.bytes)
    (hby : t.bytes = received.flatMap Frame.bytes ++ part)
    (hpart : ∀ f ∈ pending.head?, part.length < f.headLen) :
    t.frames = received ∧ ∃ part, t.phase = .between part := by
  have hpre : t.frames.flatMap Frame.bytes ++ t.phase.bytes <+:
      (received ++ pending).flatMap Frame.bytes := List.IsPrefix.trans ⟨_, h.bytes.symm⟩ htot
  obtain ⟨post, hpost, -⟩ := prefix_frames h.frames hmask hpre
  have hby : t.frames.flatMap Frame.bytes ++ t.phase.bytes =
      received.flatMap Frame.bytes ++ part := hby
  have hfrs : t.frames = received := by
    obtain ⟨more, hmore, hpend⟩ | ⟨more, hmore, hpost⟩ := List.append_eq_append_iff.mp hpost
    · cases more with
      | nil => rw [hmore, List.append_nil]
      | cons f more =>
        -- a frame more was read than there are bytes for
        have hlen := hpart f (by rw [hpend]; rfl)
        rw [hmore, List.flatMap_append, List.append_assoc, List.append_cancel_left_eq,
          List.flatMap_cons] at hby
        have hle := congrArg List.length hby
        have hhead := f.headLen_le
        simp only [List.length_append] at hle
        omega
    · cases more with
      | nil => rw [hmore, List.append_nil]
      | cons f =>
        -- a frame was received that the reader has not finished
        rw [hmore, List.flatMap_append, List.append_assoc, List.append_cancel_left_eq,
          List.flatMap_cons, List.append_assoc] at hby
        have hf : f ∈ received ++ pending := by simp [hmore]
        exact absurd ⟨_, hby.symm⟩ (h.not_whole htracks (hmask f hf))
  rw [hfrs, List.append_cancel_left_eq] at hby
  refine ⟨hfrs, ?_⟩
  -- the head of a frame whose payload is read is in
  have hnot {cur : Cursor} (hcur : cur.Ok) : t.phase.bytes ≠ cur.bytes := by
    intro hcby
    rw [hfrs, hcby, ← List.append_nil cur.bytes] at hpre
    obtain ⟨f, post, hsent, hof⟩ := next_of_cursor hmask (hfrs ▸ h.frames) hcur hpre
    have hpend := List.append_cancel_left hsent
    have hlen := hpart f (by rw [hpend]; rfl)
    rw [Frame.headLen, hof.kind, hcur.1, Option.getD_some, ← hby, hcby, Cursor.bytes,
      List.length_append, List.length_append, length_encodeControl] at hlen
    omega
  cases hph : t.phase with
  | between part => exact ⟨part, rfl⟩
  | filling cur offset =>
    exact absurd (congrArg Phase.bytes hph) (hnot (h.wf.filling cur offset hph).1)
  | discarding cur marks =>
    exact absurd (congrArg Phase.bytes hph) (hnot (h.wf.discarding cur marks hph).1)

lemma Tracks.no_tombstones (h : Tracks True t) (hph : t.phase = .between part)
    (hended : ∀ f ∈ t.frames, f.isStart = true → sentFor f.streamId t.frames = some .ended) :
    t.streaming.rejectedStreams = .empty := by
  refine eq_empty ?_
  intro id
  obtain ⟨σ, hσ, hat⟩ := h id
  rw [hph] at hat
  cases σ with
  | idle => exact hat.2
  | ended => exact hat.2 trivial
  | sending =>
    obtain ⟨f, hf, hsta, rfl⟩ := exists_starts hσ nofun
    cases hσ.symm.trans (hended f hf hsta)

/-- **How long tombstones live.**  The sender keeps to the protocol, the receiver
turns streams away and reaps them at any moment, and the reaper stays within the
budgets.  Then no frame is taken for one of an unknown stream or for a
duplicate.  If moreover no abort is handled for a stream that has a tombstone,
no tombstone is left wherever every start frame has been followed by the last
chunk of its stream or by an abort. -/
theorem Connection.tombstones_while_needed (ctx : ReadContext α) (n : ℕ) (routes : RouteTable)
    (inbox : List Segment) (es : List ConnectionEvent) (sent : List Frame)
    (hcompliant : Compliant sent) (hsent : ∀ f ∈ sent, f.body.length ≤ controlBodyLenMask)
    (hinbox : inboxBytes inbox <+: sent.flatMap Frame.bytes)
    (hbudget : Run.Meets (Connection.step ctx) (fun c e => c.stopped = none → WithinBudget c e)
      (.start (freshStreaming n) routes inbox) es) :
    (∀ stop, (Connection.after ctx n routes inbox es).stopped = some stop →
        ¬IsStreamFault stop) ∧
      (Run.Meets (Connection.step ctx) (SparesTombstones ctx)
          (.start (freshStreaming n) routes inbox) es →
        (Connection.after ctx n routes inbox es).stopped = none →
        ∀ received pending part, sent = received ++ pending →
          inboxBytes inbox = received.flatMap Frame.bytes ++ part ++
            inboxBytes (Connection.after ctx n routes inbox es).inbox →
          (∀ f ∈ pending.head?, part.length < f.headLen) →
          (∀ f ∈ received, f.isStart = true → sentFor f.streamId received = some .ended) →
          (Connection.after ctx n routes inbox es).reader.streaming.rejectedStreams.len = 0 ∧
            (Connection.after ctx n routes inbox es).reader.streaming.rejectedStreamsBitmapWords =
              0) := by
  constructor
  · have hfol : Follows False (inboxBytes inbox) (after ctx n routes inbox es) :=
      follows hcompliant hsent hinbox (hbudget.imp fun _ _ h => ⟨h, False.elim⟩)
    exact hfol.stopped
  · rintro hspares hopen received pending part rfl htaken hpart hended
    have hfol : Follows True (inboxBytes inbox) (after ctx n routes inbox es) :=
      follows hcompliant hsent hinbox
        ((hbudget.and hspares).imp fun _ _ h => ⟨h.1, fun _ => h.2⟩)
    obtain ⟨t, hmatch, htracks⟩ := hfol.trace hopen
    -- nothing of the next frame is looked at, so the reader is between frames
    have hby : t.bytes = received.flatMap bytes ++ part :=
      List.append_cancel_right (hmatch.bytes.symm.trans htaken)
    obtain ⟨rfl, part', hph⟩ := hmatch.between htracks hsent hinbox hby hpart
    have hemp := htracks.no_tombstones hph hended
    have hwords := hmatch.wf.streaming.words
    rw [hemp] at hwords
    rw [hmatch.streaming] at hemp hwords
    rw [hemp]
    exact ⟨rfl, hwords⟩

end Runs

/-! ### A tombstone that stays -/

/-- A start frame of a stream of four bytes, with the first two of them. -/
def halfStart : Frame :=
  ⟨.streamStart, toBe32 7 ++ toBe32 0 ++ toBe32 4 ++ toBe64 1 ++ toBe32 2 ++ [9, 9]⟩

def secondHalf : Frame := ⟨.streamData, toBe32 7 ++ toBe32 1 ++ [9, 9]⟩

def halfAbort : Frame := ⟨.streamAbort, toBe32 7 ++ toBe32 1⟩

/-- A connection that may have no stream at all. -/
def Connection.fullAfter (sent : List Frame) (polls : ℕ) : Connection Unit :=
  .after ⟨fun _ => none, 64⟩ 0 (.withLimit 8) (sent.flatMap Frame.segments)
    (List.replicate polls (.poll true fun _ => 0))

/-- An abort of a stream that was turned away leaves its tombstone. -/
theorem Connection.tombstone_outlives_abort :
    Compliant [halfStart, halfAbort] ∧ sentFor 7 [halfStart, halfAbort] = some .ended ∧
      (fullAfter [halfStart, halfAbort] 5).stopped = none ∧
      (fullAfter [halfStart, halfAbort] 5).inbox = [] ∧
      (fullAfter [halfStart, halfAbort] 5).reader.state = .new ∧
      (fullAfter [halfStart, halfAbort] 5).reader.streaming.rejectedStreams.len = 1 ∧
      (fullAfter [halfStart, halfAbort] 5).reader.streaming.rejectedStreamsBitmapWords = 1 :=
  ⟨compliant_of_stream 7 (by decide) (by decide), by decide, by decide +kernel, by decide +kernel,
    by decide +kernel, by decide +kernel, by decide +kernel⟩

/-- A stream that was turned away and sent to its end. -/
theorem Connection.tombstones_while_needed_at_capacity : Compliant [halfStart, secondHalf] ∧
    (fullAfter [halfStart, secondHalf] 3).reader.streaming.rejectedStreams.len = 1 ∧
    (fullAfter [halfStart, secondHalf] 6).reader.streaming.rejectedStreams.len = 0 := by
  have hcomp : Compliant [halfStart, secondHalf] :=
    compliant_of_stream 7 (by decide) (by decide)
  have hneeded := tombstones_while_needed ⟨fun _ => (none : Option Unit), 64⟩ 0 (.withLimit 8)
    ([halfStart, secondHalf].flatMap segments) (List.replicate 6 (.poll true fun _ => 0))
    [halfStart, secondHalf] hcomp (by decide) (by decide)
    (Run.meets_of_forall_mem (by simp [WithinBudget]) _)
  have hspares : Run.Meets (step ⟨fun _ => (none : Option Unit), 64⟩)
      (SparesTombstones ⟨fun _ => none, 64⟩)
      (.start (freshStreaming 0) (.withLimit 8) ([halfStart, secondHalf].flatMap segments))
      (List.replicate 6 (.poll true fun _ => 0)) :=
    ⟨sparesTombstones_of_length (by decide +kernel), sparesTombstones_of_length (by decide +kernel),
      sparesTombstones_of_length (by decide +kernel), sparesTombstones_of_length
        (by decide +kernel),
      sparesTombstones_of_length (by decide +kernel), sparesTombstones_of_length
        (by decide +kernel),
      trivial⟩
  exact ⟨hcomp, by decide +kernel, (hneeded.2 hspares (by decide +kernel)
    [halfStart, secondHalf] [] [] rfl (by decide +kernel) nofun (by decide)).1⟩

end IcanactRemote
