/-
Bounds and shape of the stream table.

* `ChunkLayout` — how the declared size, the stride, the chunk count and the
  bitmap belong together;
* `StreamingState.Wf` — the bounds and the shape every reachable table has;
* `beginV5StreamOrDiscard_cases`, `reserveV5ChunkOrDiscard_cases`,
  `commitV5Chunk_cases`, `cleanupStaleWith_spec` — everything these calls can do
  to such a table, with the lemma that they keep it so.
-/
import IcanactRemote.StreamingState

namespace IcanactRemote

open RejectedStreamTombstone Table Bitmap Option Nat

/-! ### Chunk counts -/

lemma lt_divCeil {a b i : ℕ} (hb : 0 < b) : i < divCeil a b ↔ i * b < a := by
  rw [divCeil, lt_iff_add_one_le, le_div_iff_mul_le hb, add_mul, one_mul]
  omega

lemma divCeil_pos {a b : ℕ} (ha : 0 < a) (hb : 0 < b) : 0 < divCeil a b := by
  rw [lt_divCeil hb]
  omega

lemma word_lt_divCeil {i n : ℕ} (h : i < n) : i / 64 < divCeil n 64 := by
  rw [lt_divCeil (by omega)]
  omega

lemma div_le_divCeil {n : ℕ} : n / 64 ≤ divCeil n 64 := by
  rw [divCeil]
  omega

/-- The bitmap test that the code spells out word by word. -/
lemma allChunksReceived_some {totalSize expected : ℕ} {receivedChunks : Bitmap 64}
    (hwords : receivedChunks.length = divCeil expected 64) :
    allChunksReceived totalSize (some expected) receivedChunks =
      .ok (receivedChunks.prefixSet expected) := by
  have hlen : expected / 64 ≤ receivedChunks.length := by
    rw [hwords]
    exact div_le_divCeil
  have hall : (receivedChunks.take (expected / 64)).all (· = BitVec.allOnes 64) =
      !(receivedChunks.take (expected / 64)).any (· ≠ BitVec.allOnes 64) := by
    simp [List.all_eq_not_any_not]
  by_cases h0 : expected = 0
  · subst h0
    simp [allChunksReceived, prefixSet]
  · rw [allChunksReceived, if_neg h0, if_neg (by omega), prefixSet, hall]
    cases (receivedChunks.take (expected / 64)).any (· ≠ BitVec.allOnes 64) with
    | true => rfl
    | false =>
      by_cases hmod : expected % 64 = 0
      · simp [hmod]
      · have hlast : expected / 64 < receivedChunks.length := by
          rw [hwords, divCeil]
          omega
        rw [if_neg (by simp), if_neg hmod, List.getElem?_eq_getElem hlast,
          List.getD_eq_getElem?_getD, List.getElem?_eq_getElem hlast]
        simp [hmod]

/-- How a stream of `totalSize` bytes is cut: chunks of `stride` bytes, the last
one perhaps shorter, and a bit for each. -/
structure ChunkLayout (totalSize stride : ℕ) (chunkStride expectedChunks : Option ℕ)
    (receivedChunks : Bitmap 64) : Prop where
  known : chunkStride = some stride
  pos : 0 < stride
  le : stride ≤ totalSize
  expected : expectedChunks = some (divCeil totalSize stride)
  words : receivedChunks.length = divCeil (divCeil totalSize stride) 64

namespace ChunkLayout

variable {totalSize stride i : ℕ} {chunkStride expectedChunks : Option ℕ}
  {receivedChunks : Bitmap 64}

variable (h : ChunkLayout totalSize stride chunkStride expectedChunks receivedChunks)
include h

lemma mark (i : ℕ) :
    ChunkLayout totalSize stride chunkStride expectedChunks (receivedChunks.mark i) :=
  { h with words := (length_mark ..).trans h.words }

lemma allChunksReceived_eq : allChunksReceived totalSize expectedChunks receivedChunks =
    .ok (receivedChunks.prefixSet (divCeil totalSize stride)) := by
  rw [h.expected, allChunksReceived_some h.words]

lemma prefixSet_iff : receivedChunks.prefixSet (divCeil totalSize stride) = true ↔
    ∀ i < divCeil totalSize stride, receivedChunks.test i = true := by
  apply Bitmap.prefixSet_iff (by omega)
  rw [h.words]
  exact div_le_divCeil

lemma missing_of_prefixSet_eq_false
    (hnot : receivedChunks.prefixSet (divCeil totalSize stride) = false) :
    ∃ i < divCeil totalSize stride, receivedChunks.test i = false := by
  by_contra hall
  have htrue := h.prefixSet_iff.mpr fun i hi => by
    cases hi' : receivedChunks.test i with
    | true => rfl
    | false => exact absurd ⟨i, hi, hi'⟩ hall
  rw [hnot] at htrue
  cases htrue

lemma prefixSet_eq_false (hmiss : ∃ i < divCeil totalSize stride, receivedChunks.test i = false) :
    receivedChunks.prefixSet (divCeil totalSize stride) = false := by
  obtain ⟨i, hi, hfalse⟩ := hmiss
  cases hall : receivedChunks.prefixSet (divCeil totalSize stride) with
  | false => rfl
  | true =>
    rw [h.prefixSet_iff.mp hall i hi] at hfalse
    cases hfalse

lemma count_pos : 0 < divCeil totalSize stride := divCeil_pos (lt_of_lt_of_le h.pos h.le) h.pos

lemma word (hi : i < divCeil totalSize stride) : ∃ word, receivedChunks[i / 64]? = some word ∧
    word.getLsbD (i % 64) = receivedChunks.test i := by
  have hlt : i / 64 < receivedChunks.length := by
    rw [h.words]
    exact word_lt_divCeil hi
  refine ⟨receivedChunks[i / 64], List.getElem?_eq_getElem hlt, ?_⟩
  rw [test, List.getD_eq_getElem?_getD, List.getElem?_eq_getElem hlt, getD_some]

lemma test_mark (hi : i < divCeil totalSize stride) (j : ℕ) :
    (receivedChunks.mark i).test j = (receivedChunks.test j || decide (i = j)) := by
  have hlt : i / 64 < receivedChunks.length := by
    rw [h.words]
    exact word_lt_divCeil hi
  rw [Bitmap.test_mark (by omega), decide_eq_true hlt, Bool.and_true]

end ChunkLayout

lemma chunkLayout_zeros {totalSize stride : ℕ} (hpos : 0 < stride) (hle : stride ≤ totalSize) :
    ChunkLayout totalSize stride (some stride) (some (divCeil totalSize stride))
      (.zeros 64 (divCeil (divCeil totalSize stride) 64)) :=
  ⟨rfl, hpos, hle, rfl, length_zeros _⟩

/-! ### The invariant -/

/-- A stream in progress. -/
structure InProgressStream.Wf (stream : InProgressStream) (stride : ℕ) : Prop where
  layout : ChunkLayout stream.totalSize stride stream.chunkStride stream.expectedChunks
    stream.receivedChunks
  size : stream.totalSize ≤ maxStreamSize
  buffer : stream.buffer.length = stream.totalSize
  missing : ∃ i < divCeil stream.totalSize stride, stream.receivedChunks.test i = false

/-- A tombstone: the layout of its stream, with a chunk still to come. -/
structure RejectedStreamTombstone.Wf (t : RejectedStreamTombstone) (stride : ℕ) : Prop where
  layout : ChunkLayout t.totalSize stride t.chunkStride t.expectedChunks t.receivedChunks
  missing : ∃ i < divCeil t.totalSize stride, t.receivedChunks.test i = false

namespace StreamingState

/-- The bounds of the table and the shape of its entries. -/
structure Wf (s : StreamingState) : Prop where
  streams : s.activeStreams.len ≤ s.maxConcurrentStreams
  bytes : s.activeStreams.total (·.totalSize) ≤ maxInflightStreamBytes
  words : s.rejectedStreamsBitmapWords = s.rejectedStreams.total (·.receivedChunks.length)
  wordBudget : s.rejectedStreamsBitmapWords ≤ rejectedStreamsBitmapWordBudget
  entries : s.rejectedStreams.len ≤ rejectedStreamsEntryBudget
  apart : ∀ streamId stream, s.activeStreams.get streamId = some stream →
    s.rejectedStreams.get streamId = none
  active : ∀ streamId stream, s.activeStreams.get streamId = some stream →
    stream.streamId = streamId ∧ ∃ stride, stream.Wf stride
  tombstones : ∀ streamId t, s.rejectedStreams.get streamId = some t → ∃ stride, t.Wf stride

lemma wf_new : new.Wf where
  streams := zero_le _
  bytes := zero_le _
  words := rfl
  wordBudget := zero_le _
  entries := zero_le _
  apart streamId stream h := by cases h
  active streamId stream h := by cases h
  tombstones streamId t h := by cases h

variable {s : StreamingState} {streamId newWords words : ℕ}

/-! ### Tombstones -/

variable (s)

lemma get_removeTombstone (streamId id : ℕ) : (s.removeTombstone streamId).rejectedStreams.get id =
    if id = streamId then none else s.rejectedStreams.get id := by
  unfold removeTombstone
  split
  next hnone =>
    split
    next heq =>
      rw [heq, hnone]
    · rfl
  · exact get_remove ..

@[simp] lemma activeStreams_removeTombstone (streamId : ℕ) :
    (s.removeTombstone streamId).activeStreams = s.activeStreams := by
  unfold removeTombstone
  split <;> rfl

@[simp] lemma maxConcurrentStreams_removeTombstone (streamId : ℕ) :
    (s.removeTombstone streamId).maxConcurrentStreams = s.maxConcurrentStreams := by
  unfold removeTombstone
  split <;> rfl

variable {s}

lemma Wf.removeTombstone (h : s.Wf) (streamId : ℕ) : (s.removeTombstone streamId).Wf := by
  have hget := get_removeTombstone s streamId
  cases hsome : s.rejectedStreams.get streamId with
  | none =>
    have heq : s.removeTombstone streamId = s := by
      unfold StreamingState.removeTombstone
      rw [hsome]
    rw [heq]
    exact h
  | some t =>
    have heq : s.removeTombstone streamId = { s with
          rejectedStreams := s.rejectedStreams.remove streamId
          rejectedStreamsBitmapWords :=
            s.rejectedStreamsBitmapWords - t.receivedChunks.length } := by
      unfold StreamingState.removeTombstone
      rw [hsome]
    have hwords := h.words
    have htot := total_remove (w := (·.receivedChunks.length)) hsome
    have hbud := h.wordBudget
    have hlen := len_remove hsome
    have hent := h.entries
    rw [heq] at hget ⊢
    refine { h with words := ?_, wordBudget := ?_, entries := ?_, apart := ?_, tombstones := ?_ }
    · show s.rejectedStreamsBitmapWords - t.receivedChunks.length =
        (s.rejectedStreams.remove streamId).total (·.receivedChunks.length)
      omega
    · show s.rejectedStreamsBitmapWords - t.receivedChunks.length ≤ _
      omega
    · show (s.rejectedStreams.remove streamId).len ≤ _
      omega
    · intro id stream hact
      rw [hget]
      split
      · rfl
      · exact h.apart id stream hact
    · intro id t' ht'
      rw [hget] at ht'
      split at ht'
      · cases ht'
      · exact h.tombstones id t' ht'

/-- Everything `projectedBitmapWords` can answer for a stream without tombstone. -/
lemma projectedBitmapWords_eq_some (hnone : s.rejectedStreams.get streamId = none)
    (h : s.projectedBitmapWords streamId newWords = some words) :
    s.rejectedStreams.len < rejectedStreamsEntryBudget ∧
      words = s.rejectedStreamsBitmapWords + newWords ∧
      words ≤ rejectedStreamsBitmapWordBudget := by
  have hcont : s.rejectedStreams.containsKey streamId = false := containsKey_eq_false.mpr hnone
  unfold projectedBitmapWords at h
  rw [hcont, hnone] at h
  dsimp only at h
  split at h
  · cases h
  next hlen =>
    split at h
    next hle =>
      have hsat : saturatingAdd (s.rejectedStreamsBitmapWords - 0) newWords =
          s.rejectedStreamsBitmapWords + newWords := by
        have hmax : usizeMax = 18446744073709551615 := by decide
        have hbud : rejectedStreamsBitmapWordBudget = 131072 := rfl
        unfold saturatingAdd at hle ⊢
        omega
      rw [hsat] at h hle
      cases h
      refine ⟨?_, rfl, hle⟩
      simpa using hlen
    · cases h

variable {t t' : RejectedStreamTombstone}

variable {stride : ℕ} {r : StreamChunkReservation} {s' : StreamingState}
  {id chunkIndex idleTimeout rateWindow minBytesPerWindow startedAt progressed : ℕ}

/-- A tombstone is inserted within the budgets, or not at all. -/
lemma Wf.tryInsertTombstone (h : s.Wf) (hact : s.activeStreams.get streamId = none)
    (hnone : s.rejectedStreams.get streamId = none) (ht : t.Wf stride) :
    (s.tryInsertTombstone streamId t).2.Wf := by
  unfold StreamingState.tryInsertTombstone
  split
  · exact h
  next words hwords =>
    -- the projection has checked both budgets
    obtain ⟨hlen, heq, hbud⟩ := projectedBitmapWords_eq_some hnone hwords
    have hget := get_insert s.rejectedStreams streamId t
    refine { h with
      words := ?_, wordBudget := hbud, entries := ?_, apart := ?_, tombstones := ?_ }
    · show words = (s.rejectedStreams.insert streamId t).total _
      rw [total_insert hnone, heq, h.words]
      omega
    · show (s.rejectedStreams.insert streamId t).len ≤ _
      rw [len_insert hnone]
      omega
    · intro id stream hid
      rw [hget]
      split
      next hsame =>
        rw [hsame, hact] at hid
        cases hid
      · exact h.apart id stream hid
    · intro id t' ht'
      have ht' := (hget id).symm.trans ht'
      split at ht'
      · cases ht'
        exact ⟨stride, ht⟩
      · exact h.tombstones id t' ht'

lemma Wf.setTombstone (h : s.Wf) (hget : s.rejectedStreams.get streamId = some t)
    (hlen : t'.receivedChunks.length = t.receivedChunks.length) (ht' : t'.Wf stride) :
    (s.setTombstone streamId t').Wf := by
  have hget' := get_modify s.rejectedStreams streamId fun _ => t'
  refine { h with words := ?_, entries := ?_, apart := ?_, tombstones := ?_ }
  · show s.rejectedStreamsBitmapWords = (s.rejectedStreams.modify streamId fun _ => t').total _
    rw [total_modify, h.words]
    intro v hv
    rw [hget] at hv
    cases hv
    exact hlen
  · show (s.rejectedStreams.modify streamId fun _ => t').len ≤ _
    rw [len_modify]
    exact h.entries
  · intro id stream hact
    show (s.rejectedStreams.modify streamId fun _ => t').get id = none
    rw [hget']
    split
    next heq =>
      have hnone := h.apart id stream hact
      rw [heq, hget] at hnone
      cases hnone
    · exact h.apart id stream hact
  · intro id u hu
    have hu := (hget' id).symm.trans hu
    split at hu
    · rw [hget] at hu
      cases hu
      exact ⟨stride, ht'⟩
    · exact h.tombstones id u hu

lemma removeTombstone_setTombstone (hget : s.rejectedStreams.get streamId = some t)
    (hlen : t'.receivedChunks.length = t.receivedChunks.length) :
    (s.setTombstone streamId t').removeTombstone streamId = s.removeTombstone streamId := by
  have hget' : (s.rejectedStreams.modify streamId fun _ => t').get streamId = some t' := by
    rw [get_modify, if_pos rfl, hget]
    rfl
  simp only [removeTombstone, setTombstone, hget', hget, remove_modify, hlen]

/-- **Marking a tombstone**: it gains the mark, or goes with its last chunk. -/
theorem markTombstone_spec (hget : s.rejectedStreams.get streamId = some t) (ht : t.Wf stride)
    (chunkIndex : ℕ) :
    ((∀ i < divCeil t.totalSize stride, (t.receivedChunks.mark chunkIndex).test i = true) ∧
        s.markTombstone streamId chunkIndex = (.ok (), s.removeTombstone streamId)) ∨
      ((t.markChunkReceived chunkIndex).Wf stride ∧
        s.markTombstone streamId chunkIndex =
          (.ok (), s.setTombstone streamId (t.markChunkReceived chunkIndex))) := by
  have hlay := ht.layout.mark chunkIndex
  have hcmpl : (t.markChunkReceived chunkIndex).isComplete =
      .ok ((t.receivedChunks.mark chunkIndex).prefixSet (divCeil t.totalSize stride)) :=
    hlay.allChunksReceived_eq
  cases hall : (t.receivedChunks.mark chunkIndex).prefixSet (divCeil t.totalSize stride) with
  | true =>
    refine .inl ⟨hlay.prefixSet_iff.mp hall, ?_⟩
    simp only [markTombstone, hget, hcmpl, hall]
    rw [removeTombstone_setTombstone hget (length_mark ..)]
  | false =>
    refine .inr ⟨⟨hlay, hlay.missing_of_prefixSet_eq_false hall⟩, ?_⟩
    simp only [markTombstone, hget, hcmpl, hall]

lemma markTombstone_of_none (hget : s.rejectedStreams.get streamId = none) (chunkIndex : ℕ) :
    s.markTombstone streamId chunkIndex = (.ok (), s) := by
  simp only [markTombstone, hget]

lemma Wf.markTombstone (h : s.Wf) (streamId chunkIndex : ℕ) :
    ∃ s', s.markTombstone streamId chunkIndex = (.ok (), s') ∧ s'.Wf ∧
      s'.activeStreams = s.activeStreams ∧
      s'.maxConcurrentStreams = s.maxConcurrentStreams := by
  cases hget : s.rejectedStreams.get streamId with
  | none => exact ⟨s, markTombstone_of_none hget chunkIndex, h, rfl, rfl⟩
  | some t =>
    obtain ⟨stride, ht⟩ := h.tombstones streamId t hget
    obtain ⟨-, heq⟩ | ⟨ht', heq⟩ := markTombstone_spec hget ht chunkIndex
    · exact ⟨_, heq, h.removeTombstone streamId, activeStreams_removeTombstone ..,
        maxConcurrentStreams_removeTombstone ..⟩
    · exact ⟨_, heq, h.setTombstone hget (length_mark ..) ht', rfl, rfl⟩

lemma Wf.of_markTombstone (h : s.Wf) (hmark : s.markTombstone streamId chunkIndex = (.ok (), s')) :
    s'.Wf ∧ s'.activeStreams = s.activeStreams ∧
      s'.maxConcurrentStreams = s.maxConcurrentStreams := by
  obtain ⟨s₁, hmark₁, hwf⟩ := h.markTombstone streamId chunkIndex
  rw [hmark] at hmark₁
  cases hmark₁
  exact hwf

lemma tryInsertTombstone_eq_true (h : s.tryInsertTombstone streamId t = (true, s')) :
    s'.activeStreams = s.activeStreams ∧ s'.maxConcurrentStreams = s.maxConcurrentStreams ∧
      ∀ id, s'.rejectedStreams.get id =
        if id = streamId then some t else s.rejectedStreams.get id := by
  unfold tryInsertTombstone at h
  split at h
  · cases h
  · cases h
    exact ⟨rfl, rfl, fun id => get_insert ..⟩

/-! ### Starting a stream -/

variable {stream stream' : InProgressStream}

lemma Wf.insertActive (h : s.Wf) (hnone : s.activeStreams.get streamId = none)
    (hgone : s.rejectedStreams.get streamId = none) (hid : stream.streamId = streamId)
    (hstr : stream.Wf stride) (hlen : s.activeStreams.len < s.maxConcurrentStreams)
    (hby : s.activeStreams.total (·.totalSize) + stream.totalSize ≤ maxInflightStreamBytes) :
    (s.insertActive streamId stream).Wf := by
  have hget := get_insert s.activeStreams streamId stream
  refine { h with streams := ?_, bytes := ?_, apart := ?_, active := ?_ }
  · show (s.activeStreams.insert streamId stream).len ≤ s.maxConcurrentStreams
    rw [len_insert hnone]
    omega
  · show (s.activeStreams.insert streamId stream).total (·.totalSize) ≤ _
    rw [total_insert hnone]
    omega
  · intro id other hoth
    have hoth := (hget id).symm.trans hoth
    split at hoth
    next heq =>
      rw [heq]
      exact hgone
    · exact h.apart id other hoth
  · intro id other hoth
    have hoth := (hget id).symm.trans hoth
    split at hoth
    next heq =>
      cases hoth
      exact ⟨hid.trans heq.symm, stride, hstr⟩
    · exact h.active id other hoth

/-- What a start frame has to declare. -/
structure ValidStart (header : StreamHeader) (firstChunkLen : ℕ) : Prop where
  pos : 0 < firstChunkLen
  le : firstChunkLen ≤ header.totalSize
  size : header.totalSize ≤ maxStreamSize

/-- The entry of a stream whose first chunk is about to be read. -/
def startedStream (clock : ℕ → Instant) (header : StreamHeader) (correlationId : UInt32)
    (isResponse : Bool) (firstChunkLen : ℕ) : InProgressStream :=
  (newStream clock header correlationId isResponse).establishStride firstChunkLen

section Start

variable {clock : ℕ → Instant} {header : StreamHeader} {correlationId : UInt32}
  {isResponse : Bool} {firstChunkLen chunkLen : ℕ}

section

variable (h : ValidStart header firstChunkLen)
include h

lemma startedStream_wf :
    (startedStream clock header correlationId isResponse firstChunkLen).Wf firstChunkLen where
  layout := chunkLayout_zeros h.pos h.le
  size := h.size
  buffer := List.length_replicate
  missing := ⟨0, divCeil_pos (lt_of_lt_of_le h.pos h.le) h.pos, test_zeros ..⟩

lemma rejected_eq : rejected header.totalSize firstChunkLen =
    ⟨header.totalSize, some firstChunkLen, some (divCeil header.totalSize firstChunkLen),
      (zeros 64 (divCeil (divCeil header.totalSize firstChunkLen) 64)).mark 0⟩ := by
  have hne : ¬(firstChunkLen = 0) := pos_iff_ne_zero.mp h.pos
  simp [rejected, establishStride, markChunkReceived, hne, expectedChunkCount, bitmapWordsFor]

lemma rejected_layout : ChunkLayout header.totalSize firstChunkLen
    (rejected header.totalSize firstChunkLen).chunkStride
    (rejected header.totalSize firstChunkLen).expectedChunks
    (rejected header.totalSize firstChunkLen).receivedChunks := by
  rw [rejected_eq h]
  exact (chunkLayout_zeros h.pos h.le).mark 0

end

lemma totalSize_rejected (totalSize firstChunkLen : ℕ) :
    (rejected totalSize firstChunkLen).totalSize = totalSize := by
  unfold rejected establishStride
  split <;> rfl

lemma test_rejected (h : ValidStart header firstChunkLen) (i : ℕ) :
    (rejected header.totalSize firstChunkLen).receivedChunks.test i =
      decide (i = 0) := by
  have hpos := h.pos
  have hle := h.le
  have hcnt : 0 < divCeil header.totalSize firstChunkLen := divCeil_pos (by omega) hpos
  rw [rejected_eq h, (chunkLayout_zeros hpos hle).test_mark hcnt, test_zeros, Bool.false_or]
  exact decide_eq_decide.mpr eq_comm

lemma rejected_wf (h : ValidStart header firstChunkLen)
    (hcnt : 1 < divCeil header.totalSize firstChunkLen) :
    (rejected header.totalSize firstChunkLen).Wf firstChunkLen where
  layout := by
    rw [totalSize_rejected]
    exact rejected_layout h
  missing := by
    rw [totalSize_rejected]
    -- the second chunk is still to come
    refine ⟨1, hcnt, ?_⟩
    rw [test_rejected h]
    rfl

lemma reserveV5Chunk_eq {stride : ℕ} (chunkIndex : ℕ)
    (hget : s.activeStreams.get streamId = some stream) (hlen : chunkLen ≠ 0)
    (hwf : (stream.establishStride chunkLen).Wf stride) :
    s.reserveV5Chunk streamId chunkIndex chunkLen =
      if chunkIndex ≥ divCeil (stream.establishStride chunkLen).totalSize stride then
        (.error (networkError .chunkIndexOutOfRange),
          s.modifyActive streamId fun _ => stream.establishStride chunkLen)
      else if chunkLen ≠
          min ((stream.establishStride chunkLen).totalSize - chunkIndex * stride) stride then
        (.error (networkError .chunkLengthMismatch),
          s.modifyActive streamId fun _ => stream.establishStride chunkLen)
      else if (stream.establishStride chunkLen).receivedChunks.test chunkIndex then
        (.error (networkError .duplicateChunk),
          (s.modifyActive streamId fun _ => stream.establishStride chunkLen).modifyActive streamId
            InProgressStream.countDuplicate)
      else
        (.ok ⟨streamId, chunkIndex, chunkIndex * stride, chunkLen⟩,
          s.modifyActive streamId fun _ => stream.establishStride chunkLen) := by
  have hlay := hwf.layout
  simp only [reserveV5Chunk, hget, if_neg hlen, hlay.known, hlay.expected]
  by_cases hrange : chunkIndex ≥ divCeil (stream.establishStride chunkLen).totalSize stride
  · rw [if_pos hrange, if_pos hrange]
  · have hlt : chunkIndex * stride < (stream.establishStride chunkLen).totalSize :=
      (lt_divCeil hlay.pos).mp (by omega)
    have hsize := hwf.size
    have hmax : maxStreamSize = 67108864 := by decide
    have husize : usizeMax = 18446744073709551615 := by decide
    obtain ⟨word, hword, hbit⟩ := hlay.word (Nat.lt_of_not_le hrange)
    rw [if_neg hrange, if_neg hrange, if_neg (by omega), subLen_of_le (by omega)]
    simp [hword, hbit]

lemma reserveV5Chunk_first (h : ValidStart header firstChunkLen) : (s.insertActive header.streamId
      (newStream clock header correlationId isResponse)).reserveV5Chunk
    header.streamId 0 firstChunkLen =
    (.ok ⟨header.streamId, 0, 0, firstChunkLen⟩, s.insertActive header.streamId
      (startedStream clock header correlationId isResponse firstChunkLen)) := by
  have hpos := h.pos
  have hle := h.le
  have hget : (s.insertActive header.streamId
      (newStream clock header correlationId isResponse)).activeStreams.get header.streamId =
      some (newStream clock header correlationId isResponse) :=
    (get_insert ..).trans (if_pos rfl)
  have hmod : (s.insertActive header.streamId
      (newStream clock header correlationId isResponse)).modifyActive header.streamId
        (fun _ => startedStream clock header correlationId isResponse firstChunkLen) =
      s.insertActive header.streamId
        (startedStream clock header correlationId isResponse firstChunkLen) := by
    unfold modifyActive insertActive
    rw [modify_insert]
  have hcnt : ¬(0 ≥ divCeil header.totalSize firstChunkLen) := by
    have := divCeil_pos (a := header.totalSize) (b := firstChunkLen) (by omega) hpos
    omega
  have hmin : firstChunkLen = min (header.totalSize - 0 * firstChunkLen) firstChunkLen := by omega
  have hbit : (startedStream clock header correlationId isResponse
      firstChunkLen).receivedChunks.test 0 = false := test_zeros ..
  have htot : (startedStream clock header correlationId isResponse firstChunkLen).totalSize =
      header.totalSize := rfl
  rw [reserveV5Chunk_eq 0 hget (by omega) (startedStream_wf h), ← startedStream, htot,
    if_neg hcnt, if_neg (not_not.mpr hmin), hbit, if_neg (by simp), hmod, zero_mul]

lemma startStream_cases (header : StreamHeader) :
    (∃ stream, s.activeStreams.get header.streamId = some stream ∧
        s.startStream clock header correlationId isResponse = (.ok (), s)) ∨
      (s.activeStreams.get header.streamId = none ∧ header.totalSize > maxStreamSize ∧
        s.startStream clock header correlationId isResponse =
          (.error (networkError (.streamSizeExceeds header.totalSize)), s)) ∨
      (s.activeStreams.get header.streamId = none ∧ header.totalSize ≤ maxStreamSize ∧
        ∃ e, isResourceBusy e = true ∧
          s.startStream clock header correlationId isResponse = (.error e, s)) ∨
      (s.activeStreams.get header.streamId = none ∧ header.totalSize ≤ maxStreamSize ∧
        s.activeStreams.len < s.maxConcurrentStreams ∧
        s.activeStreams.total (·.totalSize) + header.totalSize ≤ maxInflightStreamBytes ∧
        s.startStream clock header correlationId isResponse =
          (.ok (), s.insertActive header.streamId
            (newStream clock header correlationId isResponse))) := by
  cases hget : s.activeStreams.get header.streamId with
  | some stream =>
    have hcont : s.activeStreams.containsKey header.streamId = true :=
      containsKey_eq_true.mpr ⟨stream, hget⟩
    exact .inl ⟨stream, rfl, by simp only [startStream, hcont, if_true]⟩
  | none =>
    have hcont : s.activeStreams.containsKey header.streamId = false :=
      containsKey_eq_false.mpr hget
    refine .inr ?_
    by_cases hsize : header.totalSize > maxStreamSize
    · exact .inl ⟨rfl, hsize, by simp [startStream, hcont, hsize]⟩
    · refine .inr ?_
      by_cases hfull : s.activeStreams.len ≥ s.maxConcurrentStreams
      · refine .inl ⟨rfl, by omega, networkError .tooManyConcurrentStreams, rfl, ?_⟩
        simp [startStream, hcont, hsize, hfull]
      · by_cases hbud : saturatingAdd (s.activeStreams.total (·.totalSize)) header.totalSize >
            maxInflightStreamBytes
        · refine .inl ⟨rfl, by omega, networkError (.inflightBudgetExceeded
            (s.activeStreams.total (·.totalSize)) header.totalSize), rfl, ?_⟩
          simp [startStream, hcont, hsize, hfull, hbud]
        · refine .inr ⟨rfl, by omega, by omega, ?_, ?_⟩
          · have hmax : maxInflightStreamBytes = 134217728 := by decide
            have husize : usizeMax = 18446744073709551615 := by decide
            unfold saturatingAdd at hbud
            omega
          · simp [startStream, hcont, hsize, hfull, hbud]

lemma reserveV5Chunk_duplicate (h : s.Wf) (hget : s.activeStreams.get streamId = some stream)
    (hzero : stream.receivedChunks.test 0 = true) (chunkLen : ℕ) :
    ∃ e s', s.reserveV5Chunk streamId 0 chunkLen = (.error e, s') ∧ e ≠ .fault ∧
      isResourceBusy e = false := by
  by_cases hlen : chunkLen = 0
  · exact ⟨networkError .emptyStreamChunk, s, by simp only [reserveV5Chunk, hget, if_pos hlen],
      by rintro ⟨⟩, rfl⟩
  · obtain ⟨-, stride, hwf⟩ := h.active streamId stream hget
    -- the first chunk is in, so the stride is known
    have hsame : stream.establishStride chunkLen = stream := by
      unfold InProgressStream.establishStride
      rw [hwf.layout.known]
    have heq := reserveV5Chunk_eq 0 hget hlen (by rw [hsame]; exact hwf)
    rw [hsame] at heq
    rw [heq]
    split
    · exact ⟨_, _, rfl, by rintro ⟨⟩, rfl⟩
    · split <;> exact ⟨_, _, rfl, by rintro ⟨⟩, rfl⟩

/-- Everything `beginV5Stream` can do to a table whose streams have their first
chunk. -/
lemma beginV5Stream_cases (h : s.Wf) (clock : ℕ → Instant) (header : StreamHeader)
    (correlationId : UInt32) (isResponse : Bool) (firstChunkLen : ℕ)
    (hzero : ∀ stream, s.activeStreams.get header.streamId = some stream →
      stream.receivedChunks.test 0 = true) :
    (∃ e s', s.beginV5Stream clock header correlationId isResponse firstChunkLen =
          (.error e, s') ∧ e ≠ .fault ∧ isResourceBusy e = false ∧
          ¬(s.activeStreams.get header.streamId = none ∧ ValidStart header firstChunkLen)) ∨
      (s.activeStreams.get header.streamId = none ∧ ValidStart header firstChunkLen ∧
        ∃ e, isResourceBusy e = true ∧
          s.beginV5Stream clock header correlationId isResponse firstChunkLen = (.error e, s)) ∨
      (s.activeStreams.get header.streamId = none ∧ ValidStart header firstChunkLen ∧
        s.activeStreams.len < s.maxConcurrentStreams ∧
        s.activeStreams.total (·.totalSize) + header.totalSize ≤ maxInflightStreamBytes ∧
        s.beginV5Stream clock header correlationId isResponse firstChunkLen =
          (.ok ⟨header.streamId, 0, 0, firstChunkLen⟩, s.insertActive header.streamId
            (startedStream clock header correlationId isResponse firstChunkLen))) := by
  by_cases hemp : firstChunkLen = 0
  · refine .inl ⟨networkError .emptyStreamChunk, s, by simp only [beginV5Stream, if_pos hemp],
      by rintro ⟨⟩, rfl, ?_⟩
    rintro ⟨-, hval⟩
    have := hval.pos
    omega
  · by_cases hlong : firstChunkLen > header.totalSize
    · refine .inl ⟨networkError .invalidFirstChunkLength, s,
        by simp only [beginV5Stream, if_neg hemp, if_pos hlong], by rintro ⟨⟩, rfl, ?_⟩
      rintro ⟨-, hval⟩
      have := hval.le
      omega
    · rw [beginV5Stream, if_neg hemp, if_neg hlong]
      obtain ⟨stream, hget, heq⟩ | ⟨hnone, hsize, heq⟩ | ⟨hnone, hsize, e, hbusy, heq⟩ |
        ⟨hnone, hsize, hlen, hby, heq⟩ :=
          startStream_cases header
      · -- the id is taken: the first chunk is a duplicate
        obtain ⟨e, s', hdup, hne, hbusy⟩ :=
          reserveV5Chunk_duplicate h hget (hzero stream hget) firstChunkLen
        rw [heq]
        refine .inl ⟨e, s', hdup, hne, hbusy, ?_⟩
        rintro ⟨hnone, -⟩
        rw [hget] at hnone
        cases hnone
      · rw [heq]
        refine .inl ⟨_, _, rfl, by rintro ⟨⟩, rfl, ?_⟩
        rintro ⟨-, hval⟩
        have := hval.size
        omega
      · rw [heq]
        exact .inr (.inl ⟨hnone, ⟨by omega, by omega, hsize⟩, e, hbusy, rfl⟩)
      · rw [heq]
        have hval : ValidStart header firstChunkLen := ⟨by omega, by omega, hsize⟩
        exact .inr (.inr ⟨hnone, hval, hlen, hby, reserveV5Chunk_first hval⟩)

/-- Everything `rejectStream` can do for a stream that has no tombstone. -/
lemma rejectStream_cases (hnone : s.rejectedStreams.get header.streamId = none)
    (hval : ValidStart header firstChunkLen) : (divCeil header.totalSize firstChunkLen ≤ 1 ∧
        s.rejectStream header.streamId header.totalSize firstChunkLen = (.ok true, s)) ∨
      (1 < divCeil header.totalSize firstChunkLen ∧
        s.rejectStream header.streamId header.totalSize firstChunkLen = (.ok false, s)) ∨
      (1 < divCeil header.totalSize firstChunkLen ∧
        s.tryInsertTombstone header.streamId
            (rejected header.totalSize firstChunkLen) =
          (true, (s.tryInsertTombstone header.streamId
            (rejected header.totalSize firstChunkLen)).2) ∧
        s.rejectStream header.streamId header.totalSize firstChunkLen =
          (.ok true, (s.tryInsertTombstone header.streamId
            (rejected header.totalSize firstChunkLen)).2)) := by
  have hpos := hval.pos
  have hne : ¬(firstChunkLen = 0) := by omega
  by_cases hcnt : divCeil header.totalSize firstChunkLen ≤ 1
  · refine .inl ⟨hcnt, ?_⟩
    have hrem : s.removeTombstone header.streamId = s := by
      unfold removeTombstone
      rw [hnone]
    simp only [rejectStream, if_neg hne, expectedChunkCount, if_pos hcnt, hrem]
  · refine .inr ?_
    have hwords : (rejected header.totalSize firstChunkLen).receivedChunks.length =
        bitmapWordsFor (divCeil header.totalSize firstChunkLen) :=
      (rejected_layout hval).words
    cases hproj : s.projectedBitmapWords header.streamId
        (bitmapWordsFor (divCeil header.totalSize firstChunkLen)) with
    | none =>
      refine .inl ⟨by omega, ?_⟩
      simp only [rejectStream, if_neg hne, expectedChunkCount, if_neg hcnt, hproj]
    | some words =>
      refine .inr ⟨by omega, ?_, ?_⟩
      · simp only [tryInsertTombstone, hwords, hproj]
      · simp only [rejectStream, if_neg hne, expectedChunkCount,
          if_neg hcnt, hproj, tryInsertTombstone, hwords]

/-- **Everything a start frame can do** to a table whose streams have their
first chunk: it ends in an error, opens the stream, or turns it away, with a
tombstone unless its only chunk is already here. -/
theorem beginV5StreamOrDiscard_cases (h : s.Wf) (clock : ℕ → Instant) (header : StreamHeader)
    (correlationId : UInt32) (isResponse : Bool) (firstChunkLen : ℕ)
    (hzero : ∀ stream, s.activeStreams.get header.streamId = some stream →
      stream.receivedChunks.test 0 = true) :
    (∃ e s', s.beginV5StreamOrDiscard clock header correlationId isResponse firstChunkLen =
          (.error e, s') ∧ e ≠ .fault ∧
          (s.activeStreams.get header.streamId = none → ValidStart header firstChunkLen →
            e = networkError .tombstoneBudgetExhausted)) ∨
      (s.activeStreams.get header.streamId = none ∧ ValidStart header firstChunkLen ∧
        s.beginV5StreamOrDiscard clock header correlationId isResponse firstChunkLen =
          (.ok (some ⟨header.streamId, 0, 0, firstChunkLen⟩),
            (s.removeTombstone header.streamId).insertActive header.streamId
              (startedStream clock header correlationId isResponse firstChunkLen)) ∧
        ((s.removeTombstone header.streamId).insertActive header.streamId
          (startedStream clock header correlationId isResponse firstChunkLen)).Wf) ∨
      (s.activeStreams.get header.streamId = none ∧ ValidStart header firstChunkLen ∧
        divCeil header.totalSize firstChunkLen ≤ 1 ∧
        s.beginV5StreamOrDiscard clock header correlationId isResponse firstChunkLen =
          (.ok none, s.removeTombstone header.streamId)) ∨
      (s.activeStreams.get header.streamId = none ∧ ValidStart header firstChunkLen ∧
        1 < divCeil header.totalSize firstChunkLen ∧
        ∃ s', s.beginV5StreamOrDiscard clock header correlationId isResponse firstChunkLen =
            (.ok none, s') ∧ s'.Wf ∧ s'.activeStreams = s.activeStreams ∧
          s'.maxConcurrentStreams = s.maxConcurrentStreams ∧
          ∀ id, s'.rejectedStreams.get id = if id = header.streamId then
            some (rejected header.totalSize firstChunkLen)
            else s.rejectedStreams.get id) := by
  have hwf := h.removeTombstone header.streamId
  have hact := activeStreams_removeTombstone s header.streamId
  have hgone : (s.removeTombstone header.streamId).rejectedStreams.get header.streamId = none := by
    rw [get_removeTombstone, if_pos rfl]
  have hcases := beginV5Stream_cases hwf clock header correlationId isResponse firstChunkLen
    (by rw [hact]; exact hzero)
  rw [hact] at hcases
  obtain ⟨e, s', heq, hflt, hbusy, hinv⟩ | ⟨hnone, hval, e, hbusy, heq⟩ |
    ⟨hnone, hval, hlen, hby, heq⟩ := hcases
  · refine .inl ⟨e, s', ?_, hflt, fun hnone hval => absurd ⟨hnone, hval⟩ hinv⟩
    simp only [beginV5StreamOrDiscard, heq, hbusy, Bool.false_eq_true, if_false]
  · simp only [beginV5StreamOrDiscard, heq, hbusy, if_true]
    obtain ⟨hcnt, hreject⟩ | ⟨-, hreject⟩ | ⟨hcnt, hinsert, hreject⟩ :=
      -- no room for the stream: one chunk is skipped, more need a tombstone
      rejectStream_cases hgone hval
    · rw [hreject]
      exact .inr (.inr (.inl ⟨hnone, hval, hcnt, rfl⟩))
    · rw [hreject]
      exact .inl ⟨_, _, rfl, by rintro ⟨⟩, fun _ _ => rfl⟩
    · rw [hreject]
      have hins := tryInsertTombstone_eq_true hinsert
      refine .inr (.inr (.inr ⟨hnone, hval, hcnt, _, rfl, ?_, ?_, ?_, ?_⟩))
      · exact hwf.tryInsertTombstone (by rw [hact]; exact hnone) hgone
          (rejected_wf hval hcnt)
      · exact hins.1.trans hact
      · exact hins.2.1.trans (maxConcurrentStreams_removeTombstone ..)
      · intro id
        rw [hins.2.2 id, get_removeTombstone]
        split <;> rfl
  · refine .inr (.inl ⟨hnone, hval, ?_, ?_⟩)
    · simp only [beginV5StreamOrDiscard, heq]
    · exact hwf.insertActive (by rw [hact]; exact hnone) hgone rfl (startedStream_wf hval)
        (by rw [hact]; exact hlen) (by rw [hact]; exact hby)

end Start

/-! ### Receiving a chunk -/

/-- The reservation is one the stream has a place for and has not received. -/
structure Reserved (stream : InProgressStream) (stride : ℕ) (r : StreamChunkReservation) :
    Prop where
  index : r.chunkIndex < divCeil stream.totalSize stride
  offset : r.offset = r.chunkIndex * stride
  len : r.len = min (stream.totalSize - r.chunkIndex * stride) stride
  unset : stream.receivedChunks.test r.chunkIndex = false

section

variable (h : Reserved stream stride r) (hwf : stream.Wf stride)
include h hwf

lemma Reserved.pos : 0 < r.len := by
  have hlt := (lt_divCeil hwf.layout.pos).mp h.index
  have hpos := hwf.layout.pos
  rw [h.len]
  omega

lemma Reserved.end_le : r.offset + r.len ≤ stream.totalSize := by
  have hlt := (lt_divCeil hwf.layout.pos).mp h.index
  rw [h.len, h.offset]
  omega

end

lemma reserveV5Chunk_cases (h : s.Wf) {streamId chunkIndex chunkLen : ℕ} :
    (s.activeStreams.get streamId = none ∧
        s.reserveV5Chunk streamId chunkIndex chunkLen =
          (.error (networkError (.unknownStream streamId)), s)) ∨
      ∃ stream stride, s.activeStreams.get streamId = some stream ∧ stream.Wf stride ∧
        ((∃ e s', s.reserveV5Chunk streamId chunkIndex chunkLen = (.error e, s') ∧ e ≠ .fault ∧
            (chunkIndex < divCeil stream.totalSize stride →
              chunkLen = min (stream.totalSize - chunkIndex * stride) stride →
              stream.receivedChunks.test chunkIndex = true)) ∨
          (Reserved stream stride ⟨streamId, chunkIndex, chunkIndex * stride, chunkLen⟩ ∧
            s.reserveV5Chunk streamId chunkIndex chunkLen =
              (.ok ⟨streamId, chunkIndex, chunkIndex * stride, chunkLen⟩, s))) := by
  cases hget : s.activeStreams.get streamId with
  | none => exact .inl ⟨rfl, by simp only [reserveV5Chunk, hget]⟩
  | some stream =>
    obtain ⟨-, stride, hwf⟩ := h.active streamId stream hget
    refine .inr ⟨stream, stride, rfl, hwf, ?_⟩
    have hpos := hwf.layout.pos
    by_cases hlen : chunkLen = 0
    · refine .inl ⟨networkError .emptyStreamChunk, s,
        by simp only [reserveV5Chunk, hget, if_pos hlen], by rintro ⟨⟩, ?_⟩
      intro hidx heq
      have hlt := (lt_divCeil hpos).mp hidx
      omega
    · -- the first chunk has fixed the stride
      have hsame : stream.establishStride chunkLen = stream := by
        unfold InProgressStream.establishStride
        rw [hwf.layout.known]
      have hkeep : (s.modifyActive streamId fun _ => stream) = s := by
        unfold modifyActive
        rw [modify_eq_self]
        intro v hv
        rw [hget] at hv
        exact some.inj hv
      have heq := reserveV5Chunk_eq chunkIndex hget hlen (by rw [hsame]; exact hwf)
      rw [hsame, hkeep] at heq
      rw [heq]
      split
      next hrange =>
        exact .inl ⟨_, _, rfl, by rintro ⟨⟩, fun hidx => by omega⟩
      next hrange =>
        split
        next hne =>
          exact .inl ⟨_, _, rfl, by rintro ⟨⟩, fun _ hmatch => absurd hmatch hne⟩
        next hmatch =>
          split
          next hset =>
            exact .inl ⟨_, _, rfl, by rintro ⟨⟩, fun _ _ => hset⟩
          next hunset =>
            have hfree : stream.receivedChunks.test chunkIndex = false := by simpa using hunset
            exact .inr ⟨⟨Nat.lt_of_not_le hrange, rfl, not_not.mp hmatch, hfree⟩, rfl⟩

/-- **Everything a data frame can do**: it ends in an error, reserves a place, or
marks a tombstone. -/
theorem reserveV5ChunkOrDiscard_cases (h : s.Wf) (streamId chunkIndex chunkLen : ℕ) :
    (∃ e s', s.reserveV5ChunkOrDiscard streamId chunkIndex chunkLen = (.error e, s') ∧
        e ≠ .fault ∧ s.rejectedStreams.get streamId = none ∧
        ∀ stream stride, s.activeStreams.get streamId = some stream → stream.Wf stride →
          chunkIndex < divCeil stream.totalSize stride →
          chunkLen = min (stream.totalSize - chunkIndex * stride) stride →
          stream.receivedChunks.test chunkIndex = true) ∨
      (∃ stream stride, s.activeStreams.get streamId = some stream ∧ stream.Wf stride ∧
        Reserved stream stride ⟨streamId, chunkIndex, chunkIndex * stride, chunkLen⟩ ∧
        s.reserveV5ChunkOrDiscard streamId chunkIndex chunkLen =
          (.ok (some ⟨streamId, chunkIndex, chunkIndex * stride, chunkLen⟩), s)) ∨
      (∃ t s', s.rejectedStreams.get streamId = some t ∧
        s.markTombstone streamId chunkIndex = (.ok (), s') ∧
        s.reserveV5ChunkOrDiscard streamId chunkIndex chunkLen = (.ok none, s')) := by
  cases hget : s.rejectedStreams.get streamId with
  | some t =>
    have hcont : s.rejectedStreams.containsKey streamId = true :=
      containsKey_eq_true.mpr ⟨t, hget⟩
    obtain ⟨s', hmark, -⟩ := h.markTombstone streamId chunkIndex
    refine .inr (.inr ⟨t, s', rfl, hmark, ?_⟩)
    simp only [reserveV5ChunkOrDiscard, hcont, if_true, hmark]
  | none =>
    have hcont : s.rejectedStreams.containsKey streamId = false := containsKey_eq_false.mpr hget
    rw [reserveV5ChunkOrDiscard, if_neg (Bool.eq_false_iff.mp hcont)]
    obtain ⟨hnone, heq⟩ | ⟨stream, stride, hstr, hwf, herror | ⟨hres, heq⟩⟩ :=
      reserveV5Chunk_cases h
    · rw [heq]
      refine .inl ⟨_, _, rfl, by rintro ⟨⟩, rfl, ?_⟩
      intro stream stride hstr
      rw [hnone] at hstr
      cases hstr
    · obtain ⟨e, s', heq, hflt, hset⟩ := herror
      rw [heq]
      refine .inl ⟨e, s', rfl, hflt, rfl, ?_⟩
      intro stream' stride' hstr' hwf'
      rw [hstr] at hstr'
      cases hstr'
      -- both are the stride of the first chunk
      have hstride : stride' = stride := some.inj (hwf'.layout.known.symm.trans hwf.layout.known)
      rw [hstride]
      exact hset
    · rw [heq]
      exact .inr (.inl ⟨stream, stride, hstr, hwf, hres, rfl⟩)

lemma get_modifyActive_self (hget : s.activeStreams.get id = some stream)
    (f : InProgressStream → InProgressStream) :
    (s.modifyActive id f).activeStreams.get id = some (f stream) := by
  refine (get_modify ..).trans ?_
  rw [if_pos rfl, hget]
  rfl

lemma Wf.modifyActive {f : InProgressStream → InProgressStream} (h : s.Wf)
    (hsame : ∀ stream, s.activeStreams.get streamId = some stream →
      (f stream).streamId = stream.streamId ∧ (f stream).totalSize = stream.totalSize)
    (hwf : ∀ stream stride, s.activeStreams.get streamId = some stream → stream.Wf stride →
      (f stream).Wf stride) : (s.modifyActive streamId f).Wf := by
  have hget := get_modify s.activeStreams streamId f
  refine { h with streams := ?_, bytes := ?_, apart := ?_, active := ?_ }
  · show (s.activeStreams.modify streamId f).len ≤ s.maxConcurrentStreams
    rw [len_modify]
    exact h.streams
  · show (s.activeStreams.modify streamId f).total (·.totalSize) ≤ _
    rw [total_modify fun stream hget => (hsame stream hget).2]
    exact h.bytes
  · intro id stream hstr
    have hstr := (hget id).symm.trans hstr
    split at hstr
    next heq =>
      obtain ⟨stream₀, hstream₀, -⟩ := map_eq_some_iff.mp hstr
      rw [heq]
      exact h.apart streamId stream₀ hstream₀
    · exact h.apart id stream hstr
  · intro id stream hstr
    have hstr := (hget id).symm.trans hstr
    split at hstr
    next heq =>
      obtain ⟨stream₀, hstream₀, rfl⟩ := map_eq_some_iff.mp hstr
      obtain ⟨hid₀, stride, hwf₀⟩ := h.active streamId stream₀ hstream₀
      exact ⟨(hsame stream₀ hstream₀).1.trans (hid₀.trans heq.symm), stride,
        hwf stream₀ stride hstream₀ hwf₀⟩
    · exact h.active id stream hstr

lemma Wf.removeActive (h : s.Wf) (streamId : ℕ) :
    ({ s with activeStreams := s.activeStreams.remove streamId } : StreamingState).Wf := by
  have hget := get_remove s.activeStreams streamId
  cases hstr : s.activeStreams.get streamId with
  | none =>
    rw [remove_of_get_none hstr]
    exact h
  | some =>
    have hlen := len_remove hstr
    have htot := total_remove (w := (·.totalSize)) hstr
    have hstreams := h.streams
    have hby := h.bytes
    refine { h with streams := ?_, bytes := ?_, apart := ?_, active := ?_ }
    · show (s.activeStreams.remove streamId).len ≤ s.maxConcurrentStreams
      omega
    · show (s.activeStreams.remove streamId).total (·.totalSize) ≤ _
      omega
    · intro id other hoth
      have hoth := (hget id).symm.trans hoth
      split at hoth
      · cases hoth
      · exact h.apart id other hoth
    · intro id other hoth
      have hoth := (hget id).symm.trans hoth
      split at hoth
      · cases hoth
      · exact h.active id other hoth

/-- The stream after a chunk has been committed. -/
def committed (stream : InProgressStream) (now : Instant) (r : StreamChunkReservation) :
    InProgressStream :=
  { stream with
    receivedChunks := stream.receivedChunks.mark r.chunkIndex
    receivedSize := stream.receivedSize + r.len
    lastActivity := now }

/-- **Everything a commit can do**: the stream is complete and leaves, or it has
one chunk more. -/
theorem commitV5Chunk_cases (now : Instant) (hget : s.activeStreams.get r.streamId = some stream)
    (hwf : stream.Wf stride) (hr : Reserved stream stride r) :
    ((∀ i < divCeil stream.totalSize stride,
          (stream.receivedChunks.mark r.chunkIndex).test i = true) ∧
        s.commitV5Chunk now r = (.ok (some (committed stream now r).completed),
          { s with activeStreams := s.activeStreams.remove r.streamId })) ∨
      ((committed stream now r).Wf stride ∧
        s.commitV5Chunk now r =
          (.ok none, s.modifyActive r.streamId fun _ => committed stream now r)) := by
  have hlay := hwf.layout.mark r.chunkIndex
  obtain ⟨word, hword, hbit⟩ := hwf.layout.word hr.index
  have hbit : word.getLsbD (r.chunkIndex % 64) = false := hbit.trans hr.unset
  have hall : allChunksReceived stream.totalSize stream.expectedChunks
      (stream.receivedChunks.mark r.chunkIndex) =
      .ok ((stream.receivedChunks.mark r.chunkIndex).prefixSet
        (divCeil stream.totalSize stride)) := hlay.allChunksReceived_eq
  cases hset : (stream.receivedChunks.mark r.chunkIndex).prefixSet
      (divCeil stream.totalSize stride) with
  | true =>
    rw [hset] at hall
    refine .inl ⟨hlay.prefixSet_iff.mp hset, ?_⟩
    simp only [commitV5Chunk, hget, hword, hbit, Bool.false_eq_true, if_false, hall, modifyActive,
      remove_modify, committed]
  | false =>
    rw [hset] at hall
    refine .inr ⟨⟨hlay, hwf.size, hwf.buffer, hlay.missing_of_prefixSet_eq_false hset⟩, ?_⟩
    simp only [commitV5Chunk, hget, hword, hbit, Bool.false_eq_true, if_false, hall, committed]

/-! ### Reaping -/

/-- The tombstone a reaped stream leaves. -/
def tombstoneOf (stream : InProgressStream) : RejectedStreamTombstone :=
  ⟨stream.totalSize, stream.chunkStride, stream.expectedChunks, stream.receivedChunks⟩

lemma tombstoneOf_wf (h : stream.Wf stride) :
    (tombstoneOf stream).Wf stride := ⟨h.layout, h.missing⟩

lemma tombstoneReapedStream_eq (h : stream.Wf stride) : s.tombstoneReapedStream streamId stream =
    (.ok (s.tryInsertTombstone streamId (tombstoneOf stream)).1,
      (s.tryInsertTombstone streamId (tombstoneOf stream)).2) := by
  have hcmpl : (tombstoneOf stream).isComplete = .ok false := by
    show allChunksReceived stream.totalSize stream.expectedChunks stream.receivedChunks = _
    rw [h.layout.allChunksReceived_eq, h.layout.prefixSet_eq_false h.missing]
  unfold tombstoneReapedStream
  rw [tombstoneOf, h.layout.known] at hcmpl
  simp only [isNone_some, Bool.false_eq_true, if_false, hcmpl, tombstoneOf, h.layout.known]

lemma tryInsertTombstone_eq_false (h : s.tryInsertTombstone streamId t = (false, s')) : s' = s := by
  unfold tryInsertTombstone at h
  split at h
  · cases h
    rfl
  · cases h

/-- The loop over the reaped streams leaves each a tombstone, unless a budget
refuses it, and touches nothing else. -/
lemma tombstoneReaped_spec (reaped : List (ℕ × InProgressStream)) (h : s.Wf)
    (hwf : ∀ e ∈ reaped, ∃ stride, e.2.Wf stride) (hnd : (reaped.map Prod.fst).Nodup)
    (hact : ∀ e ∈ reaped, s.activeStreams.get e.1 = none)
    (hgone : ∀ e ∈ reaped, s.rejectedStreams.get e.1 = none) :
    ∃ ok s', tombstoneReaped reaped s = (.ok ok, s') ∧ s'.Wf ∧
      s'.activeStreams = s.activeStreams ∧ s'.maxConcurrentStreams = s.maxConcurrentStreams ∧
      (∀ id, id ∉ reaped.map Prod.fst →
        s'.rejectedStreams.get id = s.rejectedStreams.get id) ∧
      ∀ e ∈ reaped, s'.rejectedStreams.get e.1 = some (tombstoneOf e.2) ∨
        (ok = false ∧ s'.rejectedStreams.get e.1 = none) := by
  induction reaped generalizing s with
  | nil => exact ⟨true, s, rfl, h, rfl, rfl, fun _ _ => rfl, fun e he => by cases he⟩
  | cons e rest ih =>
    obtain ⟨⟨stride, hstr⟩, hwf⟩ := List.forall_mem_cons.mp hwf
    rw [List.map_cons, List.nodup_cons] at hnd
    obtain ⟨hnone, hact⟩ := List.forall_mem_cons.mp hact
    obtain ⟨hfree, hgone⟩ := List.forall_mem_cons.mp hgone
    -- one more tombstone, or none
    obtain ⟨inserted, s₁, hins⟩ : ∃ inserted s₁,
        s.tryInsertTombstone e.1 (tombstoneOf e.2) = (inserted, s₁) := ⟨_, _, rfl⟩
    have hwf₁ : s₁.Wf := by
      have := h.tryInsertTombstone hnone hfree (tombstoneOf_wf hstr)
      rw [hins] at this
      exact this
    have hstep : s₁.activeStreams = s.activeStreams ∧
        s₁.maxConcurrentStreams = s.maxConcurrentStreams ∧
        (∀ id, id ≠ e.1 → s₁.rejectedStreams.get id = s.rejectedStreams.get id) ∧
        (s₁.rejectedStreams.get e.1 = some (tombstoneOf e.2) ∨
          (inserted = false ∧ s₁.rejectedStreams.get e.1 = none)) := by
      cases inserted with
      | false =>
        rw [tryInsertTombstone_eq_false hins]
        exact ⟨rfl, rfl, fun _ _ => rfl, .inr ⟨rfl, hfree⟩⟩
      | true =>
        obtain ⟨hsame, hlim, hget⟩ := tryInsertTombstone_eq_true hins
        refine ⟨hsame, hlim, fun id hne => ?_, .inl ?_⟩
        · rw [hget, if_neg hne]
        · rw [hget, if_pos rfl]
    obtain ⟨hactive₁, hlimit₁, hothers₁, hhere₁⟩ := hstep
    have hne : ∀ e' ∈ rest, e'.1 ≠ e.1 := by
      intro e' he' heq
      exact hnd.1 (heq ▸ List.mem_map_of_mem he')
    obtain ⟨ok, s', heq, hwf', hact', hlimit', hothers', hreaped'⟩ := ih hwf₁ hwf
      hnd.2 (hactive₁ ▸ hact)
      (fun e' he' => (hothers₁ e'.1 (hne e' he')).trans (hgone e' he'))
    refine ⟨inserted && ok, s', ?_, hwf', hact'.trans hactive₁, hlimit'.trans hlimit₁, ?_, ?_⟩
    · rw [tombstoneReaped, tombstoneReapedStream_eq hstr, hins]
      simp [heq]
    · intro id hid
      rw [List.map_cons, List.mem_cons, not_or] at hid
      rw [hothers' id hid.2, hothers₁ id hid.1]
    · intro e' he'
      obtain rfl | he' := List.mem_cons.mp he'
      · rw [hothers' e'.1 hnd.1]
        obtain hhere | ⟨hfalse, hnone'⟩ := hhere₁
        · exact .inl hhere
        · exact .inr ⟨by rw [hfalse]; rfl, hnone'⟩
      · obtain hhere | ⟨hfalse, hnone'⟩ := hreaped' e' he'
        · exact .inl hhere
        · exact .inr ⟨by rw [hfalse, Bool.and_false], hnone'⟩

/-- What a pass of the reaper leaves of a stream it keeps. -/
def slid (stream : InProgressStream) (startedAt progressed : ℕ) : InProgressStream :=
  { stream with rateWindowStartedAt := startedAt, progressedBytesAtWindowStart := progressed }

/-- **What the reaper does**: each stream stays, perhaps with a new rate window,
or goes and leaves its tombstone, unless a budget refuses it. -/
structure Reaps (s s' : StreamingState) (ok : Bool) : Prop where
  limit : s'.maxConcurrentStreams = s.maxConcurrentStreams
  untouched : ∀ id, s.activeStreams.get id = none →
    s'.activeStreams.get id = none ∧ s'.rejectedStreams.get id = s.rejectedStreams.get id
  visited : ∀ id stream, s.activeStreams.get id = some stream →
    (∃ startedAt progressed, s'.activeStreams.get id = some (slid stream startedAt progressed) ∧
        s'.rejectedStreams.get id = none) ∨
      (s'.activeStreams.get id = none ∧ (s'.rejectedStreams.get id = some (tombstoneOf stream) ∨
        (ok = false ∧ s'.rejectedStreams.get id = none)))

lemma Reaps.kept {ok : Bool} (h : Reaps s s' ok) (hget : s'.activeStreams.get id = some stream) :
    ∃ stream₀ startedAt progressed, s.activeStreams.get id = some stream₀ ∧
      stream = slid stream₀ startedAt progressed := by
  cases hget₀ : s.activeStreams.get id with
  | none =>
    rw [(h.untouched id hget₀).1] at hget
    cases hget
  | some stream₀ =>
    obtain ⟨startedAt, progressed, hslid, -⟩ | ⟨hnone, -⟩ := h.visited id stream₀ hget₀
    · rw [hslid] at hget
      exact ⟨stream₀, startedAt, progressed, rfl, (some.inj hget).symm⟩
    · rw [hnone] at hget
      cases hget

lemma cleanupVisit_eq_some {clock : ℕ → Instant}
    (h : cleanupVisit idleTimeout rateWindow minBytesPerWindow clock stream = some stream') :
    ∃ startedAt progressed, stream' = slid stream startedAt progressed := by
  unfold cleanupVisit at h
  split at h
  · cases h
  · split at h
    · split at h
      · cases h
      · cases h
        exact ⟨_, _, rfl⟩
    · cases h
      exact ⟨stream.rateWindowStartedAt, stream.progressedBytesAtWindowStart, rfl⟩

lemma wf_slid {stride : ℕ} (h : stream.Wf stride) : (slid stream startedAt progressed).Wf stride :=
  ⟨h.layout, h.size, h.buffer, h.missing⟩

lemma get_retainActive (s : StreamingState)
    (visit : ℕ → InProgressStream → Option InProgressStream) (id : ℕ) :
    (s.retainActive visit).activeStreams.get id =
      ((s.activeStreams.get id).filter fun stream => (visit id stream).isSome).map
        fun stream => (visit id stream).getD stream := by
  show (iterMut _ _).get id = _
  rw [get_iterMut, get_retain]

lemma Wf.retainActive {visit : ℕ → InProgressStream → Option InProgressStream} (h : s.Wf)
    (hvisit : ∀ id stream stream', visit id stream = some stream' →
      ∃ startedAt progressed, stream' = slid stream startedAt progressed) :
    (s.retainActive visit).Wf := by
  -- what stays differs in its times only
  have hget : ∀ id stream', (s.retainActive visit).activeStreams.get id = some stream' →
      ∃ stream, s.activeStreams.get id = some stream ∧
        ∃ startedAt progressed, stream' = slid stream startedAt progressed := by
    intro id stream' hstr'
    rw [get_retainActive] at hstr'
    obtain ⟨stream, hstr, rfl⟩ := map_eq_some_iff.mp hstr'
    obtain ⟨hstr, hkept⟩ := filter_eq_some_iff.mp hstr
    obtain ⟨kept, hkept⟩ := isSome_iff_exists.mp hkept
    refine ⟨stream, hstr, ?_⟩
    rw [hkept]
    exact hvisit id stream kept hkept
  refine { h with streams := ?_, bytes := ?_, apart := ?_, active := ?_ }
  · exact (len_iterMut ..).le.trans ((len_retain_le ..).trans h.streams)
  · refine le_trans ?_ h.bytes
    refine le_trans (le_of_eq (total_iterMut ?_)) (total_retain_le ..)
    intro id stream hstr
    rw [get_retain] at hstr
    obtain ⟨-, hkept⟩ := filter_eq_some_iff.mp hstr
    obtain ⟨kept, hkept⟩ := isSome_iff_exists.mp hkept
    obtain ⟨startedAt, progressed, hslid⟩ := hvisit id stream kept hkept
    rw [hkept, getD_some, hslid]
    rfl
  · intro id stream' hstr'
    obtain ⟨stream, hstr, -⟩ := hget id stream' hstr'
    exact h.apart id stream hstr
  · intro id stream' hstr'
    obtain ⟨stream, hstr, startedAt, progressed, rfl⟩ := hget id stream' hstr'
    obtain ⟨hid, stride, hwf⟩ := h.active id stream hstr
    exact ⟨hid, stride, wf_slid hwf⟩

lemma cleanupStaleWith_spec (h : s.Wf) (idleTimeout rateWindow minBytesPerWindow : ℕ)
    (clock : ℕ → ℕ → Instant) (order : List ℕ) :
    ∃ ok s', s.cleanupStaleWith idleTimeout rateWindow minBytesPerWindow clock order =
      (.ok ok, s') ∧ s'.Wf ∧ Reaps s s' ok := by
  let visit := fun id => cleanupVisit idleTimeout rateWindow minBytesPerWindow (clock id)
  have hvisit : ∀ id stream stream', visit id stream = some stream' →
      ∃ startedAt progressed, stream' = slid stream startedAt progressed :=
    fun _ _ _ h => cleanupVisit_eq_some h
  -- the streams to reap, in the order in which the map gives them
  let stale := (s.activeStreams.toList.filter fun e => (visit e.1 e.2).isNone).map Prod.fst
  let ids := if order.isPerm stale then order else stale
  let reaped := ids.filterMap fun id => (s.activeStreams.get id).map fun stream => (id, stream)
  have hget₀ := get_retainActive s visit
  have hperm : ids.Perm stale := by
    show (if order.isPerm stale then order else stale).Perm stale
    split
    next horder =>
      exact List.isPerm_iff.mp horder
    · exact List.Perm.refl _
  have hstale : ∀ id, id ∈ stale ↔
      ∃ stream, s.activeStreams.get id = some stream ∧ visit id stream = none := by
    intro id
    simp only [stale, List.mem_map, List.mem_filter, Prod.exists, isNone_iff_eq_none]
    constructor
    · rintro ⟨_, stream, ⟨hmem, hnone⟩, rfl⟩
      exact ⟨stream, mem_toList.mp hmem, hnone⟩
    · rintro ⟨stream, hget, hnone⟩
      exact ⟨id, stream, ⟨mem_toList.mpr hget, hnone⟩, rfl⟩
  have hmem : ∀ e, e ∈ reaped ↔ s.activeStreams.get e.1 = some e.2 ∧ visit e.1 e.2 = none := by
    intro e
    simp only [reaped, List.mem_filterMap, map_eq_some_iff]
    constructor
    · rintro ⟨id, hid, stream, hget, rfl⟩
      obtain ⟨stream', hget', hnone⟩ := (hstale id).mp (hperm.mem_iff.mp hid)
      rw [hget] at hget'
      cases hget'
      exact ⟨hget, hnone⟩
    · rintro ⟨hget, hnone⟩
      exact ⟨e.1, hperm.mem_iff.mpr ((hstale e.1).mpr ⟨e.2, hget, hnone⟩), e.2, hget, rfl⟩
  have hnd : (reaped.map Prod.fst).Nodup := by
    have hkeys : stale.Nodup := ((List.filter_sublist.map Prod.fst).trans
        (List.Sublist.refl _)).nodup (keys_toList s.activeStreams ▸ nodup_keys _)
    rw [map_fst_filterMap_get]
    exact (hperm.nodup_iff.mpr hkeys).filter _
  -- the others are retained first, then the reaped get their tombstones one by one
  obtain ⟨ok, s', heq, hwf', hact', hlimit', hothers', hreaped'⟩ :=
    tombstoneReaped_spec reaped (h.retainActive hvisit)
      (fun e he => (h.active e.1 e.2 ((hmem e).mp he).1).2) hnd
      (fun e he => by
        obtain ⟨hget, hnone⟩ := (hmem e).mp he
        rw [hget₀, hget, filter_some, hnone]
        rfl)
      (fun e he => h.apart e.1 e.2 ((hmem e).mp he).1)
  refine ⟨ok, s', heq, hwf', ⟨hlimit', ?_, ?_⟩⟩
  · intro id hnone
    have hout : id ∉ reaped.map Prod.fst := by
      intro hid
      obtain ⟨e, he, rfl⟩ := List.mem_map.mp hid
      have hget := ((hmem e).mp he).1
      rw [hnone] at hget
      cases hget
    refine ⟨?_, hothers' id hout⟩
    rw [hact', hget₀, hnone]
    rfl
  · intro id stream hstr
    cases hv : visit id stream with
    | none =>
      refine .inr ⟨?_, hreaped' (id, stream) ((hmem _).mpr ⟨hstr, hv⟩)⟩
      rw [hact', hget₀, hstr, filter_some, hv]
      rfl
    -- a stream that is kept has at most its window moved
    | some stream' =>
      obtain ⟨startedAt, progressed, hslid⟩ := hvisit id stream stream' hv
      have hout : id ∉ reaped.map Prod.fst := by
        intro hid
        obtain ⟨e, he, rfl⟩ := List.mem_map.mp hid
        obtain ⟨hget, hnone⟩ := (hmem e).mp he
        rw [hstr] at hget
        cases hget
        rw [hv] at hnone
        cases hnone
      refine .inl ⟨startedAt, progressed, ?_, ?_⟩
      · rw [hact', hget₀, hstr, filter_some, hv, ← hslid]
        show some ((visit id stream).getD stream) = _
        rw [hv]
        rfl
      · rw [hothers' id hout]
        exact h.apart id stream hstr

end StreamingState

end IcanactRemote
