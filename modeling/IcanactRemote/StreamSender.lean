/-
A sender that keeps to the protocol.

For each stream id the sender sends a start frame, then the chunks in the order
of their indices, and ends with the last chunk or with an abort before it.  No
id is used twice.  Frames of different streams, and frames of other kinds, come
in between as they like.

* `prefix_frames` — frames are read back from their bytes in one way only;
* `Cursor.Of` — the frame of the sender that a half-read frame is the start of;
* `Compliant.send` — what the sender may have sent before its next frame.
-/
import IcanactRemote.FrameTrace

namespace IcanactRemote

open List

/-! ### Frames and their bytes -/

lemma encodeControl_inj {c d : Control} (hc : c.bodyLen ≤ controlBodyLenMask)
    (hd : d.bodyLen ≤ controlBodyLenMask) (h : encodeControl c = encodeControl d) : c = d := by
  have hdecode := congrArg decodeControl h
  rw [decodeControl_encodeControl hc, decodeControl_encodeControl hd] at hdecode
  exact Option.some.inj hdecode

variable {x y : Bytes}

lemma Frame.bytes_append_inj {f g : Frame} (hf : f.body.length ≤ controlBodyLenMask)
    (hg : g.body.length ≤ controlBodyLenMask) (h : f.bytes ++ x = g.bytes ++ y) :
    f = g ∧ x = y := by
  rw [Frame.bytes, Frame.bytes, append_assoc, append_assoc] at h
  obtain ⟨hctl, hrest⟩ := append_inj h (by simp)
  obtain ⟨hkind, hlen⟩ := Control.mk.inj (encodeControl_inj hf hg hctl)
  obtain ⟨hbody, hxy⟩ := append_inj hrest hlen
  refine ⟨?_, hxy⟩
  cases f
  cases g
  exact congr (congrArg Frame.mk hkind) hbody

lemma Frame.bytes_ne_nil (f : Frame) : f.bytes ≠ [] := by
  intro hnil
  have hlen := congrArg length hnil
  rw [Frame.bytes, length_append, length_encodeControl, length_nil] at hlen
  have hfour : lengthPrefixLen = 4 := rfl
  omega

lemma prefix_frames {frames sent : List Frame} (hfrs : AllFit frames) (hsent : AllFit sent)
    (h : frames.flatMap Frame.bytes ++ x <+: sent.flatMap Frame.bytes) :
    ∃ post, sent = frames ++ post ∧ x <+: post.flatMap Frame.bytes := by
  induction frames generalizing sent with
  | nil => exact ⟨sent, rfl, h⟩
  | cons f _ ih =>
    rw [flatMap_cons, append_assoc] at h
    obtain ⟨y, h⟩ := h
    rw [append_assoc] at h
    cases sent with
    | nil =>
      rw [flatMap_nil, append_eq_nil_iff] at h
      exact absurd h.1 f.bytes_ne_nil
    | cons g =>
      rw [flatMap_cons] at h
      obtain ⟨rfl, htail⟩ := Frame.bytes_append_inj (hfrs f mem_cons_self)
        (hsent g mem_cons_self) h
      obtain ⟨post, hpost, hx⟩ := ih (fun f hf => hfrs f (mem_cons_of_mem _ hf))
        (fun f hf => hsent f (mem_cons_of_mem _ hf)) ⟨y, htail⟩
      exact ⟨post, by rw [hpost]; rfl, hx⟩

/-- The frame that a half-read one is the start of. -/
def Cursor.Of (cur : Cursor) (f : Frame) : Prop :=
  ∃ payload, payload.length = cur.payloadLen ∧ f = { cur with payload := payload }.frame

lemma prefix_cursor {cur : Cursor} {post : List Frame} (hcur : cur.Ok) (hpost : AllFit post)
    (h : cur.bytes ++ x <+: post.flatMap Frame.bytes) :
    ∃ f post', post = f :: post' ∧ cur.Of f := by
  obtain ⟨y, h⟩ := h
  cases post with
  | nil =>
    have hlen := congrArg length h
    rw [Cursor.bytes] at hlen
    simp [lengthPrefixLen] at hlen
  | cons f post =>
    refine ⟨f, post, rfl, ?_⟩
    have h : encodeControl ⟨cur.kind, cur.metadata.length + cur.payloadLen⟩ ++
        (cur.metadata ++ (cur.payload ++ (x ++ y))) =
        encodeControl ⟨f.kind, f.body.length⟩ ++ (f.body ++ post.flatMap Frame.bytes) := by
      simpa [Cursor.bytes, Frame.bytes] using h
    obtain ⟨hctl, hrest⟩ := append_inj h (by simp)
    obtain ⟨hkind, hlen⟩ :=
      Control.mk.inj (encodeControl_inj hcur.2 (hpost f mem_cons_self) hctl)
    -- the metadata lies within the body
    have htake : cur.metadata = f.body.take cur.metadata.length := by
      have := congrArg (take cur.metadata.length) hrest
      rw [take_left, take_append_of_le_length (by omega)] at this
      exact this
    have hbody : cur.metadata ++ f.body.drop cur.metadata.length = f.body := by
      have hspl := take_append_drop cur.metadata.length f.body
      rw [← htake] at hspl
      exact hspl
    refine ⟨f.body.drop cur.metadata.length, ?_, ?_⟩
    · rw [length_drop]
      omega
    · show f = ⟨cur.kind, cur.metadata ++ f.body.drop cur.metadata.length⟩
      rw [hkind, hbody]

section Of

variable {cur : Cursor} {f : Frame} (hcur : cur.Ok) (h : cur.Of f)

include h

lemma Cursor.Of.kind : f.kind = cur.kind := by
  obtain ⟨payload, -, rfl⟩ := h
  rfl

include hcur

lemma Cursor.Of.streamId : f.streamId = cur.streamId := by
  obtain ⟨payload, -, rfl⟩ := h
  have hok : { cur with payload := payload }.Ok := hcur
  exact Cursor.streamId_frame hok

lemma Cursor.Of.chunkIndex : f.chunkIndex = cur.chunkIndex := by
  obtain ⟨payload, -, rfl⟩ := h
  have hok : { cur with payload := payload }.Ok := hcur
  exact Cursor.chunkIndex_frame hok

lemma Cursor.Of.totalSize (hsta : cur.kind.isStreamStart = true) :
    f.totalSize = metaTotalSize cur.metadata := by
  obtain ⟨payload, -, rfl⟩ := h
  have hok : { cur with payload := payload }.Ok := hcur
  exact Cursor.totalSize_frame hok hsta

lemma Cursor.Of.payload : f.payload.length = cur.payloadLen := by
  obtain ⟨payload, hlen, rfl⟩ := h
  have hok : { cur with payload := payload }.Ok := hcur
  rw [Cursor.payload_frame hok]
  exact hlen

end Of

/-! ### The sender -/

/-- How far the sender is with a stream. -/
inductive StreamSending
  | idle
  | sending (totalSize stride next : ℕ)
  | ended
  deriving DecidableEq, Repr

namespace StreamSending

/-- The sender after chunk `i` of the stream. -/
def after (totalSize stride i : ℕ) : StreamSending :=
  if divCeil totalSize stride ≤ i + 1 then .ended else .sending totalSize stride (i + 1)

/-- The sender sends a frame of the stream, if the protocol lets it. -/
def send (s : StreamSending) (f : Frame) : Option StreamSending :=
  match s with
  | .idle =>
    if f.isStart ∧ 0 < f.payload.length ∧ f.payload.length ≤ f.totalSize ∧
        f.totalSize ≤ maxStreamSize then
      some (after f.totalSize f.payload.length 0)
    else none
  | .sending totalSize stride next =>
    if f.kind = .streamAbort then some .ended
    else if f.kind.isStreamData ∧ f.chunkIndex = next ∧
        f.payload.length = min (totalSize - next * stride) stride then
      some (after totalSize stride next)
    else none
  | .ended => none

end StreamSending

/-- The frame belongs to this stream. -/
def Frame.concerns (f : Frame) (streamId : ℕ) : Bool :=
  (f.kind.isStreamStart || f.kind.isStreamData || f.kind = .streamAbort) && f.streamId = streamId

/-- One frame of the sender, seen by one stream. -/
def sendStep (streamId : ℕ) (s : StreamSending) (f : Frame) : Option StreamSending :=
  if f.concerns streamId then s.send f else some s

/-- How far the sender is with a stream after these frames; nothing, if it broke
the protocol. -/
def sentFor (streamId : ℕ) (frames : List Frame) : Option StreamSending :=
  frames.foldlM (sendStep streamId) .idle

/-- The sender keeps to the protocol for every stream. -/
def Compliant (sent : List Frame) : Prop := ∀ streamId, (sentFor streamId sent).isSome = true

section Sender

variable {id : ℕ} {frames sent post : List Frame} {f : Frame} {s : StreamSending}

lemma sentFor_concat :
    sentFor id (frames ++ [f]) = (sentFor id frames).bind fun s => sendStep id s f := by
  rw [sentFor, foldlM_append]
  congr 1
  funext s
  rw [foldlM_cons]
  exact bind_pure _

lemma Compliant.before (h : Compliant sent) (hsent : sent = frames ++ post) (id : ℕ) :
    ∃ s, sentFor id frames = some s := by
  have hsome := h id
  rw [hsent, sentFor, foldlM_append] at hsome
  cases hs : sentFor id frames with
  | none =>
    rw [sentFor] at hs
    rw [hs] at hsome
    cases hsome
  | some s => exact ⟨s, rfl⟩

lemma Compliant.send (h : Compliant sent) (hsent : sent = frames ++ f :: post)
    (hs : sentFor id frames = some s) (hconc : f.concerns id = true) :
    ∃ s', s.send f = some s' ∧ sentFor id (frames ++ [f]) = some s' := by
  have hsent' : sent = (frames ++ [f]) ++ post := by rw [hsent, append_assoc]; rfl
  obtain ⟨s', hs'⟩ := h.before hsent' id
  refine ⟨s', ?_, hs'⟩
  rw [sentFor_concat, hs, Option.bind_some, sendStep, if_pos hconc] at hs'
  exact hs'

lemma sentFor_of_not_concerns (hs : sentFor id frames = some s)
    (hnot : f.concerns id = false) : sentFor id (frames ++ [f]) = some s := by
  rw [sentFor_concat, hs, Option.bind_some, sendStep, hnot]
  rfl

lemma compliant_of_stream (id : ℕ) (h : ∀ f ∈ sent, f.streamId = id)
    (hsent : (sentFor id sent).isSome = true) : Compliant sent := by
  intro id'
  by_cases hid : id' = id
  · rw [hid]
    exact hsent
  · have hidle : ∀ frames : List Frame, (∀ f ∈ frames, f ∈ sent) →
        sentFor id' frames = some .idle := by
      intro frames hmem
      induction frames using reverseRecOn with
      | nil => rfl
      | append_singleton _ f ih =>
        refine sentFor_of_not_concerns (ih fun g hg => hmem g (mem_append_left _ hg)) ?_
        rw [Frame.concerns, h f (hmem f (by simp)), decide_eq_false (Ne.symm hid), Bool.and_false]
    rw [hidle sent fun _ hf => hf]
    rfl

lemma exists_starts (hs : sentFor id frames = some s) (hne : s ≠ .idle) :
    ∃ f ∈ frames, f.Starts id := by
  induction frames using reverseRecOn generalizing s with
  | nil =>
    cases hs
    exact absurd rfl hne
  | append_singleton _ f ih =>
    rw [sentFor_concat] at hs
    obtain ⟨s₀, hs₀, hstep⟩ := Option.bind_eq_some_iff.mp hs
    -- an idle stream moves on by its start only
    by_cases hidle : s₀ = .idle
    · subst hidle
      unfold sendStep at hstep
      split at hstep
      next hconc =>
        unfold StreamSending.send at hstep
        split at hstep
        · split at hstep
          next hsta =>
            refine ⟨f, by simp, hsta.1, ?_⟩
            rw [Frame.concerns, Bool.and_eq_true, decide_eq_true_eq] at hconc
            exact hconc.2
          · cases hstep
        next heq =>
          cases heq
        · cases hstep
      · cases hstep
        exact absurd rfl hne
    · obtain ⟨g, hg, hstarts⟩ := ih hs₀ hidle
      exact ⟨g, mem_append_left _ hg, hstarts⟩

end Sender

end IcanactRemote
