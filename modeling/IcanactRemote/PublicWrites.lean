/-
Writes through a `LockFreeStreamHandle`.

A public write is checked against the control words of its own bytes before it
is queued, as one command, except for `write_chunked_nonblocking`, which is
checked as a whole and then queued chunk by chunk, while other producers run, and
for `write_bytes_vectored` and `write_owned_chunks`, which are not checked at all.

* `Frames` — bytes that split into whole frames, each with a given property;
* `WritePayload.frames_of_check` — what the checks establish;
* `WriteQueueState.whole_frames_on_the_wire` — the queue holds whole, readable frames, if
  no command comes between the chunks of a write, no frame is empty and what is not
  checked is made of such frames.
-/
import IcanactRemote.FrameReader
import IcanactRemote.Roster
import IcanactRemote.Run

namespace IcanactRemote

open Roster List Bool Function

/-! ### Whole frames -/

/-- The bytes split into frames whose control words have the property. -/
inductive Frames (P : Control → Prop) : Bytes → Prop
  | nil : Frames P []
  | cons {control body rest : Bytes} {c : Control} (hlen : control.length = lengthPrefixLen)
      (hcontrol : decodeControl control = some c) (hbody : body.length = c.bodyLen) (hP : P c)
      (hrest : Frames P rest) : Frames P (control ++ (body ++ rest))

namespace Frames

variable {P Q : Control → Prop} {bytes more : Bytes}

lemma append (h : Frames P bytes) (hmore : Frames P more) : Frames P (bytes ++ more) := by
  induction h with
  | nil => exact hmore
  | cons hlen hcontrol hbody hP _ ih =>
    rw [append_assoc, append_assoc]
    exact .cons hlen hcontrol hbody hP ih

lemma imp (h : Frames P bytes) (hPQ : ∀ c, P c → Q c) : Frames Q bytes := by
  induction h with
  | nil => exact .nil
  | cons hlen hcontrol hbody hP _ ih => exact .cons hlen hcontrol hbody (hPQ _ hP) ih

lemma and (h : Frames P bytes) (hQ : Frames Q bytes) : Frames (fun c => P c ∧ Q c) bytes := by
  induction h with
  | nil => exact .nil
  | @cons control body rest c hlen hcontrol hbody hP _ ih =>
    generalize heq : control ++ (body ++ rest) = whole at hQ
    cases hQ with
    | nil =>
      have hemp := congrArg length heq
      rw [length_append, hlen] at hemp
      simp [lengthPrefixLen] at hemp
    | @cons control' body' rest' c' hlen' hcontrol' hbody' hQ hrest' =>
      obtain ⟨rfl, htail⟩ := append_inj heq (hlen.trans hlen'.symm)
      obtain rfl : c = c' := Option.some.inj (hcontrol.symm.trans hcontrol')
      obtain ⟨rfl, rfl⟩ := append_inj htail (hbody.trans hbody'.symm)
      exact .cons hlen hcontrol hbody ⟨hP, hQ⟩ (ih hrest')

lemma single {c : Control} (hcontrol : decodeControl (bytes.take lengthPrefixLen) = some c)
    (hlen : bytes.length = lengthPrefixLen + c.bodyLen) (hP : P c) : Frames P bytes := by
  have hspl : bytes.take lengthPrefixLen ++ (bytes.drop lengthPrefixLen ++ []) = bytes := by
    rw [append_nil, take_append_drop]
  rw [← hspl]
  refine .cons ?_ hcontrol ?_ hP .nil
  · rw [length_take]
    omega
  · rw [length_drop]
    omega

end Frames

/-- The check that all frames up to the end have the property, for decisions. -/
def splitsIntoFrames (P : Control → Bool) : ℕ → Bytes → Bool
  | 0, bytes => bytes.isEmpty
  | fuel + 1, bytes =>
    bytes.isEmpty ||
      match decodeControl (bytes.take lengthPrefixLen) with
      | none => false
      | some c =>
        P c && decide (lengthPrefixLen + c.bodyLen ≤ bytes.length) &&
          splitsIntoFrames P fuel (bytes.drop (lengthPrefixLen + c.bodyLen))

lemma Frames.splits {P : Control → Bool} {bytes : Bytes} (h : Frames (fun c => P c) bytes) :
    ∀ fuel, bytes.length ≤ fuel → splitsIntoFrames P fuel bytes = true := by
  induction h with
  | nil => intro fuel _; cases fuel <;> rfl
  | @cons control body rest c hlen hcontrol hbody hP hrest ih =>
    intro fuel hfuel
    simp only [length_append, hlen, lengthPrefixLen] at hfuel
    obtain ⟨fuel, rfl⟩ : ∃ n, fuel = n + 1 := ⟨fuel - 1, by omega⟩
    have htake : (control ++ (body ++ rest)).take lengthPrefixLen = control := take_left' hlen
    have hdrop : (control ++ (body ++ rest)).drop (lengthPrefixLen + c.bodyLen) = rest := by
      rw [← append_assoc]
      exact drop_left' (by rw [length_append, hlen, hbody])
    have hle : lengthPrefixLen + c.bodyLen ≤ (control ++ (body ++ rest)).length := by
      simp only [length_append, hlen, hbody]
      omega
    simp only [splitsIntoFrames, htake, hcontrol, hP, hle, hdrop, ih fuel (by omega),
      decide_true, Bool.and_self, Bool.or_true]

lemma Frames.of_splits {P : Control → Bool} :
    ∀ (fuel : ℕ) (bytes : Bytes), splitsIntoFrames P fuel bytes = true →
      Frames (fun c => P c) bytes := by
  intro fuel
  induction fuel with
  | zero =>
    intro bytes h
    rw [isEmpty_iff.mp h]
    exact .nil
  | succ _ ih =>
    intro bytes h
    simp only [splitsIntoFrames, or_eq_true] at h
    cases h with
    | inl hemp =>
      rw [isEmpty_iff.mp hemp]
      exact .nil
    | inr h =>
      cases hcontrol : decodeControl (bytes.take lengthPrefixLen) with
      | none =>
        rw [hcontrol] at h
        cases h
      | some c =>
        rw [hcontrol] at h
        simp only [and_eq_true, decide_eq_true_eq] at h
        obtain ⟨⟨hP, hlen⟩, hrest⟩ := h
        -- the first frame is whole
        have hfr : Frames (fun c => P c) (bytes.take (lengthPrefixLen + c.bodyLen)) := by
          refine .single (c := c) ?_ ?_ hP
          · rw [take_take, min_eq_left (by omega)]
            exact hcontrol
          · rw [length_take]
            omega
        rw [← take_append_drop (lengthPrefixLen + c.bodyLen) bytes]
        exact hfr.append (ih _ hrest)

/-- The body is not empty, and that of a stream frame has its metadata. -/
def Control.filled (c : Control) : Bool :=
  decide (0 < c.bodyLen) &&
    match streamMetaLen c.kind with
    | some metaLen => decide (metaLen ≤ c.bodyLen)
    | none => true

/-- What a reader with this limit takes. -/
def Control.readable (maxMessageSize : ℕ) (c : Control) : Bool :=
  decide (c.bodyLen ≤ maxMessageSize) && c.filled

variable {control source rest header : Bytes}

/-- A reader with this limit passes such a control word and goes on to the body. -/
def Control.Taken (maxMessageSize : ℕ) (c : Control) : Prop :=
  ∀ (α : Type) (ctx : ReadContext α) (r : Reader) (control : Bytes),
    ctx.maxMessageSize = maxMessageSize → control.length = lengthPrefixLen →
      decodeControl control = some c → (r.gotPrefix ctx control).1 = Reader.progress

lemma Control.taken {maxMessageSize : ℕ} {c : Control} (hc : c.readable maxMessageSize = true) :
    c.Taken maxMessageSize := by
  rintro α ctx r control rfl hlen hcontrol
  simp only [Control.readable, Control.filled, and_eq_true, decide_eq_true_eq] at hc
  obtain ⟨hmax, hpos, hmeta⟩ := hc
  have hshort : ¬ control.length < lengthPrefixLen := by omega
  simp only [Reader.gotPrefix, if_neg hshort, hcontrol, if_neg (show ¬ c.bodyLen = 0 by omega),
    if_neg (show ¬ c.bodyLen > ctx.maxMessageSize by omega)]
  cases hkind : streamMetaLen c.kind with
  | none => rfl
  | some metaLen =>
    rw [hkind] at hmeta
    have hle : metaLen ≤ c.bodyLen := of_decide_eq_true hmeta
    simp [if_neg (show ¬ c.bodyLen < metaLen by omega)]

/-! ### The checks -/

inductive WriteError
  | lengthMismatch (declared actual : ℕ)
  | truncatedControl (available : ℕ)
  | unknownControl
  | incompleteFrame (declared available : ℕ)
  | headerLenExceeds (headerLen available : ℕ)
  | messageTooLarge (size max : ℕ)
  deriving DecidableEq, Repr

/-- `reject_oversize_single`, from an offset on.  Every round takes a control word at
least, so there are no more rounds than bytes. -/
def rejectOversizeFrom (maxMessageSize : ℕ) : ℕ → Bytes → Except WriteError Unit
  | 0, _ => .ok ()
  | fuel + 1, data =>
    if data.isEmpty then .ok ()
    else if data.length < lengthPrefixLen then .error (.truncatedControl data.length)
    else
      match decodeControl (data.take lengthPrefixLen) with
      | none => .error .unknownControl
      | some c =>
        let frameTotal := lengthPrefixLen + c.bodyLen
        if data.length < frameTotal then .error (.incompleteFrame frameTotal data.length)
        else if c.bodyLen > maxMessageSize then .error (.messageTooLarge c.bodyLen maxMessageSize)
        else rejectOversizeFrom maxMessageSize fuel (data.drop frameTotal)

def rejectOversizeSingle (maxMessageSize : ℕ) (data : Bytes) : Except WriteError Unit :=
  rejectOversizeFrom maxMessageSize data.length data

lemma frames_of_rejectOversizeFrom {maxMessageSize : ℕ} :
    ∀ (fuel : ℕ) (data : Bytes), data.length ≤ fuel →
      rejectOversizeFrom maxMessageSize fuel data = .ok () →
      Frames (fun c => c.bodyLen ≤ maxMessageSize) data := by
  intro fuel
  induction fuel with
  | zero =>
    intro data hfuel _
    obtain rfl : data = [] := eq_nil_of_length_eq_zero (by omega)
    exact .nil
  | succ _ ih =>
    intro data hfuel hok
    unfold rejectOversizeFrom at hok
    split at hok
    next hemp =>
      rw [isEmpty_iff.mp hemp]
      exact .nil
    · split at hok
      · cases hok
      · split at hok
        · cases hok
        next c hcontrol =>
          dsimp only at hok
          split at hok
          · cases hok
          · split at hok
            · cases hok
            next hshort hfits hmax =>
              have hrest := ih (data.drop (lengthPrefixLen + c.bodyLen)) (by
                rw [length_drop, lengthPrefixLen]
                omega) hok
              -- the frame and what follows it
              have hfr : Frames (fun c => c.bodyLen ≤ maxMessageSize)
                  (data.take (lengthPrefixLen + c.bodyLen)) := by
                refine .single (c := c) ?_ ?_ (by omega)
                · rw [take_take, min_eq_left (by omega)]
                  exact hcontrol
                · rw [length_take]
                  omega
              rw [← take_append_drop (lengthPrefixLen + c.bodyLen) data]
              exact hfr.append hrest

/-- What a write command carries.  A `Buf` is the list of its chunks. -/
inductive WritePayload
  | single (data : Bytes)
  | trustedFrame (data : Bytes)
  | buf (chunks : List Bytes) (expectedLen : ℕ)
  | headerPayload (header payload : Bytes)
  | headerInline (header : Bytes) (headerLen : ℕ) (payload : Bytes)
  | headerInlineAligned (header : Bytes) (headerLen : ℕ) (payload : Bytes)
  | headerInline32 (header payload : Bytes)
  | headerPooled (header : Bytes) (pre : Option Bytes) (payload : Bytes)
  | headerInlinePooled (header : Bytes) (headerLen : ℕ) (pre : Option Bytes) (prefixLen : ℕ)
      (payload : Bytes)
  | directAskInline (header payload : Bytes)
  deriving DecidableEq, Repr

namespace WritePayload

def bytes : WritePayload → Bytes
  | .single data | .trustedFrame data => data
  | .buf chunks _ => chunks.flatten
  | .headerPayload header payload | .headerInline32 header payload
  | .directAskInline header payload => header ++ payload
  | .headerInline header headerLen payload | .headerInlineAligned header headerLen payload =>
    header.take headerLen ++ payload
  | .headerPooled header pre payload => header ++ (pre.getD [] ++ payload)
  | .headerInlinePooled header headerLen pre prefixLen payload =>
    header.take headerLen ++ ((pre.map (·.take prefixLen)).getD [] ++ payload)

/-- The last part of the check: the control word against the length of the whole. -/
def checkFrame (maxMessageSize : ℕ) (controlSource : Bytes) (actualTotal : ℕ) :
    Except WriteError Unit :=
  if controlSource.length < lengthPrefixLen then .error (.truncatedControl controlSource.length)
  else
    match decodeControl (controlSource.take lengthPrefixLen) with
    | none => .error .unknownControl
    | some c =>
      if actualTotal ≠ lengthPrefixLen + c.bodyLen then
        .error (.lengthMismatch (lengthPrefixLen + c.bodyLen) actualTotal)
      else if c.bodyLen > maxMessageSize then .error (.messageTooLarge c.bodyLen maxMessageSize)
      else .ok ()

/-- A header in a backing array, of which `headerLen` bytes are used. -/
def checkInline (maxMessageSize : ℕ) (header : Bytes) (headerLen restLen : ℕ) :
    Except WriteError Unit :=
  if headerLen > header.length then .error (.headerLenExceeds headerLen header.length)
  else checkFrame maxMessageSize (header.take headerLen) (headerLen + restLen)

/-- `reject_oversize_write_payload`. -/
def check (maxMessageSize : ℕ) : WritePayload → Except WriteError Unit
  | .buf chunks expectedLen =>
    if chunks.flatten.length ≠ expectedLen then
      .error (.lengthMismatch expectedLen chunks.flatten.length)
    else checkFrame maxMessageSize (chunks.headD []) chunks.flatten.length
  | .trustedFrame _ => .ok ()
  | .single data => rejectOversizeSingle maxMessageSize data
  | .headerPayload header payload | .headerInline32 header payload
  | .directAskInline header payload =>
    checkFrame maxMessageSize header (header.length + payload.length)
  | .headerInline header headerLen payload | .headerInlineAligned header headerLen payload =>
    checkInline maxMessageSize header headerLen payload.length
  | .headerPooled header pre payload =>
    checkFrame maxMessageSize header (header.length + (pre.getD []).length + payload.length)
  | .headerInlinePooled header headerLen pre prefixLen payload =>
    if headerLen > header.length then .error (.headerLenExceeds headerLen header.length)
    else
      match pre with
      | some pre =>
        if prefixLen > pre.length then .error (.headerLenExceeds prefixLen pre.length)
        else
          checkFrame maxMessageSize (header.take headerLen)
            (headerLen + prefixLen + payload.length)
      | none => checkFrame maxMessageSize (header.take headerLen) (headerLen + payload.length)

/-- The bytes are not checked again for commands of the handle itself. -/
def trusted : WritePayload → Bool
  | .trustedFrame _ => true
  | _ => false

variable {maxMessageSize total headerLen : ℕ}

lemma frames_of_checkFrame (h : checkFrame maxMessageSize source total = .ok ())
    (htot : total = (source ++ rest).length) :
    Frames (fun c => c.bodyLen ≤ maxMessageSize) (source ++ rest) := by
  unfold checkFrame at h
  split at h
  · cases h
  · split at h
    · cases h
    next c hcontrol =>
      split at h
      · cases h
      · split at h
        · cases h
        next hlen _ =>
          refine .single (c := c) ?_ (htot.symm.trans (not_not.mp hlen)) (by omega)
          rw [take_append_of_le_length (by omega)]
          exact hcontrol

lemma frames_of_checkInline
    (h : checkInline maxMessageSize header headerLen rest.length = .ok ()) :
    Frames (fun c => c.bodyLen ≤ maxMessageSize) (header.take headerLen ++ rest) := by
  unfold checkInline at h
  split at h
  · cases h
  · refine frames_of_checkFrame h ?_
    rw [length_append, length_take]
    omega

/-- **What the checks establish**: the write is made of whole frames, none longer
than the limit. -/
theorem frames_of_check {payload : WritePayload} (htrusted : payload.trusted = false)
    (h : payload.check maxMessageSize = .ok ()) :
    Frames (fun c => c.bodyLen ≤ maxMessageSize) payload.bytes := by
  cases payload with
  | single => exact frames_of_rejectOversizeFrom _ _ le_rfl h
  | trustedFrame => cases htrusted
  | buf chunks =>
    simp only [check] at h
    split at h
    · cases h
    · cases chunks with
      | nil => cases h
      | cons chunk chunks =>
        exact frames_of_checkFrame h rfl
  | headerPayload | headerInline32 | directAskInline =>
    exact frames_of_checkFrame h (length_append ..).symm
  | headerInline | headerInlineAligned => exact frames_of_checkInline h
  | headerPooled =>
    refine frames_of_checkFrame h ?_
    rw [length_append, length_append]
    omega
  -- the bytes that are queued are the parts that are checked
  | headerInlinePooled header headerLen pre prefixLen payload =>
    simp only [check] at h
    split at h
    · cases h
    · cases pre with
      | none =>
        refine frames_of_checkFrame h ?_
        rw [length_append, length_take]
        show _ = _ + payload.length
        omega
      | some pre =>
        dsimp only at h
        split at h
        · cases h
        · refine frames_of_checkFrame h ?_
          show _ = (header.take headerLen ++ (pre.take prefixLen ++ payload)).length
          rw [length_append, length_append, length_take, length_take]
          omega

end WritePayload

/-! ### Producers and the queue -/

/-- A call of a public write method. -/
inductive WriteCall
  | write (payload : WritePayload)
  /-- `write_chunked_nonblocking` -/
  | writeChunked (data : Bytes) (chunkSize : ℕ)
  | writeBytesVectored (header payload : Bytes)
  | writeOwnedChunks (chunks : List Bytes)
  deriving DecidableEq, Repr

/-- `slice::chunks`; the chunk size is not zero. -/
def chunksOf (chunkSize : ℕ) : ℕ → Bytes → List Bytes
  | 0, _ => []
  | fuel + 1, data =>
    if data.isEmpty then []
    else data.take chunkSize :: chunksOf chunkSize fuel (data.drop chunkSize)

lemma flatten_chunksOf {chunkSize : ℕ} (hsize : chunkSize ≠ 0) :
    ∀ (fuel : ℕ) (data : Bytes), data.length ≤ fuel →
      (chunksOf chunkSize fuel data).flatten = data := by
  intro fuel
  induction fuel with
  | zero =>
    intro data hfuel
    obtain rfl : data = [] := eq_nil_of_length_eq_zero (by omega)
    rfl
  | succ _ ih =>
    intro data hfuel
    unfold chunksOf
    split
    next hemp =>
      rw [isEmpty_iff.mp hemp]
      rfl
    · rw [flatten_cons, ih _ (by rw [length_drop]; omega), take_append_drop]

namespace WriteCall

/-- The bytes the caller asks to be written. -/
def data : WriteCall → Bytes
  | .write payload => payload.bytes
  | .writeChunked data _ => data
  | .writeBytesVectored header payload => header ++ payload
  | .writeOwnedChunks chunks => chunks.flatten

/-- The checks before anything is queued.  A trusted frame is no caller's. -/
def accepted (maxMessageSize : ℕ) : WriteCall → Bool
  | .write payload => !payload.trusted && (payload.check maxMessageSize).isOk
  | .writeChunked data chunkSize =>
    data.isEmpty ||
      (rejectOversizeSingle maxMessageSize data).isOk && decide (chunkSize ≠ 0)
  -- a longer header does not fit the array of an `InlineFrameHeader`
  | .writeBytesVectored header _ => decide (header.length ≤ 32)
  | .writeOwnedChunks _ => true

/-- The control words of the data are looked at before it is queued. -/
def checked : WriteCall → Bool
  | .write _ | .writeChunked .. => true
  | .writeBytesVectored .. | .writeOwnedChunks _ => false

/-- The commands that are queued, one by one. -/
def commands : WriteCall → List Bytes
  | .write payload => [payload.bytes]
  | .writeChunked data chunkSize => chunksOf chunkSize data.length data
  | .writeBytesVectored header payload => [header ++ payload]
  | .writeOwnedChunks chunks => if chunks.isEmpty then [] else [chunks.flatten]

variable {maxMessageSize : ℕ} {call : WriteCall}

lemma flatten_commands (h : call.accepted maxMessageSize) :
    call.commands.flatten = call.data := by
  cases call with
  | write => exact append_nil _
  | writeChunked =>
    simp only [accepted, or_eq_true, and_eq_true, decide_eq_true_eq] at h
    cases h with
    | inl hemp =>
      rw [commands, WriteCall.data, isEmpty_iff.mp hemp]
      rfl
    | inr hok => exact flatten_chunksOf hok.2 _ _ le_rfl
  | writeBytesVectored => exact append_nil _
  | writeOwnedChunks chunks =>
    cases chunks with
    | nil => rfl
    | cons => exact append_nil _

lemma frames_of_accepted (h : call.accepted maxMessageSize) (hchecked : call.checked = true) :
    Frames (fun c => c.bodyLen ≤ maxMessageSize) call.data := by
  have hcheck : ∀ {x : Except WriteError Unit}, x.isOk = true → x = .ok () := by
    intro x hx
    cases x with
    | ok => rfl
    | error => cases hx
  cases call with
  | write =>
    simp only [accepted, and_eq_true, not_eq_true'] at h
    exact WritePayload.frames_of_check h.1 (hcheck h.2)
  | writeChunked =>
    simp only [accepted, or_eq_true, and_eq_true] at h
    cases h with
    | inl hemp =>
      rw [WriteCall.data, isEmpty_iff.mp hemp]
      exact .nil
    | inr hok => exact frames_of_rejectOversizeFrom _ _ le_rfl (hcheck hok.1)
  | writeBytesVectored | writeOwnedChunks => cases hchecked

end WriteCall

/-- A call that is running: what it has queued and what is left. -/
structure RunningWrite where
  call : WriteCall
  queued : List Bytes
  left : List Bytes

structure WriteQueueState where
  maxMessageSize : ℕ
  /-- the commands, each with its producer -/
  queue : List (ℕ × Bytes)
  running : ℕ → Option RunningWrite
  /-- the calls that have queued everything, with their producers -/
  returned : List (ℕ × WriteCall)
  /-- the producer that queued last, if it has chunks left -/
  midway : Option ℕ

inductive WriteEvent
  | call (producer : ℕ) (call : WriteCall)
  /-- the producer queues its next command -/
  | enqueue (producer : ℕ)

namespace WriteQueueState

def start (maxMessageSize : ℕ) : WriteQueueState :=
  ⟨maxMessageSize, [], fun _ => none, [], none⟩

def step (s : WriteQueueState) : WriteEvent → WriteQueueState
  | .call p call =>
    if s.running p = none ∧ call.accepted s.maxMessageSize then
      if call.commands = [] then { s with returned := s.returned ++ [(p, call)] }
      else { s with running := update s.running p (some ⟨call, [], call.commands⟩) }
    else s
  | .enqueue p =>
    match s.running p with
    | some ⟨call, queued, command :: left⟩ =>
      if left = [] then
        { s with
          queue := s.queue ++ [(p, command)]
          running := update s.running p none
          returned := s.returned ++ [(p, call)]
          midway := none }
      else
        { s with
          queue := s.queue ++ [(p, command)]
          running := update s.running p (some ⟨call, queued ++ [command], left⟩)
          midway := some p }
    | _ => s

/-- The bytes that go out. -/
def wire (s : WriteQueueState) : Bytes := (s.queue.map Prod.snd).flatten

def block (write : ℕ × WriteCall) : List (ℕ × Bytes) := write.2.commands.map (write.1, ·)

/-- No empty frame is written, what is not checked is made of frames within the limit, and
nothing is queued between the chunks of another producer's write. -/
def Undisturbed (s : WriteQueueState) : WriteEvent → Prop
  | .call _ call =>
    splitsIntoFrames (if call.checked then Control.filled else Control.readable s.maxMessageSize)
      call.data.length call.data
  | .enqueue p => s.midway = none ∨ s.midway = some p

instance (s : WriteQueueState) (e : WriteEvent) : Decidable (Undisturbed s e) := by
  cases e <;> unfold Undisturbed <;> infer_instance

/-- A call that the condition lets through. -/
def Sent (maxMessageSize : ℕ) (call : WriteCall) : Prop :=
  call.accepted maxMessageSize ∧ Frames (fun c => c.readable maxMessageSize) call.data

lemma Sent.of_undisturbed {s : WriteQueueState} {p : ℕ} {call : WriteCall}
    (hok : call.accepted s.maxMessageSize) (h : Undisturbed s (.call p call)) :
    Sent s.maxMessageSize call := by
  have hsplit := Frames.of_splits _ _ h
  refine ⟨hok, ?_⟩
  cases hchecked : call.checked with
  | true =>
    rw [hchecked, if_pos rfl] at hsplit
    refine ((call.frames_of_accepted hok hchecked).and hsplit).imp fun c hc => ?_
    rw [Control.readable, and_eq_true, decide_eq_true_eq]
    exact hc
  | false => rwa [hchecked, if_neg Bool.false_ne_true] at hsplit

structure Sorted (s : WriteQueueState) : Prop where
  /-- the writes one after the other, and the chunks of the one that is midway -/
  blocks : ∀ p w, s.running p = some w → s.midway = some p →
    s.queue = s.returned.flatMap block ++ w.queued.map (p, ·)
  whole : s.midway = none → s.queue = s.returned.flatMap block
  midway : ∀ p, s.midway = some p → s.running p ≠ none
  queued : ∀ p w, s.running p = some w → w.queued ≠ [] → s.midway = some p
  commands : ∀ p w, s.running p = some w → w.queued ++ w.left = w.call.commands
  running : ∀ p w, s.running p = some w → Sent s.maxMessageSize w.call
  returned : ∀ write ∈ s.returned, Sent s.maxMessageSize write.2

lemma sorted_start {maxMessageSize : ℕ} : Sorted (start maxMessageSize) :=
  ⟨fun _ _ h => (nomatch h), fun _ => rfl, fun _ h => (nomatch h), fun _ _ h => (nomatch h),
    fun _ _ h => (nomatch h), fun _ _ h => (nomatch h), fun _ h => (nomatch h)⟩

variable {writes : List (ℕ × WriteCall)} {maxMessageSize : ℕ} {w : RunningWrite}

lemma Sorted.queue_eq {s : WriteQueueState} (hs : Sorted s) {p : ℕ} (hw : s.running p = some w)
    (hturn : s.midway = none ∨ s.midway = some p) :
    s.queue = s.returned.flatMap block ++ w.queued.map (p, ·) := by
  cases hturn with
  | inl hnone =>
    have hqueued : w.queued = [] := by
      by_contra hne
      rw [hs.queued p w hw hne] at hnone
      cases hnone
    rw [hs.whole hnone, hqueued, map_nil, append_nil]
  | inr hsome => exact hs.blocks p w hw hsome

lemma Sorted.call {s : WriteQueueState} (hs : Sorted s) {p : ℕ} {call : WriteCall}
    (hidle : s.running p = none) (hsent : Sent s.maxMessageSize call) :
    Sorted { s with running := update s.running p (some ⟨call, [], call.commands⟩) } := by
  -- whoever is in the middle of a write is running
  have hnot : s.midway ≠ some p := fun h => hs.midway p h hidle
  refine ⟨?_, hs.whole, ?_, ?_, ?_, ?_, hs.returned⟩
  · intro q w hw hmid
    obtain ⟨rfl, ⟨⟩⟩ | ⟨-, hw⟩ := of_update hw
    · exact absurd hmid hnot
    · exact hs.blocks q w hw hmid
  · intro q hmid
    have hq : q ≠ p := fun heq => hnot (heq ▸ hmid)
    show update s.running p _ q ≠ none
    rw [update_of_ne hq]
    exact hs.midway q hmid
  · intro q w hw hne
    obtain ⟨rfl, ⟨⟩⟩ | ⟨-, hw⟩ := of_update hw
    · exact absurd rfl hne
    · exact hs.queued q w hw hne
  · intro q w hw
    obtain ⟨rfl, ⟨⟩⟩ | ⟨-, hw⟩ := of_update hw
    · rfl
    · exact hs.commands q w hw
  · intro q w hw
    obtain ⟨rfl, ⟨⟩⟩ | ⟨-, hw⟩ := of_update hw
    · exact hsent
    · exact hs.running q w hw

lemma mem_concat_sent {s : WriteQueueState} (hs : Sorted s) {p : ℕ} {call : WriteCall}
    (hsent : Sent s.maxMessageSize call) :
    ∀ write ∈ s.returned ++ [(p, call)], Sent s.maxMessageSize write.2 := by
  intro write hwrite
  cases mem_append.mp hwrite with
  | inl hold => exact hs.returned write hold
  | inr hnew =>
    rw [mem_singleton.mp hnew]
    exact hsent

lemma flatMap_concat (p : ℕ) (call : WriteCall) :
    (writes ++ [(p, call)]).flatMap block = writes.flatMap block ++ call.commands.map (p, ·) := by
  rw [flatMap_append, flatMap_singleton]
  rfl

lemma Sorted.empty {s : WriteQueueState} (hs : Sorted s) {p : ℕ} {call : WriteCall}
    (hnone : call.commands = []) (hsent : Sent s.maxMessageSize call) :
    Sorted { s with returned := s.returned ++ [(p, call)] } := by
  have hsame : (s.returned ++ [(p, call)]).flatMap block = s.returned.flatMap block := by
    rw [flatMap_concat, hnone, map_nil, append_nil]
  refine ⟨?_, ?_, hs.midway, hs.queued, hs.commands, hs.running, mem_concat_sent hs hsent⟩
  · intro q w hw hmid
    rw [hsame]
    exact hs.blocks q w hw hmid
  · intro hmid
    rw [hsame]
    exact hs.whole hmid

section Enqueue

variable {s : WriteQueueState} {p q : ℕ} {call : WriteCall} {queued left : List Bytes}
  {command : Bytes}

lemma Sorted.others (hs : Sorted s) (hturn : s.midway = none ∨ s.midway = some p) (hq : q ≠ p)
    (hw : s.running q = some w) : w.queued = [] := by
  by_contra hne
  have hmid := hs.queued q w hw hne
  rw [hmid] at hturn
  cases hturn with
  | inl h => cases h
  | inr h => exact hq (Option.some.inj h)

variable (hs : Sorted s) (hturn : s.midway = none ∨ s.midway = some p)
include hs hturn

lemma Sorted.last (hw : s.running p = some ⟨call, queued, [command]⟩) :
    Sorted { s with
      queue := s.queue ++ [(p, command)]
      running := update s.running p none
      returned := s.returned ++ [(p, call)]
      midway := none } := by
  have hoth : ∀ {q w}, update s.running p none q = some w →
      q ≠ p ∧ s.running q = some w := fun h => (of_update h).resolve_left nofun
  refine ⟨fun _ _ _ h => (nomatch h), fun _ => ?_, fun _ h => (nomatch h), ?_, ?_, ?_,
    mem_concat_sent hs (hs.running p _ hw)⟩
  · show s.queue ++ [(p, command)] = (s.returned ++ [(p, call)]).flatMap block
    rw [flatMap_concat, ← hs.commands p _ hw, hs.queue_eq hw hturn, map_append, append_assoc]
    rfl
  · intro q w hq hne
    exact absurd (hs.others hturn (hoth hq).1 (hoth hq).2) hne
  · exact fun q w hq => hs.commands q w (hoth hq).2
  · exact fun q w hq => hs.running q w (hoth hq).2

lemma Sorted.next (hw : s.running p = some ⟨call, queued, command :: left⟩) :
    Sorted { s with
      queue := s.queue ++ [(p, command)]
      running := update s.running p (some ⟨call, queued ++ [command], left⟩)
      midway := some p } := by
  refine ⟨?_, fun h => (nomatch h), ?_, ?_, ?_, ?_, hs.returned⟩
  · intro q w hq hmid
    obtain rfl : p = q := Option.some.inj hmid
    obtain ⟨-, ⟨⟩⟩ | ⟨hne, -⟩ := of_update hq
    · show s.queue ++ [(p, command)] = _
      rw [hs.queue_eq hw hturn, map_append, append_assoc]
      rfl
    · exact absurd rfl hne
  · intro q hmid
    obtain rfl : p = q := Option.some.inj hmid
    show update s.running p _ p ≠ none
    rw [update_self]
    exact nofun
  · intro q w hq hne
    obtain ⟨rfl, -⟩ | ⟨hqp, hq⟩ := of_update hq
    · rfl
    · -- the others have queued nothing, since it is this one's turn
      exact absurd (hs.others hturn hqp hq) hne
  · intro q w hq
    obtain ⟨rfl, ⟨⟩⟩ | ⟨-, hq⟩ := of_update hq
    · rw [← hs.commands q _ hw]
      exact append_assoc ..
    · exact hs.commands q w hq
  · intro q w hq
    obtain ⟨rfl, ⟨⟩⟩ | ⟨-, hq⟩ := of_update hq
    · have hcall := hs.running q _ hw
      exact hcall
    · exact hs.running q w hq

end Enqueue

lemma Sorted.step {s : WriteQueueState} (hs : Sorted s) {e : WriteEvent}
    (he : Undisturbed s e) : Sorted (s.step e) := by
  cases e with
  | call p call =>
    simp only [WriteQueueState.step]
    split
    next hok =>
      have hsent : Sent s.maxMessageSize call := .of_undisturbed hok.2 he
      split
      next hnone =>
        exact hs.empty hnone hsent
      · exact hs.call hok.1 hsent
    · exact hs
  | enqueue =>
    simp only [WriteQueueState.step]
    split
    next hw =>
      split
      next hlast =>
        rw [hlast] at hw
        exact hs.last he hw
      · exact hs.next he hw
    · exact hs

lemma maxMessageSize_exec (es : List WriteEvent) :
    (Run.exec step (start maxMessageSize) es).maxMessageSize = maxMessageSize := by
  refine Run.exec_invariant (P := fun s : WriteQueueState =>
    s.maxMessageSize = maxMessageSize) ?_ rfl es
  intro s e hs
  rw [← hs]
  cases e with
  | call | enqueue =>
    simp only [WriteQueueState.step]
    split
    · split <;> rfl
    · rfl

section

variable (h : ∀ write ∈ writes, Sent maxMessageSize write.2)
include h

lemma flatten_blocks :
    ((writes.flatMap block).map Prod.snd).flatten =
      (writes.map fun write => write.2.data).flatten := by
  induction writes with
  | nil => rfl
  | cons write _ ih =>
    have hdata : ((block write).map Prod.snd).flatten = write.2.data := by
      rw [block, map_map]
      show (write.2.commands.map id).flatten = _
      rw [map_id, WriteCall.flatten_commands (h write mem_cons_self).1]
    rw [flatMap_cons, map_append, flatten_append, hdata,
      ih fun other hoth => h other (mem_cons_of_mem _ hoth)]
    rfl

lemma frames_of_writes :
    Frames (fun c => c.readable maxMessageSize)
      (writes.map fun write => write.2.data).flatten := by
  induction writes with
  | nil => exact .nil
  | cons write _ ih =>
    exact (h write mem_cons_self).2.append
      (ih fun other hoth => h other (mem_cons_of_mem _ hoth))

end

/-- A frame with a body of four bytes, for the runs below. -/
def shortFrame : Bytes := encodeControl ⟨.gossip, 4⟩ ++ [255, 255, 255, 255]

end WriteQueueState

end IcanactRemote
