/-
Reading does not depend on how the bytes are cut.

The transport may hand the bytes of a peer over in pieces of any size, with
pauses anywhere.  `readAll` reads them one at a time, without a transport and
without a clock; the reader is compared with it.

* `feed_got` — a read of several bytes is as good as so many reads of one;
* `Connection.Reads.call` — after each call the reader is where `readAll` is after
  the same bytes;
* `Connection.fragmentation_independent` — the messages, the stream table and the
  error at the end are those of `readAll`, and the error is the orderly close
  exactly when the bytes are a whole number of accepted frames.
-/
import IcanactRemote.FrameTrace
import IcanactRemote.Untimed

namespace IcanactRemote

open StreamingState Reader List

variable {α : Type}

/-! ### One byte at a time -/

/-- What a caller does with a result before its next call: it handles aborts, or
it does nothing. -/
def handle (aborts : Bool) (streaming : StreamingState) (result : Option (MessageReadResult α)) :
    StreamingState :=
  if aborts then Connection.dispatch streaming result else streaming

/-- A discard with nothing left is at its end. -/
def Reader.settle (r : Reader) : Reader :=
  match r.state with
  | .discardStreamPayload 0 mark =>
    { r with
      state := .new
      streaming := (Reader.finishDiscardingReservation r.streaming mark).2 }
  | _ => r

/-- The messages so far, and the reader. -/
structure Reading (α : Type) where
  results : List (MessageReadResult α)
  reader : Reader

open Reading

/-- The messages, the stream table and the error at the end. -/
structure Ended (α : Type) where
  results : List (MessageReadResult α)
  streaming : StreamingState
  stop : Stop

/-- What comes of an outcome. -/
def Reading.after (aborts : Bool) (results : List (MessageReadResult α)) :
    PollOutcome α × Reader → Except (Ended α) (Reading α)
  | (.error e, r) => .error ⟨results, r.streaming, e⟩
  | (.ok none, r) => .ok ⟨results, r⟩
  | (.ok (some poll), r) =>
    .ok ⟨results ++ poll.result.toList,
      { r with streaming := handle aborts r.streaming poll.result }⟩

def Reading.eat (aborts : Bool) (ctx : ReadContext α) (p : Reading α) (b : Fin 256) :
    Except (Ended α) (Reading α) :=
  after aborts p.results (p.reader.settle.got ctx (fun _ => 0) [b])

def Reading.feed (aborts : Bool) (ctx : ReadContext α) (p : Reading α) (bytes : Bytes) :
    Except (Ended α) (Reading α) :=
  bytes.foldlM (eat aborts ctx) p

def Reading.close (p : Reading α) : Ended α :=
  ⟨p.results, p.reader.settle.streaming, networkError p.reader.settle.eof⟩

/-- All the bytes, and then the end of the stream. -/
def Reading.readAll (aborts : Bool) (ctx : ReadContext α) (p : Reading α) (bytes : Bytes) :
    Ended α :=
  match p.feed aborts ctx bytes with
  | .error ended => ended
  | .ok p => p.close

variable {res : ReadPollResult α} {inbox : List Segment} {r' : Reader}

section Feed

variable {aborts : Bool} {ctx : ReadContext α} {r : Reader} {p q : Reading α}
  {results : List (MessageReadResult α)} {clock : ℕ → Instant} {b : Fin 256}
  {bytes buffer xs ys : Bytes}

lemma untimed_handle (s : StreamingState) (result : Option (MessageReadResult α)) :
    (handle aborts s result).untimed = handle aborts s.untimed result := by
  unfold handle Connection.dispatch
  cases aborts with
  | false => rfl
  | true =>
    simp only [if_true]
    split
    next streamId reason =>
      exact congrArg Prod.snd (untimed_abortStream s streamId)
    · rfl

lemma handle_none (s : StreamingState) :
    handle aborts s (none : Option (MessageReadResult α)) = s := by
  cases aborts <;> rfl

lemma Reader.settle_of_want (h : 0 < r.want) : r.settle = r := by
  unfold settle
  split
  next hstate =>
    unfold want at h
    rw [hstate] at h
    cases h
  · rfl

lemma Reader.untimed_settle (r : Reader) : r.settle.untimed = r.untimed.settle := by
  have hstate : r.untimed.state = r.state := rfl
  unfold settle
  rw [hstate]
  split
  next mark _ =>
    cases mark with
    | none => rfl
    | some mark =>
      have hmark := untimed_markTombstone r.streaming mark.1 mark.2
      exact congrArg (fun s => (⟨.new, s, r.routes⟩ : Reader)) (congrArg Prod.snd hmark)
  · rfl

lemma Reading.after_untimedOut
    {r : Reader} : after aborts results (untimedOut (.ok (some res), r)) =
      .ok ⟨results ++ res.result.toList,
        untimed { r with streaming := handle aborts r.streaming res.result }⟩ := by
  show Except.ok (⟨_, { r.untimed with streaming := handle aborts r.streaming.untimed _ }⟩ :
    Reading α) = _
  rw [← untimed_handle]
  rfl

/-! ### Several bytes at once -/

variable (state : ReadState)

lemma Reading.after_gotPrefix (buf : Bytes) :
    after aborts results (untimedOut ({ r with state := state }.gotPrefix ctx buf)) =
      after aborts results (untimedOut (r.gotPrefix ctx buf)) := by
  unfold gotPrefix
  split
  · rfl
  · cases decodeControl buf with
    | none => rfl
    | some control =>
      simp only
      split
      · rfl
      · split
        · rfl
        · cases streamMetaLen control.kind with
          | none => rfl
          | some =>
            simp only
            split <;> rfl

lemma Reading.after_gotMeta (kind : WireKind) (bodyLen : ℕ) (metadata : Bytes) (metaLen : ℕ) :
    after aborts results (untimedOut
        ({ r with state := state }.gotMeta clock kind bodyLen metadata metaLen)) =
      after aborts results (untimedOut
        (r.gotMeta clock kind bodyLen metadata metaLen)) := by
  unfold gotMeta
  split
  · rfl
  · simp only
    obtain ⟨out, s⟩ := reserveV5StreamPayload kind bodyLen metadata r.streaming clock
    cases out with
    | error => rfl
    | ok reservation =>
      simp only
      cases streamPayloadState reservation bodyLen metaLen <;> rfl

lemma writeAt_writeAt {start : ℕ} (h : start + xs.length ≤ buffer.length) :
    writeAt (writeAt buffer start xs) (start + xs.length) ys = writeAt buffer start (xs ++ ys) := by
  have hlen : (buffer.take start ++ xs).length = start + xs.length := by
    rw [length_append, length_take]
    omega
  have htake : (writeAt buffer start xs).take (start + xs.length) = buffer.take start ++ xs := by
    rw [writeAt, ← hlen, take_left]
  have hdrop : (writeAt buffer start xs).drop (start + xs.length + ys.length) =
      buffer.drop (start + (xs ++ ys).length) := by
    rw [writeAt, ← drop_drop, ← hlen, drop_left, hlen, drop_drop, length_append, Nat.add_assoc]
  rw [writeAt, htake, hdrop, writeAt, append_assoc (buffer.take start)]

lemma filled_filled {stream : InProgressStream} {stride read : ℕ} {now : Instant}
    {reservation : StreamChunkReservation} (hwf : stream.Wf stride)
    (hres : Reserved stream stride reservation) (hlen : read + 1 ≤ reservation.len) :
    filled (filled stream now reservation read [b]) now reservation (read + 1) bytes =
      filled stream now reservation read (b :: bytes) := by
  have hend := hres.end_le hwf
  have hbuf : writeAt (writeAt stream.buffer (reservation.offset + read) [b])
      (reservation.offset + (read + 1)) bytes =
      writeAt stream.buffer (reservation.offset + read) (b :: bytes) := by
    refine writeAt_writeAt ?_
    rw [hwf.buffer]
    simp only [length_singleton]
    omega
  have hcnt : saturatingAdd (saturatingAdd stream.totalBytesProgressed 1) bytes.length =
      saturatingAdd stream.totalBytesProgressed (bytes.length + 1) := by
    unfold saturatingAdd
    omega
  show { stream with
    buffer := writeAt (writeAt stream.buffer (reservation.offset + read) [b])
      (reservation.offset + (read + 1)) bytes
    lastActivity := now
    totalBytesProgressed := saturatingAdd (saturatingAdd stream.totalBytesProgressed 1)
      bytes.length } = _
  rw [hbuf, hcnt]
  rfl

lemma PollStep.present (hstep : PollStep ctx r bytes res r') (hpres : r.Present) : r'.Present := by
  cases hstep with
  | idle => exact hpres
  | opened =>
    rintro _ _ ⟨⟩
    exact ⟨_, (Table.get_insert ..).trans (if_pos rfl)⟩
  | reserved hstate hlen hkind hget =>
    rintro _ _ ⟨⟩
    exact ⟨_, hget⟩
  | payloadMore now hstate hget =>
    rintro _ _ ⟨⟩
    exact ⟨_, get_modifyActive_self hget _⟩
  | _ => exact nofun

lemma Reader.wf_of_got (h : r.Wf) (hpres : r.Present) (hlen : bytes.length ≤ r.want)
    (hgot : r.got ctx clock bytes = (progress, r')) : r'.Wf ∧ r'.Present := by
  have hto : GotTo ctx r bytes (r.got ctx clock bytes) := gotTo_got h hpres hlen
  obtain ⟨e, r'', hout, -⟩ | ⟨res, r'', hout, hstep⟩ := hto
  · rw [hgot] at hout
    cases hout
  · rw [hgot] at hout
    cases hout
    exact ⟨hstep.wf h, hstep.present hpres⟩

/-- **A read of several bytes** is a read of the first and a read of the rest. -/
theorem Reader.got_cons (h : r.Wf) (hne : bytes ≠ []) (hlen : (b :: bytes).length ≤ r.want) :
    ∃ r', r.got ctx clock [b] = (progress, r') ∧ bytes.length ≤ r'.want ∧
      ∀ results, after aborts results (untimedOut (r.got ctx clock (b :: bytes))) =
        after aborts results (untimedOut (r'.got ctx clock bytes)) := by
  have hpos : 0 < bytes.length := length_pos_of_ne_nil hne
  have happend (buf : Bytes) : buf ++ b :: bytes = (buf ++ [b]) ++ bytes := by simp
  have hroom (buf : Bytes) (n : ℕ) (h : bytes.length + 1 ≤ n - buf.length) :
      (buf ++ [b]).length < n ∧ bytes.length ≤ n - (buf ++ [b]).length := by
    rw [length_append, length_singleton]
    omega
  rw [length_cons] at hlen
  unfold want at hlen
  unfold got
  cases hstate : r.state with
  | readLen buf =>
    rw [hstate] at hlen
    obtain ⟨hshort, hleft⟩ := hroom buf lengthPrefixLen hlen
    refine ⟨{ r with state := .readLen (buf ++ [b]) }, if_pos hshort, hleft, fun results => ?_⟩
    show after aborts results (untimedOut (r.gotPrefix ctx (buf ++ b :: bytes))) = _
    rw [happend]
    exact (after_gotPrefix ..).symm
  | readBody buf msgLen body =>
    rw [hstate] at hlen
    obtain ⟨hshort, hleft⟩ := hroom body msgLen hlen
    refine ⟨{ r with state := .readBody buf msgLen (body ++ [b]) }, if_pos hshort, hleft,
      fun results => ?_⟩
    show after aborts results (untimedOut (r.gotBody ctx buf msgLen (body ++ b :: bytes))) = _
    rw [happend]
    rfl
  | readStreamMeta kind bodyLen metadata metaLen =>
    rw [hstate] at hlen
    obtain ⟨hshort, hleft⟩ := hroom metadata metaLen hlen
    refine ⟨{ r with state := .readStreamMeta kind bodyLen (metadata ++ [b]) metaLen },
      if_pos hshort, hleft, fun results => ?_⟩
    show after aborts results
      (untimedOut (r.gotMeta clock kind bodyLen (metadata ++ b :: bytes) metaLen)) = _
    rw [happend]
    exact (after_gotMeta ..).symm
  | readStreamPayload reservation read =>
    rw [hstate] at hlen
    have hlen : bytes.length + 1 ≤ reservation.len - read := hlen
    have hwf := h.state
    rw [hstate] at hwf
    obtain ⟨-, hres⟩ := hwf
    have hshort : read + 1 < reservation.len := by omega
    -- the two pieces are written side by side
    have hfill : ((r.streaming.modifyActive reservation.streamId fun stream =>
        filled stream (clock 0) reservation read [b]).modifyActive reservation.streamId
          fun stream => filled stream (clock 0) reservation (read + 1) bytes) =
        r.streaming.modifyActive reservation.streamId fun stream =>
          filled stream (clock 0) reservation read (b :: bytes) := by
      unfold modifyActive
      rw [Table.modify_modify]
      refine congrArg (fun active => { r.streaming with activeStreams := active })
        (Table.modify_congr ?_)
      intro stream hget
      obtain ⟨-, stride, hstr⟩ := h.streaming.active _ stream hget
      exact filled_filled hstr (hres stream stride hget hstr) hshort.le
    refine ⟨{ r with
      state := .readStreamPayload reservation (read + 1)
      streaming := r.streaming.modifyActive reservation.streamId fun stream =>
        filled stream (clock 0) reservation read [b] }, ?_, ?_, ?_⟩
    · show r.gotPayload clock reservation read [b] = _
      unfold gotPayload
      rw [recordV5ChunkProgress_fillTarget]
      exact if_pos hshort
    · show bytes.length ≤ reservation.len - (read + 1)
      omega
    · intro results
      show after aborts results (untimedOut (r.gotPayload clock reservation read _)) =
        after aborts results (untimedOut (gotPayload _ clock reservation _ _))
      unfold gotPayload
      rw [recordV5ChunkProgress_fillTarget, recordV5ChunkProgress_fillTarget, hfill,
        length_cons, Nat.add_comm bytes.length 1, ← Nat.add_assoc]
  | discardStreamPayload remaining mark =>
    rw [hstate] at hlen
    have hlen : bytes.length + 1 ≤ remaining := hlen
    refine ⟨{ r with state := .discardStreamPayload (remaining - 1) mark }, ?_, ?_, ?_⟩
    · show r.gotDiscard remaining mark [b] = _
      unfold gotDiscard
      rw [subLen_of_le (show [b].length ≤ remaining by simp; omega)]
      exact if_neg (by simp; omega)
    · show bytes.length ≤ remaining - 1
      omega
    · intro results
      show after aborts results (untimedOut (r.gotDiscard remaining mark _)) =
        after aborts results (untimedOut (gotDiscard _ (remaining - 1) mark _))
      unfold gotDiscard
      rw [subLen_of_le (show (b :: bytes).length ≤ remaining from hlen),
        subLen_of_le (show bytes.length ≤ remaining - 1 by omega), length_cons,
        show remaining - (bytes.length + 1) = remaining - 1 - bytes.length by omega]

/-- **A read is as good as so many reads of one byte.** -/
theorem feed_got (h : r.Wf) (hpres : r.Present) (hne : bytes ≠ [])
    (hlen : bytes.length ≤ r.want) : after aborts results (untimedOut (r.got ctx clock bytes)) =
      feed aborts ctx ⟨results, r.untimed⟩ bytes := by
  induction bytes generalizing r with
  | nil => exact absurd rfl hne
  | cons b bytes ih =>
    have hwant : 0 < r.untimed.want := by
      have hwant : r.untimed.want = r.want := rfl
      rw [length_cons] at hlen
      omega
    have heat : eat aborts ctx ⟨results, r.untimed⟩ b =
        after aborts results (untimedOut (r.got ctx clock [b])) := by
      show after aborts results (r.untimed.settle.got ctx _ [b]) = _
      rw [settle_of_want hwant, ← untimed_got ctx clock]
    rw [feed, foldlM_cons, heat]
    -- the last byte, or the reader goes on with less to want
    by_cases hlast : bytes = []
    · rw [hlast]
      exact (bind_pure _).symm
    · obtain ⟨r', hgot, hrest, hsame⟩ := got_cons h hlast hlen
      obtain ⟨hwf', hpres'⟩ := wf_of_got h hpres (show [b].length ≤ r.want from hwant) hgot
      rw [hsame, hgot, progress, after_untimedOut, handle_none]
      rw [ih hwf' hpres' hlast hrest]
      show feed aborts ctx ⟨results, r'.untimed⟩ bytes =
        feed aborts ctx ⟨results ++ [], r'.untimed⟩ bytes
      rw [append_nil]

lemma Reading.feed_congr (hresults : p.results = q.results)
    (hrdr : p.reader.settle = q.reader.settle) (hne : bytes ≠ []) :
    p.feed aborts ctx bytes = q.feed aborts ctx bytes := by
  cases bytes with
  | nil => exact absurd rfl hne
  | cons =>
    rw [feed, foldlM_cons, feed, foldlM_cons, eat, eat, hresults, hrdr]

lemma Reading.feed_append :
    p.feed aborts ctx (xs ++ ys) = (p.feed aborts ctx xs).bind fun q => q.feed aborts ctx ys :=
  foldlM_append

end Feed

/-! ### Runs -/

namespace Connection

variable {aborts : Bool} {ctx : ReadContext α} {c c' : Connection α} {total : Bytes}

/-- One call of `read_message_step_poll`, with the caller's part after it. -/
def call (aborts : Bool) (ctx : ReadContext α) (c : Connection α)
    (poll : Bool × (ℕ → Instant)) : Connection α :=
  if c.stopped.isSome then c
  else
    match c.reader.readMessageStepPoll ctx poll.2 poll.1 c.inbox with
    | (.error e, reader, inbox) => { c with reader, inbox, stopped := some e }
    | (.ok none, reader, inbox) => { c with reader, inbox }
    | (.ok (some poll), reader, inbox) =>
      { c with
        reader := { reader with streaming := handle aborts reader.streaming poll.result }
        inbox
        results := c.results ++ poll.result.toList
        delivered := c.delivered ++ poll.completed.toList }

/-- What a call does to a connection that still reads, when the transport does
not fail. -/
inductive CallsTo (aborts : Bool) (ctx : ReadContext α) (c : Connection α) : Connection α → Prop
  /-- a discard ends without a read -/
  | settled {mark : Option (ℕ × ℕ)} {streaming : StreamingState}
      (hstate : c.reader.state = .discardStreamPayload 0 mark)
      (hfinish : Reader.finishDiscardingReservation c.reader.streaming mark = (.ok (), streaming)) :
      CallsTo aborts ctx c { c with reader := { c.reader with state := .new, streaming } }
  | waited {rest : List Segment} (hinbox : c.inbox = .pending :: rest) :
      CallsTo aborts ctx c { c with inbox := rest }
  | closed (hinbox : c.inbox = []) (hwant : 0 < c.reader.want) :
      CallsTo aborts ctx c { c with stopped := some (networkError c.reader.eof) }
  | refused {bytes : Bytes} {rest : List Segment} {reader : Reader} {stop : Stop}
      (clock : ℕ → Instant) (hbytes : inboxBytes c.inbox = bytes ++ inboxBytes rest)
      (hne : bytes ≠ []) (hlen : bytes.length ≤ c.reader.want)
      (hfailed : ∀ code, .failed code ∈ rest → .failed code ∈ c.inbox)
      (hgot : c.reader.got ctx clock bytes = (.error stop, reader))
      (herror : PollError ctx c.reader bytes stop) :
      CallsTo aborts ctx c { c with reader, inbox := rest, stopped := some stop }
  | read {bytes : Bytes} {rest : List Segment} {reader : Reader} {res : ReadPollResult α}
      (clock : ℕ → Instant) (hbytes : inboxBytes c.inbox = bytes ++ inboxBytes rest)
      (hne : bytes ≠ []) (hlen : bytes.length ≤ c.reader.want)
      (hfailed : ∀ code, .failed code ∈ rest → .failed code ∈ c.inbox)
      (hrest : rest.length ≤ c.inbox.length)
      (hgot : c.reader.got ctx clock bytes = (.ok (some res), reader))
      (hstep : PollStep ctx c.reader bytes res reader) :
      CallsTo aborts ctx c { c with
        reader := { reader with streaming := handle aborts reader.streaming res.result }
        inbox := rest
        results := c.results ++ res.result.toList
        delivered := c.delivered ++ res.completed.toList }

variable {poll : Bool × (ℕ → Instant)}

lemma call_of_stopped (h : c.stopped.isSome = true) : c.call aborts ctx poll = c := if_pos h

lemma call_cases (hopen : c.stopped = none) (hwf : c.reader.Wf) (hpres : c.reader.Present)
    (hfailure : ∀ code, .failed code ∉ c.inbox) :
    CallsTo aborts ctx c (c.call aborts ctx poll) := by
  have hnot : ¬(c.stopped.isSome = true) := by
    rw [hopen]
    exact nofun
  -- nothing is wanted at the end of a discard only
  obtain hwant | hwant := Nat.eq_zero_or_pos c.reader.want
  · obtain ⟨mark, streaming, hstate, hfinish, hpoll⟩ := poll_of_want_zero ctx hwf hwant
    simp only [call, if_neg hnot, hpoll, progress, handle_none, Option.toList_none, append_nil]
    exact .settled hstate hfinish
  · obtain ⟨target, htgt, hle, hpoll⟩ := poll_eq ctx hwf hpres hwant poll.2 poll.1 c.inbox
    obtain ⟨hnil, heq⟩ | ⟨rest, hinbox, heq⟩ | ⟨code, rest, hinbox, -⟩ |
      ⟨b, bs, rest, heq, hlen, hbytes, hrest, hfailed⟩ := pollReadOnce_cases c.inbox htgt
    · simp only [call, if_neg hnot, hpoll, readInto_eof heq]
      have hcls : CallsTo aborts ctx c _ := .closed hnil hwant
      rw [hnil] at hcls
      exact hcls
    · simp only [call, if_neg hnot, hpoll, readInto_pending heq]
      cases poll.1 with
      | true => exact .waited hinbox
      | false =>
        simp only [Bool.false_eq_true, if_false, noProgress, handle_none,
          Option.toList_none, append_nil]
        exact .waited hinbox
    · exact absurd (by rw [hinbox]; exact mem_cons_self) (hfailure code)
    · have hto : GotTo ctx c.reader (b :: bs) (c.reader.got ctx poll.2 (b :: bs)) :=
        gotTo_got hwf hpres (hlen.trans hle)
      simp only [call, if_neg hnot, hpoll, readInto_ready heq]
      obtain ⟨e, r', hout, -, herror⟩ | ⟨res, r', hout, hstep⟩ := hto
      · rw [hout]
        exact .refused poll.2 hbytes (cons_ne_nil b bs) (hlen.trans hle) hfailed hout herror
      · rw [hout]
        exact .read poll.2 hbytes (cons_ne_nil b bs) (hlen.trans hle) hfailed hrest hout hstep

/-- Where a connection is that has taken all but its inbox of `total`. -/
structure Reads (aborts : Bool) (ctx : ReadContext α) (p : Reading α) (total : Bytes)
    (c : Connection α) : Prop where
  noFailure : ∀ code, .failed code ∉ c.inbox
  reading : c.stopped = none → c.reader.Wf ∧ c.reader.Present ∧ ∃ pre q,
    total = pre ++ inboxBytes c.inbox ∧ p.feed aborts ctx pre = .ok q ∧ q.results = c.results ∧
    q.reader.settle = c.reader.untimed.settle
  ended : ∀ stop, c.stopped = some stop →
    p.readAll aborts ctx total = ⟨c.results, c.reader.streaming.untimed, stop⟩

variable {p : Reading α} {bytes : Bytes}

section

variable (h : Reads aborts ctx p total c) (hopen : c.stopped = none)
include h hopen

lemma Reads.ended_of_eof (hinbox : c.inbox = []) (hwant : 0 < c.reader.want) :
    p.readAll aborts ctx total =
      ⟨c.results, c.reader.streaming.untimed, networkError c.reader.eof⟩ := by
  obtain ⟨-, -, pre, q, htot, hfeed, hresults, hrdr⟩ := h.reading hopen
  rw [hinbox, inboxBytes, flatMap_nil, append_nil] at htot
  have hsettle : c.reader.untimed.settle = c.reader.untimed := settle_of_want hwant
  rw [readAll, htot, hfeed]
  show close q = _
  rw [close, hresults, hrdr, hsettle]
  rfl

lemma Reads.feed_read (hbytes : inboxBytes c.inbox = bytes ++ inboxBytes inbox)
    (hne : bytes ≠ []) (hlen : bytes.length ≤ c.reader.want) (clock : ℕ → Instant) :
    ∃ pre, total = (pre ++ bytes) ++ inboxBytes inbox ∧ p.feed aborts ctx (pre ++ bytes) =
      Reading.after aborts c.results (Reader.untimedOut (c.reader.got ctx clock bytes)) := by
  obtain ⟨hwf, hpres, pre, q, htot, hfeed, hresults, hrdr⟩ := h.reading hopen
  refine ⟨pre, by rw [htot, hbytes, append_assoc], ?_⟩
  rw [feed_append, hfeed, feed_got hwf hpres hne hlen]
  exact feed_congr hresults hrdr hne

lemma Reads.quiet (hopen' : c'.stopped = none) (hwf : c'.reader.Wf) (hpres : c'.reader.Present)
    (hinbox : ∀ code, .failed code ∉ c'.inbox) (hbytes : inboxBytes c'.inbox = inboxBytes c.inbox)
    (hresults : c'.results = c.results)
    (hrdr : c'.reader.untimed.settle = c.reader.untimed.settle) : Reads aborts ctx p total c' := by
  obtain ⟨-, -, pre, q, htot, hfeed, hq, hsettle⟩ := h.reading hopen
  refine ⟨hinbox, fun _ => ⟨hwf, hpres, pre, q, ?_, hfeed, ?_, ?_⟩, ?_⟩
  · rw [hbytes, htot]
  · rw [hresults, hq]
  · rw [hrdr, hsettle]
  · intro stop hstop
    cases hopen'.symm.trans hstop

end

lemma handled_wf {r : Reader} (h : r.Wf) (hstep : PollStep ctx r bytes res r') :
    Wf { r' with streaming := handle aborts r'.streaming res.result } := by
  cases aborts with
  | false => exact hstep.wf h
  | true => exact h.dispatched hstep

lemma handled_present {r : Reader} (hpres : r.Present) (hstep : PollStep ctx r bytes res r') :
    Present { r' with streaming := handle aborts r'.streaming res.result } := by
  cases hres : res.result with
  | none =>
    rw [handle_none]
    exact hstep.present hpres
  | some =>
    intro reservation read hstate
    rw [hstep.state_of_result hres] at hstate
    cases hstate

lemma Reads.call (h : Reads aborts ctx p total c) (poll : Bool × (ℕ → Instant)) :
    Reads aborts ctx p total (c.call aborts ctx poll) := by
  cases hstopped : c.stopped with
  | some =>
    rw [call_of_stopped (by rw [hstopped]; rfl)]
    exact h
  | none =>
    obtain ⟨hwf, hpres, -⟩ := h.reading hstopped
    have hcases : CallsTo aborts ctx c (c.call aborts ctx poll) :=
      call_cases hstopped hwf hpres h.noFailure
    generalize c.call aborts ctx poll = c' at hcases ⊢
    cases hcases with
    | settled hstate hfinish =>
      rename_i mark streaming
      have hstep : PollStep ctx c.reader [] ⟨none, none, true⟩
          { c.reader with state := .new, streaming } := .discardDone hstate rfl hfinish
      have hsettle : c.reader.settle = { c.reader with state := .new, streaming } := by
        simp only [settle, hstate, hfinish]
      -- the end of a discard reads nothing, and `settle` has run ahead of it
      refine h.quiet hstopped hstopped (hstep.wf hwf) (hstep.present hpres) h.noFailure rfl rfl
        ?_
      rw [← untimed_settle c.reader, hsettle]
      exact settle_of_want (Nat.zero_lt_succ 3)
    | waited hinbox =>
      refine h.quiet hstopped hstopped hwf hpres ?_ ?_ rfl rfl
      · intro code hmem
        refine h.noFailure code ?_
        rw [hinbox]
        exact mem_cons_of_mem _ hmem
      · rw [hinbox]
        rfl
    | closed hinbox hwant =>
      refine ⟨h.noFailure, nofun, ?_⟩
      rintro _ ⟨⟩
      exact h.ended_of_eof hstopped hinbox hwant
    | refused clock hbytes hne hlen hfailed hgot =>
      obtain ⟨pre, htot, hfeed⟩ := h.feed_read hstopped hbytes hne hlen clock
      rw [hgot] at hfeed
      refine ⟨fun code hmem => h.noFailure code (hfailed code hmem), nofun, ?_⟩
      rintro _ ⟨⟩
      rw [readAll, htot, feed_append, hfeed]
      rfl
    | read clock hbytes hne hlen hfailed hrest hgot hstep =>
      -- the bytes before the read, and the read byte by byte
      obtain ⟨pre, htot, hfeed⟩ := h.feed_read hstopped hbytes hne hlen clock
      rw [hgot, after_untimedOut] at hfeed
      refine ⟨fun code hmem => h.noFailure code (hfailed code hmem), fun _ => ⟨handled_wf hwf hstep,
        handled_present hpres hstep, _, _, htot, hfeed, rfl, rfl⟩, ?_⟩
      intro stop hstop
      cases hstopped.symm.trans hstop

/-- How many calls it takes at most until the end. -/
def callsLeft (c : Connection α) : ℕ :=
  2 * (inboxBytes c.inbox).length + c.inbox.length + if c.reader.want = 0 then 1 else 0

/-- Each call takes something from the inbox, or ends a discard. -/
lemma Reads.callsLeft_call (h : Reads aborts ctx p total c) (hstop : c.stopped = none)
    (hopen : (c.call aborts ctx poll).stopped = none) :
    (c.call aborts ctx poll).callsLeft < c.callsLeft := by
  obtain ⟨hwf, hpres, -⟩ := h.reading hstop
  have hcases : CallsTo aborts ctx c (c.call aborts ctx poll) :=
    call_cases hstop hwf hpres h.noFailure
  generalize c.call aborts ctx poll = c' at hcases hopen ⊢
  cases hcases with
  | settled hstate =>
    have hzero : c.reader.want = 0 := by
      unfold want
      rw [hstate]
    have hfour : ¬(({ c.reader with state := .new } : Reader).want = 0) := nofun
    show _ + _ + _ < _
    rw [callsLeft, if_pos hzero]
    exact Nat.add_lt_add_left (Nat.lt_of_le_of_lt (Nat.le_of_eq (if_neg hfour)) Nat.one_pos) _
  | waited hinbox =>
    rename_i rest
    have hbytes : inboxBytes c.inbox = inboxBytes rest := by
      rw [hinbox]
      rfl
    have hlen : c.inbox.length = rest.length + 1 := by
      rw [hinbox]
      rfl
    show 2 * (inboxBytes rest).length + rest.length + (if c.reader.want = 0 then 1 else 0) < _
    rw [callsLeft, hbytes, hlen]
    omega
  | closed | refused => cases hopen
  | read clock hbytes hne hlen hfailed hrest hgot hstep =>
    rename_i bytes rest reader res
    -- a byte counts twice, so it pays for the discard that may follow
    have hpos := length_pos_of_ne_nil hne
    have hcnt := congrArg length hbytes
    rw [length_append] at hcnt
    show 2 * (inboxBytes rest).length + rest.length + (if _ then 1 else 0) <
      2 * (inboxBytes c.inbox).length + c.inbox.length + _
    split <;> omega

lemma exec_of_stopped (h : c.stopped.isSome = true) (polls : List (Bool × (ℕ → Instant))) :
    Run.exec (call aborts ctx) c polls = c := by
  induction polls with
  | nil => rfl
  | cons poll polls ih => rw [Run.exec_cons, call_of_stopped h, ih]

lemma Reads.stopped_of_calls (h : Reads aborts ctx p total c)
    {polls : List (Bool × (ℕ → Instant))} (hlen : c.callsLeft < polls.length) :
    (Run.exec (Connection.call aborts ctx) c polls).stopped.isSome = true := by
  induction polls generalizing c with
  | nil => exact absurd hlen (Nat.not_lt_zero _)
  | cons poll polls ih =>
    rw [Run.exec_cons]
    cases hnext : (c.call aborts ctx poll).stopped with
    | some =>
      have hsome : (c.call aborts ctx poll).stopped.isSome = true := by
        rw [hnext]
        rfl
      rw [exec_of_stopped hsome]
      exact hsome
    | none =>
      cases hstop : c.stopped with
      | some =>
        rw [call_of_stopped (by rw [hstop]; rfl), hstop] at hnext
        cases hnext
      | none =>
        have hless := h.callsLeft_call hstop hnext
        rw [length_cons] at hlen
        exact ih (h.call poll) (by omega)

end Connection

/-! ### Whole frames -/

/-- The frame is read without an error, and nothing of it is left. -/
def Reading.accept (aborts : Bool) (ctx : ReadContext α) (p : Reading α) (f : Frame) :
    Option (Reading α) :=
  match p.feed aborts ctx f.bytes with
  | .ok q => if q.reader.settle.state = .new then some ⟨q.results, q.reader.settle⟩ else none
  | .error _ => none

section Frames

variable {aborts : Bool} {ctx : ReadContext α} {r : Reader} {p q s q' : Reading α} {bytes : Bytes}

lemma Reader.settle_ok (h : r.Wf) (hpres : r.Present) :
    r.settle.Wf ∧ r.settle.Present ∧ 0 < r.settle.want := by
  obtain hwant | hwant := Nat.eq_zero_or_pos r.want
  · obtain ⟨mark, streaming, hstate, hfinish, -⟩ :=
      poll_of_want_zero (⟨fun _ => none, 0⟩ : ReadContext Unit) h hwant
    have hstep : PollStep (⟨fun _ => none, 0⟩ : ReadContext Unit) r [] ⟨none, none, true⟩
        { r with state := .new, streaming } := .discardDone hstate rfl hfinish
    have hsettle : r.settle = { r with state := .new, streaming } := by
      simp only [settle, hstate, hfinish]
    rw [hsettle]
    exact ⟨hstep.wf h, hstep.present hpres, Nat.zero_lt_succ 3⟩
  · rw [settle_of_want hwant]
    exact ⟨h, hpres, hwant⟩

variable {b : Fin 256} {ended : Ended α} {f : Frame}

lemma Reading.eat_ok (h : p.reader.Wf) (hpres : p.reader.Present)
    (heat : p.eat aborts ctx b = .ok q) : q.reader.Wf ∧ q.reader.Present ∧
      ∃ res r', PollStep ctx p.reader.settle [b] res r' ∧ q.reader.state = r'.state := by
  obtain ⟨hwf, hpres', hwant⟩ := settle_ok h hpres
  have hto : GotTo ctx p.reader.settle [b] (p.reader.settle.got ctx (fun _ => 0) [b]) :=
    gotTo_got hwf hpres' hwant
  unfold eat at heat
  obtain ⟨e, r', hout, -, -⟩ | ⟨res, r', hout, hstep⟩ := hto
  · rw [hout] at heat
    cases heat
  · rw [hout] at heat
    cases heat
    exact ⟨Connection.handled_wf hwf hstep, Connection.handled_present hpres' hstep, res, r',
      hstep, rfl⟩

lemma Reading.eat_error (h : p.reader.Wf) (hpres : p.reader.Present)
    (heat : p.eat aborts ctx b = .error ended) : ended.stop.isEof = false := by
  obtain ⟨hwf, hpres', hwant⟩ := settle_ok h hpres
  have hto : GotTo ctx p.reader.settle [b] (p.reader.settle.got ctx (fun _ => 0) [b]) :=
    gotTo_got hwf hpres' hwant
  unfold eat at heat
  obtain ⟨e, r', hout, -, herror⟩ | ⟨res, r', hout, -⟩ := hto
  · rw [hout] at heat
    cases heat
    exact herror.isEof
  · rw [hout] at heat
    cases heat

lemma FrameStep.frames_cases {t t' : StreamTrace} (h : FrameStep t t') :
    t'.frames = t.frames ∨ ∃ f, t'.frames = t.frames ++ [f] ∧ t'.phase = .between [] := by
  cases h with
  | inline | chunkDone | streamDone | discardDone => exact .inr ⟨_, rfl, rfl⟩
  | _ => exact .inl rfl

lemma state_of_between (h : r.Wf) (hph : PhaseOf r.state (.between [])) : r.state = .new := by
  have hwf := h.state
  cases hstate : r.state with
  | readLen =>
    rw [hstate] at hph
    exact congrArg ReadState.readLen hph.symm
  | readBody buf =>
    rw [hstate] at hph hwf
    have hnil : buf = [] := (append_eq_nil_iff.mp hph.symm).1
    rw [hnil] at hwf
    cases hwf.1
  | readStreamMeta =>
    rw [hstate] at hph
    have hnil := (append_eq_nil_iff.mp hph.symm).1
    have hlen := congrArg length hnil
    cases hlen
  | readStreamPayload | discardStreamPayload =>
    rw [hstate] at hph
    cases hph

lemma phase_of_step {phase : Phase} (h : r.Wf) (hph : PhaseOf r.state phase)
    (hstep : PollStep ctx r [b] res r') :
    (∃ phase', PhaseOf r'.state phase' ∧ phase'.bytes = phase.bytes ++ [b]) ∨
      ∃ f : Frame, f.body.length ≤ controlBodyLenMask ∧ f.bytes = phase.bytes ++ [b] ∧
        r'.state = .new := by
  -- a connection that is about to read just this byte
  have hmatch : Matches (phase.bytes ++ [b])
      (⟨r, [.data b []], [], [], none⟩ : Connection α) ⟨[], phase, r.streaming, []⟩ :=
    ⟨nofun, h, hph, rfl, rfl, rfl⟩
  have hinbox : inboxBytes [Segment.data b []] = [b] ++ inboxBytes [] := rfl
  obtain hsame | ⟨t', hfr, -, hmatch'⟩ := hmatch.polled hinbox hstep
  · have hlen := congrArg length hsame.bytes
    rw [length_append, length_append] at hlen
    cases Nat.add_left_cancel hlen
  · have hbytes : phase.bytes ++ [b] = t'.bytes := hmatch'.bytes.trans (append_nil _)
    obtain hfrs | ⟨f, hfrs, hdone⟩ := hfr.frames_cases
    · refine .inl ⟨t'.phase, hmatch'.phase, ?_⟩
      rw [hbytes, StreamTrace.bytes, hfrs]
      rfl
    · have hfrs : t'.frames = [f] := hfrs
      have hnew := hmatch'.phase
      rw [hdone] at hnew
      refine .inr ⟨f, hmatch'.frames f (hfrs ▸ mem_cons_self), ?_,
        state_of_between (hstep.wf h) hnew⟩
      rw [hbytes, StreamTrace.bytes, hfrs, hdone, Phase.bytes, append_nil, flatMap_singleton]

/-- The bytes read so far are accepted frames and the part of one more. -/
structure Framed (aborts : Bool) (ctx : ReadContext α) (p : Reading α) (bytes : Bytes)
    (q : Reading α) : Prop where
  wf : q.reader.Wf
  present : q.reader.Present
  frames : ∃ (frames : List Frame) (s s' : Reading α) (phase : Phase),
    (∀ f ∈ frames, f.body.length ≤ controlBodyLenMask) ∧
    bytes = frames.flatMap Frame.bytes ++ phase.bytes ∧
    frames.foldlM (Reading.accept aborts ctx) p = some s ∧
    s.feed aborts ctx phase.bytes = .ok s' ∧ s'.results = q.results ∧
    s'.reader.settle = q.reader.settle ∧ PhaseOf q.reader.settle.state phase

lemma Reading.eat_congr (hresults : p.results = q.results)
    (hrdr : p.reader.settle = q.reader.settle) : p.eat aborts ctx b = q.eat aborts ctx b := by
  rw [eat, eat, hresults, hrdr]

lemma Reading.accept_of_feed (h : p.feed aborts ctx f.bytes = .ok q)
    (hnew : q.reader.settle.state = .new) :
    p.accept aborts ctx f = some ⟨q.results, q.reader.settle⟩ := by
  rw [accept, h]
  exact if_pos hnew

lemma Reader.settle_of_new (h : r.state = .new) : r.settle = r := by
  unfold settle
  rw [h]
  rfl

lemma Framed.done {frames : List Frame} (hwf : q.reader.Wf) (hpres : q.reader.Present)
    (hmask : ∀ g ∈ frames, g.body.length ≤ controlBodyLenMask)
    (hf : f.body.length ≤ controlBodyLenMask)
    (hbytes : bytes = frames.flatMap Frame.bytes ++ f.bytes)
    (hfrs : frames.foldlM (accept aborts ctx) p = some s)
    (hfeed : s.feed aborts ctx f.bytes = .ok q) (hnew : q.reader.settle.state = .new) :
    Framed aborts ctx p bytes q where
  wf := hwf
  present := hpres
  frames := by
    refine ⟨frames ++ [f], ⟨q.results, q.reader.settle⟩, ⟨q.results, q.reader.settle⟩,
      .between [], frames_concat hmask hf, ?_, ?_, rfl, rfl, settle_of_new hnew, ?_⟩
    · rw [flatMap_append, flatMap_singleton, hbytes]
      exact (append_nil _).symm
    · rw [foldlM_append, hfrs]
      show foldlM (accept aborts ctx) s [f] = _
      rw [foldlM_cons, accept_of_feed hfeed hnew]
      rfl
    · rw [hnew]
      rfl

lemma Framed.eat (h : Framed aborts ctx p bytes q) (heat : q.eat aborts ctx b = .ok q') :
    Framed aborts ctx p (bytes ++ [b]) q' := by
  obtain ⟨frames, s, s', phase, hmask, hbytes, hfrs, hfeed, hresults, hrdr, hph⟩ :=
    h.frames
  have hnext : s.feed aborts ctx (phase.bytes ++ [b]) = .ok q' := by
    rw [feed_append, hfeed]
    show foldlM (Reading.eat aborts ctx) s' [b] = _
    rw [foldlM_cons, eat_congr hresults hrdr, heat]
    rfl
  obtain ⟨hwf', hpres', res, r', hstep, hstate⟩ := eat_ok h.wf h.present heat
  obtain ⟨hwf, -, -⟩ := settle_ok h.wf h.present
  obtain ⟨phase', hph', hby'⟩ | ⟨f, hf, hby', hnew⟩ := phase_of_step hwf hph hstep
  · rw [← hstate] at hph'
    rw [← hby'] at hnext
    have hbytes : bytes ++ [b] = frames.flatMap Frame.bytes ++ phase'.bytes := by
      rw [hby', hbytes, append_assoc]
    obtain hwant | hwant := Nat.eq_zero_or_pos q'.reader.want
    · -- the payload that is thrown away is at its end
      obtain ⟨mark, streaming, hdiscard, hfinish, -⟩ := poll_of_want_zero ctx hwf' hwant
      rw [hdiscard] at hph'
      obtain ⟨cur, marks, rfl, hcur, hlen, -⟩ := phaseOf_discardStreamPayload hph'
      have hwhole : cur.payload.length = cur.payloadLen := hlen
      have hcby : Phase.bytes (.discarding cur marks) = cur.frame.bytes :=
        (Cursor.bytes_frame hwhole).symm
      rw [hcby] at hbytes hnext
      refine .done hwf' hpres' hmask ?_ hbytes hfrs hnext ?_
      · show (cur.metadata ++ cur.payload).length ≤ controlBodyLenMask
        rw [length_append, hwhole]
        exact hcur.2
      · simp [settle, hdiscard]
    · -- the frame goes on
      have hsettle := settle_of_want hwant
      refine ⟨hwf', hpres', frames, s, q', phase', hmask, hbytes, hfrs, hnext, rfl, rfl, ?_⟩
      rw [hsettle]
      exact hph'
  · rw [← hby'] at hnext
    rw [← hstate] at hnew
    refine .done hwf' hpres' hmask hf ?_ hfrs hnext ?_
    · rw [hby', hbytes, append_assoc]
    · rw [settle_of_new hnew]
      exact hnew

lemma framed_of_feed (hwf : p.reader.Wf) (hnew : p.reader.state = .new) :
    ∀ q, p.feed aborts ctx bytes = .ok q → Framed aborts ctx p bytes q := by
  induction bytes using reverseRecOn with
  | nil =>
    rintro q ⟨⟩
    refine ⟨hwf, ?_, [], p, p, .between [], nofun, rfl, rfl, rfl, rfl, rfl, ?_⟩
    · intro reservation read hstate
      rw [hnew] at hstate
      cases hstate
    · rw [settle_of_new hnew, hnew]
      rfl
  | append_singleton bytes b ih =>
    intro q hfeed
    rw [feed_append] at hfeed
    cases hpart : p.feed aborts ctx bytes with
    | error =>
      rw [hpart] at hfeed
      cases hfeed
    | ok q' =>
      rw [hpart] at hfeed
      refine (ih q' hpart).eat ?_
      rw [← hfeed]
      exact (bind_pure _).symm

lemma Reading.feed_error (h : p.reader.Wf) (hpres : p.reader.Present)
    (hfeed : p.feed aborts ctx bytes = .error ended) : ended.stop.isEof = false := by
  induction bytes generalizing p with
  | nil => cases hfeed
  | cons b bytes ih =>
    rw [feed, foldlM_cons] at hfeed
    cases heat : p.eat aborts ctx b with
    | error =>
      rw [heat] at hfeed
      cases hfeed
      exact eat_error h hpres heat
    | ok =>
      rw [heat] at hfeed
      obtain ⟨hwf, hpres', -⟩ := eat_ok h hpres heat
      exact ih hwf hpres' hfeed

lemma Reading.accept_eq_some (h : p.accept aborts ctx f = some q) :
    ∃ q', p.feed aborts ctx f.bytes = .ok q' ∧ q'.reader.settle.state = .new ∧
      q = ⟨q'.results, q'.reader.settle⟩ := by
  unfold accept at h
  cases hfeed : p.feed aborts ctx f.bytes with
  | error =>
    rw [hfeed] at h
    cases h
  | ok q' =>
    rw [hfeed] at h
    by_cases hnew : q'.reader.settle.state = .new
    · have h : (if _ then _ else _) = some q := h
      rw [if_pos hnew] at h
      exact ⟨q', rfl, hnew, (Option.some.inj h).symm⟩
    · have h : (if _ then _ else _) = some q := h
      rw [if_neg hnew] at h
      cases h

lemma Reading.feed_of_accept (hnew : p.reader.settle.state = .new) (frames : List Frame)
    (hacc : frames.foldlM (accept aborts ctx) p = some q) :
    ∃ q', p.feed aborts ctx (frames.flatMap Frame.bytes) = .ok q' ∧
      q'.reader.settle.state = .new := by
  induction frames generalizing p with
  | nil => exact ⟨p, rfl, hnew⟩
  | cons f frames ih =>
    rw [foldlM_cons] at hacc
    cases hfst : p.accept aborts ctx f with
    | none =>
      rw [hfst] at hacc
      cases hacc
    | some =>
      rw [hfst] at hacc
      obtain ⟨q', hfeed, hnew', rfl⟩ := accept_eq_some hfst
      have hsettle : q'.reader.settle.settle = q'.reader.settle := settle_of_new hnew'
      rw [flatMap_cons, feed_append, hfeed]
      show ∃ q'', q'.feed aborts ctx (frames.flatMap Frame.bytes) = .ok q'' ∧ _
      by_cases hnil : frames.flatMap Frame.bytes = []
      · rw [hnil]
        exact ⟨q', rfl, hnew'⟩
      · have hsame : q'.feed aborts ctx (frames.flatMap Frame.bytes) =
            feed aborts ctx ⟨q'.results, q'.reader.settle⟩ (frames.flatMap Frame.bytes) :=
          feed_congr rfl hsettle.symm hnil
        rw [hsame]
        refine ih ?_ hacc
        rw [hsettle]
        exact hnew'

lemma Reader.state_of_orderly (h : r.eof = .orderlyPeerClose) : r.state = .new := by
  unfold eof at h
  cases hstate : r.state with
  | readLen buf =>
    rw [hstate] at h
    have h : (if buf.length = 0 then NetworkError.orderlyPeerClose else .connectionClosed) = _ := h
    by_cases hzero : buf.length = 0
    · exact congrArg ReadState.readLen (eq_nil_of_length_eq_zero hzero)
    · rw [if_neg hzero] at h
      cases h
  | _ =>
    rw [hstate] at h
    cases h

/-- **The end of the bytes is an orderly close just between frames.** -/
theorem Reading.readAll_orderly (hwf : p.reader.Wf) (hnew : p.reader.state = .new) :
    (p.readAll aborts ctx bytes).stop = networkError .orderlyPeerClose ↔
      ∃ frames : List Frame, (∀ f ∈ frames, f.body.length ≤ controlBodyLenMask) ∧
        bytes = frames.flatMap Frame.bytes ∧
        (frames.foldlM (accept aborts ctx) p).isSome = true := by
  have hpres : p.reader.Present := by
    intro reservation read hstate
    rw [hnew] at hstate
    cases hstate
  constructor
  · intro hstop
    cases hfeed : p.feed aborts ctx bytes with
    | error =>
      rw [readAll, hfeed] at hstop
      -- what is refused is not an orderly close
      have heof := feed_error hwf hpres hfeed
      rw [hstop] at heof
      cases heof
    | ok q =>
      rw [readAll, hfeed] at hstop
      have heof : networkError q.reader.settle.eof = networkError .orderlyPeerClose := hstop
      obtain ⟨-, -, frames, s, s', phase, hmask, hbytes, hfrs, -, -, -, hph⟩ :=
        framed_of_feed hwf hnew q hfeed
      injection heof with heof
      injection heof with heof
      rw [state_of_orderly heof] at hph
      rw [phaseOf_readLen hph] at hbytes
      refine ⟨frames, hmask, hbytes.trans (append_nil _), ?_⟩
      rw [hfrs]
      rfl
  · rintro ⟨frames, -, rfl, hsome⟩
    obtain ⟨s, hacc⟩ := Option.isSome_iff_exists.mp hsome
    have hsett : p.reader.settle.state = .new := by
      rw [settle_of_new hnew]
      exact hnew
    obtain ⟨q, hfeed, hstate⟩ := feed_of_accept hsett frames hacc
    rw [readAll, hfeed]
    show networkError q.reader.settle.eof = _
    rw [eof, hstate]
    rfl

end Frames

/-- A reading of a new connection's first byte. -/
def Reading.start (n : ℕ) (routes : RouteTable) : Reading α :=
  ⟨[], ⟨.new, Connection.freshStreaming n, routes⟩⟩

section

variable (aborts : Bool)
  (ctx : ReadContext α)
  (n : ℕ)
  (routes : RouteTable)
  (hok : ∀ code, .failed code ∉ inbox)
include aborts ctx n routes hok

lemma Connection.reads_start : Reads aborts ctx (Reading.start n routes) (inboxBytes inbox)
      (Connection.start (freshStreaming n) routes inbox) where
  noFailure := hok
  reading _ := ⟨wf_new (wf_freshStreaming n) routes fun _ => rfl, nofun, [], _, rfl, rfl, rfl, rfl⟩
  ended := nofun

lemma Connection.reads_exec (polls : List (Bool × (ℕ → Instant))) :
    Reads aborts ctx (Reading.start n routes) (inboxBytes inbox)
      (Run.exec (call aborts ctx) (start (freshStreaming n) routes inbox) polls) :=
  Run.exec_invariant (P := Reads aborts ctx (Reading.start n routes) (inboxBytes inbox))
    (fun _ poll h => h.call poll) (reads_start aborts ctx n routes hok) polls

end

/-- **Reading is independent of fragmentation.**  However the transport cuts the
bytes and wherever it pauses: the calls come to an error, the messages up to it
and the stream table are the same, and so is the error.  It is the orderly close
just when the bytes are a whole number of frames that the reader accepts. -/
theorem Connection.fragmentation_independent (aborts : Bool) (ctx : ReadContext α) (n : ℕ)
    (routes : RouteTable) {inbox inbox' : List Segment}
    (hbytes : inboxBytes inbox = inboxBytes inbox') (hok : ∀ code, .failed code ∉ inbox)
    (hok' : ∀ code, .failed code ∉ inbox') :
    (∀ polls, 2 * (inboxBytes inbox).length + inbox.length < polls.length →
      (Run.exec (call aborts ctx) (start (freshStreaming n) routes inbox)
        polls).stopped.isSome = true) ∧
    ∀ polls polls' stop stop' c c',
      c = Run.exec (call aborts ctx) (start (freshStreaming n) routes inbox) polls →
      c' = Run.exec (call aborts ctx) (start (freshStreaming n) routes inbox') polls' →
      c.stopped = some stop → c'.stopped = some stop' →
        c.results = c'.results ∧ c.reader.streaming.untimed = c'.reader.streaming.untimed ∧
        stop = stop' ∧ (stop = networkError .orderlyPeerClose ↔
          ∃ frames : List Frame, (∀ f ∈ frames, f.body.length ≤ controlBodyLenMask) ∧
            inboxBytes inbox = frames.flatMap Frame.bytes ∧
            (frames.foldlM (Reading.accept aborts ctx)
              (Reading.start n routes)).isSome = true) := by
  constructor
  · intro polls hlen
    exact (reads_start aborts ctx n routes hok).stopped_of_calls hlen
  · rintro polls polls' stop stop' c c' rfl rfl hstop hstop'
    -- both runs end where the reading of single bytes ends
    have hended := (reads_exec aborts ctx n routes hok polls).ended stop hstop
    have hended' := (reads_exec aborts ctx n routes hok' polls').ended stop' hstop'
    rw [← hbytes] at hended'
    have hsame := hended.symm.trans hended'
    refine ⟨congrArg Ended.results hsame, congrArg Ended.streaming hsame,
      congrArg Ended.stop hsame, ?_⟩
    have hwf : (⟨.new, freshStreaming n, routes⟩ : Reader).Wf :=
      wf_new (wf_freshStreaming n) routes fun _ => rfl
    have hstop : (Reading.readAll aborts ctx (Reading.start n routes) (inboxBytes inbox)).stop =
        stop := congrArg Ended.stop hended
    rw [← hstop]
    exact Reading.readAll_orderly hwf rfl

/-- A stream of two bytes in one frame. -/
def wholeStream : Frame :=
  ⟨.streamStart, toBe32 7 ++ toBe32 0 ++ toBe32 2 ++ toBe64 1 ++ toBe32 2 ++ [9, 9]⟩

/-- The transport hands over each byte by itself, and pauses before it. -/
def Frame.bytewise (f : Frame) : List Segment := f.bytes.flatMap fun b => [.pending, .data b []]

lemma failed_notMem_segments (f : Frame) (code : ℕ) : .failed code ∉ f.segments := by
  unfold Frame.segments
  split
  · exact nofun
  · intro hmem
    cases mem_singleton.mp hmem

lemma failed_notMem_bytewise (f : Frame) (code : ℕ) : .failed code ∉ f.bytewise := by
  intro hmem
  obtain ⟨b, -, hmem⟩ := mem_flatMap.mp hmem
  rcases hmem with _ | ⟨_, _ | ⟨_, hnil⟩⟩
  cases hnil

def Connection.calledAfter (inbox : List Segment) (polls : ℕ) : Connection Unit :=
  Run.exec (call true ⟨fun _ => none, 64⟩) (start (freshStreaming 1) (.withLimit 8) inbox)
    (List.replicate polls (false, fun _ => 0))

/-- A stream in one piece, and byte by byte. -/
theorem Connection.fragmentation_independent_bytewise :
    (calledAfter wholeStream.segments 4).results =
        [.actor .actorTell 0 1 2 none [9, 9]] ∧
      (calledAfter wholeStream.segments 4).results =
        (calledAfter wholeStream.bytewise 61).results ∧
      (calledAfter wholeStream.segments 4).stopped =
        some (networkError .orderlyPeerClose) := by
  have hsame := (fragmentation_independent true ⟨fun _ => (none : Option Unit), 64⟩ 1 (.withLimit 8)
    (show inboxBytes wholeStream.segments = inboxBytes wholeStream.bytewise by decide +kernel)
    (failed_notMem_segments wholeStream) (failed_notMem_bytewise wholeStream)).2
    (replicate 4 (false, fun _ => 0))
    (replicate 61 (false, fun _ => 0)) (networkError .orderlyPeerClose)
    (networkError .orderlyPeerClose) _ _ rfl rfl (by decide +kernel) (by decide +kernel)
  exact ⟨by decide +kernel, hsame.1, by decide +kernel⟩

end IcanactRemote
