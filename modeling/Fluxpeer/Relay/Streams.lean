import Fluxpeer.Lib.Run
import Fluxpeer.Relay.Frames

/-!
# Frames over a stream

The server reads frames with a future that may be dropped and made again at any time it waits for
bytes; what it has read stays in the buffer, so no byte is lost. The client reads in one loop and
takes every error of `decode` for a frame that is not complete yet. As long as no frame is rejected
that is right, but a frame that is rejected stays at the front of the buffer and the connection goes
on without it.
-/

namespace Fluxpeer.Relay

open Lib

/-! ## The reader of the server -/

/-- The bytes of one read; an empty read is the end of the stream. -/
abbrev Chunk := { c : Bytes // c ≠ [] }

inductive IoError
  | invalidData (e : ProtoError)
  | unexpectedEof
deriving DecidableEq

/-- `FrameReader`, with the reads to come and what `next_frame` returned so far. -/
structure FrameReader where
  buf : Bytes
  /-- A future of `next_frame` waits for bytes. -/
  waiting : Bool
  reads : List Chunk
  returned : List (Except IoError (Option Frame))

inductive ReaderEvent
  /-- A future is made and runs until it waits or returns. -/
  | nextFrame
  /-- The future that waits gets bytes, or the end of the stream. -/
  | read
  /-- The future that waits is dropped. -/
  | drop

namespace FrameReader

def new (reads : List Chunk) : FrameReader := ⟨[], false, reads, []⟩

def return' (r : FrameReader) (result : Except IoError (Option Frame)) : FrameReader :=
  { r with waiting := false, returned := r.returned ++ [result] }

/-- The loop up to the next read. -/
def poll (r : FrameReader) : FrameReader :=
  match Frame.decode r.buf with
  | .ok (frame, n) => { r with buf := r.buf.drop n }.return' (.ok (some frame))
  | .error e => if e.isShort then { r with waiting := true } else r.return' (.error (.invalidData e))

def step (r : FrameReader) : ReaderEvent → Option FrameReader
  | .nextFrame => if r.waiting then none else some r.poll
  | .read =>
    if r.waiting then
      match r.reads with
      | c :: reads => some { r with buf := r.buf ++ c.val, reads }.poll
      | [] => some (r.return' (if r.buf = [] then .ok none else .error .unexpectedEof))
    else none
  | .drop => if r.waiting then some { r with waiting := false } else none

/-- What `next_frame` returns at the end of a stream that is cut behind some bytes of a frame. -/
def ending (cut : Bytes) : Except IoError (Option Frame) :=
  if cut = [] then .ok none else .error .unexpectedEof

/-- The bytes are a strict part of a frame, possibly none. -/
def Partial (cut : Bytes) : Prop := ∃ f : Frame, f.Carried ∧ cut <+: f.encode ∧ cut ≠ f.encode

def encodeAll (frames : List Frame) : Bytes := frames.flatMap Frame.encode

section

variable {frames : List Frame} {cut buf tail : Bytes}

lemma decode_cut (h : Partial cut) (hbuf : buf <+: cut) :
    ∃ need, Frame.decode buf = .error (.shortBuffer need buf.length) := by
  obtain ⟨f, hcarried, hfront, hne⟩ := h
  refine Frame.decode_incomplete hcarried (hbuf.trans hfront) ?_
  rintro rfl
  exact hne (List.IsPrefix.eq_of_length hfront (le_antisymm hfront.length_le hbuf.length_le))

/-- What `decode` makes of the bytes read so far of a stream of frames: the first frame if it is
complete, or it asks for more. -/
lemma decode_stream (hcarried : ∀ f ∈ frames, f.Carried) (hcut : Partial cut)
    (hstream : buf ++ tail = encodeAll frames ++ cut) :
    (∃ f rest, frames = f :: rest ∧ Frame.decode buf = .ok (f, f.encode.length) ∧
      buf.drop f.encode.length ++ tail = encodeAll rest ++ cut) ∨
    ∃ need, Frame.decode buf = .error (.shortBuffer need buf.length) := by
  cases frames with
  | nil => exact .inr (decode_cut hcut ⟨tail, hstream⟩)
  | cons f rest =>
    have hf : f.Carried := hcarried f List.mem_cons_self
    have hsplit : buf ++ tail = f.encode ++ (encodeAll rest ++ cut) := by
      rw [hstream, encodeAll, List.flatMap_cons, List.append_assoc]
      rfl
    by_cases hlen : f.encode.length ≤ buf.length
    · obtain ⟨back, rfl⟩ : f.encode <+: buf :=
        List.prefix_of_prefix_length_le ⟨_, hsplit.symm⟩ ⟨tail, rfl⟩ hlen
      refine .inl ⟨f, rest, rfl, Frame.decode_encode_append hf back, ?_⟩
      rw [List.drop_left]
      rw [List.append_assoc] at hsplit
      exact List.append_cancel_left hsplit
    · have hfront : buf <+: f.encode :=
        List.prefix_of_prefix_length_le ⟨tail, rfl⟩ ⟨_, hsplit.symm⟩ (by omega)
      refine .inr (Frame.decode_incomplete hf hfront ?_)
      rintro rfl
      exact hlen le_rfl

end

/-- What was returned are the first frames of the stream and then its end, and what is in the buffer
or to come is the rest of the stream. -/
def Splits (frames : List Frame) (cut : Bytes) (r : FrameReader) : Prop :=
  ∃ done rest m, frames = done ++ rest ∧ (m ≠ 0 → rest = []) ∧
    r.returned = done.map (fun f => .ok (some f)) ++ List.replicate m (ending cut) ∧
    r.buf ++ (r.reads.map (·.val)).flatten = encodeAll rest ++ cut

structure Follows (frames : List Frame) (cut : Bytes) (r : FrameReader) : Prop where
  splits : Splits frames cut r
  waits : r.waiting = true → ∃ need, Frame.decode r.buf = .error (.shortBuffer need r.buf.length)

section

variable {frames : List Frame} {cut : Bytes} {r r' : FrameReader}

lemma Splits.poll (hcarried : ∀ f ∈ frames, f.Carried) (hcut : Partial cut)
    (h : Splits frames cut r) : Follows frames cut r.poll := by
  obtain ⟨done, rest, m, rfl, hm, hreturned, hstream⟩ := h
  rcases decode_stream (fun f hf => hcarried f (List.mem_append_right _ hf)) hcut hstream with
    ⟨f, rest', rfl, hdecode, hrest⟩ | ⟨need, hdecode⟩
  · have hzero : m = 0 := by
      by_contra hne
      cases hm hne
    subst hzero
    unfold FrameReader.poll
    rw [hdecode]
    refine ⟨⟨done ++ [f], rest', 0, by simp, fun h => absurd rfl h, ?_, hrest⟩, nofun⟩
    simp [return', hreturned]
  · unfold FrameReader.poll
    rw [hdecode]
    exact ⟨⟨done, rest, m, rfl, hm, hreturned, hstream⟩, fun _ => ⟨need, hdecode⟩⟩

/-- A future that waits at the end of the stream returns its end. -/
lemma Follows.eof (hcarried : ∀ f ∈ frames, f.Carried) (h : Follows frames cut r)
    (hwaiting : r.waiting = true) (hreads : r.reads = []) :
    Follows frames cut (r.return' (ending r.buf)) := by
  obtain ⟨done, rest, m, rfl, hm, hreturned, hstream⟩ := h.splits
  obtain ⟨need, hshort⟩ := h.waits hwaiting
  rw [hreads, List.map_nil, List.flatten_nil, List.append_nil] at hstream
  cases rest with
  | nil =>
    have hbuf : r.buf = cut := hstream
    refine ⟨⟨done, [], m + 1, rfl, fun _ => rfl, ?_, ?_⟩, nofun⟩
    · rw [return', hreturned, hbuf, List.replicate_succ', List.append_assoc]
    · rw [return', hreads]
      simpa using hstream
  | cons f rest =>
    -- a frame that is left would be complete
    have hf : f.Carried := hcarried f (List.mem_append_right _ List.mem_cons_self)
    rw [hstream, encodeAll, List.flatMap_cons, List.append_assoc,
      Frame.decode_encode_append hf] at hshort
    cases hshort

lemma Follows.step {e : ReaderEvent} (hcarried : ∀ f ∈ frames, f.Carried) (hcut : Partial cut)
    (h : Follows frames cut r) (hstep : r.step e = some r') : Follows frames cut r' := by
  cases e with
  | nextFrame =>
    simp only [FrameReader.step] at hstep
    split at hstep
    · cases hstep
    · cases hstep
      exact h.splits.poll hcarried hcut
  | read =>
    simp only [FrameReader.step] at hstep
    split at hstep
    · next hwaiting =>
      split at hstep
      · next c reads hreads =>
        cases hstep
        obtain ⟨done, rest, m, hframes, hm, hreturned, hstream⟩ := h.splits
        refine Splits.poll hcarried hcut ⟨done, rest, m, hframes, hm, hreturned, ?_⟩
        rw [hreads] at hstream
        simpa using hstream
      · next hreads =>
        cases hstep
        exact h.eof hcarried hwaiting hreads
    · cases hstep
  | drop =>
    simp only [FrameReader.step] at hstep
    split at hstep
    · cases hstep
      exact ⟨h.splits, nofun⟩
    · cases hstep

/-- A future that polls waits for bytes or returns. -/
lemma poll_returned (r : FrameReader) : r.poll.reads = r.reads ∧
    (r.poll.waiting = true ∧ r.poll.returned.length = r.returned.length ∨
      r.poll.returned.length = r.returned.length + 1) := by
  unfold FrameReader.poll
  split
  · exact ⟨rfl, .inr (by simp [return'])⟩
  · split
    · exact ⟨rfl, .inl ⟨rfl, rfl⟩⟩
    · exact ⟨rfl, .inr (by simp [return'])⟩

/-- A future that waits and is not dropped returns after some reads. -/
lemma returns_of_waiting (hwaiting : r.waiting = true) :
    ∃ k r', runFrom step r (List.replicate k .read) = some r' ∧
      r'.returned.length = r.returned.length + 1 := by
  obtain ⟨buf, waiting, reads, returned⟩ := r
  cases hwaiting
  induction reads generalizing buf returned with
  | nil =>
    refine ⟨1, _, rfl, ?_⟩
    simp [return']
  | cons c reads ih =>
    obtain ⟨hreads, hpoll⟩ := poll_returned ⟨buf ++ c.val, true, reads, returned⟩
    rcases hpoll with ⟨hwaiting, hlength⟩ | hlength
    · generalize hp : (FrameReader.mk (buf ++ c.val) true reads returned).poll = p at *
      obtain ⟨buf', waiting', reads', returned'⟩ := p
      cases hwaiting
      cases hreads
      obtain ⟨k, r', hrun, hreturned⟩ := ih buf' returned'
      refine ⟨k + 1, r', ?_, hreturned.trans (congrArg (· + 1) hlength)⟩
      simpa only [List.replicate_succ, runFrom, step, if_true, hp, Option.bind_some] using hrun
    · exact ⟨1, _, rfl, hlength⟩

/-- What `next_frame` returns in its first `n` calls that return. -/
def expected (frames : List Frame) (cut : Bytes) (n : Nat) : List (Except IoError (Option Frame)) :=
  (frames.map (fun f => Except.ok (some f)) ++ List.replicate n (ending cut)).take n

lemma Splits.returned (h : Splits frames cut r) :
    r.returned = expected frames cut r.returned.length := by
  obtain ⟨done, rest, m, rfl, hm, hreturned, -⟩ := h
  rw [hreturned, expected]
  cases m with
  | zero => simp
  | succ m =>
    cases hm (Nat.succ_ne_zero m)
    rw [List.append_nil, List.length_append, List.length_replicate, List.take_append]
    simp

end

/-- Whatever the reads and wherever the future of `next_frame` is dropped, the calls that return
give the frames of the stream in order, and then its end: nothing, or an error if the stream is cut
inside a frame. A call that is not dropped returns after some reads. And no strict part of a frame is
taken for one. -/
theorem next_frame_follows_stream (frames : List Frame) (hcarried : ∀ f ∈ frames, f.Carried)
    (cut : Bytes) (hcut : Partial cut) (reads : List Chunk)
    (hreads : (reads.map (·.val)).flatten = encodeAll frames ++ cut) (es : List ReaderEvent)
    (r : FrameReader) (hrun : runFrom step (new reads) es = some r) :
    r.returned = expected frames cut r.returned.length ∧
    (∃ k r', runFrom step r ((if r.waiting then [] else [.nextFrame]) ++ List.replicate k .read) =
        some r' ∧ r'.returned.length = r.returned.length + 1) ∧
    ∀ (f : Frame) (p : Bytes), f.Carried → p <+: f.encode → p ≠ f.encode →
      ∃ need, Frame.decode p = .error (.shortBuffer need p.length) := by
  have hstart : Follows frames cut (new reads) := by
    refine ⟨⟨[], frames, 0, rfl, fun h => absurd rfl h, rfl, ?_⟩, nofun⟩
    simpa [new] using hreads
  have hfollows : Follows frames cut r :=
    inv_of_runFrom (fun _ _ _ h hstep => Follows.step hcarried hcut h hstep) hstart hrun
  refine ⟨hfollows.splits.returned, ?_, fun f p hf => Frame.decode_incomplete hf⟩
  cases hwaiting : r.waiting with
  | true => exact returns_of_waiting hwaiting
  | false =>
    obtain ⟨-, ⟨hwait, hlength⟩ | hlength⟩ := poll_returned r
    · obtain ⟨k, r', hrun', hreturned⟩ := returns_of_waiting hwait
      refine ⟨k, r', ?_, hreturned.trans (congrArg (· + 1) hlength)⟩
      simpa [runFrom, step, hwaiting] using hrun'
    · refine ⟨0, r.poll, ?_, hlength⟩
      simp [runFrom, step, hwaiting]

/-- A stream of one frame in two reads, the first of which the future that reads it does not
survive, cut inside a second frame. -/
def cutReads : List Chunk := [⟨[8, 0, 0], by decide⟩, ⟨[0, 0, 9], by decide⟩]

def cutEvents : List ReaderEvent := [.nextFrame, .read, .drop, .nextFrame, .read, .nextFrame, .read]

theorem next_frame_follows_stream_cutReads :
    ∃ r, runFrom step (new cutReads) cutEvents = some r ∧ r.returned.length = 2 ∧
      r.returned = expected [.health] [9] 2 := by
  have hcut : Partial [9] := ⟨.restarting, trivial, by decide, by decide⟩
  obtain ⟨r, hrun, hlength⟩ :
      ∃ r, runFrom step (new cutReads) cutEvents = some r ∧ r.returned.length = 2 :=
    ⟨_, rfl, by decide +kernel⟩
  refine ⟨r, hrun, hlength, ?_⟩
  have hreturned := (next_frame_follows_stream [.health] (by simp [Frame.Carried]) [9] hcut cutReads
    (by decide) cutEvents r hrun).1
  rwa [hlength] at hreturned

end FrameReader

/-! ## The client -/

/-- A frame that comes complete takes the bytes it says. -/
lemma length_drop_lt {buf : Bytes} {f : Frame} {n : Nat} (h : Frame.decode buf = .ok (f, n)) :
    (buf.drop n).length < buf.length := by
  obtain ⟨hpos, hle, -⟩ := Frame.decode_eq_ok h []
  rw [List.length_drop]
  omega

/-- The frames at the front of a sequence of bytes. -/
structure Parsed where
  frames : List Frame
  rest : Bytes
  /-- `decode` rejects the frame that the rest begins with; otherwise it asks for more bytes. -/
  rejected : Bool

def parse (buf : Bytes) : Parsed :=
  match _h : Frame.decode buf with
  | .ok (f, n) => { parse (buf.drop n) with frames := f :: (parse (buf.drop n)).frames }
  | .error e => ⟨[], buf, !e.isShort⟩
termination_by buf.length
decreasing_by all_goals exact length_drop_lt _h

lemma parse_ok {buf : Bytes} {f : Frame} {n : Nat} (h : Frame.decode buf = .ok (f, n)) :
    parse buf = { parse (buf.drop n) with frames := f :: (parse (buf.drop n)).frames } := by
  rw [parse]
  split
  · next heq =>
    cases h.symm.trans heq
    rfl
  · next heq => cases h.symm.trans heq

lemma parse_error {buf : Bytes} {e : ProtoError} (h : Frame.decode buf = .error e) :
    parse buf = ⟨[], buf, !e.isShort⟩ := by
  rw [parse]
  split
  · next heq => cases h.symm.trans heq
  · next heq =>
    cases h.symm.trans heq
    rfl

/-- Frames by induction over the bytes: a first frame that is complete, or none. -/
lemma parse_induction {motive : Bytes → Prop}
    (ok : ∀ buf f n, Frame.decode buf = .ok (f, n) → motive (buf.drop n) → motive buf)
    (error : ∀ buf e, Frame.decode buf = .error e → motive buf) (buf : Bytes) : motive buf := by
  induction hlen : buf.length using Nat.strong_induction_on generalizing buf with
  | _ n ih =>
    cases h : Frame.decode buf with
    | ok r => exact ok buf r.1 r.2 h (ih _ (hlen ▸ length_drop_lt h) _ rfl)
    | error e => exact error buf e h

lemma parse_append (a b : Bytes) :
    parse (a ++ b) = { parse ((parse a).rest ++ b) with
      frames := (parse a).frames ++ (parse ((parse a).rest ++ b)).frames } := by
  induction a using parse_induction with
  | ok a f n h ih =>
    obtain ⟨-, hle, happend⟩ := Frame.decode_eq_ok h b
    rw [parse_ok happend, List.drop_append_of_le_length hle, ih, parse_ok h]
    rfl
  | error a e h =>
    rw [parse_error h]
    rfl

/-- What is left behind the frames of a stream without a frame that is rejected is shorter than a
frame can be. -/
lemma length_rest_lt {buf : Bytes} (h : (parse buf).rejected = false) :
    (parse buf).rest.length < maxFrame := by
  induction buf using parse_induction with
  | ok buf f n hdecode ih =>
    rw [parse_ok hdecode] at h ⊢
    exact ih h
  | error buf e hdecode =>
    rw [parse_error hdecode] at h ⊢
    exact Frame.decode_eq_short hdecode (by simpa using h)

def Frame.recvPacket? : Frame → Option (PublicKey × Bytes)
  | .recvPacket src payload => some (src, payload)
  | _ => none

/-- The inner loop of the task of `connect_relay`: what it sends on, the buffer, and whether the
task returns because nobody receives. -/
def drain (receiving : Bool) (buf : Bytes) : List (PublicKey × Bytes) × Bytes × Bool :=
  match _h : Frame.decode buf with
  | .ok (.recvPacket src payload, n) =>
    if receiving then
      let (packets, rest, ended) := drain receiving (buf.drop n)
      ((src, payload) :: packets, rest, ended)
    else ([], buf.drop n, true)
  | .ok (_, n) => drain receiving (buf.drop n)
  | .error _ => ([], buf, false)
termination_by buf.length
decreasing_by all_goals exact length_drop_lt _h

/-- While somebody receives, the loop sends on the packets of the frames and keeps the rest. -/
lemma drain_eq_parse (buf : Bytes) :
    drain true buf = ((parse buf).frames.filterMap Frame.recvPacket?, (parse buf).rest, false) := by
  induction buf using parse_induction with
  | ok buf f n h ih =>
    rw [parse_ok h, drain]
    split
    · next heq =>
      cases h.symm.trans heq
      simp [ih, Frame.recvPacket?]
    · next hother heq =>
      cases h.symm.trans heq
      have hnone : f.recvPacket? = none := by
        cases f with
        | recvPacket src payload => exact absurd rfl (hother src payload)
        | _ => rfl
      simp [ih, hnone]
    · next heq => cases h.symm.trans heq
  | error buf e h =>
    rw [parse_error h, drain]
    split
    · next heq => cases h.symm.trans heq
    · next heq => cases h.symm.trans heq
    · rfl

/-- The task of `connect_relay`. -/
structure Client where
  buf : Bytes
  delivered : List (PublicKey × Bytes)
  ended : Bool
  /-- The receiver of the inbound channel is there. -/
  receiving : Bool

inductive ClientEvent
  | read (chunk : { c : Bytes // c ≠ [] ∧ c.length ≤ 4096 })
  /-- The end of the stream, or an error. -/
  | closed
  | keepalive (written : Bool)
  | send (written : Bool)
  /-- The sender of the outbound channel is dropped. -/
  | dropped
  | receiverGone

def ClientEvent.bytes : ClientEvent → Bytes
  | .read chunk => chunk.val
  | _ => []

/-- The event has nothing to end the task for. -/
def ClientEvent.Harmless : ClientEvent → Prop
  | .read _ => True
  | .keepalive written | .send written => written = true
  | .closed | .dropped | .receiverGone => False

namespace Client

def new : Client := ⟨[], [], false, true⟩

def step (c : Client) : ClientEvent → Option Client
  | .receiverGone => some { c with receiving := false }
  | e =>
    if c.ended then none
    else
      match e with
      | .read chunk =>
        let (packets, rest, ended) := drain c.receiving (c.buf ++ chunk.val)
        some { c with buf := rest, delivered := c.delivered ++ packets, ended }
      | .keepalive written | .send written => some { c with ended := !written }
      | _ => some { c with ended := true }

/-- What is asked of the client once it has read the bytes: it delivered the packets in front of the
first frame that is rejected, it has ended if there is one, and no read takes its buffer beyond a
frame and a read. -/
structure Rejects (stream : Bytes) (c : Client) : Prop where
  delivered : c.delivered = (parse stream).frames.filterMap Frame.recvPacket?
  ended : c.ended = true ↔ (parse stream).rejected = true
  bounded : ∀ chunk : Bytes, chunk.length ≤ 4096 → (c.buf ++ chunk).length ≤ maxFrame + 4096

/-- The client after it has read the bytes, if nothing else ended it. -/
structure After (stream : Bytes) (c : Client) : Prop where
  buf : c.buf = (parse stream).rest
  delivered : c.delivered = (parse stream).frames.filterMap Frame.recvPacket?
  ended : c.ended = false
  receiving : c.receiving = true

lemma After.step {stream : Bytes} {c : Client} {e : ClientEvent} (h : After stream c)
    (he : e.Harmless) : ∃ c', c.step e = some c' ∧ After (stream ++ e.bytes) c' := by
  cases e with
  | read chunk =>
    simp only [Client.step, h.ended, h.receiving, h.buf, drain_eq_parse, Bool.false_eq_true,
      if_false, ClientEvent.bytes]
    rw [h.delivered, ← List.filterMap_append]
    have happ := parse_append stream chunk.val
    exact ⟨_, rfl, by rw [happ], by rw [happ], rfl, rfl⟩
  | keepalive written | send written =>
    obtain rfl : written = true := he
    simp only [Client.step, h.ended, Bool.false_eq_true, if_false, ClientEvent.bytes, List.append_nil]
    exact ⟨_, rfl, h.buf, h.delivered, rfl, h.receiving⟩
  | closed | dropped | receiverGone => cases he

lemma after_run {es : List ClientEvent} (hes : ∀ e ∈ es, e.Harmless) :
    ∃ c, runFrom step new es = some c ∧ After (es.flatMap ClientEvent.bytes) c := by
  have hrun : ∀ {stream : Bytes} {c : Client}, After stream c →
      ∃ c', runFrom step c es = some c' ∧ After (stream ++ es.flatMap ClientEvent.bytes) c' := by
    induction es with
    | nil =>
      intro stream c h
      exact ⟨c, rfl, by simpa using h⟩
    | cons e es ih =>
      intro stream c h
      obtain ⟨c₁, hstep, h₁⟩ := h.step (hes e List.mem_cons_self)
      obtain ⟨c', hrest, h'⟩ := ih (fun e he => hes e (List.mem_cons_of_mem _ he)) h₁
      refine ⟨c', by simp only [runFrom, hstep, Option.bind_some, hrest], ?_⟩
      rwa [List.flatMap_cons, ← List.append_assoc]
  have hempty : parse [] = ⟨[], [], false⟩ :=
    parse_error (show Frame.decode [] = .error (.shortBuffer 5 0) from rfl)
  exact @hrun [] new ⟨by rw [hempty]; rfl, by rw [hempty]; rfl, rfl, rfl⟩

/-- As long as nothing else ends it, the client does what is asked of it exactly if it has not come
to a frame that is rejected. -/
theorem client_rejects_iff (es : List ClientEvent) (hes : ∀ e ∈ es, e.Harmless) :
    ∃ c, runFrom step new es = some c ∧
      (Rejects (es.flatMap ClientEvent.bytes) c ↔
        (parse (es.flatMap ClientEvent.bytes)).rejected = false) := by
  obtain ⟨c, hrun, h⟩ := after_run hes
  refine ⟨c, hrun, ?_, ?_⟩
  · intro hrejects
    rw [Bool.eq_false_iff]
    intro hrejected
    have hended := hrejects.ended.mpr hrejected
    rw [h.ended] at hended
    cases hended
  · intro haccepted
    refine ⟨h.delivered, by simp [h.ended, haccepted], ?_⟩
    intro chunk hchunk
    have hrest := length_rest_lt haccepted
    rw [List.length_append, h.buf]
    omega

def healthRead : ClientEvent := .read ⟨[8, 0, 0, 0, 0], by decide⟩

theorem client_rejects_iff_healthRead :
    ∃ c, runFrom step new [healthRead, .keepalive true] = some c ∧ Rejects [8, 0, 0, 0, 0] c := by
  obtain ⟨c, hrun, hiff⟩ := client_rejects_iff [healthRead, .keepalive true]
    (by simp [healthRead, ClientEvent.Harmless])
  refine ⟨c, hrun, hiff.mpr ?_⟩
  have hdecode : Frame.decode [8, 0, 0, 0, 0] = .ok (.health, 5) := by decide +kernel
  have hparse : parse [8, 0, 0, 0, 0] = ⟨[.health], [], false⟩ := by
    rw [parse_ok hdecode, parse_error (show Frame.decode _ = .error (.shortBuffer 5 0) from rfl)]
    rfl
  exact congrArg Parsed.rejected hparse

def unknownRead : ClientEvent := .read ⟨[255, 0, 0, 0, 0], by decide⟩

lemma parse_unknown (more : Bytes) :
    parse ([255, 0, 0, 0, 0] ++ more) = ⟨[], [255, 0, 0, 0, 0] ++ more, true⟩ := by
  have hdecode : Frame.decode [255, 0, 0, 0, 0] = .error (.unknownType 255) := by decide +kernel
  exact parse_error (Frame.decode_rejected hdecode rfl more)

/-- Behind a frame of an unknown type the client goes on, and its buffer grows with every read. -/
theorem client_keeps_rejected_frame :
    (∃ c, runFrom step new [unknownRead] = some c ∧ (parse [255, 0, 0, 0, 0]).rejected = true ∧
      c.ended = false) ∧
    ∀ n, ∃ es c, runFrom step new es = some c ∧ c.ended = false ∧ n ≤ c.buf.length := by
  have hunknown : ∀ e ∈ [unknownRead], e.Harmless := by simp [unknownRead, ClientEvent.Harmless]
  constructor
  · obtain ⟨c, hrun, h⟩ := after_run hunknown
    exact ⟨c, hrun, congrArg Parsed.rejected (parse_unknown []), h.ended⟩
  · intro n
    have hes : ∀ e ∈ unknownRead :: List.replicate n healthRead, e.Harmless := by
      intro e he
      rcases List.mem_cons.mp he with rfl | he
      · trivial
      · cases List.eq_of_mem_replicate he
        trivial
    obtain ⟨c, hrun, h⟩ := after_run hes
    refine ⟨_, c, hrun, h.ended, ?_⟩
    have hbytes : (unknownRead :: List.replicate n healthRead).flatMap ClientEvent.bytes =
        [255, 0, 0, 0, 0] ++ (List.replicate n [8, 0, 0, 0, 0]).flatten := by
      simp [List.flatMap, ClientEvent.bytes, unknownRead, healthRead]
    rw [h.buf, hbytes, parse_unknown]
    simp
    omega

end Client

end Fluxpeer.Relay
