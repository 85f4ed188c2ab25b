import SeastarExperiments.BasePipe
import SeastarExperiments.BaseTransition
import SeastarExperiments.Loops

/-! The overload of `handle_connection` in `tcp_server_pingpong` that takes a task number: one loop
that reads and replies. It goes back to the top after a packet and writes its reply where the read
has come back empty, so the client's pings are counted and never answered, and from the end of the
client's stream on the loop only writes. -/

namespace SeastarExperiments

open Transition ByteStream

inductive ReplyLoop
  | top
  | reading
  | writing
  | closing
  | stopped
  | failed
  deriving DecidableEq

namespace ReplyLoop

def body (interrupted : Bool) : ReplyLoop := if interrupted then .stopped else .reading

/-- The continuation of `input.read_exactly`. The reply stands behind the test for an empty buffer,
in the branch that the other loops leave on. -/
def onRead (interrupted : Bool) (size : Nat) : ReplyLoop :=
  if size > 0 then .top else if interrupted then .closing else .writing

def step (interrupted : Bool) : ReplyLoop → LoopEvent → Option ReplyLoop
  | .top, .read .top => some (body interrupted)
  | .reading, .read (.read size) => some (onRead interrupted size)
  | .writing, .write .written => some .top
  | .closing, .write .closed => some .stopped
  | .reading, .read .failed => some .failed
  | .writing, .write .failed => some .failed
  | .closing, .write .failed => some .failed
  | _, _ => none

def resolved : ReplyLoop → Bool
  | .stopped => true
  | .failed => true
  | _ => false

end ReplyLoop

/-- The loop on a connection whose client sends a finite stream of bytes. -/
structure ReplyConnection where
  loop : ReplyLoop
  /-- The segments of the stream that are still to arrive. -/
  segments : List Nat
  /-- The bytes that have arrived and are not read. -/
  arrived : Nat := 0
  /-- The client has closed its side. -/
  ended : Bool := false
  bytesRead : Nat := 0
  packetsRead : Nat := 0
  emptyReads : Nat := 0
  bytesWritten : Nat := 0
  packetsWritten : Nat := 0
  deriving DecidableEq

inductive ReplyEvent
  /-- The next segment arrives. -/
  | segment
  /-- The end of the client's stream arrives. -/
  | endOfStream
  | loop (e : LoopEvent)
  deriving DecidableEq

namespace ReplyConnection

/-- `read_exactly` resolves with all the bytes it asks for, or at the end of the stream with those
that are left. -/
def readExactly (need : Nat) (c : ReplyConnection) : Option Nat :=
  if need ≤ c.arrived then some need else if c.ended then some c.arrived else none

/-- What can happen to the pending operation: a read resolves as `read_exactly` says, and no
operation fails. -/
def allows (dataSize : Nat) (c : ReplyConnection) : LoopEvent → Bool
  | .read (.read size) => c.readExactly dataSize == some size
  | .read .failed => false
  | .write .failed => false
  | _ => true

/-- The continuation counts and the loop goes on. -/
def continued (dataSize : Nat) (c : ReplyConnection) (e : LoopEvent) (loop : ReplyLoop) :
    ReplyConnection :=
  { c with
    loop
    arrived := c.arrived - e.bytesRead
    bytesRead := c.bytesRead + e.bytesRead
    packetsRead := c.packetsRead + e.packetsRead
    emptyReads := c.emptyReads + if e = .read (.read 0) then 1 else 0
    bytesWritten := c.bytesWritten + e.bytesWritten dataSize
    packetsWritten := c.packetsWritten + e.packetsWritten }

/-- The service is not interrupted. -/
def step (dataSize : Nat) (c : ReplyConnection) : ReplyEvent → Option ReplyConnection
  | .segment =>
      match c.segments with
      | [] => none
      | size :: segments => some { c with segments, arrived := c.arrived + size }
  | .endOfStream =>
      if c.segments = [] ∧ c.ended = false then some { c with ended := true } else none
  | .loop e =>
      if c.allows dataSize e then (c.loop.step false e).map (c.continued dataSize e) else none

/-- The call has run the first turn of its loop. -/
def system (dataSize : Nat) (segments : List Nat) : System ReplyConnection ReplyEvent where
  init := { loop := ReplyLoop.body false, segments }
  step := step dataSize

/-- What a step can be. -/
inductive Moves (dataSize : Nat) (c : ReplyConnection) : ReplyEvent → ReplyConnection → Prop
  | segment (size : Nat) (segments : List Nat) (hsegments : c.segments = size :: segments) :
      Moves dataSize c .segment { c with segments, arrived := c.arrived + size }
  | endOfStream (hsegments : c.segments = []) (hended : c.ended = false) :
      Moves dataSize c .endOfStream { c with ended := true }
  | top (hloop : c.loop = .top) :
      Moves dataSize c (.loop (.read .top)) { c with loop := .reading }
  | packet (size : Nat) (hloop : c.loop = .reading) (hread : c.readExactly dataSize = some size)
      (hsize : 0 < size) :
      Moves dataSize c (.loop (.read (.read size)))
        { c with
          loop := .top
          arrived := c.arrived - size
          bytesRead := c.bytesRead + size
          packetsRead := c.packetsRead + 1 }
  | empty (hloop : c.loop = .reading) (hread : c.readExactly dataSize = some 0) :
      Moves dataSize c (.loop (.read (.read 0)))
        { c with loop := .writing, emptyReads := c.emptyReads + 1 }
  | written (hloop : c.loop = .writing) :
      Moves dataSize c (.loop (.write .written))
        { c with
          loop := .top
          bytesWritten := c.bytesWritten + dataSize
          packetsWritten := c.packetsWritten + 1 }
  | closed (hloop : c.loop = .closing) :
      Moves dataSize c (.loop (.write .closed)) { c with loop := .stopped }

variable {dataSize : Nat} {segments : List Nat} {c c' : ReplyConnection} {e : ReplyEvent}

theorem moves_of_loop {f : LoopEvent} {loop : ReplyLoop} (hallows : c.allows dataSize f = true)
    (h : c.loop.step false f = some loop) :
    c.Moves dataSize (.loop f) (c.continued dataSize f loop) := by
  unfold ReplyLoop.step at h
  split at h <;> cases h
  · rename_i hloop
    exact .top hloop
  · rename_i size hloop
    have hread : c.readExactly dataSize = some size := by simpa [allows] using hallows
    rcases Nat.eq_zero_or_pos size with rfl | hsize
    · exact .empty hloop hread
    · convert Moves.packet size hloop hread hsize using 1
      have hne : size ≠ 0 := by omega
      simp [continued, ReplyLoop.onRead, LoopEvent.bytesRead, LoopEvent.packetsRead,
        LoopEvent.bytesWritten, LoopEvent.packetsWritten, hsize, hne]
  · rename_i hloop
    exact .written hloop
  · rename_i hloop
    exact .closed hloop
  all_goals cases hallows

theorem moves_of_step (h : (system dataSize segments).step c e = some c') :
    c.Moves dataSize e c' := by
  change c.step dataSize e = some c' at h
  cases e with
  | segment =>
      cases hsegments : c.segments with
      | nil =>
          rw [step, hsegments] at h
          cases h
      | cons size rest =>
          rw [step, hsegments] at h
          cases h
          exact .segment size rest hsegments
  | endOfStream =>
      obtain ⟨⟨hsegments, hended⟩, hsome⟩ := Option.ite_none_right_eq_some.mp h
      cases hsome
      exact .endOfStream hsegments hended
  | loop f =>
      obtain ⟨hallows, hmap⟩ := Option.ite_none_right_eq_some.mp h
      obtain ⟨loop, hloop, rfl⟩ := Option.map_eq_some_iff.mp hmap
      exact moves_of_loop hallows hloop

/-! ### What the loop does -/

theorem readExactly_some {size : Nat} (h : c.readExactly dataSize = some size) :
    size ≤ c.arrived ∧ (size = dataSize ∨ c.ended = true ∧ c.arrived = size ∧ size < dataSize) := by
  unfold readExactly at h
  split at h
  · cases h
    exact ⟨‹_›, Or.inl rfl⟩
  · obtain ⟨hended, hsome⟩ := Option.ite_none_right_eq_some.mp h
    cases hsome
    exact ⟨le_rfl, Or.inr ⟨hended, rfl, by omega⟩⟩

/-- The packets that have been handed to the stream and not been counted. -/
def uncounted (c : ReplyConnection) : Nat := if c.loop = .writing then 1 else 0

/-- A reply is only ever written for an empty read, and the loop is never left. -/
structure Replying (dataSize : Nat) (c : ReplyConnection) : Prop where
  replies : c.packetsWritten + c.uncounted = c.emptyReads
  bytes : c.bytesWritten = dataSize * c.packetsWritten
  unresolved : c.loop = .top ∨ c.loop = .reading ∨ c.loop = .writing

theorem Replying.moves (h : c.Replying dataSize) (hmoves : c.Moves dataSize e c') :
    c'.Replying dataSize := by
  have hreplies := h.replies
  cases hmoves with
  | segment | endOfStream => exact ⟨hreplies, h.bytes, h.unresolved⟩
  | top hloop =>
      simp only [uncounted, hloop] at hreplies
      exact ⟨hreplies, h.bytes, Or.inr (Or.inl rfl)⟩
  | packet size hloop =>
      simp only [uncounted, hloop] at hreplies
      exact ⟨hreplies, h.bytes, Or.inl rfl⟩
  | empty hloop =>
      simp only [uncounted, hloop] at hreplies
      exact ⟨congrArg (· + 1) hreplies, h.bytes, Or.inr (Or.inr rfl)⟩
  | written hloop =>
      simp only [uncounted, hloop] at hreplies
      refine ⟨hreplies, ?_, Or.inl rfl⟩
      show c.bytesWritten + dataSize = dataSize * (c.packetsWritten + 1)
      rw [h.bytes, Nat.mul_add, Nat.mul_one]
  | closed hloop => simpa [hloop] using h.unresolved

theorem replying (h : (system dataSize segments).Reachable c) : c.Replying dataSize :=
  System.Reachable.invariant (Replying dataSize) ⟨rfl, rfl, Or.inr (Or.inl rfl)⟩
    (fun _ _ _ hc hstep => hc.moves (moves_of_step hstep)) h

/-- What has been read of a stream of these segments: whole packets, until one is short and the
last one. -/
structure Reading (dataSize : Nat) (segments : List Nat) (c : ReplyConnection) : Prop where
  conserved : c.bytesRead + c.arrived + c.segments.sum = segments.sum
  ended : c.ended = true → c.segments = []
  whole : c.bytesRead = dataSize * c.packetsRead ∨ c.ended = true ∧ c.arrived = 0
  packets_le : c.bytesRead ≤ dataSize * c.packetsRead
  packets_lt : 0 < c.packetsRead → dataSize * c.packetsRead < c.bytesRead + dataSize
  emptied : 0 < c.emptyReads → c.ended = true ∧ c.arrived = 0

theorem Reading.moves (hsize : 0 < dataSize) (h : c.Reading dataSize segments)
    (hmoves : c.Moves dataSize e c') : c'.Reading dataSize segments := by
  have hconserved := h.conserved
  cases hmoves with
  | segment size rest hsegments =>
      have hopen : c.ended ≠ true := fun hended => by simp [h.ended hended] at hsegments
      rw [hsegments, List.sum_cons] at hconserved
      exact
        { h with
          conserved := by
            show c.bytesRead + (c.arrived + size) + rest.sum = segments.sum
            omega
          ended := fun hended => absurd hended hopen
          whole := Or.inl (h.whole.resolve_right fun hlast => hopen hlast.1)
          emptied := fun hempty => absurd (h.emptied hempty).1 hopen }
  | endOfStream hsegments hended =>
      exact
        { h with
          ended := fun _ => hsegments
          whole := h.whole.imp_right fun hlast => ⟨rfl, hlast.2⟩
          emptied := fun hempty => ⟨rfl, (h.emptied hempty).2⟩ }
  | top | written | closed => exact { h with }
  | packet size hloop hread hpos =>
      obtain ⟨hle, hcase⟩ := readExactly_some hread
      have hwhole : c.bytesRead = dataSize * c.packetsRead :=
        h.whole.resolve_right fun hlast => by omega
      have hnext : dataSize * (c.packetsRead + 1) = dataSize * c.packetsRead + dataSize :=
        Nat.mul_succ dataSize c.packetsRead
      refine ⟨?_, h.ended, ?_, ?_, fun _ => ?_, fun hempty => ?_⟩
      · show c.bytesRead + size + (c.arrived - size) + c.segments.sum = segments.sum
        omega
      · rcases hcase with rfl | ⟨hended, harrived, -⟩
        · exact Or.inl (by simp only [hwhole, hnext])
        · exact Or.inr ⟨hended, by simp only [harrived, Nat.sub_self]⟩
      · show c.bytesRead + size ≤ dataSize * (c.packetsRead + 1)
        omega
      · show dataSize * (c.packetsRead + 1) < c.bytesRead + size + dataSize
        omega
      · obtain ⟨hended, harrived⟩ := h.emptied hempty
        exact ⟨hended, by simp only [harrived, Nat.zero_sub]⟩
  | empty hloop hread =>
      obtain ⟨-, hcase⟩ := readExactly_some hread
      have hlast : c.ended = true ∧ c.arrived = 0 := by
        rcases hcase with hzero | ⟨hended, harrived, -⟩
        · omega
        · exact ⟨hended, harrived⟩
      exact { h with emptied := fun _ => hlast }

theorem reading (hsize : 0 < dataSize) (h : (system dataSize segments).Reachable c) :
    c.Reading dataSize segments := by
  apply System.Reachable.invariant (Reading dataSize segments) ?_ ?_ h
  · exact ⟨by simp [system], fun hended => (by cases hended), Or.inl rfl, le_rfl,
      fun hpos => absurd hpos (lt_irrefl 0), fun hpos => absurd hpos (lt_irrefl 0)⟩
  · intro c e c' hc hstep
    exact hc.moves hsize (moves_of_step hstep)

/-- After an empty read the whole stream has been counted, a packet for each `DATA_SIZE` bytes
begun. -/
theorem read_counts (hsize : 0 < dataSize) (h : (system dataSize segments).Reachable c)
    (hempty : 0 < c.emptyReads) :
    c.bytesRead = segments.sum ∧ c.packetsRead = segments.sum ⌈/⌉ dataSize := by
  have hread := reading hsize h
  obtain ⟨hended, harrived⟩ := hread.emptied hempty
  have hall : c.bytesRead = segments.sum := by
    have hconserved := hread.conserved
    rw [hread.ended hended, harrived] at hconserved
    exact hconserved
  refine ⟨hall, ?_⟩
  rw [← hall]
  exact reads_eq_ceilDiv hsize hread.packets_le hread.packets_lt

/-- The reads that have returned bytes are no more than these bytes. -/
theorem Reading.packets_le_sum (hsize : 0 < dataSize) (h : c.Reading dataSize segments) :
    c.packetsRead ≤ segments.sum := by
  have hconserved := h.conserved
  rcases Nat.eq_zero_or_pos c.packetsRead with hzero | hpos
  · omega
  · have hlt := h.packets_lt hpos
    obtain ⟨packets, hpackets⟩ := Nat.exists_eq_succ_of_ne_zero hpos.ne'
    have hle : packets ≤ dataSize * packets := Nat.le_mul_of_pos_left packets hsize
    rw [hpackets, Nat.mul_succ] at hlt
    omega

/-- Each step of a run, by what it has left behind. -/
theorem run_length {es : List ReplyEvent}
    (h : (system dataSize segments).exec (system dataSize segments).init es = some c) :
    es.length + c.segments.length + (if c.loop = .top then 1 else 0) =
      segments.length + c.ended.toNat + 2 * c.packetsRead + c.emptyReads +
        2 * c.packetsWritten := by
  apply System.exec_induction (motive := fun es c =>
    es.length + c.segments.length + (if c.loop = .top then 1 else 0) =
      segments.length + c.ended.toNat + 2 * c.packetsRead + c.emptyReads +
        2 * c.packetsWritten) ?_ ?_ h
  · simp [system, ReplyLoop.body]
  · intro es c e c' hexec ih hstep
    have hmoves := moves_of_step hstep
    have hunresolved := (replying ⟨es, hexec⟩).unresolved
    rw [List.length_append, List.length_singleton]
    cases hmoves with
    | segment size rest hsegments =>
        rw [hsegments, List.length_cons] at ih
        simp only
        omega
    | endOfStream hsegments hended =>
        rw [hended, Bool.toNat_false] at ih
        simp only [Bool.toNat_true]
        omega
    | closed hloop => simp [hloop] at hunresolved
    | top hloop | packet _ hloop | empty hloop | written hloop =>
        simp only [hloop, reduceCtorEq, if_true, if_false] at ih ⊢
        omega

/-- A run that goes on writes on: only so many of its steps are something else than a write that has
completed and the turn and the empty read that follow it. -/
theorem run_length_le (hsize : 0 < dataSize) {es : List ReplyEvent}
    (h : (system dataSize segments).exec (system dataSize segments).init es = some c) :
    es.length ≤ segments.length + 2 * segments.sum + 2 + 3 * c.packetsWritten := by
  have hlength := run_length h
  have hreplies := (replying ⟨es, h⟩).replies
  have hpackets := (reading hsize ⟨es, h⟩).packets_le_sum hsize
  have hended : c.ended.toNat ≤ 1 := Bool.toNat_le c.ended
  have huncounted : c.uncounted ≤ 1 := by
    unfold uncounted
    split <;> decide
  omega

/-- The loop never waits for something that does not come, and never ends. -/
theorem goes_on (h : (system dataSize segments).Reachable c) :
    ∃ e c', (system dataSize segments).step c e = some c' := by
  have hstep : ∀ e c', c.step dataSize e = some c' →
      ∃ e c', (system dataSize segments).step c e = some c' := fun e c' h => ⟨e, c', h⟩
  rcases (replying h).unresolved with hloop | hloop | hloop
  · exact hstep (.loop (.read .top)) _ (by rw [step, hloop]; rfl)
  · cases hsegments : c.segments with
    | cons size rest => exact hstep .segment _ (by rw [step, hsegments])
    | nil =>
        cases hended : c.ended with
        | false => exact hstep .endOfStream _ (if_pos ⟨hsegments, hended⟩)
        | true =>
            obtain ⟨size, hread⟩ : ∃ size, c.readExactly dataSize = some size := by
              unfold readExactly
              rw [hended]
              split <;> exact ⟨_, rfl⟩
            have hallows : c.allows dataSize (.read (.read size)) = true := by
              simp [allows, hread]
            exact hstep (.loop (.read (.read size))) _ ((if_pos hallows).trans (by rw [hloop]; rfl))
  · exact hstep (.loop (.write .written)) _ (by rw [step, hloop]; rfl)

/-! ### What it was to do -/

/-- A reply loop that serves a client who sends this stream and closes. -/
structure Serves (dataSize : Nat) (segments : List Nat) : Prop where
  /-- No run is longer than some bound, and a run goes on until the loop has stopped. -/
  ends : ∃ bound, ∀ es c,
    (system dataSize segments).exec (system dataSize segments).init es = some c →
      es.length ≤ bound ∧
        (c.loop = .stopped ∨ ∃ e c', (system dataSize segments).step c e = some c')
  counted : ∀ c, (system dataSize segments).Reachable c → c.loop = .stopped →
    c.bytesRead = segments.sum ∧ c.packetsRead = segments.sum ⌈/⌉ dataSize
  /-- Every packet has been answered before the next read starts. -/
  answered : ∀ c, (system dataSize segments).Reachable c → c.loop = .reading ∨ c.loop = .stopped →
    c.packetsWritten = c.packetsRead ∧ c.bytesWritten = dataSize * c.packetsRead
  /-- Nothing is written after an empty read. -/
  quiet : ∀ c, (system dataSize segments).Reachable c → 0 < c.emptyReads → c.loop ≠ .writing

/-- The loop serves no client: whatever the client sends, it never ends. -/
theorem never_serves (dataSize : Nat) (segments : List Nat) : ¬Serves dataSize segments := by
  intro hserves
  obtain ⟨bound, hbound⟩ := hserves.ends
  obtain ⟨es, c, hexec, hlength⟩ :=
    System.exists_run_length (S := system dataSize segments) (fun _ h => goes_on h) (bound + 1)
  have hle := (hbound es c hexec).1
  omega

/-- One ping of the default size arrives, is read and is not answered. -/
def onePingRun : List ReplyEvent :=
  [.segment, .loop (.read (.read 64)), .loop (.read .top)]

def afterOnePing : ReplyConnection :=
  ((system 64 [64]).exec (system 64 [64]).init onePingRun).get (by decide +kernel)

theorem ping_unanswered : ¬Serves 64 [64] := by
  intro hserves
  have hreach : (system 64 [64]).Reachable afterOnePing := ⟨onePingRun, (Option.some_get _).symm⟩
  obtain ⟨hanswered, -⟩ := hserves.answered afterOnePing hreach (Or.inl (by decide +kernel))
  exact absurd hanswered (by decide +kernel)

end ReplyConnection

end SeastarExperiments
