import SeastarExperiments.DuplexLane

/-! One direction of a TCP connection over its whole life, whatever program runs at the writing end:
the writing half of every `handle_connection` here is a `WriteLoop` that may also end elsewhere. An
operation may fail, and an end may go away with bytes that it has not handed to the channel. -/

namespace SeastarExperiments

open ByteStream

namespace WriteLoop

/-- What a continuation of a handler does to its writing half. -/
inductive Next (interrupted : Bool) : WriteLoop → LoopEvent → WriteLoop → Prop
  | beginClose (hflag : interrupted = true) : Next interrupted .top (.write .top) .closing
  | beginWrite (hflag : interrupted = false) : Next interrupted .top (.write .top) .writing
  | endWrite : Next interrupted .writing (.write .written) .top
  /-- The ping-pong client's loop ends in the continuation of a write that sees the interrupt. -/
  | leave : Next interrupted .writing (.write .written) .stopped
  | endClose : Next interrupted .closing (.write .closed) .stopped
  | failWrite : Next interrupted .writing (.write .failed) .failed
  | failClose : Next interrupted .closing (.write .failed) .failed
  | read (w : WriteLoop) (e : ReadEvent) : Next interrupted w (.read e) w
  /-- A loop that also reads ends in a read. -/
  | readEnds (e : ReadEvent) (w : WriteLoop) (hended : w.finished = true) :
      Next interrupted .top (.read e) w

theorem next_body (interrupted : Bool) :
    Next interrupted .top (.write .top) (body interrupted) := by
  cases interrupted with
  | true => exact .beginClose rfl
  | false => exact .beginWrite rfl

theorem next_of_step {interrupted : Bool} {w w' : WriteLoop} {e : WriteEvent}
    (h : w.step interrupted e = some w') : Next interrupted w (.write e) w' := by
  unfold step at h
  split at h <;> cases h
  · exact next_body interrupted
  · exact .endWrite
  · exact .endClose
  · exact .failWrite
  · exact .failClose

end WriteLoop

/-- The `handle_connection` of a client, and when it awaits a read. -/
structure ClientProgram (State : Type) extends HandlerProgram State where
  reading : State → Bool

instance {State : Type} : Coe (ClientProgram State) (HandlerProgram State) :=
  ⟨ClientProgram.toHandlerProgram⟩

/-- `tcp_client`. -/
def duplexClient : ClientProgram Handler where
  toHandlerProgram := duplexHandler
  reading h := h.reader = .reading

/-- `tcp_client_pingpong`. -/
def pingClient : ClientProgram PingLoop where
  toHandlerProgram := pingHandler
  reading h := h = .reading

/-- The writing half of a `handle_connection`. -/
structure WriteView {State : Type} (program : ClientProgram State) where
  view : State → WriteLoop
  start : ∀ interrupted, view (program.start interrupted) = WriteLoop.body interrupted
  next : ∀ interrupted h e h', program.step interrupted h e = some h' →
    WriteLoop.Next interrupted (view h) e (view h')
  resolved : ∀ h, program.resolved h = true → (view h).finished = true

def duplexWrites : WriteView duplexClient where
  view := Handler.writer
  start _ := rfl
  next interrupted h e h' hstep := by
    cases e with
    | write e =>
        obtain ⟨w, hw, rfl⟩ := Option.map_eq_some_iff.mp hstep
        exact WriteLoop.next_of_step hw
    | read e =>
        obtain ⟨r, -, rfl⟩ := Option.map_eq_some_iff.mp hstep
        exact .read h.writer e
  resolved _ h := (Bool.and_eq_true_iff.mp h).1

/-- The loop of the ping-pong client has its writes behind it while it reads. -/
def PingLoop.writer : PingLoop → WriteLoop
  | .top => .top
  | .writing => .writing
  | .reading => .top
  | .closing => .closing
  | .stopped => .stopped
  | .failed => .failed

def pingWrites : WriteView pingClient where
  view := PingLoop.writer
  start := by decide
  next interrupted h e h' hstep := by
    cases PingLoop.moves_of_step hstep with
    | top =>
        cases interrupted with
        | true => exact .beginClose rfl
        | false => exact .beginWrite rfl
    | written =>
        cases interrupted with
        | true => exact .leave
        | false => exact .endWrite
    | read size =>
        unfold PingLoop.onRead
        split
        · exact .read .top (.read size)
        · exact .readEnds (.read size) .stopped rfl
    | closed => exact .endClose
    | writeFailed => exact .failWrite
    | closeFailed => exact .failClose
    | readFailed => exact .readEnds .failed .failed rfl
  resolved h hresolved := by
    cases h with
    | stopped | failed => rfl
    | top | writing | reading | closing => cases hresolved

/-- One direction of a connection, with the packets whose writes have begun and those that have been
counted, and with what the reading end has counted. -/
structure TcpStream where
  pipe : Pipe := {}
  begun : Nat := 0
  counted : Nat := 0
  bytesRead : Nat := 0
  packetsRead : Nat := 0
  /-- The bytes that were still unsent when the writing end went away. -/
  dropped : Nat := 0
  deriving DecidableEq

namespace TcpStream

/-- A continuation of the writing end. Where an operation fails, the bytes stay where they are. -/
def write (cfg : LaneConfig) (interrupted : Bool) (s : TcpStream) (e : WriteEvent) :
    Option TcpStream :=
  match e with
  | .failed => some s
  | .top | .written | .closed =>
      (Lane.writeEffect cfg interrupted s.pipe e).map fun pipe =>
        { s with
          pipe
          begun := s.begun + if e = .top ∧ interrupted = false then 1 else 0
          counted := s.counted + (LoopEvent.write e).packetsWritten }

/-- A continuation of the reading end. -/
def read (cfg : LaneConfig) (s : TcpStream) (e : ReadEvent) : Option TcpStream :=
  match e with
  | .failed => some s
  | .top | .read _ =>
      (Lane.readEffect cfg s.pipe e).map fun pipe =>
        { s with
          pipe
          bytesRead := s.bytesRead + (LoopEvent.read e).bytesRead
          packetsRead := s.packetsRead + (LoopEvent.read e).packetsRead }

theorem write_some {cfg : LaneConfig} {interrupted : Bool} {s s' : TcpStream} {e : WriteEvent}
    (he : e ≠ .failed) (h : s.write cfg interrupted e = some s') :
    ∃ pipe, Lane.writeEffect cfg interrupted s.pipe e = some pipe ∧
      s' = { s with
        pipe
        begun := s.begun + if e = .top ∧ interrupted = false then 1 else 0
        counted := s.counted + (LoopEvent.write e).packetsWritten } := by
  cases e with
  | failed => exact absurd rfl he
  | top =>
      cases h
      exact ⟨_, rfl, rfl⟩
  | written | closed =>
      obtain ⟨pipe, hpipe, rfl⟩ := Option.map_eq_some_iff.mp h
      exact ⟨pipe, hpipe, rfl⟩

theorem read_some {cfg : LaneConfig} {s s' : TcpStream} {e : ReadEvent} (he : e ≠ .failed)
    (h : s.read cfg e = some s') :
    ∃ pipe, Lane.readEffect cfg s.pipe e = some pipe ∧
      s' = { s with
        pipe
        bytesRead := s.bytesRead + (LoopEvent.read e).bytesRead
        packetsRead := s.packetsRead + (LoopEvent.read e).packetsRead } := by
  cases e with
  | failed => exact absurd rfl he
  | top =>
      cases h
      exact ⟨_, rfl, rfl⟩
  | read =>
      obtain ⟨pipe, hpipe, rfl⟩ := Option.map_eq_some_iff.mp h
      exact ⟨pipe, hpipe, rfl⟩

/-- The channel takes or delivers a segment. -/
def segment (s : TcpStream) (move : Pipe → Option Pipe) : Option TcpStream :=
  (move s.pipe).map fun pipe => { s with pipe }

/-- The writing end goes away: what it has handed to the channel still arrives. -/
def hangUp (s : TcpStream) : TcpStream :=
  { s with pipe := { s.pipe with unsent := 0, closed := true }, dropped := s.dropped + s.pipe.unsent }

/-- The writes that have begun and have not been counted. -/
def uncounted (s : TcpStream) : Nat := s.begun - s.counted

/-- The account of a direction whose writing half is this loop. -/
structure Accounted (cfg : LaneConfig) (w : WriteLoop) (s : TcpStream) : Prop where
  counted_le : s.counted ≤ s.begun
  begun_le : s.begun ≤ s.counted + 1
  writing : w = .writing → s.begun = s.counted + 1
  settled : w ≠ .writing → w ≠ .failed → s.begun = s.counted
  closed : s.pipe.closed = true → w.finished = true
  closed_flushed : s.pipe.closed = true → s.pipe.unsent = 0
  dropped_closed : 0 < s.dropped → s.pipe.closed = true
  /-- A write that has been counted has left no more behind than its stream keeps back. -/
  kept_within : Within (s.pipe.unsent + s.dropped - cfg.writeSize * s.uncounted) cfg.limits.slack
  queued_within : Within s.pipe.queued cfg.limits.capacity
  /-- Every byte of a begun write is in transit, has been counted by the reader or went away. -/
  conserved : cfg.writeSize * s.begun = s.pipe.inTransit + s.bytesRead + s.dropped
  held_le : s.pipe.held ≤ cfg.readSize
  packets_le : s.bytesRead ≤ cfg.readSize * s.packetsRead
  packets_lt : 0 < s.packetsRead → cfg.readSize * s.packetsRead < s.bytesRead + cfg.readSize
  /-- Only the last packet is short, and after it the stream is empty for good. -/
  whole : s.bytesRead = cfg.readSize * s.packetsRead ∨
    (s.pipe.closed = true ∧ s.pipe.queued = 0 ∧ s.pipe.held = 0)

theorem accounted_fresh (cfg : LaneConfig) : Accounted cfg .top {} := by
  constructor <;> simp [Pipe.inTransit]

variable {cfg : LaneConfig} {interrupted : Bool} {w w' : WriteLoop} {s s' : TcpStream}

/-- The writing half goes on elsewhere, or ends. -/
theorem Accounted.other (h : Accounted cfg w s) {e : ReadEvent}
    (hnext : WriteLoop.Next interrupted w (.read e) w') : Accounted cfg w' s := by
  cases hnext with
  | read => exact h
  | readEnds _ _ hended =>
      exact { h with
        writing := by
          rintro rfl
          cases hended
        settled := fun _ _ => h.settled (by simp) (by simp)
        closed := fun _ => hended }

theorem Accounted.write (h : Accounted cfg w s) {e : WriteEvent}
    (hnext : WriteLoop.Next interrupted w (.write e) w') (hs : s.write cfg interrupted e = some s') :
    Accounted cfg w' s' := by
  have hconserved := h.conserved
  simp only [Pipe.inTransit] at hconserved
  cases hnext with
  | beginClose hflag =>
      subst hflag
      cases hs
      exact { h with
        writing := fun hw => by cases hw
        settled := fun _ _ => by simpa [LoopEvent.packetsWritten] using h.settled (by simp) (by simp)
        begun_le := by simpa [LoopEvent.packetsWritten] using h.begun_le
        counted_le := by simpa [LoopEvent.packetsWritten] using h.counted_le
        closed := fun hclosed => by cases h.closed hclosed
        kept_within := by simpa [uncounted, LoopEvent.packetsWritten] using h.kept_within }
  | beginWrite hflag =>
      subst hflag
      cases hs
      have hsettled := h.settled (by simp) (by simp)
      have hopen : s.pipe.closed ≠ true := fun hclosed => by cases h.closed hclosed
      have hbegun : s.begun + 1 = s.counted + 1 := by omega
      exact { h with
        counted_le := by
          show s.counted + 0 ≤ s.begun + 1
          omega
        begun_le := hbegun.le
        writing := fun _ => hbegun
        settled := fun hw => absurd rfl hw
        closed := fun hclosed => absurd hclosed hopen
        closed_flushed := fun hclosed => absurd hclosed hopen
        kept_within := by
          have hkept := h.kept_within
          rw [uncounted, hsettled, Nat.sub_self] at hkept
          refine hkept.mono ?_
          show s.pipe.unsent + cfg.writeSize + s.dropped -
            cfg.writeSize * (s.begun + 1 - (s.counted + 0)) ≤ _
          have hone : s.begun + 1 - (s.counted + 0) = 1 := by omega
          rw [hone]
          omega
        conserved := by
          show cfg.writeSize * (s.begun + 1) =
            s.pipe.unsent + cfg.writeSize + s.pipe.queued + s.pipe.held + s.bytesRead + s.dropped
          rw [Nat.mul_add, Nat.mul_one]
          omega
        whole := h.whole.imp_right fun hdry => absurd hdry.1 hopen }
  | endWrite | leave =>
      have hwriting := h.writing rfl
      have hopen : s.pipe.closed ≠ true := fun hclosed => by cases h.closed hclosed
      have hdropped : s.dropped = 0 := Nat.eq_zero_of_not_pos (mt h.dropped_closed hopen)
      obtain ⟨pipe, hpipe, rfl⟩ := Option.map_eq_some_iff.mp hs
      obtain ⟨hflushed, hsame⟩ := Option.ite_none_right_eq_some.mp hpipe
      cases hsame
      exact { h with
        counted_le := by
          show s.counted + 1 ≤ s.begun
          omega
        begun_le := by
          show s.begun ≤ s.counted + 1 + 1
          omega
        writing := fun hw => by cases hw
        settled := fun _ _ => hwriting
        closed := fun hclosed => absurd hclosed hopen
        kept_within := hflushed.mono (by
          rw [hdropped]
          exact Nat.sub_le _ _) }
  | endClose =>
      have hsettled := h.settled (by simp) (by simp)
      obtain ⟨pipe, hpipe, rfl⟩ := Option.map_eq_some_iff.mp hs
      obtain ⟨hflushed, rfl⟩ := Pipe.close_some hpipe
      exact { h with
        writing := fun hw => by cases hw
        settled := fun _ _ => hsettled
        closed := fun _ => rfl
        closed_flushed := fun _ => hflushed
        dropped_closed := fun _ => rfl
        whole := h.whole.imp_right fun hdry => ⟨rfl, hdry.2⟩ }
  | failWrite =>
      cases hs
      exact { h with
        writing := fun hw => by cases hw
        settled := fun _ hw => absurd rfl hw
        closed := fun _ => rfl }
  | failClose =>
      cases hs
      exact { h with
        writing := fun hw => by cases hw
        settled := fun _ hw => absurd rfl hw
        closed := fun _ => rfl }

theorem Accounted.read (h : Accounted cfg w s) {e : ReadEvent} (hs : s.read cfg e = some s') :
    Accounted cfg w s' := by
  cases e with
  | top | failed =>
      cases hs
      exact h
  | read size =>
      obtain ⟨pipe, hpipe, rfl⟩ := Option.map_eq_some_iff.mp hs
      simp only [Lane.readEffect, Option.bind_eq_some_iff, Option.ite_none_right_eq_some,
        Option.some.injEq] at hpipe
      obtain ⟨⟨held, q⟩, hcomplete, rfl, rfl⟩ := hpipe
      obtain ⟨hfull, rfl, rfl⟩ := Pipe.complete_some hcomplete
      have hconserved := h.conserved
      have hle := h.held_le
      have hpackets := h.packets_le
      have hlast := h.packets_lt
      simp only [Pipe.inTransit] at hconserved
      rcases Nat.eq_zero_or_pos s.pipe.held with hempty | hpos
      · exact { h with
          conserved := by
            simp only [Pipe.inTransit, LoopEvent.bytesRead]
            omega
          held_le := Nat.zero_le _
          packets_le := by simpa [LoopEvent.bytesRead, LoopEvent.packetsRead, hempty] using hpackets
          packets_lt := by simpa [LoopEvent.bytesRead, LoopEvent.packetsRead, hempty] using hlast
          whole := by
            rcases hfull with hnone | hdry
            · -- nothing was asked for, so nothing has ever been read
              have hzero : s.bytesRead = 0 := by simpa [← hnone, hempty] using hpackets
              exact Or.inl (by simp [LoopEvent.bytesRead, ← hnone, hempty, hzero])
            · exact Or.inr ⟨hdry.1, hdry.2, rfl⟩ }
      · have hbefore : s.bytesRead = cfg.readSize * s.packetsRead := by
          rcases h.whole with hwhole | ⟨-, -, hempty⟩
          · exact hwhole
          · omega
        exact { h with
          conserved := by
            simp only [Pipe.inTransit, LoopEvent.bytesRead]
            omega
          held_le := Nat.zero_le _
          packets_le := by
            simp only [LoopEvent.bytesRead, LoopEvent.packetsRead, if_pos hpos, Nat.mul_add,
              Nat.mul_one]
            omega
          packets_lt := fun _ => by
            simp only [LoopEvent.bytesRead, LoopEvent.packetsRead, if_pos hpos, Nat.mul_add,
              Nat.mul_one]
            omega
          whole := by
            simp only [LoopEvent.bytesRead, LoopEvent.packetsRead, if_pos hpos, Nat.mul_add,
              Nat.mul_one]
            rcases hfull with hfull | hdry
            · exact Or.inl (by omega)
            · exact Or.inr ⟨hdry.1, hdry.2, trivial⟩ }

theorem Accounted.accept (h : Accounted cfg w s) {n : Nat}
    (hs : s.segment (fun p => p.accept cfg.limits n) = some s') : Accounted cfg w s' := by
  obtain ⟨pipe, hpipe, rfl⟩ := Option.map_eq_some_iff.mp hs
  obtain ⟨hpos, hunsent, hroom, rfl⟩ := Pipe.accept_some hpipe
  have hconserved := h.conserved
  simp only [Pipe.inTransit] at hconserved
  have hopen : s.pipe.closed ≠ true := fun hclosed => by
    have := h.closed_flushed hclosed
    omega
  exact { h with
    closed_flushed := fun hclosed => absurd hclosed hopen
    kept_within := h.kept_within.mono
      (Nat.sub_le_sub_right (Nat.add_le_add_right (Nat.sub_le _ _) _) _)
    queued_within := hroom
    conserved := by
      simp only [Pipe.inTransit]
      omega
    whole := h.whole.imp_right fun hdry => absurd hdry.1 hopen }

theorem Accounted.deliver (h : Accounted cfg w s) {n : Nat}
    (hs : s.segment (fun p => p.deliver cfg.readSize n) = some s') : Accounted cfg w s' := by
  obtain ⟨pipe, hpipe, rfl⟩ := Option.map_eq_some_iff.mp hs
  obtain ⟨hpos, hqueued, hneed, rfl⟩ := Pipe.deliver_some hpipe
  have hconserved := h.conserved
  simp only [Pipe.inTransit] at hconserved
  exact { h with
    conserved := by
      simp only [Pipe.inTransit]
      omega
    queued_within := h.queued_within.mono (Nat.sub_le _ _)
    held_le := hneed
    whole := h.whole.imp_right fun hdry => by omega }

theorem Accounted.hangUp (h : Accounted cfg w s) (hended : w.finished = true) :
    Accounted cfg w s.hangUp := by
  have hconserved := h.conserved
  simp only [Pipe.inTransit] at hconserved
  exact { h with
    closed := fun _ => hended
    closed_flushed := fun _ => rfl
    dropped_closed := fun _ => rfl
    kept_within := h.kept_within.mono (by
      simp only [TcpStream.hangUp, uncounted]
      omega)
    conserved := by
      simp only [TcpStream.hangUp, Pipe.inTransit]
      omega
    whole := h.whole.imp_right fun hdry => ⟨rfl, hdry.2⟩ }

/-- The reader has counted one packet for each of its `DATA_SIZE` bytes begun. -/
theorem Accounted.packetsRead_eq (h : Accounted cfg w s) :
    s.packetsRead = s.bytesRead ⌈/⌉ cfg.readSize := by
  have hle := h.packets_le
  have hlt := h.packets_lt
  rcases Nat.eq_zero_or_pos cfg.readSize with hzero | hsize
  · rw [hzero] at hle hlt ⊢
    rw [ceilDiv_zero]
    omega
  · exact reads_eq_ceilDiv hsize hle hlt

end TcpStream

end SeastarExperiments
