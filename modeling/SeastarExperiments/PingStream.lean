import SeastarExperiments.ClientProcess

/-! The output stream of the ping-pong client. `output.write` puts a packet into the stream's buffer
and `handle_connection` neither flushes nor always closes the stream: a packet smaller than the
buffer stays behind while the client waits for its answer, and two of the three ways out of the
loop drop what is left. -/

namespace SeastarExperiments

open Transition

/-- What the handlers rely on of Seastar's `output_stream`: a write that finds so many bytes in the
buffer leaves so many there, and passes nothing on before the buffer is full. -/
structure OutputStream where
  capacity : Nat
  write : Nat → Nat → Nat
  write_le : ∀ buffered len, write buffered len ≤ buffered + len
  appends : ∀ buffered len, buffered + len < capacity → write buffered len = buffered + len

/-- A connection of the ping-pong client with its output stream. -/
structure PingConnection where
  loop : PingLoop
  /-- The bytes in the stream's buffer. -/
  buffered : Nat := 0
  /-- The bytes that the stream has passed on to the connection. -/
  passed : Nat := 0
  /-- The completed calls of `output.close`. -/
  closes : Nat := 0
  deriving DecidableEq

namespace PingConnection

section

variable (stream : OutputStream) (dataSize : Nat)

/-- The call of `output.write`. -/
def write (c : PingConnection) : PingConnection :=
  { c with
    loop := .writing
    buffered := stream.write c.buffered dataSize
    passed := c.passed + (c.buffered + dataSize - stream.write c.buffered dataSize) }

/-- `output.close` has passed the rest on. -/
def close (c : PingConnection) : PingConnection :=
  { c with
    loop := .stopped
    buffered := 0
    passed := c.passed + c.buffered
    closes := c.closes + 1 }

def body (interrupted : Bool) (c : PingConnection) : PingConnection :=
  if interrupted then { c with loop := .closing } else c.write stream dataSize

/-- The loop steps as `PingLoop.step` says, and its calls act on the stream. -/
def step (interrupted : Bool) (c : PingConnection) (e : LoopEvent) : Option PingConnection :=
  (c.loop.step interrupted e).map fun loop =>
    match e with
    | .write .top => c.body stream dataSize interrupted
    | .write .closed => c.close
    | _ => { c with loop }

def resolved (c : PingConnection) : Bool := c.loop.resolved

end

variable {stream : OutputStream} {dataSize : Nat} {c c' : PingConnection} {interrupted : Bool}
  {e : LoopEvent}

theorem body_loop : (c.body stream dataSize interrupted).loop = PingLoop.body interrupted := by
  cases interrupted <;> rfl

/-- Apart from the stream, the connection is the loop of `tcp_client_pingpong`. -/
theorem step_loop (stream : OutputStream) (dataSize : Nat) (interrupted : Bool)
    (c : PingConnection) (e : LoopEvent) :
    (c.step stream dataSize interrupted e).map loop = c.loop.step interrupted e := by
  cases hloop : c.loop.step interrupted e with
  | none => rw [step, hloop]; rfl
  | some loop' =>
      rw [step, hloop]
      have hmoves := PingLoop.moves_of_step hloop
      generalize c.loop = before at hmoves
      apply congrArg some
      cases hmoves with
      | top => exact body_loop
      | written | read | closed | writeFailed | closeFailed | readFailed => rfl

/-- What a step can be. -/
inductive Moves (stream : OutputStream) (dataSize : Nat) (interrupted : Bool) (c : PingConnection) :
    LoopEvent → PingConnection → Prop
  | closing (hloop : c.loop = .top) (hflag : interrupted = true) :
      Moves stream dataSize interrupted c (.write .top) { c with loop := .closing }
  | write (hloop : c.loop = .top) (hflag : interrupted = false) :
      Moves stream dataSize interrupted c (.write .top) (c.write stream dataSize)
  | written (hloop : c.loop = .writing) :
      Moves stream dataSize interrupted c (.write .written)
        { c with loop := .onWritten interrupted }
  | read (size : Nat) (hloop : c.loop = .reading) :
      Moves stream dataSize interrupted c (.read (.read size)) { c with loop := .onRead size }
  | closed (hloop : c.loop = .closing) :
      Moves stream dataSize interrupted c (.write .closed) c.close
  | failed (e : LoopEvent) (hfails : e = .write .failed ∨ e = .read .failed)
      (hbusy : c.loop ≠ .stopped) :
      Moves stream dataSize interrupted c e { c with loop := .failed }

theorem moves_of_step (h : c.step stream dataSize interrupted e = some c') :
    c.Moves stream dataSize interrupted e c' := by
  obtain ⟨loop', hloop, hc⟩ := Option.map_eq_some_iff.mp h
  subst hc
  have hmoves := PingLoop.moves_of_step hloop
  generalize hbefore : c.loop = before at hmoves
  cases hmoves with
  | top =>
      cases interrupted with
      | true => exact .closing hbefore rfl
      | false => exact .write hbefore rfl
  | written => exact .written hbefore
  | read size => exact .read size hbefore
  | closed => exact .closed hbefore
  | writeFailed => exact .failed _ (Or.inl rfl) (by rw [hbefore]; decide)
  | closeFailed => exact .failed _ (Or.inl rfl) (by rw [hbefore]; decide)
  | readFailed => exact .failed _ (Or.inr rfl) (by rw [hbefore]; decide)

end PingConnection

/-- `handle_connection` of `tcp_client_pingpong` over this output stream. -/
def pingStreamHandler (stream : OutputStream) (dataSize : Nat) : HandlerProgram PingConnection where
  start interrupted := PingConnection.body stream dataSize interrupted { loop := .top }
  step := PingConnection.step stream dataSize
  resolved := PingConnection.resolved
  start_unresolved interrupted := by cases interrupted <;> rfl
  step_resolved interrupted c e h := by
    have hnone := PingConnection.step_loop stream dataSize interrupted c e
    rw [PingLoop.step_resolved h] at hnone
    exact Option.map_eq_none_iff.mp hnone

/-! ### The bytes of a connection -/

namespace PingConnection

variable {stream : OutputStream} {dataSize packets : Nat} {c c' : PingConnection}
  {interrupted : Bool} {e : LoopEvent}

/-- The packets that have been handed to the stream and not been counted. -/
def uncounted (c : PingConnection) : Nat := if c.loop = .writing then 1 else 0

/-- A connection that has counted these packets: their bytes are in the buffer or passed on, and the
stream is not closed before the loop has stopped. -/
structure Sound (dataSize packets : Nat) (c : PingConnection) : Prop where
  conserved : c.loop ≠ .failed → c.passed + c.buffered = dataSize * (packets + c.uncounted)
  unclosed : c.loop ≠ .stopped → c.closes = 0

theorem write_conserved (c : PingConnection) :
    (c.write stream dataSize).passed + (c.write stream dataSize).buffered =
      c.passed + c.buffered + dataSize := by
  have hle := stream.write_le c.buffered dataSize
  simp only [write]
  omega

theorem sound_start (stream : OutputStream) (dataSize : Nat) (interrupted : Bool) :
    Sound dataSize 0 ((pingStreamHandler stream dataSize).start interrupted) := by
  cases interrupted with
  | true => exact ⟨fun _ => rfl, fun _ => rfl⟩
  | false =>
      refine ⟨fun _ => ?_, fun _ => rfl⟩
      apply (write_conserved _).trans
      simp [uncounted, pingStreamHandler, body, write]

theorem Sound.moves (h : c.Sound dataSize packets)
    (hmoves : c.Moves stream dataSize interrupted e c') :
    c'.Sound dataSize (packets + e.packetsWritten) := by
  cases hmoves with
  | closing hloop hflag =>
      have hconserved := h.conserved (by simp [hloop])
      refine ⟨fun _ => ?_, fun _ => h.unclosed (by simp [hloop])⟩
      simpa [uncounted, hloop, LoopEvent.packetsWritten] using hconserved
  | write hloop hflag =>
      have hconserved := h.conserved (by simp [hloop])
      refine ⟨fun _ => ?_, fun _ => h.unclosed (by simp [hloop])⟩
      rw [write_conserved, hconserved]
      simp [uncounted, hloop, write, LoopEvent.packetsWritten, Nat.mul_add]
  | written hloop =>
      have hconserved := h.conserved (by simp [hloop])
      refine ⟨fun _ => ?_, fun _ => h.unclosed (by simp [hloop])⟩
      cases interrupted <;>
        simpa [uncounted, hloop, PingLoop.onWritten, LoopEvent.packetsWritten] using hconserved
  | read size hloop =>
      have hconserved := h.conserved (by simp [hloop])
      refine ⟨fun _ => ?_, fun _ => h.unclosed (by simp [hloop])⟩
      have hnot : PingLoop.onRead size ≠ .writing := by
        unfold PingLoop.onRead
        split <;> decide
      simpa [uncounted, hloop, hnot, LoopEvent.packetsWritten] using hconserved
  | closed hloop =>
      have hconserved := h.conserved (by simp [hloop])
      refine ⟨fun _ => ?_, fun hstopped => absurd rfl hstopped⟩
      simpa [uncounted, hloop, close, LoopEvent.packetsWritten] using hconserved
  | failed e hfails hbusy => exact ⟨fun hloop => absurd rfl hloop, fun _ => h.unclosed hbusy⟩

end PingConnection

namespace ClientTask

variable {stream : OutputStream} {dataSize : Nat} {P : Nat → PingConnection → Prop}
  {task : ClientTask PingConnection}

/-- The connection of this task, if it has one by now, has the property for the packets that the
task has counted; without one it has counted none. -/
def Streams (P : Nat → PingConnection → Prop) (task : ClientTask PingConnection) : Prop :=
  match task.phase with
  | .handling c => P task.packetsWritten c
  | _ => task.packetsWritten = 0

theorem Streams.connection {c : PingConnection} (h : task.Streams P)
    (hphase : task.phase = .handling c) : P task.packetsWritten c := by
  unfold Streams at h
  rw [hphase] at h
  exact h

theorem Streams.mono {Q : Nat → PingConnection → Prop} (h : task.Streams P)
    (hPQ : ∀ packets c, P packets c → Q packets c) : task.Streams Q := by
  unfold Streams at h ⊢
  cases hphase : task.phase with
  | handling c =>
      rw [hphase] at h
      exact hPQ _ c h
  | connecting | connectFailed =>
      rw [hphase] at h
      exact h

theorem Streams.connected {interrupted : Bool}
    (hstart : P 0 ((pingStreamHandler stream dataSize).start interrupted)) (h : task.Streams P)
    (hphase : task.phase = .connecting) :
    Streams P { task with
      phase := .handling ((pingStreamHandler stream dataSize).start interrupted) } := by
  unfold Streams at h
  rw [hphase] at h
  show P task.packetsWritten _
  rw [h]
  exact hstart

theorem Streams.connectFailed (h : task.Streams P) (hphase : task.phase = .connecting) :
    Streams P { task with phase := .connectFailed } := by
  unfold Streams at h
  rw [hphase] at h
  exact h

end ClientTask

namespace PingStream

variable {stream : OutputStream} {dataSize : Nat} {connections : UInt16} {n : Nat}
  {p q : Process n (ClientShard PingConnection)} {P : Nat → PingConnection → Prop}

abbrev system (stream : OutputStream) (dataSize : Nat) (connections : UInt16) (n : Nat) :
    System (Process n (ClientShard PingConnection)) (ProcessEvent n ClientEvent Unit) :=
  Client.system (pingStreamHandler stream dataSize) dataSize connections n

abbrev start (stream : OutputStream) (dataSize : Nat) (connections : UInt16) (n : Nat) :
    Process n (ClientShard PingConnection) :=
  Client.start (pingStreamHandler stream dataSize) dataSize connections n

/-- Every connection of the process has this property. -/
def Each (P : Nat → PingConnection → Prop) (p : Process n (ClientShard PingConnection)) : Prop :=
  ∀ i, ∀ task ∈ (p.shard i).tasks.tasks, task.Streams P

/-- What a new connection has, and every step of a connection keeps, every step of the process
keeps of all connections. -/
theorem Each.step {e : ProcessEvent n ClientEvent Unit} (h : Each P p)
    (hstart : ∀ interrupted, P 0 ((pingStreamHandler stream dataSize).start interrupted))
    (hmoves : ∀ i j f packets c c', e = .continuation i (.handler j f) → P packets c →
      PingConnection.Moves stream dataSize (p.shard i).interrupted c f c' →
      P (packets + f.packetsWritten) c')
    (hstep : (system stream dataSize connections n).step p e = some q) : Each P q := by
  apply Client.forall_tasks_step hstep h
  · rfl
  · intro task interrupted htask hphase
    exact htask.connected (hstart interrupted) hphase
  · intro task htask hphase
    exact htask.connectFailed hphase
  · intro i j f task c c' he htask hphase hmove
    exact hmoves i j f _ c c' he (htask.connection hphase) (PingConnection.moves_of_step hmove)

theorem each_sound (h : (system stream dataSize connections n).Reachable p) :
    Each (PingConnection.Sound dataSize) p := by
  apply System.Reachable.invariant (Each (PingConnection.Sound dataSize)) ?_ ?_ h
  · intro i task htask
    cases htask
  · intro p e q hp hstep
    apply hp.step (PingConnection.sound_start stream dataSize) _ hstep
    intro i j f packets c c' _ hc hmoves
    exact hc.moves hmoves

/-! ### What waits in the buffer -/

/-- A connection that waits for an answer has passed on every byte it has counted, and keeps none
in the buffer. -/
def Left (dataSize packets : Nat) (c : PingConnection) : Prop :=
  c.loop = .reading → c.passed = dataSize * packets ∧ c.buffered = 0

/-- A stream that passes a packet on whole never keeps a byte. -/
theorem each_empty (hwhole : stream.write 0 dataSize = 0)
    (h : (system stream dataSize connections n).Reachable p) :
    Each (fun packets c => c.Sound dataSize packets ∧ c.buffered = 0) p := by
  apply System.Reachable.invariant
    (Each fun packets c => c.Sound dataSize packets ∧ c.buffered = 0) ?_ ?_ h
  · intro i task htask
    cases htask
  · intro p e q hp hstep
    apply hp.step _ _ hstep
    · intro interrupted
      refine ⟨PingConnection.sound_start stream dataSize interrupted, ?_⟩
      cases interrupted with
      | true => rfl
      | false => exact hwhole
    · rintro i j f packets c c' _ ⟨hsound, hempty⟩ hmoves
      refine ⟨hsound.moves hmoves, ?_⟩
      cases hmoves with
      | write =>
          show stream.write c.buffered dataSize = 0
          rw [hempty]
          exact hwhole
      | closed => rfl
      | closing | written | read | failed => exact hempty

theorem each_left (hwhole : stream.write 0 dataSize = 0)
    (h : (system stream dataSize connections n).Reachable p) : Each (Left dataSize) p := by
  intro i task htask
  apply (each_empty hwhole h i task htask).mono
  rintro packets c ⟨hsound, hempty⟩ hreading
  have hconserved := hsound.conserved (by rw [hreading]; decide)
  refine ⟨?_, hempty⟩
  simpa [hempty, PingConnection.uncounted, hreading] using hconserved

/-- The first packet of a connection, while the client waits for its answer. -/
theorem exists_reading (stream : OutputStream) (dataSize : Nat) (hn : 0 < n)
    (hconnections : connections ≠ 0) :
    ∃ p i task c, (system stream dataSize connections n).Reachable p ∧
      task ∈ (p.shard i).tasks.tasks ∧ task.phase = .handling c ∧ c.loop = .reading ∧
      c.buffered = stream.write 0 dataSize := by
  obtain ⟨p, i, hp, hflag, hold⟩ :=
    Client.exists_connected (pingStreamHandler stream dataSize) dataSize hn hconnections
  have hstep : (pingStreamHandler stream dataSize).step (p.shard i).interrupted
      ((pingStreamHandler stream dataSize).start false) (.write .written) =
        some { (pingStreamHandler stream dataSize).start false with loop := .reading } := by
    rw [hflag]
    rfl
  obtain ⟨q, hq, -, hnew⟩ := Client.exists_handler_step hold rfl hstep (Nat.zero_le dataSize)
  exact ⟨q, i, _, _, hp.step hq, List.mem_of_getElem? hnew, rfl, rfl, rfl⟩

/-- A packet smaller than the buffer stays in it. -/
theorem write_small (stream : OutputStream) (hsmall : dataSize < stream.capacity) :
    stream.write 0 dataSize = dataSize := by
  rw [stream.appends 0 dataSize (by omega), Nat.zero_add]

/-- Every ping leaves the process before the client waits for its answer exactly if there is no
connection or if the stream passes a packet of this size on whole, which it never does with one
smaller than its buffer. -/
theorem pings_left_iff (stream : OutputStream) (dataSize : Nat) (connections : UInt16) (n : Nat) :
    ((∀ p, (system stream dataSize connections n).Reachable p → Each (Left dataSize) p) ↔
      n = 0 ∨ connections = 0 ∨ stream.write 0 dataSize = 0) ∧
    (0 < dataSize → dataSize < stream.capacity → stream.write 0 dataSize ≠ 0) := by
  refine ⟨⟨?_, ?_⟩, ?_⟩
  · intro hleft
    by_contra hsome
    push Not at hsome
    obtain ⟨hn, hconnections, hkept⟩ := hsome
    obtain ⟨p, i, task, c, hp, htask, hphase, hreading, hbuffered⟩ :=
      exists_reading stream dataSize (Nat.pos_of_ne_zero hn) hconnections
    obtain ⟨-, hempty⟩ := (hleft p hp i task htask).connection hphase hreading
    exact hkept (hbuffered.symm.trans hempty)
  · rintro (rfl | rfl | hwhole) p hp
    · intro i
      exact i.elim0
    · intro i task htask
      have hnone := Client.few_tasks hp i
      rw [List.eq_nil_of_length_eq_zero (Nat.le_zero.mp hnone)] at htask
      cases htask
    · exact each_left hwhole hp
  · intro hpos hsmall
    rw [write_small stream hsmall]
    omega

/-- A stream that fills its buffer before it passes it on, and passes a write on at once that is
large enough to fill it again. -/
def bufferedStream (capacity : Nat) : OutputStream where
  capacity
  write buffered len :=
    if (if buffered = 0 then capacity else 2 * capacity - buffered) ≤ len then 0
    else if buffered + len ≤ capacity then buffered + len
    else buffered + len - capacity
  write_le buffered len := by
    split_ifs <;> omega
  appends buffered len h := by
    split_ifs <;> omega

/-- The client writes its first ping, of the default size. -/
def firstPingRun : List (ProcessEvent 1 ClientEvent Unit) :=
  [.reporterSet shardZero true, .advance, .callRun shardZero (),
    .continuation shardZero (.connected 0 true),
    .continuation shardZero (.handler 0 (.write .written))]

def afterFirstPing : Process 1 (ClientShard PingConnection) :=
  ((system (bufferedStream 8192) 64 1 1).exec (start (bufferedStream 8192) 64 1 1)
    firstPingRun).get (by decide +kernel)

theorem ping_waits_in_buffer :
    ¬∀ p, (system (bufferedStream 8192) 64 1 1).Reachable p → Each (Left 64) p := by
  intro hleft
  have hreach : (system (bufferedStream 8192) 64 1 1).Reachable afterFirstPing :=
    ⟨firstPingRun, (Option.some_get _).symm⟩
  have htasks : (afterFirstPing.shard 0).tasks.tasks =
      [{ phase := .handling { loop := .reading, buffered := 64 }, packetsWritten := 1 }] := by
    decide +kernel
  have hping := hleft _ hreach 0 _ (htasks ▸ List.mem_cons_self)
  obtain ⟨-, hempty⟩ := hping.connection rfl rfl
  cases hempty

/-! ### How the loop ends -/

/-- A connection whose future has resolved has closed its stream once, and the stream has passed on
every byte that was counted. -/
def Closed (dataSize packets : Nat) (c : PingConnection) : Prop :=
  c.resolved = true → c.closes = 1 ∧ c.buffered = 0 ∧ c.passed = dataSize * packets

/-- The step is a continuation that leaves the loop without a close: a write completes on an
interrupted shard, or a read ends on an empty buffer. -/
def leavesOpen (p : Process n (ClientShard PingConnection)) :
    ProcessEvent n ClientEvent Unit → Bool
  | .continuation i (.handler _ (.write .written)) => (p.shard i).interrupted
  | .continuation _ (.handler _ (.read (.read size))) => size == 0
  | _ => false

/-- A write, a read or a close fails. -/
def fails : ProcessEvent n ClientEvent Unit → Bool
  | .continuation _ (.handler _ (.write .failed)) => true
  | .continuation _ (.handler _ (.read .failed)) => true
  | _ => false

/-- A connection that has only stopped by closing its stream. -/
structure Tidy (dataSize packets : Nat) (c : PingConnection) : Prop where
  sound : c.Sound dataSize packets
  unfailed : c.loop ≠ .failed
  stopped : c.loop = .stopped → c.closes = 1 ∧ c.buffered = 0

theorem Tidy.closed {packets : Nat} {c : PingConnection} (h : Tidy dataSize packets c) :
    Closed dataSize packets c := by
  intro hresolved
  have hstopped : c.loop = .stopped := by
    have hunfailed := h.unfailed
    unfold PingConnection.resolved at hresolved
    cases hloop : c.loop <;> simp_all [PingLoop.resolved]
  obtain ⟨hcloses, hempty⟩ := h.stopped hstopped
  refine ⟨hcloses, hempty, ?_⟩
  have hconserved := h.sound.conserved h.unfailed
  simpa [hempty, PingConnection.uncounted, hstopped] using hconserved

theorem tidy_start (stream : OutputStream) (dataSize : Nat) (interrupted : Bool) :
    Tidy dataSize 0 ((pingStreamHandler stream dataSize).start interrupted) := by
  refine ⟨PingConnection.sound_start stream dataSize interrupted, ?_, ?_⟩
  · cases interrupted <;> exact PingLoop.noConfusion
  · intro hstopped
    cases interrupted <;> cases hstopped

theorem Tidy.moves {packets j : Nat} {i : Fin n} {f : LoopEvent} {c c' : PingConnection}
    (h : Tidy dataSize packets c) (hexit : leavesOpen p (.continuation i (.handler j f)) = false)
    (hok : fails (n := n) (.continuation i (.handler j f)) = false)
    (hmoves : c.Moves stream dataSize (p.shard i).interrupted f c') :
    Tidy dataSize (packets + f.packetsWritten) c' := by
  have hsound := h.sound.moves hmoves
  cases hmoves with
  | closing | write => exact ⟨hsound, PingLoop.noConfusion, fun hstopped => (by cases hstopped)⟩
  | written hloop =>
      have hflag : (p.shard i).interrupted = false := hexit
      have hloop' : PingLoop.onWritten (p.shard i).interrupted = .reading := by
        rw [hflag]
        rfl
      refine ⟨hsound, ?_, ?_⟩
      · simp [hloop']
      · simp [hloop']
  | read size hloop =>
      have hsize : 0 < size := Nat.pos_of_ne_zero (by simpa [leavesOpen] using hexit)
      have hloop' : PingLoop.onRead size = .top := if_pos hsize
      refine ⟨hsound, ?_, ?_⟩
      · simp [hloop']
      · simp [hloop']
  | closed hloop =>
      refine ⟨hsound, PingLoop.noConfusion, fun _ => ⟨?_, rfl⟩⟩
      show c.closes + 1 = 1
      rw [h.sound.unclosed (by rw [hloop]; decide)]
  | failed e hfails => rcases hfails with rfl | rfl <;> cases hok

/-- Such a step takes a connection out of its loop and leaves its stream open. -/
theorem exists_open {e : ProcessEvent n ClientEvent Unit}
    (hsound : Each (PingConnection.Sound dataSize) p) (hexit : leavesOpen p e = true)
    (hstep : (system stream dataSize connections n).step p e = some q) :
    ¬Each (Closed dataSize) q := by
  obtain ⟨i, j, f, rfl, hleaves⟩ : ∃ i j f, e = .continuation i (.handler j f) ∧
      (f = .write .written ∧ (p.shard i).interrupted = true ∨ f = .read (.read 0)) := by
    unfold leavesOpen at hexit
    split at hexit
    · exact ⟨_, _, _, rfl, Or.inl ⟨rfl, hexit⟩⟩
    · rename_i size
      obtain rfl : size = 0 := by simpa using hexit
      exact ⟨_, _, _, rfl, Or.inr rfl⟩
    · cases hexit
  obtain ⟨task, c, c', hold, hphase, hmove, hnew⟩ := Client.handler_step_some hstep
  have hbefore := (hsound i task (List.mem_of_getElem? hold)).connection hphase
  have hopen : c'.loop = .stopped ∧ c'.closes = 0 := by
    have hmoves := PingConnection.moves_of_step hmove
    rcases hleaves with ⟨rfl, hflag⟩ | rfl
    · cases hmoves with
      | written hloop =>
          rw [hflag]
          exact ⟨rfl, hbefore.unclosed (by rw [hloop]; decide)⟩
      | failed _ hfails => rcases hfails with hfails | hfails <;> cases hfails
    · cases hmoves with
      | read _ hloop => exact ⟨rfl, hbefore.unclosed (by rw [hloop]; decide)⟩
      | failed _ hfails => rcases hfails with hfails | hfails <;> cases hfails
  intro hclosed
  have hafter := (hclosed i _ (List.mem_of_getElem? hnew)).connection rfl
  have hresolved : c'.resolved = true := by
    rw [PingConnection.resolved, hopen.1]
    rfl
  have hone := (hafter hresolved).1
  rw [hopen.2] at hone
  cases hone

/-- In a run without failures every connection closes its stream once and loses no counted byte,
exactly if no write completes on an interrupted shard and no read ends on an empty buffer. -/
theorem closed_iff {es : List (ProcessEvent n ClientEvent Unit)}
    (h : (system stream dataSize connections n).exec (start stream dataSize connections n) es =
      some q) (hok : ∀ e ∈ es, fails e = false) :
    (system stream dataSize connections n).Always (Each (Closed dataSize))
        (start stream dataSize connections n) es ↔
      (system stream dataSize connections n).EachStep (fun p e => leavesOpen p e = false)
        (start stream dataSize connections n) es := by
  constructor
  · intro hclosed pre e hpre p hp
    by_contra hexit
    obtain ⟨rest, rfl⟩ := hpre
    obtain ⟨r, hstep, hr⟩ := System.exec_step _ hp h
    exact exists_open (each_sound ⟨pre, hp⟩) (by simpa using hexit) hstep
      (hclosed _ (List.prefix_append _ rest) r hr)
  · intro hexits
    have hsteps : (system stream dataSize connections n).EachStep
        (fun p e => leavesOpen p e = false ∧ fails e = false) (start stream dataSize connections n) es :=
      fun pre e hpre p hp => ⟨hexits pre e hpre p hp, hok e (hpre.subset (by simp))⟩
    have htidy : (system stream dataSize connections n).Always (Each (Tidy dataSize))
        (start stream dataSize connections n) es := by
      apply hsteps.always
      · rintro p e q hp ⟨hexit, hok⟩ hstep
        apply hp.step (tidy_start stream dataSize) _ hstep
        rintro i j f packets c c' rfl hc hmoves
        exact hc.moves hexit hok hmoves
      · intro i task htask
        cases htask
    refine htidy.mono ?_
    intro p hp i task htask
    exact (hp i task htask).mono fun _ _ hc => hc.closed

/-- One round, and a close on the interrupt at the top of the next one. -/
def closedRun : List (ProcessEvent 1 ClientEvent Unit) :=
  firstPingRun ++ [.continuation shardZero (.handler 0 (.read (.read 64))), .signal,
    .exitStop shardZero, .continuation shardZero (.handler 0 (.write .top)),
    .continuation shardZero (.handler 0 (.write .closed))]

def afterClosed : Process 1 (ClientShard PingConnection) :=
  ((system (bufferedStream 8192) 64 1 1).exec (start (bufferedStream 8192) 64 1 1)
    closedRun).get (by decide +kernel)

theorem closed_iff_closed :
    (system (bufferedStream 8192) 64 1 1).Always (Each (Closed 64))
      (start (bufferedStream 8192) 64 1 1) closedRun := by
  have hexec : (system (bufferedStream 8192) 64 1 1).exec (start (bufferedStream 8192) 64 1 1)
      closedRun = some afterClosed := (Option.some_get _).symm
  exact (closed_iff hexec (by decide +kernel)).mpr (by decide +kernel)

/-- Of two connections one ends on the end of its stream, the other one on an interrupt that comes
while its write completes. -/
def openRun : List (ProcessEvent 1 ClientEvent Unit) :=
  [.reporterSet shardZero true, .advance, .callRun shardZero (),
    .continuation shardZero (.connected 0 true), .continuation shardZero (.connected 1 true),
    .continuation shardZero (.handler 0 (.write .written)),
    .continuation shardZero (.handler 0 (.read (.read 0))), .signal, .exitStop shardZero,
    .continuation shardZero (.handler 1 (.write .written))]

def afterOpen : Process 1 (ClientShard PingConnection) :=
  ((system (bufferedStream 8192) 64 2 1).exec (start (bufferedStream 8192) 64 2 1)
    openRun).get (by decide +kernel)

theorem two_exits_leave_stream_open :
    ¬∀ es q, (system (bufferedStream 8192) 64 2 1).exec (start (bufferedStream 8192) 64 2 1) es =
      some q → (∀ e ∈ es, fails e = false) → Each (Closed 64) q := by
  intro hclosed
  have hexec : (system (bufferedStream 8192) 64 2 1).exec (start (bufferedStream 8192) 64 2 1)
      openRun = some afterOpen := (Option.some_get _).symm
  have htasks : (afterOpen.shard 0).tasks.tasks =
      [{ phase := .handling { loop := .stopped, buffered := 64 }, packetsWritten := 1 },
        { phase := .handling { loop := .stopped, buffered := 64 }, packetsWritten := 1 }] := by
    decide +kernel
  have hping := hclosed openRun afterOpen hexec (by decide +kernel) 0 _ (htasks ▸ List.mem_cons_self)
  obtain ⟨hone, -, -⟩ := hping.connection rfl rfl
  cases hone

end PingStream

end SeastarExperiments
