import SeastarExperiments.UdpShard

/-! The `throughput_service` of `server` and of `client`, the first experiment: one device, no gate,
and one loop that receives or sends datagrams, whose future is that of `run_udp`. -/

namespace SeastarExperiments

open Transition

/-- The loop of one of the two programs, and what its continuations count. -/
structure DatagramLoop (Loop Event : Type) where
  body : Bool → Loop
  step : Bool → Loop → Event → Option Loop
  future : Loop → Outcome
  count : MeasurementDevice → Event → MeasurementDevice
  step_settled : ∀ interrupted loop e, future loop ≠ .pending → step interrupted loop e = none

inductive DatagramRun (Loop : Type)
  /-- `run_udp` has not been called. -/
  | idle
  /-- The call of `make_bound_datagram_channel` or `make_unbound_datagram_channel` threw. -/
  | threw
  | looping (port : UInt16) (loop : Loop)
  deriving DecidableEq

structure DatagramShard (Loop : Type) where
  thisShardId : Nat
  interrupted : Bool := false
  timerArmed : Bool := false
  measurements : MeasurementDevice := {}
  run : DatagramRun Loop := .idle
  deriving DecidableEq

inductive DatagramEvent (Event : Type)
  /-- A continuation of the loop runs. -/
  | loop (e : Event)
  /-- The reporter's timer fires. -/
  | tick (now : Int)
  deriving DecidableEq

namespace DatagramShard

/-- The port that `server` binds and `client` sends to. -/
def port (thisShardId : Nat) : UInt16 := (1200 + UInt32.ofNat thisShardId).toUInt16

variable {Loop Event : Type} (program : DatagramLoop Loop Event)

/-- `run_udp`, where the channel can be made or not. -/
def runUdp (s : DatagramShard Loop) (opens : Bool) : DatagramShard Loop :=
  { s with
    run := if opens then .looping (port s.thisShardId) (program.body s.interrupted) else .threw }

def stop (s : DatagramShard Loop) : DatagramShard Loop := { s with interrupted := true }

def step (s : DatagramShard Loop) : DatagramEvent Event → Option (DatagramShard Loop)
  | .loop e =>
      match s.run with
      | .looping port loop => do
          let loop ← program.step s.interrupted loop e
          some { s with
            run := .looping port loop
            measurements := program.count s.measurements e }
      | .idle => none
      | .threw => none
  | .tick now =>
      if s.timerArmed then some { s with measurements := s.measurements.tick s.thisShardId now }
      else none

def runFuture (s : DatagramShard Loop) : Outcome :=
  match s.run with
  | .idle => .pending
  | .threw => .failed
  | .looping _ loop => program.future loop

end DatagramShard

/-- There is one history only, that of `get_measurements`. -/
def datagramService {Loop Event : Type} (program : DatagramLoop Loop Event) :
    Service (DatagramShard Loop) (DatagramEvent Event) Bool where
  start i := { thisShardId := i }
  armTimer s := { s with timerArmed := true }
  run := DatagramShard.runUdp program
  stop := DatagramShard.stop
  step := DatagramShard.step program
  runFuture := DatagramShard.runFuture program
  stopFuture _ := .resolved
  histories s := (s.measurements.getHistory, [])

namespace ReceiveLoop

def future : ReceiveLoop → Outcome
  | top => .pending
  | receiving => .pending
  | stopped => .resolved
  | failed => .failed

end ReceiveLoop

namespace SendLoop

def future : SendLoop → Outcome
  | top => .pending
  | sending => .pending
  | stopped => .resolved
  | failed => .failed

end SendLoop

/-- The loop of `server`. -/
def serverLoop : DatagramLoop ReceiveLoop ReceiveEvent where
  body := ReceiveLoop.body
  step := ReceiveLoop.step
  future := ReceiveLoop.future
  count device
    | .received len => (device.addPackets 1).addBytes (UInt64.ofNat len)
    | .top => device
    | .failed => device
  step_settled interrupted loop e h := by
    cases loop with
    | top | receiving => exact absurd rfl h
    | stopped | failed => cases e <;> rfl

def packetSize : UInt16 := 16

/-- The loop of `client`. -/
def clientLoop : DatagramLoop SendLoop SendEvent where
  body := SendLoop.body
  step := SendLoop.step
  future := SendLoop.future
  count device
    | .sent => (device.addBytes packetSize.toUInt64).addPackets 1
    | .top => device
    | .failed => device
  step_settled interrupted loop e h := by
    cases loop with
    | top | sending => exact absurd rfl h
    | stopped | failed => cases e <;> rfl

end SeastarExperiments
