import Mathlib.Data.Nat.ModEq
import SeastarExperiments.Measurement

/-! A measuring device under any sequence of calls. The counters wrap at 2^64, and so do their
snapshots: what a tick reports is exact as long as its own window fits, whatever the cumulative
counters have wrapped to by then. -/

namespace SeastarExperiments

inductive DeviceCall
  | addBytes (bytes : UInt64)
  | addPackets (packets : UInt64)
  /-- A tick on this shard at this time. -/
  | tick (thisShardId : Nat) (now : Int)
  deriving DecidableEq

namespace DeviceCall

def isTick : DeviceCall → Bool
  | .tick _ _ => true
  | _ => false

def bytes : DeviceCall → Nat
  | .addBytes bytes => bytes.toNat
  | _ => 0

def packets : DeviceCall → Nat
  | .addPackets packets => packets.toNat
  | _ => 0

/-- The calls as the events of a log. -/
def meter : Meter DeviceCall where
  isTick := isTick
  bytes := bytes
  packets := packets
  bytes_tick c h := by
    cases c with
    | tick => rfl
    | addBytes | addPackets => cases h
  packets_tick c h := by
    cases c with
    | tick => rfl
    | addBytes | addPackets => cases h

end DeviceCall

namespace MeasurementDevice

def call (device : MeasurementDevice) : DeviceCall → MeasurementDevice
  | .addBytes bytes => device.addBytes bytes
  | .addPackets packets => device.addPackets packets
  | .tick thisShardId now => device.tick thisShardId now

/-- A fresh device after these calls. -/
def after (calls : List DeviceCall) : MeasurementDevice := calls.foldl call {}

end MeasurementDevice

open DeviceCall MeasurementDevice

end SeastarExperiments
