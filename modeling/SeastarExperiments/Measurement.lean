import Mathlib.Data.Rat.Defs
import Mathlib.Data.UInt
import SeastarExperiments.BaseWindows

/-! The measuring device of `common.hpp`: two cumulative 64-bit counters, their values at the last
tick, and one history entry for each tick. Against a log of events that add to the device or tick
it, the history is the log cut at its ticks (`Meter.Measures`). -/

namespace SeastarExperiments

/-- One row of the report. `gbits` is the exact quotient; the source has a `double` in its place, and
rounds after each of the three divisions. -/
structure Measurement where
  shardId : Nat
  time : Int
  gbits : ℚ
  pps : UInt64
  deriving DecidableEq

structure MeasurementDevice where
  bytesReceived : UInt64 := 0
  packetsReceived : UInt64 := 0
  lastBytesReceived : UInt64 := 0
  lastPacketsReceived : UInt64 := 0
  measurements : List Measurement := []
  deriving DecidableEq

namespace MeasurementDevice

def addBytes (device : MeasurementDevice) (bytes : UInt64) : MeasurementDevice :=
  { device with bytesReceived := device.bytesReceived + bytes }

def addPackets (device : MeasurementDevice) (packets : UInt64) : MeasurementDevice :=
  { device with packetsReceived := device.packetsReceived + packets }

def getHistory (device : MeasurementDevice) : List Measurement := device.measurements

/-- The local `bytes_in_last_second` of a tick taken now. -/
def bytesInLastSecond (device : MeasurementDevice) : UInt64 :=
  device.bytesReceived - device.lastBytesReceived

/-- The local `pps` of a tick taken now. -/
def packetsInLastSecond (device : MeasurementDevice) : UInt64 :=
  device.packetsReceived - device.lastPacketsReceived

/-- `bytes_in_last_second * 8` is still a `size_t`; the divisions are not. -/
def throughputInGbps (bytes : UInt64) : ℚ := ((bytes * 8).toNat : ℚ) / 1000 / 1000 / 1000

/-- `tick`, with the shard and the time it reads from its surroundings as arguments. -/
def tick (device : MeasurementDevice) (thisShardId : Nat) (now : Int) : MeasurementDevice :=
  { device with
    lastBytesReceived := device.bytesReceived
    lastPacketsReceived := device.packetsReceived
    measurements := device.measurements ++
      [{ shardId := thisShardId
         time := now
         gbits := throughputInGbps device.bytesInLastSecond
         pps := device.packetsInLastSecond }] }

end MeasurementDevice

/-- How the events of some log act on a device: which of them tick it, and the bytes and packets
the others add. A tick adds nothing. -/
structure Meter (Event : Type*) where
  isTick : Event → Bool
  bytes : Event → Nat
  packets : Event → Nat
  bytes_tick : ∀ e, isTick e = true → bytes e = 0
  packets_tick : ∀ e, isTick e = true → packets e = 0

namespace Meter

variable {Event : Type*} (meter : Meter Event)

def totalBytes (es : List Event) : Nat := (es.map meter.bytes).sum

def totalPackets (es : List Event) : Nat := (es.map meter.packets).sum

def windows (es : List Event) : List (List Event) := Windows.closed meter.isTick es

def sinceTick (es : List Event) : List Event := Windows.current meter.isTick es

@[simp]
theorem totalBytes_nil : meter.totalBytes [] = 0 := rfl

@[simp]
theorem totalPackets_nil : meter.totalPackets [] = 0 := rfl

theorem totalBytes_append (es fs : List Event) :
    meter.totalBytes (es ++ fs) = meter.totalBytes es + meter.totalBytes fs := by
  simp [totalBytes]

theorem totalPackets_append (es fs : List Event) :
    meter.totalPackets (es ++ fs) = meter.totalPackets es + meter.totalPackets fs := by
  simp [totalPackets]

theorem totalBytes_concat (es : List Event) (e : Event) :
    meter.totalBytes (es ++ [e]) = meter.totalBytes es + meter.bytes e := by
  simp [totalBytes]

theorem totalPackets_concat (es : List Event) (e : Event) :
    meter.totalPackets (es ++ [e]) = meter.totalPackets es + meter.packets e := by
  simp [totalPackets]

theorem windows_tick {e : Event} (he : meter.isTick e = true) (es : List Event) :
    meter.windows (es ++ [e]) = meter.windows es ++ [meter.sinceTick es] :=
  Windows.closed_concat_tick _ he es

theorem sinceTick_tick {e : Event} (he : meter.isTick e = true) (es : List Event) :
    meter.sinceTick (es ++ [e]) = [] :=
  Windows.current_concat_tick _ he es

theorem windows_other {e : Event} (he : meter.isTick e = false) (es : List Event) :
    meter.windows (es ++ [e]) = meter.windows es :=
  Windows.closed_concat_other _ he es

theorem sinceTick_other {e : Event} (he : meter.isTick e = false) (es : List Event) :
    meter.sinceTick (es ++ [e]) = meter.sinceTick es ++ [e] :=
  Windows.current_concat_other _ he es

/-- Everything added is in a closed window or was added since the last tick. -/
theorem totalBytes_split (es : List Event) :
    meter.totalBytes es =
      meter.totalBytes (meter.windows es).flatten + meter.totalBytes (meter.sinceTick es) := by
  induction es using List.reverseRecOn with
  | nil => rfl
  | append_singleton es e ih =>
      rw [totalBytes_concat, ih]
      cases he : meter.isTick e with
      | true =>
          rw [windows_tick _ he, sinceTick_tick _ he, meter.bytes_tick e he, List.flatten_append,
            totalBytes_append]
          simp
      | false =>
          rw [windows_other _ he, sinceTick_other _ he, totalBytes_concat, Nat.add_assoc]

theorem totalPackets_split (es : List Event) :
    meter.totalPackets es =
      meter.totalPackets (meter.windows es).flatten + meter.totalPackets (meter.sinceTick es) := by
  exact totalBytes_split ⟨meter.isTick, meter.packets, meter.packets, meter.packets_tick,
    meter.packets_tick⟩ es

/-- The ticks of a log add nothing. -/
theorem totalPackets_filter (es : List Event) :
    meter.totalPackets (es.filter fun e => !meter.isTick e) = meter.totalPackets es := by
  induction es with
  | nil => rfl
  | cons e es ih =>
      have hcons (fs : List Event) :
          meter.totalPackets (e :: fs) = meter.packets e + meter.totalPackets fs := by
        simp [totalPackets]
      cases he : meter.isTick e with
      | true =>
          rw [List.filter_cons_of_neg (by simp [he]), ih, hcons, meter.packets_tick e he,
            Nat.zero_add]
      | false => rw [List.filter_cons_of_pos (by simp [he]), hcons, hcons, ih]

theorem totalPackets_flatten (ws : List (List Event)) :
    meter.totalPackets ws.flatten = (ws.map meter.totalPackets).sum := by
  induction ws with
  | nil => rfl
  | cons w ws ih => rw [List.flatten_cons, totalPackets_append, ih, List.map_cons, List.sum_cons]

/-- The device has seen exactly this log: its counters are the log's totals, its snapshots the
totals of the closed windows, and its history has one entry for each window. -/
structure Measures (device : MeasurementDevice) (es : List Event) : Prop where
  bytes : device.bytesReceived = UInt64.ofNat (meter.totalBytes es)
  packets : device.packetsReceived = UInt64.ofNat (meter.totalPackets es)
  lastBytes : device.lastBytesReceived = UInt64.ofNat (meter.totalBytes (meter.windows es).flatten)
  lastPackets :
    device.lastPacketsReceived = UInt64.ofNat (meter.totalPackets (meter.windows es).flatten)
  history : device.measurements.map (fun m => (m.gbits, m.pps)) =
    (meter.windows es).map fun w =>
      (MeasurementDevice.throughputInGbps (UInt64.ofNat (meter.totalBytes w)),
        UInt64.ofNat (meter.totalPackets w))

variable {meter}

theorem measures_nil : meter.Measures {} [] where
  bytes := rfl
  packets := rfl
  lastBytes := rfl
  lastPackets := rfl
  history := rfl

namespace Measures

variable {device : MeasurementDevice} {es : List Event} {e : Event}

/-- What a tick taken now reports as bytes: the bytes added since the last one. -/
theorem bytesInLastSecond (h : meter.Measures device es) :
    device.bytesInLastSecond = UInt64.ofNat (meter.totalBytes (meter.sinceTick es)) := by
  rw [MeasurementDevice.bytesInLastSecond, h.bytes, h.lastBytes, totalBytes_split,
    UInt64.ofNat_add]
  exact add_sub_cancel_left _ _

theorem packetsInLastSecond (h : meter.Measures device es) :
    device.packetsInLastSecond = UInt64.ofNat (meter.totalPackets (meter.sinceTick es)) := by
  rw [MeasurementDevice.packetsInLastSecond, h.packets, h.lastPackets, totalPackets_split,
    UInt64.ofNat_add]
  exact add_sub_cancel_left _ _

theorem add (h : meter.Measures device es) (he : meter.isTick e = false) :
    meter.Measures ((device.addBytes (UInt64.ofNat (meter.bytes e))).addPackets
      (UInt64.ofNat (meter.packets e))) (es ++ [e]) where
  bytes := by
    rw [totalBytes_concat, UInt64.ofNat_add, ← h.bytes]
    rfl
  packets := by
    rw [totalPackets_concat, UInt64.ofNat_add, ← h.packets]
    rfl
  lastBytes := by
    rw [windows_other _ he]
    exact h.lastBytes
  lastPackets := by
    rw [windows_other _ he]
    exact h.lastPackets
  history := by
    rw [windows_other _ he]
    exact h.history

/-- An event that neither ticks the device nor adds to it. -/
theorem skip (h : meter.Measures device es) (he : meter.isTick e = false)
    (hbytes : meter.bytes e = 0) (hpackets : meter.packets e = 0) :
    meter.Measures device (es ++ [e]) := by
  have hadd := h.add he
  rw [hbytes, hpackets] at hadd
  simpa [MeasurementDevice.addBytes, MeasurementDevice.addPackets] using hadd

theorem tick (h : meter.Measures device es) (he : meter.isTick e = true) (thisShardId : Nat)
    (now : Int) : meter.Measures (device.tick thisShardId now) (es ++ [e]) := by
  have hwindows := windows_tick meter he es
  have hbytes : meter.totalBytes (meter.windows (es ++ [e])).flatten = meter.totalBytes es := by
    rw [hwindows, List.flatten_append, totalBytes_append, totalBytes_split meter es]
    simp
  have hpackets : meter.totalPackets (meter.windows (es ++ [e])).flatten =
      meter.totalPackets es := by
    rw [hwindows, List.flatten_append, totalPackets_append, totalPackets_split meter es]
    simp
  refine ⟨?_, ?_, ?_, ?_, ?_⟩
  · rw [totalBytes_concat, meter.bytes_tick e he]
    exact h.bytes
  · rw [totalPackets_concat, meter.packets_tick e he]
    exact h.packets
  · rw [hbytes]
    exact h.bytes
  · rw [hpackets]
    exact h.packets
  · rw [hwindows, List.map_append, ← h.history]
    simp [MeasurementDevice.tick, h.bytesInLastSecond, h.packetsInLastSecond]

/-- The reported packets and those since the last tick are all packets, in the counters' type. -/
theorem sum_pps (h : meter.Measures device es) :
    (device.getHistory.map Measurement.pps).sum + device.packetsInLastSecond =
      UInt64.ofNat (meter.totalPackets es) := by
  have hpps : device.getHistory.map Measurement.pps =
      (meter.windows es).map fun w => UInt64.ofNat (meter.totalPackets w) := by
    have hsecond := congrArg (List.map Prod.snd) h.history
    simpa [List.map_map, Function.comp_def, MeasurementDevice.getHistory] using hsecond
  have hsum (ws : List (List Event)) :
      (ws.map fun w => UInt64.ofNat (meter.totalPackets w)).sum =
        UInt64.ofNat (meter.totalPackets ws.flatten) := by
    induction ws with
    | nil => rfl
    | cons w ws ih =>
        rw [List.map_cons, List.sum_cons, ih, List.flatten_cons, totalPackets_append,
          UInt64.ofNat_add]
  rw [hpps, hsum, h.packetsInLastSecond, ← UInt64.ofNat_add, ← totalPackets_split]

end Measures

/-! ### Exact values, as long as the totals fit the counters -/

variable (meter) in
theorem totalBytes_window_le {es w : List Event} (h : w ∈ meter.windows es) :
    meter.totalBytes w ≤ meter.totalBytes es := by
  have hflat : meter.totalBytes w ≤ meter.totalBytes (meter.windows es).flatten := by
    obtain ⟨ws, vs, hsplit⟩ := List.append_of_mem h
    rw [hsplit, List.flatten_append, List.flatten_cons, totalBytes_append, totalBytes_append]
    omega
  rw [totalBytes_split meter es]
  omega

variable (meter) in
theorem totalPackets_window_le {es w : List Event} (h : w ∈ meter.windows es) :
    meter.totalPackets w ≤ meter.totalPackets es :=
  totalBytes_window_le ⟨meter.isTick, meter.packets, meter.packets, meter.packets_tick,
    meter.packets_tick⟩ h

variable (meter) in
theorem totalBytes_sinceTick_le (es : List Event) :
    meter.totalBytes (meter.sinceTick es) ≤ meter.totalBytes es := by
  rw [totalBytes_split meter es]
  exact Nat.le_add_left _ _

variable (meter) in
theorem totalPackets_sinceTick_le (es : List Event) :
    meter.totalPackets (meter.sinceTick es) ≤ meter.totalPackets es := by
  rw [totalPackets_split meter es]
  exact Nat.le_add_left _ _

namespace Measures

variable {device : MeasurementDevice} {es : List Event}

theorem bytesReceived_toNat (h : meter.Measures device es)
    (hbytes : meter.totalBytes es < 2 ^ 64) :
    device.bytesReceived.toNat = meter.totalBytes es := by
  rw [h.bytes]
  exact UInt64.toNat_ofNat_of_lt' hbytes

theorem packetsReceived_toNat (h : meter.Measures device es)
    (hpackets : meter.totalPackets es < 2 ^ 64) :
    device.packetsReceived.toNat = meter.totalPackets es := by
  rw [h.packets]
  exact UInt64.toNat_ofNat_of_lt' hpackets

theorem bytesInLastSecond_toNat (h : meter.Measures device es)
    (hbytes : meter.totalBytes (meter.sinceTick es) < 2 ^ 64) :
    device.bytesInLastSecond.toNat = meter.totalBytes (meter.sinceTick es) := by
  rw [h.bytesInLastSecond]
  exact UInt64.toNat_ofNat_of_lt' hbytes

theorem packetsInLastSecond_toNat (h : meter.Measures device es)
    (hpackets : meter.totalPackets (meter.sinceTick es) < 2 ^ 64) :
    device.packetsInLastSecond.toNat = meter.totalPackets (meter.sinceTick es) := by
  rw [h.packetsInLastSecond]
  exact UInt64.toNat_ofNat_of_lt' hpackets

/-- Each entry of the history reports the packets of its window, when these fit. -/
theorem history_exact (h : meter.Measures device es)
    (hpackets : ∀ w ∈ meter.windows es, meter.totalPackets w < 2 ^ 64) :
    device.getHistory.map (fun m => (m.gbits, m.pps.toNat)) =
      (meter.windows es).map fun w =>
        (MeasurementDevice.throughputInGbps (UInt64.ofNat (meter.totalBytes w)),
          meter.totalPackets w) := by
  have hnat := congrArg (List.map (Prod.map id UInt64.toNat)) h.history
  rw [List.map_map, List.map_map] at hnat
  apply hnat.trans (List.map_congr_left fun w hw => ?_)
  exact congrArg (Prod.mk _) (UInt64.toNat_ofNat_of_lt' (hpackets w hw))

theorem map_pps_toNat (h : meter.Measures device es)
    (hpackets : ∀ w ∈ meter.windows es, meter.totalPackets w < 2 ^ 64) :
    device.getHistory.map (fun m => m.pps.toNat) = (meter.windows es).map meter.totalPackets := by
  have hcolumn := congrArg (List.map Prod.snd) (h.history_exact hpackets)
  rwa [List.map_map, List.map_map] at hcolumn

/-- What the first ticks have reported, when each window fits. -/
theorem sum_take_pps (h : meter.Measures device es)
    (hpackets : ∀ w ∈ meter.windows es, meter.totalPackets w < 2 ^ 64) (k : Nat) :
    ((device.getHistory.take k).map fun m => m.pps.toNat).sum =
      meter.totalPackets ((meter.windows es).take k).flatten := by
  rw [totalPackets_flatten, List.map_take, List.map_take, h.map_pps_toNat hpackets]

/-- The reported packets and those since the last tick are all packets, when each window fits. -/
theorem sum_pps_toNat (h : meter.Measures device es)
    (hwindows : ∀ w ∈ meter.windows es, meter.totalPackets w < 2 ^ 64)
    (hsince : meter.totalPackets (meter.sinceTick es) < 2 ^ 64) :
    (device.getHistory.map fun m => m.pps.toNat).sum + device.packetsInLastSecond.toNat =
      meter.totalPackets es := by
  calc
    _ = ((meter.windows es).map meter.totalPackets).sum + device.packetsInLastSecond.toNat := by
      rw [h.map_pps_toNat hwindows]
    _ = meter.totalPackets (meter.windows es).flatten +
        meter.totalPackets (meter.sinceTick es) := by
      rw [totalPackets_flatten, h.packetsInLastSecond_toNat hsince]
    _ = meter.totalPackets es := (totalPackets_split meter es).symm

end Measures

/-- What a device has reported and what it has counted since its last tick are these packets: in
the counters' type always, and exactly when the packets of each window fit. -/
structure Reported (meter : Meter Event) (es : List Event) (device : MeasurementDevice)
    (packets : Nat) : Prop where
  modular : (device.getHistory.map Measurement.pps).sum + device.packetsInLastSecond =
    UInt64.ofNat packets
  exact : (∀ w ∈ meter.windows es, meter.totalPackets w < 2 ^ 64) →
    meter.totalPackets (meter.sinceTick es) < 2 ^ 64 →
    (device.getHistory.map fun m => m.pps.toNat).sum + device.packetsInLastSecond.toNat = packets

theorem Measures.reported {device : MeasurementDevice} {es : List Event} {packets : Nat}
    (h : meter.Measures device es) (htotal : meter.totalPackets es = packets) :
    Reported meter es device packets := by
  subst htotal
  exact ⟨h.sum_pps, h.sum_pps_toNat⟩

end Meter

end SeastarExperiments
