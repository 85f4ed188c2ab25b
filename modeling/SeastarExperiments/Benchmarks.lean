import Mathlib.Algebra.BigOperators.Fin
import SeastarExperiments.ClientProcess
import SeastarExperiments.DatagramProcess
import SeastarExperiments.Report
import SeastarExperiments.ServerShutdown
import SeastarExperiments.ServiceTeardown
import SeastarExperiments.UdpProcess

/-! The reports of all seven programs. Each `write_throughput_report` reads two histories of every
shard, or the one of `get_measurements`, and dumps one file for each of its devices. The plot of
such a file adds up to the packets that the shards have counted until the reading, less those since
their last ticks. -/

namespace SeastarExperiments

open Transition
open Csv (Text)

/-- One call of `dump_measurements` in a program's report: the file, the device whose histories go
there, and what that device counts. -/
structure ReportFile {Shard Event Input : Type} (svc : Service Shard Event Input) where
  fname : Text
  device : Shard → MeasurementDevice
  meter : Meter (ServiceEvent Event Input)
  pick : List Measurement × List Measurement → List Measurement
  metered : Metered svc device meter
  picks : ∀ s, pick (svc.histories s) = (device s).getHistory

namespace ReportFile

variable {Shard Event Input : Type} {svc : Service Shard Event Input} {n : Nat}
  {p : Process n Shard} {es : List (ProcessEvent n Event Input)}

/-- `shard_measurements`: the histories that have been read, in the order of the shards. -/
def shardMeasurements (r : ReportFile svc) (p : Process n Shard) : List (List Measurement) :=
  List.ofFn fun i => (p.snapshots i).elim [] r.pick

/-- What this shard has counted by the end of the run. -/
def counted (r : ReportFile svc) (i : Fin n) (es : List (ProcessEvent n Event Input)) : Nat :=
  r.meter.totalPackets (Process.log i es)

/-- What it had counted up to its last tick before its history was read. -/
def reported (r : ReportFile svc) (i : Fin n) (es : List (ProcessEvent n Event Input)) : Nat :=
  r.meter.totalPackets (r.meter.windows (Process.log i (Process.untilRead i es))).flatten

/-- What it had counted since then when its history was read. -/
def unreported (r : ReportFile svc) (i : Fin n) (es : List (ProcessEvent n Event Input)) : Nat :=
  r.meter.totalPackets (r.meter.sinceTick (Process.log i (Process.untilRead i es)))

theorem sum_pps (r : ReportFile svc)
    (h : (Process.system svc n).exec (Process.start svc n) es = some p)
    (hstage : p.stage = .stop ∨ p.stage = .done) {i : Fin n} (hfits : r.counted i es < 2 ^ 64) :
    (((p.snapshots i).elim [] r.pick).map fun m => m.pps.toNat).sum = r.reported i es := by
  obtain ⟨histories, hread⟩ :=
    Option.isSome_iff_exists.mp (Process.snapshots_isSome ⟨es, h⟩ hstage i)
  rw [hread]
  exact Process.reported_packets r.metered r.pick r.picks h hread hfits

theorem sum_shardMeasurements (r : ReportFile svc)
    (h : (Process.system svc n).exec (Process.start svc n) es = some p)
    (hstage : p.stage = .stop ∨ p.stage = .done) (hfits : ∀ i, r.counted i es < 2 ^ 64) :
    ((r.shardMeasurements p).flatten.map fun m => m.pps.toNat).sum = ∑ i, r.reported i es := by
  rw [List.map_flatten, List.sum_flatten, List.map_map, shardMeasurements, List.map_ofFn,
    List.sum_ofFn]
  exact Finset.sum_congr rfl fun i _ => r.sum_pps h hstage (hfits i)

/-- Some shard has ticked before its history was read. -/
def Ticked (r : ReportFile svc) (p : Process n Shard) : Prop := (r.shardMeasurements p).flatten ≠ []

/-- The packets of the seconds that this result has a row for. -/
def plottedPackets (r : ReportFile svc) (platform : Platform) (p : Process n Shard)
    (result : List (Report.Total platform.Double)) : Nat :=
  (result.map fun t => Report.packetsIn (Report.plottedSecond platform)
    (r.shardMeasurements p).flatten t.time).sum

/-- The plot of a report adds up to what the shards had counted up to their last ticks. -/
theorem totals (r : ReportFile svc) (platform : Platform) (file : Option Text)
    (h : (Process.system svc n).exec (Process.start svc n) es = some p)
    (hstage : p.stage = .stop ∨ p.stage = .done) (hticked : r.Ticked p) :
    ∃ result,
      Report.loadAndAggregate platform
          (Report.dumpMeasurements platform true file (r.shardMeasurements p)) = some result ∧
      result ≠ [] ∧
      Report.Totals platform (Report.plottedSecond platform) (r.shardMeasurements p).flatten
        result ∧
      ((∀ i, r.counted i es < 2 ^ 64) → r.plottedPackets platform p result = ∑ i, r.reported i es)
    := by
  have htotals : Report.Totals platform (Report.plottedSecond platform)
      (r.shardMeasurements p).flatten _ := Report.totals_aggregate fun _ _ => rfl
  refine ⟨_, Report.loadAndAggregate_dumpMeasurements file hticked, ?_, htotals, fun hfits => ?_⟩
  · obtain ⟨m, hm⟩ := List.exists_mem_of_ne_nil _ hticked
    obtain ⟨t, ⟨ht, -⟩, -⟩ := htotals.once m hm
    exact List.ne_nil_of_mem ht
  · rw [plottedPackets, htotals.conserved]
    exact r.sum_shardMeasurements h hstage hfits

/-- Before the first tick there is nothing to plot. -/
theorem no_totals (r : ReportFile svc) (platform : Platform) (file : Option Text)
    (hticked : ¬ r.Ticked p) :
    Report.loadAndAggregate platform
      (Report.dumpMeasurements platform true file (r.shardMeasurements p)) = none :=
  Report.loadAndAggregate_header file (not_not.mp hticked)

end ReportFile

/-! ### The devices of the three services with two of them -/

namespace ServerShard

/-- The handlers' continuations count these bytes and packets. -/
def counting (bytes packets : LoopEvent → Nat) : Counting ServerEvent where
  isTick
    | .tick _ => true
    | _ => false
  bytes
    | .handler _ e => bytes e
    | _ => 0
  packets
    | .handler _ e => packets e
    | _ => 0
  bytes_tick
    | .tick _, _ => rfl
  packets_tick
    | .tick _, _ => rfl

theorem metered {dataSize : Nat} {device : Devices → MeasurementDevice}
    {bytes packets : LoopEvent → Nat} (hfresh : device {} = {})
    {time : TickTimes → Int} (htick : ∀ d thisShardId now,
      device (Devices.tick d thisShardId now) = (device d).tick thisShardId (time now))
    (hcount : ∀ d e, device (Devices.count dataSize d e) =
      ((device d).addBytes (UInt64.ofNat (bytes e))).addPackets (UInt64.ofNat (packets e))) :
    Metered (serverService dataSize) (fun s => device s.devices) (counting bytes packets).meter := by
  apply metered_of_counting (fun _ => hfresh) (fun _ => rfl) ?_ (fun _ => rfl)
  · intro s e t hstep he
    cases moves_of_step hstep with
    | stopAccept | failAccept | handOver | handler => cases he
    | tick now => exact ⟨s.thisShardId, time now, htick _ _ _⟩
  · intro s e t hstep he
    cases moves_of_step hstep with
    | stopAccept | failAccept | handOver => exact (device s.devices).add_nothing.symm
    | handler j e => exact hcount _ _
    | tick => cases he
  · intro s listens
    change device (s.runTcp listens).devices = _
    unfold runTcp
    cases s.handlers.gate.enter with
    | none => rfl
    | some gate => cases listens <;> rfl

end ServerShard

namespace ClientShard

variable {State : Type} {program : HandlerProgram State} {dataSize : Nat} {connections : UInt16}

theorem metered {device : Devices → MeasurementDevice} {bytes packets : LoopEvent → Nat}
    (hfresh : device {} = {})
    {time : TickTimes → Int} (htick : ∀ d thisShardId now,
      device (Devices.tick d thisShardId now) = (device d).tick thisShardId (time now))
    (hcount : ∀ d e, device (Devices.count dataSize d e) =
      ((device d).addBytes (UInt64.ofNat (bytes e))).addPackets (UInt64.ofNat (packets e))) :
    Metered (clientService program dataSize connections) (fun s => device s.devices)
      (clientMeter bytes packets) := by
  refine ⟨fun _ => hfresh, fun s e t hcall he => ?_, fun s e t hcall he => ?_⟩
  · cases e with
    | armTimer | run | stop => cases he
    | continuation e =>
        have hmoves : s.Moves program dataSize e t := moves_of_step hcall
        cases hmoves with
        | connected | connectFailed | handler => cases he
        | tick now => exact ⟨s.thisShardId, time now, htick _ _ _⟩
  · cases e with
    | armTimer | run | stop =>
        rw [← Option.some.inj hcall]
        exact (device s.devices).add_nothing.symm
    | continuation e =>
        have hmoves : s.Moves program dataSize e t := moves_of_step hcall
        cases hmoves with
        | connected | connectFailed => exact (device s.devices).add_nothing.symm
        | handler j e => exact hcount _ _
        | tick => cases he

end ClientShard

namespace UdpShard

/-- The flows' continuations count these bytes and packets. -/
def counting (bytes packets : FlowEvent → Nat) : Counting UdpEvent where
  isTick
    | .tick _ => true
    | .flow _ _ => false
  bytes
    | .flow _ e => bytes e
    | .tick _ => 0
  packets
    | .flow _ e => packets e
    | .tick _ => 0
  bytes_tick
    | .tick _, _ => rfl
  packets_tick
    | .tick _, _ => rfl

theorem metered {cfg : UdpConfig} {device : Devices → MeasurementDevice}
    {bytes packets : FlowEvent → Nat} (hfresh : device {} = {})
    {time : TickTimes → Int} (htick : ∀ d thisShardId now,
      device (Devices.tick d thisShardId now) = (device d).tick thisShardId (time now))
    (hcount : ∀ d e, device (count cfg.dataSize d e) =
      ((device d).addBytes (UInt64.ofNat (bytes e))).addPackets (UInt64.ofNat (packets e))) :
    Metered (udpService cfg) (fun s => device s.devices) (counting bytes packets).meter := by
  apply metered_of_counting (fun _ => hfresh) (fun _ => rfl) (fun _ _ => rfl) (fun _ => rfl)
  · intro s e t hstep he
    cases moves_of_step hstep with
    | detached | flow => cases he
    | tick now => exact ⟨s.thisShardId, time now, htick _ _ _⟩
  · intro s e t hstep he
    cases moves_of_step hstep with
    | detached j e | flow j e => exact hcount _ _
    | tick => cases he

end UdpShard

namespace FlowEvent

def bytesWritten (dataSize : Nat) : FlowEvent → Nat
  | send .sent => dataSize
  | _ => 0

def packetsWritten : FlowEvent → Nat
  | send .sent => 1
  | _ => 0

def bytesRead : FlowEvent → Nat
  | receive (.received len) => len
  | _ => 0

def packetsRead : FlowEvent → Nat
  | receive (.received _) => 1
  | _ => 0

theorem count_writeMeasurements (dataSize : Nat) (d : Devices) (e : FlowEvent) :
    (UdpShard.count dataSize d e).writeMeasurements =
      (d.writeMeasurements.addBytes (UInt64.ofNat (e.bytesWritten dataSize))).addPackets
        (UInt64.ofNat e.packetsWritten) := by
  rcases e with (_ | _ | _) | (_ | _ | _)
  · exact d.writeMeasurements.add_nothing.symm
  · rfl
  · exact d.writeMeasurements.add_nothing.symm
  · exact d.writeMeasurements.add_nothing.symm
  · exact d.writeMeasurements.add_nothing.symm
  · exact d.writeMeasurements.add_nothing.symm

theorem count_readMeasurements (dataSize : Nat) (d : Devices) (e : FlowEvent) :
    (UdpShard.count dataSize d e).readMeasurements =
      (d.readMeasurements.addBytes (UInt64.ofNat e.bytesRead)).addPackets
        (UInt64.ofNat e.packetsRead) := by
  rcases e with (_ | _ | _) | (_ | _ | _)
  · exact d.readMeasurements.add_nothing.symm
  · exact d.readMeasurements.add_nothing.symm
  · exact d.readMeasurements.add_nothing.symm
  · exact d.readMeasurements.add_nothing.symm
  · rfl
  · exact d.readMeasurements.add_nothing.symm

end FlowEvent

/-! ### The programs -/

/-- The seven programs: the two TCP clients beside the others. -/
inductive Benchmark
  | program (p : Program)
  | tcpClient (dataSize : Nat) (connections : UInt16)
  | tcpClientPingpong (dataSize : Nat) (connections : UInt16)

section

variable {Loop Event : Type} (program : DatagramLoop Loop Event) (fname : Text)
  {bytes packets : Event → Nat}
  (hcount : ∀ device e, program.count device e =
    (device.addBytes (UInt64.ofNat (bytes e))).addPackets (UInt64.ofNat (packets e)))

def datagramReport : ReportFile (datagramService program) where
  fname
  device := DatagramShard.measurements
  meter := (DatagramShard.counting bytes packets).meter
  pick := Prod.fst
  metered := DatagramShard.metered hcount
  picks _ := rfl

/-- `server` and `client` have one device each. -/
def datagramReports : List (ReportFile (datagramService program)) :=
  [datagramReport program fname hcount]

end

def serverReadReport (dataSize : Nat) : ReportFile (serverService dataSize) where
  fname := "server_report_read.csv".toList
  device s := s.devices.readMeasurements
  meter := (ServerShard.counting LoopEvent.bytesRead LoopEvent.packetsRead).meter
  pick := Prod.fst
  metered := ServerShard.metered rfl (fun _ _ _ => rfl) (Devices.count_readMeasurements dataSize)
  picks _ := rfl

def serverWriteReport (dataSize : Nat) : ReportFile (serverService dataSize) where
  fname := "server_report_write.csv".toList
  device s := s.devices.writeMeasurements
  meter := (ServerShard.counting (LoopEvent.bytesWritten dataSize) LoopEvent.packetsWritten).meter
  pick := Prod.snd
  metered := ServerShard.metered rfl (fun _ _ _ => rfl) (Devices.count_writeMeasurements dataSize)
  picks _ := rfl

def serverReports (dataSize : Nat) : List (ReportFile (serverService dataSize)) :=
  [serverReadReport dataSize, serverWriteReport dataSize]

section

variable {State : Type} (program : HandlerProgram State) (dataSize : Nat) (connections : UInt16)

def clientReadReport : ReportFile (clientService program dataSize connections) where
  fname := "client_report_read.csv".toList
  device s := s.devices.readMeasurements
  meter := ClientShard.readMeter
  pick := Prod.fst
  metered := ClientShard.metered rfl (fun _ _ _ => rfl) (Devices.count_readMeasurements dataSize)
  picks _ := rfl

def clientWriteReport : ReportFile (clientService program dataSize connections) where
  fname := "client_report_write.csv".toList
  device s := s.devices.writeMeasurements
  meter := ClientShard.writeMeter dataSize
  pick := Prod.snd
  metered := ClientShard.metered rfl (fun _ _ _ => rfl) (Devices.count_writeMeasurements dataSize)
  picks _ := rfl

def clientReports : List (ReportFile (clientService program dataSize connections)) :=
  [clientReadReport program dataSize connections, clientWriteReport program dataSize connections]

end

def udpReadReport (cfg : UdpConfig) : ReportFile (udpService cfg) where
  fname := "client_report_read.csv".toList
  device s := s.devices.readMeasurements
  meter := (UdpShard.counting FlowEvent.bytesRead FlowEvent.packetsRead).meter
  pick := Prod.fst
  metered := UdpShard.metered rfl (fun _ _ _ => rfl) (FlowEvent.count_readMeasurements cfg.dataSize)
  picks _ := rfl

def udpWriteReport (cfg : UdpConfig) : ReportFile (udpService cfg) where
  fname := "client_report_write.csv".toList
  device s := s.devices.writeMeasurements
  meter := (UdpShard.counting (FlowEvent.bytesWritten cfg.dataSize) FlowEvent.packetsWritten).meter
  pick := Prod.snd
  metered := UdpShard.metered rfl (fun _ _ _ => rfl) (FlowEvent.count_writeMeasurements cfg.dataSize)
  picks _ := rfl

/-- `udp_duplex` is server and client, and writes the reports of a client. -/
def udpReports (cfg : UdpConfig) : List (ReportFile (udpService cfg)) :=
  [udpReadReport cfg, udpWriteReport cfg]

def Program.reports : (program : Program) → List (ReportFile program.service)
  | server =>
      datagramReports serverLoop "server_report.csv".toList ReceiveEvent.serverLoop_count
  | client =>
      datagramReports clientLoop "client_report.csv".toList SendEvent.clientLoop_count
  | tcpServer dataSize => serverReports dataSize
  | tcpServerPingpong dataSize => serverReports dataSize
  | udpDuplex cfg => udpReports cfg

namespace Benchmark

def Shard : Benchmark → Type
  | program p => p.Shard
  | tcpClient _ _ => ClientShard Handler
  | tcpClientPingpong _ _ => ClientShard PingLoop

def Event : Benchmark → Type
  | program p => p.Event
  | tcpClient _ _ => ClientEvent
  | tcpClientPingpong _ _ => ClientEvent

def Input : Benchmark → Type
  | program p => p.Input
  | tcpClient _ _ => Unit
  | tcpClientPingpong _ _ => Unit

def service : (b : Benchmark) → Service b.Shard b.Event b.Input
  | program p => p.service
  | tcpClient dataSize connections => clientService duplexHandler dataSize connections
  | tcpClientPingpong dataSize connections => clientService pingHandler dataSize connections

/-- The calls of `dump_measurements`, in their order. -/
def reports : (b : Benchmark) → List (ReportFile b.service)
  | program p => p.reports
  | tcpClient dataSize connections => clientReports duplexHandler dataSize connections
  | tcpClientPingpong dataSize connections => clientReports pingHandler dataSize connections

variable {b : Benchmark} {n : Nat} {p : Process n b.Shard}
  {es : List (ProcessEvent n b.Event b.Input)}

def serverFiles : List Text :=
  ["server_report_read.csv".toList, "server_report_write.csv".toList]

def clientFiles : List Text :=
  ["client_report_read.csv".toList, "client_report_write.csv".toList]

/-- The files of a report. -/
def fnames : Benchmark → List Text
  | program .server => ["server_report.csv".toList]
  | program .client => ["client_report.csv".toList]
  | program (.tcpServer _) => serverFiles
  | program (.tcpServerPingpong _) => serverFiles
  | program (.udpDuplex _) => clientFiles
  | tcpClient _ _ => clientFiles
  | tcpClientPingpong _ _ => clientFiles

theorem map_fname_reports (b : Benchmark) : b.reports.map ReportFile.fname = b.fnames := by
  rcases b with (_ | _ | _ | _ | _) | _ | _ <;> rfl

/-- No file of a report is written twice. -/
theorem fnames_nodup (b : Benchmark) : (b.reports.map ReportFile.fname).Nodup := by
  rw [map_fname_reports]
  have hserver : serverFiles.Nodup := by decide
  have hclient : clientFiles.Nodup := by decide
  rcases b with (_ | _ | _ | _ | _) | _ | _
  · exact List.nodup_singleton _
  · exact List.nodup_singleton _
  · exact hserver
  · exact hserver
  · exact hclient
  · exact hclient
  · exact hclient

/-- Only `server` writes the report of that name. -/
theorem eq_server_of_mem_fnames (h : "server_report.csv".toList ∈ b.fnames) :
    b = program .server := by
  have hserver : "server_report.csv".toList ∉ serverFiles := by decide
  have hclient : "server_report.csv".toList ∉ clientFiles := by decide
  match b, h with
  | program .server, _ => rfl
  | program .client, h => exact absurd h (by decide)
  | program (.tcpServer _), h => exact absurd h hserver
  | program (.tcpServerPingpong _), h => exact absurd h hserver
  | program (.udpDuplex _), h => exact absurd h hclient
  | tcpClient _ _, h => exact absurd h hclient
  | tcpClientPingpong _ _, h => exact absurd h hclient

theorem eq_client_of_mem_fnames (h : "client_report.csv".toList ∈ b.fnames) :
    b = program .client := by
  have hserver : "client_report.csv".toList ∉ serverFiles := by decide
  have hclient : "client_report.csv".toList ∉ clientFiles := by decide
  match b, h with
  | program .client, _ => rfl
  | program .server, h => exact absurd h (by decide)
  | program (.tcpServer _), h => exact absurd h hserver
  | program (.tcpServerPingpong _), h => exact absurd h hserver
  | program (.udpDuplex _), h => exact absurd h hclient
  | tcpClient _ _, h => exact absurd h hclient
  | tcpClientPingpong _ _, h => exact absurd h hclient

end Benchmark

/-! ### The working directory -/

/-- The report files that are there. -/
abbrev Directory := Text → Option Text

namespace ReportFile

variable {Shard Event Input : Type} {svc : Service Shard Event Input} {n : Nat}
  {p : Process n Shard} {rs : List (ReportFile svc)} {dir : Directory}

/-- One call of `dump_measurements`, where the file can be opened or not. -/
def dump (r : ReportFile svc) (platform : Platform) (opens : Text → Bool)
    (p : Process n Shard) (dir : Directory) : Directory :=
  Function.update dir r.fname
    (Report.dumpMeasurements platform (opens r.fname) (dir r.fname) (r.shardMeasurements p))

/-- The calls of a report, one after another. -/
def dumpEach (rs : List (ReportFile svc)) (platform : Platform) (opens : Text → Bool)
    (p : Process n Shard) (dir : Directory) : Directory :=
  rs.foldl (fun dir r => r.dump platform opens p dir) dir

variable {platform : Platform} {opens : Text → Bool}

theorem dumpEach_other {fname : Text} (h : fname ∉ rs.map ReportFile.fname) :
    dumpEach rs platform opens p dir fname = dir fname := by
  induction rs generalizing dir with
  | nil => rfl
  | cons r rs ih =>
      rw [List.map_cons, List.mem_cons, not_or] at h
      exact (ih h.2).trans (Function.update_of_ne h.1 _ _)

theorem dumpEach_self (hnodup : (rs.map ReportFile.fname).Nodup) {r : ReportFile svc} (hr : r ∈ rs) :
    dumpEach rs platform opens p dir r.fname =
      Report.dumpMeasurements platform (opens r.fname) (dir r.fname) (r.shardMeasurements p) := by
  induction rs generalizing dir with
  | nil => cases hr
  | cons s rs ih =>
      rw [List.map_cons, List.nodup_cons] at hnodup
      obtain ⟨hfresh, hnodup⟩ := hnodup
      rcases List.mem_cons.mp hr with rfl | hr
      · exact (dumpEach_other hfresh).trans (Function.update_self _ _ _)
      · have hne : r.fname ≠ s.fname := fun heq => hfresh (heq ▸ List.mem_map_of_mem hr)
        have hrest : dir r.fname = s.dump platform opens p dir r.fname :=
          (Function.update_of_ne hne _ _).symm
        rw [hrest]
        exact ih hnodup hr

end ReportFile

namespace Benchmark

variable {b : Benchmark} {n : Nat} {p : Process n b.Shard}
  {es : List (ProcessEvent n b.Event b.Input)}

/-- `write_throughput_report`, after all shards have been read. -/
def writeThroughputReport (b : Benchmark) (platform : Platform) (opens : Text → Bool)
    (p : Process n b.Shard) (dir : Directory) : Directory :=
  ReportFile.dumpEach b.reports platform opens p dir

end Benchmark

/-! ### Reports of programs that are through -/

/-- A loop that takes a step runs. -/
theorem UdpFlow.running_of_step {flow flow' : UdpFlow} {interrupted : Bool} {e : FlowEvent}
    (h : flow.step interrupted e = some flow') : flow.running = true := by
  cases e with
  | send f =>
      obtain ⟨old, new, hold, hnew, -⟩ := step_send_some h
      simp [running, hold, SendLoop.unfinished_of_step hnew]
  | receive f =>
      obtain ⟨old, new, hold, hnew, -⟩ := step_receive_some h
      simp [running, hold, ReceiveLoop.unfinished_of_step hnew]

namespace ReportFile

variable {Shard Event Input : Type} {svc : Service Shard Event Input} {n : Nat}
  {p : Process n Shard} {es : List (ProcessEvent n Event Input)}

/-- A report never has more than its shards have counted. -/
theorem reported_add_unreported_le (r : ReportFile svc) (i : Fin n)
    (es : List (ProcessEvent n Event Input)) :
    r.reported i es + r.unreported i es ≤ r.counted i es :=
  (Meter.totalPackets_split _ _).symm.le.trans Process.totalPackets_untilRead_le

/-- An instance of this kind counts nothing. -/
def Quiet (r : ReportFile svc) (P : Shard → Prop) : Prop :=
  ∀ s e t, P s → svc.call s e = some t → r.meter.packets e = 0

/-- A shard that is quiet when its history is read has counted by then what it will ever count. -/
theorem reported_add_unreported {r : ReportFile svc} {P : Shard → Prop} (hkept : Process.Kept svc P)
    (hquiet : r.Quiet P) (h : (Process.system svc n).exec (Process.start svc n) es = some p)
    (hstage : p.stage = .stop ∨ p.stage = .done) {i : Fin n}
    (hover : ∀ q, (Process.system svc n).exec (Process.start svc n) (Process.untilRead i es) = some q →
      q.stage = .report → P (q.shard i)) :
    r.reported i es + r.unreported i es = r.counted i es := by
  obtain ⟨histories, hread⟩ :=
    Option.isSome_iff_exists.mp (Process.snapshots_isSome ⟨es, h⟩ hstage i)
  calc r.reported i es + r.unreported i es
      = r.meter.totalPackets (Process.log i (Process.untilRead i es)) :=
        (Meter.totalPackets_split _ _).symm
    _ = r.counted i es := Process.totalPackets_untilRead hkept hquiet h hread hover

end ReportFile

theorem quiet_datagramReports {Loop Event : Type} {program : DatagramLoop Loop Event}
    {fname : Text} {bytes packets : Event → Nat}
    {hcount : ∀ device e, program.count device e =
      (device.addBytes (UInt64.ofNat (bytes e))).addPackets (UInt64.ofNat (packets e))} :
    ∀ r ∈ datagramReports program fname hcount, r.Quiet (DatagramShard.Over program) := by
  intro r hr
  obtain rfl := List.mem_singleton.mp hr
  exact fun _ _ _ => DatagramShard.quiet_of_over

theorem quiet_serverReports {dataSize : Nat} : ∀ r ∈ serverReports dataSize,
    r.Quiet fun s => s.accept = .stopped ∧ ∀ c ∈ s.handlers.tasks, c.resolved = true := by
  have htick {s t : ServerShard} {e : ServiceEvent ServerEvent Bool}
      (h : s.accept = .stopped ∧ ∀ c ∈ s.handlers.tasks, c.resolved = true)
      (hcall : (serverService dataSize).call s e = some t) (quantity : LoopEvent → Nat) :
      (ServerShard.counting quantity quantity).meter.packets e = 0 := by
    cases e with
    | armTimer | run | stop => rfl
    | continuation e =>
        have hmoves : s.Moves dataSize e t := ServerShard.moves_of_step hcall
        cases hmoves with
        | stopAccept | failAccept | handOver | tick => rfl
        | handler j e c h' hold hstep =>
            have hbusy := ServerShard.unresolved_of_step hstep
            rw [h.2 c (List.mem_of_getElem? hold)] at hbusy
            cases hbusy
  intro r hr
  rcases List.mem_pair.mp hr with rfl | rfl
  · exact fun s e t h hcall => htick h hcall LoopEvent.packetsRead
  · exact fun s e t h hcall => htick h hcall LoopEvent.packetsWritten

theorem quiet_clientReports {State : Type} {program : HandlerProgram State} {dataSize : Nat}
    {connections : UInt16} : ∀ r ∈ clientReports program dataSize connections,
      r.Quiet (ClientShard.Complete program connections) := by
  have htick {s t : ClientShard State} {e : ServiceEvent ClientEvent Unit}
      (h : ClientShard.Complete program connections s)
      (hcall : (clientService program dataSize connections).call s e = some t)
      (quantity : LoopEvent → Nat) : ClientEvent.counts quantity e = 0 := by
    cases e with
    | armTimer | run | stop => rfl
    | continuation e =>
        obtain ⟨now, rfl⟩ := h.moves (ClientShard.moves_of_step hcall)
        rfl
  intro r hr
  rcases List.mem_pair.mp hr with rfl | rfl
  · exact fun s e t h hcall => htick h hcall LoopEvent.packetsRead
  · exact fun s e t h hcall => htick h hcall LoopEvent.packetsWritten

theorem quiet_udpReports {cfg : UdpConfig} : ∀ r ∈ udpReports cfg, r.Quiet UdpShard.Idle := by
  have htick {s t : UdpShard} {e : ServiceEvent UdpEvent (Nat → Channels)} (h : s.Idle)
      (hcall : (udpService cfg).call s e = some t) (quantity : FlowEvent → Nat) :
      (UdpShard.counting quantity quantity).meter.packets e = 0 := by
    cases e with
    | armTimer | run | stop => rfl
    | continuation e =>
        have hmoves : s.Moves cfg e t := UdpShard.moves_of_step hcall
        cases hmoves with
        | detached j e flow flow' hold hstep | flow j e flow flow' hold hstep =>
            have hrunning := UdpFlow.running_of_step hstep
            rw [h flow (List.mem_of_getElem? hold)] at hrunning
            cases hrunning
        | tick => rfl
  intro r hr
  rcases List.mem_pair.mp hr with rfl | rfl
  · exact fun s e t h hcall => htick h hcall FlowEvent.packetsRead
  · exact fun s e t h hcall => htick h hcall FlowEvent.packetsWritten

theorem UdpShard.kept_idle {cfg : UdpConfig} : Process.Kept (udpService cfg) UdpShard.Idle where
  armTimer _ h := h
  stop _ h := h
  step s e t h hstep := by
    obtain ⟨-, -, -, htasks | ⟨j, f, flow, flow', -, hold, hflow, htasks⟩⟩ :=
      (moves_of_step hstep).tasks
    · rw [Idle, htasks]
      exact h
    · have hrunning := UdpFlow.running_of_step hflow
      rw [h flow (List.mem_of_getElem? hold)] at hrunning
      cases hrunning

namespace Benchmark

variable {b : Benchmark} {n : Nat} {p : Process n b.Shard}
  {es : List (ProcessEvent n b.Event b.Input)}

/-- The step does not leave a loop behind that may still count when the report has been read: a
server's report awaits the gate, and no bind of `udp_duplex` throws after its send loop has
started. -/
def Settles : (b : Benchmark) → Process n b.Shard → ProcessEvent n b.Event b.Input → Prop
  | program (.tcpServer _) => Server.AwaitsGate
  | program (.tcpServerPingpong _) => Server.AwaitsGate
  | program (.udpDuplex cfg) => Udp.BindsAll cfg
  | program .server => fun _ _ => True
  | program .client => fun _ _ => True
  | tcpClient _ _ => fun _ _ => True
  | tcpClientPingpong _ _ => fun _ _ => True

/-- A server whose report awaits the gate is through on a shard whose history is read. -/
theorem quiet_when_read {dataSize : Nat} {p q : Process n ServerShard}
    {es : List (ProcessEvent n ServerEvent Bool)}
    (hawaits : (Server.system dataSize n).EachStep Server.AwaitsGate (Server.start dataSize n) es)
    (h : (Server.system dataSize n).exec (Server.start dataSize n) es = some p)
    (hstage : p.stage = .stop ∨ p.stage = .done) {i : Fin n}
    (hq : (Server.system dataSize n).exec (Server.start dataSize n) (Process.untilRead i es) =
      some q) (hreport : q.stage = .report) :
    (q.shard i).accept = .stopped ∧ ∀ c ∈ (q.shard i).handlers.tasks, c.resolved = true := by
  obtain ⟨histories, hread⟩ :=
    Option.isSome_iff_exists.mp (Process.snapshots_isSome ⟨es, h⟩ hstage i)
  obtain ⟨after, -, hsplit, -⟩ := Process.exists_snapshot h hread
  have hawait : (q.shard i).stopFuture = .resolved :=
    hawaits (Process.untilRead i es) (.snapshot i)
      ⟨after, by rw [List.append_assoc]; exact hsplit.symm⟩ q hq
  have hended := ServerShard.phases.ended_of_afterRun ⟨_, hq⟩ (by rw [hreport]; rfl) i
  exact ⟨hended.2, (Server.consistent ⟨_, hq⟩ i).resolved_of_stopFuture hawait⟩

theorem settled_server {dataSize : Nat} {p : Process n ServerShard}
    {es : List (ProcessEvent n ServerEvent Bool)}
    (hawaits : (Server.system dataSize n).EachStep Server.AwaitsGate (Server.start dataSize n) es)
    (h : (Server.system dataSize n).exec (Server.start dataSize n) es = some p)
    (hstage : p.stage = .stop ∨ p.stage = .done) {i : Fin n} {r : ReportFile (serverService dataSize)}
    (hr : r ∈ serverReports dataSize) : r.reported i es + r.unreported i es = r.counted i es :=
  ReportFile.reported_add_unreported ServerShard.kept_quiet (quiet_serverReports r hr) h hstage
    fun _ hq hreport => quiet_when_read hawaits h hstage hq hreport

theorem settled_datagram {Loop Event : Type} {program : DatagramLoop Loop Event} {fname : Text}
    {bytes packets : Event → Nat}
    (hcount : ∀ device e, program.count device e =
      (device.addBytes (UInt64.ofNat (bytes e))).addPackets (UInt64.ofNat (packets e)))
    {p : Process n (DatagramShard Loop)} {es : List (ProcessEvent n (DatagramEvent Event) Bool)}
    (h : (Process.system (datagramService program) n).exec
      (Process.start (datagramService program) n) es = some p)
    (hstage : p.stage = .stop ∨ p.stage = .done) {i : Fin n}
    {r : ReportFile (datagramService program)} (hr : r ∈ datagramReports program fname hcount) :
    r.reported i es + r.unreported i es = r.counted i es :=
  ReportFile.reported_add_unreported DatagramShard.kept_over (quiet_datagramReports r hr) h hstage
    fun _ hq hreport => DatagramShard.phases.ended_of_afterRun ⟨_, hq⟩ (by rw [hreport]; rfl) i

theorem settled_client {State : Type} {program : HandlerProgram State} {dataSize : Nat}
    {connections : UInt16} {p : Process n (ClientShard State)}
    {es : List (ProcessEvent n ClientEvent Unit)}
    (h : (Client.system program dataSize connections n).exec
      (Client.start program dataSize connections n) es = some p)
    (hstage : p.stage = .stop ∨ p.stage = .done) {i : Fin n}
    {r : ReportFile (clientService program dataSize connections)}
    (hr : r ∈ clientReports program dataSize connections) :
    r.reported i es + r.unreported i es = r.counted i es :=
  ReportFile.reported_add_unreported ClientShard.phases.ended_kept (quiet_clientReports r hr) h hstage
    fun _ hq hreport => ClientShard.phases.ended_of_afterRun ⟨_, hq⟩ (by rw [hreport]; rfl) i

theorem settled_udp {cfg : UdpConfig} {p : Process n UdpShard}
    {es : List (ProcessEvent n UdpEvent (Nat → Channels))}
    (hbinds : (Udp.system cfg n).EachStep (Udp.BindsAll cfg) (Udp.start cfg n) es)
    (h : (Udp.system cfg n).exec (Udp.start cfg n) es = some p)
    (hstage : p.stage = .stop ∨ p.stage = .done) {i : Fin n} {r : ReportFile (udpService cfg)}
    (hr : r ∈ udpReports cfg) : r.reported i es + r.unreported i es = r.counted i es := by
  refine ReportFile.reported_add_unreported UdpShard.kept_idle (quiet_udpReports r hr) h hstage
    fun q hq hreport => ?_
  obtain ⟨hspawned, hresolved⟩ :=
    UdpShard.phases.ended_of_afterRun ⟨_, hq⟩ (by rw [hreport]; rfl) i
  have hconfined := Udp.confined_of_binds hbinds _ (List.takeWhile_prefix _) q hq
  exact hconfined.1 i (hspawned.runFuture_iff.mpr hresolved)

/-- On each shard the report and what was counted since the last tick are everything. -/
theorem reported_of_settles
    (hsettles : (Process.system b.service n).EachStep b.Settles (Process.start b.service n) es)
    (h : (Process.system b.service n).exec (Process.start b.service n) es = some p)
    (hstage : p.stage = .stop ∨ p.stage = .done) :
    ∀ r ∈ b.reports, ∀ i, r.reported i es + r.unreported i es = r.counted i es := by
  intro r hr i
  match b with
  | program .server => exact settled_datagram ReceiveEvent.serverLoop_count h hstage hr
  | program .client => exact settled_datagram SendEvent.clientLoop_count h hstage hr
  | program (.tcpServer _) => exact settled_server hsettles h hstage hr
  | program (.tcpServerPingpong _) => exact settled_server hsettles h hstage hr
  | program (.udpDuplex _) => exact settled_udp hsettles h hstage hr
  | tcpClient _ _ => exact settled_client h hstage hr
  | tcpClientPingpong _ _ => exact settled_client h hstage hr

/-- Whatever a program runs into, each of its reports has a plot if a shard has ticked, with a row
for each second of the report, and none otherwise. The packets of these seconds are what the shards
had counted up to their last ticks; and in a run that settles all that they have ever counted, less
what they had counted since then. -/
theorem plots_add_up (platform : Platform) (opens : Text → Bool) (dir : Directory)
    (h : (Process.system b.service n).exec (Process.start b.service n) es = some p)
    (hstage : p.stage = .stop ∨ p.stage = .done)
    (hopens : ∀ r ∈ b.reports, opens r.fname = true)
    (hfits : ∀ r ∈ b.reports, ∀ i, r.counted i es < 2 ^ 64) :
    ∀ r ∈ b.reports,
      (¬ r.Ticked p →
        Report.loadAndAggregate platform (b.writeThroughputReport platform opens p dir r.fname) =
          none) ∧
      (r.Ticked p → ∃ result,
        Report.loadAndAggregate platform (b.writeThroughputReport platform opens p dir r.fname) =
            some result ∧
          result ≠ [] ∧
          Report.Totals platform (Report.plottedSecond platform) (r.shardMeasurements p).flatten
            result ∧
          r.plottedPackets platform p result = ∑ i, r.reported i es ∧
          ((Process.system b.service n).EachStep b.Settles (Process.start b.service n) es →
            r.plottedPackets platform p result + ∑ i, r.unreported i es =
              ∑ i, r.counted i es)) := by
  intro r hr
  rw [writeThroughputReport, ReportFile.dumpEach_self b.fnames_nodup hr, hopens r hr]
  refine ⟨r.no_totals platform _, fun hticked => ?_⟩
  obtain ⟨result, hload, hrows, htotals, hpackets⟩ :=
    r.totals platform (dir r.fname) h hstage hticked
  have hreported := hpackets (hfits r hr)
  refine ⟨result, hload, hrows, htotals, hreported, fun hsettles => ?_⟩
  rw [hreported, ← Finset.sum_add_distrib]
  exact Finset.sum_congr rfl fun i _ => reported_of_settles hsettles h hstage r hr i

/-- One flow of `udp_duplex` receives a datagram before its tick and one, after the signal, since. -/
def duplexRun : List (ProcessEvent 1 UdpEvent (Nat → Channels)) :=
  [.reporterSet shardZero true, .advance, .callRun shardZero fun _ => .both,
    .continuation shardZero (.flow 0 (.receive (.received 64))),
    .continuation shardZero (.flow 0 (.receive .top)),
    .continuation shardZero (.tick ⟨5000000000, 5000000001⟩),
    .signal, .exitStop shardZero, .continuation shardZero (.flow 0 (.receive (.received 64))),
    .continuation shardZero (.flow 0 (.receive .top)),
    .continuation shardZero (.flow 0 (.send .sent)),
    .continuation shardZero (.flow 0 (.send .top)), .advance, .snapshot shardZero, .advance]

def afterDuplex : Process 1 UdpShard :=
  ((Udp.system Udp.defaultConfig 1).exec (Udp.start Udp.defaultConfig 1) duplexRun).get
    (by decide +kernel)

/-- Of its two datagrams the plot shows one. -/
theorem duplex_plots_add_up : ∃ result,
    Report.loadAndAggregate Report.wholeGigabits
        ((program (.udpDuplex Udp.defaultConfig)).writeThroughputReport Report.wholeGigabits
          (fun _ => true) afterDuplex (fun _ => none) "client_report_read.csv".toList) =
        some result ∧
      (udpReadReport Udp.defaultConfig).plottedPackets Report.wholeGigabits afterDuplex result =
        1 ∧
      (udpReadReport Udp.defaultConfig).plottedPackets Report.wholeGigabits afterDuplex result +
        1 = 2 := by
  have hfits : ∀ r ∈ udpReports Udp.defaultConfig, ∀ i : Fin 1, r.counted i duplexRun < 2 ^ 64 := by
    intro r hr
    rcases List.mem_pair.mp hr with rfl | rfl <;> decide +kernel
  have hticked : (udpReadReport Udp.defaultConfig).Ticked afterDuplex := by
    unfold ReportFile.Ticked
    decide +kernel
  have hsettles : (Udp.system Udp.defaultConfig 1).EachStep (Udp.BindsAll Udp.defaultConfig)
      (Udp.start Udp.defaultConfig 1) duplexRun := by decide +kernel
  obtain ⟨-, hplot⟩ :=
    plots_add_up (b := program (.udpDuplex Udp.defaultConfig)) (n := 1) (p := afterDuplex)
      Report.wholeGigabits (fun _ => true) (fun _ => none) (Option.some_get _).symm
      (Or.inl (by decide +kernel)) (fun _ _ => rfl) hfits _ List.mem_cons_self
  obtain ⟨result, hload, -, -, htotal, hsettled⟩ := hplot hticked
  refine ⟨result, hload, htotal.trans (show _ = 1 by decide +kernel), ?_⟩
  refine Eq.trans ?_ ((hsettled hsettles).trans (show _ = 2 by decide +kernel))
  exact congrArg (_ + ·) (show 1 = _ by decide +kernel)

end Benchmark

end SeastarExperiments
