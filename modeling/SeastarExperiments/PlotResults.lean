import SeastarExperiments.Benchmarks

/-! The plot script over a series of runs in one working directory. A report replaces the one of the
same name, whichever program has left it; the two plots follow the reports of `server` and `client`
alone, those of the five other programs never show. -/

namespace SeastarExperiments

open Transition
open Csv (Text)

/-- A run of a program that has written its report. -/
structure FinishedRun where
  benchmark : Benchmark
  shards : Nat
  events : List (ProcessEvent shards benchmark.Event benchmark.Input)
  final : Process shards benchmark.Shard
  run : (Process.system benchmark.service shards).exec
    (Process.start benchmark.service shards) events = some final
  reported : final.stage = .stop ∨ final.stage = .done
  /-- The reports that could be opened. -/
  opens : Text → Bool

namespace FinishedRun

/-- The run has left a report under this name. -/
def leaves (r : FinishedRun) (fname : Text) : Bool :=
  r.benchmark.fnames.contains fname && r.opens fname

/-- The directory after the run. -/
def leave (r : FinishedRun) (platform : Platform) (dir : Directory) : Directory :=
  r.benchmark.writeThroughputReport platform r.opens r.final dir

variable {r : FinishedRun} {platform : Platform} {fname : Text}

theorem leave_other (h : r.leaves fname = false) (dir : Directory) :
    r.leave platform dir fname = dir fname := by
  by_cases hname : fname ∈ r.benchmark.reports.map ReportFile.fname
  · obtain ⟨file, hfile, rfl⟩ := List.mem_map.mp hname
    have hclosed : r.opens file.fname = false := by
      rw [Benchmark.map_fname_reports] at hname
      simpa [leaves, hname] using h
    rw [leave, Benchmark.writeThroughputReport,
      ReportFile.dumpEach_self r.benchmark.fnames_nodup hfile, hclosed]
    rfl
  · exact ReportFile.dumpEach_other hname

theorem leave_self {file : ReportFile r.benchmark.service} (hfile : file ∈ r.benchmark.reports)
    (h : r.leaves file.fname = true) (dir : Directory) :
    r.leave platform dir file.fname =
      Report.dumpMeasurements platform true none (file.shardMeasurements r.final) := by
  obtain ⟨-, hopens⟩ := Bool.and_eq_true_iff.mp h
  rw [leave, Benchmark.writeThroughputReport,
    ReportFile.dumpEach_self r.benchmark.fnames_nodup hfile, hopens]
  rfl

theorem mem_fnames (h : r.leaves fname = true) : fname ∈ r.benchmark.fnames :=
  List.contains_iff_mem.mp (Bool.and_eq_true_iff.mp h).1

theorem exists_file (h : r.leaves fname = true) :
    ∃ file ∈ r.benchmark.reports, file.fname = fname := by
  have hname := mem_fnames h
  rw [← Benchmark.map_fname_reports] at hname
  obtain ⟨file, hfile, hsame⟩ := List.mem_map.mp hname
  exact ⟨file, hfile, hsame⟩

end FinishedRun

/-- The directory after a series of runs, one finishing after the other. -/
def finishAll (platform : Platform) (runs : List FinishedRun) (dir : Directory) : Directory :=
  runs.foldl (fun dir r => r.leave platform dir) dir

/-- The last run of a series that has left a report under this name. -/
def LastToLeave (fname : Text) (runs : List FinishedRun) (r : FinishedRun) : Prop :=
  ∃ before after, runs = before ++ r :: after ∧ r.leaves fname = true ∧
    ∀ later ∈ after, later.leaves fname = false

/-- The report that is there under this name in the end has a measurement. -/
def HasData (fname : Text) (runs : List FinishedRun) : Prop :=
  ∃ r, LastToLeave fname runs r ∧
    ∃ file ∈ r.benchmark.reports, file.fname = fname ∧ file.Ticked r.final

section

variable {platform : Platform} {fname : Text} {runs : List FinishedRun} {dir : Directory}

theorem finishAll_other (h : ∀ r ∈ runs, r.leaves fname = false) :
    finishAll platform runs dir fname = dir fname := by
  induction runs generalizing dir with
  | nil => rfl
  | cons r runs ih =>
      obtain ⟨hr, hrest⟩ := List.forall_mem_cons.mp h
      exact (ih hrest).trans (FinishedRun.leave_other hr dir)

/-- The last run that leaves a report of a name decides on the file. -/
theorem LastToLeave.finishAll {r : FinishedRun} {file : ReportFile r.benchmark.service}
    (h : LastToLeave file.fname runs r) (hfile : file ∈ r.benchmark.reports) :
    finishAll platform runs dir file.fname =
      Report.dumpMeasurements platform true none (file.shardMeasurements r.final) := by
  obtain ⟨before, after, rfl, hleaves, hlater⟩ := h
  have hsplit : SeastarExperiments.finishAll platform (before ++ r :: after) dir =
      SeastarExperiments.finishAll platform after
        (r.leave platform (SeastarExperiments.finishAll platform before dir)) := List.foldl_append
  rw [hsplit]
  exact (finishAll_other hlater).trans (FinishedRun.leave_self hfile hleaves _)

/-- A file after a series of runs: nobody has left it, or somebody was the last to. -/
theorem last_or_none (fname : Text) (runs : List FinishedRun) :
    (∀ r ∈ runs, r.leaves fname = false) ∨ ∃ r, LastToLeave fname runs r := by
  induction runs using List.reverseRecOn with
  | nil => exact Or.inl fun r hr => by cases hr
  | append_singleton runs r ih =>
      cases hr : r.leaves fname with
      | true => exact Or.inr ⟨r, runs, [], rfl, hr, fun later hlater => by cases hlater⟩
      | false =>
          rcases ih with hnone | ⟨s, before, after, rfl, hs, hlater⟩
          · left
            intro s hs
            rcases List.mem_append.mp hs with hs | hs
            · exact hnone s hs
            · obtain rfl := List.mem_singleton.mp hs
              exact hr
          · refine Or.inr ⟨s, before, after ++ [r], by simp, hs, fun later hmem => ?_⟩
            rcases List.mem_append.mp hmem with hmem | hmem
            · exact hlater later hmem
            · obtain rfl := List.mem_singleton.mp hmem
              exact hr

end

/-! ### The script -/

/-- What the two files under `plot/` show, if they are there. -/
structure Plots (Double : Type) where
  serverResults : Option (List (Report.Total Double)) := none
  clientResults : Option (List (Report.Total Double)) := none

/-- `main` of the plot script: the files under `plot/`, and whether "No data files found!" has been
printed. A file that cannot be loaded leaves the plot of an earlier call. -/
def plotMain (platform : Platform) (dir : Directory) (plots : Plots platform.Double) :
    Plots platform.Double × Bool :=
  let serverDf := Report.loadAndAggregate platform (dir "server_report.csv".toList)
  let clientDf := Report.loadAndAggregate platform (dir "client_report.csv".toList)
  if serverDf.isNone && clientDf.isNone then (plots, true)
  else
    ({ serverResults := serverDf <|> plots.serverResults
       clientResults := clientDf <|> plots.clientResults }, false)

/-- What a plot shows of a series of runs: what it showed before if nobody has left a report of this
name, or the last one to leave it has only written the header, and otherwise the packets that this
run has reported. -/
structure Shows (platform : Platform) (fname : Text) (runs : List FinishedRun)
    (old shown : Option (List (Report.Total platform.Double))) : Prop where
  unchanged : (∀ r ∈ runs, r.leaves fname = false) → shown = old
  last : ∀ r, LastToLeave fname runs r → ∀ file ∈ r.benchmark.reports, file.fname = fname →
    (¬ file.Ticked r.final → shown = old) ∧
    (file.Ticked r.final → ∃ result, shown = some result ∧ result ≠ [] ∧
      Report.Totals platform (Report.plottedSecond platform)
        (file.shardMeasurements r.final).flatten result ∧
      ((∀ i, file.counted i r.events < 2 ^ 64) →
        file.plottedPackets platform r.final result = ∑ i, file.reported i r.events))

section

variable {platform : Platform} {fname : Text} {runs : List FinishedRun}

/-- A report of this name can be loaded exactly if it has data. -/
theorem loaded_iff : (Report.loadAndAggregate platform
    (finishAll platform runs (fun _ => none) fname)).isNone = true ↔ ¬ HasData fname runs := by
  constructor
  · rintro hnone ⟨r, hlast, file, hfile, rfl, hticked⟩
    obtain ⟨result, hload, -⟩ := file.totals platform none r.run r.reported hticked
    rw [hlast.finishAll hfile, hload] at hnone
    cases hnone
  · intro hdata
    rcases last_or_none fname runs with hall | ⟨r, hlast⟩
    · rw [finishAll_other hall]
      rfl
    · obtain ⟨before, after, hruns, hleaves, hlater⟩ := hlast
      obtain ⟨file, hfile, rfl⟩ := FinishedRun.exists_file hleaves
      have hlast : LastToLeave file.fname runs r := ⟨before, after, hruns, hleaves, hlater⟩
      rw [hlast.finishAll hfile, file.no_totals platform none fun hticked =>
        hdata ⟨r, hlast, file, hfile, rfl, hticked⟩]
      rfl

theorem shows (old : Option (List (Report.Total platform.Double))) :
    Shows platform fname runs old
      (Report.loadAndAggregate platform (finishAll platform runs (fun _ => none) fname) <|> old)
    where
  unchanged hall := by
    rw [finishAll_other hall]
    rfl
  last r hlast file hfile hname := by
    subst hname
    rw [hlast.finishAll hfile]
    refine ⟨fun hticked => ?_, fun hticked => ?_⟩
    · rw [file.no_totals platform none hticked]
      rfl
    · obtain ⟨result, hload, hrows, htotals, hpackets⟩ :=
        file.totals platform none r.run r.reported hticked
      refine ⟨result, ?_, hrows, htotals, hpackets⟩
      rw [hload]
      rfl

/-- What `main` leaves, a directory without data included. -/
theorem plotMain_eq (dir : Directory) (plots : Plots platform.Double) :
    plotMain platform dir plots =
      ({ serverResults :=
           Report.loadAndAggregate platform (dir "server_report.csv".toList) <|>
             plots.serverResults
         clientResults :=
           Report.loadAndAggregate platform (dir "client_report.csv".toList) <|>
             plots.clientResults },
        (Report.loadAndAggregate platform (dir "server_report.csv".toList)).isNone &&
          (Report.loadAndAggregate platform (dir "client_report.csv".toList)).isNone) := by
  unfold plotMain
  cases Report.loadAndAggregate platform (dir "server_report.csv".toList) <;>
    cases Report.loadAndAggregate platform (dir "client_report.csv".toList) <;> rfl

end

/-- The plots after any series of runs in an empty directory: each follows its own report; "No data
files found!" exactly if neither report is there with a measurement, as after runs of the five other
programs only. -/
theorem plots_follow_reports (platform : Platform) (runs : List FinishedRun)
    (plots : Plots platform.Double) :
    Shows platform "server_report.csv".toList runs plots.serverResults
        (plotMain platform (finishAll platform runs fun _ => none) plots).1.serverResults ∧
      Shows platform "client_report.csv".toList runs plots.clientResults
        (plotMain platform (finishAll platform runs fun _ => none) plots).1.clientResults ∧
      ((plotMain platform (finishAll platform runs fun _ => none) plots).2 = true ↔
        ¬ HasData "server_report.csv".toList runs ∧ ¬ HasData "client_report.csv".toList runs) ∧
      ((∀ r ∈ runs, r.benchmark ≠ .program .server ∧ r.benchmark ≠ .program .client) →
        plotMain platform (finishAll platform runs fun _ => none) plots = (plots, true)) := by
  refine ⟨?_, ?_, ?_, fun hothers => ?_⟩
  · rw [plotMain_eq]
    exact shows plots.serverResults
  · rw [plotMain_eq]
    exact shows plots.clientResults
  · rw [plotMain_eq, Bool.and_eq_true, loaded_iff, loaded_iff]
  · have hserver : ∀ r ∈ runs, r.leaves "server_report.csv".toList = false := by
      intro r hr
      rw [Bool.eq_false_iff]
      intro h
      exact (hothers r hr).1 (Benchmark.eq_server_of_mem_fnames (FinishedRun.mem_fnames h))
    have hclient : ∀ r ∈ runs, r.leaves "client_report.csv".toList = false := by
      intro r hr
      rw [Bool.eq_false_iff]
      intro h
      exact (hothers r hr).2 (Benchmark.eq_client_of_mem_fnames (FinishedRun.mem_fnames h))
    rw [plotMain, finishAll_other hserver, finishAll_other hclient]
    rfl

/-- One shard of `server` counts one datagram before its tick, and the signal comes. -/
def serverOnceRun : List (ProcessEvent 1 (DatagramEvent ReceiveEvent) Bool) :=
  [.reporterSet shardZero true, .advance, .callRun shardZero true,
    .continuation shardZero (.loop (.received 16)), .continuation shardZero (.loop .top),
    .continuation shardZero (.tick 5000000000), .signal, .exitStop shardZero,
    .continuation shardZero (.loop (.received 16)), .continuation shardZero (.loop .top), .advance,
    .snapshot shardZero, .advance]

/-- One shard of `client` is stopped before its timer has fired. -/
def clientAtOnceRun : List (ProcessEvent 1 (DatagramEvent SendEvent) Bool) :=
  [.reporterSet shardZero true, .advance, .callRun shardZero true, .signal, .exitStop shardZero,
    .continuation shardZero (.loop .sent), .continuation shardZero (.loop .top), .advance,
    .snapshot shardZero, .advance]

def serverOnce : FinishedRun where
  benchmark := .program .server
  shards := 1
  events := serverOnceRun
  final := ((UdpServer.system 1).exec (UdpServer.start 1) serverOnceRun).get (by decide +kernel)
  run := (Option.some_get _).symm
  reported := Or.inl (by decide +kernel)
  opens _ := true

def clientAtOnce : FinishedRun where
  benchmark := .program .client
  shards := 1
  events := clientAtOnceRun
  final := ((Process.system (datagramService clientLoop) 1).exec
    (Process.start (datagramService clientLoop) 1) clientAtOnceRun).get (by decide +kernel)
  run := (Option.some_get _).symm
  reported := Or.inl (by decide +kernel)
  opens _ := true

def duplexOnce : FinishedRun where
  benchmark := .program (.udpDuplex Udp.defaultConfig)
  shards := 1
  events := Benchmark.duplexRun
  final := Benchmark.afterDuplex
  run := (Option.some_get _).symm
  reported := Or.inl (by decide +kernel)
  opens _ := true

def serverReport : ReportFile (datagramService serverLoop) :=
  datagramReport serverLoop "server_report.csv".toList ReceiveEvent.serverLoop_count

/-- `client` has left a header and `server` a second: the one plot is not there, the other one shows
the packet that has been reported. -/
theorem one_plot_follows : ∃ result,
    (plotMain Report.wholeGigabits
        (finishAll Report.wholeGigabits [clientAtOnce, serverOnce, duplexOnce] fun _ => none)
        {}).1.serverResults = some result ∧
      serverReport.plottedPackets Report.wholeGigabits serverOnce.final result = 1 ∧
      (plotMain Report.wholeGigabits
        (finishAll Report.wholeGigabits [clientAtOnce, serverOnce, duplexOnce] fun _ => none)
        {}).1.clientResults = none ∧
      ¬ (plotMain Report.wholeGigabits
        (finishAll Report.wholeGigabits [clientAtOnce, serverOnce, duplexOnce] fun _ => none)
        {}).2 = true := by
  obtain ⟨hserver, hclient, hdata, -⟩ := plots_follow_reports Report.wholeGigabits
    [clientAtOnce, serverOnce, duplexOnce] {}
  have hlastServer : LastToLeave "server_report.csv".toList [clientAtOnce, serverOnce, duplexOnce]
      serverOnce := ⟨[clientAtOnce], [duplexOnce], rfl, by decide +kernel, by decide +kernel⟩
  have hlastClient : LastToLeave "client_report.csv".toList [clientAtOnce, serverOnce, duplexOnce]
      clientAtOnce := ⟨[], [serverOnce, duplexOnce], rfl, by decide +kernel, by decide +kernel⟩
  have hticked : serverReport.Ticked serverOnce.final := by
    unfold ReportFile.Ticked
    decide +kernel
  have hheader : ¬ (datagramReport clientLoop "client_report.csv".toList
      SendEvent.clientLoop_count).Ticked clientAtOnce.final := by
    unfold ReportFile.Ticked
    decide +kernel
  obtain ⟨-, hplotted⟩ := hserver.last serverOnce hlastServer serverReport List.mem_cons_self rfl
  obtain ⟨hunchanged, -⟩ := hclient.last clientAtOnce hlastClient _ List.mem_cons_self rfl
  obtain ⟨result, hshown, -, -, hpackets⟩ := hplotted hticked
  have hfits : ∀ i, serverReport.counted i serverOnceRun < 2 ^ 64 := by decide +kernel
  refine ⟨result, hshown, (hpackets hfits).trans (show _ = 1 by decide +kernel),
    hunchanged hheader, fun hprinted => ?_⟩
  exact (hdata.mp hprinted).1
    ⟨serverOnce, hlastServer, serverReport, List.mem_cons_self, rfl, hticked⟩

end SeastarExperiments
