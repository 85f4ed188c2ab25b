import Mathlib.Algebra.BigOperators.Ring.Finset
import SeastarExperiments.BaseCsv
import SeastarExperiments.BaseGroupBy
import SeastarExperiments.Measurement

/-! The report: `dump_measurements` writes the histories of all shards as comma separated text, and
`load_and_aggregate` of the plot script adds the rows of each second up. The two share the names of
the columns. -/

namespace SeastarExperiments

open Csv (Text)

/-- What the report takes from its surroundings: the clock's ticks, what is printed for a throughput,
how the loader reads and sums the numbers of that column, and what it makes of the quotient of two
integers. -/
structure Platform where
  ticksPerMillisecond : Nat
  ticks_pos : 0 < ticksPerMillisecond
  Double : Type
  printDouble : ℚ → Text
  readDouble : Text → Option Double
  sumDoubles : List Double → Double
  divide : Int → Int → Double
  plain_printDouble : ∀ x, Csv.Plain (printDouble x)
  readDouble_printDouble : ∀ x, (readDouble (printDouble x)).isSome

namespace Report

section

variable (platform : Platform)

/-! ### Writing -/

/-- `duration_cast<milliseconds>` rounds towards zero. -/
def milliseconds (m : Measurement) : Int := m.time.tdiv platform.ticksPerMillisecond

def line (m : Measurement) : Text :=
  Csv.printInt (milliseconds platform m) ++ [','] ++ Csv.printNat m.shardId ++ [','] ++
    platform.printDouble m.gbits ++ [','] ++ Csv.printNat m.pps.toNat

/-- The target file after the call; when it cannot be opened, it stays as it is. -/
def dumpMeasurements (isOpen : Bool) (file : Option Text)
    (shardMeasurements : List (List Measurement)) : Option Text :=
  if isOpen then
    some (Csv.unlines ("timestamp,shard,gbits,pps".toList ::
      shardMeasurements.flatMap fun shard => shard.map (line platform)))
  else file

/-! ### Loading -/

/-- What the query uses of a row of the file. -/
structure Sample (Double : Type) where
  time : Int
  gbits : Double
  pps : Int

/-- A row of the query's result, its time in seconds. -/
structure Total (Double : Type) where
  time : Int
  totalGbits : Double
  totalPps : Double

/-- `date_trunc('second', epoch_ms(timestamp))` -/
def truncSecond (timestamp : Int) : Int := timestamp / 1000

/-- `GROUP BY time ORDER BY time`, with a sum of each column and `/ 1000` of the packets. -/
def aggregate (samples : List (Sample platform.Double)) : List (Total platform.Double) :=
  (GroupBy.keys Sample.time samples).map fun time =>
    let group := GroupBy.group Sample.time samples time
    { time
      totalGbits := platform.sumDoubles (group.map Sample.gbits)
      totalPps := platform.divide (group.map Sample.pps).sum 1000 }

def samples (timestamps : List Int) (gbits : List platform.Double) (pps : List Int) :
    List (Sample platform.Double) :=
  List.zipWith (fun timestamp row => ⟨truncSecond timestamp, row.1, row.2⟩) timestamps
    (gbits.zip pps)

/-- There is no result when the file is missing or is no table with these columns. Without a row the
columns are not known to be numbers, and the query fails too. -/
def loadAndAggregate (file : Option Text) : Option (List (Total platform.Double)) := do
  let text ← file
  let table ← Csv.read text
  guard (table.rows ≠ [])
  let timestamps ← table.integers "timestamp".toList
  let gbits ← (← table.column "gbits".toList).mapM platform.readDouble
  let pps ← table.integers "pps".toList
  return aggregate platform (samples platform timestamps gbits pps)

end

/-! ### What is read back -/

variable {platform : Platform} {m : Measurement} {measurements : List Measurement}

/-- The second that a measurement is plotted at. -/
def plottedSecond (platform : Platform) (m : Measurement) : Int :=
  truncSecond (milliseconds platform m)

/-- The second of a measurement. -/
def second (platform : Platform) (m : Measurement) : Int :=
  m.time / (platform.ticksPerMillisecond * 1000)

theorem milliseconds_eq (h : 0 ≤ m.time) :
    milliseconds platform m = m.time / platform.ticksPerMillisecond :=
  Int.tdiv_eq_ediv_of_nonneg h

/-- After the epoch both roundings are downwards. -/
theorem plottedSecond_eq (h : 0 ≤ m.time) : plottedSecond platform m = second platform m := by
  rw [plottedSecond, truncSecond, milliseconds_eq h, second]
  exact Int.ediv_ediv_of_nonneg (Int.natCast_nonneg _)

def fields (platform : Platform) (m : Measurement) : List Text :=
  [Csv.printInt (milliseconds platform m), Csv.printNat m.shardId, platform.printDouble m.gbits,
    Csv.printNat m.pps.toNat]

def columns : List Text :=
  ["timestamp".toList, "shard".toList, "gbits".toList, "pps".toList]

/-- The report as a table. -/
def table (platform : Platform) (measurements : List Measurement) : Csv.Table where
  columns
  rows := measurements.map (fields platform)
  wide := by
    intro row hrow
    obtain ⟨m, -, rfl⟩ := List.mem_map.mp hrow
    rfl

theorem writable_table : (table platform measurements).Writable := by
  have hcolumns : ∀ field ∈ columns, ',' ∉ field ∧ '\n' ∉ field := by decide
  refine ⟨List.cons_ne_nil _ _, hcolumns, ?_⟩
  intro row hrow field hfield
  obtain ⟨m, -, rfl⟩ := List.mem_map.mp hrow
  simp only [fields, List.mem_cons, List.not_mem_nil, or_false] at hfield
  rcases hfield with rfl | rfl | rfl | rfl
  · exact Csv.plain_printInt _
  · exact Csv.plain_printNat _
  · exact platform.plain_printDouble _
  · exact Csv.plain_printNat _

theorem unfields_fields : Csv.unfields (fields platform m) = line platform m := by
  simp [Csv.unfields, fields, line, List.intercalate_cons_cons]

/-- The file is the table's text, the histories one after another. -/
theorem dumpMeasurements_eq (file : Option Text) (shardMeasurements : List (List Measurement)) :
    dumpMeasurements platform true file shardMeasurements =
      some (Csv.write (table platform shardMeasurements.flatten)) := by
  have hlines : (shardMeasurements.flatMap fun shard => shard.map (line platform)) =
      ((shardMeasurements.flatten.map (fields platform)).map Csv.unfields) := by
    rw [List.map_map, List.map_flatten]
    have hline : Csv.unfields ∘ fields platform = line platform := by
      funext m
      exact unfields_fields
    rw [hline]
    rfl
  rw [dumpMeasurements, if_pos rfl, hlines]
  rfl

theorem column_table {name : Text} {i : Nat} (h : columns.idxOf? name = some i) :
    (table platform measurements).column name =
      some (measurements.map fun m => (fields platform m).getD i []) := by
  have hcolumns : (table platform measurements).columns.idxOf? name = some i := h
  rw [Csv.Table.column, hcolumns, Option.map_some]
  exact congrArg some List.map_map

theorem timestamps_table : (table platform measurements).integers "timestamp".toList =
    some (measurements.map (milliseconds platform)) := by
  rw [Csv.Table.integers, column_table (i := 0) (by decide)]
  exact Csv.mapM_map_some fun m _ => Csv.readInt_printInt _

theorem shards_table : (table platform measurements).integers "shard".toList =
    some (measurements.map fun m => (m.shardId : Int)) := by
  rw [Csv.Table.integers, column_table (i := 1) (by decide)]
  exact Csv.mapM_map_some fun m _ => Csv.readInt_printNat _

theorem pps_table : (table platform measurements).integers "pps".toList =
    some (measurements.map fun m => (m.pps.toNat : Int)) := by
  rw [Csv.Table.integers, column_table (i := 3) (by decide)]
  exact Csv.mapM_map_some fun m _ => Csv.readInt_printNat _

/-- What the loader reads for the throughput of a measurement. -/
def double (platform : Platform) (m : Measurement) : platform.Double :=
  (platform.readDouble (platform.printDouble m.gbits)).get (platform.readDouble_printDouble _)

def sample (platform : Platform) (m : Measurement) : Sample platform.Double where
  time := plottedSecond platform m
  gbits := double platform m
  pps := m.pps.toNat

theorem samples_map : samples platform (measurements.map (milliseconds platform))
    (measurements.map (double platform)) (measurements.map fun m => (m.pps.toNat : Int)) =
      measurements.map (sample platform) := by
  induction measurements with
  | nil => rfl
  | cons m measurements ih => exact congrArg (sample platform m :: ·) ih

/-- The loader aggregates a sample for each measurement that has been written. -/
theorem loadAndAggregate_dumpMeasurements (file : Option Text)
    {shardMeasurements : List (List Measurement)} (h : shardMeasurements.flatten ≠ []) :
    loadAndAggregate platform (dumpMeasurements platform true file shardMeasurements) =
      some (aggregate platform (shardMeasurements.flatten.map (sample platform))) := by
  have hrows : (table platform shardMeasurements.flatten).rows ≠ [] :=
    fun hnil => h (List.map_eq_nil_iff.mp hnil)
  have hgbits : ((table platform shardMeasurements.flatten).column "gbits".toList).bind
      (fun column => column.mapM platform.readDouble) =
        some (shardMeasurements.flatten.map (double platform)) := by
    rw [column_table (i := 2) (by decide), Option.bind_some]
    exact Csv.mapM_map_some fun m _ => (Option.some_get _).symm
  rw [dumpMeasurements_eq, loadAndAggregate]
  simp only [Option.bind_eq_bind, Option.bind_some, Csv.Table.read_write writable_table, guard,
    if_pos hrows, Option.pure_def, timestamps_table, pps_table, ← Option.bind_assoc, hgbits,
    samples_map]

/-- Of a report without a measurement there is only the header. -/
theorem loadAndAggregate_header (file : Option Text) {shardMeasurements : List (List Measurement)}
    (h : shardMeasurements.flatten = []) :
    loadAndAggregate platform (dumpMeasurements platform true file shardMeasurements) = none := by
  rw [dumpMeasurements_eq, h, loadAndAggregate]
  simp only [Option.bind_eq_bind, Option.bind_some, Csv.Table.read_write writable_table]
  rfl

/-! ### What the totals are -/

/-- The packets of the measurements of one second. -/
def packetsIn (second : Measurement → Int) (measurements : List Measurement) (time : Int) : Nat :=
  ((GroupBy.group second measurements time).map fun m => m.pps.toNat).sum

section

variable {xs ys : List (Sample platform.Double)} {second : Measurement → Int}

theorem map_time_aggregate :
    (aggregate platform xs).map Total.time = GroupBy.keys Sample.time xs := by
  rw [aggregate, List.map_map]
  exact List.map_id _

/-- The order of the rows of the file shows in no time and in no number of packets. -/
theorem map_time_perm (h : xs.Perm ys) :
    (aggregate platform xs).map Total.time = (aggregate platform ys).map Total.time := by
  rw [map_time_aggregate, map_time_aggregate]
  exact GroupBy.keys_perm h

theorem map_totalPps_perm (h : xs.Perm ys) :
    (aggregate platform xs).map Total.totalPps = (aggregate platform ys).map Total.totalPps := by
  rw [aggregate, aggregate, List.map_map, List.map_map, GroupBy.keys_perm h]
  apply List.map_congr_left
  intro time _
  have hsum : ((GroupBy.group Sample.time xs time).map Sample.pps).sum =
      ((GroupBy.group Sample.time ys time).map Sample.pps).sum :=
    ((GroupBy.group_perm h time).map Sample.pps).sum_eq
  simp only [Function.comp_apply, hsum]

/-- The samples have the seconds of their measurements. -/
theorem keys_samples (h : ∀ m ∈ measurements, plottedSecond platform m = second m) :
    GroupBy.keys Sample.time (measurements.map (sample platform)) =
      GroupBy.keys second measurements := by
  rw [GroupBy.keys, GroupBy.keys, List.map_map]
  exact congrArg (fun times => times.dedup.insertionSort (· ≤ ·)) (List.map_congr_left h)

theorem sum_group_samples (h : ∀ m ∈ measurements, plottedSecond platform m = second m)
    (time : Int) :
    ((GroupBy.group Sample.time (measurements.map (sample platform)) time).map Sample.pps).sum =
      (packetsIn second measurements time : Int) := by
  have hgroup : GroupBy.group Sample.time (measurements.map (sample platform)) time =
      (GroupBy.group second measurements time).map (sample platform) := by
    rw [GroupBy.group, List.filter_map, GroupBy.group]
    apply congrArg
    apply List.filter_congr
    intro m hm
    simp only [Function.comp_apply, sample, h m hm]
  rw [hgroup, packetsIn, Nat.cast_list_sum, List.map_map, List.map_map]
  rfl

end

/-- The table has a row for each of these measurements, in their order. -/
structure Holds (platform : Platform) (measurements : List Measurement) (t : Csv.Table) : Prop where
  rows : t.rows.length = measurements.length
  timestamps : t.integers "timestamp".toList =
    some (measurements.map fun m => m.time / (platform.ticksPerMillisecond : Int))
  shards : t.integers "shard".toList = some (measurements.map fun m => (m.shardId : Int))
  pps : t.integers "pps".toList = some (measurements.map fun m => (m.pps.toNat : Int))

/-- The result adds these measurements up by the second: there is one row for each second that has
a measurement, and its `total_pps` is the quotient of the packets of that second. -/
structure Totals (platform : Platform) (second : Measurement → Int)
    (measurements : List Measurement) (result : List (Total platform.Double)) : Prop where
  increasing : (result.map Total.time).Pairwise (· < ·)
  once : ∀ m ∈ measurements, ∃! t, t ∈ result ∧ t.time = second m
  occupied : ∀ t ∈ result, ∃ m ∈ measurements, second m = t.time
  grouped : ∀ t ∈ result, t.totalPps = platform.divide (packetsIn second measurements t.time) 1000
  conserved : (result.map fun t => packetsIn second measurements t.time).sum =
    (measurements.map fun m => m.pps.toNat).sum

theorem holds_table (h : ∀ m ∈ measurements, 0 ≤ m.time) :
    Holds platform measurements (table platform measurements) where
  rows := List.length_map _
  timestamps := by
    rw [timestamps_table]
    exact congrArg some (List.map_congr_left fun m hm => milliseconds_eq (h m hm))
  shards := shards_table
  pps := pps_table

theorem totals_aggregate {second : Measurement → Int}
    (h : ∀ m ∈ measurements, plottedSecond platform m = second m) :
    Totals platform second measurements
      (aggregate platform (measurements.map (sample platform))) := by
  have htimes : (aggregate platform (measurements.map (sample platform))).map Total.time =
      GroupBy.keys second measurements := map_time_aggregate.trans (keys_samples h)
  refine ⟨?_, ?_, ?_, ?_, ?_⟩
  · rw [htimes]
    exact GroupBy.keys_strict
  · intro m hm
    have hkey : second m ∈
        (aggregate platform (measurements.map (sample platform))).map Total.time := by
      rw [htimes, GroupBy.mem_keys]
      exact ⟨m, hm, rfl⟩
    obtain ⟨t, ht, hsecond⟩ := List.mem_map.mp hkey
    refine ⟨t, ⟨ht, hsecond⟩, ?_⟩
    rintro u ⟨hu, husecond⟩
    obtain ⟨time, -, rfl⟩ := List.mem_map.mp ht
    obtain ⟨time', -, rfl⟩ := List.mem_map.mp hu
    obtain rfl : time' = time := husecond.trans hsecond.symm
    rfl
  · intro t ht
    have hkey : t.time ∈ GroupBy.keys second measurements := htimes ▸ List.mem_map_of_mem ht
    exact GroupBy.mem_keys.mp hkey
  · intro t ht
    obtain ⟨time, -, rfl⟩ := List.mem_map.mp ht
    exact congrArg (platform.divide · 1000) (sum_group_samples h time)
  · calc ((aggregate platform (measurements.map (sample platform))).map fun t =>
          packetsIn second measurements t.time).sum
        = ((GroupBy.keys second measurements).map (packetsIn second measurements)).sum := by
          rw [← htimes, List.map_map]
          rfl
      _ = (measurements.map fun m => m.pps.toNat).sum := GroupBy.sum_groups _

/-- What `dump_measurements` writes of measurements after the epoch, `load_and_aggregate` reads back
and adds up by the second, if there are any; the times and the packets are the same for any other
distribution of the measurements among the shards, a permutation of the shards being one. -/
theorem report_recovered (file : Option Text) (shardMeasurements : List (List Measurement))
    (hpost : ∀ shard ∈ shardMeasurements, ∀ m ∈ shard, 0 ≤ m.time)
    (hsome : shardMeasurements.flatten ≠ []) :
    ∃ text t result,
      dumpMeasurements platform true file shardMeasurements = some text ∧
      Csv.read text = some t ∧ Holds platform shardMeasurements.flatten t ∧
      loadAndAggregate platform (some text) = some result ∧
      Totals platform (second platform) shardMeasurements.flatten result ∧
      ∀ shuffled : List (List Measurement), shuffled.flatten.Perm shardMeasurements.flatten →
        ∃ result',
          loadAndAggregate platform (dumpMeasurements platform true file shuffled) = some result' ∧
          result'.map Total.time = result.map Total.time ∧
          result'.map Total.totalPps = result.map Total.totalPps := by
  have hall : ∀ m ∈ shardMeasurements.flatten, 0 ≤ m.time := by
    intro m hm
    obtain ⟨shard, hshard, hmem⟩ := List.mem_flatten.mp hm
    exact hpost shard hshard m hmem
  have hload : loadAndAggregate platform
      (some (Csv.write (table platform shardMeasurements.flatten))) =
        some (aggregate platform (shardMeasurements.flatten.map (sample platform))) := by
    rw [← dumpMeasurements_eq file]
    exact loadAndAggregate_dumpMeasurements file hsome
  refine ⟨_, _, _, dumpMeasurements_eq file shardMeasurements, Csv.Table.read_write writable_table,
    holds_table hall, hload,
    totals_aggregate fun m hm => plottedSecond_eq (hall m hm), ?_⟩
  intro shuffled hperm
  have hsamples := hperm.map (sample platform)
  have hnonempty : shuffled.flatten ≠ [] := fun hnil =>
    hsome (List.Perm.nil_eq (hnil ▸ hperm)).symm
  exact ⟨_, loadAndAggregate_dumpMeasurements file hnonempty, map_time_perm hsamples,
    map_totalPps_perm hsamples⟩

/-- `system_clock` counts nanoseconds. A throughput of whole gigabits is printed as an integer, and
the loader's numbers are binary64. -/
def wholeGigabits : Platform where
  ticksPerMillisecond := 1000000
  ticks_pos := by decide
  Double := Float.Model
  printDouble x := Csv.printInt x.floor
  readDouble field := (Csv.readInt field).map Float.Model.ofInt
  sumDoubles := List.foldl (· + ·) (Float.Model.ofInt 0)
  divide a b := Float.Model.ofInt a / Float.Model.ofInt b
  plain_printDouble x := Csv.plain_printInt _
  readDouble_printDouble x := by rw [Csv.readInt_printInt, Option.map_some, Option.isSome_some]

/-- Two shards; the first one has two measurements in one second, the second one has one in it and
one in the next. -/
def twoShards : List (List Measurement) :=
  [[{ shardId := 0, time := 5000000000, gbits := 2, pps := 7 },
    { shardId := 0, time := 5999999999, gbits := 0, pps := 1 }],
   [{ shardId := 1, time := 5010000000, gbits := 1, pps := 20 },
    { shardId := 1, time := 6010000000, gbits := 1, pps := 30 }]]

theorem report_recovered_twoShards :
    ∃ text t result,
      dumpMeasurements wholeGigabits true none twoShards = some text ∧
      Csv.read text = some t ∧ Holds wholeGigabits twoShards.flatten t ∧
      loadAndAggregate wholeGigabits (some text) = some result ∧
      Totals wholeGigabits (second wholeGigabits) twoShards.flatten result ∧
      ∀ shuffled : List (List Measurement), shuffled.flatten.Perm twoShards.flatten →
        ∃ result',
          loadAndAggregate wholeGigabits (dumpMeasurements wholeGigabits true none shuffled) =
            some result' ∧
          result'.map Total.time = result.map Total.time ∧
          result'.map Total.totalPps = result.map Total.totalPps :=
  report_recovered none twoShards (by decide) (by decide)

/-- One shard that has ticked once and has counted 1001 packets by then. -/
def oneSecond : List (List Measurement) :=
  [[{ shardId := 0, time := 5000000000, gbits := 1, pps := 1001 }]]

/-- The loader has no table of a report that no shard has ticked for, and the quotient of 1001 is
rounded: a thousand of it are not 1001. -/
theorem not_recovered_oneSecond :
    loadAndAggregate wholeGigabits (dumpMeasurements wholeGigabits true none [[]]) = none ∧
      ∃ t : Total Float.Model,
        loadAndAggregate wholeGigabits (dumpMeasurements wholeGigabits true none oneSecond) =
            some [t] ∧
          Float.Model.ofInt 1000 * t.totalPps ≠
            Float.Model.ofInt (oneSecond.flatten.map fun m => (m.pps.toNat : Int)).sum := by
  refine ⟨loadAndAggregate_header none rfl, _,
    loadAndAggregate_dumpMeasurements none (by decide), ?_⟩
  decide +kernel

end Report

end SeastarExperiments
