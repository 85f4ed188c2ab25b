import Mathlib.Data.List.Basic

/-! Comma separated text with a header line: how a table of fields is laid out in characters, and
how it is read back as named columns. No field is quoted, so a field is plain when it has no
separator of its own; integers are written in decimal digits. -/

namespace Csv

abbrev Text := List Char

/-! ### Integers -/

def printNat (n : Nat) : Text := Nat.toDigits 10 n

def printInt : Int → Text
  | .ofNat n => printNat n
  | .negSucc n => '-' :: printNat (n + 1)

def readNat (text : Text) : Option Nat :=
  if text ≠ [] ∧ text.all Char.isDigit then some (Nat.ofDigitChars 10 text 0) else none

def readInt (text : Text) : Option Int :=
  if text.head? = some '-' then (readNat text.tail).map fun n : Nat => -(n : Int)
  else (readNat text).map fun n : Nat => (n : Int)

/-- A field that does not contain a separator. -/
def Plain (field : Text) : Prop := ',' ∉ field ∧ '\n' ∉ field

theorem isDigit_of_mem_printNat {n : Nat} {c : Char} (h : c ∈ printNat n) : c.isDigit = true :=
  Nat.isDigit_of_mem_toDigits (by decide) (by decide) h

theorem plain_printNat (n : Nat) : Plain (printNat n) :=
  ⟨fun h => absurd (isDigit_of_mem_printNat h) (by decide),
    fun h => absurd (isDigit_of_mem_printNat h) (by decide)⟩

theorem readNat_printNat (n : Nat) : readNat (printNat n) = some n := by
  have hdigits : (printNat n).all Char.isDigit = true :=
    List.all_eq_true.mpr fun _ hc => isDigit_of_mem_printNat hc
  rw [readNat, if_pos ⟨Nat.toDigits_ne_nil, hdigits⟩, printNat, Nat.ofDigitChars_ten_toDigits]

theorem readInt_printNat (n : Nat) : readInt (printNat n) = some (n : Int) := by
  have hsign : (printNat n).head? ≠ some '-' := by
    intro h
    exact absurd (isDigit_of_mem_printNat (List.mem_of_mem_head? h)) (by decide)
  rw [readInt, if_neg hsign, readNat_printNat]
  rfl

theorem plain_printInt (n : Int) : Plain (printInt n) := by
  cases n with
  | ofNat n => exact plain_printNat n
  | negSucc n =>
      obtain ⟨hcomma, hnewline⟩ := plain_printNat (n + 1)
      constructor
      · exact List.not_mem_cons_of_ne_of_not_mem (by decide) hcomma
      · exact List.not_mem_cons_of_ne_of_not_mem (by decide) hnewline

theorem readInt_printInt (n : Int) : readInt (printInt n) = some n := by
  cases n with
  | ofNat n => exact readInt_printNat n
  | negSucc n =>
      have hsign : (printInt (.negSucc n)).head? = some '-' := rfl
      rw [readInt, if_pos hsign, printInt, List.tail_cons, readNat_printNat]
      rfl

/-! ### Lines and fields -/

/-- The lines, each of them ended by a newline. -/
def unlines (lines : List Text) : Text := lines.flatMap fun line => line ++ ['\n']

def lines (text : Text) : List Text :=
  let pieces := text.splitOn '\n'
  if pieces.getLast? = some [] then pieces.dropLast else pieces

def unfields (fields : List Text) : Text := [','].intercalate fields

def fields (line : Text) : List Text := line.splitOn ','

theorem unlines_eq_intercalate (ls : List Text) :
    unlines ls = ['\n'].intercalate (ls ++ [[]]) := by
  induction ls with
  | nil => rfl
  | cons line ls ih =>
      have hne : ls ++ [[]] ≠ [] := by simp
      obtain ⟨next, rest, hrest⟩ := List.exists_cons_of_ne_nil hne
      calc unlines (line :: ls) = line ++ ['\n'] ++ unlines ls := rfl
        _ = line ++ ['\n'] ++ ['\n'].intercalate (next :: rest) := by rw [ih, hrest]
        _ = ['\n'].intercalate (line :: next :: rest) := by
            rw [List.intercalate_cons_cons]
        _ = ['\n'].intercalate (line :: ls ++ [[]]) := by rw [List.cons_append, hrest]

theorem lines_unlines {ls : List Text} (h : ∀ line ∈ ls, '\n' ∉ line) :
    lines (unlines ls) = ls := by
  have hsplit : (unlines ls).splitOn '\n' = ls ++ [[]] := by
    rw [unlines_eq_intercalate]
    apply List.splitOn_intercalate
    · intro line hline
      rcases List.mem_append.mp hline with hline | hline
      · exact h line hline
      · simp [List.mem_singleton.mp hline]
    · simp
  simp [lines, hsplit]

theorem fields_unfields {fs : List Text} (hne : fs ≠ []) (h : ∀ field ∈ fs, Plain field) :
    fields (unfields fs) = fs :=
  List.splitOn_intercalate ',' (fun field hfield => (h field hfield).1) hne

theorem newline_not_mem_unfields {fs : List Text} (h : ∀ field ∈ fs, Plain field) :
    '\n' ∉ unfields fs := by
  unfold unfields
  induction fs with
  | nil => exact List.not_mem_nil
  | cons field fs ih =>
      have hfield : '\n' ∉ field := (h field List.mem_cons_self).2
      have hrest := ih fun field hmem => h field (List.mem_cons_of_mem _ hmem)
      cases fs with
      | nil => rwa [List.intercalate_singleton]
      | cons next fs =>
          rw [List.intercalate_cons_cons, List.mem_append, List.mem_append]
          rintro ((hmem | hmem) | hmem)
          · exact hfield hmem
          · simp at hmem
          · exact hrest hmem

/-! ### Tables -/

/-- Named columns, and rows with a field for each of them. -/
structure Table where
  columns : List Text
  rows : List (List Text)
  wide : ∀ row ∈ rows, row.length = columns.length
  deriving DecidableEq

/-- The table with these fields, unless some row has another width than the header. -/
def tabulate (columns : List Text) (rows : List (List Text)) : Option Table :=
  if h : ∀ row ∈ rows, row.length = columns.length then some ⟨columns, rows, h⟩ else none

def write (t : Table) : Text := unlines ((t.columns :: t.rows).map unfields)

def read (text : Text) : Option Table :=
  match (lines text).map fields with
  | [] => none
  | columns :: rows => tabulate columns rows

namespace Table

/-- The fields below this name. -/
def column (t : Table) (name : Text) : Option (List Text) :=
  (t.columns.idxOf? name).map fun i => t.rows.map fun row => row.getD i []

def integers (t : Table) (name : Text) : Option (List Int) :=
  (t.column name).bind fun column => column.mapM readInt

/-- A table that can be written: it has columns, and no field contains a separator. -/
structure Writable (t : Table) : Prop where
  nonempty : t.columns ≠ []
  columns : ∀ field ∈ t.columns, Plain field
  rows : ∀ row ∈ t.rows, ∀ field ∈ row, Plain field

/-- What is written is read back. -/
theorem read_write {t : Table} (h : t.Writable) : read (write t) = some t := by
  have hplain : ∀ line ∈ t.columns :: t.rows, line ≠ [] ∧ ∀ field ∈ line, Plain field := by
    intro line hline
    rcases List.mem_cons.mp hline with rfl | hrow
    · exact ⟨h.nonempty, h.columns⟩
    · refine ⟨?_, h.rows line hrow⟩
      rw [← List.length_pos_iff_ne_nil, t.wide line hrow]
      exact List.length_pos_iff_ne_nil.mpr h.nonempty
  have hlines : lines (write t) = (t.columns :: t.rows).map unfields := by
    apply lines_unlines
    intro line hline
    obtain ⟨fs, hfs, rfl⟩ := List.mem_map.mp hline
    exact newline_not_mem_unfields (hplain fs hfs).2
  have hfields : ((t.columns :: t.rows).map unfields).map fields = t.columns :: t.rows := by
    rw [List.map_map]
    apply (List.map_congr_left ?_).trans (List.map_id _)
    intro fs hfs
    exact fields_unfields (hplain fs hfs).1 (hplain fs hfs).2
  rw [read, hlines, hfields]
  exact dif_pos t.wide

end Table

/-- A column of fields each of which reads as some value. -/
theorem mapM_map_some {α β : Type} {print : α → Text} {read : Text → Option β} {value : α → β}
    {xs : List α} (h : ∀ x ∈ xs, read (print x) = some (value x)) :
    (xs.map print).mapM read = some (xs.map value) := by
  induction xs with
  | nil => rfl
  | cons x xs ih =>
      have hrest := ih fun y hy => h y (List.mem_cons_of_mem _ hy)
      rw [List.map_cons, List.mapM_cons, h x List.mem_cons_self, hrest]
      rfl

end Csv
