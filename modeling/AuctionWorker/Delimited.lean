import Mathlib

/-!
# Delimited files

A table as a text: the fields of a row between separators, every row followed by a
terminator. Fields that contain neither are read back as they were written
(`rows_write`). Reading the rows by a partial function `row?` that undoes the fields of
a record reads back the records (`read_write`).
-/

namespace AuctionWorker

namespace Delimited

variable {α : Type*} [DecidableEq α] (separator terminator : α)

/-! ## Writing -/

/-- The text of one row. -/
def line (fields : List (List α)) : List α :=
  [separator].intercalate fields ++ [terminator]

def write (rows : List (List (List α))) : List α :=
  rows.flatMap (line separator terminator)

/-! ## Reading -/

/-- What follows the last terminator is a line unless it is empty. -/
def lines (text : List α) : List (List α) :=
  if (text.splitOn terminator).getLast? = some [] then (text.splitOn terminator).dropLast
  else text.splitOn terminator

def rows (text : List α) : List (List (List α)) :=
  (lines terminator text).map (List.splitOn separator)

/-- A file whose rows are records. -/
def read {ρ : Type*} (row? : List (List α) → Option ρ) (text : List α) : Option (List ρ) :=
  (rows separator terminator text).mapM row?

/-! ## Reading what was written -/

/-- A field without the two delimiters. -/
def Undelimited (field : List α) : Prop :=
  separator ∉ field ∧ terminator ∉ field

variable {separator terminator}

omit [DecidableEq α] in
theorem terminator_notMem_intercalate (hne : separator ≠ terminator) {fields : List (List α)}
    (h : ∀ field ∈ fields, Undelimited separator terminator field) :
    terminator ∉ [separator].intercalate fields := by
  induction fields with
  | nil => exact List.not_mem_nil
  | cons field fields ih =>
      rw [List.forall_mem_cons] at h
      cases fields with
      | nil =>
          rw [List.intercalate_singleton]
          exact h.1.2
      | cons next fields =>
          rw [List.intercalate_cons_cons, List.append_assoc]
          simp only [List.mem_append, List.mem_singleton, not_or]
          exact ⟨h.1.2, hne.symm, ih h.2⟩

theorem splitOn_write (hne : separator ≠ terminator) {rows : List (List (List α))}
    (h : ∀ row ∈ rows, ∀ field ∈ row, Undelimited separator terminator field) :
    (write separator terminator rows).splitOn terminator
      = rows.map [separator].intercalate ++ [[]] := by
  induction rows with
  | nil => exact List.splitOn_nil terminator
  | cons row rows ih =>
      rw [List.forall_mem_cons] at h
      have hrow := terminator_notMem_intercalate hne h.1
      rw [write, List.flatMap_cons, line, List.append_assoc, List.singleton_append,
        List.splitOn_append_cons_self_of_not_mem hrow]
      exact congrArg (_ :: ·) (ih h.2)

/-- **Rows without delimiters** in their fields are read back. -/
theorem rows_write (hne : separator ≠ terminator) {table : List (List (List α))}
    (h : ∀ row ∈ table, row ≠ [] ∧ ∀ field ∈ row, Undelimited separator terminator field) :
    rows separator terminator (write separator terminator table) = table := by
  have hsplit := splitOn_write hne fun row hrow => (h row hrow).2
  rw [rows, lines, hsplit, if_pos List.getLast?_concat, List.dropLast_concat, List.map_map]
  refine (List.map_congr_left fun row hrow => ?_).trans (List.map_id table)
  exact List.splitOn_intercalate separator (fun field hfield => ((h row hrow).2 field hfield).1)
    (h row hrow).1

/-- **Records** that `row?` reads off their fields are read back. -/
theorem read_write {ρ : Type*} {fields : ρ → List (List α)} {row? : List (List α) → Option ρ}
    (hne : separator ≠ terminator) {records : List ρ}
    (hplain : ∀ record ∈ records,
      fields record ≠ [] ∧ ∀ field ∈ fields record, Undelimited separator terminator field)
    (hrow : ∀ record ∈ records, row? (fields record) = some record) :
    read separator terminator row? (write separator terminator (records.map fields))
      = some records := by
  rw [read, rows_write hne (List.forall_mem_map.mpr hplain)]
  clear hplain
  induction records with
  | nil => rfl
  | cons record records ih =>
      rw [List.forall_mem_cons] at hrow
      rw [List.map_cons, List.mapM_cons, hrow.1, ih hrow.2]
      rfl

end Delimited

end AuctionWorker
