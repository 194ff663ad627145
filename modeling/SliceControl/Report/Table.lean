import SliceControl.Text.UpperCase

/-!
# Tables

A table is printed one row a line, the headers in upper case first. Every column is as wide as its
longest cell, measured in bytes of UTF-8, and cells are filled up to that width by characters.
Three blanks stand between columns. The last cell of a line is not filled up, and neither are cells
beyond the last header.
-/

namespace SliceControl.Report

open Text

structure Table where
  headers : List String
  rows : List (List String)
  deriving DecidableEq

namespace Table

/-- Makes columns wide enough for a row. -/
def widen : List Nat → List String → List Nat
  | [], _ => []
  | widths, [] => widths
  | width :: widths, cell :: cells => max width cell.utf8ByteSize :: widen widths cells

/-- The widths of the columns that have a header. -/
def widths (table : Table) : List Nat :=
  table.rows.foldl widen (table.headers.map String.utf8ByteSize)

/-- Blanks of the given number. -/
def blanks (count : Nat) : String := String.ofList (List.replicate count ' ')

/-- A cell filled up to a width. -/
def fill (width : Nat) (cell : String) : String := cell ++ blanks (width - cell.length)

def gap : String := "   "

/-- A line of cells. -/
def line : List Nat → List String → String
  | _, [] => ""
  | _, [cell] => cell
  | [], cell :: cells => cell ++ gap ++ line [] cells
  | width :: widths, cell :: cells => fill width cell ++ gap ++ line widths cells

/-- The printed table; a table without rows is replaced by a remark. -/
def render (table : Table) : String :=
  if table.rows.isEmpty then "No resources found.\n"
  else String.join ((table.headers.map UpperCase.ofText :: table.rows).map fun row =>
    line table.widths row ++ "\n")

end Table

end SliceControl.Report
