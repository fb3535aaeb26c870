import TreeStore.Text.Blank

/-! Tables of texts with aligned columns, under a line of headers and a line of dashes. A column is as wide
as the bytes of its longest text. -/

namespace TreeStore.Text

/-- A text with spaces after it, up to a number of characters. -/
def padEnd (width : Nat) (s : String) : String :=
  s ++ String.ofList (List.replicate (width - s.length) ' ')

/-- The widths of columns, given those that the rows before need. -/
def widen : List Nat → List String → List Nat
  | w :: ws, cell :: cells => max w cell.utf8ByteSize :: widen ws cells
  | ws, _ => ws

def columnWidths (headers : List String) (rows : List (List String)) : List Nat :=
  rows.foldl widen (headers.map (·.utf8ByteSize))

def alignedLine (widths : List Nat) (cells : List String) : String :=
  trimEnd ("  ".intercalate (List.zipWith padEnd widths cells))

def dashes (width : Nat) : String := String.ofList (List.replicate width '-')

def alignedTable (headers : List String) (rows : List (List String)) : List String :=
  let widths := columnWidths headers rows
  alignedLine widths headers :: "  ".intercalate (widths.map dashes) :: rows.map (alignedLine widths)

end TreeStore.Text
