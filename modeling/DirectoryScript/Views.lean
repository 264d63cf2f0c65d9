import DirectoryScript.Directory

namespace DirectoryScript

namespace Directory

/-- Adds an entry in front of the first one with a greater name. -/
def placeInOrder : Directory → Text → Directory → Directory
  | empty, name, inside => entry name inside empty
  | entry first content others, name, inside =>
    if name < first then entry name inside (entry first content others)
    else entry first content (others.placeInOrder name inside)

/-- The same entries with the names in code point order, here and at every depth. -/
def arranged : Directory → Directory
  | empty => empty
  | entry name inside others =>
    (others.arranged.without name).placeInOrder name inside.arranged

/-- The names of the entries in code point order. Everything that is shown follows it. -/
def sortedNames (d : Directory) : List Text := d.arranged.names

end Directory

def cellWidth : Nat := 8

def cellsPerRow : Nat := 10

/-- A name in its cell, cut or filled to the width. -/
def cell (name : Text) : Text := pad cellWidth (name.take cellWidth)

/-- The number of rows that some cells fill, the last one perhaps in part. -/
def rowCount (cells : Nat) : Nat := (cells + (cellsPerRow - 1)) / cellsPerRow

def row (cells : List Text) (i : Nat) : Text :=
  ((cells.drop (cellsPerRow * i)).take cellsPerRow).flatten

/-- Names in columns. Rows keep the spaces at their end. -/
def listing (names : List Text) : Text :=
  join '\n' ((List.range (rowCount names.length)).map (row (names.map cell)))

def tee : Text := "├── ".toList

def corner : Text := "└── ".toList

def bar : Text := "│   ".toList

def gap : Text := "    ".toList

namespace Directory

/-- One line for every directory at any depth, each below its parent, in the order of the entries.
The last entry of a directory has a corner, and no bar runs on beside what is inside it. -/
def drawEntries (margin : Text) : Directory → List Text
  | empty => []
  | entry name inside empty => (margin ++ corner ++ name) :: inside.drawEntries (margin ++ gap)
  | entry name inside others =>
    (margin ++ tee ++ name) :: inside.drawEntries (margin ++ bar) ++ others.drawEntries margin

def draw (margin : Text) (d : Directory) : List Text := d.arranged.drawEntries margin

theorem drawEntries_entry (margin name : Text) (inside others : Directory) :
    (entry name inside others).drawEntries margin =
      (margin ++ (if others = .empty then corner else tee) ++ name) ::
        inside.drawEntries (margin ++ if others = .empty then gap else bar) ++
          others.drawEntries margin := by
  cases others <;> simp [drawEntries]

end Directory

end DirectoryScript
