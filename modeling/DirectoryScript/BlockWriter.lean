import DirectoryScript.FileStore

namespace DirectoryScript

/-- A code point of a string: a character, or a surrogate, which stands for none. -/
inductive CodePoint where
  | char (c : Char)
  | surrogate (n : Fin 0x800)
deriving DecidableEq

/-- The first surrogates in a string, which no encoding has. -/
structure Unencodable where
  start : Nat
  length : Nat
  first : Fin 0x800
deriving DecidableEq

def Unencodable.message (e : Unencodable) : Text :=
  "'utf-8' codec can't encode ".toList ++
    (if e.length = 1 then
      "character '\\u".toList ++ hexadecimal 4 (0xD800 + e.first.val) ++ "' in position ".toList ++
        decimal e.start
    else
      "characters in position ".toList ++ decimal e.start ++ '-' ::
        decimal (e.start + e.length - 1)) ++
    ": surrogates not allowed".toList

def leadingSurrogates : List CodePoint → Nat
  | .surrogate _ :: rest => leadingSurrogates rest + 1
  | _ => 0

def charactersFrom (start : Nat) : List CodePoint → Except Unencodable Text
  | [] => .ok []
  | .char c :: rest => (charactersFrom (start + 1) rest).map (c :: ·)
  | .surrogate n :: rest => .error ⟨start, leadingSurrogates rest + 1, n⟩

/-- A string as text, if it has no surrogates. -/
def characters (string : List CodePoint) : Except Unencodable Text := charactersFrom 0 string

/-- A writer of blocks to the file at a path, with the files and the screen that it writes to and
what the screen leaves out of a text. It may be opened any number of times. The number of blocks
written stays when it is closed, the number of pieces handed over is of all openings. -/
structure BlockWriter where
  path : Text
  echoes : Bool := true
  strip : Text → Text
  written : Nat := 0
  handed : Nat := 0
  store : FileStore
  shown : Text := []

/-- A writer whose file is open, with the place that the path has led to and the bytes that have
not reached the file yet. -/
structure OpenWriter extends BlockWriter where
  place : List Text
  waiting : Bytes := []

/-- Opening empties the file, or makes it if it is not there, and counts the blocks anew. -/
def BlockWriter.opened (w : BlockWriter) : Except OpenProblem OpenWriter :=
  (w.store.placeToWrite w.path).map fun place =>
    { w with store := w.store.write place [], written := 0, place }

/-- What the screen shows of a block, with the line feed after it. -/
def shownBlock (strip : Text → Text) (block : Text) : Text := strip (block ++ ['\n'])

def shownBlocks (strip : Text → Text) (blocks : List Text) : Text :=
  blocks.flatMap (shownBlock strip)

namespace OpenWriter

/-- Hands text over. It waits, and some of what waits goes on to the file. -/
def put (o : OpenWriter) (t : Text) : OpenWriter :=
  let waiting := o.waiting ++ encode t
  let passed := o.store.passes o.handed
  { o with
    store := o.store.extend o.place (waiting.take passed)
    waiting := waiting.drop passed
    handed := o.handed + 1 }

/-- A line feed stands between two blocks, whether they are empty or not. -/
def separate (o : OpenWriter) : OpenWriter := if o.written = 0 then o else o.put ['\n']

def write (o : OpenWriter) (block : Text) : OpenWriter :=
  let put := o.separate.put block
  { put with
    written := put.written + 1
    shown := if put.echoes then put.shown ++ shownBlock put.strip block else put.shown }

def writeAll (o : OpenWriter) (blocks : List Text) : OpenWriter := blocks.foldl write o

/-- Writes strings up to the first that cannot be encoded, which is found out when the line feed
before it has been handed over. -/
def writeStrings (o : OpenWriter) : List (List CodePoint) → OpenWriter × Option Unencodable
  | [] => (o, none)
  | string :: strings =>
    match characters string with
    | .ok block => (o.write block).writeStrings strings
    | .error e => (o.separate, some e)

/-- Closing sends on all that waits. -/
def closed (o : OpenWriter) : BlockWriter :=
  { o.toBlockWriter with store := o.store.extend o.place o.waiting }

end OpenWriter

/-- Opens the writer for each of some lists of strings and writes them. It is closed at the end of
a list, and also where a string cannot be encoded. -/
def BlockWriter.openings (w : BlockWriter) :
    List (List (List CodePoint)) → Except OpenProblem BlockWriter
  | [] => .ok w
  | strings :: more =>
    match w.opened with
    | .error problem => .error problem
    | .ok o => (o.writeStrings strings).1.closed.openings more

end DirectoryScript
