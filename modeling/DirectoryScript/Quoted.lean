import DirectoryScript.Text
import DirectoryScript.PrintableCharacters

namespace DirectoryScript

def singleQuote : Char := '\x27'

def doubleQuote : Char := '\x22'

/-- A character with no picture is written by its number, in the shortest of three widths. -/
def escapedChar (quote c : Char) : Text :=
  let n := c.toNat
  if c = '\\' || c = quote then ['\\', c]
  else if c = '\n' then ['\\', 'n']
  else if c = '\r' then ['\\', 'r']
  else if c = '\t' then ['\\', 't']
  else if isPrintable c then [c]
  else if n < 0x100 then '\\' :: 'x' :: hexadecimal 2 n
  else if n < 0x10000 then '\\' :: 'u' :: hexadecimal 4 n
  else '\\' :: 'U' :: hexadecimal 8 n

/-- Double quotes stand around a text that holds single quotes and no double ones. -/
def quoteFor (t : Text) : Char :=
  if singleQuote ∈ t ∧ doubleQuote ∉ t then doubleQuote else singleQuote

def quoted (t : Text) : Text :=
  let quote := quoteFor t
  quote :: t.flatMap (escapedChar quote) ++ [quote]

def enumerated : List Text → Text
  | [] => []
  | [item] => item
  | item :: rest => item ++ ", ".toList ++ enumerated rest

def quotedList (ts : List Text) : Text := '[' :: enumerated (ts.map quoted) ++ [']']

end DirectoryScript
