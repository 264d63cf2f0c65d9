import DirectoryScript.Directory

namespace DirectoryScript

inductive Verb where
  | dir
  | mkdir
  | cd
  | up
  | mv
  | tree
deriving DecidableEq, Inhabited

namespace Verb

def all : List Verb := [dir, mkdir, cd, up, mv, tree]

def word : Verb → Text
  | dir => "dir".toList
  | mkdir => "mkdir".toList
  | cd => "cd".toList
  | up => "up".toList
  | mv => "mv".toList
  | tree => "tree".toList

def ofWord? (t : Text) : Option Verb := all.find? fun v => v.word = t

def takesSource : Verb → Bool
  | mkdir | cd | mv => true
  | dir | up | tree => false

def takesDestination : Verb → Bool
  | mv => true
  | dir | mkdir | cd | up | tree => false

theorem ofWord?_word (v : Verb) : ofWord? v.word = some v := by cases v <;> decide

theorem word_of_ofWord? {t : Text} {v : Verb} (h : ofWord? t = some v) : v.word = t := by
  simpa using List.find?_some h

end Verb

def verbWidth : Nat := 8

def sourceWidth : Nat := 8

/-- A command as the script spells it, with the line that it was read from. -/
structure Command where
  verb : Verb
  source : Text := []
  destination : Text := []
  line : Text := []
deriving DecidableEq

def echoLabel : Text := "Command: ".toList

/-- The verb fills its column only before a source, the source only before a destination. -/
def Command.written (c : Command) : Text :=
  (if c.source = [] then c.verb.word else pad verbWidth c.verb.word) ++
    (if c.destination = [] then c.source else pad sourceWidth c.source) ++ c.destination

def Command.echo (c : Command) : Text := echoLabel ++ c.written

end DirectoryScript
