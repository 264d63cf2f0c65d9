import DirectoryScript.Quoted
import DirectoryScript.Uppercase

namespace DirectoryScript

/-- How grave a log record is, or the least gravity that a log keeps. -/
inductive Level where
  | everything
  | debug
  | info
  | warning
  | error
  | critical
deriving DecidableEq

namespace Level

def rank : Level → Nat
  | everything => 0
  | debug => 10
  | info => 20
  | warning => 30
  | error => 40
  | critical => 50

def name : Level → Text
  | everything => "NOTSET".toList
  | debug => "DEBUG".toList
  | info => "INFO".toList
  | warning => "WARNING".toList
  | error => "ERROR".toList
  | critical => "CRITICAL".toList

/-- Two levels have a second name. -/
def named : List (Text × Level) :=
  ([everything, debug, info, warning, error, critical].map fun l => (l.name, l)) ++
    [("WARN".toList, warning), ("FATAL".toList, critical)]

def ofName? (t : Text) : Option Level := (named.find? fun entry => entry.1 = t).map (·.2)

def unknownMessage (t : Text) : Text := "Unknown level: ".toList ++ quoted t

theorem ofName?_name (l : Level) : ofName? l.name = some l := by cases l <;> decide

end Level

def defaultLevelName : Text := Level.warning.name

/-- The level that a setting asks for, in upper case whether there is such a level or not. -/
def levelName (setting : Option Text) : Text := upper (setting.getD defaultLevelName)

end DirectoryScript
