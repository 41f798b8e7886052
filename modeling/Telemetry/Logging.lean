import Telemetry.Argument
import Telemetry.Settings

/-!
# Setting up logging

The program logs through one handler. The first call installs it and decides the form of its entries; every
call sets the levels.

## Main definitions

* `LogLevel.ofName?`: the level of a name
* `LogFormat.layout`: the layout of entries
* `Logging`: the handler and the levels
* `Logging.setUp`: the effect of a call
-/

namespace Telemetry

namespace LogLevel

def named : List (String × Nat) :=
  [("CRITICAL", 50), ("FATAL", 50), ("ERROR", 40), ("WARNING", 30), ("WARN", 30), ("INFO", 20),
    ("DEBUG", 10), ("NOTSET", 0)]

/-- The level that stands in for unknown names. -/
def info : Nat := 20

/-- The least level of libraries. -/
def warning : Nat := 30

/-- A character in capitals, as far as names of levels go. The dotless `ı` and the long `ſ` have ASCII
capitals. -/
def capital (c : Char) : Char :=
  if c = 'ı' then 'I' else if c = 'ſ' then 'S' else c.toUpper

/-- **The level of a name**, in small letters or capitals. -/
def ofName? (name : String) : Option Nat :=
  named.lookup (String.ofList (name.toList.map capital))

/-- The level that is handed over. -/
def ofDatum : Datum → Except Error Nat
  | .text name => .ok ((ofName? name).getD info)
  | .bytes _ => .ok info
  | d => .error (.argument (.noAttribute d.typeName "upper"))

end LogLevel

namespace LogFormat

/-- **The layout of entries.** -/
def layout : LogFormat → String
  | .text => "%(asctime)s | %(levelname)-8s | %(name)s | %(message)s"
  | .json =>
    "\x7b\"time\": \"%(asctime)s\", \"level\": \"%(levelname)s\", \"logger\": \"%(name)s\", \"message\": \"%(message)s\"\x7d"

def dateLayout : String := "%Y-%m-%d %H:%M:%S"

/-- The form that is handed over; all that names none stands for texts. -/
def ofArgument : Datum → Except Error LogFormat
  | .text "json" => .ok .json
  | d => d.checkKey.map fun _ => .text

end LogFormat

/-- **The handler and the levels** of the program and of libraries. -/
structure Logging where
  handler : LogFormat
  level : Nat
  libraryLevel : Nat
  deriving DecidableEq

namespace Logging

/-- **The effect of a call.** A handler that is installed stays as it is. -/
def setUp (installed : Option Logging) (level format : Datum) : Except Error Logging := do
  let level ← LogLevel.ofDatum level
  let format ← LogFormat.ofArgument format
  return ⟨(installed.map (·.handler)).getD format, level, max level LogLevel.warning⟩

end Logging

end Telemetry
