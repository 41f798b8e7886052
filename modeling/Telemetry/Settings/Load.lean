import Telemetry.Error
import Telemetry.Settings
import Telemetry.Settings.Document

/-!
# Loading settings

Settings are loaded from a document, in which the environment may override the log level and the text in
front of all names.

## Main definitions

* `Environment`: what the environment overrides
* `LoadError`: why settings cannot be loaded
* `Settings.ofDocument`: the settings in what a document is
* `Settings.override`: a document with one part overridden
* `Settings.load`: the settings in a document under an environment
-/

namespace Telemetry

def Datum.isText : Datum → Bool
  | .text _ => true
  | _ => false

/-- **What the environment overrides.** An empty text overrides nothing. -/
structure Environment where
  logLevel : Option String
  nameLead : Option String

/-- **Why settings cannot be loaded.** -/
inductive LoadError where
  | missingFile (path : String)
  | argument (e : ArgumentError)
  | notMapping (sort : String)
  | keyNotText
  | invalid (findings : List Finding)
  deriving DecidableEq

namespace LoadError

/-- **The cause in words.** -/
def report : LoadError → Report
  | .missingFile path => .plain .missingFile ("Configuration file not found: " ++ path)
  | .argument e => e.report
  | .notMapping sort =>
    .plain .wrongValue
      ("Configuration validation failed: promsnap.config.Config() argument after ** must be a mapping, not "
        ++ sort)
  | .keyNotText =>
    .plain .wrongValue "Configuration validation failed: keywords must be strings"
  | .invalid _ => .plain .wrongValue "Configuration validation failed"

/-- What is wrong with the parts of the document. -/
def findings : LoadError → List Finding
  | .invalid findings => findings
  | _ => []

end LoadError

namespace Settings

/-- **The settings in what a document is**, which has to be a dictionary with texts as its keys. -/
def ofDocument : Datum → Except LoadError Settings
  | .dict entries =>
    if entries.all fun entry => entry.1.isText then (ofEntries entries).mapError .invalid
    else .error .keyNotText
  | d => .error (.notMapping d.typeName)

/-- Why nothing is assigned in a section that is no dictionary. -/
def sectionError : Datum → ArgumentError
  | .list _ => .badIndex
  | d => .unassignable d.typeName

/-- **A document with one entry of a section overridden.** A section that is missing is added. -/
def override (title key : String) (value : Option String) (document : Document) : Except LoadError Document :=
  match value with
  | none | some "" => .ok document
  | some value =>
    match document.entries? document.top with
    | none => .error (.argument (.noAttribute document.value.typeName "setdefault"))
    | some _ =>
      let part := document.part document.top title
      match document.entries? part with
      | none => .error (.argument (sectionError (document.read 0 part)))
      | some inner => .ok (document.assignSection title (Datum.insertEntry inner (.text key) (.plain (.text value))))

/-- A document as it is read: what counts as false stands for the empty one. -/
def effective (document : Document) : Document :=
  if document.value.isTruthy then document else .ofDatum (.dict [])

/-- **The settings in a document under an environment.** -/
def load (environment : Environment) (document : Document) : Except LoadError Settings := do
  -- Sections are overridden before anything is checked.
  let document ← override "global" "log_level" environment.logLevel (effective document)
  let document ← override "pipeline" "name_prefix" environment.nameLead document
  ofDocument document.value

end Settings

end Telemetry
