/-!
# What is wrong with a name

## Main definitions

* `Role`: what a name is for
* `Problem`: why a text is no name
* `Problem.message`: the problem in words
-/

namespace Telemetry.Naming

/-- What a name is for. -/
inductive Role where
  | metric
  | label
  | unit
  deriving DecidableEq

def Role.word : Role → String
  | .metric => "metric"
  | .label => "label"
  | .unit => "unit"

/-- **Why something is no name.** -/
inductive Problem where
  | notText
  | empty
  | unsupported
  | reservedSuffix (suffix : List Char)
  | reservedBeginning (beginning : List Char)
  | reservedWord (word : List Char)
  deriving DecidableEq

/-- **The problem in words.** -/
def Problem.message (role : Role) : Problem → String
  | .notText => "The " ++ role.word ++ " name must be a string."
  | .empty => "The " ++ role.word ++ " name must not be empty."
  | .unsupported => "The " ++ role.word ++ " name contains unsupported characters."
  | .reservedSuffix suffix =>
    "The " ++ role.word ++ " name must not include the '" ++ String.ofList suffix ++ "' suffix."
  | .reservedBeginning beginning =>
    "Label names starting with '" ++ String.ofList beginning ++ "' are reserved."
  | .reservedWord word =>
    "'" ++ String.ofList word ++ "' is a reserved suffix and cannot be used as a unit."

end Telemetry.Naming
