import Telemetry.Error.Report

/-!
# Failures of arguments

Arguments of the wrong sort, and numbers that cannot be converted.

## Main definitions

* `ArgumentError`: the causes
* `ArgumentError.report`: the causes in words
-/

namespace Telemetry

/-- **What is wrong with an argument.** Sorts are given by their names. -/
inductive ArgumentError where
  | noAttribute (sort member : String)
  | notIterable (sort : String)
  | notOrdered (left right : String)
  | notReal (sort : String)
  | notConvertible (sort : String)
  | badNumeral (written : String)
  | tooLarge
  | textExpected (sort : String)
  | bytesGiven
  | bytesExpected
  | unsupportedOperands (operation left right : String)
  | unexpectedField (target field : String)
  | notJoined (left right : String)
  | notAppended (left right : String)
  | missingFields (target : String) (fields : List String)
  | surplus (target allowed : String) (given : Nat)
  | unknownKind (written : String)
  | unassignable (sort : String)
  | badIndex
  | unhashable (sort : String)
  | noLength (sort : String)
  | notText (sort : String)
  | repeatedArgument (target name : String)
  | notMapping (target sort : String)
  deriving DecidableEq

/-- Names with quotes, a comma behind each but the last, which stands behind "and". -/
def ArgumentError.series : List String → String
  | [] => ""
  | [last] => "and '" ++ last ++ "'"
  | name :: rest => "'" ++ name ++ "', " ++ series rest

/-- Names with quotes, the last behind "and". Two of them need no comma. -/
def ArgumentError.enumerate : List String → String
  | [name] => "'" ++ name ++ "'"
  | [first, last] => "'" ++ first ++ "' and '" ++ last ++ "'"
  | names => series names

/-- **The causes in words.** -/
def ArgumentError.report : ArgumentError → Report
  | .noAttribute sort member =>
    .plain .missingAttribute ("'" ++ sort ++ "' object has no attribute '" ++ member ++ "'")
  | .notIterable sort => .plain .wrongType ("'" ++ sort ++ "' object is not iterable")
  | .notOrdered left right =>
    .plain .wrongType
      ("'<' not supported between instances of '" ++ left ++ "' and '" ++ right ++ "'")
  | .notReal sort => .plain .wrongType ("must be real number, not " ++ sort)
  | .notConvertible sort =>
    .plain .wrongType ("float() argument must be a string or a real number, not '" ++ sort ++ "'")
  | .badNumeral written => .plain .wrongValue ("could not convert string to float: " ++ written)
  | .tooLarge => .plain .outOfRange "int too large to convert to float"
  | .textExpected sort =>
    .plain .wrongType ("expected string or bytes-like object, got '" ++ sort ++ "'")
  | .bytesGiven => .plain .wrongType "cannot use a string pattern on a bytes-like object"
  | .bytesExpected => .plain .wrongType "a bytes-like object is required, not 'str'"
  | .unsupportedOperands operation left right =>
    .plain .wrongType
      ("unsupported operand type(s) for " ++ operation ++ ": '" ++ left ++ "' and '" ++ right ++ "'")
  | .notJoined left right =>
    .plain .wrongType
      ("can only concatenate " ++ left ++ " (not \"" ++ right ++ "\") to " ++ left)
  | .notAppended left right => .plain .wrongType ("can't concat " ++ right ++ " to " ++ left)
  | .unexpectedField target field =>
    .plain .wrongType (target ++ ".__init__() got an unexpected keyword argument '" ++ field ++ "'")
  | .missingFields target fields =>
    let noun := if fields.length = 1 then "argument" else "arguments"
    .plain .wrongType
      (target ++ ".__init__() missing " ++ toString fields.length ++ " required positional " ++ noun ++
        ": " ++ ArgumentError.enumerate fields)
  | .surplus target allowed given =>
    .plain .wrongType
      (target ++ ".__init__() takes " ++ allowed ++ " positional arguments but " ++ toString given ++
        " were given")
  | .unknownKind written => .plain .wrongValue (written ++ " is not a valid MetricKind")
  | .unassignable sort =>
    .plain .wrongType ("'" ++ sort ++ "' object does not support item assignment")
  | .badIndex => .plain .wrongType "list indices must be integers or slices, not str"
  | .unhashable sort => .plain .wrongType ("unhashable type: '" ++ sort ++ "'")
  | .noLength sort => .plain .wrongType ("object of type '" ++ sort ++ "' has no len()")
  | .notText sort => .plain .wrongType ("__str__ returned non-string (type " ++ sort ++ ")")
  | .repeatedArgument target name =>
    .plain .wrongType (target ++ "() got multiple values for argument '" ++ name ++ "'")
  | .notMapping target sort =>
    .plain .wrongType (target ++ "() argument after ** must be a mapping, not " ++ sort)

end Telemetry
