import Telemetry.Text.Quoted

/-!
# Written forms

The written form of a value shows its structure: words, quoted texts, and lists, tuples, dictionaries and
records of written forms. A record shows its name and its named fields.

## Main definitions

* `Display`: the structure that a written form shows
* `Display.chars`: the written form
-/

namespace Telemetry

/-- **The structure of a written form.** -/
inductive Display where
  | word (chars : List Char)
  | text (chars : List Char)
  | octets (bytes : List UInt8)
  | tuple (items : List Display)
  | list (items : List Display)
  | dict (entries : List (Display × Display))
  | record (name : String) (fields : List (String × Display))

namespace Display

def comma : List Char := [',', ' ']

def byteChars (quote : Char) (byte : UInt8) : List Char :=
  if byte.toNat < 128 then Text.escape quote (Char.ofNat byte.toNat)
  else '\\' :: 'x' :: Text.hexDigits 2 byte.toNat

/-- Bytes between quotes, marked by a `b`. -/
def octetChars (bytes : List UInt8) : List Char :=
  let quote := Text.quoteFor (bytes.map fun byte => Char.ofNat byte.toNat)
  'b' :: quote :: (bytes.flatMap (byteChars quote) ++ [quote])

mutual

/-- **The written form.** A tuple of one item has a comma behind it. -/
def chars : Display → List Char
  | .word chars => chars
  | .text chars => Text.quoted chars
  | .octets bytes => octetChars bytes
  | .tuple items =>
    match items with
    | [] => ['(', ')']
    | [item] => '(' :: (item.chars ++ [',', ')'])
    | items => '(' :: (itemsChars items ++ [')'])
  | .list items => '[' :: (itemsChars items ++ [']'])
  | .dict entries => '\x7b' :: (entriesChars entries ++ ['\x7d'])
  | .record name fields => name.toList ++ '(' :: (fieldsChars fields ++ [')'])

def itemsChars : List Display → List Char
  | [] => []
  | item :: rest => item.chars ++ (if rest.isEmpty then [] else comma ++ itemsChars rest)

/-- Entries of a dictionary with commas between them. -/
def entriesChars : List (Display × Display) → List Char
  | [] => []
  | (key, value) :: rest =>
    key.chars ++ ':' :: ' ' :: value.chars ++
      (if rest.isEmpty then [] else comma ++ entriesChars rest)

/-- Fields of a record with commas between them. -/
def fieldsChars : List (String × Display) → List Char
  | [] => []
  | (name, value) :: rest =>
    name.toList ++ '=' :: value.chars ++ (if rest.isEmpty then [] else comma ++ fieldsChars rest)

end

def render (d : Display) : String :=
  String.ofList d.chars

def ofString (s : String) : Display :=
  .text s.toList

end Display

end Telemetry
