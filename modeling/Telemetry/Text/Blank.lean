/-!
# Blank characters

## Main definitions

* `Text.isBlank`: the characters that count as blank, in and above ASCII
* `Text.trim`: a text without the characters of a sort at its ends

## Main results

* `Text.trim_sublist`: trimming leaves a part of a text
-/

namespace Telemetry.Text

/-- The blank code points: the controls from the tabulator to the carriage return, the four separator
controls, the space, the next line control, and the Unicode separators. -/
def blanks : List Nat := [
    9, 10, 11, 12, 13, 28, 29, 30, 31, 32, 133, 160, 5760, 8192, 8193, 8194, 8195, 8196, 8197,
    8198, 8199, 8200, 8201, 8202, 8232, 8233, 8239, 8287, 12288]

/-- **Blank characters.** -/
def isBlank (c : Char) : Bool :=
  blanks.contains c.toNat

/-- The characters without those at the end that satisfy the test. -/
def dropEndWhile (p : Char → Bool) (chars : List Char) : List Char :=
  (chars.reverse.dropWhile p).reverse

/-- **Trimming**: the characters without those at both ends that satisfy the test. -/
def trim (p : Char → Bool) (chars : List Char) : List Char :=
  dropEndWhile p (chars.dropWhile p)

theorem dropEndWhile_sublist (p : Char → Bool) (chars : List Char) : (dropEndWhile p chars).Sublist chars := by
  rw [← List.reverse_sublist, dropEndWhile, List.reverse_reverse]
  exact List.dropWhile_sublist p

theorem trim_sublist (p : Char → Bool) (chars : List Char) : (trim p chars).Sublist chars :=
  (dropEndWhile_sublist p _).trans (List.dropWhile_sublist p)

end Telemetry.Text
