import Telemetry.Display

/-!
# Reading quoted texts

The escapes of a quoted text can be read back one after the other, whatever is behind them: the first two
characters say how many belong to an escape, and no escape starts with the quote in use. Hence two quoted
texts with something behind them agree only if the texts and what is behind them agree.

## Main definitions

* `Text.hexValue`: the number that hexadecimal digits name
* `Text.unescape?`: one character read back from between quotes

## Main results

* `Text.escape_cases`: what an escape can be
* `Text.unescape?_escape`: an escape is read back as its character
* `Text.quoted_append_inj`, `Display.octetChars_append_inj`: quoted texts and bytes are told apart, whatever
  is behind them
-/

namespace Telemetry

-- Powers are those of whole numbers in the core library, whatever else is in scope.
attribute [local instance (2000)] instPowNat

namespace Text

/-! ## Hexadecimal digits -/

def hexDigitValue (c : Char) : Nat :=
  if c.isDigit then c.toNat - '0'.toNat else c.toNat - 'a'.toNat + 10

/-- **The number that hexadecimal digits name.** -/
def hexValue (digits : List Char) : Nat :=
  digits.foldl (fun value c => value * 16 + hexDigitValue c) 0

theorem hexDigitValue_digitChar : ∀ d < 16, hexDigitValue (Nat.digitChar d) = d := by
  decide

/-- Hexadecimal digits name the number that they were made from, as far as the width reaches. -/
theorem hexValue_hexDigits (width number : Nat) :
    hexValue (hexDigits width number) = number % 16 ^ width := by
  induction width generalizing number with
  | zero => simp [hexDigits, hexValue, Nat.mod_one]
  | succ width ih =>
    have hlast : number % 16 < 16 := Nat.mod_lt _ (by decide)
    have hvalue : hexValue (hexDigits (width + 1) number) =
        hexValue (hexDigits width (number / 16)) * 16 + number % 16 := by
      simp only [hexValue, hexDigits, List.foldl_append, List.foldl_cons, List.foldl_nil,
        hexDigitValue_digitChar _ hlast]
    rw [hvalue, ih, Nat.pow_succ, Nat.mul_comm (16 ^ width) 16, Nat.mod_mul]
    omega

/-! ## Escapes -/

/-- The character whose code point has so many hexadecimal digits, and what is behind them. -/
def readCode (width : Nat) (chars : List Char) : Char × List Char :=
  (Char.ofNat (hexValue (chars.take width)), chars.drop width)

/-- **One character read back** from between quotes, and what is behind it. -/
def unescape? : List Char → Option (Char × List Char)
  | [] => none
  | '\\' :: 'n' :: rest => some ('\n', rest)
  | '\\' :: 'r' :: rest => some ('\r', rest)
  | '\\' :: 't' :: rest => some ('\t', rest)
  | '\\' :: 'x' :: rest => some (readCode 2 rest)
  | '\\' :: 'u' :: rest => some (readCode 4 rest)
  | '\\' :: 'U' :: rest => some (readCode 8 rest)
  | '\\' :: c :: rest => some (c, rest)
  | c :: rest => some (c, rest)

theorem readCode_hexDigits {width : Nat} {c : Char} (h : c.toNat < 16 ^ width) (rest : List Char) :
    readCode width (hexDigits width c.toNat ++ rest) = (c, rest) := by
  have hlength := length_hexDigits width c.toNat
  rw [readCode, List.take_left' hlength, List.drop_left' hlength, hexValue_hexDigits,
    Nat.mod_eq_of_lt h, Char.ofNat_toNat]

theorem unescape?_codeEscape (c : Char) (rest : List Char) :
    unescape? (codeEscape c ++ rest) = some (c, rest) := by
  unfold codeEscape
  split
  · next h => exact congrArg some (readCode_hexDigits (by omega) rest)
  · split
    · next h => exact congrArg some (readCode_hexDigits (by omega) rest)
    · refine congrArg some (readCode_hexDigits ?_ rest)
      exact Nat.lt_of_lt_of_le c.val.toNat_lt (by decide)

def IsQuote (quote : Char) : Prop :=
  quote = '\'' ∨ quote = '"'

theorem isQuote_quoteFor (chars : List Char) : IsQuote (quoteFor chars) := by
  unfold quoteFor
  split
  · exact .inr rfl
  · exact .inl rfl

/-- A character behind a backslash stands for itself, if it marks no other escape. -/
theorem unescape?_backslash {c : Char} (h : c = '\\' ∨ IsQuote c) (rest : List Char) :
    unescape? ('\\' :: c :: rest) = some (c, rest) := by
  rcases h with rfl | rfl | rfl <;> rfl

theorem unescape?_cons {c : Char} (h : c ≠ '\\') (rest : List Char) :
    unescape? (c :: rest) = some (c, rest) := by
  unfold unescape?
  split <;> simp_all

theorem head?_codeEscape (c : Char) : (codeEscape c).head? = some '\\' := by
  unfold codeEscape
  split
  · rfl
  · split <;> rfl

/-- **What an escape can be**: a backslash and a mark, the character itself, or its code point. -/
theorem escape_cases {quote : Char} (hquote : IsQuote quote) (c : Char) :
    (∃ mark, escape quote c = ['\\', mark] ∧
        ∀ rest, unescape? ('\\' :: mark :: rest) = some (c, rest)) ∨
      (escape quote c = [c] ∧ c ≠ '\\' ∧ c ≠ quote) ∨ escape quote c = codeEscape c := by
  unfold escape
  split
  · next hself =>
    refine .inl ⟨c, rfl, unescape?_backslash ?_⟩
    rcases hself with rfl | rfl
    · exact .inl rfl
    · exact .inr hquote
  · next hself =>
    split
    · next hc => exact .inl ⟨'n', rfl, fun rest => by rw [hc]; rfl⟩
    · split
      · next hc => exact .inl ⟨'r', rfl, fun rest => by rw [hc]; rfl⟩
      · split
        · next hc => exact .inl ⟨'t', rfl, fun rest => by rw [hc]; rfl⟩
        · split
          · exact .inr (.inl ⟨rfl, fun hc => hself (.inl hc), fun hc => hself (.inr hc)⟩)
          · exact .inr (.inr rfl)

/-- **An escape is read back as its character**, whatever is behind it. -/
theorem unescape?_escape {quote : Char} (hquote : IsQuote quote) (c : Char) (rest : List Char) :
    unescape? (escape quote c ++ rest) = some (c, rest) := by
  rcases escape_cases hquote c with ⟨mark, hmark, hread⟩ | ⟨hself, hne, -⟩ | hcode
  · rw [hmark]
    exact hread rest
  · rw [hself]
    exact unescape?_cons hne rest
  · rw [hcode]
    exact unescape?_codeEscape c rest

theorem head?_escape {quote : Char} (hquote : IsQuote quote) (c : Char) :
    ∃ first, (escape quote c).head? = some first ∧ first ≠ quote := by
  have hbackslash : '\\' ≠ quote := by rcases hquote with rfl | rfl <;> decide
  rcases escape_cases hquote c with ⟨mark, hmark, -⟩ | ⟨hself, -, hne⟩ | hcode
  · exact ⟨'\\', by rw [hmark]; rfl, hbackslash⟩
  · exact ⟨c, by rw [hself]; rfl, hne⟩
  · exact ⟨'\\', by rw [hcode, head?_codeEscape], hbackslash⟩

/-! ## Between quotes -/

/-- Items between quotes are told apart, whatever is behind the closing quote: each is read back from its
escape, and none starts with the quote. -/
theorem flatMap_quote_inj {α : Type} {code : α → List Char} {char : α → Char} {quote : Char}
    (hread : ∀ a rest, unescape? (code a ++ rest) = some (char a, rest))
    (hchar : Function.Injective char)
    (hhead : ∀ a, ∃ first, (code a).head? = some first ∧ first ≠ quote)
    {xs ys : List α} {rest rest' : List Char}
    (h : xs.flatMap code ++ quote :: rest = ys.flatMap code ++ quote :: rest') :
    xs = ys ∧ rest = rest' := by
  have hends (a : α) (tail tail' : List Char) : quote :: tail ≠ code a ++ tail' := by
    intro heq
    obtain ⟨first, hfirst, hne⟩ := hhead a
    obtain ⟨others, hcode⟩ := List.head?_eq_some_iff.1 hfirst
    rw [hcode, List.cons_append, List.cons.injEq] at heq
    exact hne heq.1.symm
  -- Induction on the first list: both texts are read by one character at a time.
  induction xs generalizing ys with
  | nil =>
    cases ys with
    | nil => simpa using h
    | cons b ys => exact absurd (by simpa using h) (hends b rest (ys.flatMap code ++ quote :: rest'))
  | cons a xs ih =>
    cases ys with
    | nil =>
      exact absurd (by simpa using h.symm) (hends a rest' (xs.flatMap code ++ quote :: rest))
    | cons b ys =>
      simp only [List.flatMap_cons, List.append_assoc] at h
      have hread' := congrArg unescape? h
      rw [hread, hread, Option.some.injEq, Prod.mk.injEq] at hread'
      obtain ⟨rfl, hrest⟩ := ih hread'.2
      exact ⟨by rw [hchar hread'.1], hrest⟩

/-- **Quoted texts are told apart**, whatever is behind them. -/
theorem quoted_append_inj {chars chars' rest rest' : List Char}
    (h : quoted chars ++ rest = quoted chars' ++ rest') : chars = chars' ∧ rest = rest' := by
  simp only [quoted, List.cons_append, List.append_assoc, List.cons.injEq, List.nil_append] at h
  obtain ⟨hquote, h⟩ := h
  have hq := isQuote_quoteFor chars'
  rw [hquote] at h
  exact flatMap_quote_inj (unescape?_escape hq) Function.injective_id (head?_escape hq) h

end Text

namespace Display

/-- The character of the code point of a byte. -/
def byteChar (byte : UInt8) : Char :=
  Char.ofNat byte.toNat

theorem toNat_byteChar (byte : UInt8) : (byteChar byte).toNat = byte.toNat := by
  have hvalid : byte.toNat.isValidChar := .inl (Nat.lt_of_lt_of_le byte.toNat_lt (by decide))
  rw [byteChar, Char.ofNat, dif_pos hvalid]
  rfl

theorem byteChar_injective : Function.Injective byteChar := by
  intro a b h
  apply UInt8.toNat_inj.1
  rw [← toNat_byteChar, ← toNat_byteChar, h]

/-- A byte between quotes is escaped as the character of its code point, or by its code point. -/
theorem byteChars_eq (quote : Char) (byte : UInt8) :
    byteChars quote byte = Text.escape quote (byteChar byte) ∨
      byteChars quote byte = Text.codeEscape (byteChar byte) := by
  unfold byteChars
  split
  · exact .inl rfl
  · refine .inr ?_
    have hlt : (byteChar byte).toNat < 0x100 := by
      rw [toNat_byteChar]
      exact byte.toNat_lt
    rw [Text.codeEscape, if_pos hlt, toNat_byteChar]

/-- **Quoted bytes are told apart**, whatever is behind them. -/
theorem octetChars_append_inj {bytes bytes' : List UInt8} {rest rest' : List Char}
    (h : octetChars bytes ++ rest = octetChars bytes' ++ rest') : bytes = bytes' ∧ rest = rest' := by
  simp only [octetChars, List.cons_append, List.append_assoc, List.cons.injEq, List.nil_append,
    true_and] at h
  obtain ⟨hquote, h⟩ := h
  rw [hquote] at h
  have hq := Text.isQuote_quoteFor (bytes'.map fun byte => Char.ofNat byte.toNat)
  refine Text.flatMap_quote_inj (fun byte rest => ?_) byteChar_injective (fun byte => ?_) h
  · rcases byteChars_eq _ byte with hbyte | hbyte <;> rw [hbyte]
    · exact Text.unescape?_escape hq (byteChar byte) rest
    · exact Text.unescape?_codeEscape (byteChar byte) rest
  · rcases byteChars_eq _ byte with hbyte | hbyte <;> rw [hbyte]
    · exact Text.head?_escape hq (byteChar byte)
    · refine ⟨_, Text.head?_codeEscape (byteChar byte), ?_⟩
      rcases hq with hq | hq <;> rw [hq] <;> decide

end Display

end Telemetry
