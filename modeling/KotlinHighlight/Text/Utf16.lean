import KotlinHighlight.Text.Basic

/-! # UTF-16

A text as a sequence of 16-bit units: a character up to U+FFFF is one unit, and any other is a pair
of surrogates. Units that come from elsewhere may hold a surrogate without its partner, which is no
text.
-/

namespace KotlinHighlight

/-- A sequence of UTF-16 units, in which surrogates need not be paired. -/
abbrev Units := List UInt16

namespace Units

/-- The first half of the pair for a character beyond U+FFFF. -/
def highHalf (c : Char) : UInt16 :=
  UInt16.ofNat (0xd800 + (c.toNat - 0x10000) / 0x400)

/-- The second half of the pair for a character beyond U+FFFF. -/
def lowHalf (c : Char) : UInt16 :=
  UInt16.ofNat (0xdc00 + (c.toNat - 0x10000) % 0x400)

def ofChar (c : Char) : Units :=
  if c.toNat < 0x10000 then [UInt16.ofNat c.toNat] else [highHalf c, lowHalf c]

def ofText (text : Text) : Units :=
  text.flatMap ofChar

def ofString (text : String) : Units :=
  ofText text.toList

def isHighHalf (unit : UInt16) : Bool :=
  0xd800 ≤ unit.toNat && unit.toNat < 0xdc00

def isLowHalf (unit : UInt16) : Bool :=
  0xdc00 ≤ unit.toNat && unit.toNat < 0xe000

def pairedChar (high low : UInt16) : Char :=
  Char.ofNat (0x10000 + (high.toNat - 0xd800) * 0x400 + (low.toNat - 0xdc00))

/-- The text of some units, unless a half lacks its partner. -/
def toText? : Units → Option Text
  | [] => some []
  | [unit] => if isHighHalf unit || isLowHalf unit then none else some [Char.ofNat unit.toNat]
  | unit :: next :: rest =>
    if isHighHalf unit then
      if isLowHalf next then (toText? rest).map (pairedChar unit next :: ·) else none
    else if isLowHalf unit then none
    else (toText? (next :: rest)).map (Char.ofNat unit.toNat :: ·)

private theorem code_bounds (c : Char) :
    c.toNat < 0x110000 ∧ (c.toNat < 0xd800 ∨ 0xdfff < c.toNat) := by
  have valid : c.toNat < 0xd800 ∨ (0xdfff < c.toNat ∧ c.toNat < 0x110000) := c.valid
  omega

private theorem toNat_ofNat {code : Nat} (within : code < 0x10000) :
    (UInt16.ofNat code).toNat = code := by
  rw [UInt16.toNat_ofNat']
  omega

theorem toText?_cons {unit : UInt16} (high : isHighHalf unit = false)
    (low : isLowHalf unit = false) (units : Units) :
    toText? (unit :: units) = (toText? units).map (Char.ofNat unit.toNat :: ·) := by
  cases units <;> simp [toText?, high, low]

theorem toText?_pair {high low : UInt16} (isHigh : isHighHalf high = true)
    (isLow : isLowHalf low = true) (units : Units) :
    toText? (high :: low :: units) = (toText? units).map (pairedChar high low :: ·) := by
  simp [toText?, isHigh, isLow]

theorem toText?_ofChar_append (c : Char) (units : Units) :
    toText? (ofChar c ++ units) = (toText? units).map (c :: ·) := by
  have bounds := code_bounds c
  unfold ofChar
  split
  · rename_i basic
    have same := toNat_ofNat basic
    have high : isHighHalf (UInt16.ofNat c.toNat) = false := by
      simp only [isHighHalf, same, Bool.and_eq_false_iff, decide_eq_false_iff_not]; omega
    have low : isLowHalf (UInt16.ofNat c.toNat) = false := by
      simp only [isLowHalf, same, Bool.and_eq_false_iff, decide_eq_false_iff_not]; omega
    rw [List.singleton_append, toText?_cons high low, same, Char.ofNat_toNat]
  · rename_i beyond
    have highSame : (highHalf c).toNat = 0xd800 + (c.toNat - 0x10000) / 0x400 :=
      toNat_ofNat (by omega)
    have lowSame : (lowHalf c).toNat = 0xdc00 + (c.toNat - 0x10000) % 0x400 :=
      toNat_ofNat (by omega)
    have high : isHighHalf (highHalf c) = true := by
      simp only [isHighHalf, highSame, Bool.and_eq_true, decide_eq_true_eq]; omega
    have low : isLowHalf (lowHalf c) = true := by
      simp only [isLowHalf, lowSame, Bool.and_eq_true, decide_eq_true_eq]; omega
    have code : 0x10000 + ((highHalf c).toNat - 0xd800) * 0x400 + ((lowHalf c).toNat - 0xdc00) =
        c.toNat := by omega
    rw [List.cons_append, List.singleton_append, toText?_pair high low, pairedChar, code,
      Char.ofNat_toNat]

theorem toText?_ofText (text : Text) : toText? (ofText text) = some text := by
  induction text with
  | nil => rfl
  | cons c rest ih =>
    have split : ofText (c :: rest) = ofChar c ++ ofText rest := rfl
    rw [split, toText?_ofChar_append, ih, Option.map_some]

end Units

namespace Text

def length16 (text : Text) : Nat :=
  (Units.ofText text).length

theorem length16_append (first second : Text) :
    length16 (first ++ second) = length16 first + length16 second := by
  simp [length16, Units.ofText]

/-- Up to U+FFFF a text has one unit for each character. -/
theorem length16_eq_length {text : Text} (basic : ∀ c ∈ text, c.toNat < 0x10000) :
    length16 text = text.length := by
  induction text with
  | nil => rfl
  | cons c rest ih =>
    have single : length16 [c] = 1 := by
      simp [length16, Units.ofText, Units.ofChar, basic c List.mem_cons_self]
    have more := ih fun d member => basic d (List.mem_cons_of_mem c member)
    have split := length16_append [c] rest
    simp only [List.singleton_append] at split
    simp [split, single, more, Nat.add_comm]

end Text

end KotlinHighlight
