import KotlinHighlight.Text.Utf16

/-! # Texts as UTF-16

Reading units as a text undoes writing a text as units, and the other way round: units that are read at
all are those of the text that they are read as (`toText?_eq_some_iff`).
-/

namespace KotlinHighlight.Units

theorem toNat_ofNat_of_valid {code : Nat} (valid : code < 0xd800 ∨ 0xdfff < code ∧ code < 0x110000) :
    (Char.ofNat code).toNat = code := by
  have isValid : code.isValidChar := valid
  rw [Char.ofNat, dif_pos isValid]
  rfl

/-- A unit that is no half of a pair is the unit of the character that it stands for. -/
theorem ofChar_ofNat {unit : UInt16} (high : isHighHalf unit = false) (low : isLowHalf unit = false) :
    ofChar (Char.ofNat unit.toNat) = [unit] := by
  have bound := unit.toNat_lt
  simp only [isHighHalf, isLowHalf, Bool.and_eq_false_iff, decide_eq_false_iff_not] at high low
  rw [ofChar, toNat_ofNat_of_valid (by omega), if_pos (by omega), UInt16.ofNat_toNat]

/-- The two halves of a pair are the units of the character that they stand for. -/
theorem ofChar_pairedChar {high low : UInt16} (isHigh : isHighHalf high = true)
    (isLow : isLowHalf low = true) : ofChar (pairedChar high low) = [high, low] := by
  simp only [isHighHalf, isLowHalf, Bool.and_eq_true, decide_eq_true_eq] at isHigh isLow
  have code : (pairedChar high low).toNat =
      0x10000 + (high.toNat - 0xd800) * 0x400 + (low.toNat - 0xdc00) :=
    toNat_ofNat_of_valid (by omega)
  have first : 0xd800 + ((pairedChar high low).toNat - 0x10000) / 0x400 = high.toNat := by omega
  have second : 0xdc00 + ((pairedChar high low).toNat - 0x10000) % 0x400 = low.toNat := by omega
  rw [ofChar, if_neg (by omega), highHalf, lowHalf, first, second, UInt16.ofNat_toNat,
    UInt16.ofNat_toNat]

/-- Units that are read as a text are the units of that text. -/
theorem ofText_of_toText? {units : Units} {text : Text} (read : toText? units = some text) :
    ofText text = units := by
  fun_induction toText? units generalizing text with
  | case1 =>
    obtain rfl := Option.some.inj read
    rfl
  | case2 unit half => exact absurd read (by simp)
  | case3 unit whole =>
    obtain rfl := Option.some.inj read
    simp only [Bool.not_eq_true, Bool.or_eq_false_iff] at whole
    rw [ofText, List.flatMap_singleton, ofChar_ofNat whole.1 whole.2]
  | case4 unit next rest high low ih =>
    obtain ⟨more, later, rfl⟩ := Option.map_eq_some_iff.mp read
    rw [ofText, List.flatMap_cons, ofChar_pairedChar high low]
    exact congrArg (fun units => unit :: next :: units) (ih later)
  | case5 => exact absurd read (by simp)
  | case6 => exact absurd read (by simp)
  | case7 unit next rest notHigh notLow ih =>
    obtain ⟨more, later, rfl⟩ := Option.map_eq_some_iff.mp read
    rw [ofText, List.flatMap_cons, ofChar_ofNat (by simpa using notHigh) (by simpa using notLow)]
    exact congrArg (unit :: ·) (ih later)

/-- Units are read as a text just if they are its units. -/
theorem toText?_eq_some_iff {units : Units} {text : Text} :
    toText? units = some text ↔ units = ofText text := by
  constructor
  · exact fun read => (ofText_of_toText? read).symm
  · rintro rfl
    exact toText?_ofText text

end KotlinHighlight.Units
