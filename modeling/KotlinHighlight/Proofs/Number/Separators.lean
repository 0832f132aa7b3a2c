import KotlinHighlight.Proofs.Number.Grammar

/-! # Points and signs in numbers

A number starts with a decimal digit. Between word characters it has points and signs: after one of
these come digits, an exponent, a suffix, or the end of the number (`Literal.continues`), and before
a point stands a digit, before a sign the letter of an exponent (`Literal.before_separator`). So none
of the words within a number can be a known word. A number ends in a word character or in a point
(`Literal.last`).
-/

namespace KotlinHighlight.Number

open Unicode (isDecimal isWord)

/-- A suffix is a word or nothing. -/
theorem all_isWord_of_mem_suffixes : ∀ text ∈ suffixes, text.all isWord = true := by
  decide

theorem isWord_of_mem_suffixes {text : Text} (known : text ∈ suffixes) :
    ∀ c ∈ text, isWord c = true :=
  List.all_eq_true.mp (all_isWord_of_mem_suffixes text known)

theorem isWord_of_mem_wholeSuffixes {text : Text} (known : text ∈ wholeSuffixes) :
    ∀ c ∈ text, isWord c = true := by
  have all : ∀ text ∈ wholeSuffixes, text.all isWord = true := by decide
  exact List.all_eq_true.mp (all text known)

theorem isWord_of_mem_letters : ∀ letter ∈ ['e', 'E'], isWord letter = true :=
  List.all_eq_true.mp (by decide)

theorem Digits.isWord {isDigit : Char → Bool} (words : ∀ c, isDigit c = true → isWord c = true)
    {text : Text} (digits : Digits isDigit text) : ∀ c ∈ text, isWord c = true := by
  intro c member
  rcases digits.all c member with digit | rfl
  · exact words c digit
  · decide

theorem Digits.exists_cons {isDigit : Char → Bool} {text : Text} (digits : Digits isDigit text) :
    ∃ digit more, text = digit :: more ∧ isDigit digit = true := by
  cases text with
  | nil => exact absurd digits.first Bool.false_ne_true
  | cons digit more => exact ⟨digit, more, rfl, digits.first⟩

theorem BasedLiteral.isWord {letters : List Char} {isDigit : Char → Bool}
    (all : letters.all isWord = true) (words : ∀ c, isDigit c = true → isWord c = true) {text : Text}
    (literal : BasedLiteral letters isDigit text) : ∀ c ∈ text, isWord c = true := by
  obtain ⟨known, digits, suffix⟩ := literal
  simp only [List.forall_mem_cons, List.forall_mem_append]
  exact ⟨by decide, List.all_eq_true.mp all _ known, digits.isWord words,
    isWord_of_mem_wholeSuffixes suffix⟩

/-- A number with a character that is no word character is decimal. -/
theorem Literal.decimal_of_mem {text : Text} (literal : Literal text) {separator : Char}
    (member : separator ∈ text) (noWord : isWord separator = false) : DecimalLiteral text := by
  cases literal with
  | hexadecimal based =>
    have words := based.isWord (by decide) fun _ => isWord_of_isHexDigit
    exact absurd (noWord.symm.trans (words separator member)) Bool.false_ne_true
  | binary based =>
    have words := based.isWord (by decide) fun _ => isWord_of_isBinaryDigit
    exact absurd (noWord.symm.trans (words separator member)) Bool.false_ne_true
  | decimal literal => exact literal

theorem Literal.exists_cons {text : Text} (literal : Literal text) :
    ∃ digit rest, text = digit :: rest ∧ isDecimal digit = true := by
  cases literal with
  | hexadecimal literal =>
    obtain ⟨-, -, -⟩ := literal
    exact ⟨'0', _, rfl, by decide⟩
  | binary literal =>
    obtain ⟨-, -, -⟩ := literal
    exact ⟨'0', _, rfl, by decide⟩
  | decimal literal =>
    obtain ⟨whole, -, -, -⟩ := literal
    obtain ⟨digit, more, rfl, isDigit⟩ := whole.exists_cons
    exact ⟨digit, _, rfl, isDigit⟩

section After

/-- What may stand in a number after its point or its sign. -/
inductive Follows : Text → Prop
  | digit {c : Char} (rest : Text) : isDecimal c = true → Follows (c :: rest)
  | exponent {letter next : Char} (rest : Text) : letter ∈ ['e', 'E'] →
      (isDecimal next = true ∨ isWord next = false) → Follows (letter :: next :: rest)
  | suffix {text : Text} : text ∈ suffixes → Follows text

/-- Whether the right things follow the points and the signs of a text. -/
def Continues : Text → Prop
  | [] => True
  | c :: rest => (isWord c = false → Follows rest) ∧ Continues rest

/-- A word character needs nothing to follow it. -/
theorem Continues.cons {c : Char} {rest : Text} (word : isWord c = true)
    (continues : Continues rest) : Continues (c :: rest) :=
  ⟨fun noWord => absurd (noWord.symm.trans word) Bool.false_ne_true, continues⟩

theorem Continues.append {words rest : Text} (all : ∀ c ∈ words, isWord c = true)
    (continues : Continues rest) : Continues (words ++ rest) := by
  induction words with
  | nil => exact continues
  | cons c others ih =>
    rw [List.forall_mem_cons] at all
    exact .cons all.1 (ih all.2)

theorem Continues.of_words {words : Text} (all : ∀ c ∈ words, isWord c = true) :
    Continues words := by
  have empty : Continues [] := trivial
  have whole := empty.append all
  rwa [List.append_nil] at whole

/-- After a separator in the text stands what may follow it. -/
theorem Continues.follows {earlier : Text} {separator : Char} {rest : Text}
    (continues : Continues (earlier ++ separator :: rest)) (noWord : isWord separator = false) :
    Follows rest := by
  induction earlier with
  | nil => exact continues.1 noWord
  | cons c others ih => exact ih continues.2

/-- An exponent and a suffix, either of which may be missing, can follow a point. -/
theorem Exponent.continues {exponent suffix : Text} (power : Exponent exponent)
    (known : suffix ∈ suffixes) : Follows (exponent ++ suffix) ∧ Continues (exponent ++ suffix) := by
  have words := Continues.of_words (isWord_of_mem_suffixes known)
  cases power with
  | absent => exact ⟨.suffix known, words⟩
  | @power letter sign digits isLetter isSign some all =>
    have word := isWord_of_mem_letters letter isLetter
    obtain ⟨digit, more, rfl⟩ := List.exists_cons_of_ne_nil some
    have isDigit := all digit List.mem_cons_self
    have rest : Continues (digit :: more ++ suffix) :=
      words.append fun c member => Unicode.isWord_of_isDecimal (all c member)
    simp only [List.mem_cons, List.not_mem_nil, or_false] at isSign
    rcases isSign with rfl | rfl | rfl
    · exact ⟨.exponent _ isLetter (.inl isDigit), .cons word rest⟩
    · exact ⟨.exponent _ isLetter (.inr (by decide)),
        .cons word ⟨fun _ => .digit _ isDigit, rest⟩⟩
    · exact ⟨.exponent _ isLetter (.inr (by decide)),
        .cons word ⟨fun _ => .digit _ isDigit, rest⟩⟩

/-- The right things follow the points and the signs of a number. -/
theorem Literal.continues {text : Text} (literal : Literal text) : Continues text := by
  cases literal with
  | hexadecimal literal =>
    exact .of_words (literal.isWord (by decide) fun _ => isWord_of_isHexDigit)
  | binary literal =>
    exact .of_words (literal.isWord (by decide) fun _ => isWord_of_isBinaryDigit)
  | decimal literal =>
    obtain ⟨whole, fraction, power, suffix⟩ := literal
    obtain ⟨follows, continues⟩ := power.continues suffix
    refine .append (whole.isWord fun _ => Unicode.isWord_of_isDecimal) ?_
    cases fraction with
    | absent => exact continues
    | point => exact ⟨fun _ => follows, continues⟩
    | digits digits =>
      have words := digits.isWord fun _ => Unicode.isWord_of_isDecimal
      obtain ⟨digit, more, rfl, isDigit⟩ := digits.exists_cons
      exact ⟨fun _ => .digit _ isDigit, continues.append words⟩

/-- A number starts with a decimal digit and goes on as numbers do, between boundaries. -/
theorem mem_ends_pattern {cursor last : Cursor} (member : last ∈ pattern.ends cursor) :
    ∃ digit rest, cursor.Reads (digit :: rest) last ∧ isDecimal digit = true ∧
      Continues (digit :: rest) ∧ cursor.atBoundary = true ∧ last.atBoundary = true := by
  obtain ⟨text, literal, reads, boundaries⟩ := mem_ends_pattern_iff.mp member
  obtain ⟨digit, rest, rfl, isDigit⟩ := literal.exists_cons
  exact ⟨digit, rest, reads, isDigit, literal.continues, boundaries⟩

end After

section Before

/-- A character that is no word character stands after the words at the start of a text. -/
theorem exists_append_of_words {words rest before after : Text} {separator : Char}
    (all : ∀ c ∈ words, isWord c = true) (noWord : isWord separator = false)
    (split : words ++ rest = before ++ separator :: after) :
    ∃ more, before = words ++ more ∧ rest = more ++ separator :: after := by
  induction words generalizing before with
  | nil => exact ⟨before, rfl, split⟩
  | cons c others ih =>
    rw [List.forall_mem_cons] at all
    cases before with
    | nil =>
      obtain ⟨rfl, -⟩ := List.cons.inj split
      exact absurd (noWord.symm.trans all.1) Bool.false_ne_true
    | cons d earlier =>
      obtain ⟨rfl, same⟩ := List.cons.inj split
      obtain ⟨more, rfl, later⟩ := ih all.2 same
      exact ⟨more, rfl, later⟩

/-- No separator stands among words. -/
theorem not_mem_of_words {words before after : Text} {separator : Char}
    (all : ∀ c ∈ words, isWord c = true) (noWord : isWord separator = false)
    (split : words = before ++ separator :: after) : False := by
  have word := all separator (split ▸ List.mem_append_right _ List.mem_cons_self)
  exact absurd (noWord.symm.trans word) Bool.false_ne_true

/-- In an exponent and a suffix a separator is a sign after the letter of the exponent. -/
theorem Exponent.before_separator {exponent suffix before after : Text} {separator : Char}
    (power : Exponent exponent) (known : suffix ∈ suffixes) (noWord : isWord separator = false)
    (split : exponent ++ suffix = before ++ separator :: after) :
    separator ∈ ['+', '-'] ∧ ∃ letter ∈ ['e', 'E'], before = [letter] := by
  have words := isWord_of_mem_suffixes known
  cases power with
  | absent => exact (not_mem_of_words words noWord split).elim
  | @power letter sign digits isLetter isSign some all =>
    have start : ∀ c ∈ [letter], isWord c = true :=
      List.forall_mem_singleton.mpr (isWord_of_mem_letters letter isLetter)
    have rest : ∀ c ∈ digits ++ suffix, isWord c = true :=
      List.forall_mem_append.mpr ⟨fun c member => Unicode.isWord_of_isDecimal (all c member), words⟩
    have whole : [letter] ++ (sign ++ (digits ++ suffix)) = before ++ separator :: after := by
      rw [← split, ← List.append_assoc sign]
      rfl
    obtain ⟨more, rfl, later⟩ := exists_append_of_words start noWord whole
    have signed : ∀ c, c :: (digits ++ suffix) = more ++ separator :: after →
        more = [] ∧ separator = c := by
      intro c split
      cases more with
      | nil => exact ⟨rfl, (List.cons.inj split).1.symm⟩
      | cons d earlier => exact (not_mem_of_words rest noWord (List.cons.inj split).2).elim
    simp only [List.mem_cons, List.not_mem_nil, or_false] at isSign
    rcases isSign with rfl | rfl | rfl
    · exact (not_mem_of_words rest noWord later).elim
    · obtain ⟨rfl, rfl⟩ := signed '+' later
      exact ⟨List.mem_cons_self, letter, isLetter, rfl⟩
    · obtain ⟨rfl, rfl⟩ := signed '-' later
      exact ⟨List.mem_cons_of_mem _ List.mem_cons_self, letter, isLetter, rfl⟩

/-- Before a point in a number stands a digit, and before a sign the letter of an exponent. -/
theorem Literal.before_separator {text before after : Text} {separator : Char}
    (literal : Literal text) (noWord : isWord separator = false)
    (split : text = before ++ separator :: after) :
    (separator = '.' ∧ before.getLast?.any isDecimal = true) ∨
      (separator ∈ ['+', '-'] ∧ ∃ letter ∈ ['e', 'E'], before.getLast? = some letter) := by
  have member : separator ∈ text := split ▸ List.mem_append_right _ List.mem_cons_self
  obtain @⟨whole, fraction, power, suffix, isWhole, isFraction, isPower, known⟩ :=
    literal.decimal_of_mem member noWord
  have words := isWhole.isWord fun _ => Unicode.isWord_of_isDecimal
  obtain ⟨more, rfl, later⟩ := exists_append_of_words words noWord split
  -- Behind the digits and the fraction the separator is the sign of the exponent.
  have signed : ∀ earlier rest : Text, power ++ suffix = rest ++ separator :: after →
      separator ∈ ['+', '-'] ∧ ∃ letter ∈ ['e', 'E'], (earlier ++ rest).getLast? = some letter := by
    intro earlier rest split
    obtain ⟨isSign, letter, isLetter, rfl⟩ := isPower.before_separator known noWord split
    exact ⟨isSign, letter, isLetter, List.getLast?_concat⟩
  have pointed : ∀ rest : Text, '.' :: rest = [] ++ separator :: after →
      separator = '.' ∧ (whole ++ []).getLast?.any isDecimal = true := by
    intro rest split
    rw [List.append_nil]
    exact ⟨(List.cons.inj split).1.symm, isWhole.last⟩
  cases isFraction with
  | absent => exact .inr (signed whole more later)
  | point =>
    cases more with
    | nil => exact .inl (pointed _ later)
    | cons point rest =>
      rw [List.append_cons]
      exact .inr (signed _ rest (List.cons.inj later).2)
  | digits digits =>
    cases more with
    | nil => exact .inl (pointed _ later)
    | cons point rest =>
      obtain ⟨more, rfl, last⟩ := exists_append_of_words
        (digits.isWord fun _ => Unicode.isWord_of_isDecimal) noWord (List.cons.inj later).2
      rw [List.append_cons, ← List.append_assoc]
      exact .inr (signed _ more last)

end Before

section Last

/-- Whether a decimal number may end in a character. -/
def isLast (c : Char) : Bool :=
  isDecimal c || c == '.' || ['f', 'F', 'd', 'D', 'l', 'L', 'u', 'U'].contains c

theorem all_getLast?_append {accepts : Char → Bool} {start rest : Text}
    (one : start.getLast?.all accepts = true) (other : rest.getLast?.all accepts = true) :
    (start ++ rest).getLast?.all accepts = true := by
  rw [List.getLast?_append]
  cases found : rest.getLast? with
  | none => exact one
  | some c =>
    rw [found] at other
    exact other

theorem all_getLast?_of_all {accepts : Char → Bool} {text : Text}
    (all : ∀ c ∈ text, accepts c = true) : text.getLast?.all accepts = true := by
  cases found : text.getLast? with
  | none => rfl
  | some c => exact all c (List.mem_of_getLast? found)

theorem Digits.last_isLast {text : Text} (digits : Digits isDecimal text) :
    text.getLast?.all isLast = true := by
  have last := digits.last
  cases found : text.getLast? with
  | none => rfl
  | some c =>
    rw [found] at last
    simp_all [isLast]

/-- A decimal number ends in a digit, in its point or in its suffix. -/
theorem DecimalLiteral.last {text : Text} (literal : DecimalLiteral text) :
    text.getLast?.all isLast = true := by
  have suffixLast : ∀ suffix ∈ suffixes, suffix.getLast?.all isLast = true := by decide
  obtain @⟨whole, fraction, power, suffix, isWhole, isFraction, isPower, known⟩ := literal
  refine all_getLast?_append isWhole.last_isLast (all_getLast?_append ?_ (all_getLast?_append ?_
    (suffixLast suffix known)))
  · cases isFraction with
    | absent => rfl
    | point => decide
    | digits digits =>
      have point : ['.'].getLast?.all isLast = true := by decide
      exact all_getLast?_append point digits.last_isLast
  · cases isPower with
    | absent => rfl
    | @power letter sign digits isLetter isSign some all =>
      have isDigit := all _ (List.getLast_mem some)
      rw [← List.cons_append, List.getLast?_append, List.getLast?_eq_some_getLast some]
      simp [isLast, isDigit]

/-- A number ends in a word character or in its point. -/
theorem Literal.last {text : Text} (literal : Literal text) :
    text.getLast?.all (fun c => isWord c || c == '.') = true := by
  cases literal with
  | hexadecimal literal =>
    have words := literal.isWord (by decide) fun _ => isWord_of_isHexDigit
    exact all_getLast?_of_all fun c member => by simp [words c member]
  | binary literal =>
    have words := literal.isWord (by decide) fun _ => isWord_of_isBinaryDigit
    exact all_getLast?_of_all fun c member => by simp [words c member]
  | decimal literal =>
    have letters : ∀ c ∈ ['f', 'F', 'd', 'D', 'l', 'L', 'u', 'U'], isWord c = true :=
      List.all_eq_true.mp (by decide)
    have last := literal.last
    cases found : text.getLast? with
    | none => rfl
    | some c =>
      rw [found, Option.all_some, isLast, Bool.or_eq_true, Bool.or_eq_true,
        List.contains_iff_mem] at last
      rw [Option.all_some, Bool.or_eq_true]
      rcases last with (digit | point) | letter
      · exact .inl (Unicode.isWord_of_isDecimal digit)
      · exact .inr point
      · exact .inl (letters c letter)

end Last

end KotlinHighlight.Number
