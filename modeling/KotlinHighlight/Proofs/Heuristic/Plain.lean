import KotlinHighlight.Proofs.Region

/-! # Plain texts

A text is plain if nothing in it begins anything but a string or a line comment, and the quotes of
each line are paired before the first two slashes and missing after them (`IsPlain`). Such a text is
read character by character: at each place one is in code, in a string or in a comment, and what may
come next depends on that only (`Walk`, `IsPlain.walk`).
-/

namespace KotlinHighlight

namespace Text

def slashes : Text :=
  ['/', '/']

/-- The part of a line before its first two slashes. -/
def beforeSlashes : Text → Text
  | [] => []
  | c :: rest => if slashes.isPrefixOf (c :: rest) then [] else c :: beforeSlashes rest

/-- The part of a line from its first two slashes on. -/
def fromSlashes (line : Text) : Text :=
  line.drop (beforeSlashes line).length

/-- Whether the quotes of a line are paired before its first two slashes and missing after them. -/
def HasPairedQuotes (line : Text) : Prop :=
  (beforeSlashes line).count '"' % 2 = 0 ∧ '"' ∉ fromSlashes line

instance (line : Text) : Decidable (HasPairedQuotes line) :=
  inferInstanceAs (Decidable (_ ∧ _))

/-- Whether a text has no apostrophe, no backslash, no three quotes in a row and no slash with a star
after it. -/
structure IsFree (text : Text) : Prop where
  apostrophe : '\'' ∉ text
  backslash : '\\' ∉ text
  rawQuotes : occurs Region.rawQuotes text = false
  blockOpener : occurs ['/', '*'] text = false

/-- Whether a text has nothing but code, strings and line comments, and no string that goes over the
end of its line. -/
structure IsPlain (text : Text) : Prop extends IsFree text where
  paired : ∀ line ∈ text.splitOnP isLineBreak, HasPairedQuotes line

theorem IsFree.of_cons {c : Char} {rest : Text} (free : IsFree (c :: rest)) :
    IsFree rest ∧ c ≠ '\'' ∧ c ≠ '\\' ∧ Region.rawQuotes.isPrefixOf (c :: rest) = false ∧
      List.isPrefixOf ['/', '*'] (c :: rest) = false := by
  obtain ⟨apostrophe, backslash, rawQuotes, blockOpener⟩ := free
  rw [List.mem_cons, not_or] at apostrophe backslash
  rw [occurs, Bool.or_eq_false_iff] at rawQuotes blockOpener
  exact ⟨⟨apostrophe.2, backslash.2, rawQuotes.2, blockOpener.2⟩, Ne.symm apostrophe.1,
    Ne.symm backslash.1, rawQuotes.1, blockOpener.1⟩

theorem slashes_isPrefixOf_cons (c : Char) (rest : Text) :
    slashes.isPrefixOf (c :: rest) = true ↔ c = '/' ∧ rest.head? = some '/' := by
  rw [slashes, List.isPrefixOf_cons_cons, Bool.and_eq_true, beq_iff_eq, @eq_comm Char]
  apply and_congr_right
  rintro -
  cases rest with
  | nil => exact iff_of_false Bool.false_ne_true nofun
  | cons d rest =>
    rw [List.isPrefixOf_cons_cons, List.isPrefixOf_nil_left, Bool.and_true, beq_iff_eq, List.head?_cons,
      Option.some_inj, eq_comm]

theorem head?_of_splitOnP {text line : Text} {others : List Text}
    (split : text.splitOnP isLineBreak = line :: others) :
    line.head? = text.head?.filter (!isLineBreak ·) := by
  cases text with
  | nil =>
    rw [List.splitOnP_nil] at split
    rw [← (List.cons.inj split).1]
    rfl
  | cons c rest =>
    obtain ⟨first, more, splitRest⟩ :=
      List.exists_cons_of_ne_nil (List.splitOnP_ne_nil isLineBreak rest)
    rw [List.splitOnP_cons_eq_if_modifyHead, splitRest] at split
    by_cases breaks : isLineBreak c = true
    · rw [if_pos breaks] at split
      rw [← (List.cons.inj split).1, List.head?_cons, Option.filter_some, breaks]
      rfl
    · rw [if_neg breaks, List.modifyHead_cons] at split
      rw [← (List.cons.inj split).1, List.head?_cons, List.head?_cons, Option.filter_some,
        Bool.eq_false_iff.mpr breaks]
      rfl

/-- What the text before a place is the start of: code, a string or a line comment. -/
inductive Mode where
  | code
  | string
  | comment
deriving DecidableEq, Repr

/-- Whether a line can go on from a mode. -/
def Mode.Admits (line : Text) : Mode → Prop
  | code => HasPairedQuotes line
  | string => (beforeSlashes line).count '"' % 2 = 1 ∧ '"' ∉ fromSlashes line
  | comment => '"' ∉ line

/-- The texts that can follow in each mode, by their first character. -/
inductive Walk : Mode → Text → Prop
  /-- The text ends, which it does not inside a string. -/
  | done {mode : Mode} : mode ≠ .string → Walk mode []
  /-- A character of code, which opens nothing. -/
  | code {c : Char} {rest : Text} : Region.opening? (c :: rest) = none → c ≠ '"' →
      slashes.isPrefixOf (c :: rest) = false → Walk .code rest → Walk .code (c :: rest)
  /-- The first quote of a string. -/
  | quote {rest : Text} : Region.rawQuotes.isPrefixOf ('"' :: rest) = false → Walk .string rest →
      Walk .code ('"' :: rest)
  /-- A character of a string. -/
  | inside {c : Char} {rest : Text} : c ≠ '"' → c ≠ '\\' → isLineBreak c = false →
      slashes.isPrefixOf (c :: rest) = false → Walk .string rest → Walk .string (c :: rest)
  /-- The second quote of a string. -/
  | unquote {rest : Text} : Walk .code rest → Walk .string ('"' :: rest)
  /-- The two slashes of a comment. -/
  | slashes {rest : Text} : Walk .comment rest → Walk .code ('/' :: '/' :: rest)
  /-- A character of a comment. -/
  | beyond {c : Char} {rest : Text} : c ≠ '"' → isLineBreak c = false → Walk .comment rest →
      Walk .comment (c :: rest)
  /-- The line break after a comment. -/
  | lineBreak {c : Char} {rest : Text} : isLineBreak c = true → Walk .code rest →
      Walk .comment (c :: rest)

/-- A character of a line before the first two slashes. -/
theorem beforeSlashes_cons {c : Char} {rest : Text} (plain : ¬slashes.isPrefixOf (c :: rest) = true) :
    beforeSlashes (c :: rest) = c :: beforeSlashes rest ∧
      fromSlashes (c :: rest) = fromSlashes rest := by
  have before : beforeSlashes (c :: rest) = c :: beforeSlashes rest := if_neg plain
  refine ⟨before, ?_⟩
  rw [fromSlashes, before, List.length_cons, List.drop_succ_cons, fromSlashes]

theorem beforeSlashes_of_slashes {line : Text} (opens : slashes.isPrefixOf line = true) :
    beforeSlashes line = [] ∧ fromSlashes line = line := by
  have before : beforeSlashes line = [] := by
    cases line with
    | nil => rfl
    | cons c rest => exact if_pos opens
  rw [fromSlashes, before]
  exact ⟨rfl, rfl⟩

/-- A character that is no quote takes a line on in its mode, if it does not start two slashes. -/
theorem Mode.Admits.of_cons {mode : Mode} {c : Char} {rest : Text} (admits : mode.Admits (c :: rest))
    (plain : ¬slashes.isPrefixOf (c :: rest) = true) (noQuote : c ≠ '"') : mode.Admits rest := by
  obtain ⟨before, after⟩ := beforeSlashes_cons plain
  cases mode with
  | code =>
    rw [Admits, HasPairedQuotes, before, after, List.count_cons_of_ne noQuote] at admits
    exact admits
  | string =>
    rw [Admits, before, after, List.count_cons_of_ne noQuote] at admits
    exact admits
  | comment => exact fun member => admits (List.mem_cons_of_mem c member)

/-- A quote takes a line from code into a string and from a string into code. -/
theorem Mode.Admits.of_quote {rest : Text} :
    (Mode.code.Admits ('"' :: rest) → Mode.string.Admits rest) ∧
      (Mode.string.Admits ('"' :: rest) → Mode.code.Admits rest) := by
  have plain : ¬slashes.isPrefixOf ('"' :: rest) = true :=
    fun opens => absurd ((slashes_isPrefixOf_cons _ _).mp opens).1 (by decide)
  obtain ⟨before, after⟩ := beforeSlashes_cons plain
  rw [Admits, Admits, Admits, Admits, HasPairedQuotes, HasPairedQuotes, before, after,
    List.count_cons_self]
  exact ⟨fun even => ⟨by omega, even.2⟩, fun odd => ⟨by omega, odd.2⟩⟩

/-- Two slashes stand in code or in a comment, and no quote after them. -/
theorem Mode.Admits.of_slashes {mode : Mode} {c : Char} {rest : Text}
    (admits : mode.Admits (c :: rest)) (opens : slashes.isPrefixOf (c :: rest) = true) :
    mode ≠ .string ∧ Mode.comment.Admits rest := by
  obtain ⟨before, after⟩ := beforeSlashes_of_slashes opens
  cases mode with
  | code =>
    rw [Admits, HasPairedQuotes, after] at admits
    exact ⟨nofun, fun member => admits.2 (List.mem_cons_of_mem c member)⟩
  | string =>
    rw [Admits, before] at admits
    exact absurd admits.1 (by decide)
  | comment => exact ⟨nofun, fun member => admits (List.mem_cons_of_mem c member)⟩

/-- A character that is neither a quote nor an apostrophe and starts neither kind of comment opens
nothing. -/
theorem opening?_eq_none {c : Char} {rest : Text} (quote : c ≠ '"') (apostrophe : c ≠ '\'')
    (line : ¬slashes.isPrefixOf (c :: rest) = true)
    (block : List.isPrefixOf ['/', '*'] (c :: rest) = false) :
    Region.opening? (c :: rest) = none := by
  have other : ∀ {d : Char} {more : Text}, c ≠ d → List.isPrefixOf (d :: more) (c :: rest) = false :=
    fun different => by
      rw [List.isPrefixOf_cons_cons, beq_eq_false_iff_ne.mpr (Ne.symm different), Bool.false_and]
  rw [Region.opening?_eq_none_iff]
  intro kind
  cases kind with
  | lineComment => exact Bool.eq_false_iff.mpr line
  | blockComment => exact block
  | string => exact other quote
  | rawString => exact other quote
  | character => exact other apostrophe

theorem ne_of_isLineBreak {c d : Char} (breaks : isLineBreak c = true)
    (unbroken : isLineBreak d = false) : c ≠ d := by
  rintro rfl
  exact Bool.false_ne_true (unbroken.symm.trans breaks)

/-- A line break does not start two slashes. -/
theorem slashes_of_isLineBreak {c : Char} (breaks : isLineBreak c = true) (rest : Text) :
    slashes.isPrefixOf (c :: rest) = false :=
  Bool.eq_false_iff.mpr fun opens =>
    ne_of_isLineBreak breaks rfl ((slashes_isPrefixOf_cons _ _).mp opens).1

/-- A text whose lines have their quotes as they should walks on from a mode that its first line can go
on from. -/
theorem walk_of_admits {text : Text} (free : IsFree text) {mode : Mode} {line : Text}
    {others : List Text} (split : text.splitOnP isLineBreak = line :: others)
    (first : mode.Admits line) (more : ∀ other ∈ others, HasPairedQuotes other) : Walk mode text := by
  induction text generalizing mode line others with
  | nil =>
    rw [List.splitOnP_nil] at split
    rw [← (List.cons.inj split).1] at first
    refine .done ?_
    rintro rfl
    exact absurd first.1 (by decide)
  | cons c rest ih =>
    obtain ⟨freeRest, apostrophe, backslash, rawQuotes, blockOpener⟩ := free.of_cons
    obtain ⟨next, later, splitRest⟩ :=
      List.exists_cons_of_ne_nil (List.splitOnP_ne_nil isLineBreak rest)
    rw [List.splitOnP_cons_eq_if_modifyHead, splitRest] at split
    by_cases breaks : isLineBreak c = true
    · rw [if_pos breaks] at split
      obtain ⟨rfl, rfl⟩ := List.cons.inj split
      obtain ⟨after, further⟩ := List.forall_mem_cons.mp more
      have onward : Walk .code rest := ih freeRest splitRest after further
      cases mode with
      | code =>
        have quote : c ≠ '"' := ne_of_isLineBreak breaks rfl
        have plain := slashes_of_isLineBreak breaks rest
        exact .code (opening?_eq_none quote apostrophe (Bool.eq_false_iff.mp plain) blockOpener) quote
          plain onward
      | string => exact absurd first.1 (by decide)
      | comment => exact .lineBreak breaks onward
    · rw [if_neg breaks, List.modifyHead_cons] at split
      obtain ⟨rfl, rfl⟩ := List.cons.inj split
      have unbroken := Bool.eq_false_iff.mpr breaks
      have starts : slashes.isPrefixOf (c :: rest) = slashes.isPrefixOf (c :: next) := by
        rw [Bool.eq_iff_iff, slashes_isPrefixOf_cons, slashes_isPrefixOf_cons,
          head?_of_splitOnP splitRest, Option.filter_eq_some_iff]
        exact and_congr_right fun _ => (and_iff_left rfl).symm
      by_cases opens : slashes.isPrefixOf (c :: next) = true
      · obtain ⟨notInside, beyond⟩ := first.of_slashes opens
        have onward : Walk .comment rest := ih freeRest splitRest beyond more
        obtain ⟨rfl, slash⟩ := (slashes_isPrefixOf_cons _ _).mp (starts.trans opens)
        cases mode with
        | code =>
          obtain ⟨rest, rfl⟩ := List.head?_eq_some_iff.mp slash
          cases onward with
          | beyond _ _ onward => exact .slashes onward
          | lineBreak breaks => exact absurd breaks (by decide)
        | string => exact absurd rfl notInside
        | comment => exact .beyond (by decide) unbroken onward
      · have plain : ¬slashes.isPrefixOf (c :: rest) = true := starts ▸ opens
        by_cases quote : c = '"'
        · obtain rfl := quote
          cases mode with
          | code => exact .quote rawQuotes (ih freeRest splitRest (Mode.Admits.of_quote.1 first) more)
          | string => exact .unquote (ih freeRest splitRest (Mode.Admits.of_quote.2 first) more)
          | comment => exact absurd List.mem_cons_self first
        · have onward : Walk mode rest := ih freeRest splitRest (first.of_cons opens quote) more
          cases mode with
          | code =>
            exact .code (opening?_eq_none quote apostrophe plain blockOpener) quote
              (Bool.eq_false_iff.mpr plain) onward
          | string => exact .inside quote backslash unbroken (Bool.eq_false_iff.mpr plain) onward
          | comment => exact .beyond quote unbroken onward

/-- A plain text is walked through from code on. -/
theorem IsPlain.walk {text : Text} (plain : IsPlain text) : Walk .code text := by
  obtain ⟨line, others, split⟩ :=
    List.exists_cons_of_ne_nil (List.splitOnP_ne_nil isLineBreak text)
  have paired := plain.paired
  rw [split, List.forall_mem_cons] at paired
  exact walk_of_admits plain.toIsFree split paired.1 paired.2

end Text

end KotlinHighlight
