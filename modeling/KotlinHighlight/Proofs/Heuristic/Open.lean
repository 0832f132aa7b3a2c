import KotlinHighlight.Proofs.Heuristic.Regions

/-! # What a plain text leaves open

What was read of a plain text up to a place goes with the mode that one is in there (`Reached`,
`reached_of_walk`). So between delimiters the heuristic finds a comment or a string left open exactly
where the scan has a region (`any_holds_eq`).
-/

namespace KotlinHighlight.Text

theorem lastLine_concat (before : Text) (c : Char) :
    lastLine (before ++ [c]) = if isLineBreak c then [] else lastLine before ++ [c] := by
  rw [lastLine, List.reverse_append, List.reverse_singleton, List.singleton_append]
  by_cases breaks : isLineBreak c = true
  · rw [if_pos breaks, List.takeWhile_cons_of_neg (by simp [breaks]), List.reverse_nil]
  · rw [if_neg breaks, List.takeWhile_cons_of_pos (by simp [breaks]), List.reverse_cons, lastLine]

/-- Slashes that come with one more character end with it. -/
theorem occurs_slashes_concat {before : Text} {c d : Char}
    (absent : occurs slashes (lastLine (before ++ [c])) = false)
    (apart : ¬(c = '/' ∧ d = '/')) : occurs slashes (lastLine (before ++ [c] ++ [d])) = false := by
  rw [lastLine_concat]
  by_cases breaks : isLineBreak d = true
  · rw [if_pos breaks]
    rfl
  · rw [if_neg breaks, Bool.eq_false_iff, Ne, occurs_iff, List.infix_concat_iff, not_or]
    constructor
    · rintro ⟨earlier, ends⟩
      rw [lastLine_concat] at ends
      by_cases alone : isLineBreak c = true
      · have length := congrArg List.length ends
        rw [if_pos alone, List.length_append, slashes] at length
        simp at length
      · rw [if_neg alone, List.append_assoc, List.singleton_append] at ends
        obtain ⟨first, second⟩ := List.cons.inj (List.append_inj_right' ends rfl)
        exact apart ⟨first.symm, (List.cons.inj second).1.symm⟩
    · rw [← occurs_iff, absent]
      exact Bool.false_ne_true

/-- Whether what was read before goes with a mode: in a comment there are two slashes in the last line
and elsewhere there are none, not even with the next character, and the number of quotes is odd in a
string and elsewhere even. -/
structure Reached (mode : Mode) (before rest : Text) : Prop where
  comment : mode = .comment → occurs slashes (lastLine before) = true
  code : mode ≠ .comment → ∀ c, rest.head? = some c → occurs slashes (lastLine (before ++ [c])) = false
  quotes : before.count '"' % 2 = if mode = .string then 1 else 0

theorem not_slashes {c : Char} {rest : Text} (plain : slashes.isPrefixOf (c :: rest) = false) {d : Char}
    (next : rest.head? = some d) : ¬(c = '/' ∧ d = '/') := by
  rintro ⟨rfl, rfl⟩
  rw [(slashes_isPrefixOf_cons _ _).mpr ⟨rfl, next⟩] at plain
  exact Bool.false_ne_true plain.symm

section Step

variable {mode : Mode} {before rest : Text} {c : Char}

/-- One goes on outside of comments with a character that does not start two slashes. -/
theorem Reached.go {next : Mode} (reached : Reached mode before (c :: rest)) (outside : mode ≠ .comment)
    (outsideNext : next ≠ .comment) (plain : slashes.isPrefixOf (c :: rest) = false)
    (quotes : (before.count '"' + [c].count '"') % 2 = if next = .string then 1 else 0) :
    Reached next (before ++ [c]) rest where
  comment inComment := absurd inComment outsideNext
  code _ _ next := occurs_slashes_concat (reached.code outside c rfl) (not_slashes plain next)
  quotes := by rw [List.count_append, quotes]

theorem Reached.opens (reached : Reached .code before ('/' :: '/' :: rest)) :
    Reached .comment (before ++ ['/'] ++ ['/']) rest where
  comment _ := by
    rw [lastLine_concat, lastLine_concat, occurs_iff]
    exact ⟨lastLine before, [], by simp [isLineBreak, Text.slashes]⟩
  code outside := absurd rfl outside
  quotes := by
    have even := reached.quotes
    rw [List.count_append, List.count_append]
    exact even

theorem Reached.beyond (reached : Reached .comment before (c :: rest)) (quote : c ≠ '"')
    (unbroken : isLineBreak c = false) : Reached .comment (before ++ [c]) rest where
  comment _ := by
    rw [lastLine_concat, unbroken, occurs_iff]
    exact (occurs_iff.mp (reached.comment rfl)).trans (List.prefix_append _ _).isInfix
  code outside := absurd rfl outside
  quotes := by
    rw [List.count_append, List.count_singleton, beq_eq_false_iff_ne.mpr quote]
    exact reached.quotes

theorem Reached.lineBreak (reached : Reached .comment before (c :: rest))
    (breaks : isLineBreak c = true) : Reached .code (before ++ [c]) rest where
  comment := nofun
  code _ d next := by
    refine occurs_slashes_concat ?_ (not_slashes (slashes_of_isLineBreak breaks rest) next)
    rw [lastLine_concat, if_pos breaks]
    rfl
  quotes := by
    rw [List.count_append, List.count_singleton,
      beq_eq_false_iff_ne.mpr (ne_of_isLineBreak breaks rfl)]
    exact reached.quotes

end Step

/-- Whether a place is in what is left of the region that a text is the rest of, or in a later one. -/
def marked (mode : Mode) (position : Nat) (text : Text) (k : Nat) : Bool :=
  k < mode.left text || (regionsFrom mode position text).any (·.holds (position + k : Nat))

theorem marked_of_same {mode next : Mode} {position distance : Nat} {text rest : Text}
    (same : regionsFrom mode position text = regionsFrom next (position + distance) rest)
    (left : mode.left text - distance = next.left rest) (k : Nat) :
    marked mode position text (k + distance) = marked next (position + distance) rest k := by
  have place : position + (k + distance) = position + distance + k := by omega
  have remaining : k + distance < mode.left text ↔ k < next.left rest := by omega
  rw [marked, marked, same, place, decide_eq_decide.mpr remaining]

theorem marked_of_opened {next : Mode} {position distance : Nat} {text rest : Text}
    {kind : RegionKind} (opened : regionsFrom .code position text =
      ⟨position, position + distance + next.left rest, kind⟩ ::
        regionsFrom next (position + distance) rest) (k : Nat) :
    marked .code position text (k + distance) = marked next (position + distance) rest k := by
  have place : position + (k + distance) = position + distance + k := by omega
  have inside : Region.holds ⟨position, position + distance + next.left rest, kind⟩
      (position + distance + k : Nat) = decide (k < next.left rest) := by
    rw [Bool.eq_iff_iff, Region.holds_iff, decide_eq_true_eq]
    dsimp only
    omega
  rw [marked, marked, opened, List.any_cons, place, inside]
  rfl

/-- At each place of a walk, but between two slashes, there is a mode that goes with what was read and
from which the rest can be walked. -/
theorem reached_of_walk {mode : Mode} {text : Text} (walk : Walk mode text) {before : Text}
    (reached : Reached mode before text) (position : Nat) {k : Nat} {c : Char}
    (here : text[k]? = some c) (noSlash : c ≠ '/') :
    ∃ next, Walk next (text.drop k) ∧ Reached next (before ++ text.take k) (text.drop k) ∧
      marked mode position text k = marked next (position + k) (text.drop k) 0 := by
  induction k using Nat.strongRecOn generalizing mode text before position with
  | ind k ih =>
    cases k with
    | zero => exact ⟨mode, walk, by rwa [List.take_zero, List.append_nil], rfl⟩
    | succ k =>
      -- After one character the walk goes on in a mode that it says.
      have step : ∀ {next : Mode} {d : Char} {rest : Text}, text = d :: rest → Walk next rest →
          Reached next (before ++ [d]) rest →
          marked mode position text (k + 1) = marked next (position + 1) rest k →
          ∃ next, Walk next (text.drop (k + 1)) ∧
            Reached next (before ++ text.take (k + 1)) (text.drop (k + 1)) ∧
            marked mode position text (k + 1) =
              marked next (position + (k + 1)) (text.drop (k + 1)) 0 := by
        rintro next d rest rfl onward reachedNext same
        obtain ⟨last, walkLast, reachedLast, sameLast⟩ :=
          ih k (Nat.lt_succ_self k) onward reachedNext (position + 1) here
        rw [List.append_assoc, List.singleton_append] at reachedLast
        rw [Nat.add_right_comm, Nat.add_assoc] at sameLast
        exact ⟨last, walkLast, reachedLast, same.trans sameLast⟩
      cases walk with
      | done _ => exact absurd here nofun
      | @code d rest plain quote absent onward =>
        refine step rfl onward (reached.go nofun nofun absent ?_)
          (marked_of_same (regionsFrom_code position plain) rfl k)
        rw [List.count_singleton, beq_eq_false_iff_ne.mpr quote]
        exact reached.quotes
      | @quote rest single onward =>
        refine step rfl onward (reached.go nofun nofun rfl ?_)
          (marked_of_opened (regionsFrom_quote position single) k)
        have even : before.count '"' % 2 = 0 := reached.quotes
        change (before.count '"' + 1) % 2 = 1
        omega
      | @inside d rest quote backslash unbroken absent onward =>
        refine step rfl onward (reached.go nofun nofun absent ?_)
          (marked_of_same (regionsFrom_inside position quote backslash unbroken) ?_ k)
        · rw [List.count_singleton, beq_eq_false_iff_ne.mpr quote]
          exact reached.quotes
        · rw [Mode.left_inside quote backslash unbroken, Nat.add_sub_cancel]
      | @unquote rest onward =>
        refine step rfl onward (reached.go nofun nofun rfl ?_)
          (marked_of_same (regionsFrom_unquote position rest) ?_ k)
        · have odd : before.count '"' % 2 = 1 := reached.quotes
          change (before.count '"' + 1) % 2 = 0
          omega
        · rw [Mode.left_unquote]
          rfl
      | @slashes rest onward =>
        cases k with
        | zero => exact absurd (Option.some.inj here).symm noSlash
        | succ k =>
          obtain ⟨last, walkLast, reachedLast, sameLast⟩ :=
            ih k (by omega) onward reached.opens (position + 2) here
          rw [List.append_assoc, List.append_assoc] at reachedLast
          rw [Nat.add_assoc, Nat.add_comm 2 k] at sameLast
          exact ⟨last, walkLast, reachedLast,
            (marked_of_opened (regionsFrom_slashes position rest) k).trans sameLast⟩
      | @beyond d rest quote unbroken onward =>
        refine step rfl onward (reached.beyond quote unbroken)
          (marked_of_same (regionsFrom_beyond position unbroken) ?_ k)
        rw [Mode.left_beyond unbroken, Nat.add_sub_cancel]
      | @lineBreak d rest breaks onward =>
        refine step rfl onward (reached.lineBreak breaks)
          (marked_of_same (regionsFrom_lineBreak position breaks) ?_ k)
        rw [Mode.left_lineBreak breaks]
        rfl

/-- Outside of comments there are no slashes in the last line, if it goes on. -/
theorem Reached.noSlashes {mode : Mode} {before rest : Text} {c : Char}
    (reached : Reached mode before (c :: rest)) (outside : mode ≠ .comment)
    (unbroken : isLineBreak c = false) : occurs slashes (lastLine before) = false := by
  have absent := reached.code outside c rfl
  rw [lastLine_concat, unbroken, if_neg Bool.false_ne_true, Bool.eq_false_iff, Ne, occurs_iff] at absent
  rw [Bool.eq_false_iff, Ne, occurs_iff]
  exact fun inside => absent (inside.trans (List.prefix_append _ _).isInfix)

theorem reached_nil (text : Text) : Reached .code [] text where
  comment := nofun
  code _ c _ := by
    rw [lastLine_concat]
    split <;> simp [occurs, slashes, List.isPrefixOf, lastLine]
  quotes := rfl

/-- Further on in a text stand only regions that start there. -/
theorem any_holds_before (mode : Mode) (position : Nat) (text : Text) :
    (regionsFrom mode (position + 1) text).any (·.holds (position + 0 : Nat)) = false := by
  rw [List.any_eq_false]
  intro region member holds
  rw [regionsFrom, Region.scanFrom_skip] at member
  have bounds := Region.mem_scanFrom_bounds member
  rw [Region.holds_iff] at holds
  omega

/-- Between delimiters of a plain text a place is in a region exactly where the text before it leaves
slashes in its last line or an odd number of quotes. -/
theorem any_holds_eq {text : Text} (walk : Walk .code text) {k : Nat} {c : Char}
    (here : text[k]? = some c) (slash : c ≠ '/') (quote : c ≠ '"') (unbroken : isLineBreak c = false) :
    (Region.scan text).any (·.holds k) =
      (occurs slashes (lastLine (text.take k)) || (text.take k).count '"' % 2 == 1) := by
  obtain ⟨mode, onward, reached, same⟩ := reached_of_walk walk (reached_nil text) 0 here slash
  have whole : marked .code 0 text k = (Region.scan text).any (·.holds k) := by
    rw [marked, Nat.zero_add]
    rfl
  obtain ⟨rest, ahead⟩ : ∃ rest, text.drop k = c :: rest :=
    List.head?_eq_some_iff.mp (List.head?_drop.trans here)
  rw [List.nil_append, ahead] at reached
  rw [ahead] at onward same
  rw [← whole, same, marked]
  have quotes := reached.quotes
  cases onward with
  | code plain _ _ _ =>
    have even : (text.take k).count '"' % 2 = 0 := quotes
    rw [regionsFrom_code _ plain, any_holds_before, reached.noSlashes nofun unbroken, even]
    rfl
  | quote _ _ => exact absurd rfl quote
  | inside quote backslash unbroken _ _ =>
    have odd : (text.take k).count '"' % 2 = 1 := quotes
    rw [Mode.left_inside quote backslash unbroken, decide_eq_true (Nat.succ_pos _), odd,
      Bool.true_or, beq_self_eq_true, Bool.or_true]
  | unquote _ => exact absurd rfl quote
  | slashes _ => exact absurd rfl slash
  | beyond _ unbroken _ =>
    rw [Mode.left_beyond unbroken, decide_eq_true (Nat.succ_pos _), reached.comment rfl,
      Bool.true_or, Bool.true_or]
  | lineBreak breaks _ => exact absurd (breaks.symm.trans unbroken) nofun

/-- Before a quote of a plain text stand no slashes in its line. -/
theorem noSlashes_before_quote {text : Text} (walk : Walk .code text) {k : Nat}
    (here : text[k]? = some '"') : occurs slashes (lastLine (text.take k)) = false := by
  obtain ⟨mode, onward, reached, -⟩ := reached_of_walk walk (reached_nil text) 0 here (by decide)
  obtain ⟨rest, ahead⟩ : ∃ rest, text.drop k = '"' :: rest :=
    List.head?_eq_some_iff.mp (List.head?_drop.trans here)
  rw [List.nil_append, ahead] at reached
  rw [ahead] at onward
  have outside : mode ≠ .comment := by
    rintro rfl
    cases onward with
    | beyond quote _ _ => exact quote rfl
    | lineBreak breaks _ => exact absurd breaks (by decide)
  exact reached.noSlashes outside (by decide)

end KotlinHighlight.Text
