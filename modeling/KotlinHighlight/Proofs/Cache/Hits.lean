import Mathlib.Data.List.Induction
import KotlinHighlight.Proofs.Cache

/-! # When a cache hits

A cache remembers a text just as long as nothing but refused requests come after it was asked for
(`text_after_eq_some_iff`). So whether a text is a hit can be read off the requests alone
(`hit_iff_askedLast`): it is one if it was asked for last and no settings changed since.
-/

namespace KotlinHighlight.Cache

def Request.isAsk : Request → Bool
  | .ask _ => true
  | .clear | .configure _ _ => false

def Request.isRefused : Request → Bool
  | .configure _ (some name) => (Containment.ofName? name).isNone
  | .ask _ | .clear | .configure _ none => false

/-- Whether a text was asked for after the earlier ones of some requests, and none but refused requests
came later. -/
def AskedLast (text : Option Text) (earlier requests : List Request) : Prop :=
  ∃ later, requests = earlier ++ .ask text :: later ∧ ∀ request ∈ later, request.isRefused = true

theorem askedLast_concat (text : Option Text) (requests : List Request) :
    AskedLast text requests (requests ++ [.ask text]) :=
  ⟨[], rfl, List.forall_mem_nil _⟩

theorem AskedLast.concat {text : Option Text} {earlier requests : List Request}
    (asked : AskedLast text earlier requests) {last : Request} (refused : last.isRefused = true) :
    AskedLast text earlier (requests ++ [last]) := by
  obtain ⟨later, rfl, allRefused⟩ := asked
  refine ⟨later ++ [last], List.append_assoc .., ?_⟩
  rw [List.forall_mem_append, List.forall_mem_singleton]
  exact ⟨allRefused, refused⟩

section Serve

variable (cache : Cache)

/-- An answer is what is remembered, or it is computed and then remembered. -/
theorem ask_cases (text : Option Text) :
    ((text.isSome = true ∧ cache.text = text) ∧
      cache.ask text = (⟨cache.spans, cache.edition, true⟩, { cache with hits := cache.hits + 1 })) ∨
    (¬(text.isSome = true ∧ cache.text = text) ∧
      cache.ask text = (⟨cache.compute text, cache.edition + 1, false⟩,
        { cache with
          text
          spans := cache.compute text
          edition := cache.edition + 1
          misses := cache.misses + 1 })) := by
  rw [ask]
  split
  · rename_i hit
    exact .inl ⟨⟨hit.2 ▸ hit.1, hit.2.symm⟩, rfl⟩
  · rename_i miss
    refine .inr ⟨?_, rfl⟩
    rintro ⟨given, same⟩
    exact miss ⟨same ▸ given, same.symm⟩

theorem hit_ask_iff (text : Option Text) :
    (cache.ask text).1.hit = true ↔ text.isSome = true ∧ cache.text = text := by
  rcases cache.ask_cases text with ⟨known, asked⟩ | ⟨unknown, asked⟩
  · rw [asked]
    exact iff_of_true rfl known
  · rw [asked]
    exact iff_of_false Bool.false_ne_true unknown

/-- An answer is counted once, as a hit or as a miss. -/
theorem counts_ask (text : Option Text) :
    if (cache.ask text).1.hit then
      (cache.ask text).2.hits = cache.hits + 1 ∧ (cache.ask text).2.misses = cache.misses
    else (cache.ask text).2.hits = cache.hits ∧ (cache.ask text).2.misses = cache.misses + 1 := by
  rcases cache.ask_cases text with ⟨-, asked⟩ | ⟨-, asked⟩
  · rw [asked]
    exact ⟨rfl, rfl⟩
  · rw [asked]
    exact ⟨rfl, rfl⟩

theorem misses_ask (text : Option Text) :
    ((cache.ask text).2.misses = cache.misses + 1 ↔ ¬(cache.ask text).1.hit = true) ∧
      ((cache.ask text).2.misses = cache.misses ↔ (cache.ask text).1.hit = true) := by
  have counts := cache.counts_ask text
  by_cases hit : (cache.ask text).1.hit = true
  · rw [if_pos hit] at counts
    exact ⟨iff_of_false (by omega) (not_not.mpr hit), iff_of_true counts.2 hit⟩
  · rw [if_neg hit] at counts
    exact ⟨iff_of_true counts.2 hit, iff_of_false (by omega) hit⟩

/-- What was asked for is remembered with the list of spans of the answer. -/
theorem remembers_ask (text : Option Text) :
    (cache.ask text).2.text = text ∧ (cache.ask text).2.spans = (cache.ask text).1.spans ∧
      (cache.ask text).2.edition = (cache.ask text).1.edition := by
  rcases cache.ask_cases text with ⟨known, asked⟩ | ⟨-, asked⟩
  · rw [asked]
    exact ⟨known.2, rfl, rfl⟩
  · rw [asked]
    exact ⟨rfl, rfl, rfl⟩

/-- A hit has the list of spans that is remembered. -/
theorem spans_of_hit {text : Option Text} (hit : (cache.ask text).1.hit = true) :
    (cache.ask text).1.spans = cache.spans ∧ (cache.ask text).1.edition = cache.edition := by
  rcases cache.ask_cases text with ⟨-, asked⟩ | ⟨unknown, -⟩
  · rw [asked]
    exact ⟨rfl, rfl⟩
  · exact absurd ((cache.hit_ask_iff text).mp hit) unknown

theorem serve_of_isRefused {request : Request} (refused : request.isRefused = true) :
    cache.serve request = cache := by
  cases request with
  | ask text => exact absurd refused nofun
  | clear => exact absurd refused nofun
  | configure theme mode =>
    cases mode with
    | none => exact absurd refused nofun
    | some name =>
      have unknown : Containment.ofName? name = none := Option.isNone_iff_eq_none.mp refused
      rw [serve, configure_eq]
      dsimp only
      rw [unknown]

/-- Settings that are accepted make the cache forget, and count nothing. -/
theorem serve_configure_of_accepted {theme : Option Theme} {mode : Option String}
    (accepted : (Request.configure theme mode).isRefused = false) :
    (cache.serve (.configure theme mode)).text = none ∧
      (cache.serve (.configure theme mode)).hits = cache.hits ∧
      (cache.serve (.configure theme mode)).misses = cache.misses := by
  rw [serve, configure_eq]
  cases mode with
  | none => exact ⟨rfl, rfl, rfl⟩
  | some name =>
    dsimp only
    cases known : Containment.ofName? name with
    | none =>
      rw [Request.isRefused, known] at accepted
      exact absurd accepted.symm Bool.false_ne_true
    | some mode => exact ⟨rfl, rfl, rfl⟩

theorem counts_serve_of_isAsk_eq_false {request : Request} (unasked : request.isAsk = false) :
    (cache.serve request).hits = cache.hits ∧ (cache.serve request).misses = cache.misses := by
  cases request with
  | ask text => exact absurd unasked.symm Bool.false_ne_true
  | clear => exact ⟨rfl, rfl⟩
  | configure theme mode =>
    cases refused : (Request.configure theme mode).isRefused with
    | true =>
      rw [cache.serve_of_isRefused refused]
      exact ⟨rfl, rfl⟩
    | false => exact (cache.serve_configure_of_accepted refused).2

theorem hits_add_misses_serve (request : Request) :
    (cache.serve request).hits + (cache.serve request).misses =
      cache.hits + cache.misses + if request.isAsk then 1 else 0 := by
  cases asks : request.isAsk with
  | true =>
    cases request with
    | ask text =>
      have counts := cache.counts_ask text
      rw [serve, if_pos rfl]
      split at counts <;> omega
    | clear | configure => exact absurd asks Bool.false_ne_true
  | false =>
    obtain ⟨hits, misses⟩ := cache.counts_serve_of_isAsk_eq_false asks
    rw [hits, misses, if_neg Bool.false_ne_true, Nat.add_zero]

end Serve

section After

variable (cache : Cache)

theorem after_append (requests more : List Request) :
    cache.after (requests ++ more) = (cache.after requests).after more :=
  List.foldl_append

theorem after_of_refused {requests : List Request}
    (refused : ∀ request ∈ requests, request.isRefused = true) : cache.after requests = cache := by
  induction requests with
  | nil => rfl
  | cons request requests ih =>
    rw [List.forall_mem_cons] at refused
    rw [after, List.foldl_cons, cache.serve_of_isRefused refused.1]
    exact ih refused.2

theorem counts_after_of_unasked {requests : List Request}
    (unasked : ∀ request ∈ requests, request.isAsk = false) :
    (cache.after requests).hits = cache.hits ∧ (cache.after requests).misses = cache.misses := by
  induction requests generalizing cache with
  | nil => exact ⟨rfl, rfl⟩
  | cons request requests ih =>
    rw [List.forall_mem_cons] at unasked
    obtain ⟨hits, misses⟩ := ih (cache.serve request) unasked.2
    obtain ⟨first, second⟩ := cache.counts_serve_of_isAsk_eq_false unasked.1
    exact ⟨hits.trans first, misses.trans second⟩

/-- Without the requests that are refused the cache is the same. -/
theorem after_filter_not_isRefused (requests : List Request) :
    cache.after (requests.filter (!·.isRefused)) = cache.after requests := by
  induction requests generalizing cache with
  | nil => rfl
  | cons request requests ih =>
    have first : cache.after (request :: requests) = (cache.serve request).after requests := rfl
    cases refused : request.isRefused with
    | true =>
      rw [List.filter_cons_of_neg (by simp [refused]), ih, first, cache.serve_of_isRefused refused]
    | false =>
      rw [List.filter_cons_of_pos (by simp [refused]), first, ← ih]
      rfl

theorem hits_add_misses_after (requests : List Request) :
    (cache.after requests).hits + (cache.after requests).misses =
      cache.hits + cache.misses + requests.countP Request.isAsk := by
  induction requests generalizing cache with
  | nil => rfl
  | cons request requests ih =>
    have first : cache.after (request :: requests) = (cache.serve request).after requests := rfl
    rw [first, ih, hits_add_misses_serve, List.countP_cons]
    omega

/-- After a text was asked for last, the cache is as it was right after that. -/
theorem AskedLast.after_eq {text : Option Text} {earlier requests : List Request}
    (asked : AskedLast text earlier requests) :
    cache.after requests = ((cache.after earlier).ask text).2 := by
  obtain ⟨later, rfl, refused⟩ := asked
  rw [after_append]
  exact after_of_refused _ refused

/-- A text is remembered as long as it is what was asked for last. -/
theorem text_after_eq_some_iff (forgot : cache.text = none) {requests : List Request} {text : Text} :
    (cache.after requests).text = some text ↔ ∃ earlier, AskedLast (some text) earlier requests := by
  constructor
  · intro remembered
    induction requests using List.reverseRecOn with
    | nil => exact absurd (forgot.symm.trans remembered) nofun
    | append_singleton requests last ih =>
      have reached : cache.after (requests ++ [last]) = (cache.after requests).serve last :=
        cache.after_append requests [last]
      rw [reached] at remembered
      cases last with
      | ask asked =>
        obtain rfl := ((cache.after requests).remembers_ask asked).1.symm.trans remembered
        exact ⟨requests, askedLast_concat _ requests⟩
      | clear => exact absurd remembered nofun
      | configure theme mode =>
        cases refused : (Request.configure theme mode).isRefused with
        | true =>
          rw [serve_of_isRefused _ refused] at remembered
          obtain ⟨earlier, asked⟩ := ih remembered
          exact ⟨earlier, asked.concat refused⟩
        | false =>
          have forgets := ((cache.after requests).serve_configure_of_accepted refused).1
          exact absurd (forgets.symm.trans remembered) nofun
  · rintro ⟨earlier, asked⟩
    rw [asked.after_eq]
    exact (remembers_ask _ _).1

end After

/-- Whether a text is the last one that some requests ask for, and which requests come after it. -/
def AsksThen (asked : Option Text) (later requests : List Request) : Prop :=
  (∃ earlier, requests = earlier ++ .ask asked :: later) ∧
    ∀ request ∈ later, request.isAsk = false

/-- Whether a text has to be computed after some requests: no text was asked for yet, another text was
asked for last, or new settings came after it. -/
inductive Outdated (text : Text) (requests : List Request) : Prop
  | unasked : (∀ request ∈ requests, request.isAsk = false) → Outdated text requests
  | changed {asked : Option Text} {later : List Request} : AsksThen asked later requests →
      asked ≠ some text → Outdated text requests
  | reset {asked : Option Text} {later : List Request} : AsksThen asked later requests →
      (∃ request ∈ later, request.isRefused = false) → Outdated text requests

theorem isAsk_of_isRefused {request : Request} (refused : request.isRefused = true) :
    request.isAsk = false := by
  cases request with
  | ask text => exact absurd refused nofun
  | clear => rfl
  | configure theme mode => rfl

/-- If a text is asked for at all, one of them is the last. -/
theorem exists_asksThen {requests : List Request}
    (asks : ¬∀ request ∈ requests, request.isAsk = false) :
    ∃ asked later, AsksThen asked later requests := by
  induction requests with
  | nil => exact absurd (List.forall_mem_nil _) asks
  | cons first rest ih =>
    by_cases silent : ∀ request ∈ rest, request.isAsk = false
    · have now : first.isAsk ≠ false := fun no => asks (List.forall_mem_cons.mpr ⟨no, silent⟩)
      cases first with
      | ask text => exact ⟨text, rest, ⟨[], rfl⟩, silent⟩
      | clear => exact absurd rfl now
      | configure theme mode => exact absurd rfl now
    · obtain ⟨asked, later, ⟨earlier, rfl⟩, unasked⟩ := ih silent
      exact ⟨asked, later, ⟨first :: earlier, rfl⟩, unasked⟩

/-- There is only one last text. -/
theorem AsksThen.unique {asked asked' : Option Text} {later later' requests : List Request}
    (one : AsksThen asked later requests) (other : AsksThen asked' later' requests) :
    asked = asked' ∧ later = later' := by
  -- The text that is asked for earlier would be followed by the other one.
  have apart : ∀ {asked asked' : Option Text} {later later' between : List Request},
      (∀ request ∈ later, request.isAsk = false) →
      .ask asked :: later = between ++ .ask asked' :: later' →
      asked = asked' ∧ later = later' := by
    intro asked asked' later later' between silent same
    cases between with
    | nil =>
      obtain ⟨first, rest⟩ := List.cons.inj same
      exact ⟨Request.ask.inj first, rest⟩
    | cons first between =>
      have inside : Request.ask asked' ∈ later :=
        (List.cons.inj same).2 ▸ List.mem_append_right between List.mem_cons_self
      exact absurd (silent _ inside) nofun
  obtain ⟨⟨earlier, rfl⟩, silent⟩ := one
  obtain ⟨⟨earlier', same⟩, silent'⟩ := other
  rcases List.append_eq_append_iff.mp same with ⟨between, -, rest⟩ | ⟨between, -, rest⟩
  · exact apart silent rest
  · obtain ⟨text, requests⟩ := apart silent' rest
    exact ⟨text.symm, requests.symm⟩

/-- A text has to be computed unless it was asked for last and nothing but refused requests came since. -/
theorem outdated_iff {text : Text} {requests : List Request} :
    Outdated text requests ↔ ¬∃ earlier, AskedLast (some text) earlier requests := by
  constructor
  · rintro outdated ⟨earlier, later, rfl, refused⟩
    have asks : AsksThen (some text) later (earlier ++ .ask (some text) :: later) :=
      ⟨⟨earlier, rfl⟩, fun request member => isAsk_of_isRefused (refused request member)⟩
    cases outdated with
    | unasked silent => exact absurd (silent _ (List.mem_append_right _ List.mem_cons_self)) nofun
    | changed last different => exact different (last.unique asks).1
    | reset last accepted =>
      obtain ⟨-, rfl⟩ := last.unique asks
      obtain ⟨request, member, accepts⟩ := accepted
      exact Bool.false_ne_true (accepts.symm.trans (refused request member))
  · intro notLast
    by_cases silent : ∀ request ∈ requests, request.isAsk = false
    · exact .unasked silent
    obtain ⟨asked, later, asks⟩ := exists_asksThen silent
    by_cases same : asked = some text
    · obtain ⟨earlier, split⟩ := asks.1
      refine .reset asks ?_
      by_contra refused
      refine notLast ⟨earlier, later, by rw [split, same], fun request member => ?_⟩
      exact eq_true_of_ne_false fun accepts => refused ⟨request, member, accepts⟩
    · exact .changed asks same

/-- A text that is asked for after some requests is a hit unless it has to be computed. -/
theorem hit_ask_after_iff {cache : Cache} (forgot : cache.text = none) {requests : List Request}
    {text : Text} :
    ((cache.after requests).ask (some text)).1.hit = true ↔ ¬Outdated text requests := by
  rw [hit_ask_iff, outdated_iff, not_not, ← text_after_eq_some_iff cache forgot]
  exact and_iff_right rfl

/-- Take any requests to a new cache. A text, unless it is missing, is then a hit just if it was asked for
last and nothing but refused requests came since. A hit has the very list of spans of that last answer,
with no others computed meanwhile, and is counted as a hit; anything else is counted as a miss. So hits and
misses together are the requests for texts, and those that are refused change nothing. -/
theorem hit_iff_askedLast (theme : Option Theme) (mode : Containment) :
    ∃ cache, new theme (some mode.name) = .ok cache ∧ ∀ requests : List Request,
      let reached := cache.after requests
      reached.hits + reached.misses = requests.countP Request.isAsk ∧
      cache.after (requests.filter (!·.isRefused)) = reached ∧
      ∀ text : Option Text,
        let answer := (reached.ask text).1
        let next := (reached.ask text).2
        (answer.hit = true ↔ text.isSome = true ∧ ∃ earlier, AskedLast text earlier requests) ∧
        (if answer.hit then next.hits = reached.hits + 1 ∧ next.misses = reached.misses
          else next.hits = reached.hits ∧ next.misses = reached.misses + 1) ∧
        (answer.hit = true → ∀ earlier, AskedLast text earlier requests →
          let last := (cache.after earlier).ask text
          answer.spans = last.1.spans ∧ answer.edition = last.1.edition ∧
            next.misses = last.2.misses) := by
  refine ⟨_, new_eq theme mode, fun requests => ?_⟩
  generalize made : ({ theme := theme.bind themeOf, mode } : Cache) = cache
  have forgot : cache.text = none := made ▸ rfl
  have uncounted : cache.hits + cache.misses = 0 := made ▸ rfl
  intro reached
  refine ⟨?_, cache.after_filter_not_isRefused requests, fun text => ?_⟩
  · exact (cache.hits_add_misses_after requests).trans (by rw [uncounted, Nat.zero_add])
  intro answer next
  refine ⟨?_, reached.counts_ask text, fun hit earlier asked => ?_⟩
  · refine (reached.hit_ask_iff text).trans (and_congr_right fun given => ?_)
    obtain ⟨known, rfl⟩ := Option.isSome_iff_exists.mp given
    exact cache.text_after_eq_some_iff forgot
  · have counts := reached.counts_ask text
    rw [if_pos hit] at counts
    have same : reached = ((cache.after earlier).ask text).2 := asked.after_eq cache
    obtain ⟨held, heldEdition⟩ := reached.spans_of_hit hit
    obtain ⟨-, given, givenEdition⟩ := remembers_ask (cache.after earlier) text
    exact ⟨held.trans ((congrArg spans same).trans given),
      heldEdition.trans ((congrArg edition same).trans givenEdition),
      counts.2.trans (congrArg misses same)⟩

end KotlinHighlight.Cache
