import KotlinHighlight.Highlight

/-! # Remembering the last result

A cache keeps the last text and its spans, under one theme and one containment mode. Asking for the
same text again is a hit and gives the spans of the last answer; anything else is a miss and
computes them. The text that is missing altogether is never remembered. Two lists of spans can be
equal and yet not be the same list, so a cache numbers its lists.
-/

namespace KotlinHighlight

/-- The last text and its spans, under the settings that they were computed with. -/
structure Cache where
  theme : Option Theme := none
  mode : Containment := .scan
  text : Option Text := none
  spans : List Span := []
  /-- How many lists of spans there were before this one. -/
  edition : Nat := 0
  hits : Nat := 0
  misses : Nat := 0

namespace Cache

/-- The theme that a request sets: none if it has no wishes. -/
def themeOf (theme : Theme) : Option Theme :=
  if theme.isEmpty then none else some theme

/-- A cache that remembers nothing yet, for a theme and a mode. -/
def new (theme : Option Theme) (mode : Option String) : Except Fault Cache := do
  let mode ← Containment.parse mode
  return { theme := theme.bind themeOf, mode }

def palette (cache : Cache) : Palette :=
  Theme.palette (cache.theme.getD [])

/-- The spans of a text under the settings of the cache. A missing text has none. -/
def compute (cache : Cache) (text : Option Text) : List Span :=
  match text with
  | some text => Highlight.spans cache.mode cache.palette text
  | none => []

/-- The spans of a text, which list of them this is, and whether it is that of the last answer. -/
structure Answer where
  spans : List Span
  edition : Nat
  hit : Bool
deriving DecidableEq, Repr

/-- The spans of a text, remembered or computed. -/
def ask (cache : Cache) (text : Option Text) : Answer × Cache :=
  if cache.text.isSome ∧ text = cache.text then
    (⟨cache.spans, cache.edition, true⟩, { cache with hits := cache.hits + 1 })
  else
    let spans := cache.compute text
    let edition := cache.edition + 1
    (⟨spans, edition, false⟩, { cache with text, spans, edition, misses := cache.misses + 1 })

section Ask

variable {cache : Cache} {text : Text}

theorem ask_of_text_eq (remembered : cache.text = some text) :
    cache.ask (some text) =
      (⟨cache.spans, cache.edition, true⟩, { cache with hits := cache.hits + 1 }) :=
  if_pos ⟨by rw [remembered]; rfl, remembered.symm⟩

theorem ask_of_text_ne (unknown : cache.text ≠ some text) :
    cache.ask (some text) =
      (⟨cache.compute (some text), cache.edition + 1, false⟩,
        { cache with
          text := some text
          spans := cache.compute (some text)
          edition := cache.edition + 1
          misses := cache.misses + 1 }) :=
  if_neg fun hit => unknown hit.2.symm

end Ask

def clear (cache : Cache) : Cache :=
  { cache with text := none, spans := [], edition := cache.edition + 1 }

/-- New settings, each only if it is given. An unknown mode is refused as a whole. -/
def configure (cache : Cache) (theme : Option Theme) (mode : Option String) :
    Except Fault Cache := do
  let mode ← match mode with
    | some name => Containment.parse (some name)
    | none => .ok cache.mode
  let theme := match theme with
    | some theme => themeOf theme
    | none => cache.theme
  return clear { cache with theme, mode }

end Cache

end KotlinHighlight
