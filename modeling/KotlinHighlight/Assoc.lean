/-! # Association lists

Pairs of a key and a value in which each key stands once, in the order in which the keys came first.
Giving a key a new value leaves the key at its place.
-/

namespace KotlinHighlight

/-- Pairs of keys and values in order. -/
abbrev Assoc (α : Type) (β : Type) := List (α × β)

namespace Assoc

variable {α β : Type} [DecidableEq α]

/-- Gives a key its value: at its place if it has one, and at the end otherwise. -/
def put (key : α) (value : β) : Assoc α β → Assoc α β
  | [] => [(key, value)]
  | (other, old) :: rest =>
    if other = key then (other, value) :: rest else (other, old) :: put key value rest

def get? (key : α) : Assoc α β → Option β
  | [] => none
  | (other, value) :: rest => if other = key then some value else get? key rest

/-- The pairs given one after the other. -/
def ofPairs (pairs : List (α × β)) : Assoc α β :=
  pairs.foldl (fun entries pair => put pair.1 pair.2 entries) []

def keys (entries : Assoc α β) : List α :=
  entries.map (·.1)

@[simp] theorem get?_put_self (key : α) (value : β) (entries : Assoc α β) :
    get? key (put key value entries) = some value := by
  induction entries with
  | nil => simp [put, get?]
  | cons entry rest ih =>
    obtain ⟨other, old⟩ := entry
    by_cases same : other = key <;> simp [put, get?, same, ih]

theorem get?_put_of_ne {key other : α} (different : other ≠ key) (value : β)
    (entries : Assoc α β) : get? other (put key value entries) = get? other entries := by
  induction entries with
  | nil => simp [put, get?, different.symm]
  | cons entry rest ih =>
    obtain ⟨first, old⟩ := entry
    by_cases same : first = key
    · subst same
      simp [put, get?, different.symm]
    · simp [put, get?, same, ih]

/-- The keys after a `put`: a new key comes last, and a known one moves nothing. -/
theorem keys_put (key : α) (value : β) (entries : Assoc α β) :
    keys (put key value entries) =
      if key ∈ keys entries then keys entries else keys entries ++ [key] := by
  induction entries with
  | nil => simp [put, keys]
  | cons entry rest ih =>
    obtain ⟨other, old⟩ := entry
    simp only [keys] at ih
    by_cases same : other = key
    · subst same
      simp [put, keys]
    · by_cases known : key ∈ rest.map (·.1)
      · simp [put, keys, same, ih, known, Ne.symm same]
      · simp [put, keys, same, ih, known, Ne.symm same]

end Assoc

end KotlinHighlight
