/-!
# Levels of a slash-separated text

Paths, topics and filters are texts cut into levels at every slash. Cutting is done on characters,
so that each law is an induction on a list: the levels are never empty as a list, hold no slash, and
joined with slashes they give the text back.
-/

namespace TopicTree.Level

/-- The separator between two levels. -/
abbrev slash : Char := '/'

/-- The levels of a text, first one first; an empty text is one empty level. -/
def split : List Char → List (List Char)
  | [] => [[]]
  | c :: rest =>
    if c = slash then [] :: split rest
    else
      match split rest with
      | [] => [[c]]
      | level :: levels => (c :: level) :: levels

/-- Levels joined with slashes. -/
def join : List (List Char) → List Char
  | [] => []
  | [level] => level
  | level :: levels => level ++ slash :: join levels

/-- The first level. -/
def first (text : List Char) : List Char :=
  text.takeWhile (· ≠ slash)

/-- What follows the first slash; nothing if there is no slash. -/
def afterFirst (text : List Char) : List Char :=
  (text.dropWhile (· ≠ slash)).drop 1

/-- The last level. -/
def last (text : List Char) : List Char :=
  (text.reverse.takeWhile (· ≠ slash)).reverse

/-- What comes before the last slash; nothing if there is no slash. -/
def beforeLast (text : List Char) : List Char :=
  ((text.reverse.dropWhile (· ≠ slash)).drop 1).reverse

/-- What follows `lead` in a text that starts with it. -/
def after? : List Char → List Char → Option (List Char)
  | [], text => some text
  | _ :: _, [] => none
  | l :: lead, c :: text => if l = c then after? lead text else none

/-- There is always at least one level. -/
theorem split_ne_nil (text : List Char) : split text ≠ [] := by
  cases text with
  | nil => simp [split]
  | cons c rest =>
    simp only [split]
    split
    · simp
    · split <;> simp

/-- The levels of a text, joined, are the text. -/
@[simp]
theorem join_split (text : List Char) : join (split text) = text := by
  induction text with
  | nil => rfl
  | cons c rest ih =>
    simp only [split]
    split
    · next h =>
      obtain ⟨level, levels, hsplit⟩ := List.exists_cons_of_ne_nil (split_ne_nil rest)
      rw [hsplit] at ih ⊢
      simp [join, ih, h]
    · obtain ⟨level, levels, hsplit⟩ := List.exists_cons_of_ne_nil (split_ne_nil rest)
      rw [hsplit] at ih ⊢
      cases levels <;> simp_all [join]

/-- A text has its lead exactly when it is the lead followed by something. -/
theorem after?_eq_some_iff {lead text rest : List Char} :
    after? lead text = some rest ↔ text = lead ++ rest := by
  induction lead generalizing text with
  | nil => simp [after?]
  | cons l lead ih =>
    cases text with
    | nil => simp [after?]
    | cons c text =>
      by_cases h : l = c
      · simp [after?, h, ih]
      · simp [after?, h, Ne.symm h]

/-- A text with a slash is its first level, the slash and what follows. -/
theorem first_append_afterFirst {text : List Char} (h : slash ∈ text) :
    first text ++ slash :: afterFirst text = text := by
  induction text with
  | nil => simp at h
  | cons c rest ih =>
    by_cases hc : c = slash
    · simp [first, afterFirst, hc]
    · have hrest : slash ∈ rest := by simpa [Ne.symm hc] using h
      simpa [first, afterFirst, hc] using ih hrest

end TopicTree.Level
