import Mathlib.Data.List.Forall2
import TopicTree.Address.Filter

/-!
# What a filter stands for

A filter names the topics whose levels it meets one by one; one that ends in `#` names everything at
and below the level before it. The comparison reads a filter only up to its first `#`, so it finds
what the filter names whenever `#` stands at the end or nowhere. Behind a `#` that stands earlier
nothing is read, and topics are accepted that the filter does not name.
-/

namespace TopicTree.Filter

/-- One level of a filter meets one level of a topic: as `+`, or as the same text. -/
def Meets (wanted level : List Char) : Prop :=
  wanted = ['+'] ∨ wanted = level

instance (wanted level : List Char) : Decidable (Meets wanted level) :=
  inferInstanceAs (Decidable (_ ∨ _))

/-- The levels of a filter name those of a topic. A filter that ends in `#` names the topics that
have the levels before it and whatever else; any other names the topics with as many levels as it
has itself. A `#` before the end is a level like any other. -/
def Names (filter topic : List (List Char)) : Prop :=
  if filter.getLast? = some ['#'] then
    filter.dropLast.length ≤ topic.length ∧
      List.Forall₂ Meets filter.dropLast (topic.take filter.dropLast.length)
  else List.Forall₂ Meets filter topic

instance (filter topic : List (List Char)) : Decidable (Names filter topic) :=
  if h : filter.getLast? = some ['#'] then
    decidable_of_iff (_ ∧ List.Forall₂ Meets _ _) (by rw [Names, if_pos h])
  else decidable_of_iff (List.Forall₂ Meets _ _) (by rw [Names, if_neg h])

/-- The levels of a filter up to its first `#`. -/
def upToHash : List (List Char) → List (List Char)
  | [] => []
  | level :: rest => if level = ['#'] then [['#']] else level :: upToHash rest

/-- A filter without `#` before its end is read to its end. -/
theorem upToHash_eq_self {filter : List (List Char)} (h : ['#'] ∉ filter.dropLast) :
    upToHash filter = filter := by
  induction filter with
  | nil => rfl
  | cons level rest ih =>
    cases rest with
    | nil => by_cases hlevel : level = ['#'] <;> simp [upToHash, hlevel]
    | cons next rest =>
      obtain ⟨hlevel, hrest⟩ : level ≠ ['#'] ∧ ['#'] ∉ (next :: rest).dropLast := by
        simpa [eq_comm] using h
      rw [upToHash, if_neg hlevel, ih hrest]

/-- Nothing is named by no levels but no levels. -/
theorem names_nil {topic : List (List Char)} : Names [] topic ↔ topic = [] := by
  simp [Names]

/-- A lone `#` names everything. -/
theorem names_hash (topic : List (List Char)) : Names [['#']] topic := by
  simp [Names]

/-- A level that does not end the filter as `#` meets the topic's first level, and what stands
behind it names the rest of the topic. -/
theorem names_cons {level : List Char} {rest topic : List (List Char)}
    (h : level ≠ ['#'] ∨ rest ≠ []) :
    Names (level :: rest) topic
      ↔ ∃ first others, topic = first :: others ∧ Meets level first ∧ Names rest others := by
  cases rest with
  | nil =>
    have hlevel : level ≠ ['#'] := by simpa using h
    simp only [Names, List.getLast?_singleton, Option.some.injEq, hlevel, if_false,
      List.getLast?_nil, reduceCtorEq]
    exact List.forall₂_cons_left_iff.trans
      ⟨fun ⟨first, others, hmeets, hrest, ht⟩ => ⟨first, others, ht, hmeets, hrest⟩,
        fun ⟨first, others, ht, hmeets, hrest⟩ => ⟨first, others, hmeets, hrest, ht⟩⟩
  | cons next rest =>
    cases topic with
    | nil => simp [Names]
    | cons first others =>
      simp only [Names, List.getLast?_cons_cons, List.dropLast_cons_cons, List.length_cons,
        Nat.add_le_add_iff_right, List.take_succ_cons, List.forall₂_cons, List.cons.injEq]
      split <;> grind

/-- Reading a filter level by level finds the topics that are named by the levels up to its first
`#`. -/
theorem matchLevels_iff (filter topic : List (List Char)) :
    matchLevels filter topic = true ↔ Names (upToHash filter) topic := by
  fun_induction matchLevels filter topic with
  | case1 topic => simp [upToHash, names_nil]
  | case2 topic rest => simp [upToHash, names_hash]
  | case3 rest => simp [upToHash, names_cons]
  | case4 rest level topic ih =>
    simp [upToHash, names_cons, Meets, ih]
  | case5 wanted rest hhash hplus =>
    have hwanted : wanted ≠ ['#'] := fun heq => hhash heq
    simp [upToHash, hwanted, names_cons]
  | case6 wanted rest level topic hhash hplus ih =>
    have hwanted : wanted ≠ ['#'] := fun heq => hhash heq
    have hplain : wanted ≠ ['+'] := fun heq => hplus heq
    simp [upToHash, hwanted, names_cons, Meets, hplain, ih]

/-- What a filter names is named by its levels up to the first `#` as well. -/
theorem Names.upToHash {filter topic : List (List Char)} (h : Names filter topic) :
    Names (upToHash filter) topic := by
  induction filter generalizing topic with
  | nil => exact h
  | cons level rest ih =>
    rw [Filter.upToHash]
    split
    · exact names_hash topic
    · next hlevel =>
      obtain ⟨first, others, rfl, hmeets, hrest⟩ := (names_cons (.inl hlevel)).1 h
      exact (names_cons (.inl hlevel)).2 ⟨first, others, rfl, hmeets, ih hrest⟩

/-- A filter accepts the topics that its levels up to the first `#` name. It accepts whatever it
names itself, and nothing more if no `#` stands before its end. -/
theorem accepts_what_is_named (filter topic : String) :
    (accepts filter topic = true
        ↔ Names (upToHash (Level.split filter.toList)) (Level.split topic.toList)) ∧
      (Names (Level.split filter.toList) (Level.split topic.toList)
        → accepts filter topic = true) ∧
      (['#'] ∉ (Level.split filter.toList).dropLast →
        (accepts filter topic = true
          ↔ Names (Level.split filter.toList) (Level.split topic.toList))) := by
  have hread : accepts filter topic = true
      ↔ Names (upToHash (Level.split filter.toList)) (Level.split topic.toList) :=
    matchLevels_iff _ _
  refine ⟨hread, fun hnames => hread.2 hnames.upToHash, fun hhash => ?_⟩
  rw [hread, upToHash_eq_self hhash]

/-- The lamps of every room are found below it, the room with an empty name included. -/
theorem lamps_of_every_room :
    ['#'] ∉ (Level.split "home/+/lamp/#".toList).dropLast ∧
      accepts "home/+/lamp/#" "home//lamp/left/level" = true ∧
      Names (Level.split "home/+/lamp/#".toList) (Level.split "home//lamp/left/level".toList) := by
  have hhash : ['#'] ∉ (Level.split "home/+/lamp/#".toList).dropLast := by decide +kernel
  have haccepts : accepts "home/+/lamp/#" "home//lamp/left/level" = true := by decide +kernel
  exact ⟨hhash, haccepts,
    ((accepts_what_is_named "home/+/lamp/#" "home//lamp/left/level").2.2 hhash).1 haccepts⟩

/-- What stands behind an early `#` is not asked for: `a/#/b` accepts `a/c`, which it does not
name. -/
theorem early_hash_is_the_end :
    accepts "a/#/b" "a/c" = true ∧
      ¬ Names (Level.split "a/#/b".toList) (Level.split "a/c".toList) := by
  decide +kernel

end TopicTree.Filter
