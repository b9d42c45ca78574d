import TopicTree.Text.Level

/-!
# Topic filters

A filter is compared with a topic level by level. `+` stands for any one level, and `#` ends the
comparison with a match, whatever is left of the topic.
-/

namespace TopicTree.Filter

/-- Whether the levels of a filter match the levels of a topic. -/
def matchLevels : List (List Char) → List (List Char) → Bool
  | [], topic => topic = []
  | ['#'] :: _, _ => true
  | ['+'] :: _, [] => false
  | ['+'] :: filter, _ :: topic => matchLevels filter topic
  | _ :: _, [] => false
  | wanted :: filter, level :: topic => wanted = level && matchLevels filter topic

/-- Whether a topic filter matches a topic. -/
def accepts (filter topic : String) : Bool :=
  matchLevels (Level.split filter.toList) (Level.split topic.toList)

end TopicTree.Filter
