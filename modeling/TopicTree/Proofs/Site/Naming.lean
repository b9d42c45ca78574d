import TopicTree.Proofs.Message.RoundTrip
import TopicTree.Proofs.Site.Traffic
import TopicTree.Site.Provision

/-!
# Messages about names on the wire

What the two ends of a link tell each other about a name, and what they can take for it. A request
for a name and its answer are read as they were written. Whatever else is written, its kind and the
levels of its destination are read, so a message that does not mention the link manager is taken for
no message to it.
-/

namespace TopicTree

/-- A text has the link manager among its levels. -/
def MentionsManager (text : String) : Prop :=
  linkManager.toList ∈ Level.split text.toList

instance (text : String) : Decidable (MentionsManager text) :=
  inferInstanceAs (Decidable (_ ∈ _))

namespace Path

variable {path : Path}

/-- A path to the link manager mentions it. -/
theorem mentionsManager_of_isManager (h : path.isManager) : MentionsManager path.segments := by
  unfold isManager at h
  split at h
  · next level hfirst =>
    obtain rfl := of_decide_eq_true h
    rw [MentionsManager, ← level_of_first hfirst]
    exact Level.first_mem_split _
  · cases h

/-- The anchor of a path does not mention the link manager. -/
theorem mentionsManager_toText (path : Path) :
    MentionsManager path.toText ↔ MentionsManager path.segments := by
  rw [MentionsManager, MentionsManager, toText, String.toList_append]
  cases path.anchor with
  | top => simp [Anchor.lead]
  | near =>
    have hlead : Anchor.near.lead.toList ++ path.segments.toList
        = ['~'] ++ Level.slash :: path.segments.toList := rfl
    rw [hlead, Level.split_append_slash, List.mem_append]
    exact or_iff_right (by decide)
  | far =>
    have hlead : Anchor.far.lead.toList ++ path.segments.toList
        = ['~', '/', '.', '.'] ++ Level.slash :: path.segments.toList := rfl
    rw [hlead, Level.split_append_slash, List.mem_append]
    exact or_iff_right (by decide)

/-- A text that is a path mentions the link manager exactly if the levels of the path do. -/
theorem mentionsManager_of_ofText {text : String} (h : ofText text = .ok path) :
    MentionsManager text ↔ MentionsManager path.segments := by
  rw [← mentionsManager_toText, toText_of_ofText h]

end Path

/-! ## Parameters -/

/-- A text field is read back. -/
theorem Params.text?_ofText {text : String} {params : Params} (h : ofText text = .ok params) :
    params.text? 0 = some text := by
  simp only [ofText, addText, addField, check_eq_ok, ofBytes] at h
  obtain ⟨hshort, h⟩ := h
  split at h
  · cases h
    have hlength : text.utf8ByteSize % 256 = text.utf8ByteSize :=
      Nat.mod_eq_of_lt (by simp only [maxField, Text.length_toBytes] at hshort; omega)
    have htake : (Text.toBytes text).take text.utf8ByteSize = Text.toBytes text :=
      List.take_of_length_le (Nat.le_of_eq (Text.length_toBytes text))
    simp [text?, field?, fields, empty, splitFields, hlength, htake]
  · cases h

namespace Envelope

variable {envelope other : Envelope} {frame : Frame}

/-- The kind and the destination of a written message are read, whatever becomes of the rest. -/
theorem dest_of_written (made : envelope.toFrame = .ok frame) (read : ofFrame frame = .ok other) :
    other.kind = envelope.kind ∧ other.dest.toText = envelope.dest.toText := by
  have hwritten : Publish.ofFrame frame = .ok envelope.written :=
    Publish.ofFrame_eq_ok_iff_toFrame.2 (toFrame_eq_ok.1 made)
  obtain ⟨-, -, packetId, code, retain, dup, -, -, hread⟩ := ofFrame_eq_ok.1 read
  have htopic : other.kind.marker ++ other.dest.toText
      = envelope.kind.marker ++ envelope.dest.toText :=
    congrArg Publish.topic (Except.ok.inj (hread.symm.trans hwritten))
  have hother := Kind.splitMarker_eq_some.2 (rfl : other.kind.marker ++ other.dest.toText = _)
  rw [htopic, Kind.splitMarker_eq_some.2 rfl] at hother
  simpa [eq_comm] using hother

/-- The response to a message that was read is read as it was written. -/
theorem ofFrame_response {request : Envelope} {asked : Frame} {code : ReturnCode} {params : Params}
    (read : ofFrame asked = .ok request)
    (made : (request.response code params).toFrame = .ok frame) :
    ofFrame frame = .ok (request.response code params) :=
  (ofFrame_written made).2 ⟨(ofFrame_eq_ok.1 read).2.1, reads_empty, fun h => absurd rfl h⟩

end Envelope

/-- A frame that proposes no name to the manager of a link but a given one. -/
def Frame.Proposes (name : Name) (frame : Frame) : Prop :=
  ∀ message, Envelope.ofFrame frame = .ok message → message.kind = .request →
    message.dest.isManager → message.params.text? 0 = some name.text

/-- A message that goes up a link proposes no name if it is no request that mentions a manager. -/
theorem Envelope.proposes_relayedUp {message : Envelope} {frame : Frame} {name : Name}
    (shuns : message.kind = .request → ¬MentionsManager message.dest.segments)
    (made : message.relayedUp.toFrame = .ok frame) : frame.Proposes name := by
  intro other read asked manager
  obtain ⟨hkind, hdest⟩ := dest_of_written made read
  have hrelayed : message.relayedUp.kind = message.kind ∧
      message.relayedUp.dest.segments = message.dest.segments := by
    unfold relayedUp
    split <;> exact ⟨rfl, rfl⟩
  refine absurd ?_ (shuns (hrelayed.1.symm.trans (hkind.symm.trans asked)))
  rw [← hrelayed.2, ← Path.mentionsManager_toText, ← hdest, Path.mentionsManager_toText]
  exact Path.mentionsManager_of_isManager manager

/-- The request that the device end of a link makes proposes the name of its local root. -/
theorem Tree.proposes_namingRequest? {tree : Tree} {link root : Nat} {name : Name}
    {request : Envelope} {frame : Frame} (there : (tree.children link).head? = some root)
    (named : tree.name? root = some name) (asks : tree.namingRequest? link = some request)
    (made : request.toFrame = .ok frame) : frame.Proposes name := by
  intro other read _ _
  simp only [namingRequest?, there, named, Option.bind_eq_bind, Option.bind_some,
    Option.bind_eq_some_iff, toOption_eq_some, Option.pure_def, Option.some.injEq] at asks
  obtain ⟨params, hparams, manager, hmanager, plain, hplain, rfl⟩ := asks
  have hreads : manager.Reads := Path.reads_of_ofText hmanager
  unfold Envelope.request Envelope.outgoing at hplain
  split at hplain
  · cases hplain
    have hread := (Envelope.ofFrame_written made).2 ⟨hreads, hreads, fun _ => rfl⟩
    obtain rfl := Except.ok.inj (read.symm.trans hread)
    exact Params.text?_ofText hparams
  · cases hplain

end TopicTree
