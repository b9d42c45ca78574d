import Mathlib.Data.List.Induction
import TopicTree.Proofs.Address.Retracing
import TopicTree.Proofs.Routing.Bound
import TopicTree.Proofs.Routing.Walk

/-!
# Passages through a tree

What several steps do to a message that finds its way. Going up it collects the names of the entries
it leaves, so that its source spells the walk it came by; going down it loses the names it follows.
Both leave the site as it is.
-/

namespace TopicTree.Site

variable {M : Type} [Medium M]

/-! ## Several steps -/

/-- A message at a site gets, step by step, to another place, and leaves the site so. -/
inductive Goes : Hop → Site M → Hop → Site M → Prop
  | here (hop : Hop) (site : Site M) : Goes hop site hop site
  | step {hop next last : Hop} {site mid after : Site M} (first : site.step hop = (some next, mid))
      (rest : Goes next mid last after) : Goes hop site last after

namespace Goes

/-- One step gets a message further. -/
theorem single {hop next : Hop} {site after : Site M} (first : site.step hop = (some next, after)) :
    Goes hop site next after :=
  .step first (.here next after)

/-- What goes on after it has gone somewhere goes all the way. -/
theorem trans {first second third : Hop} {site mid after : Site M}
    (h : Goes first site second mid) (h' : Goes second mid third after) :
    Goes first site third after := by
  induction h with
  | here => exact h'
  | step goes _ ih => exact .step goes (ih h')

/-- A message that gets somewhere and comes to rest from there comes to rest. -/
theorem rests {hop last : Hop} {site mid after : Site M} {steps : Nat} (h : Goes hop site last mid)
    (h' : Rests last mid steps after) : ∃ steps, Rests hop site steps after := by
  induction h with
  | here => exact ⟨steps, h'⟩
  | step goes _ ih =>
    obtain ⟨steps, hsteps⟩ := ih h'
    exact ⟨steps + 1, .next goes hsteps⟩

/-- In a well-formed tree a message is routed to where it gets and what its last step does there. -/
theorem route_eq {hop last : Hop} {site mid after : Site M} (h : Goes hop site last mid)
    (wellFormed : site.tree.WellFormed) (ends : mid.step last = (none, after)) :
    site.route hop = after := by
  have houtcome := outcome_step mid last
  rw [ends] at houtcome
  obtain ⟨steps, hrests⟩ := h.rests (.last ends houtcome)
  obtain ⟨steps', _, hroute⟩ := exists_rests_route wellFormed hop
  exact hroute.unique hrests

end Goes

/-! ## Single steps -/

variable {site : Site M} {here : Nat} {message : Envelope}

omit [Medium M] in
/-- The entry of a place that has a form. -/
theorem exists_entry {form : Form} (h : site.tree.form? here = some form) :
    ∃ entry, site.tree.get? here = some entry ∧ entry.role.form = form ∧
      site.tree.parent? here = entry.parent ∧ site.tree.name? here = entry.name := by
  obtain ⟨entry, hentry, hform⟩ := Option.map_eq_some_iff.1 h
  refine ⟨entry, hentry, hform, ?_, ?_⟩
  · rw [Tree.parent?, hentry, Option.bind_some]
  · rw [Tree.name?, hentry, Option.bind_some]

omit [Medium M] in
/-- Whether an entry is the local root below a device end is told by its parent. -/
theorem isBelowLink_iff {entry : Entry} :
    site.tree.isBelowLink entry ↔
      ∃ above, entry.parent = some above ∧ site.tree.form? above = some .deviceEnd := by
  rw [Tree.isBelowLink, Option.any_eq_true]
  simp only [Tree.isDeviceEnd_iff]

/-- Going up from below an entry that is no device end, a message collects the name it leaves. -/
theorem stepUp_climb {above : Nat} {name : Name} {source : Path}
    (wellFormed : site.tree.WellFormed) (below : site.tree.parent? here = some above)
    (inner : site.tree.form? above ≠ some .deviceEnd) (named : site.tree.name? here = some name)
    (collects : Path.prepend name.text message.source = .ok source) :
    site.step (.up here message) = (some (.up above { message with source }), site) := by
  obtain ⟨entry, hentry, hparent⟩ := Option.bind_eq_some_iff.1 below
  have hname : entry.name = some name := by simpa [Tree.name?, hentry] using named
  have hend : ¬site.tree.isDeviceEnd here := fun hend =>
    wellFormed.not_deviceEnd_of_parent? below ((Tree.isDeviceEnd_iff _ _).1 hend)
  have hbelow : ¬site.tree.isBelowLink entry := by
    rw [isBelowLink_iff, hparent]
    rintro ⟨other, hother, hform⟩
    exact inner (Option.some.inj hother ▸ hform)
  have hturn : ¬site.tree.isTurn entry message := by
    unfold Tree.isTurn
    cases message.dest.anchor <;> simp [hparent, hbelow]
  simp only [step, stepUp, hentry, if_neg hend, if_neg hturn, hparent, if_neg hbelow, hname,
    collects]

/-- From the local root a message that does not turn there goes up to the device end as it is. -/
theorem stepUp_leave {above : Nat} (wellFormed : site.tree.WellFormed)
    (below : site.tree.parent? here = some above)
    (outer : site.tree.form? above = some .deviceEnd) (asks : message.kind ≠ .notification)
    (outside : message.dest.anchor ≠ .near) :
    site.step (.up here message) = (some (.up above message), site) := by
  obtain ⟨entry, hentry, hparent⟩ := Option.bind_eq_some_iff.1 below
  have hend : ¬site.tree.isDeviceEnd here := fun hend =>
    wellFormed.not_deviceEnd_of_parent? below ((Tree.isDeviceEnd_iff _ _).1 hend)
  have hbelow : site.tree.isBelowLink entry := isBelowLink_iff.2 ⟨above, hparent, outer⟩
  have hturn : ¬site.tree.isTurn entry message := by
    unfold Tree.isTurn
    cases hanchor : message.dest.anchor <;> simp_all
  simp only [step, stepUp, hentry, if_neg hend, if_neg hturn, hparent, if_pos hbelow]

/-- At the device end a message leaves the tree. -/
theorem stepUp_deviceEnd (outer : site.tree.form? here = some .deviceEnd) :
    site.step (.up here message) = (none, site.relayUp here message) := by
  obtain ⟨entry, hentry, _⟩ := exists_entry outer
  simp only [step, stepUp, hentry, if_pos ((Tree.isDeviceEnd_iff _ _).2 outer)]

/-- At the local root a message to somewhere from there turns around. -/
theorem stepUp_turn {form : Form} (there : site.tree.form? here = some form)
    (inner : form ≠ .deviceEnd) (asks : message.kind ≠ .notification)
    (turns : (site.tree.parent? here = none ∧ message.dest.anchor ≠ .far) ∨
      message.dest.anchor = .near ∧ ∃ above, site.tree.parent? here = some above ∧
        site.tree.form? above = some .deviceEnd) :
    site.step (.up here message)
      = (some (.down here
          { message with source := message.source.withAnchor message.dest.anchor }), site) := by
  obtain ⟨entry, hentry, _, hparent, _⟩ := exists_entry there
  have hend : ¬site.tree.isDeviceEnd here := by
    rw [Tree.isDeviceEnd_iff, there]
    simpa using inner
  have hturn : site.tree.isTurn entry message := by
    rw [hparent] at turns
    unfold Tree.isTurn
    rcases turns with ⟨hnone, hanchor⟩ | ⟨hanchor, above, habove, hform⟩
    · cases hcase : message.dest.anchor <;> simp_all
    · have hbelow : site.tree.isBelowLink entry := isBelowLink_iff.2 ⟨above, habove, hform⟩
      simp [hanchor, hbelow, asks]
  simp only [step, stepUp, hentry, if_neg hend, if_pos hturn, if_neg asks]

omit [Medium M] in
/-- The entry of a node or bridge is no link. -/
theorem link?_entry {entry : Entry} (there : site.tree.get? here = some entry)
    (form : site.tree.form? here = some .node ∨ site.tree.form? here = some .bridge) :
    entry.role.link? = none := by
  have hlink := Tree.link?_eq_none form
  rwa [Tree.link?, there, Option.bind_some] at hlink

/-- At a node or bridge a message on its way down descends. -/
theorem stepDown_descend
    (form : site.tree.form? here = some .node ∨ site.tree.form? here = some .bridge) :
    site.step (.down here message) = site.descend here message := by
  obtain ⟨entry, hentry⟩ : ∃ entry, site.tree.get? here = some entry := by
    rcases form with form | form
    all_goals
      obtain ⟨entry, hentry, _⟩ := exists_entry form
      exact ⟨entry, hentry⟩
  simp only [step, stepDown, hentry, link?_entry hentry form]

/-- A message with no name left is delivered. -/
theorem descend_arrive (spells : message.dest.Spells []) :
    site.descend here message = site.deliver here message := by
  rw [descend, if_pos (spells.isEmpty_iff.2 rfl)]

/-- A message with levels left follows the first of them. -/
theorem descend_enter {level : String} {child : Nat}
    (first : message.dest.first = .ok (some level))
    (found : site.tree.childNamed here level = some child) :
    site.descend here message
      = (some (.down child { message with dest := message.dest.dropFirst }), site) := by
  have hempty : ¬message.dest.isEmpty := fun hempty => by
    cases (Path.first_of_isEmpty hempty).symm.trans first
  rw [descend, if_neg hempty]
  simp only [first, Option.bind_some, found]

/-- A request whose next name is nobody's is answered so. -/
theorem descend_lost {name : Name} {names : List Name}
    (spells : message.dest.Spells (name :: names)) (asked : message.kind = .request)
    (missing : site.tree.childNamed here name.text = none) :
    site.descend here message
      = (some (.up here (message.response .noSuchNode Params.empty)), site) := by
  have hempty : ¬message.dest.isEmpty := fun hempty => by cases spells.isEmpty_iff.1 hempty
  rw [descend, if_neg hempty]
  simp only [spells.first_cons, Option.bind_some, missing, reject, if_pos asked]

/-- A request whose next level can be no name is answered so. -/
theorem descend_malformed {e : Error} (first : message.dest.first = .error e)
    (asked : message.kind = .request) :
    site.descend here message
      = (some (.up here (message.response e.returnCode Params.empty)), site) := by
  have hempty : ¬message.dest.isEmpty := fun hempty => by
    cases (Path.first_of_isEmpty hempty).symm.trans first
  rw [descend, if_neg hempty]
  simp only [first, reject, if_pos asked]

/-! ## Going up and down -/

/-- Going up a walk, a message puts the names of the walk in front of its source. -/
theorem goes_up_of_prependAll (message : Envelope) (wellFormed : site.tree.WellFormed) {base : Nat}
    {names : List Name} {source : Path} (inner : site.tree.form? base ≠ some .deviceEnd)
    (walk : site.tree.walk base names = some here)
    (collects : Path.prependAll names message.source = .ok source) :
    Goes (.up here message) site (.up base { message with source }) site := by
  induction names using List.reverseRecOn generalizing here message with
  | nil =>
    obtain rfl := Option.some.inj walk
    cases collects
    exact .here _ _
  | append_singleton front name ih =>
    obtain ⟨above, hfront, hchild⟩ := Tree.walk_concat_eq_some.1 walk
    obtain ⟨hparent, own, hown, htext⟩ := wellFormed.of_childNamed hchild
    rw [Path.prependAll_append, Path.prependAll_singleton] at collects
    obtain ⟨longer, hlonger, hrest⟩ := bind_eq_ok.1 collects
    have hstep := stepUp_climb wellFormed hparent (wellFormed.not_deviceEnd_of_walk inner hfront)
      hown (htext ▸ hlonger)
    exact .step hstep (ih { message with source := longer } hfront hrest)

/-- Going up a walk, a message from below a row of names comes from below a longer row. -/
theorem goes_up (message : Envelope) (wellFormed : site.tree.WellFormed) {base : Nat}
    {names tail : List Name} (inner : site.tree.form? base ≠ some .deviceEnd)
    (walk : site.tree.walk base names = some here) (spells : message.source.Spells tail)
    (room : (Name.join (names ++ tail)).utf8ByteSize ≤ maxPath) :
    ∃ source, source.anchor = message.source.anchor ∧ source.Spells (names ++ tail) ∧
      Goes (.up here message) site (.up base { message with source }) site := by
  obtain ⟨source, hsource, hanchor, hspells⟩ := spells.prependAll room
  exact ⟨source, hanchor, hspells, goes_up_of_prependAll message wellFormed inner walk hsource⟩

/-- Going down a walk, a message loses the names of the walk, whatever is left behind them. -/
theorem goes_along (message : Envelope) (wellFormed : site.tree.WellFormed) {finish : Nat}
    {names : List Name} {rest : Path} (inner : site.tree.form? here ≠ some .deviceEnd)
    (walk : site.tree.walk here names = some finish) (leaves : message.dest.Leaves names rest) :
    Goes (.down here message) site (.down finish { message with dest := rest }) site := by
  induction names generalizing here message with
  | nil =>
    obtain rfl := Option.some.inj walk
    cases leaves
    exact .here _ _
  | cons name names ih =>
    obtain ⟨child, hchild, hrest⟩ := Option.bind_eq_some_iff.1 walk
    cases leaves with
    | cons first more =>
      have hparent := (wellFormed.of_childNamed hchild).1
      have hstep := (stepDown_descend (.inl (wellFormed.node_of_child hparent inner))).trans
        (descend_enter first hchild)
      exact .step hstep (ih { message with dest := message.dest.dropFirst }
        (wellFormed.not_deviceEnd_of_parent? hparent) hrest more)

/-- Going down a walk, a message whose path is a row of names keeps those behind the walk. -/
theorem goes_down (message : Envelope) (wellFormed : site.tree.WellFormed) {finish : Nat}
    {front back : List Name} (inner : site.tree.form? here ≠ some .deviceEnd)
    (walk : site.tree.walk here front = some finish)
    (spells : message.dest.Spells (front ++ back)) :
    ∃ dest, dest.anchor = message.dest.anchor ∧ dest.Spells back ∧
      Goes (.down here message) site (.down finish { message with dest }) site := by
  obtain ⟨dest, hleaves, hspells⟩ := spells.leaves
  exact ⟨dest, hleaves.anchor_eq, hspells, goes_along message wellFormed inner walk hleaves⟩

end TopicTree.Site
