import TopicTree.Proofs.Address.Text
import TopicTree.Proofs.Routing.Answer

/-!
# Addressing a node by the names on the way to it

A path without a lead starts at the top, so the names on the way from the top to a node, joined with
slashes, are a path to it. They are read as one unless the first of them is `~` and others follow:
then that name is taken for a lead, and the path starts elsewhere.
-/

namespace TopicTree

namespace Path

/-- The anchor and the names that a row of names is read with when its text is taken for a path. -/
def reading (names : List Name) : Anchor × List Name :=
  match past? "~" names with
  | none => (.top, names)
  | some inner =>
    match past? ".." inner with
    | none => (.near, inner)
    | some outer => (.far, outer)

/-- A row of names that is read from the top is read as it is. -/
theorem reading_top {names read : List Name} (h : reading names = (.top, read)) : read = names := by
  unfold reading at h
  split at h
  · exact (Prod.mk.inj h).2.symm
  · split at h <;> cases h

/-- The lead that a row of names begins with is told by its first two names. -/
theorem splitAnchor_join (names : List Name) :
    splitAnchor (Name.join names) = ((reading names).1, Name.join (reading names).2) := by
  have hnear : Level.after? ("~" ++ "/").toList (Name.join names).toList
      = (past? "~" names).map fun rest => (Name.join rest).toList := after?_join_eq (by decide) names
  have hfar : Level.after? Anchor.far.lead.toList (Name.join names).toList
      = (past? "~" names).bind fun inner =>
          (past? ".." inner).map fun rest => (Name.join rest).toList := by
    have hlead : Anchor.far.lead.toList = ("~" ++ "/").toList ++ (".." ++ "/").toList := by decide
    rw [hlead, Level.after?_append, hnear]
    cases past? "~" names with
    | none => rfl
    | some inner => exact after?_join_eq (by decide) inner
  have hlead : Anchor.near.lead.toList = ("~" ++ "/").toList := by decide
  unfold splitAnchor reading
  rw [hfar, hlead, hnear]
  cases past? "~" names with
  | none => rfl
  | some inner =>
    cases hdots : past? ".." inner with
    | none => simp [hdots]
    | some outer => simp [hdots]

/-- A row of names that is taken for a path spells the names that it is read with. -/
theorem spells_of_ofText {names : List Name} {path : Path}
    (h : ofText (Name.join names) = .ok path) :
    path.anchor = (reading names).1 ∧ path.Spells (reading names).2 := by
  obtain ⟨hanchor, hsegments⟩ := ofSegments_eq_ok_iff.1 h
  rw [splitAnchor_join] at hanchor hsegments
  exact ⟨hanchor, hsegments⟩

end Path

/-- Where a walk leads to an endpoint with a method on offer, the reference calls it. -/
theorem Tree.consult_of_offered {tree : Tree} {here target : Nat} {names : List Name}
    {endpoint : Endpoint} {method : String} {params : Params} {reply : Reply}
    (leads : tree.walk here names = some target) (there : tree.endpoint? target = some endpoint)
    (offered : endpoint.replyTo method params = some reply) :
    tree.consult here names method params = ([.called target method params], reply) := by
  simp only [consult, leads, there, Option.bind_some, offered]

namespace Site

variable {M : Type} [Medium M] {site : Site M}

/-- At a plain node that is the top a request to across a link is dropped. -/
theorem stepUp_lost {message : Envelope} (wellFormed : site.tree.WellFormed)
    (top : site.tree.form? 0 = some .node) (asked : message.kind = .request)
    (outside : message.dest.anchor = .far) : site.step (.up 0 message) = (none, site) := by
  obtain ⟨entry, hentry, -, hparent, -⟩ := exists_entry top
  have hinner := Tree.not_isDeviceEnd_of_node top
  have hturn : ¬site.tree.isTurn entry message := by simp [Tree.isTurn, asked, outside]
  simp only [step, stepUp, hentry, if_neg hinner, if_neg hturn,
    hparent.symm.trans wellFormed.parent?_zero]

variable {after : Site M} {node target : Nat} {method path tag : String} {params : Params}
  {now : Nat} {id : UInt16} {dest : Path} {names own : List Name} {endpoint : Endpoint}
  {reply : Reply}

/-- A request to across a link above is lost where there is none. Nobody is called or told. -/
theorem untold_of_far (wellFormed : site.tree.WellFormed) (top : site.tree.form? 0 = some .node)
    (accepted : site.execute node method path params now tag = .ok (id, after))
    (parsed : Path.ofText path = .ok dest) (outside : dest.anchor = .far)
    (walk : site.tree.walk 0 own = some node) (room : (Name.join own).utf8ByteSize ≤ maxPath) :
    after.log = site.log := by
  obtain ⟨request, old, new, issued, -, -, rfl⟩ := issued_of_execute accepted parsed
  let asking := site.withTree (site.tree.setEndpoint node new)
  have hsame : site.tree.outline = asking.tree.outline :=
    (Tree.outline_setEndpoint site.tree node new).symm
  have hwellFormed : asking.tree.WellFormed := wellFormed.congr hsame
  have hspells : request.source.Spells [] := by
    rw [issued.source]
    exact Path.spells_empty .top
  rw [Tree.form?_congr hsame] at top
  rw [Tree.walk_congr hsame] at walk
  rw [← List.append_nil own] at room
  obtain ⟨source, -, -, hgoes⟩ := goes_up request hwellFormed (by simp [top]) walk hspells room
  have hlost : asking.step (.up 0 { request with source }) = (none, asking) :=
    stepUp_lost hwellFormed top issued.kind (by rw [← outside, ← issued.dest])
  change (asking.route (.up node request)).log = asking.log
  rw [hgoes.route_eq hwellFormed hlost]

/-- In a reachable tree with a plain node at the top, let the names on the way from there to a node
or bridge, joined with slashes, be the path of a request for a method on offer there, and let the
request be accepted. The requester stands at the end of a walk from the top; and whenever that walk
fits a path, the method is called there and its reply told to the caller, if the names are read from
the top. If the first of them is `~` and others follow, it is read as a lead. Then the names behind it
are followed from the top, or, if the next one is `..` and others follow, nobody is called or told. -/
theorem names_are_a_path (reachable : site.Reachable) (top : site.tree.form? 0 = some .node)
    (leads : site.tree.walk 0 names = some target)
    (there : site.tree.endpoint? target = some endpoint)
    (offered : endpoint.replyTo method params = some reply)
    (accepted : site.execute node method (Name.join names) params now tag = .ok (id, after)) :
    (∃ own, site.tree.walk 0 own = some node) ∧
      ∀ own, site.tree.walk 0 own = some node → (Name.join own).utf8ByteSize ≤ maxPath →
        match Path.reading names with
        | (.top, _) =>
          after.log = site.log
            ++ [.called target method params, .replied tag reply.code reply.params]
        | (.near, inner) =>
          site.tree.StaysInside 0 inner →
            let (calls, answer) := site.tree.consult 0 inner method params
            after.log = site.log ++ calls ++ [.replied tag answer.code answer.params]
        | (.far, _) => after.log = site.log := by
  have wellFormed := reachable.wellFormed
  have hinner : site.tree.form? 0 ≠ some .deviceEnd := by simp [top]
  have hroot : site.tree.localRoot = 0 := Tree.WellFormed.localRoot_eq_zero hinner
  obtain ⟨dest, _, _, _, parsed, _⟩ := execute_eq_ok accepted
  obtain ⟨hanchor, hspells⟩ := Path.spells_of_ofText parsed
  refine ⟨hroot ▸ exists_walk_of_execute wellFormed accepted, fun own walk room => ?_⟩
  cases hreading : Path.reading names with
  | mk anchor read =>
  rw [hreading] at hanchor hspells
  have htold (anchored : dest.anchor = .near ∨ dest.anchor = .top ∧ site.tree.form? 0 = some .node)
      (inside : site.tree.StaysInside 0 read) :=
    told_of_consult wellFormed accepted parsed hspells anchored (hroot.symm ▸ inside)
      (hroot.symm ▸ walk) room
  rw [hroot] at htold
  cases anchor with
  | top =>
    obtain rfl := Path.reading_top hreading
    have hform := (Tree.isSome_endpoint?_iff site.tree target).1 (by rw [there]; rfl)
    have hinside := wellFormed.staysInside hinner leads (Tree.link?_eq_none hform)
    rw [Tree.consult_of_offered leads there offered] at htold
    have hlog := (htold (.inr ⟨hanchor, top⟩) hinside).1
    rwa [List.append_assoc] at hlog
  | near => exact fun inside => (htold (.inl hanchor) inside).1
  | far => exact untold_of_far wellFormed top accepted parsed hanchor walk room

/-- The moves that build a house with a bell, and a door on the porch that repeats what it is
told. -/
def buildPorch : List (Move Cabling) :=
  [.call (.build (.addRoot "house")), .call (.build (.addNode 0 "bell")),
    .call (.build (.addNode 0 "porch")), .call (.build (.addNode 2 "door")),
    .call (.build (.addMethod 3 "say" Handler.echo))]

/-- A house with a bell, and a door on the porch that repeats what it is told. -/
def porch : Site Cabling :=
  (start 5 (Pool.ofSize 1) Cabling.empty).run buildPorch

/-- The door on the porch is called by the two names on the way to it. -/
theorem door_is_called : ∃ id after,
    porch.execute 1 "say" "porch/door" Params.empty 3 "caller" = .ok (id, after) ∧
      after.log = [.called 3 "say" Params.empty, .replied "caller" .success Params.empty] := by
  have reachable : porch.Reachable := ⟨5, Pool.ofSize 1, Cabling.empty, buildPorch, rfl⟩
  let names : List Name := [⟨"porch", by decide, by decide, by decide⟩, door]
  have leads : porch.tree.walk 0 names = some 3 := by decide +kernel
  have offers : (porch.tree.endpoint? 3).bind (·.replyTo "say" Params.empty)
      = some (Reply.bare .success) := by decide +kernel
  obtain ⟨endpoint, there, offered⟩ := Option.bind_eq_some_iff.1 offers
  have joined : Name.join names = "porch/door" := by decide
  have okay : (porch.execute 1 "say" (Name.join names) Params.empty 3 "caller").isOk := by
    decide +kernel
  obtain ⟨⟨id, after⟩, accepted⟩ := exists_eq_ok okay
  obtain ⟨_, hanswer⟩ :=
    names_are_a_path reachable (by decide +kernel) leads there offered accepted
  exact ⟨id, after, joined ▸ accepted, hanswer [bell] (by decide +kernel) (by decide +kernel)⟩

/-- The moves that build a house with a node `~`, below which is a lamp that repeats what it is
told. -/
def buildLoft : List (Move Cabling) :=
  [.call (.build (.addRoot "house")), .call (.build (.addNode 0 "~")),
    .call (.build (.addNode 1 "lamp")), .call (.build (.addMethod 2 "on" Handler.echo))]

/-- A house with a node `~`, below which is a lamp that repeats what it is told. -/
def loft : Site Cabling :=
  (start 5 (Pool.ofSize 1) Cabling.empty).run buildLoft

/-- A lamp below a node `~` is not called by the names on the way to it. -/
theorem lamp_in_loft_is_not_found :
    let names : List Name :=
      [⟨"~", by decide, by decide, by decide⟩, ⟨"lamp", by decide, by decide, by decide⟩]
    loft.Reachable ∧ loft.tree.form? 0 = some .node ∧ loft.tree.walk 0 names = some 2 ∧
      Name.join names = "~/lamp" ∧
      ((loft.tree.endpoint? 2).bind (·.replyTo "on" Params.empty)).isSome ∧
      ∃ id after, loft.execute 0 "on" "~/lamp" Params.empty 3 "caller" = .ok (id, after) ∧
        after.log = [.replied "caller" .noSuchNode Params.empty] := by
  intro names
  have reachable : loft.Reachable := ⟨5, Pool.ofSize 1, Cabling.empty, buildLoft, rfl⟩
  exact ⟨reachable, by decide +kernel, by decide +kernel, by decide, by decide +kernel, _, _, rfl,
    by decide +kernel⟩

end Site
end TopicTree
