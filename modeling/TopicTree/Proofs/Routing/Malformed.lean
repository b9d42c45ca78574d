import TopicTree.Proofs.Routing.Answer

/-!
# Levels that can be no names

The levels of a path are looked at one at a time, by the node that takes them off. So a request whose
path holds an empty or an overlong level gets to the node before the first of these, and is answered
from there that its path is malformed. One empty level is never looked at: behind a slash that ends
the path nothing is left, and the request is delivered as if the slash were not there.
-/

namespace TopicTree

/-! ## The first bad level -/

namespace Level

/-- There is no slash in the first level. -/
theorem slash_notMem_first (text : List Char) : slash ∉ first text := fun h => by
  simpa using List.mem_takeWhile_imp h

/-- A text with a slash is cut there. -/
theorem split_of_mem {text : List Char} (h : slash ∈ text) :
    split text = first text :: split (afterFirst text) := by
  conv_lhs => rw [← first_append_afterFirst h]
  rw [split_append_slash, split_eq_singleton (slash_notMem_first text), List.singleton_append]

/-- The levels of a text begin with its first level; those behind it are the levels of what follows
the first slash. -/
theorem split_eq_cons {text level : List Char} {levels : List (List Char)}
    (h : split text = level :: levels) :
    first text = level ∧ (levels ≠ [] → split (afterFirst text) = levels) ∧
      (levels = [] → text = level) := by
  by_cases hslash : slash ∈ text
  · rw [split_of_mem hslash, List.cons.injEq] at h
    obtain ⟨rfl, rfl⟩ := h
    exact ⟨rfl, fun _ => rfl, fun hnone => absurd hnone (split_ne_nil _)⟩
  · rw [split_eq_singleton hslash, List.cons.injEq] at h
    obtain ⟨rfl, rfl⟩ := h
    exact ⟨first_eq_self hslash, fun hsome => absurd rfl hsome, fun _ => rfl⟩

end Level

namespace Path

variable {path : Path} {bad : List Char} {levels : List (List Char)}

/-- A path whose first levels are names leaves the levels behind them. -/
theorem leaves_of_split {front : List Name}
    (h : Level.split path.segments.toList = front.map (·.text.toList) ++ bad :: levels) :
    ∃ rest, path.Leaves front rest ∧ Level.split rest.segments.toList = bad :: levels := by
  induction front generalizing path with
  | nil => exact ⟨path, .nil path, h⟩
  | cons name front ih =>
    obtain ⟨hfirst, hbehind, -⟩ := Level.split_eq_cons h
    have hmore : Level.split path.dropFirst.segments.toList
        = front.map (·.text.toList) ++ bad :: levels := by
      rw [toList_dropFirst]
      exact hbehind (by simp)
    obtain ⟨rest, hleaves, hrest⟩ := ih hmore
    exact ⟨rest, .cons (first_of_level hfirst) hleaves, hrest⟩

/-- A path that begins with a level that can be no name has no first level to follow. -/
theorem first_of_bad (h : Level.split path.segments.toList = bad :: levels)
    (isBad : bad = [] ∨ maxName < (String.ofList bad).utf8ByteSize) (there : path.segments ≠ "") :
    ∃ e, path.first = .error e ∧ e.returnCode = .malformedPath := by
  have hempty : ¬path.isEmpty := by simpa [isEmpty] using there
  have hfirst := (Level.split_eq_cons h).1
  rw [first, if_neg hempty, hfirst]
  by_cases hnone : String.ofList bad = ""
  · exact ⟨_, if_pos hnone, rfl⟩
  · have hlong : maxName < (String.ofList bad).utf8ByteSize :=
      isBad.resolve_left fun hnil => hnone (by rw [hnil])
    exact ⟨_, (if_neg hnone).trans (if_pos hlong), rfl⟩

end Path

namespace Tree

/-- What becomes of a request whose path has a bad level behind names. It is refused as malformed,
unless that level is the empty one behind the last slash: then the names alone are followed. -/
def verdict (tree : Tree) (front : List Name) (bad : List Char) (levels : List (List Char))
    (method : String) (params : Params) : List Event × Reply :=
  if bad = [] ∧ levels = [] then tree.consult tree.localRoot front method params
  else ([], Reply.bare .malformedPath)

/-- What is said of the bad level depends on the outline and the methods only. -/
theorem verdict_congr {left right : Tree} (same : left.outline = right.outline)
    (methods : ∀ id, (left.endpoint? id).map (·.methods) = (right.endpoint? id).map (·.methods))
    (front : List Name) (bad : List Char) (levels : List (List Char)) (method : String)
    (params : Params) :
    left.verdict front bad levels method params = right.verdict front bad levels method params := by
  rw [verdict, verdict, Tree.localRoot_congr same, Site.consult_congr same methods]

/-- The output that comes with a verdict is output that comes with success. -/
theorem delivered_verdict (tree : Tree) (front : List Name) (bad : List Char)
    (levels : List (List Char)) (method : String) (params : Params) :
    (tree.verdict front bad levels method params).2.delivered
      = (tree.verdict front bad levels method params).2 := by
  unfold verdict
  split
  · exact Site.delivered_consult tree tree.localRoot front method params
  · rfl

end Tree

namespace Site

variable {M : Type} [Medium M] {site : Site M} {message : Envelope} {front : List Name}
  {bad : List Char} {levels : List (List Char)} {stop : Nat}

/-- A request whose path has a bad level behind names that lead to a node is answered there. -/
theorem answers_verdict (wellFormed : site.tree.WellFormed)
    (start : site.tree.form? site.tree.localRoot = some .node ∨
      site.tree.form? site.tree.localRoot = some .bridge)
    (walk : site.tree.walk site.tree.localRoot front = some stop)
    (inside : site.tree.link? stop = none) (asked : message.kind = .request)
    (h : Level.split message.dest.segments.toList = front.map (·.text.toList) ++ bad :: levels)
    (isBad : bad = [] ∨ maxName < (String.ofList bad).utf8ByteSize) {calls : List Event}
    {reply : Reply}
    (verdicts : site.tree.verdict front bad levels message.method message.params = (calls, reply)) :
    site.Answers message calls reply := by
  have hinner := wellFormed.not_deviceEnd_localRoot
  have hform := Tree.form?_of_link?_eq_none
    (wellFormed.lt_size_of_walk (start.elim Tree.lt_size_of_form? Tree.lt_size_of_form?) walk) inside
  obtain ⟨rest, hleaves, hrest⟩ := Path.leaves_of_split h
  have hroom : (Name.join front).utf8ByteSize ≤ maxPath :=
    Nat.le_trans hleaves.size_le message.dest.fits
  rw [Tree.verdict] at verdicts
  by_cases hends : bad = [] ∧ levels = []
  · rw [if_pos hends] at verdicts
    have hspells : rest.Spells [] := by
      have htext := (Level.split_eq_cons hrest).2.2 hends.2
      exact String.toList_inj.1 (htext.trans hends.1)
    obtain ⟨after, hserves, hgoes⟩ :=
      goes_call wellFormed hinner walk hform asked hleaves hspells verdicts
    exact ⟨front, stop, after, walk, hroom, hserves, hgoes⟩
  · rw [if_neg hends] at verdicts
    obtain ⟨rfl, rfl⟩ := Prod.mk.inj verdicts
    have hthere : rest.segments ≠ "" := fun hnone => hends (by
      rw [hnone] at hrest
      exact (List.cons.inj hrest).imp Eq.symm Eq.symm)
    obtain ⟨e, hfirst, hcode⟩ := Path.first_of_bad hrest isBad hthere
    have hlost : site.descend stop { message with dest := rest }
        = (some (.up stop (message.response e.returnCode Params.empty)), site) :=
      descend_malformed hfirst asked
    rw [hcode] at hlost
    have hstep := (stepDown_descend hform).trans hlost
    exact ⟨front, stop, site, walk, hroom, .refl site,
      (goes_along message wellFormed hinner walk hleaves).trans (.single hstep)⟩

/-- In a reachable tree, let a request from a node or bridge be accepted whose path starts at the
local root, or at the top if that is a node. Let the path have levels, of which the first that is
empty or too long for a name stands behind names that lead to a node or bridge. The requester stands
at the end of a walk from the local root; and whenever that walk fits a path, then before the request
is over the caller is told that the path is malformed, and no method is called. Only if the bad level
is the empty one behind the last slash, the request is answered as if the path had no slash there. -/
theorem bad_level_is_malformed {after : Site M} {node : Nat} {method path tag : String}
    {params : Params} {now : Nat} {id : UInt16} {dest : Path} (reachable : site.Reachable)
    (accepted : site.execute node method path params now tag = .ok (id, after))
    (parsed : Path.ofText path = .ok dest)
    (anchored : dest.anchor = .near ∨ dest.anchor = .top ∧ site.tree.form? 0 = some .node)
    (levelled : Level.split dest.segments.toList = front.map (·.text.toList) ++ bad :: levels)
    (isBad : bad = [] ∨ maxName < (String.ofList bad).utf8ByteSize)
    (leads : site.tree.walk site.tree.localRoot front = some stop)
    (inside : site.tree.link? stop = none) :
    (∃ own, site.tree.walk site.tree.localRoot own = some node) ∧
      ∀ own, site.tree.walk site.tree.localRoot own = some node →
        (Name.join own).utf8ByteSize ≤ maxPath →
        let (calls, reply) := site.tree.verdict front bad levels method params
        after.log = site.log ++ calls ++ [.replied tag reply.code reply.params] ∧
          (∀ entry, after.tree.awaited entry = site.tree.awaited entry) ∧
          after.pool = site.pool ∧ after.medium = site.medium := by
  have wellFormed := reachable.wellFormed
  refine ⟨exists_walk_of_execute wellFormed accepted, fun own walk room => ?_⟩
  refine told_of_answers wellFormed accepted parsed anchored walk room
    (site.tree.delivered_verdict front bad levels method params) ?_
  rintro asking request same methods asked rfl rfl rfl
  have hroot := Tree.localRoot_congr same
  have hstart := form_localRoot_of_execute wellFormed accepted
  rw [← Tree.form?_congr same, ← hroot] at hstart
  rw [← Tree.walk_congr same, ← hroot] at leads
  exact answers_verdict (wellFormed.congr same.symm) hstart leads
    (Tree.link?_eq_none_congr same.symm inside) asked levelled isBad
    (Tree.verdict_congr same methods front bad levels request.method request.params)

/-- The moves that build a house with a lamp in it that repeats what it is told. -/
def buildCottage : List (Move Cabling) :=
  [.call (.build (.addRoot "house")), .call (.build (.addNode 0 "lamp")),
    .call (.build (.addMethod 1 "on" Handler.echo))]

/-- A house with a lamp in it that repeats what it is told. -/
def cottage : Site Cabling :=
  (start 5 (Pool.ofSize 1) Cabling.empty).run buildCottage

/-- A path with an empty level between two names is malformed, and the lamp is not asked. -/
theorem lamp_is_not_asked : ∃ id after,
    cottage.execute 0 "on" "lamp//switch" Params.empty 3 "caller" = .ok (id, after) ∧
      after.log = [.replied "caller" .malformedPath Params.empty] := by
  have reachable : cottage.Reachable := ⟨5, Pool.ofSize 1, Cabling.empty, buildCottage, rfl⟩
  obtain ⟨⟨id, after⟩, accepted⟩ : ∃ result,
      cottage.execute 0 "on" "lamp//switch" Params.empty 3 "caller" = .ok result := ⟨_, rfl⟩
  let lamp : Name := ⟨"lamp", by decide, by decide, by decide⟩
  have parsed : Path.ofText "lamp//switch" = .ok ⟨.top, "lamp//switch", by decide⟩ := rfl
  have levelled : Level.split "lamp//switch".toList
      = [lamp].map (·.text.toList) ++ [] :: ["switch".toList] := by decide
  have leads : cottage.tree.walk cottage.tree.localRoot [lamp] = some 1 := by decide +kernel
  obtain ⟨_, hanswer⟩ := bad_level_is_malformed reachable accepted parsed
    (.inr ⟨rfl, by decide +kernel⟩) levelled (.inl rfl) leads (by decide +kernel)
  obtain ⟨hlog, _⟩ := hanswer [] (by decide +kernel) (by decide +kernel)
  exact ⟨id, after, accepted, hlog⟩

/-- A path with a slash at its end has an empty level behind the name of the lamp. The lamp is asked
all the same. -/
theorem last_slash_is_not_seen :
    let lamp : Name := ⟨"lamp", by decide, by decide, by decide⟩
    cottage.Reachable ∧ cottage.tree.form? 0 = some .node ∧
      cottage.tree.walk cottage.tree.localRoot [lamp] = some 1 ∧
      Path.ofText "lamp/" = .ok ⟨.top, "lamp/", by decide⟩ ∧
      Level.split "lamp/".toList = [lamp.text.toList, []] ∧
      ∃ id after, cottage.execute 0 "on" "lamp/" Params.empty 3 "caller" = .ok (id, after) ∧
        after.log = [.called 1 "on" Params.empty, .replied "caller" .success Params.empty] := by
  intro lamp
  have reachable : cottage.Reachable := ⟨5, Pool.ofSize 1, Cabling.empty, buildCottage, rfl⟩
  exact ⟨reachable, by decide +kernel, by decide +kernel, rfl, by decide, _, _, rfl,
    by decide +kernel⟩

end Site
end TopicTree
