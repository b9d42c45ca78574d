import Mathlib.Data.List.Count
import TopicTree.Proofs.Site.Lasting
import TopicTree.Proofs.Site.Links

/-!
# Listeners

A listener that is posted at a link before the link comes up is told once, when it does, and never
again. One that is posted later is never told. Building neither names nor confirms a link.
-/

namespace TopicTree

namespace Tree

variable {tree after : Tree} {construction : Construction}

/-- Building names no hub end. -/
theorem name?_construct (hbuilt : tree.construct construction = .ok after) {id : Nat}
    (hubEnd : after.form? id = some .hubEnd) : after.name? id = tree.name? id := by
  obtain ⟨entry, hentry, hform⟩ := Option.map_eq_some_iff.1 hubEnd
  rcases settled_construct hbuilt hentry with ⟨old, hold, hname, -, -⟩ | ⟨hnone, hfounds⟩
  · simp [name?, hentry, hold, hname]
  · have hunnamed : entry.name = none := by
      generalize entry.name = name at hfounds ⊢
      generalize entry.role = role at hfounds hform
      cases hfounds <;> first | rfl | cases hform
    simp [name?, hentry, hnone, hunnamed]

/-- What building makes of a link: it is fresh, or it is the link that it was but for one listener. -/
theorem link?_construct (hbuilt : tree.construct construction = .ok after) {id : Nat} {link : Link}
    (there : after.link? id = some link) :
    (∃ old, tree.link? id = some old ∧
      (link = old ∨ ∃ tag, construction = .addListener id tag ∧
        link = { old with listeners := old.listeners ++ [tag] })) ∨
    tree.get? id = none ∧ ∃ place socket interval, link = freshLink place socket interval := by
  obtain ⟨entry, hentry, hlink⟩ := Option.bind_eq_some_iff.1 there
  rcases settled_construct hbuilt hentry with ⟨old, hold, -, -, hrole | hfits⟩ | ⟨hnone, hfounds⟩
  · left
    refine ⟨link, ?_, .inl rfl⟩
    rw [link?, hold, Option.bind_some, ← hrole, hlink]
  · left
    simp only [link?, hold, Option.bind_some]
    generalize old.role = before at hfits
    generalize entry.role = role at hfits hlink
    cases hfits with
    | method there offered =>
      rw [Role.link?_withEndpoint] at hlink
      exact ⟨link, hlink, .inl rfl⟩
    | listener tag found =>
      cases hlink
      exact ⟨found, rfl, .inr ⟨tag, rfl, rfl⟩⟩
    | guard guard bridge => cases hlink
  · right
    refine ⟨hnone, ?_⟩
    generalize entry.name = name at hfounds
    generalize entry.role = role at hfounds hlink
    cases hfounds <;> first | (cases hlink; exact ⟨_, _, _, rfl⟩) | cases hlink

/-- What is a link stays one whatever is built. -/
theorem isSome_link?_construct (hbuilt : tree.construct construction = .ok after) {id : Nat}
    {link : Link} (there : tree.link? id = some link) :
    ∃ later, after.link? id = some later ∧ later.place = link.place :=
  exists_link?_of_form? ((lasts_construct hbuilt).form?_eq (form?_of_link? there))

/-- What is no link was none before whatever was built. -/
theorem link?_eq_none_of_construct (hbuilt : tree.construct construction = .ok after) {id : Nat}
    (absent : after.link? id = none) : tree.link? id = none := by
  refine Option.eq_none_iff_forall_ne_some.2 fun link there => ?_
  obtain ⟨later, hlater, -⟩ := isSome_link?_construct hbuilt there
  rw [absent] at hlater
  cases hlater

/-- Building brings up no link. -/
theorem isUp_construct (hbuilt : tree.construct construction = .ok after) (id : Nat) :
    after.isUp id = tree.isUp id := by
  cases hafter : after.link? id with
  | none => simp [isUp, hafter, link?_eq_none_of_construct hbuilt hafter]
  | some link =>
    have hname : link.place = .hub → after.name? id = tree.name? id := fun place =>
      name?_construct hbuilt (form?_hubEnd hafter place)
    rcases link?_construct hbuilt hafter with ⟨old, hold, hsame⟩ | ⟨hnone, side, _, _, rfl⟩
    · have hplace : link.place = old.place := by rcases hsame with rfl | ⟨_, -, rfl⟩ <;> rfl
      have hconfirmed : link.confirmed = old.confirmed := by
        rcases hsame with rfl | ⟨_, -, rfl⟩ <;> rfl
      cases place : link.place with
      | hub => simp [isUp, hafter, hold, ← hplace, place, hname place]
      | device => simp [isUp, hafter, hold, ← hplace, place, hconfirmed]
    · have hbefore : tree.link? id = none := by simp [link?, hnone]
      have hunnamed : tree.name? id = none := by simp [name?, hnone]
      cases side with
      | hub => simp [isUp, hafter, hbefore, freshLink, hname rfl, hunnamed]
      | device => simp [isUp, hafter, hbefore, freshLink]

/-- The listeners posted at an entry. -/
def listeners (tree : Tree) (id : Nat) : List String :=
  ((tree.link? id).map (·.listeners)).getD []

/-- Building posts one listener at most. -/
theorem listeners_construct (hbuilt : tree.construct construction = .ok after) (id : Nat) :
    after.listeners id = tree.listeners id ∨
      ∃ tag, construction = .addListener id tag ∧
        after.listeners id = tree.listeners id ++ [tag] := by
  unfold listeners
  cases hafter : after.link? id with
  | none =>
    rw [link?_eq_none_of_construct hbuilt hafter]
    exact .inl rfl
  | some link =>
    rcases link?_construct hbuilt hafter with ⟨old, hold, rfl | ⟨tag, rfl, rfl⟩⟩ |
      ⟨hnone, _, _, _, rfl⟩
    · exact .inl (by rw [hold])
    · exact .inr ⟨tag, rfl, by rw [hold]; rfl⟩
    · left
      simp [link?, hnone, freshLink]

/-- A listener that was built was posted. -/
theorem listeners_addListener {id : Nat} {tag : String}
    (hbuilt : tree.construct (.addListener id tag) = .ok after) :
    after.listeners id = tree.listeners id ++ [tag] := by
  obtain ⟨link, hlink, rfl⟩ := addListener_eq_ok hbuilt
  rw [listeners, link?_setLink hlink, if_pos rfl, listeners, hlink]
  rfl

end Tree

namespace Site

variable {M : Type}

/-- A listener that is posted at one link only: a number of times before it came up, and told as
often if it is up and never if it is not, and a number of times after that. -/
structure Tells (site : Site M) (tag : String) (id times missed : Nat) : Prop where
  posted : (site.tree.listeners id).count tag = times + missed
  elsewhere : ∀ other ≠ id, tag ∉ site.tree.listeners other
  told : site.log.count (.linkUp tag) = if site.tree.isUp id then times else 0
  late : missed ≠ 0 → site.tree.isUp id

/-- A link that stays up if it was, and that has told those who listen to it if it has come up. -/
structure Rises (tag : String) (id : Nat) (before after : Site M) : Prop where
  stays : before.tree.isUp id → after.tree.isUp id
  told : after.log.count (.linkUp tag) = before.log.count (.linkUp tag)
    + if before.tree.isUp id then 0
      else if after.tree.isUp id then (before.tree.listeners id).count tag else 0

variable [Medium M] {site : Site M} {tag : String} {id times missed : Nat}

/-- A step that does not build leaves the listeners where they are. -/
theorem listeners_take (site : Site M) {step : RunStep M}
    (plain : ∀ construction, step ≠ .build construction) (other : Nat) :
    (site.take step).tree.listeners other = site.tree.listeners other := by
  rw [Tree.listeners, (socket_listeners_take site plain other).2, Tree.listeners]

/-- A step that does not poll a link neither brings it up nor takes it down. -/
theorem isUp_take_beside {step : RunStep M} (beside : ∀ now, step ≠ .poll now id) :
    (site.take step).tree.isUp id = site.tree.isUp id := by
  rcases spares_take_beside site beside with spares | ⟨_, _, -, hbuilt, htake⟩
  · exact Tree.isUp_congr spares.standing spares.name?
  · rw [htake]
    exact Tree.isUp_construct hbuilt id

omit [Medium M] in
/-- What happens beside an entry tells the listeners of other links only. -/
theorem Spares.count_linkUp {rule : Frame → Prop} {aside : Nat} {after : Site M}
    (h : Spares rule aside site after) (unposted : ∀ other ≠ aside, tag ∉ site.tree.listeners other) :
    after.log.count (.linkUp tag) = site.log.count (.linkUp tag) := by
  obtain ⟨events, hlog, hall⟩ := h.log
  rw [hlog, List.count_append, Nat.add_eq_left, List.count_eq_zero]
  intro hmem
  obtain ⟨other, link, there, hne, htag⟩ := hall _ hmem
  exact unposted other hne (by simpa [Tree.listeners, there] using htag)

omit [Medium M] in
/-- A link that comes up tells its listeners if it was down. -/
theorem ComesUp.count_linkUp {link : Link} {after : Site M} (h : ComesUp id link site after)
    (there : site.tree.link? id = some link) :
    after.log.count (.linkUp tag) = site.log.count (.linkUp tag)
      + if site.tree.isUp id then 0 else (site.tree.listeners id).count tag := by
  obtain ⟨events, hlog, hall⟩ := h.log
  have hevents : events.count (.linkUp tag) = 0 := by
    refine List.count_eq_zero.2 fun hmem => ?_
    obtain ⟨socket, bytes, heq | heq⟩ := hall _ hmem <;> cases heq
  have hposted : (link.listeners.map Event.linkUp).count (.linkUp tag)
      = (site.tree.listeners id).count tag := by
    rw [List.count_map_of_injective _ _ fun _ _ => Event.linkUp.inj]
    simp [Tree.listeners, there]
  rw [hlog, List.count_append, List.count_append, hevents]
  split <;> simp [hposted]

omit [Medium M] in
/-- What happens beside an entry tells nobody of a link that stays up or down. -/
theorem Spares.rises {rule : Frame → Prop} {aside : Nat} {after : Site M}
    (h : Spares rule aside site after) (unposted : ∀ other ≠ aside, tag ∉ site.tree.listeners other)
    (same : after.tree.isUp id = site.tree.isUp id) : Rises tag id site after := by
  refine ⟨fun hup => same.trans hup, ?_⟩
  rw [same, h.count_linkUp unposted]
  split <;> rfl

omit [Medium M] in
/-- A link that comes up tells those who listen to it. -/
theorem ComesUp.rises {link : Link} {after : Site M} (h : ComesUp id link site after)
    (there : site.tree.link? id = some link) : Rises tag id site after :=
  ⟨fun _ => h.up, by rw [h.count_linkUp there, if_pos h.up]⟩

/-- A step that does not build leaves a link up or brings it up. -/
theorem rises_take (wellFormed : site.tree.WellFormed) {step : RunStep M}
    (plain : ∀ construction, step ≠ .build construction)
    (elsewhere : ∀ other ≠ id, tag ∉ site.tree.listeners other) :
    Rises tag id site (site.take step) := by
  rcases exists_or_forall_not (step = .poll · id) with ⟨now, rfl⟩ | beside
  · cases hlink : site.tree.link? id with
    | some link =>
      rcases pollAt_link_cases wellFormed hlink now with ⟨_, spares⟩ | comes
      · exact spares.rises elsewhere (Tree.isUp_congr spares.standing spares.name?)
      · exact comes.rises hlink
    | none =>
      have beside : ∀ time, RunStep.poll (M := M) now id ≠ .poll time (id + 1) := by simp
      rcases spares_take_beside site beside with spares | ⟨_, _, h, _⟩
      · have unposted : ∀ other ≠ id + 1, tag ∉ site.tree.listeners other := fun other _ => by
          by_cases hother : other = id
          · simp [Tree.listeners, hother, hlink]
          · exact elsewhere other hother
        have hlater := spares.listeners id
        rw [hlink, Option.map_none, Option.map_eq_none_iff] at hlater
        exact spares.rises unposted (by simp [Tree.isUp, hlater, hlink])
      · exact absurd h (plain _)
  · rcases spares_take_beside site beside with spares | ⟨_, _, h, _⟩
    · exact spares.rises elsewhere (Tree.isUp_congr spares.standing spares.name?)
    · exact absurd h (plain _)

/-- A listener that nobody posts is told as often as before, or when its link comes up. -/
theorem tells_take (wellFormed : site.tree.WellFormed) (tells : site.Tells tag id times missed)
    {step : RunStep M} (posts : ∀ other, step ≠ .build (.addListener other tag)) :
    (site.take step).Tells tag id times missed := by
  rcases exists_or_forall_not (step = .build ·) with ⟨construction, rfl⟩ | plain
  · simp only [take, move, perform]
    split
    · exact tells
    · next after hbuilt =>
      have hcount : ∀ other, (after.listeners other).count tag
          = (site.tree.listeners other).count tag := by
        intro other
        rcases Tree.listeners_construct hbuilt other with heq | ⟨posted, rfl, heq⟩
        · rw [heq]
        · have hne : posted ≠ tag := fun heq => posts other (heq ▸ rfl)
          rw [heq, List.count_append, List.count_singleton, beq_false_of_ne hne]
          simp
      have hup : after.isUp id = site.tree.isUp id := Tree.isUp_construct hbuilt id
      refine ⟨(hcount id).trans tells.posted, fun other hne => ?_, ?_, fun h => ?_⟩
      · have hnone := List.count_eq_zero.2 (tells.elsewhere other hne)
        exact List.count_eq_zero.1 ((hcount other).trans hnone)
      · exact tells.told.trans (by rw [Site.withTree, hup])
      · exact hup.trans (tells.late h)
  have hlisteners := listeners_take site plain
  obtain ⟨hstays, hcount⟩ := rises_take wellFormed plain tells.elsewhere
  refine ⟨(hlisteners id) ▸ tells.posted, fun other hne => (hlisteners other) ▸
    tells.elsewhere other hne, ?_, fun h => hstays (tells.late h)⟩
  rw [hcount, tells.told]
  cases hup : site.tree.isUp id with
  | true => simp [hstays hup]
  | false =>
    have hnone : missed = 0 := by
      by_contra h
      exact absurd (tells.late h) (by simp [hup])
    simp [tells.posted, hnone]

/-- A listener that is posted while its link is down is told when the link comes up, and one that is
posted later has missed it. -/
theorem tells_post (tells : site.Tells tag id times missed) {after : Tree}
    (hbuilt : site.tree.construct (.addListener id tag) = .ok after) :
    (site.take (.build (.addListener id tag))).Tells tag id
      (times + if site.tree.isUp id then 0 else 1)
      (missed + if site.tree.isUp id then 1 else 0) := by
  have htake : site.take (.build (.addListener id tag)) = site.withTree after := by
    simp only [take, move, perform, hbuilt]
  have hup : after.isUp id = site.tree.isUp id := Tree.isUp_construct hbuilt id
  have htold := tells.told
  have hlate := tells.late
  have hposted : (after.listeners id).count tag = times + missed + 1 := by
    simp [Tree.listeners_addListener hbuilt, tells.posted]
  rw [htake]
  refine ⟨?_, fun other hne => ?_, ?_, fun h => ?_⟩
  · rw [tree_withTree, hposted]
    split <;> omega
  · rcases Tree.listeners_construct hbuilt other with heq | ⟨posted, h, -⟩
    · exact heq ▸ tells.elsewhere other hne
    · cases h
      exact absurd rfl hne
  · cases hcase : site.tree.isUp id <;> simp_all [Site.withTree]
  · cases hcase : site.tree.isUp id <;> simp_all [Site.withTree]

/-- Steps in which nobody posts a listener tell it as often as it is posted, if its link comes up. -/
theorem tells_follow (wellFormed : site.tree.WellFormed) (tells : site.Tells tag id times missed)
    {steps : List (RunStep M)} (posts : ∀ other, .build (.addListener other tag) ∉ steps) :
    (site.follow steps).Tells tag id times missed := by
  induction steps generalizing site with
  | nil => exact tells
  | cons step steps ih =>
    refine ih (wellFormed_take wellFormed step)
      (tells_take wellFormed tells fun other h => posts other ?_) fun other h => posts other ?_
    · exact h ▸ List.mem_cons_self
    · exact List.mem_cons_of_mem _ h

/-- In the course of steps a listener is posted once, at a link, after some of them. -/
def PostsAfter (origin : Site M) (early steps : List (RunStep M)) (id : Nat) (tag : String) : Prop :=
  ∃ late, steps = early ++ .build (.addListener id tag) :: late ∧
    (∃ after, (origin.follow early).tree.construct (.addListener id tag) = .ok after) ∧
    ∀ other, .build (.addListener other tag) ∉ early ++ late

/-- In the course of steps a listener is posted once, at a link that is not up at that moment. -/
def Posts (origin : Site M) (steps : List (RunStep M)) (id : Nat) (tag : String) : Prop :=
  ∃ early late, steps = early ++ .build (.addListener id tag) :: late ∧
    (origin.follow early).tree.isUp id = false ∧
    (∃ after, (origin.follow early).tree.construct (.addListener id tag) = .ok after) ∧
    ∀ other, .build (.addListener other tag) ∉ early ++ late

/-- A listener is told once, when its link comes up, unless it is posted later than that. -/
theorem told_of_postsAfter {timeout : Nat} {pool : Pool} {medium : M}
    {early steps : List (RunStep M)}
    (h : (start timeout pool medium).PostsAfter early steps id tag) :
    let origin := start timeout pool medium
    let site := origin.follow steps
    site.log.count (.linkUp tag)
      = if (origin.follow early).tree.isUp id then 0 else if site.tree.isUp id then 1 else 0 := by
  obtain ⟨late, rfl, ⟨after, hbuilt⟩, hposts⟩ := h
  have hempty : (start timeout pool medium).tree.WellFormed := .empty timeout
  have hnone : ∀ other, (start timeout pool medium).tree.listeners other = [] := fun other => rfl
  have hstart : (start timeout pool medium).Tells tag id 0 0 :=
    ⟨by simp [hnone], by simp [hnone], (ite_self 0).symm, fun h => absurd rfl h⟩
  have hearly := tells_follow hempty hstart fun other hmem =>
    hposts other (List.mem_append_left late hmem)
  have hlate := (tells_follow (wellFormed_take (wellFormed_follow hempty early) _)
    (tells_post hearly hbuilt) fun other hmem => hposts other (List.mem_append_right early hmem)).told
  intro origin site
  have hsite : site = ((origin.follow early).take (.build (.addListener id tag))).follow late :=
    follow_append _ early _
  rw [hsite, hlate]
  cases hup : (origin.follow early).tree.isUp id <;> simp [origin]

/-- A listener that is posted before its link is up is told once, and not before the link is up. -/
theorem told_of_posts {timeout : Nat} {pool : Pool} {medium : M} {steps : List (RunStep M)}
    (h : (start timeout pool medium).Posts steps id tag) :
    let site := (start timeout pool medium).follow steps
    site.log.count (.linkUp tag) = if site.tree.isUp id then 1 else 0 := by
  obtain ⟨early, late, heq, down, hbuilt, hposts⟩ := h
  have htold := told_of_postsAfter ⟨late, heq, hbuilt, hposts⟩
  simp only [down, Bool.false_eq_true, if_false] at htold
  exact htold

end Site
end TopicTree
