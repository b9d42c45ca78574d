import TopicTree.Network.Cabling
import TopicTree.Proofs.Site.Reachable
import TopicTree.Proofs.Tree.Growth
import TopicTree.Proofs.Tree.Ids

/-!
# The ids that a site gives out

Whatever a site does, each of its endpoints only goes through acts, so it has come about by acts
from an empty endpoint. What holds along all runs of acts therefore holds of every endpoint of every
reachable site.
-/

namespace TopicTree

/-- Every endpoint of a tree is one of another tree after some acts. -/
def Tree.Ages (before after : Tree) : Prop :=
  ∀ id new, after.endpoint? id = some new →
    ∃ old acts, before.endpoint? id = some old ∧ old.run acts = new

namespace Tree.Ages

/-- Trees that are alike have the same endpoints. -/
theorem of_alike {before after : Tree} (h : after.Alike before) : before.Ages after :=
  fun id new hnew => ⟨new, [], (h.endpoint? id).symm.trans hnew, rfl⟩

/-- One endpoint is replaced by what an act leaves of it. -/
theorem of_act {before after : Tree} {id : Nat} {old : Endpoint}
    (there : before.endpoint? id = some old) (act : Endpoint.Act)
    (alike : after.Alike (before.setEndpoint id (old.act act).2)) : before.Ages after := by
  intro other new hnew
  rw [alike.endpoint?] at hnew
  by_cases hid : id = other
  · subst hid
    rw [endpoint?_setEndpoint_self there] at hnew
    exact ⟨old, [act], there, Option.some.inj hnew⟩
  · rw [endpoint?_setEndpoint_of_ne hid] at hnew
    exact ⟨new, [], hnew, rfl⟩

/-- Endpoints that have come about by acts from empty ones still have after more acts. -/
theorem grown {before after : Tree} (h : before.Ages after)
    (hbefore : ∀ id endpoint, before.endpoint? id = some endpoint → endpoint.Grown) (id : Nat)
    (endpoint : Endpoint) (there : after.endpoint? id = some endpoint) : endpoint.Grown := by
  obtain ⟨old, acts, hold, rfl⟩ := h id endpoint there
  exact (hbefore id old hold).run acts

end Tree.Ages

/-- Building adds empty endpoints and puts methods on offer. -/
theorem Tree.grown_of_construct {before after : Tree} {construction : Construction}
    (hbuilt : before.construct construction = .ok after) {id : Nat} {endpoint : Endpoint}
    (hbefore : ∀ endpoint, before.endpoint? id = some endpoint → endpoint.Grown)
    (there : after.endpoint? id = some endpoint) : endpoint.Grown := by
  obtain ⟨entry, hentry, hrole⟩ := Option.bind_eq_some_iff.1 there
  rcases settled_construct hbuilt hentry with ⟨old, hold, _, _, hsame | hfits⟩ | ⟨_, hfounds⟩
  · exact hbefore endpoint (by rw [endpoint?, hold, Option.bind_some, ← hsame, hrole])
  · have hgrown : ∀ endpoint, old.role.endpoint? = some endpoint → endpoint.Grown :=
      fun endpoint h => hbefore endpoint (by rw [endpoint?, hold, Option.bind_some, h])
    generalize old.role = role at hfits hgrown
    generalize entry.role = fitted at hfits hrole
    cases hfits with
    | @method name handler _ found new has offered =>
      rw [Role.endpoint?_withEndpoint, has] at hrole
      obtain rfl : new = endpoint := Option.some.inj hrole
      have hact : (found.act (.offer name handler)).2 = new := by
        simp [Endpoint.act, offered, Except.toOption]
      exact hact ▸ (hgrown found has).run [.offer name handler]
    | listener => cases hrole
    | guard => exact hgrown endpoint hrole
  · have hempty : endpoint = Endpoint.empty := by
      generalize entry.name = name at hfounds
      generalize entry.role = role at hfounds hrole
      cases hfounds <;> simpa [Role.endpoint?] using hrole.symm
    exact ⟨[], hempty.symm⟩

namespace Site

variable {M : Type} [Medium M]

/-- Whatever a site does by itself, its endpoints only go through acts. -/
theorem Change.ages {before after : Site M} (h : Change before after) :
    before.tree.Ages after.tree := by
  cases h with
  | pool => exact .of_alike (.refl _)
  | write id frame => exact .of_alike (alike_write before id frame)
  | poll => exact .of_alike (Tree.alike_setChannel _ _ _)
  | @call _ old new method params _ there called =>
    refine .of_act there (.call method params) ?_
    simp only [Endpoint.act, called]
    exact .refl _
  | @settle _ old new key _ _ _ there settled =>
    refine .of_act there (.settle key) ?_
    simp only [Endpoint.act, settled]
    exact alike_tell _ _ _ _ _
  | expire now id =>
    cases hendpoint : before.tree.endpoint? id with
    | none =>
      rw [expireAt_eq_self hendpoint]
      exact .of_alike (.refl _)
    | some endpoint =>
      rw [expireAt_eq hendpoint]
      exact .of_act hendpoint (.expire now) (alike_tellExpired id _ _)
  | @begin _ old new method topic deadline key there begun =>
    refine .of_act there (.begin method deadline (.client topic)) ?_
    simp only [Endpoint.act, begun]
    exact .refl _
  | number there => exact .of_act there .number (.refl _)
  | adopt =>
    exact fun other new hnew => ⟨new, [], (Tree.endpoint?_setName _ _ _ _).symm.trans hnew, rfl⟩
  | attempt there => exact .of_alike (Tree.alike_setLink there rfl)
  | confirm there => exact .of_alike (Tree.alike_setLink there rfl)
  | linkUp => exact .of_alike (.refl _)
  | ask there => exact .of_alike (Tree.alike_setBridge there rfl)
  | session there => exact .of_alike (Tree.alike_setBridge there rfl)

/-- Whatever a site does by itself, its endpoints have still come about by acts from empty ones. -/
theorem Changes.grown {before after : Site M} (h : Changes before after)
    (hbefore : ∀ id endpoint, before.tree.endpoint? id = some endpoint → endpoint.Grown) :
    ∀ id endpoint, after.tree.endpoint? id = some endpoint → endpoint.Grown :=
  h.induction
    (P := fun site => ∀ id endpoint, site.tree.endpoint? id = some endpoint → endpoint.Grown)
    (fun change => change.ages.grown) hbefore

/-- Every endpoint of a reachable site has come about by acts from an empty one. -/
theorem Reachable.grown {site : Site M} (h : site.Reachable) {id : Nat} {endpoint : Endpoint}
    (there : site.tree.endpoint? id = some endpoint) : endpoint.Grown := by
  refine h.induction
    (P := fun site => ∀ id endpoint, site.tree.endpoint? id = some endpoint → endpoint.Grown)
    ?_ ?_ id endpoint there
  · intro timeout pool medium id endpoint there
    simp [start, Tree.empty, Tree.endpoint?, Tree.get?] at there
  · intro site move hsite
    rcases move_cases site move with ⟨construction, tree, _, hbuilt, heq⟩ |
      ⟨node, method, _, _, now, tag, key, old, new, _, hold, hbegin, changes⟩ | changes |
      ⟨_, _, _, heq⟩
    · rw [heq]
      exact fun id endpoint there => Tree.grown_of_construct hbuilt (hsite id) there
    · refine changes.grown (Tree.Ages.grown ?_ hsite)
      refine .of_act hold (.begin method (now + site.tree.timeout) (.caller tag)) ?_
      simp only [Endpoint.act, hbegin]
      exact .refl _
    · exact changes.grown hsite
    · rw [heq]
      exact hsite

/-- The table of every endpoint of a reachable site tells its few rows apart by ids other than 0.
Whatever the counter stands at, a few steps of search find an id that is neither 0 nor in use. On
every run of acts from here, an id is given out a second time only when at least 65,533 ids have
been given out since the first, so a late response cannot end the wait for another one sooner. -/
theorem ids_stay_apart {site : Site M} (reached : site.Reachable) {id : Nat} {endpoint : Endpoint}
    (there : site.tree.endpoint? id = some endpoint) :
    (endpoint.usedIds.Nodup ∧ 0 ∉ endpoint.usedIds ∧ endpoint.pending.length ≤ maxPending) ∧
    (∀ last, let turned := { endpoint with lastId := last }
      (∃ steps ≤ maxPending + 2,
        Endpoint.Finds turned.usedIds last steps turned.allocateId.1) ∧
      turned.allocateId.1 ≠ 0 ∧ turned.allocateId.1 ∉ turned.usedIds) ∧
    (∀ acts first second key, first < second → (endpoint.given acts)[first]? = some key →
      (endpoint.given acts)[second]? = some key → first + 65533 ≤ second) ∧
    ∀ method deadline requester key begun,
      endpoint.beginRequest method deadline requester = .ok (key, begun) →
      ∀ first second, key ∉ (begun.run first).usedIds →
        ((begun.run (first ++ second)).settle? key).isSome →
        65533 ≤ (begun.given (first ++ second)).length := by
  have sound : endpoint.Sound := (reached.grown there).sound
  refine ⟨⟨sound.nodup, sound.zero, sound.room⟩, fun last => ?_, ?_, ?_⟩
  · have hroom : { endpoint with lastId := last }.pending.length ≤ maxPending := sound.room
    obtain ⟨steps, hsteps, hfinds⟩ := Endpoint.finds_allocateId hroom
    exact ⟨⟨steps, by omega, hfinds⟩, Endpoint.allocateId_fresh hroom⟩
  · intro acts first second key before hfirst hsecond
    exact Endpoint.reuseDistance_le_sub sound before hfirst hsecond
  · intro method deadline requester key begun hbegin first second ended settles
    exact Endpoint.reuseDistance_le_of_settle? sound hbegin ended settles

/-- The moves that leave a local root waiting for a response across a link where nobody answers. -/
def askInVain : List (Move Cabling) :=
  [.call (.build (.addDownlink "wire" "lamp" 10)),
    .call (.execute 1 "on" "~/../desk" Params.empty 3 "caller")]

/-- At a counter about to wrap around, the search passes over 0 and over the id in use. -/
theorem search_wraps_around :
    let site := (start 5 (Pool.ofSize 1) Cabling.empty).run askInVain
    ∃ endpoint, site.tree.endpoint? 1 = some endpoint ∧ endpoint.usedIds = [1] ∧
      ∃ steps ≤ 4, Endpoint.Finds [1] 65535 steps 2 := by
  let site := (start 5 (Pool.ofSize 1) Cabling.empty).run askInVain
  let endpoint : Endpoint := ⟨[], [⟨1, 8, .caller "caller"⟩], 1⟩
  have there : site.tree.endpoint? 1 = some endpoint := by rfl
  have reached : site.Reachable := ⟨5, Pool.ofSize 1, Cabling.empty, askInVain, rfl⟩
  obtain ⟨-, hsearch, -⟩ := ids_stay_apart reached there
  obtain ⟨⟨steps, hsteps, hfinds⟩, -⟩ := hsearch 65535
  have hnext : ({ endpoint with lastId := 65535 } : Endpoint).allocateId.1 = 2 := by decide
  rw [hnext] at hfinds
  exact ⟨endpoint, there, rfl, steps, hsteps, hfinds⟩

end Site
end TopicTree
