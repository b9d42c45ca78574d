import TopicTree.Network.Cabling
import TopicTree.Proofs.Routing.Step
import TopicTree.Proofs.Site.Reachable

/-!
# Routing ends

A message moves towards the top over ever smaller places and towards its destination over ever
larger ones, turns around once on the way, and starts again at most once, when a request becomes its
response. So in a well-formed tree it comes to rest after at most four steps for each entry, and the
bound on the steps of `route` is never what stops it.
-/

namespace TopicTree.Site

variable {M : Type} [Medium M]

/-! ## One step -/

/-- How a message goes on. -/
inductive Advance (site : Site M) : Hop → Hop → Site M → Prop
  /-- It turns around, with its source counted from there. -/
  | turn {here : Nat} (message : Envelope) (source : Path) (there : here < site.tree.size) :
      Advance site (.up here message) (.down here { message with source }) site
  /-- It moves to the entry above. -/
  | climb {here above : Nat} (message : Envelope) (source : Path)
      (below : site.tree.parent? here = some above) :
      Advance site (.up here message) (.up above { message with source }) site
  /-- It moves to an entry below. -/
  | enter {here child : Nat} (message : Envelope) (dest : Path)
      (below : child ∈ site.tree.children here) :
      Advance site (.down here message) (.down child { message with dest }) site
  /-- A request becomes its response. -/
  | answer {here : Nat} {message : Envelope} {after : Site M} (code : ReturnCode) (params : Params)
      (there : here < site.tree.size) (asked : message.kind = .request)
      (same : after.tree.outline = site.tree.outline) :
      Advance site (.down here message) (.up here (message.response code params)) after

/-- How a message comes to rest. -/
inductive Ending (site : Site M) : Hop → Site M → Prop
  /-- It is dropped. -/
  | drop (hop : Hop) : Ending site hop site
  /-- It is a response and has arrived at the node that it was meant for. -/
  | arrive {here : Nat} {endpoint : Endpoint} {message : Envelope}
      (there : site.tree.endpoint? here = some endpoint) (answer : message.kind = .response) :
      Ending site (.down here message) (site.settle here endpoint message)
  /-- It is handed over a link upwards. -/
  | leaveUp {here : Nat} (message : Envelope) (place : site.tree.form? here = some .deviceEnd) :
      Ending site (.up here message) (site.relayUp here message)
  /-- It is handed over a link downwards. -/
  | leaveDown {here : Nat} (message : Envelope) (place : site.tree.form? here = some .hubEnd) :
      Ending site (.down here message) (site.relayDown here message)
  /-- It is a notification and has reached the top. -/
  | spread {here : Nat} {message : Envelope} (notifies : message.kind = .notification)
      (top : site.tree.parent? here = none) :
      Ending site (.up here message) (site.fanOut message)

/-- A step takes a message further or ends its way. -/
def Outcome (site : Site M) (hop : Hop) : Option Hop × Site M → Prop
  | (some next, after) => site.Advance hop next after
  | (none, after) => site.Ending hop after

omit [Medium M] in
/-- A step that goes on takes a message further. -/
theorem Leg.advance {site after : Site M} {hop next : Hop} (h : site.Leg hop next after) :
    site.Advance hop next after := by
  cases h with
  | turn there => exact .turn _ _ (List.getElem?_eq_some_iff.1 there).1
  | @leave here above entry message there _ _ below =>
    refine .climb message message.source ?_
    rw [Tree.parent?, there, Option.bind_some, below]
  | @climb here above entry message _ source there _ _ below =>
    refine .climb message source ?_
    rw [Tree.parent?, there, Option.bind_some, below]
  | enter _ _ _ found => exact .enter _ _ (List.mem_of_find?_eq_some found)
  | refuse code there _ asked => exact .answer code Params.empty there asked rfl
  | @serve _ _ _ after _ there asked =>
    obtain ⟨_, hentry, _⟩ := Option.bind_eq_some_iff.1 there
    exact .answer _ _ (List.getElem?_eq_some_iff.1 hentry).1 asked
      (Tree.outline_setEndpoint site.tree _ after)

/-- A step that ends the way of a message brings it to rest. -/
theorem Stop.ending {site after : Site M} {hop : Hop} (h : site.Stop hop after) :
    site.Ending hop after := by
  cases h with
  | drop => exact .drop hop
  | arrive there answers => exact .arrive there answers
  | leaveUp message outer => exact .leaveUp message ((Tree.isDeviceEnd_iff _ _).1 outer)
  | leaveDown message there place => exact .leaveDown message (Tree.form?_hubEnd there place)
  | spread notifies top => exact .spread notifies top

/-- Every step takes a message further or ends its way. -/
theorem outcome_step (site : Site M) (hop : Hop) : site.Outcome hop (site.step hop) := by
  have hdoes := does_step site hop
  generalize site.step hop = result at hdoes ⊢
  obtain ⟨next | next, after⟩ := result
  · exact Stop.ending hdoes
  · exact Leg.advance hdoes

/-! ## All steps -/

/-- A message comes to rest in exactly so many steps, and leaves the site so. -/
inductive Rests : Hop → Site M → Nat → Site M → Prop
  | last {hop : Hop} {site after : Site M} (ends : site.step hop = (none, after))
      (how : site.Ending hop after) : Rests hop site 1 after
  | next {hop further : Hop} {site mid after : Site M} {steps : Nat}
      (goes : site.step hop = (some further, mid)) (rest : Rests further mid steps after) :
      Rests hop site (steps + 1) after

/-- A message that comes to rest does so within any number of steps that is large enough. -/
theorem Rests.carry_eq {hop : Hop} {site after : Site M} {steps : Nat}
    (h : Rests hop site steps after) {fuel : Nat} (enough : steps ≤ fuel) :
    carry fuel hop site = after := by
  induction h generalizing fuel with
  | last ends _ =>
    obtain ⟨fuel, rfl⟩ := Nat.exists_eq_succ_of_ne_zero (Nat.ne_of_gt enough)
    rw [carry, ends]
  | next goes _ ih =>
    obtain ⟨fuel, rfl⟩ := Nat.exists_eq_succ_of_ne_zero
      (Nat.ne_of_gt (Nat.lt_of_lt_of_le (Nat.succ_pos _) enough))
    rw [carry, goes]
    exact ih (Nat.le_of_succ_le_succ enough)

/-- A message comes to rest in one way only. -/
theorem Rests.unique {hop : Hop} {site left right : Site M} {steps steps' : Nat}
    (h : Rests hop site steps left) (h' : Rests hop site steps' right) : left = right := by
  rw [← h.carry_eq (Nat.le_max_left steps steps'), h'.carry_eq (Nat.le_max_right steps steps')]

end Site

/-- The steps that a request has left, beyond those of its response. -/
def Envelope.reserve (message : Envelope) (size : Nat) : Nat :=
  if message.kind = .request then 2 * size else 0

/-- A bound on the steps of a message in a tree of a given size. -/
def Hop.budget (size : Nat) : Hop → Nat
  | .up here message => if here < size then here + 1 + size + message.reserve size else 1
  | .down here message => if here < size then size - here + message.reserve size else 1

/-- No message has more than four steps for each entry. -/
theorem Hop.budget_le {size : Nat} (nonempty : 0 < size) (hop : Hop) :
    hop.budget size ≤ 4 * size := by
  have hreserve : ∀ message : Envelope, message.reserve size ≤ 2 * size := by
    intro message
    unfold Envelope.reserve
    split <;> omega
  cases hop with
  | up here message =>
    have := hreserve message
    simp only [budget]
    split <;> omega
  | down here message =>
    have := hreserve message
    simp only [budget]
    split <;> omega

/-- Every message has a step. -/
theorem Hop.budget_pos (size : Nat) (hop : Hop) : 0 < hop.budget size := by
  cases hop with
  | up here message =>
    simp only [budget]
    split <;> omega
  | down here message =>
    simp only [budget]
    split <;> omega

namespace Site

variable {M : Type} [Medium M]

omit [Medium M] in
/-- A message that goes on in a well-formed tree has fewer steps left. -/
theorem Advance.budget_lt {site after : Site M} {hop next : Hop} (h : site.Advance hop next after)
    (hsite : site.tree.WellFormed) :
    next.budget after.tree.size < hop.budget site.tree.size := by
  cases h with
  | turn message source there =>
    simp only [Hop.budget, Envelope.reserve, if_pos there]
    omega
  | climb message source below =>
    have hlt := Tree.WellFormed.lt_size_of_parent? below
    have habove := hsite.parent_lt below
    simp only [Hop.budget, Envelope.reserve, if_pos hlt, if_pos (Nat.lt_trans habove hlt)]
    omega
  | enter message dest below =>
    have hlt := hsite.lt_of_mem_children below
    have hchild := hsite.lt_size_of_mem_children below
    simp only [Hop.budget, Envelope.reserve, if_pos hchild, if_pos (Nat.lt_trans hlt hchild)]
    omega
  | answer code params there asked same =>
    have hresponse : (Kind.response = .request) ↔ False := by decide
    simp only [Hop.budget, Envelope.reserve, Envelope.response, Tree.size_congr same, if_pos there,
      if_pos asked, hresponse, if_false]
    omega

omit [Medium M] in
/-- A message that goes on leaves the outline of the tree as it is. -/
theorem Advance.outline_eq {site after : Site M} {hop next : Hop}
    (h : site.Advance hop next after) : after.tree.outline = site.tree.outline := by
  cases h with
  | turn => rfl
  | climb => rfl
  | enter => rfl
  | answer _ _ _ _ same => exact same

/-- In a well-formed tree every message comes to rest within its budget. -/
theorem exists_rests {site : Site M} (h : site.tree.WellFormed) (hop : Hop) :
    ∃ steps after, steps ≤ hop.budget site.tree.size ∧ Rests hop site steps after := by
  induction hbudget : hop.budget site.tree.size using Nat.strongRecOn generalizing hop site with
  | ind budget ih =>
    have houtcome := outcome_step site hop
    cases hstep : site.step hop with
    | mk next after =>
      rw [hstep] at houtcome
      cases next with
      | none => exact ⟨1, after, hbudget ▸ Hop.budget_pos _ hop, .last hstep houtcome⟩
      | some next =>
        have hadvance : site.Advance hop next after := houtcome
        have hlt := hadvance.budget_lt h
        rw [hbudget] at hlt
        obtain ⟨steps, rested, hsteps, hrests⟩ :=
          ih _ hlt (h.congr hadvance.outline_eq.symm) next rfl
        exact ⟨steps + 1, rested, Nat.succ_le_of_lt (Nat.lt_of_le_of_lt hsteps hlt),
          .next hstep hrests⟩

/-! ## The bound on steps -/

/-- In a well-formed tree `route` takes every message to rest. -/
theorem exists_rests_route {site : Site M} (h : site.tree.WellFormed) (hop : Hop) :
    ∃ steps, steps ≤ maxHops ∧ Rests hop site steps (site.route hop) := by
  obtain ⟨steps, after, hsteps, hrests⟩ := exists_rests h hop
  have hbound : steps ≤ maxHops := by
    have hsize := h.size_le
    rcases Nat.eq_zero_or_pos site.tree.size with hzero | hpos
    · have hone : hop.budget site.tree.size = 1 := by
        cases hop <;> simp [Hop.budget, hzero]
      exact Nat.le_trans (hone ▸ hsteps) (by decide)
    · have := Hop.budget_le hpos hop
      simp only [maxHops]
      omega
  refine ⟨steps, hbound, ?_⟩
  rw [route, hrests.carry_eq hbound]
  exact hrests

/-- A site at some moment of some run: between two moves, or on the way through one. -/
inductive Occurs : Site M → Prop
  | between {site : Site M} (h : site.Reachable) : Occurs site
  /-- A request begins, on behalf of a caller or of a client. -/
  | begun {site : Site M} {node : Nat} {old new : Endpoint} {method : String} {deadline : Nat}
      {requester : Requester} {id : UInt16} (h : Occurs site)
      (there : site.tree.endpoint? node = some old)
      (begun : old.beginRequest method deadline requester = .ok (id, new)) :
      Occurs (site.withTree (site.tree.setEndpoint node new))
  /-- The site changes by itself. -/
  | changed {site after : Site M} (h : Occurs site) (change : Change site after) : Occurs after

/-- The tree of a site at any moment is well formed. -/
theorem Occurs.wellFormed {site : Site M} (h : site.Occurs) : site.tree.WellFormed := by
  induction h with
  | between h => exact h.wellFormed
  | begun _ _ _ ih => exact ih.congr (Tree.outline_setEndpoint _ _ _).symm
  | changed _ change ih => exact change.wellFormed ih

/-- At any moment of any run, every message that is routed from anywhere comes to rest by itself
within the bound on steps: it is delivered, handed over, spread or dropped, and never cut off. -/
theorem route_comes_to_rest {site : Site M} (h : site.Occurs) (hop : Hop) :
    ∃ steps, steps ≤ maxHops ∧ Rests hop site steps (site.route hop) :=
  exists_rests_route h.wellFormed hop

/-! ## The bound is reached -/

/-- The number of steps until a message comes to rest, as far as the fuel allows. -/
def countSteps : (fuel : Nat) → Hop → Site M → Nat
  | 0, _, _ => 0
  | fuel + 1, hop, site =>
    match site.step hop with
    | (none, _) => 1
    | (some next, after) => countSteps fuel next after + 1

/-- The steps of a message that comes to rest are counted if there is fuel for them. -/
theorem Rests.countSteps_eq {hop : Hop} {site after : Site M} {steps : Nat}
    (h : Rests hop site steps after) {fuel : Nat} (enough : steps ≤ fuel) :
    countSteps fuel hop site = steps := by
  induction h generalizing fuel with
  | last ends _ =>
    obtain ⟨fuel, rfl⟩ := Nat.exists_eq_succ_of_ne_zero (Nat.ne_of_gt enough)
    rw [countSteps, ends]
  | next goes _ ih =>
    obtain ⟨fuel, rfl⟩ := Nat.exists_eq_succ_of_ne_zero
      (Nat.ne_of_gt (Nat.lt_of_lt_of_le (Nat.succ_pos _) enough))
    rw [countSteps, goes]
    exact congrArg (· + 1) (ih (Nat.le_of_succ_le_succ enough))

/-- The moves that build a row of nodes, each below the one before. -/
def buildRow (length : Nat) : List (Move Cabling) :=
  .call (.build (.addRoot "n")) ::
    (List.range (length - 1)).map fun parent => .call (.build (.addNode parent "n"))

/-- A site with the longest row of nodes that a tree has room for. -/
def longestRow : Site Cabling :=
  (start 5 (Pool.ofSize 1) Cabling.empty).run (buildRow maxEntries)

/-- A request of the last node in the longest row to itself, by way of the top. -/
def longestWay : Hop :=
  .up 15
    { kind := .request
      dest := ⟨.top, "n/n/n/n/n/n/n/n/n/n/n/n/n/n/n", by decide⟩
      source := Path.empty .top
      id := 1
      method := "m"
      code := .success
      qos := .atMostOnce
      params := Params.empty
      methodFits := by decide }

/-- In the longest row of nodes a request from the last one to itself takes as many steps as the
bound allows. -/
theorem longestWay_takes_maxHops :
    Rests longestWay longestRow maxHops (longestRow.route longestWay) := by
  have hoccurs : longestRow.Occurs :=
    .between ⟨5, Pool.ofSize 1, Cabling.empty, buildRow maxEntries, rfl⟩
  obtain ⟨steps, hsteps, hrests⟩ := route_comes_to_rest hoccurs longestWay
  have hcount : countSteps maxHops longestWay longestRow = maxHops := by decide +kernel
  rw [hrests.countSteps_eq hsteps] at hcount
  exact hcount ▸ hrests

end Site
end TopicTree
