import TopicTree.Proofs.Routing.Passage
import TopicTree.Proofs.Routing.Step
import TopicTree.Proofs.Tree.Core
import TopicTree.Proofs.Tree.Pending

/-!
# Journeys

A message that is routed goes on for some steps and then ends its way, or is left where it stands.
On the way nothing happens but that methods are called; all else is what the last step does. So what
routing does to a site is told by what a message may become on its way and by how a way may end.
-/

namespace TopicTree.Site

variable {M : Type}

/-- A site at which methods have been called and nothing else has happened. -/
structure Works (before after : Site M) : Prop where
  core : after.tree.core = before.tree.core
  pending : ∀ id, (after.tree.endpoint? id).map (·.pending)
    = (before.tree.endpoint? id).map (·.pending)
  channel? : ∀ id, after.tree.channel? id = before.tree.channel? id
  log : ∃ calls, after.log = before.log ++ calls ∧
    ∀ event ∈ calls, ∃ node method params, event = .called node method params
  pool : after.pool = before.pool
  medium : after.medium = before.medium

namespace Works

/-- A site at which nothing has happened. -/
@[refl]
protected theorem refl (site : Site M) : Works site site :=
  ⟨rfl, fun _ => rfl, fun _ => rfl, ⟨[], by simp, by simp⟩, rfl, rfl⟩

protected theorem trans {first second third : Site M} (h : Works first second)
    (h' : Works second third) : Works first third := by
  obtain ⟨calls, hcalls, hall⟩ := h.log
  obtain ⟨later, hlater, hall'⟩ := h'.log
  refine ⟨h'.core.trans h.core, fun id => (h'.pending id).trans (h.pending id),
    fun id => (h'.channel? id).trans (h.channel? id), ⟨calls ++ later, ?_, ?_⟩,
    h'.pool.trans h.pool, h'.medium.trans h.medium⟩
  · rw [hlater, hcalls, List.append_assoc]
  · intro event hevent
    exact (List.mem_append.1 hevent).elim (hall event) (hall' event)

/-- A method of one endpoint has been called. -/
theorem call {site : Site M} {here : Nat} {endpoint after : Endpoint} {method : String}
    {params : Params} {reply : Reply} (there : site.tree.endpoint? here = some endpoint)
    (called : endpoint.call? method params = some (reply, after)) :
    Works site
      ((site.withTree (site.tree.setEndpoint here after)).note (.called here method params)) where
  core := Tree.core_setEndpoint site.tree here after
  pending := Tree.map_endpoint?_setEndpoint there (Endpoint.pending_of_call? called)
  channel? := Tree.channel?_setEndpoint site.tree here after
  log := ⟨[.called here method params], rfl, by simp⟩
  pool := rfl
  medium := rfl

end Works

/-- On a step that goes on nothing happens but that methods are called. -/
theorem Leg.works {site after : Site M} {hop next : Hop} (h : site.Leg hop next after) :
    Works site after := by
  cases h with
  | turn => exact .refl site
  | leave => exact .refl site
  | climb => exact .refl site
  | enter => exact .refl site
  | refuse => exact .refl site
  | serve there _ _ called => exact .call there called

variable [Medium M]

/-- What holds of a message, wherever it stands, and is kept by every step that goes on, holds as far
as the message gets. -/
theorem Goes.keeps {P : Tree → Hop → Prop}
    (leg : ∀ {site after : Site M} {hop next : Hop}, site.Leg hop next after →
      P site.tree hop → P after.tree next)
    {hop last : Hop} {site mid : Site M} (h : Goes hop site last mid) (start : P site.tree hop) :
    P mid.tree last := by
  induction h with
  | here => exact start
  | step first _ ih => exact ih (leg (leg_of_step first) start)

/-- On the way nothing happens but that methods are called. -/
theorem Goes.works {hop last : Hop} {site mid : Site M} (h : Goes hop site last mid) :
    Works site mid := by
  induction h with
  | here => exact .refl _
  | step first _ ih => exact (leg_of_step first).works.trans ih

/-- A message that moves any number of steps goes some way and is left there, or ends its way. -/
theorem carry_cases (fuel : Nat) (hop : Hop) (site : Site M) :
    ∃ last mid, Goes hop site last mid ∧ mid.Stop last (carry fuel hop site) := by
  induction fuel generalizing hop site with
  | zero => exact ⟨hop, site, .here hop site, .drop hop⟩
  | succ fuel ih =>
    unfold carry
    split
    · next after hstep => exact ⟨hop, site, .here hop site, stop_of_step hstep⟩
    · next next after hstep =>
      obtain ⟨last, mid, hgoes, hstop⟩ := ih next after
      exact ⟨last, mid, .step hstep hgoes, hstop⟩

/-- A message that is routed goes some way and is left there, or ends its way. -/
theorem route_cases (site : Site M) (hop : Hop) :
    ∃ last mid, Goes hop site last mid ∧ mid.Stop last (site.route hop) :=
  carry_cases maxHops hop site

end TopicTree.Site
