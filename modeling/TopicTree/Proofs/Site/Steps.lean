import TopicTree.Proofs.Site.Reachable

/-!
# Steps of a run

A tick is many things one after the other: at every entry overdue waits end, then links are seen to,
then channels are polled. Taken apart like that, a run of moves is a run of steps, and what holds
after every run of steps holds at every moment of every run, in the middle of a tick too.
-/

namespace TopicTree

/-- A move, or a part of one if it is a tick. -/
inductive RunStep (M : Type)
  | build (construction : Construction)
  | execute (node : Nat) (method path : String) (params : Params) (now : Nat) (tag : String)
  | notify (node : Nat) (name : String) (qos : Qos) (data : Bytes)
  /-- The overdue waits of one entry end. -/
  | expire (now id : Nat)
  /-- One link is seen to. -/
  | provision (now id : Nat)
  /-- One channel is polled. -/
  | poll (now id : Nat)
  /-- The world around the tree is not what it was. -/
  | around (pool : Pool) (medium : M)

/-- The steps of a move, at a tree of a given size. -/
def Move.steps {M : Type} (size : Nat) : Move M → List (RunStep M)
  | .call (.build construction) => [.build construction]
  | .call (.execute node method path params now tag) =>
    [.execute node method path params now tag]
  | .call (.notify node name qos data) => [.notify node name qos data]
  | .call (.tick now) =>
    (List.range size).map (.expire now) ++ (List.range size).map (.provision now)
      ++ (List.range size).map (.poll now)
  | .around pool medium => [.around pool medium]

namespace Site

variable {M : Type} [Medium M]

/-- Takes one step. -/
def take (site : Site M) : RunStep M → Site M
  | .build construction => site.move (.call (.build construction))
  | .execute node method path params now tag =>
    site.move (.call (.execute node method path params now tag))
  | .notify node name qos data => site.move (.call (.notify node name qos data))
  | .expire now id => expireAt now site id
  | .provision now id => provisionAt now site id
  | .poll now id => pollAt now site id
  | .around pool medium => site.move (.around pool medium)

/-- Takes steps one after the other. -/
def follow (site : Site M) (steps : List (RunStep M)) : Site M :=
  steps.foldl take site

/-- Steps in two parts are taken one after the other. -/
theorem follow_append (site : Site M) (first second : List (RunStep M)) :
    site.follow (first ++ second) = (site.follow first).follow second :=
  List.foldl_append

/-- What steps show one after the other, as far as they show anything. -/
def shown {α : Type} (site : Site M) (show? : Site M → RunStep M → Option α) :
    List (RunStep M) → List α
  | [] => []
  | step :: steps => (show? site step).toList ++ (site.take step).shown show? steps

/-- Steps in two parts show what each part shows. -/
theorem shown_append {α : Type} (site : Site M) (show? : Site M → RunStep M → Option α)
    (first second : List (RunStep M)) : site.shown show? (first ++ second)
      = site.shown show? first ++ (site.follow first).shown show? second := by
  induction first generalizing site with
  | nil => rfl
  | cons step first ih =>
    rw [List.cons_append, shown, ih, shown, List.append_assoc]
    rfl

/-- What is replaced by all that steps show is the last of it in the end, if they show anything. -/
theorem eq_getLast?_shown {α : Type} {site : Site M} {show? : Site M → RunStep M → Option α}
    (held : Site M → Option α) {steps : List (RunStep M)}
    (replaced : ∀ front step back, steps = front ++ step :: back →
      held ((site.follow front).take step)
        = (show? (site.follow front) step).or (held (site.follow front))) :
    held (site.follow steps) = (site.shown show? steps).getLast?.or (held site) := by
  induction steps generalizing site with
  | nil => rfl
  | cons step steps ih =>
    have hrest := @ih (site.take step) fun front next back hsteps =>
      replaced (step :: front) next back (congrArg _ hsteps)
    have hfirst := replaced [] step steps rfl
    change held (site.take step) = (show? site step).or (held site) at hfirst
    change held ((site.take step).follow steps) = _
    rw [hrest, hfirst, shown, List.getLast?_append, Option.or_assoc]
    cases show? site step <;> rfl

/-- The steps of moves made one after the other. -/
def trail (site : Site M) : List (Move M) → List (RunStep M)
  | [] => []
  | move :: moves => move.steps site.tree.size ++ (site.move move).trail moves

/-- What a site does by itself adds no entry. -/
theorem Changes.size_eq {before after : Site M} (h : Changes before after) :
    after.tree.size = before.tree.size := by
  refine h.induction (P := fun site => site.tree.size = before.tree.size) ?_ rfl
  intro mid after change ih
  rw [← ih]
  rcases change.tree_cases with halike | ⟨id, _, new, _, halike⟩ | ⟨id, _, name, _, _, _, heq⟩
  · exact Tree.size_congr halike.outline
  · exact (Tree.size_congr halike.outline).trans
      (Tree.size_congr (Tree.outline_setEndpoint mid.tree id new))
  · rw [heq]
    exact Tree.size_modify mid.tree id _

/-- A move is its steps. -/
theorem follow_steps (site : Site M) (move : Move M) :
    site.follow (move.steps site.tree.size) = site.move move := by
  cases move with
  | around pool medium => rfl
  | call call =>
    cases call with
    | build construction => rfl
    | execute node method path params now tag => rfl
    | notify node name qos data => rfl
    | tick now =>
      have hexpire : (site.forEntries (expireAt now)).tree.size = site.tree.size :=
        (changes_forEntries (fun site id => .single (.expire site now id)) site).size_eq
      have hprovision : ((site.forEntries (expireAt now)).forEntries (provisionAt now)).tree.size
          = site.tree.size :=
        ((changes_forEntries (changes_provisionAt now) _).size_eq).trans hexpire
      change _ = site.tick now
      rw [Site.tick, Site.forEntries, hprovision, Site.forEntries, hexpire, Site.forEntries]
      simp only [Move.steps, follow, List.foldl_append, List.foldl_map]
      rfl

/-- A run of moves is the run of their steps. -/
theorem follow_trail (site : Site M) (moves : List (Move M)) :
    site.follow (site.trail moves) = site.run moves := by
  induction moves generalizing site with
  | nil => rfl
  | cons move moves ih =>
    rw [trail, follow_append, follow_steps, ih]
    rfl

/-- The steps of moves in two parts. -/
theorem trail_append (site : Site M) (first second : List (Move M)) :
    site.trail (first ++ second) = site.trail first ++ (site.run first).trail second := by
  induction first generalizing site with
  | nil => rfl
  | cons move first ih =>
    rw [List.cons_append, trail, ih, trail, List.append_assoc]
    rfl

/-- A step is a move or goes on by itself. -/
theorem take_cases (site : Site M) (step : RunStep M) :
    (∃ move, site.take step = site.move move) ∨ Changes site (site.take step) := by
  cases step with
  | build construction => exact .inl ⟨.call (.build construction), rfl⟩
  | execute node method path params now tag =>
    exact .inl ⟨.call (.execute node method path params now tag), rfl⟩
  | notify node name qos data => exact .inl ⟨.call (.notify node name qos data), rfl⟩
  | expire now id => exact .inr (.single (.expire site now id))
  | provision now id => exact .inr (changes_provisionAt now site id)
  | poll now id => exact .inr (changes_pollAt now site id)
  | around pool medium => exact .inl ⟨.around pool medium, rfl⟩

/-- A step keeps a tree well formed. -/
theorem wellFormed_take {site : Site M} (h : site.tree.WellFormed) (step : RunStep M) :
    (site.take step).tree.WellFormed := by
  rcases take_cases site step with ⟨move, heq⟩ | changes
  · rw [heq]
    exact wellFormed_move h move
  · exact changes.induction (P := fun site => site.tree.WellFormed) Change.wellFormed h

/-- Steps keep a tree well formed. -/
theorem wellFormed_follow {site : Site M} (h : site.tree.WellFormed) (steps : List (RunStep M)) :
    (site.follow steps).tree.WellFormed := by
  induction steps generalizing site with
  | nil => exact h
  | cons step steps ih => exact ih (wellFormed_take h step)

end Site
end TopicTree
