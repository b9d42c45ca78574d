import TopicTree.Proofs.Site.Links

/-!
# The pace of a link

A link remembers how often it is to make attempts to be named and when it made the latest one. Only
seeing to the link changes that: nothing that is carried through the tree does, no frame that comes
in anywhere, and nothing that is done about another link.
-/

namespace TopicTree

/-- How often an end of a link is to make attempts, and when it made the latest one. -/
def Link.pace (link : Link) : Nat × Option Nat :=
  (link.interval, link.lastAttempt)

namespace Tree

variable {tree left right : Tree} {other : Nat}

/-- How often an end of a link is to make attempts, and when it made the latest one. -/
def pace? (tree : Tree) (id : Nat) : Option (Nat × Option Nat) :=
  (tree.link? id).map Link.pace

/-- The time of the latest attempt of a link. -/
def lastAttempt? (tree : Tree) (id : Nat) : Option Nat :=
  (tree.pace? id).bind Prod.snd

/-- The pace of a link is told by the core. -/
theorem pace?_of_core (same : left.core = right.core) (id : Nat) : left.pace? id = right.pace? id := by
  have hmap := congrArg (Option.map Link.pace) (map_link?_of_core same id)
  rwa [Option.map_map, Option.map_map] at hmap

/-- A link changes, but not its pace. -/
theorem pace?_setLink {old link : Link} (there : tree.link? other = some old)
    (same : link.pace = old.pace) (id : Nat) : (tree.setLink other link).pace? id = tree.pace? id := by
  rw [pace?, link?_setLink there, pace?]
  split
  · next heq => simp [← heq, there, same]
  · rfl

end Tree

namespace Site

variable {M : Type} [Medium M] {site : Site M} {id other : Nat} {link : Link}

/-- Handling a frame that came in at a link changes no pace. -/
theorem pace?_receiveLink (there : site.tree.link? other = some link) (frame : Frame) :
    (site.receiveLink other link frame).tree.pace? id = site.tree.pace? id := by
  have routes : Routes M (fun _ _ => True) site.tree none := routes_of_forall (fun _ _ => trivial) _ _
  unfold receiveLink
  split
  · rfl
  · next message _ =>
    split
    · next place =>
      unfold receiveBelow
      split
      · unfold confirm
        split
        · rfl
        · split
          · rfl
          · rw [announce_eq]
            have hpace : Link.pace { link with confirmed := true } = link.pace := rfl
            exact Tree.pace?_setLink there hpace id
      · split
        · rfl
        · next root hroot =>
          exact Tree.pace?_of_core (routes site _ rfl (.fromAbove message there place hroot)).core id
    · next place =>
      unfold receiveAbove
      split
      · refine (Tree.pace?_of_core (sendPacket_cases _ other _).1 id).trans ?_
        change (site.adopt other link ((message.params.text? 0).getD "")).2.tree.pace? id = _
        rcases adopt_cases site other link ((message.params.text? 0).getD "") with
          ⟨heq, -⟩ | ⟨name, -, heq⟩
        · rw [heq]
        · rw [heq]
          exact congrArg (Option.map Link.pace) (Tree.link?_setName site.tree other name id)
      · split
        · rfl
        · next name hname =>
          refine Tree.pace?_of_core (routes site _ rfl (.fromBelow message there place ?_)).core id
          simp [hname]

/-- Handling a frame that came in at a bridge changes no pace. -/
theorem pace?_receiveBridge {bridge : Bridge} (there : site.tree.bridge? other = some bridge)
    (now : Nat) (frame : Frame) :
    (site.receiveBridge other bridge now frame).tree.pace? id = site.tree.pace? id := by
  have routes : ∀ path?, Routes M (fun _ _ => True) site.tree path? :=
    routes_of_forall (fun _ _ => trivial) _
  have hsend : ∀ {ε : Type} (site : Site M) (packet : Except ε Frame),
      (site.sendPacket other packet).tree.pace? id = site.tree.pace? id := fun site packet =>
    Tree.pace?_of_core (sendPacket_cases site other packet).1 id
  have hset : ∀ changed : Bridge, (site.tree.setBridge other changed).pace? id
      = site.tree.pace? id := fun changed =>
    congrArg (Option.map Link.pace) (Tree.link?_setBridge there id)
  unfold receiveBridge
  split
  · unfold connect
    split
    · split
      · exact hsend _ _
      · simp only [ask]
        split
        · exact (hsend _ _).trans (hset _)
        · exact (hsend _ _).trans (hset _)
    · rfl
  · exact hsend site (.ok _ : Except Error Frame)
  · unfold subscribe
    split
    · exact (hsend _ _).trans (hset _)
    · rfl
  · unfold publish
    split
    · split
      · exact Tree.pace?_of_core (Carries.requestFor (routes _) there now _).core id
      · rfl
      · exact Tree.pace?_of_core (Carries.notify (routes none) other _ _ _).core id
    · rfl
  · exact hset _
  · rfl

/-- Polling a channel changes no pace. -/
theorem pace?_pollAt (now : Nat) : (pollAt now site other).tree.pace? id = site.tree.pace? id := by
  cases hchannel : site.tree.channel? other with
  | none => simp only [pollAt, hchannel]
  | some channel =>
    have hcarries : Carries (fun _ _ => True) site (site.polled other channel) :=
      carries_polled hchannel
    have hpolled := Tree.pace?_of_core hcarries.core id
    rcases pollAt_cases hchannel now with heq | ⟨link, frame, -, hthere, heq⟩ |
      ⟨bridge, frame, -, rfl, hthere, heq⟩ <;> rw [heq]
    · exact hpolled
    · exact (pace?_receiveLink hthere frame).trans hpolled
    · unfold holding
      split
      · exact hpolled
      · next slot pool _ =>
        have hheld : ({ site.polled other bridge.channel with pool } : Site M).tree.bridge? other
            = some _ := hthere
        exact (pace?_receiveBridge hheld now frame).trans hpolled

/-- Seeing to another link leaves the pace of a link alone. -/
theorem pace?_provisionAt (beside : other ≠ id) (now : Nat) :
    (provisionAt now site other).tree.pace? id = site.tree.pace? id := by
  unfold provisionAt
  split
  · rfl
  · next found there =>
    split
    · split
      · rfl
      · next request _ =>
        refine (Tree.pace?_of_core (sendPacket_cases _ other request.toFrame).1 id).trans ?_
        rw [tree_withTree, Tree.pace?, Tree.link?_setLink there, if_neg beside, Tree.pace?]
    · rfl

/-- A step that does not build leaves the pace of a link alone, unless the link is seen to. -/
theorem pace?_take_beside {step : RunStep M} (plain : ∀ construction, step ≠ .build construction)
    (beside : ∀ now, step ≠ .provision now id) :
    (site.take step).tree.pace? id = site.tree.pace? id := by
  have routes : ∀ path?, Routes M (fun _ _ => True) site.tree path? :=
    routes_of_forall (fun _ _ => trivial) _
  cases step with
  | build construction => exact absurd rfl (plain construction)
  | execute node method path params now tag =>
    exact Tree.pace?_of_core (Carries.execute (routes _) node method params now tag).core id
  | notify node name qos data =>
    exact Tree.pace?_of_core (Carries.notify (routes none) node name qos data).core id
  | expire now other =>
    have hcarries : Carries (fun _ _ => True) site (expireAt now site other) :=
      .expireAt now site other
    exact Tree.pace?_of_core hcarries.core id
  | provision now other => exact pace?_provisionAt (fun heq => beside now (congrArg _ heq)) now
  | poll now other => exact pace?_pollAt now
  | around pool medium => rfl

end Site
end TopicTree
