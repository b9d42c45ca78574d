import TopicTree.Proofs.Tree.Outline
import TopicTree.Site.Route

/-!
# One step of a message

All that one step can do, with the guards that let it. A step that goes on leaves the site as it is,
unless it calls a method; a step that ends the way of a message does one thing at one entry.
-/

namespace TopicTree

/-- The message of a hop. -/
def Hop.message : Hop → Envelope
  | .up _ message => message
  | .down _ message => message

namespace Site

variable {M : Type} [Medium M]

/-- How a message goes on, in full. -/
inductive Leg (site : Site M) : Hop → Hop → Site M → Prop
  /-- It turns around, with its source counted from where its destination is. -/
  | turn {here : Nat} {entry : Entry} {message : Envelope}
      (there : site.tree.get? here = some entry) (inner : ¬site.tree.isDeviceEnd here)
      (turns : site.tree.isTurn entry message) (asks : message.kind ≠ .notification) :
      Leg site (.up here message)
        (.down here { message with source := message.source.withAnchor message.dest.anchor }) site
  /-- It moves from the local root to the device end above. -/
  | leave {here above : Nat} {entry : Entry} {message : Envelope}
      (there : site.tree.get? here = some entry) (inner : ¬site.tree.isDeviceEnd here)
      (stays : ¬site.tree.isTurn entry message) (below : entry.parent = some above)
      (outer : site.tree.isBelowLink entry) :
      Leg site (.up here message) (.up above message) site
  /-- It moves to the entry above and collects the name of the entry it leaves. -/
  | climb {here above : Nat} {entry : Entry} {message : Envelope} {name : Name} {source : Path}
      (there : site.tree.get? here = some entry) (inner : ¬site.tree.isDeviceEnd here)
      (stays : ¬site.tree.isTurn entry message) (below : entry.parent = some above)
      (inside : ¬site.tree.isBelowLink entry) (named : entry.name = some name)
      (collects : Path.prepend name.text message.source = .ok source) :
      Leg site (.up here message) (.up above { message with source }) site
  /-- It moves to the child that the next level of its destination names. -/
  | enter {here child : Nat} {message : Envelope} {level : String} (there : here < site.tree.size)
      (inner : site.tree.link? here = none) (first : message.dest.first = .ok (some level))
      (found : site.tree.childNamed here level = some child) :
      Leg site (.down here message) (.down child { message with dest := message.dest.dropFirst })
        site
  /-- A request that cannot go on becomes the response that says so. -/
  | refuse {here : Nat} {message : Envelope} (code : ReturnCode) (there : here < site.tree.size)
      (inner : site.tree.link? here = none) (asked : message.kind = .request) :
      Leg site (.down here message) (.up here (message.response code Params.empty)) site
  /-- A request that has arrived becomes the reply of the method called. -/
  | serve {here : Nat} {message : Envelope} {endpoint after : Endpoint} {reply : Reply}
      (there : site.tree.endpoint? here = some endpoint) (asked : message.kind = .request)
      (arrived : message.dest.isEmpty)
      (called : endpoint.call? message.method message.params = some (reply, after)) :
      Leg site (.down here message) (.up here (message.response reply.code reply.params))
        ((site.withTree (site.tree.setEndpoint here after)).note
          (.called here message.method message.params))

/-- How the way of a message ends, in full. -/
inductive Stop (site : Site M) : Hop → Site M → Prop
  /-- It is dropped. -/
  | drop (hop : Hop) : Stop site hop site
  /-- It is a response and has arrived at a node or bridge. -/
  | arrive {here : Nat} {endpoint : Endpoint} {message : Envelope}
      (there : site.tree.endpoint? here = some endpoint) (answers : message.kind = .response)
      (arrived : message.dest.isEmpty) :
      Stop site (.down here message) (site.settle here endpoint message)
  /-- It is handed over a link upwards. -/
  | leaveUp {here : Nat} (message : Envelope) (outer : site.tree.isDeviceEnd here) :
      Stop site (.up here message) (site.relayUp here message)
  /-- It is handed over a link downwards. -/
  | leaveDown {here : Nat} {link : Link} (message : Envelope)
      (there : site.tree.link? here = some link) (place : link.place = .hub) :
      Stop site (.down here message) (site.relayDown here message)
  /-- It is a notification and has reached the top. -/
  | spread {here : Nat} {message : Envelope} (notifies : message.kind = .notification)
      (top : site.tree.parent? here = none) (inner : ¬site.tree.isDeviceEnd here) :
      Stop site (.up here message) (site.fanOut message)

/-- What a step does: the message goes on, or its way ends. -/
def Does (site : Site M) (hop : Hop) : Option Hop × Site M → Prop
  | (some next, after) => site.Leg hop next after
  | (none, after) => site.Stop hop after

variable {site : Site M} {here : Nat}

/-- A refusal answers a request and drops anything else. -/
theorem does_reject (there : here < site.tree.size) (inner : site.tree.link? here = none)
    (message : Envelope) (code : ReturnCode) :
    site.Does (.down here message) (site.reject here message code) := by
  unfold reject
  split
  · next asked => exact .refuse code there inner asked
  · exact .drop _

/-- A delivery answers a request, ends a wait or drops the message. -/
theorem does_deliver (there : here < site.tree.size) (inner : site.tree.link? here = none)
    {message : Envelope} (arrived : message.dest.isEmpty) :
    site.Does (.down here message) (site.deliver here message) := by
  unfold deliver
  split
  · exact .drop _
  · next endpoint hendpoint =>
    split
    · next asked =>
      unfold handle
      split
      · exact does_reject there inner message _
      · next reply after hcall => exact .serve hendpoint asked arrived hcall
    · next answers => exact .arrive hendpoint answers arrived
    · exact .drop _

/-- A step towards the destination within a tree. -/
theorem does_descend (there : here < site.tree.size) (inner : site.tree.link? here = none)
    (message : Envelope) : site.Does (.down here message) (site.descend here message) := by
  unfold descend
  split
  · next arrived => exact does_deliver there inner arrived
  · split
    · exact does_reject there inner message _
    · next level hfirst =>
      split
      · exact does_reject there inner message _
      · next child hchild =>
        obtain ⟨text, rfl, hfound⟩ := Option.bind_eq_some_iff.1 hchild
        exact .enter there inner hfirst hfound

/-- All that a step does. -/
theorem does_step (site : Site M) (hop : Hop) : site.Does hop (site.step hop) := by
  cases hop with
  | up here message =>
    simp only [step, stepUp]
    split
    · exact .drop _
    · next entry hentry =>
      split
      · next outer => exact .leaveUp message outer
      · next inner =>
        split
        · next turns =>
          split
          · next notifies =>
            refine .spread notifies ?_ inner
            simp only [Tree.isTurn, if_pos notifies, Option.isNone_iff_eq_none] at turns
            rw [Tree.parent?, hentry, Option.bind_some, turns]
          · next asks => exact .turn hentry inner turns asks
        · next stays =>
          split
          · exact .drop _
          · next above below =>
            split
            · next outer => exact .leave hentry inner stays below outer
            · next inside =>
              split
              · exact .drop _
              · next name named =>
                split
                · exact .drop _
                · next source collects =>
                  exact .climb hentry inner stays below inside named collects
  | down here message =>
    simp only [step, stepDown]
    split
    · exact .drop _
    · next entry hentry =>
      have hlink : site.tree.link? here = entry.role.link? := by simp [Tree.link?, hentry]
      split
      · next hnone =>
        exact does_descend (List.getElem?_eq_some_iff.1 hentry).1 (hlink.trans hnone) message
      · next link hsome =>
        split
        · next hub => exact .leaveDown message (hlink.trans hsome) hub
        · exact .drop _

/-- What a step that goes on does. -/
theorem leg_of_step {hop next : Hop} {after : Site M} (h : site.step hop = (some next, after)) :
    site.Leg hop next after := by
  have hdoes := does_step site hop
  rwa [h] at hdoes

/-- What a step that ends the way does. -/
theorem stop_of_step {hop : Hop} {after : Site M} (h : site.step hop = (none, after)) :
    site.Stop hop after := by
  have hdoes := does_step site hop
  rwa [h] at hdoes

end Site
end TopicTree
