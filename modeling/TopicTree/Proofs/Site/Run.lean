import TopicTree.Site.Tick

/-!
# Runs of a site

All that can be asked of a tree from outside, and all that the world around it can do. Between two
calls the medium may be any other medium and the pool any other pool: bytes arrive, sockets fail and
recover, and others claim slots or give them back. A site that some run of calls leads to from an
empty tree is reachable, and so is its tree.
-/

namespace TopicTree

/-- A way to build at a tree. -/
inductive Construction
  | addRoot (name : String)
  | addNode (parent : Nat) (name : String)
  | addUplink (parent : Nat) (socket : String) (interval : Nat)
  | addDownlink (socket localRoot : String) (interval : Nat)
  | addBridge (parent : Nat) (name socket : String) (maxClientId : Nat)
  | addMethod (id : Nat) (name : String) (handler : Handler)
  | addListener (id : Nat) (tag : String)
  | setGuard (id : Nat) (guard : Guard)

/-- The tree after building at it, unless that is refused. -/
def Tree.construct (tree : Tree) : Construction → Except Error Tree
  | .addRoot name => (tree.addRoot name).map Prod.snd
  | .addNode parent name => (tree.addNode parent name).map Prod.snd
  | .addUplink parent socket interval => (tree.addUplink parent socket interval).map Prod.snd
  | .addDownlink socket localRoot interval =>
    (tree.addDownlink socket localRoot interval).map (·.2.2)
  | .addBridge parent name socket maxClientId =>
    (tree.addBridge parent name socket maxClientId).map Prod.snd
  | .addMethod id name handler => tree.addMethod id name handler
  | .addListener id tag => tree.addListener id tag
  | .setGuard id guard => tree.setGuard id guard

/-- What the program around a tree asks of it. -/
inductive Call
  | build (construction : Construction)
  | execute (node : Nat) (method path : String) (params : Params) (now : Nat) (tag : String)
  | notify (node : Nat) (name : String) (qos : Qos) (data : Bytes)
  | tick (now : Nat)

/-- Whether a call hands over a caller of a given tag. -/
def Call.hands (tag : String) : Call → Prop
  | execute _ _ _ _ _ other => other = tag
  | _ => False

/-- A call of a tree, or something that happens around it. -/
inductive Move (M : Type)
  | call (call : Call)
  /-- The world around the tree is not what it was. -/
  | around (pool : Pool) (medium : M)

/-- Whether a move hands over a caller of a given tag. -/
def Move.hands {M : Type} (tag : String) : Move M → Prop
  | call inner => inner.hands tag
  | around _ _ => False

namespace Site

variable {M : Type}

/-- A site with an empty tree, at which nothing has happened. -/
def start (timeout : Nat) (pool : Pool) (medium : M) : Site M :=
  ⟨Tree.empty timeout, pool, medium, []⟩

variable [Medium M]

/-- Does what a call asks for, and tells whether it was refused. A refused request leaves the site
as it was, and so does a refusal to build. -/
def perform (site : Site M) : Call → Except Error Unit × Site M
  | .build construction =>
    match site.tree.construct construction with
    | .error e => (.error e, site)
    | .ok tree => (.ok (), site.withTree tree)
  | .execute node method path params now tag =>
    match site.execute node method path params now tag with
    | .error e => (.error e, site)
    | .ok (_, after) => (.ok (), after)
  | .notify node name qos data => site.notify node name qos data
  | .tick now => (.ok (), site.tick now)

/-- Makes one move. -/
def move (site : Site M) : Move M → Site M
  | .call call => (site.perform call).2
  | .around pool medium => { site with pool, medium }

/-- Makes moves one after the other. -/
def run (site : Site M) (moves : List (Move M)) : Site M :=
  moves.foldl move site

/-- Some run leads to the site from an empty tree. -/
def Reachable (site : Site M) : Prop :=
  ∃ (timeout : Nat) (pool : Pool) (medium : M) (moves : List (Move M)),
    (start timeout pool medium).run moves = site

/-- Moves made in two parts are made one after the other. -/
theorem run_append (site : Site M) (first second : List (Move M)) :
    site.run (first ++ second) = (site.run first).run second :=
  List.foldl_append

/-- What holds at the start and is kept by every move holds wherever a run leads. -/
theorem Reachable.induction {P : Site M → Prop}
    (start : ∀ timeout pool medium, P (Site.start timeout pool medium))
    (move : ∀ site move, P site → P (site.move move)) {site : Site M} (h : site.Reachable) :
    P site := by
  obtain ⟨timeout, pool, medium, moves, rfl⟩ := h
  have main : ∀ (moves : List (Move M)) (site : Site M), P site → P (site.run moves) := by
    intro moves
    induction moves with
    | nil => exact fun _ hsite => hsite
    | cons first rest ih => exact fun site hsite => ih _ (move site first hsite)
  exact main moves _ (start timeout pool medium)

end Site

/-- Some run, over some medium, leads to the tree. -/
def Tree.Reachable (tree : Tree) : Prop :=
  ∃ (M : Type) (_ : Medium M) (site : Site M), site.Reachable ∧ site.tree = tree

end TopicTree
