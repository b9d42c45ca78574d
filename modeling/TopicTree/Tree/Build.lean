import TopicTree.Tree.Basic

/-!
# Building trees

Entries are added one at a time, each below an entry that is there already. A refusal is a value, so
it cannot leave half of a change behind.
-/

namespace TopicTree.Tree

/-- Adds an entry behind the others. -/
def push (tree : Tree) (entry : Entry) : Except Error (Nat × Tree) :=
  if maxEntries ≤ tree.size then .error (.tableFull "tree")
  else .ok (tree.size, { tree with entries := tree.entries ++ [entry] })

/-- Refuses a second top. -/
def checkNoTop (tree : Tree) : Except Error Unit :=
  if tree.entries.any (·.parent = none) then .error .rootExists else .ok ()

/-- Refuses a name that a child of `parent` has already. -/
def checkUnused (tree : Tree) (parent : Nat) : Option Name → Except Error Unit
  | none => .ok ()
  | some name =>
    if (tree.childNamed parent name.text).isSome then .error (.duplicateName name.text) else .ok ()

/-- Adds an entry below a plain node. -/
def attach (tree : Tree) (parent : Nat) (name : Option Name) (role : Role) :
    Except Error (Nat × Tree) := do
  let some above := tree.get? parent | .error (.unknownEntry parent)
  if ¬above.role.isNode then .error (.wrongKind parent "node")
  if maxChildren ≤ above.children.length then .error (.tableFull "subnode")
  tree.checkUnused parent name
  let (id, tree) ← tree.push ⟨name, some parent, [], role⟩
  return (id, tree.modify parent fun entry => { entry with children := entry.children ++ [id] })

/-- Adds the top node. -/
def addRoot (tree : Tree) (name : String) : Except Error (Nat × Tree) := do
  let name ← Name.ofText name
  tree.checkNoTop
  tree.push ⟨some name, none, [], .node Endpoint.empty⟩

/-- Adds a node. -/
def addNode (tree : Tree) (parent : Nat) (name : String) : Except Error (Nat × Tree) := do
  let name ← Name.ofText name
  tree.attach parent (some name) (.node Endpoint.empty)

/-- An end of a link on which nothing has happened. -/
def freshLink (place : LinkEnd) (socket : String) (interval : Nat) : Link :=
  ⟨place, Channel.ofSocket socket, interval, false, none, []⟩

/-- Adds the hub end of a link. Its name comes from the other side. -/
def addUplink (tree : Tree) (parent : Nat) (socket : String) (interval : Nat) :
    Except Error (Nat × Tree) :=
  tree.attach parent none (.link (freshLink .hub socket interval))

/-- Makes the device end of a link the top, with a local root below it. The answer tells the places
of the link and of the local root. -/
def addDownlink (tree : Tree) (socket : String) (localRoot : String) (interval : Nat) :
    Except Error (Nat × Nat × Tree) := do
  let name ← Name.ofText localRoot
  tree.checkNoTop
  if maxEntries < tree.size + 2 then .error (.tableFull "tree")
  let (link, tree) ← tree.push ⟨none, none, [], .link (freshLink .device socket interval)⟩
  let (root, tree) ← tree.push ⟨some name, some link, [], .node Endpoint.empty⟩
  return (link, root, tree.modify link fun entry => { entry with children := [root] })

/-- Adds a bridge without a guard. -/
def addBridge (tree : Tree) (parent : Nat) (name : String) (socket : String) (maxClientId : Nat) :
    Except Error (Nat × Tree) := do
  let name ← Name.ofText name
  tree.attach parent (some name)
    (.bridge ⟨Endpoint.empty, Channel.ofSocket socket, maxClientId, none, [], none⟩)

/-- The endpoint of an entry that has to have one. -/
def needEndpoint (tree : Tree) (id : Nat) : Except Error Endpoint := do
  let some entry := tree.get? id | .error (.unknownEntry id)
  let some endpoint := entry.role.endpoint? | .error (.wrongKind id "node")
  return endpoint

/-- Puts a method on offer at a node or bridge. -/
def addMethod (tree : Tree) (id : Nat) (name : String) (handler : Handler) :
    Except Error Tree := do
  let endpoint ← tree.needEndpoint id
  let endpoint ← endpoint.addMethod name handler
  return tree.setEndpoint id endpoint

/-- Adds a listener, known by a tag, to a link. -/
def addListener (tree : Tree) (id : Nat) (tag : String) : Except Error Tree := do
  let some entry := tree.get? id | .error (.unknownEntry id)
  let some link := entry.role.link? | .error (.wrongKind id "link")
  if maxListeners ≤ link.listeners.length then .error (.tableFull "listener")
  return tree.setLink id { link with listeners := link.listeners ++ [tag] }

/-- Posts a guard at a bridge; it has seen nobody yet. -/
def setGuard (tree : Tree) (id : Nat) (guard : Guard) : Except Error Tree := do
  let some bridge := tree.bridge? id | .error (.wrongKind id "bridge")
  return tree.setBridge id { bridge with guard := some guard, seen := [] }

end TopicTree.Tree
