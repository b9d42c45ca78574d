import TopicTree.Proofs.Tree.Update
import TopicTree.Proofs.Tree.WellFormed

/-!
# Building in place

A tree is a row of tables, and building writes into them one after the other: first the entry, then
its place in the list of the entry above. Here building is such a row of reads and writes, and a
refusal leaves written what was written before it. This comes to the same as building all or
nothing, because every check is made before the first write and no write is refused after it.
-/

namespace TopicTree

/-- Reads and writes of a tree. A refusal comes with the tree as it was written so far. -/
abbrev Writing (α : Type) :=
  EStateM Error Tree α

namespace Writing

open EStateM (run_bind run_get run_modify run_pure)

variable {α β : Type} {tree : Tree}

/-! ## Steps -/

/-- The entry at a place. -/
def entry (id : Nat) : Writing Entry := do
  let some entry := (← get).get? id | throw (.unknownEntry id)
  return entry

/-- Writes a new entry behind the others. -/
def pushEntry (entry : Entry) : Writing Nat := do
  let tree ← get
  if maxEntries ≤ tree.size then throw (.tableFull "tree")
  set (tree.add entry)
  return tree.size

/-- Writes a place into the list of children of an entry. A full list is left as it is. -/
def pushChild (above id : Nat) : Writing Unit := do
  let _ ← entry above
  modify fun tree => tree.modify above fun entry =>
    if entry.children.length < maxChildren then { entry with children := entry.children ++ [id] }
    else entry

/-- Writes an entry, and then its place below a plain node. -/
def attach (parent : Nat) (name : Option Name) (role : Role) : Writing Nat := do
  let above ← entry parent
  if ¬above.role.isNode then throw (.wrongKind parent "node")
  if maxChildren ≤ above.children.length then throw (.tableFull "subnode")
  ofExcept ((← get).checkUnused parent name)
  let id ← pushEntry ⟨name, some parent, [], role⟩
  pushChild parent id
  return id

/-- Writes the device end of a link, then its local root, and then the place of the one below the
other. -/
def addDownlink (socket localRoot : String) (interval : Nat) : Writing (Nat × Nat) := do
  let name ← ofExcept (Name.ofText localRoot)
  ofExcept (← get).checkNoTop
  if maxEntries - (← get).size < 2 then throw (.tableFull "tree")
  let link ← pushEntry ⟨none, none, [], .link (Tree.freshLink .device socket interval)⟩
  let root ← pushEntry ⟨some name, some link, [], .node Endpoint.empty⟩
  pushChild link root
  return (link, root)

/-- Builds at a tree by writing into it. -/
def build : Construction → Writing Unit
  | .addRoot name => do
    let name ← ofExcept (Name.ofText name)
    ofExcept (← get).checkNoTop
    let _ ← pushEntry ⟨some name, none, [], .node Endpoint.empty⟩
  | .addNode parent name => do
    let name ← ofExcept (Name.ofText name)
    let _ ← attach parent (some name) (.node Endpoint.empty)
  | .addUplink parent socket interval => do
    let _ ← attach parent none (.link (Tree.freshLink .hub socket interval))
  | .addDownlink socket localRoot interval => do
    let _ ← addDownlink socket localRoot interval
  | .addBridge parent name socket maxClientId => do
    let name ← ofExcept (Name.ofText name)
    let _ ← attach parent (some name)
      (.bridge ⟨Endpoint.empty, Channel.ofSocket socket, maxClientId, none, [], none⟩)
  | .addMethod id name handler => do
    let endpoint ← ofExcept ((← get).needEndpoint id)
    let endpoint ← ofExcept (endpoint.addMethod name handler)
    modify (·.setEndpoint id endpoint)
  | .addListener id tag => do
    let found ← entry id
    let some link := found.role.link? | throw (.wrongKind id "link")
    if maxListeners ≤ link.listeners.length then throw (.tableFull "listener")
    modify (·.setLink id { link with listeners := link.listeners ++ [tag] })
  | .setGuard id guard => do
    let some bridge := (← get).bridge? id | throw (.wrongKind id "bridge")
    modify (·.setBridge id { bridge with guard := some guard, seen := [] })

/-! ## What steps do -/

/-- An entry that is there is read. -/
theorem run_entry {id : Nat} {found : Entry} (h : tree.get? id = some found) :
    (entry id).run tree = .ok found tree := by
  simp [entry, h]

/-- An entry is pushed behind the others where there is room for it. -/
theorem push_eq_ok (room : tree.size < maxEntries) (new : Entry) :
    tree.push new = .ok (tree.size, tree.add new) :=
  if_neg (Nat.not_le_of_lt room)

/-- An entry is written, or there is no room for it. -/
theorem run_pushEntry (tree : Tree) (new : Entry) :
    (pushEntry new).run tree = settled tree (tree.push new) := by
  by_cases hfull : maxEntries ≤ tree.size
  · simp [pushEntry, Tree.push, hfull]
  · simp [-bind_pure_comp, pushEntry, Tree.push, hfull, settled, Tree.add]

/-- A place is written into a list of children that has room for it. -/
theorem run_pushChild {above : Nat} {found : Entry} (there : tree.get? above = some found)
    (room : found.children.length < maxChildren) (id : Nat) :
    (pushChild above id).run tree = .ok ()
      (tree.modify above fun entry => { entry with children := entry.children ++ [id] }) := by
  simp only [pushChild, run_bind, run_entry there, run_modify]
  exact congrArg _ (Tree.modify_congr there (if_pos room))

/-- A place that is written into an empty list is all of it. -/
theorem run_pushChild_first {above : Nat} {found : Entry} (there : tree.get? above = some found)
    (empty : found.children = []) (id : Nat) :
    (pushChild above id).run tree
      = .ok () (tree.modify above fun entry => { entry with children := [id] }) := by
  have hroom : found.children.length < maxChildren := by
    rw [empty]
    decide
  rw [run_pushChild there hroom]
  refine congrArg _ (Tree.modify_congr there ?_)
  rw [empty, List.nil_append]

/-- An entry that was there is there after another one was pushed. -/
theorem get?_of_push {id new : Nat} {found entry : Entry} {after : Tree}
    (there : tree.get? id = some found) (pushed : tree.push entry = .ok (new, after)) :
    after.get? id = some found := by
  have hlt : id < tree.size := (List.getElem?_eq_some_iff.1 there).1
  obtain ⟨-, -, rfl⟩ : tree.size < maxEntries ∧ tree.size = new ∧ tree.add entry = after := by
    simpa [Tree.push, Tree.add] using pushed
  rw [Tree.get?_add, if_neg (Nat.ne_of_lt hlt), there]

/-- Two entries are pushed one after the other where there is room for both, and then the first of
them is there. -/
theorem push_push (room : tree.size + 2 ≤ maxEntries) (first second : Entry) :
    tree.push first = .ok (tree.size, tree.add first) ∧
      (tree.add first).push second = .ok (tree.size + 1, (tree.add first).add second) ∧
      ((tree.add first).add second).get? tree.size = some first := by
  have hroom : (tree.add first).size < maxEntries := by
    rw [Tree.size_add]
    omega
  have hsecond := push_eq_ok hroom second
  rw [Tree.size_add] at hsecond
  refine ⟨push_eq_ok (by omega) first, hsecond, get?_of_push ?_ hsecond⟩
  rw [Tree.get?_add, if_pos rfl]

/-- Below a node that has room for it an entry is written with its place, or nothing is: the place
has room for the entry when the entry has been written. -/
theorem run_attach (tree : Tree) (parent : Nat) (name : Option Name) (role : Role) :
    (attach parent name role).run tree = settled tree (tree.attach parent name role) := by
  cases there : tree.get? parent with
  | none => simp [attach, entry, Tree.attach, there]
  | some above =>
    have hentry := run_entry there
    by_cases hnode : above.role.isNode
    case neg => simp [attach, hentry, Tree.attach, there, hnode]
    by_cases hfull : maxChildren ≤ above.children.length
    case pos => simp [attach, hentry, Tree.attach, there, hnode, hfull]
    cases hunused : tree.checkUnused parent name with
    | error e => simp [attach, hentry, Tree.attach, there, hnode, hfull, hunused]
    | ok =>
      cases hpush : tree.push ⟨name, some parent, [], role⟩ with
      | error e =>
        simp [-bind_pure_comp, attach, hentry, Tree.attach, there, hnode, hfull, hunused,
          run_pushEntry, hpush]
      | ok pushed =>
        obtain ⟨id, grown⟩ := pushed
        have hchild := run_pushChild (get?_of_push there hpush) (Nat.lt_of_not_le hfull) id
        simp [-bind_pure_comp, attach, hentry, Tree.attach, there, hnode, hfull, hunused,
          run_pushEntry, hpush, hchild, pure_def]

/-- A device end is written with its local root, or nothing is: there was room for both. -/
theorem run_addDownlink (tree : Tree) (socket localRoot : String) (interval : Nat) :
    (addDownlink socket localRoot interval).run tree
      = settled tree ((tree.addDownlink socket localRoot interval).map fun (link, root, after) =>
        ((link, root), after)) := by
  cases hname : Name.ofText localRoot with
  | error e => simp [addDownlink, Tree.addDownlink, hname, Except.map]
  | ok name =>
    cases htop : tree.checkNoTop with
    | error e => simp [addDownlink, Tree.addDownlink, hname, htop, Except.map]
    | ok =>
      by_cases hfull : maxEntries < tree.size + 2
      · have hfew : maxEntries - tree.size < 2 := by omega
        simp only [addDownlink, Tree.addDownlink, hname, htop, run_bind, run_ofExcept_ok, run_get,
          ok_bind, if_pos hfew, if_pos hfull, run_throw, error_bind, Except.map, settled_error]
      · have hroom : ¬maxEntries - tree.size < 2 := by omega
        obtain ⟨hfirst, hsecond, there⟩ := push_push (by omega : tree.size + 2 ≤ maxEntries)
          ⟨none, none, [], .link (Tree.freshLink .device socket interval)⟩
          ⟨some name, some tree.size, [], .node Endpoint.empty⟩
        have hchild := run_pushChild_first there rfl (tree.size + 1)
        simp only [addDownlink, Tree.addDownlink, hname, htop, run_bind, run_ofExcept_ok, run_get,
          ok_bind, if_neg hroom, if_neg hfull, run_pushEntry, hfirst, hsecond, hchild, run_pure,
          pure_def, Except.map, settled_ok]

/-- A step of which only the tree counts. -/
theorem run_discard {act : Writing α} {outcome : Except Error (α × Tree)}
    (h : act.run tree = settled tree outcome) :
    (act >>= fun _ => pure ()).run tree
      = settled tree ((outcome.map Prod.snd).map fun after => ((), after)) := by
  rw [run_bind, h]
  cases outcome <;> rfl

/-- Building in place comes to the same as building all or nothing. -/
theorem run_build (tree : Tree) (construction : Construction) :
    (build construction).run tree
      = settled tree ((tree.construct construction).map fun after => ((), after)) := by
  cases construction with
  | addRoot name =>
    cases hname : Name.ofText name with
    | error e => simp [build, Tree.construct, Tree.addRoot, hname, Except.map]
    | ok valid =>
      cases htop : tree.checkNoTop with
      | error e => simp [build, Tree.construct, Tree.addRoot, hname, htop, Except.map]
      | ok =>
        have hpush := run_discard (run_pushEntry tree ⟨some valid, none, [], .node Endpoint.empty⟩)
        simpa [build, Tree.construct, Tree.addRoot, hname, htop] using hpush
  | addNode parent name =>
    cases hname : Name.ofText name with
    | error e => simp [build, Tree.construct, Tree.addNode, hname, Except.map]
    | ok valid =>
      have hattach := run_discard (run_attach tree parent (some valid) (.node Endpoint.empty))
      simpa [build, Tree.construct, Tree.addNode, hname] using hattach
  | addUplink parent socket interval =>
    exact run_discard (run_attach tree parent none (.link (Tree.freshLink .hub socket interval)))
  | addDownlink socket localRoot interval =>
    rw [build, run_discard (run_addDownlink tree socket localRoot interval), Tree.construct]
    cases tree.addDownlink socket localRoot interval <;> rfl
  | addBridge parent name socket maxClientId =>
    cases hname : Name.ofText name with
    | error e => simp [build, Tree.construct, Tree.addBridge, hname, Except.map]
    | ok valid =>
      have hattach := run_discard (run_attach tree parent (some valid)
        (.bridge ⟨Endpoint.empty, Channel.ofSocket socket, maxClientId, none, [], none⟩))
      simpa [build, Tree.construct, Tree.addBridge, hname] using hattach
  | addMethod id name handler =>
    cases hneed : tree.needEndpoint id with
    | error e => simp [build, Tree.construct, Tree.addMethod, hneed, Except.map]
    | ok endpoint =>
      cases hadd : endpoint.addMethod name handler <;>
        simp [build, Tree.construct, Tree.addMethod, hneed, hadd, pure_def, Except.map]
  | addListener id tag =>
    cases hget : tree.get? id with
    | none => simp [build, entry, Tree.construct, Tree.addListener, hget, Except.map]
    | some found =>
      have hentry := run_entry hget
      cases hlink : found.role.link? with
      | none => simp [build, hentry, Tree.construct, Tree.addListener, hget, hlink, Except.map]
      | some link =>
        by_cases hfull : maxListeners ≤ link.listeners.length <;>
          simp [build, hentry, Tree.construct, Tree.addListener, hget, hlink, hfull, pure_def,
            Except.map]
  | setGuard id guard =>
    cases hbridge : tree.bridge? id <;>
      simp [build, Tree.construct, Tree.setGuard, hbridge, pure_def, Except.map]

end Writing

end TopicTree
