import TopicTree.Proofs.Tree.WellFormed

/-!
# Building keeps trees well formed

Each way to build either adds one entry below a node, or puts a top into a tree without entries, or
leaves the outline alone. This is told once, and what building keeps follows from it case by case:
the size, the time that requests wait, and that a tree is well formed.
-/

namespace TopicTree

/-- The names and the roles of the entries that a construction adds. Ends of links have no names. -/
inductive Construction.Founds : Construction → Option Name → Role → Prop
  | root (text : String) (name : Option Name) :
      Founds (.addRoot text) name (.node Endpoint.empty)
  | node (parent : Nat) (text : String) (name : Option Name) :
      Founds (.addNode parent text) name (.node Endpoint.empty)
  | hubEnd (parent : Nat) (socket : String) (interval : Nat) :
      Founds (.addUplink parent socket interval) none (.link (Tree.freshLink .hub socket interval))
  | deviceEnd (socket text : String) (interval : Nat) :
      Founds (.addDownlink socket text interval) none
        (.link (Tree.freshLink .device socket interval))
  | localRoot (socket text : String) (interval : Nat) (name : Option Name) :
      Founds (.addDownlink socket text interval) name (.node Endpoint.empty)
  | bridge (parent : Nat) (text socket : String) (maxClientId : Nat) (name : Option Name) :
      Founds (.addBridge parent text socket maxClientId) name
        (.bridge ⟨Endpoint.empty, Channel.ofSocket socket, maxClientId, none, [], none⟩)

namespace Tree

variable {tree after : Tree}

/-- An entry is added when its parent is a node, its name is unused and there is room. -/
theorem attach_eq_ok {parent id : Nat} {name : Option Name} {role : Role}
    (h : tree.attach parent name role = .ok (id, after)) :
    tree.form? parent = some .node ∧ tree.checkUnused parent name = .ok () ∧
      tree.size < maxEntries ∧ after = tree.below parent name role := by
  unfold attach at h
  split at h
  · next above habove =>
    simp only [error_bind, check_eq_ok, bind_eq_ok, pure_eq_ok, push, Except.ok.injEq,
      Prod.mk.injEq] at h
    obtain ⟨hnode, _, _, hunused, _, ⟨hroom, rfl⟩, _, rfl⟩ := h
    refine ⟨?_, hunused, by omega, rfl⟩
    cases hrole : above.role <;> simp_all [form?, Role.form, Role.isNode]
  · cases h

/-- A name that is free below an entry is the name of none of its children. -/
theorem childNamed_of_checkUnused {parent : Nat} {name : Option Name}
    (h : tree.checkUnused parent name = .ok ()) :
    ∀ text ∈ name, tree.childNamed parent text.text = none := by
  rintro text rfl
  simpa [checkUnused] using h

/-- The listener of a link is added to a link that is there. -/
theorem addListener_eq_ok {id : Nat} {tag : String} (h : tree.addListener id tag = .ok after) :
    ∃ link, tree.link? id = some link ∧
      after = tree.setLink id { link with listeners := link.listeners ++ [tag] } := by
  unfold addListener at h
  split at h
  · next entry hentry =>
    split at h
    · next link hlink =>
      simp only [error_bind, check_eq_ok, pure_eq_ok] at h
      obtain ⟨_, rfl⟩ := h
      exact ⟨link, by simp [link?, hentry, hlink], rfl⟩
    · cases h
  · cases h

/-- A guard is posted at a bridge that is there. -/
theorem setGuard_eq_ok {id : Nat} {guard : Guard} (h : tree.setGuard id guard = .ok after) :
    ∃ bridge, tree.bridge? id = some bridge ∧
      after = tree.setBridge id { bridge with guard := some guard, seen := [] } := by
  unfold setGuard at h
  split at h
  · next bridge hbridge => exact ⟨bridge, hbridge, (pure_eq_ok.1 h).symm⟩
  · cases h

/-- What building that is not refused makes of a tree. Below a node stands no device end, and what
stands there has a name unless it is an end of a link. -/
inductive Built (tree : Tree) : Construction → Tree → Prop
  | top {text : String} (name : Name) (free : tree.checkNoTop = .ok ()) :
      Built tree (.addRoot text) (tree.add ⟨some name, none, [], .node Endpoint.empty⟩)
  | below {construction : Construction} {parent : Nat} {name : Option Name} {role : Role}
      (there : tree.form? parent = some .node) (unused : tree.checkUnused parent name = .ok ())
      (room : tree.size < maxEntries) (founds : construction.Founds name role)
      (notDevice : role.form ≠ .deviceEnd)
      (named : role.form = .node ∨ role.form = .bridge → name.isSome) :
      Built tree construction (tree.below parent name role)
  | downlink {socket text : String} {interval : Nat} (name : Name)
      (free : tree.checkNoTop = .ok ()) :
      Built tree (.addDownlink socket text interval)
        (((tree.add ⟨none, none, [], .link (freshLink .device socket interval)⟩).add
          ⟨some name, some tree.size, [], .node Endpoint.empty⟩).modify tree.size
            fun entry => { entry with children := [tree.size + 1] })
  | method {id : Nat} {name : String} {handler : Handler} {old new : Endpoint}
      (there : tree.endpoint? id = some old) (offered : old.addMethod name handler = .ok new) :
      Built tree (.addMethod id name handler) (tree.setEndpoint id new)
  | listener {id : Nat} {tag : String} {link : Link} (there : tree.link? id = some link) :
      Built tree (.addListener id tag)
        (tree.setLink id { link with listeners := link.listeners ++ [tag] })
  | guard {id : Nat} {guard : Guard} {bridge : Bridge} (there : tree.bridge? id = some bridge) :
      Built tree (.setGuard id guard)
        (tree.setBridge id { bridge with guard := some guard, seen := [] })

/-- Building does what its construction tells, unless it is refused. -/
theorem built_construct {construction : Construction}
    (hbuilt : tree.construct construction = .ok after) : Built tree construction after := by
  cases construction with
  | addRoot text =>
    simp only [construct, addRoot, map_eq_ok, bind_eq_ok, push, check_eq_ok, Except.ok.injEq]
      at hbuilt
    obtain ⟨_, ⟨name, _, _, free, _, rfl⟩, rfl⟩ := hbuilt
    exact .top name free
  | addNode parent text =>
    simp only [construct, addNode, map_eq_ok, bind_eq_ok] at hbuilt
    obtain ⟨⟨_, _⟩, ⟨name, _, hattach⟩, rfl⟩ := hbuilt
    obtain ⟨there, unused, room, rfl⟩ := attach_eq_ok hattach
    exact .below there unused room (.node parent text name) (by simp [Role.form]) (by simp)
  | addUplink parent socket interval =>
    obtain ⟨⟨_, _⟩, hattach, rfl⟩ := map_eq_ok.1 hbuilt
    obtain ⟨there, unused, room, rfl⟩ := attach_eq_ok hattach
    exact .below there unused room (.hubEnd parent socket interval)
      (by simp [Role.form, freshLink, LinkEnd.form]) (by simp [Role.form, freshLink, LinkEnd.form])
  | addDownlink socket text interval =>
    simp only [construct, addDownlink, map_eq_ok, error_bind, bind_eq_ok, push, check_eq_ok,
      pure_eq_ok, Except.ok.injEq] at hbuilt
    obtain ⟨_, ⟨name, _, _, free, _, _, ⟨_, rfl⟩, _, ⟨_, rfl⟩, rfl⟩, rfl⟩ := hbuilt
    simpa only [add, size, List.length_append, List.length_singleton] using Built.downlink name free
  | addBridge parent text socket maxClientId =>
    simp only [construct, addBridge, map_eq_ok, bind_eq_ok] at hbuilt
    obtain ⟨⟨_, _⟩, ⟨name, _, hattach⟩, rfl⟩ := hbuilt
    obtain ⟨there, unused, room, rfl⟩ := attach_eq_ok hattach
    exact .below there unused room (.bridge parent text socket maxClientId name)
      (by simp [Role.form]) (by simp)
  | addMethod id name handler =>
    simp only [construct, addMethod, bind_eq_ok, pure_eq_ok] at hbuilt
    obtain ⟨old, hneed, new, offered, rfl⟩ := hbuilt
    exact .method (Site.endpoint?_of_needEndpoint hneed) offered
  | addListener id tag =>
    obtain ⟨link, there, rfl⟩ := addListener_eq_ok hbuilt
    exact .listener there
  | setGuard id guard =>
    obtain ⟨bridge, there, rfl⟩ := setGuard_eq_ok hbuilt
    exact .guard there

/-- Building leaves the time that requests wait as it is. -/
theorem timeout_construct {construction : Construction}
    (hbuilt : tree.construct construction = .ok after) : after.timeout = tree.timeout := by
  cases built_construct hbuilt <;> rfl

/-- Building takes no entry away. -/
theorem size_le_construct {construction : Construction}
    (hbuilt : tree.construct construction = .ok after) : tree.size ≤ after.size := by
  cases built_construct hbuilt with
  | top | below | downlink => simp [Tree.below, Nat.add_assoc]
  | method | listener | guard => exact Nat.le_of_eq (size_modify tree _ _).symm

/-! ## Well-formed trees -/

/-- A well-formed tree without a top has no entries. -/
theorem WellFormed.entries_eq_nil (h : tree.WellFormed) (hnone : tree.checkNoTop = .ok ()) :
    tree.entries = [] := by
  cases hentries : tree.entries with
  | nil => rfl
  | cons top rest =>
    have hget : tree.get? 0 = some top := by simp [get?, hentries]
    have hparent : tree.parent? 0 = top.parent := by simp [parent?, hget]
    have habove : top.parent = none := hparent.symm.trans h.parent?_zero
    simp [checkNoTop, hentries, habove] at hnone

/-- A tree whose only entry is a node is well formed. -/
theorem WellFormed.root (name : Name) (endpoint : Endpoint) (timeout : Nat) :
    (⟨[⟨some name, none, [], .node endpoint⟩], timeout⟩ : Tree).WellFormed where
  size_le := by simp [size, maxEntries]
  parent_lt := by
    intro id above h
    rcases id with _ | id <;> simp [parent?, get?] at h
  eq_zero := by
    intro id hlt _
    simpa [size] using hlt
  mem_children := by
    intro id above
    rcases id with _ | id <;> rcases above with _ | above <;> simp [parent?, children, get?]
  nodup := by
    intro above
    rcases above with _ | above <;> simp [children, get?]
  above_form := by
    intro id above h
    rcases id with _ | id <;> simp [parent?, get?] at h
  deviceEnd_eq := by
    intro id h
    rcases id with _ | id
    · rfl
    · simp [form?, get?] at h
  localRoot := by simp [form?, get?, Role.form]
  isNamed_inj := by
    intro above left right text hleft
    rcases above with _ | above <;> simp [children, get?] at hleft
  isSome_name? := by
    intro id h
    rcases id with _ | id
    · simp [name?, get?]
    · simp [form?, get?] at h

/-- A tree of a device end and its local root is well formed. -/
theorem WellFormed.downlink (name : Name) (endpoint : Endpoint) (link : Link) (timeout : Nat) :
    (⟨[⟨none, none, [1], .link link⟩, ⟨some name, some 0, [], .node endpoint⟩], timeout⟩ :
      Tree).WellFormed ↔ link.place = .device := by
  constructor
  · intro h
    cases hplace : link.place with
    | device => rfl
    | hub =>
      have hparent : (⟨[⟨none, none, [1], .link link⟩, ⟨some name, some 0, [], .node endpoint⟩],
          timeout⟩ : Tree).parent? 1 = some 0 := by simp [parent?, get?]
      have hform := h.above_form hparent
      simp [form?, get?, Role.form, hplace, LinkEnd.form] at hform
  · intro hplace
    constructor
    case size_le => simp [size, maxEntries]
    case parent_lt =>
      intro id above h
      rcases id with _ | _ | id <;> simp [parent?, get?] at h
      omega
    case eq_zero =>
      intro id hlt h
      rcases id with _ | _ | id
      · rfl
      · simp [parent?, get?] at h
      · simp only [size, List.length_cons, List.length_nil] at hlt
        omega
    case mem_children =>
      intro id above
      rcases id with _ | _ | id <;> rcases above with _ | _ | above <;>
        simp [parent?, children, get?]
    case nodup =>
      intro above
      rcases above with _ | _ | above <;> simp [children, get?]
    case above_form =>
      intro id above h
      rcases id with _ | _ | id <;> simp [parent?, get?] at h
      simp [form?, get?, Role.form, hplace, LinkEnd.form, ← h]
    case deviceEnd_eq =>
      intro id h
      rcases id with _ | _ | id
      · rfl
      · simp [form?, get?, Role.form] at h
      · simp [form?, get?] at h
    case localRoot => exact fun _ => ⟨1, by simp [children, get?], by simp [form?, get?, Role.form]⟩
    case isNamed_inj =>
      intro above left right text hleft hright
      rcases above with _ | _ | above <;> simp [children, get?] at hleft hright
      rw [hleft, hright]
      exact fun _ _ => rfl
    case isSome_name? =>
      intro id h
      rcases id with _ | _ | id
      · simp [form?, get?, Role.form, hplace, LinkEnd.form] at h
      · simp [name?, get?]
      · simp [form?, get?] at h

/-- A well-formed tree stays so whatever is built at it. -/
theorem WellFormed.construct (h : tree.WellFormed) {construction : Construction}
    (hbuilt : tree.construct construction = .ok after) : after.WellFormed := by
  cases built_construct hbuilt with
  | top name free =>
    rw [add, h.entries_eq_nil free]
    exact WellFormed.root name Endpoint.empty tree.timeout
  | below there unused room founds notDevice named =>
    exact h.below _ room there (childNamed_of_checkUnused unused) notDevice named
  | downlink name free =>
    have hempty := h.entries_eq_nil free
    simp only [add, size, modify, hempty, List.nil_append, List.length_nil]
    exact (WellFormed.downlink name Endpoint.empty _ tree.timeout).2 rfl
  | method there offered => exact h.congr (outline_setEndpoint tree _ _).symm
  | listener there => exact h.congr (Eq.symm (outline_setLink there rfl))
  | guard there => exact h.congr (outline_setBridge there).symm

end Tree
end TopicTree
