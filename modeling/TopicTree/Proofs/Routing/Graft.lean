import Mathlib.Data.List.Find
import TopicTree.Proofs.Routing.Answer

/-!
# Grafting

The single tree that two trees at the ends of a link stand for: the local root of the one behind the
device end takes the place of the hub end, and the entries below it come after all others. Seen from
the places that they get, these entries are what they were, and so are the others; so the reference
for requests in the single tree is the reference in one of the two.
-/

namespace TopicTree

/-- An entry whose neighbours have moved to other places. -/
def Entry.moved (place : Nat → Nat) (entry : Entry) : Entry :=
  { entry with parent := entry.parent.map place, children := entry.children.map place }

/-- The same event after the nodes have moved to other places. -/
def Event.moved (place : Nat → Nat) : Event → Event
  | called node method params => called (place node) method params
  | event => event

/-- An event is the same one if no node has moved. -/
theorem Event.moved_self (event : Event) : event.moved (fun entry => entry) = event := by
  cases event <;> rfl

namespace Tree

/-- The place that an entry gets when its tree is grafted in place of a hub end: the local root gets
the place of the hub end, and the entries below it come behind the others. -/
def graftPlace (hub : Tree) (link entry : Nat) : Nat :=
  if entry = 1 then link else hub.size + (entry - 2)

/-- The tree in which the local root of a tree below a device end stands in place of a hub end. -/
def graft (hub : Tree) (link : Nat) (device : Tree) : Tree :=
  match device.entries with
  | _ :: root :: rest =>
    { hub with
      entries := hub.entries.set link
          { root.moved (hub.graftPlace link) with parent := hub.parent? link }
        ++ rest.map (Entry.moved (hub.graftPlace link)) }
  | _ => hub

variable {hub device : Tree} {link : Nat}

/-- The place behind the hub end is the first one. -/
theorem WellFormed.localRoot_eq_one (h : device.WellFormed)
    (outer : device.form? 0 = some .deviceEnd) : device.localRoot = 1 := by
  obtain ⟨hchildren, hroot⟩ := h.children_zero outer
  have hpos := h.parent_lt (h.parent?_localRoot outer)
  have hsize := lt_size_of_form? hroot
  have hlt : 1 < device.size := by omega
  cases hparent : device.parent? 1 with
  | none => exact absurd (h.eq_zero hlt hparent) (by decide)
  | some above =>
    obtain rfl : above = 0 := Nat.lt_one_iff.1 (h.parent_lt hparent)
    have hmem := h.mem_children.2 hparent
    rw [hchildren, List.mem_singleton] at hmem
    exact hmem.symm

section

variable (wellFormed : device.WellFormed) (outer : device.form? 0 = some .deviceEnd)
include wellFormed outer

/-- The entries of a graft: those that were there, with the hub end replaced, and those that were
grafted. -/
theorem exists_entries (hub : Tree) (link : Nat) : ∃ top root rest,
    device.entries = top :: root :: rest ∧
    (hub.graft link device).entries = hub.entries.set link
        { root.moved (hub.graftPlace link) with parent := hub.parent? link }
      ++ rest.map (Entry.moved (hub.graftPlace link)) := by
  have hlt : 1 < device.size :=
    wellFormed.localRoot_eq_one outer ▸ lt_size_of_form? (wellFormed.children_zero outer).2
  match hentries : device.entries with
  | [] => simp [size, hentries] at hlt
  | [top] => simp [size, hentries] at hlt
  | top :: root :: rest => exact ⟨top, root, rest, rfl, by simp only [graft, hentries]⟩

/-- An entry of the hub other than the hub end is found in the graft where it was. -/
theorem get?_graft {id : Nat} (there : id < hub.size) (other : id ≠ link) :
    (hub.graft link device).get? id = hub.get? id := by
  obtain ⟨top, root, rest, _, hgraft⟩ := exists_entries wellFormed outer hub link
  rw [get?, hgraft, List.getElem?_append_left (by simpa [size] using there),
    List.getElem?_set_ne (Ne.symm other), get?]

variable (inHub : link < hub.size)
include inHub

/-- An entry behind the device end is found in the graft at its new place, below whichever entry
that is. -/
theorem get?_graft_place {id : Nat} (below : 0 < id) :
    ∃ parent : Entry → Option Nat, (hub.graft link device).get? (hub.graftPlace link id)
      = (device.get? id).map fun entry =>
          { entry.moved (hub.graftPlace link) with parent := parent entry } := by
  obtain ⟨top, root, rest, hdevice, hgraft⟩ := exists_entries wellFormed outer hub link
  match id with
  | 0 => exact absurd below (by decide)
  | 1 =>
    refine ⟨fun _ => hub.parent? link, ?_⟩
    rw [get?, hgraft, graftPlace, if_pos rfl,
      List.getElem?_append_left (by simpa [size] using inHub),
      List.getElem?_set_self (by simpa [size] using inHub), get?, hdevice]
    rfl
  | id + 2 =>
    refine ⟨fun entry => entry.parent.map (hub.graftPlace link), ?_⟩
    have hplace : hub.graftPlace link (id + 2) = hub.size + id := by
      rw [graftPlace, if_neg (by omega)]
      rfl
    rw [get?, hgraft, hplace, List.getElem?_append_right (by simp [size]), List.length_set, size,
      Nat.add_sub_cancel_left, List.getElem?_map, get?, hdevice]
    rfl

/-- A grafted entry keeps its name. -/
theorem name?_graft_place {id : Nat} (below : 0 < id) :
    (hub.graft link device).name? (hub.graftPlace link id) = device.name? id := by
  obtain ⟨parent, hget⟩ := get?_graft_place wellFormed outer inHub below
  rw [name?, hget, Option.bind_map]
  rfl

/-- A grafted entry keeps its endpoint. -/
theorem endpoint?_graft_place {id : Nat} (below : 0 < id) :
    (hub.graft link device).endpoint? (hub.graftPlace link id) = device.endpoint? id := by
  obtain ⟨parent, hget⟩ := get?_graft_place wellFormed outer inHub below
  rw [endpoint?, hget, Option.bind_map]
  rfl

/-- A grafted entry keeps its children, at their new places. -/
theorem children_graft_place {id : Nat} (below : 0 < id) :
    (hub.graft link device).children (hub.graftPlace link id)
      = (device.children id).map (hub.graftPlace link) := by
  obtain ⟨parent, hget⟩ := get?_graft_place wellFormed outer inHub below
  rw [children, hget, children]
  cases device.get? id <;> rfl

/-- The child of a grafted entry with a name is the one that it was. -/
theorem childNamed_graft_place {id : Nat} (below : 0 < id) (text : String) :
    (hub.graft link device).childNamed (hub.graftPlace link id) text
      = (device.childNamed id text).map (hub.graftPlace link) := by
  rw [childNamed, children_graft_place wellFormed outer inHub below, List.find?_map, childNamed]
  congr 1
  apply List.find?_congr
  intro child hchild
  have hpos := Nat.zero_lt_of_lt (wellFormed.lt_of_mem_children hchild)
  rw [Function.comp_apply, isNamed, name?_graft_place wellFormed outer inHub hpos, isNamed]

/-- A walk behind the device end is the same walk at the new places. -/
theorem walk_graft_place {here : Nat} (below : 0 < here) (names : List Name) :
    (hub.graft link device).walk (hub.graftPlace link here) names
      = (device.walk here names).map (hub.graftPlace link) := by
  induction names generalizing here with
  | nil => rfl
  | cons name names ih =>
    rw [walk, childNamed_graft_place wellFormed outer inHub below, walk]
    cases hchild : device.childNamed here name.text with
    | none => rfl
    | some child =>
      have hlt := wellFormed.parent_lt (wellFormed.of_childNamed hchild).1
      exact ih (Nat.zero_lt_of_lt hlt)

/-! ## The entries that were there -/

variable (hubWellFormed : hub.WellFormed) (isHubEnd : hub.form? link = some .hubEnd)
  (named : hub.name? link = device.name? device.localRoot)
include hubWellFormed

omit hubWellFormed in
include named in
/-- All entries of the hub keep their names. -/
theorem name?_graft {id : Nat} (there : id < hub.size) :
    (hub.graft link device).name? id = hub.name? id := by
  by_cases hid : id = link
  · subst hid
    have hplace := name?_graft_place wellFormed outer inHub Nat.one_pos
    rw [graftPlace, if_pos rfl] at hplace
    rw [hplace, named, wellFormed.localRoot_eq_one outer]
  · rw [name?, get?_graft wellFormed outer there hid, name?]

include named in
/-- The child of an entry of the hub with a name is the one that it was. -/
theorem childNamed_graft {id : Nat} (there : id < hub.size) (other : id ≠ link) (text : String) :
    (hub.graft link device).childNamed id text = hub.childNamed id text := by
  have hchildren : (hub.graft link device).children id = hub.children id := by
    rw [children, get?_graft wellFormed outer there other, children]
  rw [childNamed, hchildren, childNamed]
  apply List.find?_congr
  intro child hchild
  have hlt := hubWellFormed.lt_size_of_mem_children hchild
  rw [isNamed, name?_graft wellFormed outer inHub named hlt, isNamed]

include named in
/-- A walk that does not go on from the hub end is the same walk. -/
theorem walk_graft {here : Nat} {names : List Name} (there : here < hub.size)
    (off : ∀ front name back, names = front ++ name :: back → hub.walk here front ≠ some link) :
    (hub.graft link device).walk here names = hub.walk here names := by
  induction names generalizing here with
  | nil => rfl
  | cons name names ih =>
    have hother : here ≠ link := fun heq => off [] name names rfl (congrArg some heq)
    rw [walk, childNamed_graft wellFormed outer inHub hubWellFormed named there hother, walk]
    cases hchild : hub.childNamed here name.text with
    | none => rfl
    | some child =>
      have hlt := WellFormed.lt_size_of_parent? (hubWellFormed.of_childNamed hchild).1
      apply ih hlt
      rintro front next back rfl hwalk
      apply off (name :: front) next back rfl
      rw [walk, hchild]
      exact hwalk

/-! ## The reference -/

include isHubEnd named in
/-- What the reference says of the single tree about a walk beyond the hub end is what it says of
the tree behind the device end, at the new places. -/
theorem consult_graft_beyond {way : List Name} (toLink : hub.walk 0 way = some link)
    (names : List Name) (method : String) (params : Params) :
    (hub.graft link device).consult 0 (way ++ names) method params
      = ((device.consult device.localRoot names method params).1.map
          (Event.moved (hub.graftPlace link)),
        (device.consult device.localRoot names method params).2) := by
  have hoff : ∀ front name back, way = front ++ name :: back → hub.walk 0 front ≠ some link := by
    rintro front name back rfl hfront
    rw [walk_append, hfront, Option.bind_some, walk, Option.bind_eq_some_iff] at toLink
    obtain ⟨child, hchild, _⟩ := toLink
    have habove := hubWellFormed.above_form (hubWellFormed.of_childNamed hchild).1
    simp [isHubEnd] at habove
  have hway : (hub.graft link device).walk 0 way = some link :=
    (walk_graft wellFormed outer inHub hubWellFormed named (Nat.zero_lt_of_lt inHub) hoff).trans
      toLink
  have hroot := wellFormed.localRoot_eq_one outer
  have hwalk : (hub.graft link device).walk 0 (way ++ names)
      = (device.walk device.localRoot names).map (hub.graftPlace link) := by
    rw [walk_append, hway, Option.bind_some, hroot,
      ← walk_graft_place wellFormed outer inHub Nat.one_pos, graftPlace, if_pos rfl]
  rw [consult, hwalk, consult]
  cases htarget : device.walk device.localRoot names with
  | none => rfl
  | some target =>
    have hle := wellFormed.le_of_walk htarget
    have hpos : 0 < target := by omega
    simp only [Option.map_some, endpoint?_graft_place wellFormed outer inHub hpos]
    cases (device.endpoint? target).bind (·.replyTo method params) <;> rfl

include isHubEnd named in
/-- What the reference says of the single tree about a walk that meets no link is what it says of
the hub. -/
theorem consult_graft_inside {names : List Name} (inside : hub.StaysInside 0 names)
    (method : String) (params : Params) :
    (hub.graft link device).consult 0 names method params = hub.consult 0 names method params := by
  have hne : ∀ front back id, names = front ++ back → hub.walk 0 front = some id → id ≠ link := by
    rintro front back id hnames hwalk rfl
    have hnone := inside front back id hnames hwalk
    have hform := form?_of_link?_eq_none inHub hnone
    simp [isHubEnd] at hform
  have hoff : ∀ front name back, names = front ++ name :: back → hub.walk 0 front ≠ some link :=
    fun front name back hnames hwalk => hne front _ link hnames hwalk rfl
  rw [consult, walk_graft wellFormed outer inHub hubWellFormed named (Nat.zero_lt_of_lt inHub) hoff,
    consult]
  cases htarget : hub.walk 0 names with
  | none => rfl
  | some target =>
    have hother := hne names [] target (List.append_nil names).symm htarget
    have hlt := hubWellFormed.lt_size_of_walk (Nat.zero_lt_of_lt inHub) htarget
    have hendpoint : (hub.graft link device).endpoint? target = hub.endpoint? target := by
      rw [endpoint?, get?_graft wellFormed outer hlt hother, endpoint?]
    simp only [hendpoint]

end

end Tree
end TopicTree
