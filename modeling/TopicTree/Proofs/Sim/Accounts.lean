import TopicTree.Proofs.Site.Asking
import TopicTree.Sim.Expectation
import TopicTree.Sim.Scenario

/-!
# The accounts of a world

Every request that a step makes is refused, or its tree owes the caller a telling until it is told.
A tree is only touched by calls, whatever the wires between the trees do to what is written there,
and a call keeps the books of the one node that makes requests there. So the receipts, the refusals
and the debts add up to the requests at every moment, and no slot is lost on the way.
-/

namespace TopicTree

/-- Whether a step makes a request. -/
def Step.isRequest : Step → Bool
  | .request .. => true
  | _ => false

section Tally

variable {G : Type} [Chance G]

namespace World

/-- Tries to make a request. -/
def attempt (world : World G) (party : Party) (method path argument : String) :
    Except Error (UInt16 × Site (Media G)) := do
  let params ← requestParams argument
  (world.siteOf party).execute (caller party) method path params world.clock.now ""

/-- Whether a step makes a request that a given tree accepts. -/
def accepts (world : World G) (party : Party) : Step → Bool
  | .request asker method path argument =>
    asker = party && (world.attempt asker method path argument).isOk
  | _ => false

/-- Whether a step makes a request that is refused. -/
def refuses (world : World G) : Step → Bool
  | .request asker method path argument => !(world.attempt asker method path argument).isOk
  | _ => false

/-- How many of some steps pass a test in the world in which they are taken. -/
def tally (world : World G) (test : World G → Step → Bool) : List Step → Nat
  | [] => 0
  | step :: steps =>
    (test world step).toNat + match world.take step with
      | .error _ => 0
      | .ok after => after.tally test steps

/-- The slots of a tree's pool that are held from outside. -/
def lent (world : World G) : Party → List Nat
  | .hub => []
  | .device => world.held

end World

end Tally

/-! ## The books of one tree -/

variable {G : Type}

namespace Camp

/-- A tree as a site at which nothing has happened yet. -/
def site (camp : Camp) (media : Media G) : Site (Media G) :=
  ⟨camp.tree, camp.pool, media, []⟩

/-- Puts a site back where its tree stands, and takes account of what happened there. -/
def putBack (camp : Camp) (time : Nat) (site : Site (Media G)) : Camp :=
  site.log.foldl (hear time) { camp with tree := site.tree, pool := site.pool }

/-- Whether what a tree owes its caller is due at a given time. -/
def DueBy (camp : Camp) (time : Nat) : Prop :=
  ∀ row ∈ camp.tree.waiting, row.isOwed "" → row.deadline ≤ time

/-- What holds of a tree at every moment: only one node of it makes requests, each one that was
accepted has its receipt or is still a debt, and no slot is in use but those that are lent. -/
structure Kept (config : WorldConfig) (place now asked : Nat) (lent : List Nat) (camp : Camp) :
    Prop where
  asksAt : camp.tree.AsksAt "" place
  timeout : camp.tree.timeout = config.timeout
  total : camp.receipts.length + camp.tree.owed "" = asked
  due : camp.DueBy (now + config.timeout)
  pool : camp.pool.Lent config.poolSize lent

/-- To take account of events touches neither the tree nor the pool. -/
theorem foldl_hear (events : List Event) (time : Nat) (camp : Camp) :
    (events.foldl (hear time) camp).tree = camp.tree ∧
      (events.foldl (hear time) camp).pool = camp.pool := by
  induction events generalizing camp with
  | nil => exact ⟨rfl, rfl⟩
  | cons event events ih =>
    have hrest := ih (camp.hear time event)
    cases event <;> exact hrest

/-- Where one caller gets all the replies, a receipt is made out for each one. -/
theorem receipts_foldl_hear {tag : String} {events : List Event}
    (own : ∀ other code params, .replied other code params ∈ events → other = tag) (time : Nat)
    (camp : Camp) :
    (events.foldl (hear time) camp).receipts = camp.receipts ++
      (events.filterMap (Event.telling? tag)).map fun (code, params) => ⟨code, params, time⟩ := by
  induction events generalizing camp with
  | nil => exact (List.append_nil _).symm
  | cons event events ih =>
    have hrest := ih (fun other code params h => own other code params (.tail _ h))
      (camp.hear time event)
    cases event with
    | replied other code params =>
      obtain rfl := own other code params (.head _)
      simpa [hear, Event.telling?] using hrest
    | _ => exact hrest

/-- The tree is that of the site. -/
theorem tree_putBack (camp : Camp) (time : Nat) (site : Site (Media G)) :
    (camp.putBack time site).tree = site.tree :=
  (foldl_hear site.log time _).1

/-- The pool is that of the site. -/
theorem pool_putBack (camp : Camp) (time : Nat) (site : Site (Media G)) :
    (camp.putBack time site).pool = site.pool :=
  (foldl_hear site.log time _).2

/-- Where one caller gets all the replies, those are the receipts that are new. -/
theorem receipts_putBack {tag : String} {site : Site (Media G)}
    (own : ∀ other code params, .replied other code params ∈ site.log → other = tag)
    (time : Nat) (camp : Camp) :
    (camp.putBack time site).receipts = camp.receipts ++
      (site.tellings tag).map fun (code, params) => ⟨code, params, time⟩ :=
  receipts_foldl_hear own time _

/-- A tree that owes nothing has nothing that is due later. -/
theorem dueBy_of_owed {camp : Camp} (h : camp.tree.owed "" = 0) (time : Nat) : camp.DueBy time :=
  fun row hrow howed => absurd howed (List.countP_eq_zero.1 h row hrow)

namespace Kept

variable [Chance G] {config : WorldConfig} {place now asked : Nat} {lent : List Nat} {camp : Camp}

/-- What is known of a tree after a call, if it is known how the call changes the debts. -/
theorem perform {media : Media G} {call : Call} {extra : Nat}
    (h : camp.Kept config place now asked lent) (own : call.AsksAt "" place)
    (total : ((camp.site media).perform call).2.tree.owed ""
      + (((camp.site media).perform call).2.tellings "").length = camp.tree.owed "" + extra)
    (rows : ∀ row ∈ ((camp.site media).perform call).2.tree.waiting, row.isOwed "" →
      row ∈ camp.tree.waiting ∨ row.deadline = now + camp.tree.timeout) :
    (camp.putBack now ((camp.site media).perform call).2).Kept config place now (asked + extra)
      lent where
  asksAt := by
    rw [tree_putBack]
    exact Site.asksAt_perform h.asksAt own
  timeout := by
    rw [tree_putBack, ← h.timeout]
    exact (camp.site media).timeout_move (.call call)
  total := by
    have hreplies : ∀ other code params,
        .replied other code params ∈ ((camp.site media).perform call).2.log → other = "" :=
      fun _ _ _ => Site.eq_tag_of_replied h.asksAt own rfl
    have hreceipts := receipts_putBack hreplies now camp
    rw [tree_putBack, hreceipts, List.length_append, List.length_map, ← h.total]
    omega
  due row hrow howed := by
    rw [tree_putBack] at hrow
    rcases rows row hrow howed with hold | hnew
    · exact h.due row hold howed
    · rw [hnew, h.timeout]
  pool := by
    obtain ⟨_, held⟩ := h.pool.held
    have hsame : ((camp.site media).perform call).2.pool = camp.pool :=
      ((camp.site media).restores_perform call).eq_of_tidy (Pool.tidy_of_held held)
    rw [pool_putBack, hsame]
    exact h.pool

/-- A call that makes no request leaves the books as they are. -/
theorem perform_other (h : camp.Kept config place now asked lent) (media : Media G) (call : Call)
    (own : call.AsksAt "" place) (hands : ¬call.hands "") :
    (camp.putBack now ((camp.site media).perform call).2).Kept config place now asked lent := by
  have hmove : ¬(Move.call call : Move (Media G)).hands "" := hands
  have keeps : Site.Keeps "" (camp.site media) ((camp.site media).perform call).2 := .of_move hmove
  exact h.perform own keeps.total fun row hrow howed => .inl (keeps.rows row hrow howed)

/-- An accepted request is entered in the books. -/
theorem execute (h : camp.Kept config place now asked lent) {media : Media G} {method path : String}
    {params : Params} {id : UInt16} {after : Site (Media G)}
    (accepted : (camp.site media).execute place method path params now "" = .ok (id, after)) :
    (camp.putBack now after).Kept config place now (asked + 1) lent := by
  have hafter : ((camp.site media).perform (.execute place method path params now "")).2
      = after := by
    simp only [Site.perform, accepted]
  obtain ⟨htotal, hrows⟩ := Site.execute_owes accepted
  rw [← hafter] at htotal hrows ⊢
  exact h.perform ⟨rfl, rfl⟩ htotal hrows

/-- The books are as full as the table of the caller. -/
theorem pendingCount_eq (h : camp.Kept config place now asked lent) :
    camp.tree.pendingCount place = camp.tree.owed "" := by
  rw [h.asksAt.owed_eq, Tree.pendingCount_eq]

/-- What is due is due in the table of the caller. -/
theorem dueBy_iff (h : camp.Kept config place now asked lent) {time : Nat} :
    camp.DueBy time ↔ ∀ row ∈ camp.tree.awaited place, row.deadline ≤ time := by
  constructor
  · intro due row hrow
    exact due row (Tree.mem_waiting.2 ⟨place, hrow⟩) ((h.asksAt.isOwed_iff hrow).2 rfl)
  · intro due row hrow howed
    obtain ⟨id, hid⟩ := Tree.mem_waiting.1 hrow
    obtain rfl := (h.asksAt.isOwed_iff hid).1 howed
    exact due row hid

/-- A tree that awaits nothing has empty books. -/
theorem ofTree {tree : Tree} (node : tree.form? place = some .node)
    (timeout : tree.timeout = config.timeout) (idle : tree.waiting = []) :
    (Camp.ofTree tree config.poolSize).Kept config place 0 0 [] := by
  have hnone : ∀ row, row ∉ tree.waiting := fun row hrow => by
    rw [idle] at hrow
    cases hrow
  have howed : tree.owed "" = 0 := List.countP_eq_zero.2 fun row hrow => absurd hrow (hnone row)
  exact ⟨⟨node, fun id row hrow => absurd (Tree.mem_waiting.2 ⟨id, hrow⟩) (hnone row)⟩, timeout,
    (Nat.zero_add _).trans howed, fun row hrow => absurd hrow (hnone row),
    Pool.lent_ofSize config.poolSize⟩

end Kept

end Camp

/-! ## The books of a world -/

namespace World

/-- What holds of a world at every moment: the books of both trees are kept, and the refusals are
counted. -/
structure Kept (config : WorldConfig) (asked : Party → Nat) (refused : Nat) (world : World G) :
    Prop where
  camps : ∀ party, (world.camp party).Kept config (caller party) world.clock.now (asked party)
    (world.lent party)
  rejected : world.rejected = refused

/-- The tree that a site is put back to. -/
theorem camp_putBack_self (world : World G) (party : Party) (site : Site (Media G)) :
    (world.putBack party site).camp party = (world.camp party).putBack world.clock.now site := by
  cases party <;> rfl

/-- The other tree. -/
theorem camp_putBack_of_ne (world : World G) {party other : Party} (h : other ≠ party)
    (site : Site (Media G)) : (world.putBack party site).camp other = world.camp other := by
  cases party <;> cases other <;> first | rfl | exact absurd rfl h

/-- Nothing but the trees and the wires changes when a site is put back. -/
theorem putBack_around (world : World G) (party : Party) (site : Site (Media G)) :
    (world.putBack party site).clock = world.clock ∧
      (world.putBack party site).rejected = world.rejected ∧
      (world.putBack party site).held = world.held := by
  cases party <;> exact ⟨rfl, rfl, rfl⟩

/-- The client does not touch the trees. -/
theorem camp_collect (world : World G) : world.collect.camp = world.camp := by
  unfold collect
  split <;> rfl

section Settling

variable [Chance G]

/-- Both trees have their turn, and then the client. -/
def round (world : World G) : World G :=
  ((world.tick .device).tick .hub).collect

/-- What every round keeps holds of a world that has settled if it holds after one round. -/
theorem settleIn_induction {P : World G → Prop} (round : ∀ world, P world → P world.round)
    {rounds : Nat} {world after : World G} (settles : settleIn rounds world = .ok after)
    (h : P world.round) : P after := by
  induction rounds generalizing world with
  | zero => cases settles
  | succ rounds ih =>
    simp only [settleIn] at settles
    split at settles
    · cases settles
      exact h
    · exact ih settles (round _ h)

end Settling

namespace Kept

variable {config : WorldConfig} {asked : Party → Nat} {refused : Nat} {world after : World G}

/-- The books are kept when a site is put back to one of the trees with which its books are. -/
theorem putBack (h : world.Kept config asked refused) {party : Party} {site : Site (Media G)}
    {entered : Party → Nat}
    (own : ((world.camp party).putBack world.clock.now site).Kept config (caller party)
      world.clock.now (entered party) (world.lent party))
    (others : ∀ other ≠ party, entered other = asked other) :
    (world.putBack party site).Kept config entered refused := by
  obtain ⟨hclock, hrejected, hheld⟩ := world.putBack_around party site
  have hlent : (world.putBack party site).lent = world.lent := by
    funext other
    cases other <;> simp [lent, hheld]
  refine ⟨fun other => ?_, hrejected.trans h.rejected⟩
  rw [hclock, hlent]
  by_cases hother : other = party
  · subst hother
    rw [camp_putBack_self]
    exact own
  · rw [camp_putBack_of_ne world hother, others other hother]
    exact h.camps other

/-- The client does not touch the books. -/
theorem collect (h : world.Kept config asked refused) :
    world.collect.Kept config asked refused := by
  unfold World.collect
  split
  · exact h
  · exact ⟨h.camps, h.rejected⟩

/-- Time does not touch the books. -/
theorem advance (h : world.Kept config asked refused) (ms : Nat) :
    ({ world with clock := world.clock.advance ms } : World G).Kept config asked refused where
  rejected := h.rejected
  camps party := by
    obtain ⟨asksAt, timeout, total, due, pool⟩ := h.camps party
    refine ⟨asksAt, timeout, total, fun row hrow howed => (due row hrow howed).trans ?_, pool⟩
    exact Nat.add_le_add_right (Nat.le_add_right _ ms) _

/-- Another pool of the device is kept when it is lent as the world says. -/
theorem withPool (h : world.Kept config asked refused) {pool : Pool} {held : List Nat}
    (lent : pool.Lent config.poolSize held) :
    ({ world with device := { world.device with pool }, held } : World G).Kept config asked
      refused where
  rejected := h.rejected
  camps party := by
    cases party with
    | hub => exact h.camps .hub
    | device =>
      obtain ⟨asksAt, timeout, total, due, -⟩ := h.camps .device
      exact ⟨asksAt, timeout, total, due, lent⟩

variable [Chance G]

/-- A tick keeps the books. -/
theorem tick (h : world.Kept config asked refused) (party : Party) :
    (world.tick party).Kept config asked refused :=
  h.putBack ((h.camps party).perform_other world.media (.tick world.clock.now) trivial id)
    fun _ _ => rfl

/-- A world that settles keeps its books. -/
theorem settle (h : world.Kept config asked refused) (settles : world.settle = .ok after) :
    after.Kept config asked refused := by
  have hround : ∀ world : World G, world.Kept config asked refused →
      world.round.Kept config asked refused :=
    fun _ hworld => ((hworld.tick .device).tick .hub).collect
  exact settleIn_induction hround settles (hround world h)

/-- A request is entered in the books of the tree that accepts it, or counted as a refusal. -/
theorem request (h : world.Kept config asked refused) (asker : Party)
    (method path argument : String) :
    (world.request asker method path argument).Kept config
      (fun party => asked party
        + (world.accepts party (.request asker method path argument)).toNat)
      (refused + (world.refuses (.request asker method path argument)).toNat) := by
  rw [World.request, ← attempt]
  cases hattempt : world.attempt asker method path argument with
  | error e =>
    simp only [accepts, refuses, hattempt, Except.isOk, Except.toBool, Bool.and_false,
      Bool.toNat_false, Bool.not_false, Bool.toNat_true, Nat.add_zero]
    exact ⟨h.camps, congrArg (· + 1) h.rejected⟩
  | ok issued =>
    obtain ⟨id, site⟩ := issued
    simp only [accepts, refuses, hattempt, Except.isOk, Except.toBool, Bool.and_true,
      Bool.not_true, Bool.toNat_false, Nat.add_zero]
    simp only [attempt, bind_eq_ok] at hattempt
    obtain ⟨params, -, accepted⟩ := hattempt
    refine h.putBack ?_ fun other hother => ?_
    · rw [decide_eq_true rfl, Bool.toNat_true]
      exact (h.camps asker).execute accepted
    · rw [decide_eq_false (Ne.symm hother), Bool.toNat_false, Nat.add_zero]

/-- A step keeps the books: it enters the request that it makes, if it makes one. -/
theorem take (h : world.Kept config asked refused) {step : Step}
    (taken : world.take step = .ok after) :
    after.Kept config (fun party => asked party + (world.accepts party step).toNat)
      (refused + (world.refuses step).toNat) := by
  cases step with
  | settle => exact h.settle taken
  | advance ms => exact (h.advance ms).settle taken
  | request asker method path argument =>
    cases taken
    exact h.request asker method path argument
  | notify name data =>
    simp only [World.take, World.notify] at taken
    split at taken
    · cases taken
    · next site hsite =>
      cases taken
      have hperform : (((world.camp .device).site world.media).perform
          (.notify Device.sensor name .atMostOnce data)).2 = site := congrArg Prod.snd hsite
      refine h.putBack ?_ fun _ _ => rfl
      rw [← hperform]
      exact (h.camps .device).perform_other world.media _ trivial id
  | clientSend frame =>
    simp only [World.take, World.clientSend] at taken
    split at taken
    · cases taken
    · cases taken
      exact ⟨h.camps, h.rejected⟩
  | injectToDevice frame =>
    cases taken
    exact ⟨h.camps, h.rejected⟩
  | dropRate party rate =>
    cases taken
    exact ⟨h.camps, h.rejected⟩
  | corruptRate party rate =>
    cases taken
    exact ⟨h.camps, h.rejected⟩
  | hold count =>
    cases taken
    exact h.withPool ((h.camps .device).pool.acquireUpTo rfl)
  | release =>
    cases taken
    exact h.withPool (h.camps .device).pool.releaseAll

/-- Steps one after the other keep the books. -/
theorem takeAll (h : world.Kept config asked refused) {index : Nat} {steps : List Step}
    (taken : world.takeAll index steps = .ok after) :
    after.Kept config (fun party => asked party + world.tally (·.accepts party) steps)
      (refused + world.tally (·.refuses) steps) := by
  induction steps generalizing world index asked refused with
  | nil =>
    cases taken
    exact h
  | cons step steps ih =>
    simp only [World.takeAll] at taken
    split at taken
    · cases taken
    · next mid hmid =>
      have hafter := ih (h.take hmid) taken
      simp only [tally, hmid, ← Nat.add_assoc]
      exact hafter

end Kept

/-- The books of the hub are empty at the start. -/
theorem kept_hub {config : WorldConfig} {tree : Tree} (built : Hub.build config = .ok tree) :
    (Camp.ofTree tree config.poolSize).Kept config Hub.service 0 0 [] := by
  obtain ⟨seed, localRoot, poolSize, timeout, interval, bridge⟩ := config
  cases bridge with
  | none =>
    cases built
    exact .ofTree rfl rfl rfl
  | some maxClientId =>
    cases built
    exact .ofTree rfl rfl rfl

/-- A device that is built has a name for its local root. -/
theorem exists_name_of_build {config : WorldConfig} {tree : Tree}
    (built : Device.build config = .ok tree) :
    ∃ name, Name.ofText config.localRoot = .ok name := by
  rw [Device.build, Tree.addDownlink, bind_assoc, bind_eq_ok] at built
  obtain ⟨name, hname, -⟩ := built
  exact ⟨name, hname⟩

/-- The books of the device are empty at the start. -/
theorem kept_device {config : WorldConfig} {tree : Tree} (built : Device.build config = .ok tree) :
    (Camp.ofTree tree config.poolSize).Kept config Device.sensor 0 0 [] := by
  obtain ⟨name, hname⟩ := exists_name_of_build built
  simp only [Device.build, Tree.addDownlink, hname] at built
  cases built
  exact .ofTree rfl rfl rfl

/-- The books of a world are empty at the start. -/
theorem kept_build {link client : Side → G} {config : WorldConfig} {start : World G}
    (built : buildWith link client config = .ok start) :
    start.Kept config (fun _ => 0) 0 := by
  simp only [buildWith, bind_eq_ok, pure_eq_ok] at built
  obtain ⟨hub, hhub, device, hdevice, rfl⟩ := built
  refine ⟨fun party => ?_, rfl⟩
  cases party with
  | hub => exact kept_hub hhub
  | device => exact kept_device hdevice

/-! ## When all is due -/

variable [Chance G]

/-- A tick pays what is due. -/
theorem owed_tick {world : World G} {party : Party}
    (due : (world.camp party).DueBy world.clock.now) :
    ((world.tick party).camp party).tree.owed "" = 0 := by
  have hdue : ∀ row ∈ (world.siteOf party).tree.waiting, row.isOwed "" →
      row.deadline ≤ world.clock.now := due
  rw [tick, camp_putBack_self, Camp.tree_putBack]
  exact (Site.tick_pays hdue).1

/-- A round pays what is due. -/
theorem owed_round {world : World G} (due : ∀ party, (world.camp party).DueBy world.clock.now)
    (party : Party) : (world.round.camp party).tree.owed "" = 0 := by
  rw [round, camp_collect]
  cases party with
  | hub =>
    have hclock : (world.tick .device).clock = world.clock := (world.putBack_around .device _).1
    have hsame : (world.tick .device).camp .hub = world.camp .hub :=
      world.camp_putBack_of_ne (by decide) _
    apply owed_tick
    rw [hclock, hsame]
    exact due .hub
  | device =>
    rw [tick, camp_putBack_of_ne _ (by decide)]
    exact owed_tick (due .device)

/-- A world that settles has paid what was due before. -/
theorem owed_settle {world after : World G} (settles : world.settle = .ok after)
    (due : ∀ party, (world.camp party).DueBy world.clock.now) :
    ∀ party, (after.camp party).tree.owed "" = 0 :=
  settleIn_induction (P := fun world => ∀ party, (world.camp party).tree.owed "" = 0)
    (fun _ paid => owed_round fun party => Camp.dueBy_of_owed (paid party) _) settles
    (owed_round due)

/-! ## The accounts -/

/-- Every request is accepted by one tree or refused. -/
theorem tally_requests {world after : World G} {index : Nat} {steps : List Step}
    (taken : world.takeAll index steps = .ok after) :
    steps.countP Step.isRequest = world.tally (·.accepts .hub) steps
      + world.tally (·.accepts .device) steps + world.tally (·.refuses) steps := by
  induction steps generalizing world index with
  | nil => rfl
  | cons step steps ih =>
    simp only [takeAll] at taken
    split at taken
    · cases taken
    · next mid hmid =>
      have hstep : (world.accepts .hub step).toNat + (world.accepts .device step).toNat
          + (world.refuses step).toNat = step.isRequest.toNat := by
        cases step with
        | request asker method path argument =>
          cases asker <;> simp only [accepts, refuses, Step.isRequest] <;>
            cases (world.attempt _ method path argument).isOk <;> rfl
        | _ => rfl
      have hcount : (if step.isRequest then 1 else 0) = step.isRequest.toNat := by
        cases step.isRequest <;> rfl
      simp only [tally, hmid, List.countP_cons, ih taken, hcount, ← hstep]
      omega

/-- Whatever a world is made from, whatever is drawn from the generators of its wires and whatever
steps it has taken, its accounts are right. The receipts of both trees, the refusals and the responses
that are still awaited are as many as the requests, and those of one tree are as many as the
requests that it has accepted. Every wait is over within the waiting time, and once the clock has
been moved so far that all are, nothing is awaited. No slot is in use but those that are held. -/
theorem requests_are_accounted_for {link client : Side → G} {config : WorldConfig}
    {start world : World G} {steps : List Step} (built : buildWith link client config = .ok start)
    (taken : start.takeAll 0 steps = .ok world) :
    steps.countP Step.isRequest
      = world.hub.receipts.length + world.device.receipts.length + world.rejected
        + world.hub.tree.pendingCount Hub.service
        + world.device.tree.pendingCount Device.sensor ∧
    (∀ party, start.tally (·.accepts party) steps
      = (world.camp party).receipts.length
        + (world.camp party).tree.pendingCount (caller party)) ∧
    (∀ ms after, world.take (.advance ms) = .ok after →
      (∀ party, ∀ row ∈ (world.camp party).tree.awaited (caller party),
        row.deadline ≤ world.clock.now + ms) →
      after.hub.tree.pendingCount Hub.service = 0 ∧
        after.device.tree.pendingCount Device.sensor = 0) ∧
    (∀ party, ∀ row ∈ (world.camp party).tree.awaited (caller party),
      row.deadline ≤ world.clock.now + config.timeout) ∧
    world.hub.pool.available = world.hub.pool.capacity ∧
    world.device.pool.available + world.held.length = world.device.pool.capacity ∧
    ∀ party, (world.camp party).pool.capacity = config.poolSize := by
  have kept := (kept_build built).takeAll taken
  have hparty : ∀ party, start.tally (·.accepts party) steps
      = (world.camp party).receipts.length
        + (world.camp party).tree.pendingCount (caller party) := by
    intro party
    have hcamp := kept.camps party
    rw [hcamp.pendingCount_eq, hcamp.total, Nat.zero_add]
  refine ⟨?_, hparty, fun ms after advanced due => ?_, fun party =>
    (kept.camps party).dueBy_iff.1 (kept.camps party).due, ?_, ?_,
    fun party => (kept.camps party).pool.capacity⟩
  · rw [tally_requests taken, hparty .hub, hparty .device, kept.rejected]
    simp only [camp, caller]
    omega
  · have hafter := kept.take advanced
    have hpaid := owed_settle advanced fun party => (kept.camps party).dueBy_iff.2 (due party)
    exact ⟨(hafter.camps .hub).pendingCount_eq.trans (hpaid .hub),
      (hafter.camps .device).pendingCount_eq.trans (hpaid .device)⟩
  · have hhub := (kept.camps .hub).pool
    exact hhub.available_add.trans hhub.capacity.symm
  · have hdevice := (kept.camps .device).pool
    exact hdevice.available_add.trans hdevice.capacity.symm

/-- A world whose device is not heard. -/
def unheard : WorldConfig :=
  ⟨7, "dev", 2, 5, 10, none⟩

/-- One request is answered at once, one is refused and one is lost on the wire. -/
def threeRequests : List Step :=
  [.dropRate .device .always, .request .hub "echo" "~/svc" "hi",
    .request .hub "a name that no method can have" "~/svc" "",
    .request .device "echo" "~/../svc" "hi", .hold 1]

/-- The receipts of both trees, the refusals and the debts of both trees. -/
def accounts (world : World G) : List Nat :=
  [world.hub.receipts.length, world.device.receipts.length, world.rejected,
    world.hub.tree.pendingCount Hub.service, world.device.tree.pendingCount Device.sensor]

/-- The device still waits for a response when the steps are over, and no longer when its waiting
time is over. -/
theorem three_requests_are_accounted_for :
    ∃ start world after, build unheard = .ok start ∧ start.takeAll 0 threeRequests = .ok world ∧
      world.take (.advance unheard.timeout) = .ok after ∧
      world.accounts = [1, 0, 1, 0, 1] ∧ threeRequests.countP Step.isRequest
        = world.hub.receipts.length + world.device.receipts.length + world.rejected
          + world.hub.tree.pendingCount Hub.service
          + world.device.tree.pendingCount Device.sensor ∧
      after.device.tree.pendingCount Device.sensor = 0 ∧
      world.device.pool.available + world.held.length = 2 := by
  have hruns : (do
      let start ← (build unheard).toOption
      let world ← (start.takeAll 0 threeRequests).toOption
      let _ ← (world.take (.advance unheard.timeout)).toOption
      return world.accounts) = some [1, 0, 1, 0, 1] := by decide +kernel
  simp only [Option.bind_eq_bind, Option.bind_eq_some_iff, toOption_eq_some, Option.pure_def,
    Option.some.injEq] at hruns
  obtain ⟨start, built, world, taken, after, advanced, haccounts⟩ := hruns
  obtain ⟨htotal, -, hpaid, hdue, -, hdevice, hsize⟩ := requests_are_accounted_for built taken
  exact ⟨start, world, after, built, taken, advanced, haccounts, htotal,
    (hpaid _ after advanced hdue).2, hdevice.trans (hsize .device)⟩

end World
end TopicTree
