import TopicTree.Network.Cabling
import TopicTree.Proofs.Site.Issue
import TopicTree.Proofs.Site.Reachable
import TopicTree.Proofs.Tree.Waiting

/-!
# What callers are owed

A caller whose request is accepted is owed one telling: its row in a table is the debt, and the
telling in the log pays it. Nothing that a site does by itself makes such a row or loses one without
telling, so rows and tellings of one caller always add up to the number of its accepted requests.
A tick pays every overdue debt first, whatever waits at the sockets.
-/

namespace TopicTree

/-- What an event tells a caller of a given tag. -/
def Event.telling? (tag : String) : Event → Option (ReturnCode × Params)
  | .replied other code params => if other = tag then some (code, params) else none
  | _ => none

/-- What a caller of a given tag has been told so far, in order. -/
def Site.tellings {M : Type} (site : Site M) (tag : String) : List (ReturnCode × Params) :=
  site.log.filterMap (Event.telling? tag)

/-- Whether a row is a debt to a caller of a given tag. -/
def Pending.isOwed (tag : String) (row : Pending) : Bool :=
  row.requester = .caller tag

/-- The number of debts to callers of a given tag. -/
def Tree.owed (tree : Tree) (tag : String) : Nat :=
  tree.waiting.countP (Pending.isOwed tag)

namespace Site

variable {M : Type}

/-! ## Tellings -/

/-- A site at which more has happened, none of which tells the caller anything, and which awaits
what it did before. -/
structure Quiet (tag : String) (before after : Site M) : Prop where
  alike : after.tree.Alike before.tree
  log : ∃ events, after.log = before.log ++ events ∧
    events.filterMap (Event.telling? tag) = []

namespace Quiet

variable {tag : String}

@[refl]
protected theorem refl (site : Site M) : Quiet tag site site :=
  ⟨.refl _, [], by simp, rfl⟩

protected theorem trans {first second third : Site M} (h : Quiet tag first second)
    (h' : Quiet tag second third) : Quiet tag first third := by
  obtain ⟨events, hevents, hnone⟩ := h.log
  obtain ⟨later, hlater, hnone'⟩ := h'.log
  refine ⟨h'.alike.trans h.alike, events ++ later, ?_, ?_⟩
  · rw [hlater, hevents, List.append_assoc]
  · rw [List.filterMap_append, hnone, hnone', List.append_nil]

/-- The caller has been told the same. -/
theorem tellings_eq {before after : Site M} (h : Quiet tag before after) :
    after.tellings tag = before.tellings tag := by
  obtain ⟨events, hevents, hnone⟩ := h.log
  rw [tellings, hevents, List.filterMap_append, hnone, List.append_nil, tellings]

/-- An event that tells the caller nothing is quiet. -/
theorem note (site : Site M) {event : Event} (h : event.telling? tag = none) :
    Quiet tag site (site.note event) :=
  ⟨.refl _, [event], rfl, by simp [h]⟩

/-- What is quiet while a slot is held is quiet. -/
theorem holding {site : Site M} {frame : Frame} {act : Site M → Site M}
    (h : ∀ pool : Pool, Quiet tag { site with pool } (act { site with pool })) :
    Quiet tag site (site.holding frame act) := by
  unfold Site.holding
  split
  · exact .refl _
  · next slot pool _ => exact ⟨(h pool).alike, (h pool).log⟩

variable [Medium M]

/-- Writing tells callers nothing. -/
theorem write (site : Site M) (id : Nat) (frame : Frame) :
    Quiet tag site (site.write id frame) := by
  refine ⟨alike_write site id frame, ?_⟩
  unfold Site.write
  split
  · exact ⟨[], by simp, rfl⟩
  · next channel _ =>
    simp only []
    split
    · exact ⟨[_], rfl, rfl⟩
    · exact ⟨[_], rfl, rfl⟩

/-- Telling a client tells callers nothing. -/
theorem answerClient (site : Site M) (id : Nat) (topic : String) (code : ReturnCode)
    (params : Params) : Quiet tag site (site.answerClient id topic code params) := by
  unfold Site.answerClient
  split
  · exact .refl _
  · unfold sendPacket
    split
    · next frame _ => exact .holding fun pool => .write { site with pool } id frame
    · exact .refl _

end Quiet

variable [Medium M]

/-- The caller is told exactly what it is told itself. -/
theorem tellings_tell (tag : String) (site : Site M) (id : Nat) (row : Pending)
    (code : ReturnCode) (params : Params) :
    (site.tell id row.requester code params).tellings tag
      = site.tellings tag ++ if row.isOwed tag then [(code, params)] else [] := by
  cases hrequester : row.requester with
  | caller other =>
    by_cases htag : other = tag
    · simp [tell, note, tellings, Event.telling?, Pending.isOwed, hrequester, htag]
    · simp [tell, note, tellings, Event.telling?, Pending.isOwed, hrequester, htag]
  | client topic =>
    have hquiet : Quiet tag site (site.answerClient id topic code params) :=
      .answerClient site id topic code params
    simp [tell, hquiet.tellings_eq, Pending.isOwed, hrequester]

/-- A telling comes after all that has happened. -/
theorem log_tell (site : Site M) (id : Nat) (requester : Requester) (code : ReturnCode)
    (params : Params) : site.log <+: (site.tell id requester code params).log := by
  cases requester with
  | caller tag => exact ⟨_, rfl⟩
  | client topic =>
    obtain ⟨events, hevents, _⟩ := (Quiet.answerClient site id topic code params : Quiet "" _ _).log
    exact ⟨events, hevents.symm⟩

/-- Of the overdue rows of an entry, each one that is owed to the caller is told as such. -/
theorem tellings_tellExpired (tag : String) (id : Nat) (rows : List Pending) (site : Site M) :
    (tellExpired id rows site).tellings tag = site.tellings tag
      ++ List.replicate (rows.countP (Pending.isOwed tag)) (.timeout, Params.empty) := by
  induction rows generalizing site with
  | nil => simp [tellExpired]
  | cons row rest ih =>
    have hstep : tellExpired id (row :: rest) site
        = tellExpired id rest (site.tell id row.requester .timeout Params.empty) := rfl
    rw [hstep, ih, tellings_tell, List.append_assoc, List.countP_cons]
    congr 1
    by_cases howed : row.isOwed tag
    · rw [if_pos howed, if_pos howed, List.replicate_succ]
      rfl
    · rw [if_neg howed, if_neg howed]
      rfl

/-- The tellings about overdue rows come after all that has happened. -/
theorem log_tellExpired (id : Nat) (rows : List Pending) (site : Site M) :
    site.log <+: (tellExpired id rows site).log := by
  induction rows generalizing site with
  | nil => exact List.prefix_rfl
  | cons row rest ih =>
    exact (log_tell site id row.requester .timeout Params.empty).trans (ih _)

/-! ## The books are kept -/

/-- What a caller is owed and what it has been told add up as before: debts turn into tellings and
do not come up anew, and what was told stays told. -/
structure Keeps (tag : String) (before after : Site M) : Prop where
  log : before.log <+: after.log
  rows : ∀ row ∈ after.tree.waiting, row.isOwed tag → row ∈ before.tree.waiting
  total : after.tree.owed tag + (after.tellings tag).length
    = before.tree.owed tag + (before.tellings tag).length

namespace Keeps

variable {tag : String}

omit [Medium M] in
@[refl]
protected theorem refl (site : Site M) : Keeps tag site site :=
  ⟨List.prefix_rfl, fun _ hrow _ => hrow, rfl⟩

omit [Medium M] in
protected theorem trans {first second third : Site M} (h : Keeps tag first second)
    (h' : Keeps tag second third) : Keeps tag first third where
  log := h.log.trans h'.log
  rows row hrow howed := h.rows row (h'.rows row hrow howed) howed
  total := h'.total.trans h.total

omit [Medium M] in
/-- A site that awaits the same, and has told the caller the same, keeps the books. -/
theorem of_waiting_eq {before after : Site M} (waiting : after.tree.waiting = before.tree.waiting)
    (log : before.log <+: after.log) (told : after.tellings tag = before.tellings tag) :
    Keeps tag before after where
  log := log
  rows row hrow _ := waiting ▸ hrow
  total := by rw [Tree.owed, waiting, told, Tree.owed]

omit [Medium M] in
/-- What is quiet keeps the books. -/
theorem of_quiet {before after : Site M} (h : Quiet tag before after) : Keeps tag before after := by
  obtain ⟨events, hevents, _⟩ := h.log
  exact of_waiting_eq h.alike.waiting_eq ⟨events, hevents.symm⟩ h.tellings_eq

omit [Medium M] in
/-- The books are kept when rows taken out of a table are told about. -/
theorem of_taken {before mid after : Site M} {id : Nat} {old new : Endpoint}
    {taken : List Pending} {told : List (ReturnCode × Params)}
    (there : before.tree.endpoint? id = some old)
    (rows : old.pending.Perm (taken ++ new.pending))
    (takes : mid = before.withTree (before.tree.setEndpoint id new))
    (alike : after.tree.Alike mid.tree) (log : mid.log <+: after.log)
    (tells : after.tellings tag = mid.tellings tag ++ told)
    (paid : told.length = taken.countP (Pending.isOwed tag)) : Keeps tag before after := by
  subst takes
  obtain ⟨others, hbefore, hafter⟩ := Tree.waiting_setEndpoint there
  have hnew := hafter new
  have hsame := alike.waiting_eq
  rw [tree_withTree] at hsame
  rw [← hsame] at hnew
  have hold := hbefore.trans (rows.append_right others)
  refine ⟨log, ?_, ?_⟩
  · intro row hrow _
    rw [hold.mem_iff, List.append_assoc]
    exact List.mem_append_right taken (hnew.mem_iff.1 hrow)
  · rw [Tree.owed, Tree.owed, hnew.countP_eq, hold.countP_eq, tells]
    simp only [List.countP_append, List.length_append, paid, tellings, log_withTree]
    omega

omit [Medium M] in
/-- The books of a caller are kept when a request begins that is not its own. -/
theorem of_begun {site : Site M} {id : Nat} {old new : Endpoint} {method : String}
    {deadline : Nat} {requester : Requester} {key : UInt16}
    (there : site.tree.endpoint? id = some old)
    (begun : old.beginRequest method deadline requester = .ok (key, new))
    (other : requester ≠ .caller tag) :
    Keeps tag site (site.withTree (site.tree.setEndpoint id new)) := by
  obtain ⟨_, _, rfl⟩ := Endpoint.beginRequest_eq_ok begun
  obtain ⟨others, hbefore, hafter⟩ := Tree.waiting_setEndpoint there
  have hrow : (⟨key, deadline, requester⟩ : Pending).isOwed tag = false := by
    simp [Pending.isOwed, other]
  refine ⟨List.prefix_rfl, ?_, ?_⟩
  · intro row hmem howed
    have hrows := (hafter _).mem_iff.1 hmem
    simp only [List.mem_append, List.mem_singleton] at hrows
    rcases hrows with (hold | rfl) | hother
    · exact hbefore.mem_iff.2 (List.mem_append_left _ hold)
    · rw [hrow] at howed
      cases howed
    · exact hbefore.mem_iff.2 (List.mem_append_right _ hother)
  · simp only [Tree.owed, tree_withTree, (hafter _).countP_eq, hbefore.countP_eq,
      List.countP_append, List.countP_singleton, hrow, tellings, log_withTree]
    rfl

/-- Whatever a site does by itself, the books are kept. -/
theorem of_change {before after : Site M} (h : Change before after) : Keeps tag before after := by
  cases h with
  | pool pool => exact ⟨List.prefix_rfl, fun _ hrow _ => hrow, rfl⟩
  | write id frame => exact of_quiet (.write before id frame)
  | poll there => exact of_quiet ⟨Tree.alike_setChannel _ _ _, [], by simp, rfl⟩
  | call there called =>
    refine of_waiting_eq ?_ ⟨_, rfl⟩ (by simp [tellings, Site.note, withTree, Event.telling?])
    exact Tree.waiting_congr (Tree.awaited_setEndpoint there (Endpoint.pending_of_call? called))
  | settle there settled =>
    refine of_taken there (Endpoint.settle?_eq_some settled).2 rfl (alike_tell _ _ _ _ _)
      (log_tell _ _ _ _ _) (tellings_tell tag _ _ _ _ _) ?_
    rw [List.countP_singleton]
    split <;> rfl
  | expire now id =>
    cases hendpoint : before.tree.endpoint? id with
    | none =>
      rw [expireAt_eq_self hendpoint]
    | some endpoint =>
      rw [expireAt_eq hendpoint]
      exact of_taken hendpoint (Endpoint.expireIn_perm now endpoint.pending) rfl
        (alike_tellExpired id _ _) (log_tellExpired id _ _) (tellings_tellExpired tag id _ _)
        List.length_replicate
  | begin there begun => exact of_begun there begun (by simp)
  | number there =>
    refine of_waiting_eq ?_ List.prefix_rfl rfl
    exact Tree.waiting_congr (Tree.awaited_setEndpoint there rfl)
  | adopt there place below free =>
    exact of_waiting_eq (Tree.waiting_setName _ _ _) List.prefix_rfl rfl
  | attempt there due => exact of_quiet ⟨Tree.alike_setLink there rfl, [], by simp, rfl⟩
  | confirm there place => exact of_quiet ⟨Tree.alike_setLink there rfl, [], by simp, rfl⟩
  | linkUp other => exact of_quiet (.note before rfl)
  | ask there who session =>
    exact of_quiet ⟨Tree.alike_setBridge there rfl, [.asked _ who], rfl, rfl⟩
  | session there session => exact of_quiet ⟨Tree.alike_setBridge there rfl, [], by simp, rfl⟩

/-- A chain of changes keeps the books. -/
theorem of_changes {before after : Site M} (h : Changes before after) : Keeps tag before after := by
  induction h with
  | refl => exact .refl _
  | tail _ change ih => exact ih.trans (of_change change)

/-- A move that does not hand over the caller keeps its books. -/
theorem of_move {site : Site M} {move : Move M} (other : ¬move.hands tag) :
    Keeps tag site (site.move move) := by
  rcases move_cases site move with ⟨_, tree, _, hbuilt, heq⟩ |
    ⟨_, _, _, _, _, asker, _, _, _, rfl, there, begun, hchanges⟩ | hchanges | ⟨_, _, _, heq⟩
  · rw [heq]
    exact of_waiting_eq (Tree.waiting_construct hbuilt) List.prefix_rfl rfl
  · have hasker : Requester.caller asker ≠ .caller tag := by
      simpa [Move.hands, Call.hands] using other
    exact (of_begun there begun hasker).trans (of_changes hchanges)
  · exact of_changes hchanges
  · rw [heq]
    exact of_waiting_eq rfl List.prefix_rfl rfl

/-- Moves that do not hand over the caller keep its books. -/
theorem of_run {moves : List (Move M)} (other : ∀ move ∈ moves, ¬move.hands tag) (site : Site M) :
    Keeps tag site (site.run moves) := by
  induction moves generalizing site with
  | nil => exact .refl _
  | cons move rest ih =>
    have hmove : Keeps tag site (site.move move) := of_move (other move List.mem_cons_self)
    exact hmove.trans (ih (fun move h => other move (List.mem_cons_of_mem _ h)) _)

end Keeps

/-! ## Overdue debts -/

/-- Ending the overdue waits of an entry touches no other table. -/
theorem awaited_expireAt (now : Nat) (site : Site M) (id other : Nat) :
    (expireAt now site id).tree.awaited other
      = if id = other then (Endpoint.expireIn now (site.tree.awaited id)).2
        else site.tree.awaited other := by
  cases hendpoint : site.tree.endpoint? id with
  | none =>
    rw [expireAt_eq_self hendpoint]
    split
    · next hid =>
      subst hid
      simp [Tree.awaited, hendpoint, Endpoint.expireIn]
    · rfl
  | some endpoint =>
    rw [expireAt_eq hendpoint, Tree.awaited, (alike_tellExpired _ _ _).endpoint?, tree_withTree]
    split
    · next hid =>
      subst hid
      rw [Tree.endpoint?_setEndpoint_self hendpoint, Tree.awaited_of_endpoint? hendpoint]
      rfl
    · next hid => rw [Tree.endpoint?_setEndpoint_of_ne hid, Tree.awaited]

/-- Ending the overdue waits of some entries takes the overdue rows out of their tables. -/
theorem awaited_foldl_expireAt (now id : Nat) {ids : List Nat} (nodup : ids.Nodup) (site : Site M) :
    (ids.foldl (expireAt now) site).tree.awaited id
      = if id ∈ ids then (Endpoint.expireIn now (site.tree.awaited id)).2
        else site.tree.awaited id := by
  induction ids generalizing site with
  | nil => rfl
  | cons first rest ih =>
    obtain ⟨hfresh, hrest⟩ := List.nodup_cons.1 nodup
    rw [List.foldl_cons, ih hrest, awaited_expireAt]
    by_cases hid : first = id
    · subst hid
      simp [hfresh]
    · simp [hid, Ne.symm hid]

/-- Ending all overdue waits takes the overdue rows out of all tables. -/
theorem awaited_expire (now : Nat) (site : Site M) (id : Nat) :
    (site.forEntries (expireAt now)).tree.awaited id
      = (Endpoint.expireIn now (site.tree.awaited id)).2 := by
  rw [forEntries, awaited_foldl_expireAt now id List.nodup_range]
  split
  · rfl
  · next hout =>
    rw [Tree.awaited_eq_nil (Nat.le_of_not_lt fun hlt => hout (List.mem_range.2 hlt))]
    simp [Endpoint.expireIn]

/-- After all overdue waits have ended, an entry awaits what it did that is not overdue. -/
theorem mem_awaited_expire {now id : Nat} {site : Site M} {row : Pending} :
    row ∈ (site.forEntries (expireAt now)).tree.awaited id
      ↔ row ∈ site.tree.awaited id ∧ now < row.deadline := by
  rw [awaited_expire, Endpoint.mem_expireIn]

/-- Whoever is told when overdue waits end is told of nothing but a timeout. -/
theorem tellings_expire (tag : String) (now : Nat) (ids : List Nat) (site : Site M) :
    ∃ count, (ids.foldl (expireAt now) site).tellings tag
      = site.tellings tag ++ List.replicate count (.timeout, Params.empty) := by
  induction ids generalizing site with
  | nil => exact ⟨0, by simp⟩
  | cons id rest ih =>
    obtain ⟨later, hlater⟩ := ih (expireAt now site id)
    cases hendpoint : site.tree.endpoint? id with
    | none =>
      refine ⟨later, hlater.trans ?_⟩
      rw [expireAt_eq_self hendpoint]
    | some endpoint =>
      rw [expireAt_eq hendpoint, tellings_tellExpired] at hlater
      refine ⟨(endpoint.takeExpired now).1.countP (Pending.isOwed tag) + later, ?_⟩
      rw [List.foldl_cons, expireAt_eq hendpoint, hlater, List.append_assoc,
        List.replicate_append_replicate]
      rfl

/-- A tick pays all debts to a caller that are due by then, each with a timeout, and does so before
anything that waits at a socket is read. -/
theorem tick_pays {tag : String} {now : Nat} {site : Site M}
    (due : ∀ row ∈ site.tree.waiting, row.isOwed tag → row.deadline ≤ now) :
    (site.tick now).tree.owed tag = 0 ∧ (site.tick now).tellings tag
      = site.tellings tag ++ List.replicate (site.tree.owed tag) (.timeout, Params.empty) := by
  have hexpire : Keeps tag site (site.forEntries (expireAt now)) :=
    .of_changes (changes_forEntries (fun site id => .single (.expire site now id)) site)
  have hrest : Keeps tag (site.forEntries (expireAt now)) (site.tick now) :=
    .of_changes ((changes_forEntries (changes_provisionAt now) _).trans
      (changes_forEntries (changes_pollAt now) _))
  have hnone : ∀ row ∈ (site.forEntries (expireAt now)).tree.waiting, ¬row.isOwed tag :=
    fun row hrow howed => by
      obtain ⟨id, hid⟩ := Tree.mem_waiting.1 hrow
      exact Nat.not_lt_of_le (due row (hexpire.rows row hrow howed) howed)
        (mem_awaited_expire.1 hid).2
  have hpaid : (site.forEntries (expireAt now)).tree.owed tag = 0 :=
    List.countP_eq_zero.2 hnone
  have hclear : (site.tick now).tree.owed tag = 0 :=
    List.countP_eq_zero.2 fun row hrow howed => hnone row (hrest.rows row hrow howed) howed
  refine ⟨hclear, ?_⟩
  obtain ⟨count, hcount⟩ := tellings_expire tag now (List.range site.tree.size) site
  have htotal := hexpire.total
  have hlength := hrest.total
  have hprefix : (site.forEntries (expireAt now)).tellings tag <+: (site.tick now).tellings tag :=
    hrest.log.filterMap _
  rw [hpaid, hclear] at hlength
  rw [← hprefix.eq_of_length (by omega)]
  rw [forEntries] at htotal hpaid ⊢
  rw [hpaid, hcount, List.length_append, List.length_replicate] at htotal
  have hsame : count = site.tree.owed tag := by omega
  rw [hcount, hsame]

/-! ## Every caller is told once -/

/-- Where nobody has handed over the caller, it is owed nothing and has been told nothing. -/
theorem total_run_start {tag : String} {before : List (Move M)}
    (other : ∀ move ∈ before, ¬move.hands tag) (timeout : Nat) (pool : Pool) (medium : M) :
    ((start timeout pool medium).run before).tree.owed tag
      + (((start timeout pool medium).run before).tellings tag).length = 0 :=
  (Keeps.of_run other (start timeout pool medium)).total

/-- An accepted request is one debt more to its caller, due when the waiting time is over. -/
theorem execute_owes {site issued : Site M} {node : Nat} {method path tag : String}
    {params : Params} {now : Nat} {id : UInt16}
    (accepted : site.execute node method path params now tag = .ok (id, issued)) :
    issued.tree.owed tag + (issued.tellings tag).length
        = site.tree.owed tag + (site.tellings tag).length + 1 ∧
      ∀ row ∈ issued.tree.waiting, row.isOwed tag →
        row ∈ site.tree.waiting ∨ row.deadline = now + site.tree.timeout := by
  obtain ⟨_, request, old, new, _, _, there, begun, rfl⟩ := execute_eq_ok accepted
  obtain ⟨_, _, hnew⟩ := Endpoint.beginRequest_eq_ok begun
  obtain ⟨others, hbefore, hafter⟩ := Tree.waiting_setEndpoint there
  have hwaiting : (site.tree.setEndpoint node new).waiting.Perm
      (old.pending ++ [⟨id, now + site.tree.timeout, .caller tag⟩] ++ others) := by
    rw [hnew]
    exact hafter _
  have hroute : Keeps tag (site.withTree (site.tree.setEndpoint node new)) _ :=
    .of_changes (changes_route _ (.up node { request with id }))
  constructor
  · rw [hroute.total, tree_withTree, Tree.owed, Tree.owed, hwaiting.countP_eq, hbefore.countP_eq]
    simp only [List.countP_append, List.countP_singleton, tellings, log_withTree, Pending.isOwed,
      decide_true, if_true]
    omega
  · intro row hrow howed
    have hrows := hwaiting.mem_iff.1 (hroute.rows row hrow howed)
    simp only [List.mem_append, List.mem_singleton] at hrows
    rcases hrows with (hold | rfl) | hother
    · exact .inl (hbefore.mem_iff.2 (List.mem_append_left _ hold))
    · exact .inr rfl
    · exact .inl (hbefore.mem_iff.2 (List.mem_append_right _ hother))

/-- The first accepted request of a caller is its only debt. -/
theorem owed_execute {site issued : Site M} {node : Nat} {method path tag : String}
    {params : Params} {now : Nat} {id : UInt16} (fresh : site.tree.owed tag = 0)
    (accepted : site.execute node method path params now tag = .ok (id, issued)) :
    issued.tree.owed tag + (issued.tellings tag).length = (site.tellings tag).length + 1 ∧
      ∀ row ∈ issued.tree.waiting, row.isOwed tag → row.deadline ≤ now + site.tree.timeout := by
  obtain ⟨htotal, hrows⟩ := execute_owes accepted
  refine ⟨by rwa [fresh, Nat.zero_add] at htotal, fun row hrow howed => ?_⟩
  refine (hrows row hrow howed).elim (fun hold => ?_) Nat.le_of_eq
  exact absurd howed (List.countP_eq_zero.1 fresh row hold)

/-- The time that requests wait is the same all along a run. -/
theorem timeout_run (moves : List (Move M)) (site : Site M) :
    (site.run moves).tree.timeout = site.tree.timeout := by
  induction moves generalizing site with
  | nil => rfl
  | cons move rest ih => exact (ih (site.move move)).trans (timeout_move site move)

/-- Issuing a request in place is what a site performs. -/
theorem perform_execute (site : Site M) (node : Nat) (method path : String) (params : Params)
    (now : Nat) (tag : String) :
    match (issue node method path params now tag).run site with
    | .ok id issued => site.execute node method path params now tag = .ok (id, issued) ∧
        site.perform (.execute node method path params now tag) = (.ok (), issued)
    | .error e left => left = site ∧
        site.perform (.execute node method path params now tag) = (.error e, left) := by
  rw [run_issue]
  cases hexecute : site.execute node method path params now tag with
  | error e => exact ⟨rfl, by simp only [perform, hexecute]⟩
  | ok issued => exact ⟨rfl, by simp only [perform, hexecute]⟩

/-- Wherever a run has led, and whatever follows: a caller whose request is refused is never told
anything, and what was written until then has left the whole site as it was. A caller whose request
is accepted is told at most once; once a tick has come at which its waiting time is over it has been
told exactly once, and if that tick is what it had to wait for, it is told there of a timeout without
output. The tag stands for the caller of this one request. -/
theorem caller_told_exactly_once {timeout : Nat} {pool : Pool} {medium : M}
    {before after : List (Move M)} {site asked : Site M} {node : Nat} {method path tag : String}
    {params : Params} {now : Nat}
    (reached : (start timeout pool medium).run before = site)
    (own : ∀ move ∈ before ++ after, ¬move.hands tag) :
    (∀ e, (issue node method path params now tag).run site = .error e asked →
      site.perform (.execute node method path params now tag) = (.error e, asked) ∧
        asked = site ∧ (asked.run after).tellings tag = []) ∧
      ∀ id, (issue node method path params now tag).run site = .ok id asked →
        site.perform (.execute node method path params now tag) = (.ok (), asked) ∧
        ((asked.run after).tellings tag).length ≤ 1 ∧
        ∀ first later due, after = first ++ .call (.tick due) :: later → now + timeout ≤ due →
          ((asked.run after).tellings tag).length = 1 ∧
          ((asked.run first).tellings tag = [] →
            ((asked.run first).tick due).tellings tag = [(.timeout, Params.empty)]) := by
  have hbefore : ∀ move ∈ before, ¬move.hands tag :=
    fun move h => own move (List.mem_append_left after h)
  have hafter : ∀ move ∈ after, ¬move.hands tag :=
    fun move h => own move (List.mem_append_right before h)
  have hzero := total_run_start hbefore timeout pool medium
  rw [reached] at hzero
  have htimeout : site.tree.timeout = timeout := reached ▸ timeout_run before _
  have hperform := site.perform_execute node method path params now tag
  refine ⟨fun e refused => ?_, fun id accepted => ?_⟩
  · simp only [refused] at hperform
    obtain ⟨rfl, hperform⟩ := hperform
    have hrun := (Keeps.of_run hafter asked).total
    exact ⟨hperform, rfl, List.eq_nil_of_length_eq_zero (by omega)⟩
  · simp only [accepted] at hperform
    obtain ⟨hexecute, hperform⟩ := hperform
    have huntold : site.tellings tag = [] := List.eq_nil_of_length_eq_zero (by omega)
    obtain ⟨hissued, hdue⟩ := owed_execute (by omega) hexecute
    rw [huntold, List.length_nil, Nat.zero_add] at hissued
    have hrun := (Keeps.of_run hafter asked).total
    refine ⟨hperform, by omega, ?_⟩
    rintro first later due rfl hover
    have hfirst := Keeps.of_run (fun move h => hafter move (List.mem_append_left _ h)) asked
    have hlater := Keeps.of_run
      (fun move h => hafter move (List.mem_append_right first (List.mem_cons_of_mem _ h)))
      ((asked.run first).tick due)
    have hoverdue : ∀ row ∈ (asked.run first).tree.waiting, row.isOwed tag →
        row.deadline ≤ due := fun row hrow howed =>
      Nat.le_trans (hdue row (hfirst.rows row hrow howed) howed) (by omega)
    obtain ⟨hpaid, htold⟩ := tick_pays hoverdue
    have htick : Keeps tag (asked.run first) ((asked.run first).tick due) :=
      .of_changes (changes_tick _ due)
    have hsplit : asked.run (first ++ .call (.tick due) :: later)
        = ((asked.run first).tick due).run later := run_append asked first _
    refine ⟨?_, fun hwaits => ?_⟩
    · have hgrow := (hlater.log.filterMap (Event.telling? tag)).length_le
      have hone := htick.total
      have hall := hfirst.total
      rw [hsplit]
      rw [hsplit] at hrun
      simp only [tellings] at *
      omega
    · have hone := hfirst.total
      rw [hwaits, hissued] at hone
      rw [htold, hwaits, show (asked.run first).tree.owed tag = 1 from hone]
      rfl

/-- The moves that build a local root behind a link on which nobody answers. -/
def buildAlone : List (Move Cabling) :=
  [.call (.build (.addDownlink "wire" "lamp" 10))]

/-- A local root behind a link on which nobody answers. -/
def alone : Site Cabling :=
  (start 5 (Pool.ofSize 1) Cabling.empty).run buildAlone

/-- A request across a link on which nobody answers ends in a timeout at the first tick that is not
too early, and in nothing else before or after. One whose method has too long a name is refused. -/
theorem unanswered_times_out :
    let asked := (alone.perform (.execute 1 "on" "~/../desk" Params.empty 3 "caller")).2
    let later : List (Move Cabling) := [.call (.tick 7), .call (.tick 8), .call (.tick 20)]
    ((asked.run later).tellings "caller").length = 1 ∧
      ((asked.run [.call (.tick 7)]).tick 8).tellings "caller" = [(.timeout, Params.empty)] ∧
      ∃ e left,
        (issue 1 "a name that no method has" "~" Params.empty 3 "caller").run alone = .error e left ∧
        left = alone ∧ (left.run later).tellings "caller" = [] := by
  intro asked later
  have own : ∀ move ∈ buildAlone ++ later, ¬move.hands "caller" := by
    intro move hmove
    simp only [buildAlone, later, List.cons_append, List.nil_append, List.mem_cons,
      List.not_mem_nil, or_false] at hmove
    rcases hmove with rfl | rfl | rfl | rfl <;> exact id
  have hissued : (issue 1 "on" "~/../desk" Params.empty 3 "caller").run alone = .ok 1 asked := by
    rw [run_issue]
    rfl
  have hrefused : (issue 1 "a name that no method has" "~" Params.empty 3 "caller").run alone
      = .error (.nameTooLong 25 maxMethodName) alone := by
    rw [run_issue]
    rfl
  obtain ⟨-, haccepted⟩ := caller_told_exactly_once (Eq.refl alone) own
  obtain ⟨-, -, hover⟩ := haccepted 1 hissued
  obtain ⟨hone, htimeout⟩ := hover [.call (.tick 7)] [.call (.tick 20)] 8 rfl (by decide)
  obtain ⟨herror, -⟩ := caller_told_exactly_once (Eq.refl alone) own
  obtain ⟨-, hsame, huntold⟩ := herror _ hrefused
  exact ⟨hone, htimeout (by decide +kernel), _, _, hrefused, hsame, huntold⟩

end Site
end TopicTree
