import TopicTree.Proofs.Site.Lasting
import TopicTree.Proofs.Site.Ledger
import TopicTree.Proofs.Site.Slots
import TopicTree.Proofs.Site.Waits

/-!
# Callers of one node

Let all callers ask at one node, under one tag. Then the table of that node holds the debts to them
and nothing else, no other table holds any, and nobody is told but they. So what they are owed can be
read off one table, and what they have been told off the whole log.
-/

namespace TopicTree

/-- Who may wait at an entry if callers ask at one place only, all under one tag. -/
def Requester.MayWait (tag : String) (place id : Nat) : Requester → Prop
  | .caller other => id = place ∧ other = tag
  | .client _ => id ≠ place

/-- Whether a call is not a request, or one made at a given place under a given tag. -/
def Call.AsksAt (tag : String) (place : Nat) : Call → Prop
  | .execute node _ _ _ _ other => node = place ∧ other = tag
  | _ => True

/-- Whether a step is not a request, or one made at a given place under a given tag. -/
def RunStep.AsksAt {M : Type} (tag : String) (place : Nat) : RunStep M → Prop
  | .execute node _ _ _ _ other => node = place ∧ other = tag
  | _ => True

/-- A tree whose callers ask at one node, all under one tag. -/
structure Tree.AsksAt (tag : String) (place : Nat) (tree : Tree) : Prop where
  node : tree.form? place = some .node
  waits : ∀ id, ∀ row ∈ tree.awaited id, row.requester.MayWait tag place id

/-! ## Debts in one table -/

namespace Tree.AsksAt

variable {tag : String} {place : Nat} {tree : Tree}

/-- A row is a debt to the callers where they ask and nowhere else. -/
theorem isOwed_iff (h : tree.AsksAt tag place) {id : Nat} {row : Pending}
    (hrow : row ∈ tree.awaited id) : row.isOwed tag ↔ id = place := by
  have hwaits := h.waits id row hrow
  cases hrequester : row.requester with
  | caller other =>
    rw [hrequester] at hwaits
    simp [Pending.isOwed, hrequester, hwaits.1, hwaits.2]
  | client topic =>
    rw [hrequester] at hwaits
    exact iff_of_false (by simp [Pending.isOwed, hrequester]) hwaits

/-- Nobody is owed anything under another tag. -/
theorem owed_of_ne (h : tree.AsksAt tag place) {other : String} (hne : other ≠ tag) :
    tree.owed other = 0 := by
  refine List.countP_eq_zero.2 fun row hrow howed => ?_
  obtain ⟨id, hid⟩ := Tree.mem_waiting.1 hrow
  have hwaits := h.waits id row hid
  rw [of_decide_eq_true howed] at hwaits
  exact hne hwaits.2

/-- The debts are the rows of the table where the callers ask. -/
theorem owed_eq (h : tree.AsksAt tag place) : tree.owed tag = (tree.awaited place).length := by
  obtain ⟨front, back, hrange⟩ :=
    List.append_of_mem (List.mem_range.2 (lt_size_of_form? h.node))
  have hnodup : (front ++ place :: back).Nodup := hrange ▸ List.nodup_range
  have hfresh : place ∉ front ++ back := (List.nodup_cons.1 (List.nodup_middle.1 hnodup)).1
  rw [List.mem_append, not_or] at hfresh
  have hnone : ∀ ids : List Nat, place ∉ ids →
      (ids.flatMap tree.awaited).countP (Pending.isOwed tag) = 0 := by
    refine fun ids hids => List.countP_eq_zero.2 fun row hrow howed => ?_
    obtain ⟨id, hid, hawaited⟩ := List.mem_flatMap.1 hrow
    exact hids ((h.isOwed_iff hawaited).1 howed ▸ hid)
  have hall : (tree.awaited place).countP (Pending.isOwed tag) = (tree.awaited place).length :=
    List.countP_eq_length.2 fun row hrow => (h.isOwed_iff hrow).2 rfl
  rw [owed, waiting, hrange, List.flatMap_append, List.flatMap_cons, List.countP_append,
    List.countP_append, hnone front hfresh.1, hnone back hfresh.2, hall, Nat.zero_add, Nat.add_zero]

end Tree.AsksAt

namespace Site

variable {M : Type} [Medium M] {tag : String} {place : Nat} {site : Site M}

/-! ## Steps and calls -/

/-- A step at which no caller asks elsewhere keeps the callers where they are. -/
theorem asksAt_take (h : site.tree.AsksAt tag place) {step : RunStep M}
    (own : step.AsksAt tag place) : (site.take step).tree.AsksAt tag place where
  node := (lasts_take site step).form?_eq h.node
  waits id row hrow := by
    have callers : ∀ node method path params now other,
        step = .execute node method path params now other → node = id →
        (Requester.caller other).MayWait tag place id := by
      rintro node method path params now other rfl rfl
      exact own
    have clients : ∀ now bridge target payload, step = .poll now id →
        site.Receives id bridge target payload →
        (Requester.client ("<-" ++ target)).MayWait tag place id := by
      rintro now bridge target payload - receives rfl
      obtain ⟨frame, publish, hheard, -⟩ := receives.heard
      have hbridge := Tree.form?_of_bridge? (heard?_eq_some hheard).1
      rw [h.node] at hbridge
      cases hbridge
    rcases minds_take site step callers clients with same | minds
    · exact h.waits id row (same ▸ hrow)
    · exact (minds.asked row hrow).elim (h.waits id row) (fun asks => asks)

/-- Steps at which no caller asks elsewhere keep the callers where they are. -/
theorem asksAt_follow {steps : List (RunStep M)} (h : site.tree.AsksAt tag place)
    (own : ∀ step ∈ steps, step.AsksAt tag place) :
    (site.follow steps).tree.AsksAt tag place := by
  induction steps generalizing site with
  | nil => exact h
  | cons step steps ih =>
    obtain ⟨hstep, hsteps⟩ := List.forall_mem_cons.1 own
    exact ih (asksAt_take h hstep) hsteps

/-- A call with which no caller asks elsewhere keeps the callers where they are. -/
theorem asksAt_perform {call : Call} (h : site.tree.AsksAt tag place)
    (own : call.AsksAt tag place) : (site.perform call).2.tree.AsksAt tag place := by
  have hfollow : site.follow ((Move.call call).steps site.tree.size) = (site.perform call).2 :=
    follow_steps site (.call call)
  rw [← hfollow]
  refine asksAt_follow h fun step hstep => ?_
  cases call with
  | tick now =>
    simp only [Move.steps, List.mem_append, List.mem_map] at hstep
    rcases hstep with (⟨id, -, rfl⟩ | ⟨id, -, rfl⟩) | ⟨id, -, rfl⟩ <;> trivial
  | _ =>
    rw [List.mem_singleton.1 hstep]
    exact own

/-- Nobody else is told in a call with which no caller asks elsewhere. -/
theorem eq_tag_of_replied {call : Call} (h : site.tree.AsksAt tag place)
    (own : call.AsksAt tag place) (fresh : site.log = []) {other : String} {code : ReturnCode}
    {params : Params} (told : .replied other code params ∈ (site.perform call).2.log) :
    other = tag := by
  by_contra hne
  have hhands : ¬(Move.call call : Move M).hands other := by
    cases call with
    | execute node method path params now own' => exact fun heq => hne (heq.symm.trans own.2)
    | _ => exact fun hfalse => hfalse
  have htotal : (site.perform call).2.tree.owed other
      + ((site.perform call).2.tellings other).length
      = site.tree.owed other + (site.tellings other).length := (Keeps.of_move hhands).total
  have hnone : (site.tellings other).length = 0 := by rw [tellings, fresh]; rfl
  have hsome : 0 < ((site.perform call).2.tellings other).length :=
    List.length_pos_of_mem (List.mem_filterMap.2 ⟨_, told, if_pos rfl⟩)
  rw [h.owed_of_ne hne, hnone] at htotal
  omega

end Site
end TopicTree
