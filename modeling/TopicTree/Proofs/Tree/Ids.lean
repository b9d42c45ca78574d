import Mathlib.Data.List.Nodup
import TopicTree.Proofs.Tree.Pending

/-!
# The ids of awaited requests

All that happens to one endpoint is a run of a few acts: requests begin and end, ids are given out
to notifications, methods are called and put on offer. Along every such run the ids in use are
different, none is 0, and they are few.

An id comes up again only after a whole lap of the counter. On a lap from one id back to itself the
counter meets every number once, and it passes over a number only if that is 0 or was in use when
the lap began: an id given out on the lap lies behind the counter. So but for three numbers all of
them are given out before the id is.
-/

namespace TopicTree

namespace Endpoint

/-! ## Acts -/

/-- One thing that happens to an endpoint. -/
inductive Act
  /-- A request begins. -/
  | begin (method : String) (deadline : Nat) (requester : Requester)
  /-- An id is given out to a notification. -/
  | number
  /-- A response comes in. -/
  | settle (id : UInt16)
  /-- Overdue waits end. -/
  | expire (now : Nat)
  /-- A method is called. -/
  | call (method : String) (params : Params)
  /-- A method is put on offer. -/
  | offer (name : String) (handler : Handler)

/-- What an act leaves, and the id that it gives out if it does. A refused act leaves all as it
was. -/
def act (endpoint : Endpoint) : Act → Option UInt16 × Endpoint
  | .begin method deadline requester =>
    match endpoint.beginRequest method deadline requester with
    | .ok (id, after) => (some id, after)
    | .error _ => (none, endpoint)
  | .number => (some endpoint.allocateId.1, endpoint.allocateId.2)
  | .settle id => (none, ((endpoint.settle? id).map Prod.snd).getD endpoint)
  | .expire now => (none, (endpoint.takeExpired now).2)
  | .call method params => (none, ((endpoint.call? method params).map Prod.snd).getD endpoint)
  | .offer name handler => (none, (endpoint.addMethod name handler).toOption.getD endpoint)

/-- The endpoint after acts, one after the other. -/
def run (endpoint : Endpoint) (acts : List Act) : Endpoint :=
  acts.foldl (fun endpoint act => (endpoint.act act).2) endpoint

/-- The ids that acts give out, in order. -/
def given (endpoint : Endpoint) : List Act → List UInt16
  | [] => []
  | act :: acts => (endpoint.act act).1.toList ++ (endpoint.act act).2.given acts

/-- Acts in two parts follow each other. -/
theorem run_append (endpoint : Endpoint) (first second : List Act) :
    endpoint.run (first ++ second) = (endpoint.run first).run second :=
  List.foldl_append

/-- The ids given out by acts in two parts follow each other. -/
theorem given_append (endpoint : Endpoint) (first second : List Act) :
    endpoint.given (first ++ second)
      = endpoint.given first ++ (endpoint.run first).given second := by
  induction first generalizing endpoint with
  | nil => rfl
  | cons act rest ih =>
    simp only [List.cons_append, given, ih, List.append_assoc, run, List.foldl_cons]

/-! ## Sound tables -/

/-- A table whose ids tell its few rows apart, and none of which is 0. -/
structure Sound (endpoint : Endpoint) : Prop where
  nodup : endpoint.usedIds.Nodup
  zero : 0 ∉ endpoint.usedIds
  room : endpoint.pending.length ≤ maxPending

/-- Nothing is awaited at first. -/
theorem Sound.empty : Endpoint.empty.Sound :=
  ⟨List.nodup_nil, List.not_mem_nil, Nat.zero_le _⟩

/-- A table that only lost rows is still sound. -/
theorem Sound.of_perm {before after : Endpoint} (h : before.Sound) (taken : List Pending)
    (rows : before.pending.Perm (taken ++ after.pending)) : after.Sound := by
  have hids : before.usedIds.Perm (taken.map (·.id) ++ after.usedIds) := by
    simpa [usedIds] using rows.map (·.id)
  refine ⟨(List.nodup_append.1 (hids.nodup_iff.1 h.nodup)).2.1, fun hzero => ?_, ?_⟩
  · exact h.zero (hids.mem_iff.2 (List.mem_append_right _ hzero))
  · have hlength := rows.length_eq
    have hroom := h.room
    rw [List.length_append] at hlength
    omega

/-- A row of a sound table is the one that is taken under its id. -/
theorem Sound.exists_settle? {endpoint : Endpoint} (h : endpoint.Sound) {row : Pending}
    (mem : row ∈ endpoint.pending) : ∃ after, endpoint.settle? row.id = some (row, after) :=
  Endpoint.exists_settle? mem fun _ other => List.inj_on_of_nodup_map h.nodup other mem

/-- A table with room is still sound with one more row, under the id given out next. -/
theorem Sound.concat {before after : Endpoint} (h : before.Sound) {row : Pending}
    (room : before.pending.length < maxPending) (next : row.id = before.allocateId.1)
    (rows : after.pending = before.pending ++ [row]) : after.Sound := by
  obtain ⟨hzero, hfresh⟩ := allocateId_fresh (Nat.le_of_lt room)
  have hids : after.usedIds = before.usedIds ++ [before.allocateId.1] := by
    simp [usedIds, rows, next]
  refine ⟨?_, ?_, ?_⟩
  · rw [hids, (List.perm_append_singleton _ _).nodup_iff]
    exact List.nodup_cons.2 ⟨hfresh, h.nodup⟩
  · rw [hids, List.mem_append, List.mem_singleton]
    rintro (hold | hnew)
    · exact h.zero hold
    · exact hzero hnew.symm
  · rw [rows, List.length_append]
    exact room

/-- What an act does to the table and the counter. -/
inductive Effect (endpoint : Endpoint) : Option UInt16 → Endpoint → Prop
  /-- The next free id is given out, and may be that of a new row. -/
  | gives {after : Endpoint} (last : after.lastId = endpoint.allocateId.1)
      (rows : after.pending = endpoint.pending ∨ endpoint.pending.length < maxPending ∧
        ∃ row : Pending, row.id = endpoint.allocateId.1 ∧
          after.pending = endpoint.pending ++ [row]) :
      Effect endpoint (some endpoint.allocateId.1) after
  /-- Rows are taken, or none is. -/
  | takes {after : Endpoint} (taken : List Pending) (last : after.lastId = endpoint.lastId)
      (rows : endpoint.pending.Perm (taken ++ after.pending)) : Effect endpoint none after

/-- An endpoint with the same rows and the same counter. -/
theorem Effect.same {endpoint after : Endpoint} (last : after.lastId = endpoint.lastId)
    (rows : after.pending = endpoint.pending) : Effect endpoint none after :=
  .takes [] last (by rw [rows, List.nil_append])

/-- An act gives out the next free id, or takes rows. -/
theorem effect_act (endpoint : Endpoint) (act : Act) :
    Effect endpoint (endpoint.act act).1 (endpoint.act act).2 := by
  cases act with
  | begin method deadline requester =>
    cases hbegin : endpoint.beginRequest method deadline requester with
    | error e =>
      simp only [Endpoint.act, hbegin]
      exact .same rfl rfl
    | ok result =>
      obtain ⟨id, after⟩ := result
      simp only [Endpoint.act, hbegin]
      simp only [beginRequest, error_bind, check_eq_ok, bind_eq_ok, pure_eq_ok,
        Prod.mk.injEq] at hbegin
      obtain ⟨hroom, _, _, rfl, rfl⟩ := hbegin
      exact .gives rfl (.inr ⟨Nat.lt_of_not_le hroom, _, rfl, rfl⟩)
  | number => exact .gives rfl (.inl rfl)
  | settle id =>
    cases hsettle : endpoint.settle? id with
    | none =>
      simp only [Endpoint.act, hsettle]
      exact .same rfl rfl
    | some found =>
      obtain ⟨row, after⟩ := found
      simp only [Endpoint.act, hsettle]
      refine .takes [row] ?_ (settle?_eq_some hsettle).2
      obtain ⟨_, _, heq⟩ := Option.map_eq_some_iff.1 hsettle
      cases heq
      rfl
  | expire now => exact .takes _ rfl (expireIn_perm now endpoint.pending)
  | call method params =>
    cases hcall : endpoint.call? method params with
    | none =>
      simp only [Endpoint.act, hcall]
      exact .same rfl rfl
    | some result =>
      obtain ⟨_, _, heq⟩ := Option.map_eq_some_iff.1 hcall
      cases heq
      simp only [Endpoint.act, hcall]
      exact .same rfl rfl
  | offer name handler =>
    cases hoffer : endpoint.addMethod name handler with
    | error e =>
      simp only [Endpoint.act, hoffer]
      exact .same rfl rfl
    | ok after =>
      simp only [Endpoint.act, hoffer]
      simp only [addMethod, error_bind, check_eq_ok, bind_eq_ok, pure_eq_ok] at hoffer
      obtain ⟨_, _, _, _, _, rfl⟩ := hoffer
      exact .same rfl rfl

/-- An act keeps a sound table sound. -/
theorem Effect.sound {endpoint after : Endpoint} {out : Option UInt16}
    (h : Effect endpoint out after) (sound : endpoint.Sound) : after.Sound := by
  cases h with
  | gives last rows =>
    rcases rows with rows | ⟨room, row, next, rows⟩
    · exact sound.of_perm [] (by rw [rows, List.nil_append])
    · exact sound.concat room next rows
  | takes taken last rows => exact sound.of_perm taken rows

/-- An id in use after an act was so before, or has just been given out. -/
theorem Effect.mem_usedIds {endpoint after : Endpoint} {out : Option UInt16}
    (h : Effect endpoint out after) {id : UInt16} (used : id ∈ after.usedIds) :
    id ∈ endpoint.usedIds ∨ out = some id := by
  obtain ⟨found, hfound, rfl⟩ := List.mem_map.1 used
  cases h with
  | gives last rows =>
    rcases rows with rows | ⟨_, row, next, rows⟩
    · exact .inl (List.mem_map_of_mem (rows ▸ hfound))
    · rw [rows] at hfound
      rcases List.mem_append.1 hfound with hold | hnew
      · exact .inl (List.mem_map_of_mem hold)
      · rw [List.mem_singleton.1 hnew, next]
        exact .inr rfl
  | takes taken last rows =>
    exact .inl (List.mem_map_of_mem (rows.mem_iff.2 (List.mem_append_right _ hfound)))

/-- A sound table stays sound along every run. -/
theorem Sound.run {endpoint : Endpoint} (h : endpoint.Sound) (acts : List Act) :
    (endpoint.run acts).Sound := by
  induction acts generalizing endpoint with
  | nil => exact h
  | cons act rest ih => exact ih ((endpoint.effect_act act).sound h)

/-- An id in use after a run was in use before or has been given out. -/
theorem mem_usedIds_run {endpoint : Endpoint} {acts : List Act} {id : UInt16}
    (h : id ∈ (endpoint.run acts).usedIds) : id ∈ endpoint.usedIds ∨ id ∈ endpoint.given acts := by
  induction acts generalizing endpoint with
  | nil => exact .inl h
  | cons act rest ih =>
    rcases ih h with hused | hgiven
    · rcases (endpoint.effect_act act).mem_usedIds hused with hold | hout
      · exact .inl hold
      · exact .inr (by simp [given, hout])
    · exact .inr (List.mem_append_right _ hgiven)

/-- An endpoint that some acts lead to from an empty one. -/
def Grown (endpoint : Endpoint) : Prop :=
  ∃ acts, empty.run acts = endpoint

/-- More acts lead further. -/
theorem Grown.run {endpoint : Endpoint} (h : endpoint.Grown) (acts : List Act) :
    (endpoint.run acts).Grown := by
  obtain ⟨earlier, rfl⟩ := h
  exact ⟨earlier ++ acts, run_append empty earlier acts⟩

/-- An endpoint that has come about by acts has a sound table. -/
theorem Grown.sound {endpoint : Endpoint} (h : endpoint.Grown) : endpoint.Sound := by
  obtain ⟨acts, rfl⟩ := h
  exact Sound.empty.run acts

/-! ## The search for an id -/

/-- The search for a free id, without a bound on its steps: it steps to the next number until that
is neither 0 nor in use. -/
inductive Finds (used : List UInt16) : UInt16 → Nat → UInt16 → Prop
  | here {last : UInt16} (free : last + 1 ≠ 0 ∧ last + 1 ∉ used) : Finds used last 1 (last + 1)
  | on {last id : UInt16} {steps : Nat} (taken : last + 1 ∈ 0 :: used)
      (rest : Finds used (last + 1) steps id) : Finds used last (steps + 1) id

/-- A bounded search that comes to an end is a search within its bound. -/
theorem finds_of_searchId {used : List UInt16} {tries : Nat} {last id : UInt16}
    (h : searchId used tries last = some id) : ∃ steps ≤ tries, Finds used last steps id := by
  induction tries generalizing last with
  | zero => cases h
  | succ tries ih =>
    unfold searchId at h
    split at h
    · next hfree =>
      cases h
      exact ⟨1, by omega, .here hfree⟩
    · next htaken =>
      obtain ⟨steps, hsteps, hfinds⟩ := ih h
      refine ⟨steps + 1, by omega, .on ?_ hfinds⟩
      rw [List.mem_cons]
      rcases Decidable.not_and_iff_or_not.1 htaken with hzero | hused
      · exact .inl (Decidable.not_not.1 hzero)
      · exact .inr (Decidable.not_not.1 hused)

/-- Giving out an id is searching for one, and few steps are enough. -/
theorem finds_allocateId {endpoint : Endpoint} (room : endpoint.pending.length ≤ maxPending) :
    ∃ steps ≤ endpoint.pending.length + 2,
      Finds endpoint.usedIds endpoint.lastId steps endpoint.allocateId.1 := by
  have hlength : endpoint.pending.length = endpoint.usedIds.length := by simp [usedIds]
  have few : endpoint.usedIds.length + 2 < UInt16.size := by
    rw [← hlength]
    exact Nat.lt_of_le_of_lt (Nat.add_le_add_right room 2) (by decide)
  obtain ⟨id, hid⟩ := Option.isSome_iff_exists.1 (isSome_searchId few endpoint.lastId)
  simp only [allocateId, hlength, hid, Option.getD_some]
  exact finds_of_searchId hid

/-! ## Laps of the counter -/

/-- How many of the first numbers after `origin` a list has. -/
def passed (origin : UInt16) (blocked : List UInt16) (gone : Nat) : Nat :=
  (List.range gone).countP fun step => origin + UInt16.ofNat (step + 1) ∈ blocked

/-- On less than a lap no more numbers can be passed over than a list has. -/
theorem passed_le (origin : UInt16) (blocked : List UInt16) {gone : Nat}
    (short : gone < UInt16.size) : passed origin blocked gone ≤ blocked.length := by
  let met := (List.range gone).filter fun step => origin + UInt16.ofNat (step + 1) ∈ blocked
  have hnodup : (met.map fun step => origin + UInt16.ofNat (step + 1)).Nodup :=
    (nodup_candidates origin short).sublist (List.filter_sublist.map _)
  have hsubset : (met.map fun step => origin + UInt16.ofNat (step + 1)) ⊆ blocked := by
    intro id hid
    obtain ⟨step, hstep, rfl⟩ := List.mem_map.1 hid
    simpa using (List.mem_filter.1 hstep).2
  have hlength := hnodup.length_le_of_subset hsubset
  rwa [List.length_map, ← List.countP_eq_length_filter] at hlength

/-- A number on the list is one more that is passed over. -/
theorem passed_succ {origin : UInt16} {blocked : List UInt16} {gone : Nat}
    (h : origin + UInt16.ofNat (gone + 1) ∈ blocked) :
    passed origin blocked (gone + 1) = passed origin blocked gone + 1 := by
  rw [passed, List.range_succ, List.countP_append, List.countP_singleton, if_pos (by simpa using h),
    passed]

/-- Any other number is not. -/
theorem passed_le_succ (origin : UInt16) (blocked : List UInt16) (gone : Nat) :
    passed origin blocked gone ≤ passed origin blocked (gone + 1) := by
  simp [passed, List.range_succ]

/-- Numbers less than a lap from an origin are told apart by how far they are. -/
theorem eq_of_ofNat_eq {left right : Nat} {origin : UInt16} (hleft : left < UInt16.size)
    (hright : right < UInt16.size) (h : origin + UInt16.ofNat left = origin + UInt16.ofNat right) :
    left = right := by
  have heq := congrArg UInt16.toNat ((UInt16.add_right_inj origin).1 h)
  rw [UInt16.toNat_ofNat', UInt16.toNat_ofNat'] at heq
  simp only [UInt16.size] at hleft hright
  omega

/-- A lap that began at `origin`, when the numbers on the list `blocked` were not to be given out:
how far the counter has gone, when as many ids have been given out as told. -/
structure Lap (origin : UInt16) (blocked : List UInt16) (out gone : Nat) (last : UInt16)
    (used : List UInt16) : Prop where
  zero : 0 ∈ blocked
  short : gone < UInt16.size
  last : last = origin + UInt16.ofNat gone
  /-- What is in use was so at first or lies behind the counter. -/
  behind : ∀ id ∈ used, id ∈ blocked ∨ ∃ step ≤ gone, id = origin + UInt16.ofNat step
  count : gone ≤ out + passed origin blocked gone

/-- The number after the counter's. -/
theorem succ_eq_ofNat (origin : UInt16) (gone : Nat) :
    origin + UInt16.ofNat gone + 1 = origin + UInt16.ofNat (gone + 1) := by
  rw [UInt16.add_assoc, ← UInt16.ofNat_one, ← UInt16.ofNat_add]

/-- A search on a lap either ends on the lap, at the id that is given out, or completes the lap. By
then all numbers but those on the list have been given out. -/
theorem Finds.lap {origin : UInt16} {blocked used : List UInt16} {out gone steps : Nat}
    {last id : UInt16} (h : Finds used last steps id)
    (lap : Lap origin blocked out gone last used) :
    UInt16.size ≤ out + 1 + blocked.length ∨
      ∃ further, 0 < further ∧ further < UInt16.size ∧ id = origin + UInt16.ofNat further ∧
        gone ≤ further ∧ further ≤ out + 1 + passed origin blocked further := by
  induction h generalizing gone with
  | @here last free =>
    have hnext : last + 1 = origin + UInt16.ofNat (gone + 1) := by
      rw [lap.last, succ_eq_ofNat]
    have hmore := passed_le_succ origin blocked gone
    have hcount := lap.count
    by_cases hshort : gone + 1 < UInt16.size
    · exact .inr ⟨gone + 1, by omega, hshort, hnext, by omega, by omega⟩
    · have hpassed := passed_le origin blocked lap.short
      exact .inl (by omega)
  | @on last id steps taken rest ih =>
    have hnext : last + 1 = origin + UInt16.ofNat (gone + 1) := by
      rw [lap.last, succ_eq_ofNat]
    have hcount := lap.count
    by_cases hshort : gone + 1 < UInt16.size
    · have hblocked : origin + UInt16.ofNat (gone + 1) ∈ blocked := by
        rw [hnext] at taken
        rcases List.mem_cons.1 taken with hzero | hused
        · exact hzero ▸ lap.zero
        · rcases lap.behind _ hused with hlisted | ⟨step, hstep, heq⟩
          · exact hlisted
          · have := eq_of_ofNat_eq hshort (by omega) heq
            omega
      have hpassed := passed_succ hblocked
      have hlap : Lap origin blocked out (gone + 1) (last + 1) used := by
        refine ⟨lap.zero, hshort, hnext, fun id hid => ?_, by omega⟩
        rcases lap.behind id hid with hlisted | ⟨step, hstep, heq⟩
        · exact .inl hlisted
        · exact .inr ⟨step, by omega, heq⟩
      rcases ih hlap with hfull | ⟨further, hpos, hlt, hid, hgone, hbound⟩
      · exact .inl hfull
      · exact .inr ⟨further, hpos, hlt, hid, by omega, hbound⟩
    · have hpassed := passed_le origin blocked lap.short
      exact .inl (by omega)

/-- On a run from somewhere on a lap, the id that the lap began at is not given out before all
numbers but those on the list have been. -/
theorem Lap.out_of_given {origin : UInt16} {blocked : List UInt16} {out gone : Nat}
    {endpoint : Endpoint} (sound : endpoint.Sound)
    (lap : Lap origin blocked out gone endpoint.lastId endpoint.usedIds) {acts : List Act}
    {index : Nat} (h : (endpoint.given acts)[index]? = some origin) :
    UInt16.size ≤ out + index + 1 + blocked.length := by
  induction acts generalizing endpoint out gone index with
  | nil => simp [given] at h
  | cons act rest ih =>
    have heffect := endpoint.effect_act act
    have hsound := heffect.sound sound
    have hused := fun id (h : id ∈ (endpoint.act act).2.usedIds) => heffect.mem_usedIds h
    rw [given] at h
    generalize endpoint.act act = result at *
    obtain ⟨given, after⟩ := result
    cases heffect with
    | gives last =>
      obtain ⟨steps, _, hfinds⟩ := finds_allocateId sound.room
      rcases hfinds.lap lap with hfull | ⟨further, hpos, hlt, hid, hgone, hbound⟩
      · omega
      · rw [Option.toList_some, List.singleton_append] at h
        cases index with
        | zero =>
          have hsame : origin + UInt16.ofNat further = origin + UInt16.ofNat 0 := by
            rw [← hid]
            simpa using h
          have := eq_of_ofNat_eq hlt (by decide) hsame
          omega
        | succ index =>
          have hlap : Lap origin blocked (out + 1) further after.lastId after.usedIds := by
            refine ⟨lap.zero, hlt, last.trans hid, fun id hmem => ?_, hbound⟩
            rcases hused id hmem with hold | hnew
            · rcases lap.behind id hold with hlisted | ⟨step, hstep, heq⟩
              · exact .inl hlisted
              · exact .inr ⟨step, by omega, heq⟩
            · exact .inr ⟨further, Nat.le_refl _, (Option.some.inj hnew).symm.trans hid⟩
          have hrest := ih hsound hlap h
          omega
    | takes taken last =>
      have hlap : Lap origin blocked out gone after.lastId after.usedIds := by
        refine ⟨lap.zero, lap.short, last.trans lap.last, fun id hmem => ?_, lap.count⟩
        exact lap.behind id ((hused id hmem).resolve_right (by simp))
      exact ih hsound hlap h

/-- The least number of ids that are given out from one time that an id is to the next. -/
abbrev reuseDistance : Nat := 65533

/-- When an act has given out an id, a lap begins at it. -/
theorem reuseDistance_le {endpoint : Endpoint} (sound : endpoint.Sound) (act : Act) {id : UInt16}
    (gives : (endpoint.act act).1 = some id) {acts : List Act} {index : Nat}
    (again : ((endpoint.act act).2.given acts)[index]? = some id) : reuseDistance ≤ index + 1 := by
  have heffect := endpoint.effect_act act
  have hsound := heffect.sound sound
  have hused := fun id (h : id ∈ (endpoint.act act).2.usedIds) => heffect.mem_usedIds h
  generalize endpoint.act act = result at *
  obtain ⟨given, after⟩ := result
  cases heffect with
  | gives last =>
    obtain rfl : endpoint.allocateId.1 = id := Option.some.inj gives
    have hlap : Lap endpoint.allocateId.1 (0 :: endpoint.usedIds) 0 0 after.lastId
        after.usedIds := by
      refine ⟨List.mem_cons_self, by decide, by simpa using last, fun id hid => ?_, Nat.zero_le _⟩
      rcases hused id hid with hold | hnew
      · exact .inl (List.mem_cons_of_mem _ hold)
      · exact .inr ⟨0, Nat.le_refl _, by simpa using (Option.some.inj hnew).symm⟩
    have hout := hlap.out_of_given hsound again
    have hroom := sound.room
    simp only [List.length_cons, usedIds, List.length_map, UInt16.size, maxPending] at hout hroom
    simp only [reuseDistance]
    omega
  | takes => cases gives

/-- Two times that an id is given out are far apart. -/
theorem reuseDistance_le_sub {endpoint : Endpoint} (sound : endpoint.Sound) {acts : List Act}
    {first second : Nat} {id : UInt16} (before : first < second)
    (hfirst : (endpoint.given acts)[first]? = some id)
    (hsecond : (endpoint.given acts)[second]? = some id) : first + reuseDistance ≤ second := by
  induction acts generalizing endpoint first second with
  | nil => simp [given] at hfirst
  | cons act rest ih =>
    have hsound := (endpoint.effect_act act).sound sound
    cases hgives : (endpoint.act act).1 with
    | none =>
      simp only [given, hgives, Option.toList_none, List.nil_append] at hfirst hsecond
      exact ih hsound before hfirst hsecond
    | some out =>
      simp only [given, hgives, Option.toList_some, List.singleton_append] at hfirst hsecond
      obtain ⟨second, rfl⟩ : ∃ later, second = later + 1 := ⟨second - 1, by omega⟩
      cases first with
      | zero =>
        obtain rfl : out = id := by simpa using hfirst
        have := reuseDistance_le sound act hgives (by simpa using hsecond)
        omega
      | succ first =>
        rw [List.getElem?_cons_succ] at hfirst hsecond
        have := ih hsound (by omega) hfirst hsecond
        omega

/-- A response to a request that nobody waits for any more ends another wait only if that many ids
have been given out since the request. -/
theorem reuseDistance_le_of_settle? {endpoint begun : Endpoint} (sound : endpoint.Sound)
    {method : String} {deadline : Nat} {requester : Requester} {id : UInt16}
    (begins : endpoint.beginRequest method deadline requester = .ok (id, begun))
    {first second : List Act} (ended : id ∉ (begun.run first).usedIds)
    (settles : ((begun.run (first ++ second)).settle? id).isSome) :
    reuseDistance ≤ (begun.given (first ++ second)).length := by
  obtain ⟨⟨row, after⟩, hsettle⟩ := Option.isSome_iff_exists.1 settles
  obtain ⟨rfl, hrows⟩ := settle?_eq_some hsettle
  have hused : row.id ∈ ((begun.run first).run second).usedIds := by
    rw [← run_append]
    exact List.mem_map_of_mem (hrows.mem_iff.2 List.mem_cons_self)
  have hgiven : row.id ∈ begun.given (first ++ second) := by
    rw [given_append]
    exact List.mem_append_right _ ((mem_usedIds_run hused).resolve_left ended)
  obtain ⟨index, hindex, hat⟩ := List.mem_iff_getElem.1 hgiven
  have hact : endpoint.act (.begin method deadline requester) = (some row.id, begun) := by
    simp [act, begins]
  have again : ((endpoint.act (.begin method deadline requester)).2.given
      (first ++ second))[index]? = some row.id := by
    rw [hact, ← hat]
    exact List.getElem?_eq_getElem hindex
  have hfar := reuseDistance_le sound (.begin method deadline requester) (by rw [hact]) again
  omega

end Endpoint
end TopicTree
