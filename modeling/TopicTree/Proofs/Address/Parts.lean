import TopicTree.Address.Name
import TopicTree.Proofs.Outcome

/-!
# Names put together from parts

A text is cut to a room at the last character that fits. A name that is put together from parts is
not cut like that: each part is cut to the room that those before it have left, so behind a
character that did not fit a later part may go on with smaller ones. What is kept is the cut of the
whole text exactly if none does.
-/

namespace TopicTree

namespace Text

variable {room : Nat} {whole front : List Char}

/-- One more character takes as much more room as it is wide. -/
theorem size_ofList_cons (c : Char) (rest : List Char) :
    (String.ofList (c :: rest)).utf8ByteSize
      = c.utf8Size + (String.ofList rest).utf8ByteSize := by
  have hsplit := size_ofList_append [c] rest
  have hsingle : (String.ofList [c]).utf8ByteSize = c.utf8Size := String.utf8ByteSize_singleton
  rwa [hsingle] at hsplit

/-! ## Cutting a text -/

/-- The longest start of a text that fits into a room. -/
structure IsCut (room : Nat) (whole front : List Char) : Prop where
  leads : front <+: whole
  fits : (String.ofList front).utf8ByteSize ≤ room
  longest : ∀ other, other <+: whole → (String.ofList other).utf8ByteSize ≤ room → other <+: front

/-- Keeps the characters of a text up to the first one that does not fit. -/
def cut (room : Nat) : List Char → List Char
  | [] => []
  | c :: rest => if c.utf8Size ≤ room then c :: cut (room - c.utf8Size) rest else []

/-- What is kept is the longest start that fits. -/
theorem isCut_cut (room : Nat) (whole : List Char) : IsCut room whole (cut room whole) := by
  induction whole generalizing room with
  | nil => exact ⟨List.prefix_refl [], Nat.zero_le room, fun other leads _ => leads⟩
  | cons c rest ih =>
    by_cases hfits : c.utf8Size ≤ room
    · obtain ⟨leads, fits, longest⟩ := ih (room - c.utf8Size)
      rw [cut, if_pos hfits]
      refine ⟨List.cons_prefix_cons.2 ⟨rfl, leads⟩, ?_, ?_⟩
      · rw [size_ofList_cons]
        omega
      · intro other hleads hother
        cases other with
        | nil => exact List.nil_prefix
        | cons d other =>
          obtain ⟨rfl, hrest⟩ := List.cons_prefix_cons.1 hleads
          rw [size_ofList_cons] at hother
          exact List.cons_prefix_cons.2 ⟨rfl, longest other hrest (by omega)⟩
    · rw [cut, if_neg hfits]
      refine ⟨List.nil_prefix, Nat.zero_le room, ?_⟩
      intro other hleads hother
      cases other with
      | nil => exact List.nil_prefix
      | cons d other =>
        obtain ⟨rfl, -⟩ := List.cons_prefix_cons.1 hleads
        rw [size_ofList_cons] at hother
        omega

/-- A text has one cut only. -/
theorem IsCut.eq_cut (h : IsCut room whole front) : front = cut room whole := by
  have hcut := isCut_cut room whole
  have hle := (hcut.longest front h.leads h.fits).length_le
  exact (h.longest _ hcut.leads hcut.fits).eq_of_length_le hle |>.symm

/-- A text that fits is kept. -/
theorem cut_eq_self (fits : (String.ofList whole).utf8ByteSize ≤ room) : cut room whole = whole :=
  have hcut := isCut_cut room whole
  hcut.leads.eq_of_length_le (hcut.longest whole (List.prefix_refl whole) fits).length_le

/-- Behind a text that fits the next one is cut to what is left of the room. -/
theorem cut_append_of_fits (fits : (String.ofList front).utf8ByteSize ≤ room) (back : List Char) :
    cut room (front ++ back)
      = front ++ cut (room - (String.ofList front).utf8ByteSize) back := by
  induction front generalizing room with
  | nil => rfl
  | cons c rest ih =>
    rw [size_ofList_cons] at fits ⊢
    rw [List.cons_append, cut, if_pos (by omega), ih (by omega), List.cons_append, Nat.sub_sub]

/-- Behind a text that does not fit nothing is kept. -/
theorem cut_append_of_overflows (overflows : room < (String.ofList front).utf8ByteSize)
    (back : List Char) : cut room (front ++ back) = cut room front := by
  induction front generalizing room with
  | nil => exact absurd overflows (Nat.not_lt_zero room)
  | cons c rest ih =>
    rw [size_ofList_cons] at overflows
    rw [List.cons_append, cut, cut]
    by_cases hfits : c.utf8Size ≤ room
    · rw [if_pos hfits, if_pos hfits, ih (by omega)]
    · rw [if_neg hfits, if_neg hfits]

/-- Nothing of a text is kept exactly if it has no first character that fits. -/
theorem cut_eq_nil_iff : cut room whole = [] ↔ ∀ c ∈ whole.head?, room < c.utf8Size := by
  cases whole with
  | nil => simp [cut]
  | cons c rest =>
    by_cases hfits : c.utf8Size ≤ room
    · simp [cut, hfits]
    · simpa [cut, hfits] using Nat.lt_of_not_le hfits

/-- The characters of a part that fit behind a text are those of its cut to the room left. -/
theorem pushFitting_eq {text : String} (fits : text.utf8ByteSize ≤ room) (part : List Char) :
    pushFitting room text part = text ++ String.ofList (cut (room - text.utf8ByteSize) part) := by
  induction part generalizing text with
  | nil => simp [pushFitting, cut]
  | cons c rest ih =>
    rw [pushFitting, cut]
    by_cases hfits : text.utf8ByteSize + c.utf8Size ≤ room
    · have hleft : c.utf8Size ≤ room - text.utf8ByteSize := by omega
      have hpush : (text.push c).utf8ByteSize ≤ room := by
        rwa [String.utf8ByteSize_push]
      rw [if_pos hfits, if_pos hleft, ih hpush, String.utf8ByteSize_push, ← Nat.sub_sub]
      apply String.toList_inj.1
      simp
    · rw [if_neg hfits, if_neg (by omega)]
      simp

/-! ## Cutting each part -/

/-- Parts of a text, each cut to the room that those before it have left. -/
inductive CutEach : (room : Nat) → List String → List Char → Prop
  | nil (room : Nat) : CutEach room [] []
  | cons {room : Nat} {part : String} {parts : List String} {front kept : List Char}
      (first : IsCut room part.toList front)
      (more : CutEach (room - (String.ofList front).utf8ByteSize) parts kept) :
      CutEach room (part :: parts) (front ++ kept)

/-- Whether no part that begins where the room has ended goes on behind `front`, which is as much as
has fitted. -/
def Ends (room : Nat) (front : List Char) (parts : List String) : Prop :=
  ∀ early part late, parts = early ++ part :: late →
    room < (String.ofList (early.flatMap String.toList)).utf8ByteSize →
    ∀ c ∈ part.toList.head?, room < (String.ofList front).utf8ByteSize + c.utf8Size

/-- Parts can be cut one by one. -/
theorem exists_cutEach (room : Nat) (parts : List String) : ∃ kept, CutEach room parts kept := by
  induction parts generalizing room with
  | nil => exact ⟨[], .nil room⟩
  | cons part parts ih =>
    obtain ⟨kept, hkept⟩ := ih (room - (String.ofList (cut room part.toList)).utf8ByteSize)
    exact ⟨_, .cons (isCut_cut room part.toList) hkept⟩

/-- What is kept of parts fits. -/
theorem CutEach.fits {parts : List String} {kept : List Char} (h : CutEach room parts kept) :
    (String.ofList kept).utf8ByteSize ≤ room := by
  induction h with
  | nil room => exact Nat.zero_le room
  | cons first more ih =>
    have hfits := first.fits
    rw [size_ofList_append]
    omega

/-- What is pushed part by part is what is kept of each. -/
theorem CutEach.foldl_pushFitting {text : String} {parts : List String} {kept : List Char}
    (fits : text.utf8ByteSize ≤ room) (h : CutEach (room - text.utf8ByteSize) parts kept) :
    parts.foldl (fun text part => pushFitting room text part.toList) text
      = text ++ String.ofList kept := by
  induction parts generalizing text kept with
  | nil =>
    cases h
    simp
  | cons part parts ih =>
    cases h with
    | @cons _ _ _ front kept first more =>
      have hfront := first.fits
      have hpush : pushFitting room text part.toList = text ++ String.ofList front := by
        rw [pushFitting_eq fits, first.eq_cut]
      have hsize : (text ++ String.ofList front).utf8ByteSize ≤ room := by
        rw [String.utf8ByteSize_append]
        omega
      rw [Nat.sub_sub, ← String.utf8ByteSize_append] at more
      rw [List.foldl_cons, hpush, ih hsize more, String.append_assoc, ← String.ofList_append]

/-- Nothing is kept of parts of which none has a first character that fits. -/
theorem CutEach.eq_nil_iff {parts : List String} {kept : List Char} (h : CutEach room parts kept) :
    kept = [] ↔ ∀ part ∈ parts, ∀ c ∈ part.toList.head?, room < c.utf8Size := by
  induction h with
  | nil => simp
  | @cons room part parts front kept first more ih =>
    have hfront : front = [] ↔ ∀ c ∈ part.toList.head?, room < c.utf8Size := by
      rw [first.eq_cut]
      exact cut_eq_nil_iff
    rw [List.append_eq_nil_iff, List.forall_mem_cons, hfront]
    refine and_congr_right fun hnone => ?_
    obtain rfl := hfront.2 hnone
    exact ih

/-- What is kept of parts is the cut of the whole text and what later parts put behind it, which is
nothing exactly if they end there. -/
theorem CutEach.exists_behind {parts : List String} {kept : List Char}
    (h : CutEach room parts kept) :
    ∃ behind, kept = cut room (parts.flatMap String.toList) ++ behind ∧
      (behind = [] ↔ Ends room (cut room (parts.flatMap String.toList)) parts) := by
  induction h with
  | nil room =>
    refine ⟨[], rfl, iff_of_true rfl ?_⟩
    intro early part late hsplit
    simp at hsplit
  | @cons room part parts front kept first more ih =>
    have hcut := first.eq_cut
    rw [List.flatMap_cons]
    by_cases hfits : (String.ofList part.toList).utf8ByteSize ≤ room
    · obtain ⟨behind, hkept, hbehind⟩ := ih
      obtain rfl : front = part.toList := hcut.trans (cut_eq_self hfits)
      refine ⟨behind, ?_, hbehind.trans ?_⟩
      · rw [cut_append_of_fits hfits, hkept, List.append_assoc]
      · rw [cut_append_of_fits hfits]
        constructor
        · intro ends early next late hsplit hover c hc
          cases early with
          | nil => exact absurd hover (Nat.not_lt_zero room)
          | cons first early =>
            obtain ⟨rfl, rfl⟩ := List.cons.inj hsplit
            rw [List.flatMap_cons, size_ofList_append] at hover
            have hnext := ends early next late rfl (by omega) c hc
            rw [size_ofList_append]
            omega
        · intro ends early next late hsplit hover c hc
          have hnext := ends (part :: early) next late (by rw [hsplit]; rfl) (by
            rw [List.flatMap_cons, size_ofList_append]
            omega) c hc
          rw [size_ofList_append] at hnext
          omega
    · have hover := Nat.lt_of_not_le hfits
      have hroom := first.fits
      rw [cut_append_of_overflows hover, ← hcut]
      refine ⟨kept, rfl, more.eq_nil_iff.trans ?_⟩
      constructor
      · intro none early next late hsplit hearly c hc
        cases early with
        | nil => exact absurd hearly (Nat.not_lt_zero room)
        | cons first early =>
          obtain ⟨rfl, rfl⟩ := List.cons.inj hsplit
          have hnext := none next (by simp) c hc
          omega
      · intro ends next hnext c hc
        obtain ⟨early, late, rfl⟩ := List.append_of_mem hnext
        have hbound := ends (part :: early) next late rfl (by
          rw [List.flatMap_cons, size_ofList_append]
          omega) c hc
        omega

end Text

namespace Name

open Text

/-- A text that is short is a name, or it is empty or has a slash in it. -/
theorem ofText_of_fits {text : String} (fits : text.utf8ByteSize ≤ maxName) {e : Error}
    (refused : ofText text = .error e) : e = .invalidName text := by
  unfold ofText at refused
  split at refused
  · cases refused
    rfl
  · split at refused
    · cases refused
      rfl
    · cases refused

/-- Two short texts that are the same name, or are refused for the same reason, are the same. -/
theorem eq_of_ofText_eq {left right : String} (hleft : left.utf8ByteSize ≤ maxName)
    (hright : right.utf8ByteSize ≤ maxName) (same : ofText left = ofText right) : left = right := by
  cases h : ofText right with
  | error e =>
    have hsame := (ofText_of_fits hleft (same.trans h)).symm.trans (ofText_of_fits hright h)
    cases hsame
    rfl
  | ok name => rw [← text_of_ofText h, ← text_of_ofText (same.trans h)]

/-- A name is put together from what is kept of each of its parts, cut to the room that those before
it have left; if that is no name, it is refused as such, and never for its length. It begins with the
cut of the whole text. It is that cut, however the text is divided into parts, exactly if no part
that begins where the room has ended has a first character that would still fit. -/
theorem parts_are_cut_one_by_one (parts : List String) :
    ∃ front kept : List Char, IsCut maxName (parts.flatMap String.toList) front ∧
      CutEach maxName parts kept ∧ ofParts parts = ofText (String.ofList kept) ∧
      (∀ e, ofParts parts = .error e → e = .invalidName (String.ofList kept)) ∧ front <+: kept ∧
      (ofParts parts = ofText (String.ofList front) ↔ Ends maxName front parts) := by
  obtain ⟨kept, hkept⟩ := exists_cutEach maxName parts
  have hcut := isCut_cut maxName (parts.flatMap String.toList)
  obtain ⟨behind, hbehind, hends⟩ := hkept.exists_behind
  have hmade : ofParts parts = ofText (String.ofList kept) := by
    have hfold : parts.foldl (fun text part => pushFitting maxName text part.toList) ""
        = "" ++ String.ofList kept := CutEach.foldl_pushFitting (by decide) hkept
    rw [ofParts, hfold, String.empty_append]
  refine ⟨_, kept, hcut, hkept, hmade, ?_, ⟨behind, hbehind.symm⟩, ?_⟩
  · intro e refused
    exact ofText_of_fits hkept.fits (hmade.symm.trans refused)
  · rw [hmade, ← hends]
    constructor
    · intro same
      have htext := String.ofList_inj.1 (eq_of_ofText_eq hkept.fits hcut.fits same)
      rw [hbehind] at htext
      exact List.append_right_eq_self.1 htext
    · rintro rfl
      rw [hbehind, List.append_nil]

/-- A name that is made of 31 bytes, a character of two that does not fit, and one of a single byte.
It goes on behind the character that did not fit; the same text in one part does not. -/
theorem name_goes_on_behind_its_cut :
    let parts := ["thermostat-in-the-winter-garden", "é", "2"]
    ∃ front : List Char, ∃ longer name : Name, IsCut maxName (parts.flatMap String.toList) front ∧
      ofText (String.ofList front) = .ok name ∧ ofParts [String.join parts] = .ok name ∧
      ofParts parts = .ok longer ∧ name.text = "thermostat-in-the-winter-garden" ∧
      longer.text = "thermostat-in-the-winter-garden2" := by
  intro parts
  let front := cut maxName (parts.flatMap String.toList)
  have hfront : String.ofList front = "thermostat-in-the-winter-garden" := by decide +kernel
  have hname : ((ofText (String.ofList front)).toOption).isSome := by decide +kernel
  have hlonger : ((ofParts parts).toOption).isSome := by decide +kernel
  obtain ⟨name, hname⟩ := Option.isSome_iff_exists.1 hname
  obtain ⟨longer, hlonger⟩ := Option.isSome_iff_exists.1 hlonger
  have hwhole : (ofParts [String.join parts]).toOption = (ofText (String.ofList front)).toOption := by
    decide +kernel
  have htext : (ofParts parts).toOption.map (·.text) = some "thermostat-in-the-winter-garden2" := by
    decide +kernel
  refine ⟨front, longer, name, isCut_cut maxName _, toOption_eq_some.1 hname,
    toOption_eq_some.1 (hwhole.trans hname), toOption_eq_some.1 hlonger, ?_, ?_⟩
  · rw [text_of_ofText (toOption_eq_some.1 hname), hfront]
  · rw [hlonger] at htext
    exact Option.some.inj htext

end Name
end TopicTree
