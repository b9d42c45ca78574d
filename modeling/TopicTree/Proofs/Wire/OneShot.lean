import Mathlib.Data.List.Infix
import TopicTree.Wire.Decoder

/-!
# A stream is read as its bytes are at once

A decoder that takes a stream byte by byte and a reader that looks at all the bytes since the last
event whenever one more is there come to the same: neither tells anything before the bytes are
enough for a frame or a refusal, both tell the same then, and both begin anew behind it. What a
decoder keeps of the bytes so far is told by those bytes alone, and each further byte keeps that.
-/

namespace TopicTree

/-! ## Bytes behind what is decided -/

namespace Length

/-- Bytes behind a field that was read or refused change nothing. -/
theorem Partial.read_append {state : Partial} {bytes : Bytes}
    (decided : state.read bytes ≠ .ok none) (more : Bytes) :
    state.read (bytes ++ more) = state.read bytes := by
  induction bytes generalizing state with
  | nil => exact absurd rfl decided
  | cons byte rest ih =>
    simp only [List.cons_append, Partial.read] at decided ⊢
    split
    · rfl
    · rfl
    · next next hpush =>
      rw [hpush] at decided
      exact ih decided

/-- A byte that does not end a field is counted. -/
theorem Partial.count_of_push {state next : Partial} {byte : UInt8}
    (h : state.push byte = .ok (.unfinished next)) : next.count = state.count + 1 := by
  simp only [push] at h
  split at h
  · cases h
  · split at h <;> cases h
    rfl

/-- A field takes no more bytes than there are. -/
theorem Partial.used_le {state : Partial} {bytes : Bytes} {value used : Nat}
    (h : state.read bytes = .ok (some (value, used))) : used ≤ state.count + bytes.length := by
  induction bytes generalizing state with
  | nil => cases h
  | cons byte rest ih =>
    simp only [Partial.read] at h
    split at h
    · cases h
    · cases h
      simp only [List.length_cons]
      omega
    · next next hpush =>
      have hrest := ih h
      rw [count_of_push hpush] at hrest
      simp only [List.length_cons]
      omega

end Length

namespace Frame

/-- Whether reading some bytes at once waits for more. -/
def Waits (bytes : Bytes) : Prop :=
  decode bytes = .ok none

/-- Whether bytes are the first ones that come to something: they do and no shorter start of them
does. -/
structure FirstEvent (front : Bytes) : Prop where
  decided : ¬Waits front
  first : ∀ shorter, shorter <+: front → shorter ≠ front → Waits shorter

/-- What a frame is once its length field is read: refused if it is too large, cut short if bytes
are missing, and complete otherwise. -/
theorem decode_of_length {header : UInt8} {rest : Bytes} {len used : Nat}
    (reads : Length.decode rest = .ok (some (len, used))) :
    decode (header :: rest)
      = if frameCapacity < len then .error (.frameTooLarge len frameCapacity)
        else if (rest.drop used).length < len then .ok none
        else (ofPayload header ((rest.drop used).take len)).map fun frame =>
          some (frame, 1 + used + len) := by
  simp only [decode, reads]
  split
  · rfl
  · split
    · rfl
    · cases ofPayload header ((rest.drop used).take len) <;> rfl

/-- Bytes behind a frame or a refusal change nothing. -/
theorem decode_append {bytes : Bytes} (decided : ¬Waits bytes) (more : Bytes) :
    decode (bytes ++ more) = decode bytes := by
  cases bytes with
  | nil => exact absurd rfl decided
  | cons header rest =>
    have hfield : Length.decode rest ≠ .ok none := by
      intro hnone
      simp [Waits, decode, hnone] at decided
    have happend : Length.decode (rest ++ more) = Length.decode rest :=
      Length.Partial.read_append hfield more
    cases hread : Length.decode rest with
    | error e => simp only [List.cons_append, decode, happend, hread]
    | ok answer =>
      obtain _ | ⟨len, used⟩ := answer
      · exact absurd hread hfield
      · have hused : used ≤ rest.length := by
          simpa [Length.Partial.start] using Length.Partial.used_le hread
        rw [Waits, decode_of_length hread] at decided
        rw [decode_of_length hread]
        rw [List.cons_append, decode_of_length (happend.trans hread),
          List.drop_append_of_le_length hused]
        split
        · rfl
        · next hfits =>
          rw [if_neg hfits] at decided
          have henough : ¬(rest.drop used).length < len := fun hshort => decided (if_pos hshort)
          have hmore : ¬(rest.drop used ++ more).length < len := by
            rw [List.length_append]
            omega
          rw [if_neg henough, if_neg hmore,
            List.take_append_of_le_length (Nat.le_of_not_lt henough)]

end Frame

namespace Decoder

/-! ## What a decoder keeps -/

/-- What a decoder keeps of the bytes since the last event. Of a length field it keeps what it takes
to read on; of a payload, how much of it is missing. -/
inductive Keeps : Bytes → Decoder → Prop
  | nothing : Keeps [] start
  | header (header : UInt8) : Keeps [header] ⟨.headerSeen, Frame.empty header⟩
  | length {header : UInt8} {digits : Bytes} {field : Length.Partial}
      (count : field.count = digits.length)
      (reads : ∀ more, Length.decode (digits ++ more) = field.read more) :
      Keeps (header :: digits) ⟨.lengthSeen field, Frame.empty header⟩
  | payload {digits : Bytes} {frame : Frame} {len missing : Nat}
      (reads : ∀ more, Length.decode (digits ++ more) = .ok (some (len, digits.length)))
      (fits : len ≤ frameCapacity) (total : frame.payload.length + missing = len)
      (pos : 0 < missing) :
      Keeps (frame.header :: (digits ++ frame.payload)) ⟨.payloadSeen missing, frame⟩

/-- The outcome that a reading of bytes at once comes to. -/
def outcomeOf (reading : Except WireError (Option (Frame × Nat))) : Outcome :=
  reading.map (Option.map Prod.fst)

/-- What one byte makes of a decoder, told by the bytes since the last event: the outcome is the one
of reading them all at once, a frame takes them all, and the decoder keeps them or begins anew. -/
structure Agrees (seen : Bytes) (told : Outcome) (next : Decoder) : Prop where
  outcome : told = outcomeOf (Frame.decode seen)
  used : ∀ {frame used}, Frame.decode seen = .ok (some (frame, used)) → used = seen.length
  waits : told = .ok none → Keeps seen next
  anew : told ≠ .ok none → next = start

variable {seen : Bytes} {decoder : Decoder}

/-- A byte after which more are needed. -/
theorem Agrees.more (reading : Frame.decode seen = .ok none) (keeps : Keeps seen decoder) :
    Agrees seen (.ok none) decoder where
  outcome := by rw [reading]; rfl
  used := by rw [reading]; intro _ _ h; cases h
  waits := fun _ => keeps
  anew := fun h => absurd rfl h

/-- A byte that completes a frame. -/
theorem Agrees.frame {frame : Frame}
    (reading : Frame.decode seen = .ok (some (frame, seen.length))) :
    Agrees seen (.ok (some frame)) start where
  outcome := by rw [reading]; rfl
  used := by rw [reading]; intro _ _ h; cases h; rfl
  waits := fun h => by cases h
  anew := fun _ => rfl

/-- A byte that is refused. -/
theorem Agrees.refused {e : WireError} (reading : Frame.decode seen = .error e) :
    Agrees seen (.error e) start where
  outcome := by rw [reading]; rfl
  used := by rw [reading]; intro _ _ h; cases h
  waits := fun h => by cases h
  anew := fun _ => rfl

/-- A payload begins as the bytes tell. -/
theorem agrees_beginPayload {header : UInt8} {digits : Bytes} {len : Nat} (stage : Stage)
    (reads : ∀ more, Length.decode (digits ++ more) = .ok (some (len, digits.length))) :
    Agrees (header :: digits) (beginPayload ⟨stage, Frame.empty header⟩ len).1
      (beginPayload ⟨stage, Frame.empty header⟩ len).2 := by
  have hread : Frame.decode (header :: digits) = _ :=
    Frame.decode_of_length (by simpa using reads [])
  rw [List.drop_length] at hread
  unfold beginPayload
  split
  · next hlarge => exact .refused (hread.trans (if_pos hlarge))
  · next hfits =>
    rw [if_neg hfits] at hread
    split
    · next hempty =>
      subst hempty
      refine .frame (hread.trans ?_)
      have hlength : 1 + digits.length + 0 = (header :: digits).length := by
        simp [Nat.add_comm]
      simp only [List.length_nil, Nat.lt_irrefl, if_false, List.take_nil, hlength]
      rfl
    · next hne =>
      refine .more (hread.trans (if_pos (Nat.pos_of_ne_zero hne))) ?_
      have hkeeps := @Keeps.payload digits (Frame.empty header) len len reads
        (Nat.le_of_not_lt hfits) (Nat.zero_add len) (Nat.pos_of_ne_zero hne)
      simpa [Frame.empty] using hkeeps

/-- A byte of a length field is taken as the bytes tell. -/
theorem agrees_takeLength {header : UInt8} {digits : Bytes} {field : Length.Partial}
    (count : field.count = digits.length)
    (reads : ∀ more, Length.decode (digits ++ more) = field.read more) (stage : Stage)
    (byte : UInt8) :
    Agrees (header :: (digits ++ [byte]))
      (takeLength ⟨stage, Frame.empty header⟩ field byte).1
      (takeLength ⟨stage, Frame.empty header⟩ field byte).2 := by
  have hnext : ∀ more, Length.decode (digits ++ [byte] ++ more) = field.read (byte :: more) := by
    intro more
    rw [List.append_assoc, reads]
    rfl
  have hnow := hnext []
  rw [List.append_nil] at hnow
  unfold takeLength
  cases hpush : field.push byte with
  | error e =>
    refine .refused ?_
    simp only [Frame.decode, hnow, Length.Partial.read, hpush]
  | ok progress =>
    cases progress with
    | unfinished next =>
      refine .more ?_ (.length ?_ ?_)
      · simp only [Frame.decode, hnow, Length.Partial.read, hpush]
      · rw [Length.Partial.count_of_push hpush, count, List.length_append, List.length_singleton]
      · intro more
        simp only [hnext, Length.Partial.read, hpush]
    | finished len =>
      refine agrees_beginPayload stage fun more => ?_
      simp only [hnext, Length.Partial.read, hpush, count, List.length_append,
        List.length_singleton]

/-- A byte of a payload is taken as the bytes tell. -/
theorem agrees_takePayload {digits : Bytes} {frame : Frame} {len missing : Nat}
    (reads : ∀ more, Length.decode (digits ++ more) = .ok (some (len, digits.length)))
    (fits : len ≤ frameCapacity) (total : frame.payload.length + missing = len)
    (pos : 0 < missing) (stage : Stage) (byte : UInt8) :
    Agrees (frame.header :: (digits ++ (frame.payload ++ [byte])))
      (takePayload ⟨stage, frame⟩ missing byte).1 (takePayload ⟨stage, frame⟩ missing byte).2 := by
  have hroom : (frame.payload ++ [byte]).length ≤ frameCapacity := by
    rw [List.length_append, List.length_singleton]
    omega
  have hpush : frame.push? byte = some ⟨frame.header, frame.payload ++ [byte], hroom⟩ :=
    dif_pos hroom
  have hread : Frame.decode (frame.header :: (digits ++ (frame.payload ++ [byte]))) = _ :=
    Frame.decode_of_length (reads _)
  rw [List.drop_left, if_neg (Nat.not_lt_of_le fits), List.length_append,
    List.length_singleton] at hread
  simp only [takePayload, hpush]
  split
  · next hlast =>
    have hlen : len = (frame.payload ++ [byte]).length := by
      rw [List.length_append, List.length_singleton]
      omega
    refine .frame (hread.trans ?_)
    have hall : ¬frame.payload.length + 1 < len := by omega
    rw [if_neg hall, hlen, List.take_length, Frame.ofPayload, dif_pos hroom]
    simp only [Except.map, List.length_cons, List.length_append]
    congr 3
    omega
  · next hmore =>
    refine .more (hread.trans (if_pos (by omega))) ?_
    exact @Keeps.payload digits ⟨frame.header, frame.payload ++ [byte], hroom⟩ len (missing - 1)
      reads fits (by rw [List.length_append, List.length_singleton]; omega) (by omega)

/-- Each byte is taken as the bytes since the last event tell. -/
theorem Keeps.push (keeps : Keeps seen decoder) (byte : UInt8) :
    Agrees (seen ++ [byte]) (decoder.push byte).1 (decoder.push byte).2 := by
  cases keeps with
  | nothing => exact .more rfl (.header byte)
  | header header =>
    exact @agrees_takeLength header [] .start rfl (fun _ => rfl) .headerSeen byte
  | length count reads => exact agrees_takeLength count reads _ byte
  | payload reads fits total pos =>
    rw [List.cons_append, List.append_assoc]
    exact agrees_takePayload reads fits total pos _ byte

/-! ## Whole streams -/

/-- A decoder that owes nothing to bytes before: a new one, one that was reset, and one that has
just told of a frame or a refusal. -/
inductive Rested : Decoder → Prop
  | new : Rested start
  | reset (decoder : Decoder) : Rested decoder.reset
  | told {decoder next : Decoder} {byte : UInt8} {outcome : Outcome}
      (pushed : decoder.push byte = (outcome, next)) (event : outcome ≠ .ok none) : Rested next

/-- Whatever a byte completes or spoils, the decoder begins anew behind it. -/
theorem push_eq_start {next : Decoder} {byte : UInt8} {outcome : Outcome}
    (pushed : decoder.push byte = (outcome, next)) (event : outcome ≠ .ok none) : next = start := by
  have hlength : ∀ len, (decoder.beginPayload len).1 ≠ .ok none →
      (decoder.beginPayload len).2 = start := by
    intro len
    unfold beginPayload
    split
    · exact fun _ => rfl
    · split
      · exact fun _ => rfl
      · exact fun h => absurd rfl h
  have htake : ∀ field, (decoder.takeLength field byte).1 ≠ .ok none →
      (decoder.takeLength field byte).2 = start := by
    intro field
    unfold takeLength
    split
    · exact fun _ => rfl
    · exact fun h => absurd rfl h
    · exact hlength _
  have hpush : (decoder.push byte).1 ≠ .ok none → (decoder.push byte).2 = start := by
    unfold push
    split
    · exact fun h => absurd rfl h
    · exact htake _
    · exact htake _
    · unfold takePayload
      split
      · exact fun _ => rfl
      · split
        · exact fun _ => rfl
        · exact fun h => absurd rfl h
  rw [pushed] at hpush
  exact hpush event

/-- All decoders that owe nothing to bytes before are alike. -/
theorem Rested.eq_start (rested : decoder.Rested) : decoder = start := by
  cases rested with
  | new => rfl
  | reset _ => rfl
  | told pushed event => exact push_eq_start pushed event

/-- What a reader tells byte by byte that looks at all the bytes since the last event, `seen` and
one more, each time. -/
def outcomesAtOnce (seen : Bytes) : Bytes → List Outcome
  | [] => []
  | byte :: rest =>
    match Frame.decode (seen ++ [byte]) with
    | .ok none => .ok none :: outcomesAtOnce (seen ++ [byte]) rest
    | .ok (some (frame, _)) => .ok (some frame) :: outcomesAtOnce [] rest
    | .error e => .error e :: outcomesAtOnce [] rest

/-- A decoder tells what a reader tells that looks at all the bytes it has seen. -/
theorem Keeps.run_eq (keeps : Keeps seen decoder) (bytes : Bytes) :
    (decoder.run bytes).1 = outcomesAtOnce seen bytes := by
  induction bytes generalizing seen decoder with
  | nil => rfl
  | cons byte rest ih =>
    have hagrees := keeps.push byte
    have houtcome := hagrees.outcome
    simp only [run, outcomesAtOnce]
    cases hread : Frame.decode (seen ++ [byte]) with
    | error e =>
      have htold : (decoder.push byte).1 = .error e := by rw [houtcome, hread]; rfl
      rw [hagrees.anew (by simp [htold]), htold]
      exact congrArg _ (ih .nothing)
    | ok answer =>
      cases answer with
      | none =>
        have htold : (decoder.push byte).1 = .ok none := by rw [houtcome, hread]; rfl
        rw [htold]
        exact congrArg _ (ih (hagrees.waits htold))
      | some taken =>
        have htold : (decoder.push byte).1 = .ok (some taken.1) := by rw [houtcome, hread]; rfl
        rw [hagrees.anew (by simp [htold]), htold]
        exact congrArg _ (ih .nothing)

/-- Where reading waits at every start of some bytes, a decoder tells nothing. -/
theorem Keeps.run_waits (keeps : Keeps seen decoder) {bytes : Bytes}
    (waits : ∀ front, front <+: bytes → Frame.Waits (seen ++ front)) :
    (decoder.run bytes).1 = List.replicate bytes.length (.ok none) ∧
      Keeps (seen ++ bytes) (decoder.run bytes).2 := by
  induction bytes generalizing seen decoder with
  | nil =>
    rw [List.append_nil]
    exact ⟨rfl, keeps⟩
  | cons byte rest ih =>
    have hagrees := keeps.push byte
    have hnone : (decoder.push byte).1 = .ok none := by
      rw [hagrees.outcome, show Frame.decode (seen ++ [byte]) = .ok none from
        waits [byte] ⟨rest, rfl⟩]
      rfl
    obtain ⟨houtcomes, hkeeps⟩ := ih (hagrees.waits hnone) fun front hfront => by
      rw [List.append_assoc]
      exact waits (byte :: front) (List.prefix_cons_inj byte |>.2 hfront)
    rw [List.append_assoc] at hkeeps
    refine ⟨?_, hkeeps⟩
    simp only [run, houtcomes, hnone, List.length_cons, List.replicate_succ]

/-- A run over bytes in two parts. -/
theorem run_append (decoder : Decoder) (left right : Bytes) :
    decoder.run (left ++ right)
      = ((decoder.run left).1 ++ ((decoder.run left).2.run right).1,
          ((decoder.run left).2.run right).2) := by
  induction left generalizing decoder with
  | nil => rfl
  | cons byte rest ih => simp only [List.cons_append, run, ih]

/-- With the last of the first bytes that come to something, and not before, a decoder tells what
they come to, and it begins anew. -/
theorem run_firstEvent {front : Bytes} (event : Frame.FirstEvent front) :
    start.run front
      = (List.replicate (front.length - 1) (.ok none) ++ [outcomeOf (Frame.decode front)], start) ∧
    ∀ {frame used}, Frame.decode front = .ok (some (frame, used)) → used = front.length := by
  obtain ⟨init, last, rfl⟩ : ∃ init last, front = init ++ [last] := by
    rcases List.eq_nil_or_concat front with rfl | h
    · exact absurd rfl event.decided
    · simpa using h
  have hwaits : ∀ shorter, shorter <+: init → Frame.Waits ([] ++ shorter) := by
    intro shorter hshorter
    refine event.first shorter (hshorter.trans (List.prefix_append init [last])) ?_
    rintro rfl
    have hlength := hshorter.length_le
    rw [List.length_append, List.length_singleton] at hlength
    omega
  obtain ⟨houtcomes, hkeeps⟩ := Keeps.nothing.run_waits hwaits
  have hagrees := hkeeps.push last
  rw [List.nil_append] at hagrees
  have hevent : ((start.run init).2.push last).1 ≠ .ok none := by
    rw [hagrees.outcome]
    intro hnone
    refine event.decided ?_
    rw [Frame.Waits]
    cases hread : Frame.decode (init ++ [last]) with
    | error e => simp [hread, outcomeOf, Except.map] at hnone
    | ok answer =>
      cases answer with
      | none => rfl
      | some _ => simp [hread, outcomeOf, Except.map] at hnone
  refine ⟨?_, hagrees.used⟩
  rw [run_append, houtcomes]
  simp only [run, hagrees.outcome, hagrees.anew hevent, List.length_append, List.length_singleton,
    Nat.add_sub_cancel]

/-- A decoder that owes nothing to bytes before reads a stream as its bytes are read at once. It
tells nothing where reading at once waits at every start of the stream. Otherwise it tells what the
first bytes that come to something come to, with the last of them and not before; bytes behind them
have no part in that, a frame takes all of them, and the rest is run as by a new decoder. So all
that it tells is what a reader tells that looks at all the bytes since the last event each time. -/
theorem run_reads_at_once (rested : decoder.Rested) (bytes : Bytes) :
    ((∀ front, front <+: bytes → Frame.Waits front) →
      (decoder.run bytes).1 = List.replicate bytes.length (.ok none)) ∧
    (∀ front rest, front ++ rest = bytes → Frame.FirstEvent front →
      decoder.run bytes
          = (List.replicate (front.length - 1) (.ok none)
              ++ outcomeOf (Frame.decode front) :: (start.run rest).1, (start.run rest).2) ∧
        Frame.decode bytes = Frame.decode front ∧
        ∀ {frame used}, Frame.decode front = .ok (some (frame, used)) → used = front.length) ∧
    (decoder.run bytes).1 = outcomesAtOnce [] bytes := by
  obtain rfl := rested.eq_start
  refine ⟨fun waits => (Keeps.nothing.run_waits waits).1, ?_, Keeps.nothing.run_eq bytes⟩
  rintro front rest rfl event
  obtain ⟨hfront, hused⟩ := run_firstEvent event
  refine ⟨?_, Frame.decode_append event.decided rest, hused⟩
  rw [run_append, hfront, List.append_assoc, List.singleton_append]

/-- A decoder that has just refused a fifth byte of a length reads a length that is padded to two
bytes, refuses a frame of 513 bytes with the last byte of its length, and reads on. -/
theorem reads_on_after_refusals :
    let spoiled := (start.run [0x30, 0xff, 0xff, 0xff, 0xff]).2
    let padded : Bytes := [0x30, 0x81, 0x00, 0x07]
    let rest : Bytes := [0x30, 0x81, 0x04, 0xc0, 0x00]
    (spoiled.push 0xff).1 = .error .lengthOverflow ∧ Frame.FirstEvent padded ∧
      ((spoiled.push 0xff).2.run (padded ++ rest)).1
        = [.ok none, .ok none, .ok none, .ok (some ⟨0x30, [0x07], by decide⟩),
            .ok none, .ok none, .error (.frameTooLarge 513 512),
            .ok none, .ok (some (Frame.empty 0xc0))] := by
  intro spoiled padded rest
  have event : Frame.FirstEvent padded := by
    refine ⟨fun h => (by cases h), fun shorter hshorter hne => ?_⟩
    rw [← List.mem_inits] at hshorter
    simp only [padded, List.inits, List.map_cons, List.map_nil, List.mem_cons, List.not_mem_nil,
      or_false] at hshorter
    rcases hshorter with rfl | rfl | rfl | rfl | rfl
    · rfl
    · rfl
    · rfl
    · rfl
    · exact absurd rfl hne
  have rested : (spoiled.push 0xff).2.Rested :=
    @Rested.told spoiled _ 0xff (.error .lengthOverflow) rfl (fun h => by cases h)
  have hrun := ((run_reads_at_once rested (padded ++ rest)).2.1 padded rest rfl event).1
  refine ⟨rfl, event, ?_⟩
  rw [hrun]
  rfl

end Decoder

end TopicTree
