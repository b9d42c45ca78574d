import TopicTree.Packet.Subscribe
import TopicTree.Proofs.Packet.Row

/-!
# Reading a SUBSCRIBE and a SUBACK

A SUBSCRIBE is read from every payload that lists its filters, whatever stands in those bits of a
wanted class that are not looked at. A SUBACK is read from one payload only.
-/

namespace TopicTree

namespace Subscribe

variable {frame : Frame} {subscribe : Subscribe} {filters : List (String × Qos)} {bytes rest : Bytes}

/-- Bytes that list filters. Of the byte behind a filter only the two lowest bits are told. -/
inductive Listed : List (String × Qos) → Bytes → Prop
  | nil : Listed [] []
  | cons {filter : String} {qos : Qos} {filters : List (String × Qos)} {bytes : Bytes}
      (wanted : UInt8) (told : wanted &&& 3 = qos.toByte) (more : Listed filters bytes) :
      Listed ((filter, qos) :: filters) (Field.textBytes filter ++ wanted :: bytes)

/-- A filter is not longer than the bytes that list it. -/
theorem Listed.size_le (h : Listed filters bytes) :
    ∀ entry ∈ filters, entry.1.utf8ByteSize ≤ bytes.length := by
  induction h with
  | nil => simp
  | cons wanted told more ih =>
    intro entry hentry
    rw [List.length_append, List.length_cons, Field.length_textBytes]
    cases List.mem_cons.1 hentry with
    | inl hfirst =>
      subst hfirst
      exact Nat.le_trans (Nat.le_add_left _ 2) (Nat.le_add_right _ _)
    | inr hlater =>
      have hsize := ih entry hlater
      omega

/-- One filter is read where it stands. -/
theorem readFilter_eq_ok {filter : String} {qos : Qos} :
    readFilter bytes = .ok ((filter, qos), rest)
      ↔ filter.utf8ByteSize ≤ Field.maxBlock ∧
        ∃ wanted, wanted &&& 3 = qos.toByte ∧ bytes = Field.textBytes filter ++ wanted :: rest := by
  simp only [readFilter, bind_eq_ok, pure_eq_ok, Prod.exists, Prod.mk.injEq, Field.readText_eq_ok,
    Field.readByte_eq_ok, Qos.ofByte_eq_ok]
  constructor
  · rintro ⟨_, _, ⟨hshort, rfl⟩, wanted, _, rfl, _, htold, ⟨rfl, rfl⟩, rfl⟩
    exact ⟨hshort, wanted, htold, rfl⟩
  · rintro ⟨hshort, wanted, htold, rfl⟩
    exact ⟨filter, _, ⟨hshort, rfl⟩, wanted, rest, rfl, qos, htold, ⟨rfl, rfl⟩, rfl⟩

/-- Filters are read from the bytes that list them, if there is room for them. -/
theorem readFilters_eq_ok {room : Nat} :
    readFilters room bytes = .ok filters
      ↔ filters.length ≤ room ∧ (∀ entry ∈ filters, entry.1.utf8ByteSize ≤ Field.maxBlock) ∧
        Listed filters bytes := by
  induction room generalizing bytes filters with
  | zero =>
    cases bytes with
    | nil =>
      simp only [readFilters, Except.ok.injEq]
      constructor
      · rintro rfl
        exact ⟨Nat.le_refl 0, by simp, .nil⟩
      · rintro ⟨hnone, -⟩
        exact (List.eq_nil_of_length_eq_zero (Nat.le_zero.1 hnone)).symm
    | cons byte rest =>
      simp only [readFilters, bind_eq_ok, reduceCtorEq, and_false, exists_false, false_iff]
      rintro ⟨hnone, -, hlisted⟩
      obtain rfl := List.eq_nil_of_length_eq_zero (Nat.le_zero.1 hnone)
      cases hlisted
  | succ room ih =>
    cases bytes with
    | nil =>
      simp only [readFilters, Except.ok.injEq]
      constructor
      · rintro rfl
        exact ⟨Nat.zero_le _, by simp, .nil⟩
      · rintro ⟨-, -, hlisted⟩
        generalize hbytes : ([] : Bytes) = bytes at hlisted
        cases hlisted with
        | nil => rfl
        | cons => simp at hbytes
    | cons byte rest =>
      simp only [readFilters, bind_eq_ok, pure_eq_ok, Prod.exists, readFilter_eq_ok, ih]
      constructor
      · rintro ⟨filter, qos, _, ⟨hshort, wanted, htold, hbytes⟩, filters, ⟨hroom, hall, hlisted⟩, rfl⟩
        rw [hbytes]
        refine ⟨Nat.succ_le_succ hroom, ?_, .cons wanted htold hlisted⟩
        exact List.forall_mem_cons.2 ⟨hshort, hall⟩
      · rintro ⟨hroom, hall, hlisted⟩
        generalize hbytes : byte :: rest = bytes at hlisted
        cases hlisted with
        | nil => cases hbytes
        | cons wanted htold hlisted =>
          obtain ⟨hshort, hall⟩ := List.forall_mem_cons.1 hall
          exact ⟨_, _, _, ⟨hshort, wanted, htold, rfl⟩, _,
            ⟨Nat.le_of_succ_le_succ hroom, hall, hlisted⟩, rfl⟩

/-- A SUBSCRIBE is read from the payloads that list its filters, if it has any. -/
theorem ofFrame_eq_ok :
    ofFrame frame = .ok subscribe
      ↔ frame.packetType = .ok .subscribe ∧ subscribe.filters ≠ [] ∧
        ∃ listed, Listed subscribe.filters listed ∧
          frame.payload = Field.wordBytes subscribe.packetId ++ listed := by
  simp only [ofFrame, bind_eq_ok, check_eq_ok, Prod.exists, Field.readWord_eq_ok, readFilters_eq_ok]
  constructor
  · rintro ⟨_, hexpect, packetId, _, hpayload, filters, ⟨hroom, -, hlisted⟩, hsome, h⟩
    rw [dif_pos hroom] at h
    cases h
    exact ⟨Frame.expect_eq_ok.1 hexpect, hsome, _, hlisted, hpayload⟩
  · rintro ⟨htype, hsome, listed, hlisted, hpayload⟩
    have hfits := frame.fits
    simp only [hpayload, List.length_append, Field.length_wordBytes, frameCapacity] at hfits
    refine ⟨(), Frame.expect_eq_ok.2 htype, subscribe.packetId, listed, hpayload, subscribe.filters,
      ⟨subscribe.few, ?_, hlisted⟩, hsome, dif_pos subscribe.few⟩
    intro entry hentry
    have hsize := hlisted.size_le entry hentry
    simp only [Field.maxBlock]
    omega

/-! ## Writing -/

/-- The parts of a filter in a payload. -/
def filterParts (entry : String × Qos) : List Part :=
  [.block "topic filter" (Text.toBytes entry.1), .plain [entry.2.toByte]]

/-- The lowest bits of the number of a delivery class are the number itself. -/
theorem toByte_and_three (qos : Qos) : qos.toByte &&& 3 = qos.toByte := by
  cases qos <;> rfl

/-- The parts of filters list them. -/
theorem listed_parts (filters : List (String × Qos)) :
    Listed filters (Part.row (filters.flatMap filterParts)) := by
  induction filters with
  | nil => exact .nil
  | cons entry filters ih =>
    rw [List.flatMap_cons, Part.row_append]
    have h : Listed (entry :: filters) _ := .cons entry.2.toByte (toByte_and_three entry.2) ih
    simpa only [filterParts, Part.row_cons, Part.row_nil, Part.bytes, Field.blockBytes_toBytes,
      List.append_nil, List.append_assoc, List.singleton_append] using h

/-- Filters are added as their parts. -/
theorem addFilters_eq (frame : Frame) (filters : List (String × Qos)) :
    addFilters frame filters = frame.addParts (filters.flatMap filterParts) := by
  induction filters generalizing frame with
  | nil => rfl
  | cons entry filters ih =>
    obtain ⟨filter, qos⟩ := entry
    simp only [addFilters, ih]
    rfl

end Subscribe

/-! ## SUBACK -/

/-- A grant is read from its own byte only. -/
theorem Grant.ofByte_eq_ok {byte : UInt8} {grant : Grant} :
    ofByte byte = .ok grant ↔ byte = grant.toByte := by
  constructor
  · intro h
    unfold ofByte at h
    split at h
    · next hbyte =>
      cases h
      exact hbyte
    · obtain ⟨qos, hqos, rfl⟩ := map_eq_ok.1 h
      exact Qos.ofByte_eq_ok.1 hqos
  · rintro rfl
    exact ofByte_toByte grant

/-- Grants are read from their own bytes only. -/
theorem Grant.mapM_ofByte_eq_ok {bytes : Bytes} {grants : List Grant} :
    bytes.mapM ofByte = .ok grants ↔ bytes = grants.map toByte := by
  induction bytes generalizing grants with
  | nil =>
    rw [List.mapM_nil, pure_eq_ok]
    cases grants <;> simp
  | cons byte bytes ih =>
    simp only [List.mapM_cons, bind_eq_ok, pure_eq_ok, ofByte_eq_ok, ih]
    constructor
    · rintro ⟨grant, rfl, grants, rfl, rfl⟩
      rfl
    · intro h
      cases grants with
      | nil => cases h
      | cons grant grants =>
        obtain ⟨hbyte, hbytes⟩ := List.cons.inj h
        exact ⟨grant, hbyte, grants, hbytes, rfl⟩

namespace SubAck

variable {frame : Frame} {ack : SubAck}

/-- All that follows the length field in the frame of a SUBACK. -/
def body (ack : SubAck) : Bytes :=
  Field.wordBytes ack.packetId ++ ack.grants.map Grant.toByte

/-- A SUBACK is read from the payload of its body, if it grants or refuses something. -/
theorem ofFrame_eq_ok :
    ofFrame frame = .ok ack
      ↔ frame.packetType = .ok .subAck ∧ ack.grants ≠ [] ∧ frame.payload = ack.body := by
  simp only [ofFrame, error_bind, bind_eq_ok, check_eq_ok, Prod.exists, Field.readWord_eq_ok,
    Grant.mapM_ofByte_eq_ok, body]
  constructor
  · rintro ⟨_, hexpect, packetId, _, hpayload, hsome, grants, rfl, h⟩
    split at h
    · cases h
      refine ⟨Frame.expect_eq_ok.1 hexpect, ?_, hpayload⟩
      rintro rfl
      exact hsome (.inl rfl)
    · cases h
  · rintro ⟨htype, hsome, hpayload⟩
    refine ⟨(), Frame.expect_eq_ok.2 htype, ack.packetId, _, hpayload, ?_, ack.grants, rfl,
      dif_pos ack.few⟩
    rintro (hnone | hmany)
    · exact hsome (List.map_eq_nil_iff.1 hnone)
    · rw [List.length_map] at hmany
      exact Nat.not_lt_of_le ack.few hmany

end SubAck

end TopicTree
