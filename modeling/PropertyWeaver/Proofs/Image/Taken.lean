import PropertyWeaver.Proofs.Image.Encodable
import PropertyWeaver.Proofs.Image.Header

/-!
# The bytes behind a value

What a reader gives tells the bytes that it took, if there is one way to write it. Only a Boolean
and a grouped integer are written in several ways; of the latter no more is known than that its own
form is not longer.
-/

set_option autoImplicit false

namespace PropertyWeaver

/-! ## What a reader takes -/

/-- Whatever the reader gives, it takes some bytes that stand in this relation to it. -/
def Reader.Takes {α : Type} (reader : Reader α) (form : α → Bytes → Prop) : Prop :=
  ∀ cursor value rest, reader cursor = .ok value rest →
    ∃ taken, cursor.unread = taken ++ rest.unread ∧
      rest.position = cursor.position + taken.length ∧ form value taken

namespace Reader.Takes

variable {α β : Type} {reader : Reader α} {next : α → Reader β}

private theorem pure {form : α → Bytes → Prop} {value : α} (fact : form value []) :
    Takes (Pure.pure value) form := by
  rintro cursor _ _ ⟨⟩
  exact ⟨[], rfl, rfl, fact⟩

theorem fail {form : α → Bytes → Prop} (error : ReadError) : Takes (Reader.fail error) form := by
  rintro _ _ _ ⟨⟩

theorem bind {form : α → Bytes → Prop} {whole : β → Bytes → Prop} (head : reader.Takes form)
    (tail : ∀ value front, form value front →
      (next value).Takes fun result back => whole result (front ++ back)) :
    (reader >>= next).Takes whole := by
  intro cursor result rest read
  obtain ⟨value, middle, taken, read⟩ := Reader.bind_eq_ok.mp read
  obtain ⟨front, spelled, moved, fact⟩ := head _ _ _ taken
  obtain ⟨back, spelled', moved', fact'⟩ := tail value front fact _ _ _ read
  refine ⟨front ++ back, ?_, ?_, fact'⟩
  · rw [spelled, spelled', List.append_assoc]
  · rw [moved', moved, List.length_append, Nat.add_assoc]

theorem weaken {form other : α → Bytes → Prop} (reads : reader.Takes form)
    (implies : ∀ value taken, form value taken → other value taken) : reader.Takes other := by
  intro cursor value rest read
  obtain ⟨taken, spelled, moved, fact⟩ := reads _ _ _ read
  exact ⟨taken, spelled, moved, implies value taken fact⟩

/-- What only renames the value takes nothing more. -/
theorem map {form : α → Bytes → Prop} {other : β → Bytes → Prop} (reads : reader.Takes form)
    {rename : α → β} (implies : ∀ value taken, form value taken → other (rename value) taken) :
    Takes (do return rename (← reader)) other :=
  reads.bind fun value taken fact => pure (by simpa using implies value taken fact)

theorem position : Takes Reader.position fun _ taken => taken = [] := by
  rintro cursor _ _ ⟨⟩
  exact ⟨[], rfl, rfl, rfl⟩

theorem remaining : Takes Reader.remaining fun _ taken => taken = [] := by
  rintro cursor _ _ ⟨⟩
  exact ⟨[], rfl, rfl, rfl⟩

theorem uint8 : Takes Reader.uint8 fun value taken => taken = [value] := by
  rintro ⟨place, _ | ⟨byte, unread⟩⟩ value rest read
  · cases read
  · cases read
    exact ⟨[byte], rfl, rfl, rfl⟩

private theorem bytes (size : Nat) :
    (Reader.bytes size).Takes fun value taken => taken = value ∧ value.length = size := by
  intro cursor value rest read
  obtain ⟨counted, spelled, moved⟩ := Reader.bytes_eq_ok.mp read
  exact ⟨value, spelled, by rw [moved, counted], rfl, counted⟩

theorem uint16 : Takes Reader.uint16 fun value taken => taken = Bytes.uint16 value := by
  refine (bytes 2).map ?_
  rintro image _ ⟨rfl, size⟩
  exact (Bytes.uint16_ofNat_toNat size).symm

theorem uint32 : Takes Reader.uint32 fun value taken => taken = Bytes.uint32 value := by
  refine (bytes 4).map ?_
  rintro image _ ⟨rfl, size⟩
  exact (Bytes.uint32_ofNat_toNat size).symm

theorem uint64 : Takes Reader.uint64 fun value taken => taken = Bytes.uint64 value := by
  refine (bytes 8).map ?_
  rintro image _ ⟨rfl, size⟩
  exact (Bytes.uint64_ofNat_toNat size).symm

theorem int32 : Takes Reader.int32 fun value taken => taken = Bytes.int32 value := by
  refine uint32.map ?_
  rintro word _ rfl
  rw [Bytes.int32, UInt32.toUInt32_toInt32]

theorem int64 : Takes Reader.int64 fun value taken => taken = Bytes.int64 value := by
  refine uint64.map ?_
  rintro word _ rfl
  rw [Bytes.int64, UInt64.toUInt64_toInt64]

theorem float32 : Takes Reader.float32 fun value taken => taken = Bytes.uint32 value.bits :=
  uint32.map fun _ _ spelled => spelled

theorem float64 : Takes Reader.float64 fun value taken => taken = Bytes.uint64 value.bits :=
  uint64.map fun _ _ spelled => spelled

theorem string :
    Takes Reader.string fun text taken => taken = Bytes.string text ∧ EncodableText text := by
  refine uint32.bind ?_
  rintro size _ rfl
  refine position.bind ?_
  rintro start _ rfl
  refine (bytes size.toNat).bind ?_
  rintro _ encoded ⟨rfl, counted⟩
  split
  · next text decoded =>
      have spelled : Bytes.utf8 text = encoded := by
        unfold String.fromUTF8? at decoded
        split at decoded
        · cases decoded
          rfl
        · cases decoded
      refine pure ⟨?_, ?_⟩
      · rw [Bytes.string, Bytes.count, spelled, counted]
        simp [Bytes.uint32]
      · rw [EncodableText, spelled, counted]
        exact size.toNat_lt
  · exact fail _

theorem coded {α : Type} {ofByte? : UInt8 → Option α} {error : UInt8 → Nat → ReadError} :
    (Reader.coded ofByte? error).Takes fun value taken =>
      ∃ byte, taken = [byte] ∧ ofByte? byte = some value := by
  refine position.bind ?_
  rintro offset _ rfl
  refine uint8.bind ?_
  rintro byte _ rfl
  split
  · next value stands => exact pure ⟨byte, by simp, stands⟩
  · exact fail _

end Reader.Takes

/-! ## Groups of seven bits -/

private theorem Reader.Takes.sevenBitGroups (start limit : Nat) :
    (Reader.sevenBitGroups start limit).Takes fun code groups =>
      Bytes.Leb128 groups code ∧ groups.length ≤ limit := by
  induction limit with
  | zero => exact fail _
  | succ limit hypothesis =>
      refine uint8.bind ?_
      rintro byte _ rfl
      split
      · next below =>
          exact pure ⟨.last (Bytes.not_continues_iff.mpr below), Nat.succ_le_succ (Nat.zero_le limit)⟩
      · next above =>
          refine hypothesis.map ?_
          intro code groups taken
          have continues : Bytes.Continues byte := by
            by_contra ends
            exact above (Bytes.not_continues_iff.mp ends)
          have group : byte.toNat - 128 = byte.toNat % 128 := by
            have high := Bytes.continues_iff.mp continues
            have small := byte.toNat_lt
            omega
          rw [group]
          exact ⟨.further continues taken.1, Nat.succ_le_succ taken.2⟩

namespace Bytes.Leb128

variable {groups : Bytes} {n : Nat}

theorem length_pos (form : Leb128 groups n) : 0 < groups.length := by
  cases form <;> exact Nat.succ_pos _

theorem lt_pow (form : Leb128 groups n) : n < 128 ^ groups.length := by
  induction form with
  | last ends => simpa [not_continues_iff, UInt8.lt_iff_toNat_lt] using ends
  | further _ _ hypothesis =>
      rw [List.length_cons, Nat.pow_succ]
      omega

end Bytes.Leb128

/-- A number has no more groups than it needs. -/
theorem Bytes.length_sevenBitGroups_le (limit : Nat) {n size : Nat} (positive : 0 < size)
    (small : n < 128 ^ size) : (sevenBitGroups limit n).length ≤ size := by
  induction limit generalizing n size with
  | zero => exact Nat.zero_le size
  | succ limit ih =>
      rw [sevenBitGroups]
      split
      · exact positive
      · next large =>
          obtain ⟨size, rfl⟩ := Nat.exists_eq_succ_of_ne_zero (Nat.ne_of_gt positive)
          have further : 0 < size := by
            rcases Nat.eq_zero_or_pos size with rfl | further
            · simp at small
              omega
            · exact further
          have quotient : n / 128 < 128 ^ size := by
            rw [Nat.pow_succ] at small
            omega
          exact Nat.succ_le_succ (ih further quotient)

private theorem zigzag_unzigzag {code : Nat} (small : code < 0x100000000) :
    Bytes.zigzag (Int32.ofInt (Reader.unzigzag code)) = code := by
  have lower : -2 ^ 31 ≤ Reader.unzigzag code := by
    unfold Reader.unzigzag
    split <;> omega
  have upper : Reader.unzigzag code < 2 ^ 31 := by
    unfold Reader.unzigzag
    split <;> omega
  unfold Bytes.zigzag
  rw [Int32.toInt_ofInt_of_le lower upper]
  unfold Reader.unzigzag
  dsimp only
  split <;> split <;> omega

/-- No form of an integer is shorter than its own. -/
theorem Bytes.Leb128.length_varint_le {groups : Bytes} {code : Nat} {value : Int32}
    (form : Leb128 groups code) (codes : zigzag value = code % 2 ^ 32) :
    (varint value).length ≤ groups.length := by
  rw [varint, codes]
  exact length_sevenBitGroups_le 5 form.length_pos
    (Nat.lt_of_le_of_lt (Nat.mod_le code _) form.lt_pow)

/-- Bits above the 32nd are dropped. -/
theorem Reader.Takes.varint :
    Takes Reader.varint fun value groups => ∃ code, Bytes.Leb128 groups code ∧ groups.length ≤ 5 ∧
      Bytes.zigzag value = code % 2 ^ 32 := by
  refine position.bind ?_
  rintro start _ rfl
  refine (sevenBitGroups start 5).map ?_
  intro code groups taken
  exact ⟨code, taken.1, taken.2, zigzag_unzigzag (Nat.mod_lt code (by decide))⟩

end PropertyWeaver
