import PropertyWeaver.Proofs.Image.Taken

/-!
# Integers in groups of seven bits

A small magnitude takes few bytes: the code of an integer folds its sign into the lowest bit, and it is
written in as few groups of seven bits as hold it. Reading takes the groups up to the first byte that
does not continue, padded or too wide as they may be, and fails if five bytes continue or the input ends.
-/

set_option autoImplicit false

namespace PropertyWeaver

/-! ## The sign in the lowest bit -/

/-- A word that is shifted by all bits but one, keeping its sign, is nothing but its sign. -/
theorem sshiftRight_sign (word : BitVec 32) :
    word.sshiftRight 31 = if word.msb then BitVec.allOnes 32 else 0 := by
  have cleared {word : BitVec 32} (positive : word.msb = false) : word >>> 31 = 0 := by
    have small := BitVec.msb_eq_false_iff_two_mul_lt.mp positive
    apply BitVec.eq_of_toNat_eq
    rw [BitVec.toNat_ushiftRight, Nat.shiftRight_eq_div_pow]
    exact Nat.div_eq_of_lt (by omega)
  cases sign : word.msb with
  | false =>
      rw [BitVec.sshiftRight_eq_of_msb_false sign, cleared sign]
      rfl
  | true =>
      have flipped : (~~~word).msb = false := by rw [BitVec.msb_not, sign]; rfl
      rw [BitVec.sshiftRight_eq_of_msb_true sign, cleared flipped]
      rfl

/-- The code doubles an integer and flips all bits if it is negative. -/
theorem zigzag_eq_xor (value : Int32) :
    Bytes.zigzag value = ((value <<< 1) ^^^ (value >>> 31)).toUInt32.toNat := by
  change _ = (value.toBitVec <<< 1 ^^^ value.toBitVec.sshiftRight 31).toNat
  have doubled : (value.toBitVec <<< 1).toNat = 2 * value.toBitVec.toNat % 2 ^ 32 := by
    rw [BitVec.toNat_shiftLeft, Nat.shiftLeft_eq, Nat.mul_comm]
  have signed : value.toInt = value.toBitVec.toInt := rfl
  have small := value.toBitVec.isLt
  rw [sshiftRight_sign, Bytes.zigzag, signed, BitVec.toInt_eq_msb_cond]
  cases sign : value.toBitVec.msb with
  | false =>
      have low := BitVec.msb_eq_false_iff_two_mul_lt.mp sign
      simp only [Bool.false_eq_true, ↓reduceIte]
      rw [BitVec.ofNat_eq_ofNat, BitVec.xor_zero, doubled]
      split <;> omega
  | true =>
      have high := BitVec.msb_eq_true_iff_two_mul_ge.mp sign
      simp only [↓reduceIte]
      rw [BitVec.xor_allOnes, BitVec.toNat_not, doubled]
      split <;> omega

/-! ## The number of groups -/

/-- A number has as many groups as it needs. -/
theorem Bytes.length_sevenBitGroups_eq_iff {limit n size : Nat} (fits : n < 128 ^ (limit + 1))
    (positive : 0 < size) :
    (sevenBitGroups (limit + 1) n).length = size ↔
      n < 128 ^ size ∧ (1 < size → 128 ^ (size - 1) ≤ n) := by
  have form := leb128_sevenBitGroups fits
  have some_group := form.length_pos
  constructor
  · intro same
    subst same
    refine ⟨form.lt_pow, fun several => Nat.not_lt.mp fun fewer => ?_⟩
    have shorter := length_sevenBitGroups_le (limit + 1) (Nat.sub_pos_of_lt several) fewer
    omega
  · intro needed
    have enough := length_sevenBitGroups_le (limit + 1) positive needed.1
    by_contra other
    have fewer : (sevenBitGroups (limit + 1) n).length ≤ size - 1 := by omega
    have large := needed.2 (by omega)
    have bounded := Nat.pow_le_pow_right (n := 128) (by decide) fewer
    have small := form.lt_pow
    omega

/-! ## Reading -/

namespace Reader

variable {start limit : Nat} {cursor rest : Cursor} {error : ReadError} {groups : Bytes} {value : Int32}

private theorem map_eq_error {α β : Type} {rename : α → β} {reader : Reader α} :
    (rename <$> reader) cursor = .error error rest ↔ reader cursor = .error error rest := by
  change EStateM.map rename reader cursor = _ ↔ _
  unfold EStateM.map
  cases reader cursor <;> simp

/-- A byte that continues leaves it to the next group how reading ends. -/
theorem sevenBitGroups_cons_eq_error {position : Nat} {byte : UInt8} {unread : Bytes}
    (continues : Bytes.Continues byte) :
    sevenBitGroups start (limit + 1) ⟨position, byte :: unread⟩ = .error error rest ↔
      sevenBitGroups start limit ⟨position + 1, unread⟩ = .error error rest := by
  have above : ¬ byte < 128 := fun below => Bytes.not_continues_iff.mpr below continues
  have step : sevenBitGroups start (limit + 1) ⟨position, byte :: unread⟩ =
      ((byte.toNat - 128 + 128 * ·) <$> sevenBitGroups start limit) ⟨position + 1, unread⟩ := by
    change (if byte < 128 then _ else _ : Reader Nat) _ = _
    rw [if_neg above]
    rfl
  rw [step, map_eq_error]

private theorem sevenBitGroups_eq_error_of_continues (all : ∀ byte ∈ groups, Bytes.Continues byte)
    (spelled : cursor.unread = groups ++ rest.unread)
    (moved : rest.position = cursor.position + groups.length)
    (ending : groups.length = limit ∧ error = .varintOverflow start ∨
      groups.length < limit ∧ rest.unread = [] ∧ error = .unexpectedEnd rest.position) :
    sevenBitGroups start limit cursor = .error error rest := by
  obtain ⟨position, unread⟩ := cursor
  obtain ⟨position', unread'⟩ := rest
  simp only at spelled moved ending
  subst spelled moved
  induction groups generalizing position limit with
  | nil =>
      cases ending with
      | inl full =>
          obtain ⟨rfl, rfl⟩ := full
          rfl
      | inr short =>
          obtain ⟨below, rfl, rfl⟩ := short
          obtain ⟨limit, rfl⟩ := Nat.exists_eq_add_of_le' below
          rfl
  | cons byte groups hypothesis =>
      obtain ⟨here, others⟩ := List.forall_mem_cons.mp all
      have positive : 0 < limit := by
        rw [List.length_cons] at ending
        omega
      obtain ⟨limit, rfl⟩ := Nat.exists_eq_add_of_le' positive
      have next : position + 1 + groups.length = position + (byte :: groups).length := by
        rw [List.length_cons]
        omega
      rw [List.cons_append, sevenBitGroups_cons_eq_error here, ← next]
      refine hypothesis others _ ?_
      rw [next]
      exact (ending.imp_left (And.imp_left Nat.succ.inj)).imp_right
        (And.imp_left Nat.lt_of_succ_lt_succ)

/-- Reading fails behind the bytes that continue: they are as many as are allowed, or the input ends with
them. -/
theorem sevenBitGroups_eq_error :
    sevenBitGroups start limit cursor = .error error rest ↔
      ∃ groups, (∀ byte ∈ groups, Bytes.Continues byte) ∧ cursor.unread = groups ++ rest.unread ∧
        rest.position = cursor.position + groups.length ∧
        (groups.length = limit ∧ error = .varintOverflow start ∨
          groups.length < limit ∧ rest.unread = [] ∧ error = .unexpectedEnd rest.position) := by
  constructor
  · intro fails
    induction limit generalizing cursor with
    | zero =>
        cases fails
        exact ⟨[], List.forall_mem_nil _, rfl, rfl, .inl ⟨rfl, rfl⟩⟩
    | succ limit hypothesis =>
        obtain ⟨position, unread⟩ := cursor
        cases unread with
        | nil =>
            cases fails
            exact ⟨[], List.forall_mem_nil _, rfl, rfl, .inr ⟨Nat.succ_pos limit, rfl, rfl⟩⟩
        | cons byte unread =>
            have continues : Bytes.Continues byte := by
              by_contra ends
              have read := reads_leb128 start (.last ends) (Nat.succ_le_succ (Nat.zero_le limit))
              cases (read position unread).symm.trans fails
            obtain ⟨groups, all, spelled, moved, ending⟩ :=
              hypothesis ((sevenBitGroups_cons_eq_error continues).mp fails)
            refine ⟨byte :: groups, List.forall_mem_cons.mpr ⟨continues, all⟩, ?_, ?_, ?_⟩
            · exact congrArg (byte :: ·) spelled
            · simp only [moved, List.length_cons]
              omega
            · rw [List.length_cons]
              exact (ending.imp_left (And.imp_left (congrArg Nat.succ))).imp_right
                (And.imp_left Nat.succ_lt_succ)
  · intro fails
    obtain ⟨groups, all, spelled, moved, ending⟩ := fails
    exact sevenBitGroups_eq_error_of_continues all spelled moved ending

/-- Reading an integer fails behind five bytes that continue, or at the end of fewer of them. -/
theorem varint_eq_error {position : Nat} {bytes : Bytes} :
    varint ⟨position, bytes⟩ = .error error rest ↔
      (5 ≤ bytes.length ∧ (∀ byte ∈ bytes.take 5, Bytes.Continues byte) ∧
        error = .varintOverflow position ∧ rest = ⟨position + 5, bytes.drop 5⟩) ∨
      (bytes.length < 5 ∧ (∀ byte ∈ bytes, Bytes.Continues byte) ∧
        error = .unexpectedEnd (position + bytes.length) ∧ rest = ⟨position + bytes.length, []⟩) := by
  have decoded : varint ⟨position, bytes⟩ = .error error rest ↔
      sevenBitGroups position 5 ⟨position, bytes⟩ = .error error rest :=
    @map_eq_error ⟨position, bytes⟩ rest error _ _
      (fun code => Int32.ofInt (unzigzag (code % 0x100000000))) _
  rw [decoded, sevenBitGroups_eq_error]
  constructor
  · intro fails
    obtain ⟨groups, all, spelled, moved, ending⟩ := fails
    obtain ⟨position', unread⟩ := rest
    simp only at spelled moved ending
    subst spelled moved
    cases ending with
    | inl full =>
        obtain ⟨five, rfl⟩ := full
        refine .inl ⟨by rw [List.length_append]; omega, ?_, rfl, ?_⟩
        · rwa [← five, List.take_left]
        · rw [← five, List.drop_left]
    | inr short =>
        obtain ⟨fewer, rfl, rfl⟩ := short
        rw [List.append_nil]
        exact .inr ⟨fewer, all, rfl, rfl⟩
  · intro fails
    cases fails with
    | inl full =>
        obtain ⟨long, all, rfl, rfl⟩ := full
        have five : (bytes.take 5).length = 5 := List.length_take_of_le long
        exact ⟨bytes.take 5, all, (List.take_append_drop 5 bytes).symm, by rw [five],
          .inl ⟨five, rfl⟩⟩
    | inr short =>
        obtain ⟨fewer, all, rfl, rfl⟩ := short
        exact ⟨bytes, all, (List.append_nil bytes).symm, rfl, .inr ⟨fewer, rfl, rfl⟩⟩

private theorem varint_eq_ok :
    varint cursor = .ok value rest ↔
      ∃ groups code, cursor.unread = groups ++ rest.unread ∧ groups.length ≤ 5 ∧
        Bytes.Leb128 groups code ∧ Bytes.zigzag value = code % 2 ^ 32 ∧
        rest.position = cursor.position + groups.length := by
  constructor
  · intro read
    obtain ⟨groups, spelled, moved, code, form, short, codes⟩ := Takes.varint _ _ _ read
    exact ⟨groups, code, spelled, short, form, codes, moved⟩
  · intro taken
    obtain ⟨groups, code, spelled, short, form, codes, moved⟩ := taken
    obtain ⟨position, unread⟩ := cursor
    obtain ⟨position', unread'⟩ := rest
    simp only at spelled moved
    subst spelled moved
    exact reads_varint_of_leb128 form short codes position unread'

end Reader

/-- An integer is written in its shortest form, of one to five groups by the size of its code, and read
back whatever follows. Of any bytes, an integer is read exactly if one of the first five is the first
that does not continue: then as the one whose code is that of the groups up to there, cut to 32 bits.
Reading fails exactly if the first five bytes continue, or fewer than five are there and all of them do.
-/
theorem varint_laws (value : Int32) (position : Nat) (bytes : Bytes) :
    Bytes.zigzag value = ((value <<< 1) ^^^ (value >>> 31)).toUInt32.toNat ∧
    Bytes.Leb128 (Bytes.varint value) (Bytes.zigzag value) ∧
    (∀ groups, Bytes.Leb128 groups (Bytes.zigzag value) →
      (Bytes.varint value).length ≤ groups.length) ∧
    (1 ≤ (Bytes.varint value).length ∧ (Bytes.varint value).length ≤ 5) ∧
    (∀ size, 1 ≤ size → ((Bytes.varint value).length = size ↔
      Bytes.zigzag value < 2 ^ (7 * size) ∧
        (1 < size → 2 ^ (7 * (size - 1)) ≤ Bytes.zigzag value))) ∧
    Reader.varint ⟨position, Bytes.varint value ++ bytes⟩ =
      .ok value ⟨position + (Bytes.varint value).length, bytes⟩ ∧
    (∀ result rest, Reader.varint ⟨position, bytes⟩ = .ok result rest ↔
      ∃ groups code, bytes = groups ++ rest.unread ∧ groups.length ≤ 5 ∧ Bytes.Leb128 groups code ∧
        Bytes.zigzag result = code % 2 ^ 32 ∧ rest.position = position + groups.length) ∧
    (∀ error rest, Reader.varint ⟨position, bytes⟩ = .error error rest ↔
      (5 ≤ bytes.length ∧ (∀ byte ∈ bytes.take 5, Bytes.Continues byte) ∧
        error = .varintOverflow position ∧ rest = ⟨position + 5, bytes.drop 5⟩) ∨
      (bytes.length < 5 ∧ (∀ byte ∈ bytes, Bytes.Continues byte) ∧
        error = .unexpectedEnd (position + bytes.length) ∧
        rest = ⟨position + bytes.length, []⟩)) := by
  have form := Reader.leb128_varint value
  have fits : Bytes.zigzag value < 128 ^ (4 + 1) :=
    Nat.lt_trans (Reader.zigzag_lt value) (by decide)
  refine ⟨zigzag_eq_xor value, form, ?_, ⟨form.length_pos, Reader.length_varint_le_five value⟩, ?_,
    Reader.reads_varint value position bytes, fun _ _ => Reader.varint_eq_ok,
    fun _ _ => Reader.varint_eq_error⟩
  · intro groups other
    exact other.length_varint_le (Nat.mod_eq_of_lt (Reader.zigzag_lt value)).symm
  · intro size positive
    rw [Nat.pow_mul, Nat.pow_mul]
    exact Bytes.length_sevenBitGroups_eq_iff fits positive

end PropertyWeaver
