import Mathlib
import ProtoWire.Varint

/-! # Laws of variable-length integers

Decoding looks at the varint in front of a byte string and at nothing after it. The varint of a word
decodes to the word and has the predicted size, and no varint is empty.
-/

namespace ProtoWire.Varint

theorem byte_lt_iff (byte : UInt8) : byte < 0x80 ↔ byte.toNat < 128 := by
  rw [UInt8.lt_iff_toNat_lt]
  rfl

/-! ## Groups
-/

theorem decodeGroups_encodeGroups (more n : Nat) (rest : Bytes) (hn : n < 128 ^ (more + 1)) :
    decodeGroups? (more + 1) (encodeGroups more n ++ rest) =
      some (n, (encodeGroups more n).length) := by
  induction more generalizing n with
  | zero =>
      have hbyte : (UInt8.ofNat n).toNat = n := by
        rw [UInt8.toNat_ofNat']
        omega
      have hlast : UInt8.ofNat n < 0x80 := by
        rw [byte_lt_iff, hbyte]
        omega
      simp only [encodeGroups, List.cons_append, decodeGroups?, if_pos hlast, hbyte,
        List.length_cons, List.length_nil]
  | succ more ih =>
      by_cases hsmall : n < 128
      · have hbyte : (UInt8.ofNat n).toNat = n := by
          rw [UInt8.toNat_ofNat']
          omega
        have hlast : UInt8.ofNat n < 0x80 := by
          rw [byte_lt_iff, hbyte]
          exact hsmall
        simp only [encodeGroups, if_pos hsmall, List.cons_append, decodeGroups?, if_pos hlast,
          hbyte, List.length_cons, List.length_nil]
      · have hbyte : (UInt8.ofNat (n % 128 + 128)).toNat = n % 128 + 128 := by
          rw [UInt8.toNat_ofNat']
          omega
        have hmore : ¬ UInt8.ofNat (n % 128 + 128) < 0x80 := by
          rw [byte_lt_iff, hbyte]
          omega
        -- The bits above the first seven fit into one group fewer.
        have hdiv : n / 128 < 128 ^ (more + 1) := by
          rw [Nat.div_lt_iff_lt_mul (by decide)]
          rwa [pow_succ] at hn
        simp only [encodeGroups, if_neg hsmall, List.cons_append]
        rw [decodeGroups?, if_neg hmore, ih _ hdiv]
        simp only [Option.map_some, hbyte, List.length_cons, Option.some.injEq, Prod.mk.injEq,
          and_true]
        omega

/-- A varint takes between one byte and all the bytes there are. -/
theorem decodeGroups_count {groups : Nat} {bytes : Bytes} {value count : Nat}
    (hdecode : decodeGroups? groups bytes = some (value, count)) :
    0 < count ∧ count ≤ bytes.length ∧ count ≤ groups := by
  induction groups generalizing bytes value count with
  | zero => simp [decodeGroups?] at hdecode
  | succ groups ih =>
      cases bytes with
      | nil => simp [decodeGroups?] at hdecode
      | cons byte rest =>
          rw [decodeGroups?] at hdecode
          split at hdecode
          · simp only [Option.some.injEq, Prod.mk.injEq] at hdecode
            simp only [List.length_cons]
            omega
          · rw [Option.map_eq_some_iff] at hdecode
            obtain ⟨⟨value', count'⟩, hrest, heq⟩ := hdecode
            have hcount := ih hrest
            simp only [Prod.mk.injEq] at heq
            simp only [List.length_cons]
            omega

/-- Only the bytes that a varint takes have a part in decoding it. -/
theorem decodeGroups_append {groups : Nat} {bytes : Bytes} {value count : Nat}
    (hdecode : decodeGroups? groups bytes = some (value, count)) (after : Bytes) :
    decodeGroups? groups (bytes.take count ++ after) = some (value, count) := by
  induction groups generalizing bytes value count with
  | zero => simp [decodeGroups?] at hdecode
  | succ groups ih =>
      cases bytes with
      | nil => simp [decodeGroups?] at hdecode
      | cons byte rest =>
          rw [decodeGroups?] at hdecode
          split at hdecode
          next hlast =>
            simp only [Option.some.injEq, Prod.mk.injEq] at hdecode
            obtain ⟨rfl, rfl⟩ := hdecode
            simp only [List.take_succ_cons, List.take_zero, List.cons_append, decodeGroups?,
              if_pos hlast]
          next hmore =>
            rw [Option.map_eq_some_iff] at hdecode
            obtain ⟨⟨value', count'⟩, hrest, heq⟩ := hdecode
            simp only [Prod.mk.injEq] at heq
            obtain ⟨rfl, rfl⟩ := heq
            simp only [List.take_succ_cons, List.cons_append, decodeGroups?, if_neg hmore,
              ih hrest, Option.map_some]

theorem decodeGroups_take (groups : Nat) (bytes : Bytes) :
    decodeGroups? groups (bytes.take groups) = decodeGroups? groups bytes := by
  induction groups generalizing bytes with
  | zero => simp [decodeGroups?]
  | succ groups ih =>
      cases bytes with
      | nil => rfl
      | cons byte rest => simp only [List.take_succ_cons, decodeGroups?, ih]

/-- A varint ends at the first byte without the high bit. -/
theorem decodeGroups_split {groups : Nat} {bytes : Bytes} {value count : Nat}
    (hdecode : decodeGroups? groups bytes = some (value, count)) :
    ∃ front last rest, bytes = front ++ last :: rest ∧ (∀ byte ∈ front, ¬ byte < 0x80) ∧
      last < 0x80 ∧ front.length + 1 = count := by
  induction groups generalizing bytes value count with
  | zero => simp [decodeGroups?] at hdecode
  | succ groups ih =>
      cases bytes with
      | nil => simp [decodeGroups?] at hdecode
      | cons byte rest =>
          rw [decodeGroups?] at hdecode
          split at hdecode
          next hlast =>
            simp only [Option.some.injEq, Prod.mk.injEq] at hdecode
            exact ⟨[], byte, rest, rfl, fun _ => nofun, hlast, hdecode.2⟩
          next hmore =>
            rw [Option.map_eq_some_iff] at hdecode
            obtain ⟨⟨value', count'⟩, hrest, heq⟩ := hdecode
            obtain ⟨front, last, rest', rfl, hfront, hlast, rfl⟩ := ih hrest
            simp only [Prod.mk.injEq] at heq
            refine ⟨byte :: front, last, rest', rfl, ?_, hlast, heq.2⟩
            exact List.forall_mem_cons.mpr ⟨hmore, hfront⟩

/-- The number that groups denote: its digits in base 128, least significant first, are the low
seven bits of the bytes. -/
def groupsValue (bytes : Bytes) : Nat := Nat.ofDigits 128 (bytes.map (·.toNat % 128))

theorem groupsValue_cons (byte : UInt8) (bytes : Bytes) :
    groupsValue (byte :: bytes) = byte.toNat % 128 + 128 * groupsValue bytes := by
  rw [groupsValue, List.map_cons, Nat.ofDigits_cons]
  rfl

/-- Bytes with the high bit and one without it are the varint of the number that they denote,
whatever follows. -/
theorem decodeGroups_terminated {groups : Nat} {front : Bytes} {last : UInt8}
    (hfront : ∀ byte ∈ front, ¬ byte < 0x80) (hlast : last < 0x80)
    (hlength : front.length < groups) (rest : Bytes) :
    decodeGroups? groups (front ++ last :: rest) =
      some (groupsValue (front ++ [last]), front.length + 1) := by
  induction groups generalizing front with
  | zero => exact absurd hlength (Nat.not_lt_zero _)
  | succ groups ih =>
      cases front with
      | nil =>
          have hdigit : groupsValue [last] = last.toNat := by
            rw [groupsValue, List.map_singleton, Nat.ofDigits_singleton]
            exact Nat.mod_eq_of_lt ((byte_lt_iff last).mp hlast)
          rw [List.nil_append, decodeGroups?, if_pos hlast, List.nil_append, hdigit]
          rfl
      | cons byte front =>
          obtain ⟨hbyte, hfront⟩ := List.forall_mem_cons.mp hfront
          rw [List.cons_append, decodeGroups?, if_neg hbyte,
            ih hfront (Nat.lt_of_succ_lt_succ hlength), List.cons_append, groupsValue_cons]
          rfl

/-- Bytes are no varint exactly if none of those looked at ends it. -/
theorem decodeGroups_eq_none_iff (groups : Nat) (bytes : Bytes) :
    decodeGroups? groups bytes = none ↔ ∀ byte ∈ bytes.take groups, ¬ byte < 0x80 := by
  induction groups generalizing bytes with
  | zero => simp [decodeGroups?]
  | succ groups ih =>
      cases bytes with
      | nil => simp [decodeGroups?]
      | cons byte rest =>
          rw [decodeGroups?, List.take_succ_cons, List.forall_mem_cons]
          split
          next hlast => simp [hlast]
          next hmore => simp [hmore, ih]

/-! ## Words -/

theorem decode_eq_ok_iff {bytes : Bytes} {value : UInt64} {count : Nat} :
    decode bytes = .ok (value, count) ↔
      ∃ n, decodeGroups? maxLength bytes = some (n, count) ∧ UInt64.ofNat n = value := by
  unfold decode
  cases hgroups : decodeGroups? maxLength bytes with
  | none =>
      constructor
      · intro h
        dsimp only at h
        split at h <;> cases h
      · rintro ⟨_, h, _⟩
        cases h
  | some found =>
      obtain ⟨n, count'⟩ := found
      simp only [Except.ok.injEq, Prod.mk.injEq, Option.some.injEq]
      constructor
      · rintro ⟨hvalue, hcount⟩
        exact ⟨n, ⟨rfl, hcount⟩, hvalue⟩
      · rintro ⟨_, ⟨rfl, hcount⟩, hvalue⟩
        exact ⟨hvalue, hcount⟩

theorem decode_count {bytes : Bytes} {value : UInt64} {count : Nat}
    (hdecode : decode bytes = .ok (value, count)) : 0 < count ∧ count ≤ bytes.length := by
  obtain ⟨n, hgroups, _⟩ := decode_eq_ok_iff.mp hdecode
  exact ⟨(decodeGroups_count hgroups).1, (decodeGroups_count hgroups).2.1⟩

theorem decode_take_append {bytes : Bytes} {value : UInt64} {count : Nat}
    (hdecode : decode bytes = .ok (value, count)) (after : Bytes) :
    decode (bytes.take count ++ after) = .ok (value, count) := by
  obtain ⟨n, hgroups, hvalue⟩ := decode_eq_ok_iff.mp hdecode
  exact decode_eq_ok_iff.mpr ⟨n, decodeGroups_append hgroups after, hvalue⟩

/-- The word in front of a byte string is that of the bytes up to the first without the high bit. -/
theorem decode_split {bytes : Bytes} {value : UInt64} {count : Nat}
    (hdecode : decode bytes = .ok (value, count)) :
    ∃ front last rest, bytes = front ++ last :: rest ∧ (∀ byte ∈ front, ¬ byte < 0x80) ∧
      last < 0x80 ∧ front.length + 1 = count ∧ front.length < maxLength ∧
      decode (front ++ [last]) = .ok (value, count) := by
  obtain ⟨n, hgroups, _⟩ := decode_eq_ok_iff.mp hdecode
  have hcount := (decodeGroups_count hgroups).2.2
  obtain ⟨front, last, rest, rfl, hfront, hlast, rfl⟩ := decodeGroups_split hgroups
  have htake := decode_take_append hdecode []
  rw [List.append_nil, List.append_cons, List.take_left' (by simp)] at htake
  exact ⟨front, last, rest, rfl, hfront, hlast, rfl, hcount, htake⟩

/-- The word is the number that the bytes denote, without the bits beyond the sixty-fourth. -/
theorem decode_groups {front : Bytes} {last : UInt8} (hfront : ∀ byte ∈ front, ¬ byte < 0x80)
    (hlast : last < 0x80) (hlength : front.length < maxLength) (rest : Bytes) :
    decode (front ++ last :: rest) =
      .ok (UInt64.ofNat (groupsValue (front ++ [last])), front.length + 1) :=
  decode_eq_ok_iff.mpr ⟨_, decodeGroups_terminated hfront hlast hlength rest, rfl⟩

theorem decode_terminated {front : Bytes} {last : UInt8}
    (hfront : ∀ byte ∈ front, ¬ byte < 0x80) (hlast : last < 0x80)
    (hlength : front.length < maxLength) :
    ∃ value, ∀ rest, decode (front ++ last :: rest) = .ok (value, front.length + 1) :=
  ⟨_, decode_groups hfront hlast hlength⟩

/-- No word is in front of a byte string if none of its first ten bytes ends it. Shorter byte strings
may go on, all others are refused for good. -/
theorem decode_eq_error_iff {bytes : Bytes} {error : DecodeError} :
    decode bytes = .error error ↔ (∀ byte ∈ bytes.take maxLength, ¬ byte < 0x80) ∧
      error = if maxLength ≤ bytes.length then .malformedVarint
        else .truncated (bytes.length + 1) bytes.length := by
  rw [← decodeGroups_eq_none_iff]
  unfold decode
  cases decodeGroups? maxLength bytes with
  | some found => simp
  | none => by_cases hlong : maxLength ≤ bytes.length <;> simp [hlong, eq_comm]

/-- A varint is decoded from its first ten bytes, also when it is refused. -/
theorem decode_take (bytes : Bytes) : decode (bytes.take maxLength) = decode bytes := by
  unfold decode
  rw [decodeGroups_take]
  cases decodeGroups? maxLength bytes with
  | some found => rfl
  | none =>
      by_cases hlong : maxLength ≤ bytes.length
      · simp only [List.length_take, Nat.min_eq_left hlong, le_refl, if_true, if_pos hlong]
      · rw [List.take_of_length_le (by omega)]

theorem decode_encode_append (value : UInt64) (rest : Bytes) :
    decode (encode value ++ rest) = .ok (value, (encode value).length) := by
  refine decode_eq_ok_iff.mpr ⟨value.toNat, ?_, UInt64.ofNat_toNat⟩
  have hbound := value.toNat_lt
  exact decodeGroups_encodeGroups 9 value.toNat rest (by omega)

theorem encode_injective : Function.Injective encode := by
  intro value value' hencode
  have hdecode := decode_encode_append value []
  rw [hencode, decode_encode_append] at hdecode
  exact (Prod.mk.inj (Except.ok.inj hdecode)).1.symm

/-! ## Sizes -/

theorem log2_or_one {n : Nat} (hn : n ≠ 0) : (n ||| 1).log2 = n.log2 := by
  have hor : n ||| 1 = n / 2 * 2 + 1 := by
    have h := Nat.two_pow_add_eq_or_of_lt (i := 1) (b := 1) (by decide) (n / 2)
    have hlow : n ||| 1 = (2 ^ 1 * (n / 2)) ||| 1 := by
      apply Nat.eq_of_testBit_eq
      intro i
      cases i with
      | zero => simp
      | succ i => simp [Nat.testBit_succ, Nat.or_div_two]
    rw [hlow, ← h]
    omega
  rw [hor]
  by_cases hone : n = 1
  · subst hone
    rfl
  · rw [Nat.log2_def, Nat.log2_def n]
    rw [if_pos (by omega), if_pos (by omega)]
    congr 2
    omega

theorem log2_div_128 {n : Nat} (hn : 128 ≤ n) : n.log2 = (n / 128).log2 + 7 := by
  have hstep : ∀ m, 2 ≤ m → m.log2 = (m / 2).log2 + 1 := fun m hm => by
    rw [Nat.log2_def, if_pos hm]
  rw [hstep n (by omega), hstep (n / 2) (by omega), hstep (n / 2 / 2) (by omega),
    hstep (n / 2 / 2 / 2) (by omega), hstep (n / 2 / 2 / 2 / 2) (by omega),
    hstep (n / 2 / 2 / 2 / 2 / 2) (by omega), hstep (n / 2 / 2 / 2 / 2 / 2 / 2) (by omega)]
  have hdiv : n / 2 / 2 / 2 / 2 / 2 / 2 / 2 = n / 128 := by omega
  rw [hdiv]

theorem length_encodeGroups (more n : Nat) (hn : n < 128 ^ (more + 1)) :
    (encodeGroups more n).length = ((n ||| 1).log2 + 1 + 6) / 7 := by
  induction more generalizing n with
  | zero =>
      have hbits : (n ||| 1).log2 < 7 := by
        rw [Nat.log2_lt (by simp)]
        exact Nat.or_lt_two_pow (by omega) (by decide)
      simp only [encodeGroups, List.length_cons, List.length_nil]
      omega
  | succ more ih =>
      by_cases hsmall : n < 128
      · have hbits : (n ||| 1).log2 < 7 := by
          rw [Nat.log2_lt (by simp)]
          exact Nat.or_lt_two_pow (by omega) (by decide)
        simp only [encodeGroups, if_pos hsmall, List.length_cons, List.length_nil]
        omega
      · have hdiv : n / 128 < 128 ^ (more + 1) := by
          rw [Nat.div_lt_iff_lt_mul (by decide)]
          rwa [pow_succ] at hn
        simp only [encodeGroups, if_neg hsmall, List.length_cons, ih _ hdiv]
        -- Away from 0 the added lowest bit has no part in the logarithm.
        rw [log2_or_one (by omega), log2_or_one (by omega), log2_div_128 (by omega : 128 ≤ n)]
        omega

/-- The varint of a word has the predicted size. -/
@[simp]
theorem length_encode (value : UInt64) : (encode value).length = size value := by
  have hbound := value.toNat_lt
  have hor : (value ||| 1).toNat = value.toNat ||| 1 := UInt64.toNat_or value 1
  rw [encode, length_encodeGroups _ _ (by simp only [maxLength]; omega), size, hor]

theorem size_pos (value : UInt64) : 0 < size value := by
  simp only [size]
  omega

/-- A payload behind its length has the predicted size. -/
@[simp]
theorem length_delimited (payload : Bytes) :
    (delimited payload).length = delimitedSize payload.length := by
  simp only [delimited, delimitedSize, List.length_append, length_encode]

end ProtoWire.Varint
