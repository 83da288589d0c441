import ProtoWire.Proofs.AsWritten

/-! # The shortest varint of a word

Encoding and decoding shift and join the bits of a word seven at a time. Which bytes are a varint is
told by their high bits alone: one of the first ten has to end it. No varint of a word is shorter
than the one that is encoded, and below ten bytes no other is as short.
-/

namespace ProtoWire.Varint

/-! ## Seven bits at a time -/

theorem toNat_shiftRight_seven (word : UInt64) : (word >>> 7).toNat = word.toNat / 128 := by
  rw [UInt64.toNat_shiftRight]
  exact Nat.shiftRight_eq_div_pow word.toNat 7

theorem word_lt_iff (word : UInt64) : word < 0x80 ↔ word.toNat < 128 := by
  rw [UInt64.lt_iff_toNat_lt]
  rfl

/-- A byte whose high bit is set is 128 more than its low seven bits. -/
theorem toNat_or_high (byte : UInt8) : (byte ||| 0x80).toNat = byte.toNat % 128 + 128 := by
  have hor : ∀ n : Fin 256, n.val ||| 128 = n.val % 128 + 128 := by decide +kernel
  rw [UInt8.toNat_or]
  exact hor ⟨byte.toNat, byte.toNat_lt⟩

/-- The groups of a number that fits into fewer are the same whatever number is allowed. -/
theorem encodeGroups_succ {more n : Nat} (hn : n < 128 ^ (more + 1)) :
    encodeGroups (more + 1) n = encodeGroups more n := by
  induction more generalizing n with
  | zero =>
      rw [encodeGroups]
      exact if_pos (by simpa using hn)
  | succ more ih =>
      have hdiv : n / 128 < 128 ^ (more + 1) := by
        rw [Nat.div_lt_iff_lt_mul (by decide), ← pow_succ]
        exact hn
      rw [encodeGroups, ih hdiv]
      rfl

/-- The varint of a word is its low seven bits, before the varint of the others if there are any. -/
theorem encode_eq (word : UInt64) : encode word =
    if word < 0x80 then [word.toUInt8] else (word.toUInt8 ||| 0x80) :: encode (word >>> 7) := by
  have hbound := word.toNat_lt
  have hdiv : word.toNat / 128 < 128 ^ (8 + 1) := by omega
  have hrest : encode (word >>> 7) = encodeGroups 8 (word.toNat / 128) := by
    rw [encode, toNat_shiftRight_seven]
    exact encodeGroups_succ hdiv
  rw [hrest, encode]
  change encodeGroups (8 + 1) word.toNat = _
  rw [encodeGroups]
  simp only [word_lt_iff]
  split
  · simp
  · congr 1
    apply UInt8.toNat_inj.mp
    rw [toNat_or_high]
    simp
    omega

/-- Puts the bits of a word behind a buffer, and counts the bytes from `written` on. -/
def putBits (word : UInt64) (buffer : Bytes) (written : Nat) : Bytes × Nat :=
  if word < 0x80 then (buffer ++ [word.toUInt8], written)
  else putBits (word >>> 7) (buffer ++ [word.toUInt8 ||| 0x80]) (written + 1)
termination_by word.toNat
decreasing_by
  rename_i hlarge
  rw [toNat_shiftRight_seven]
  rw [word_lt_iff] at hlarge
  omega

theorem putBits_eq (word : UInt64) (buffer : Bytes) (written : Nat) :
    putBits word buffer written = (buffer ++ encode word, written + size word - 1) := by
  rw [← length_encode]
  fun_induction putBits word buffer written with
  | case1 word buffer written hsmall =>
      rw [encode_eq, if_pos hsmall]
      rfl
  | case2 word buffer written hlarge ih =>
      rw [ih, encode_eq word, if_neg hlarge]
      simp only [List.append_assoc, List.singleton_append, List.length_cons]
      congr 1
      omega

/-- The word that the low seven bits of bytes are joined to, up to the first byte without the high
bit, and the number of bytes; the bits of the first byte are put at a place, and those before it are
given. -/
def joinBits (place : Nat) (word : UInt64) : Bytes → Option (UInt64 × Nat)
  | [] => none
  | byte :: rest =>
      let word := word ||| (byte &&& 0x7f).toUInt64 <<< UInt64.ofNat (7 * place)
      if byte < 0x80 then some (word, place + 1) else joinBits (place + 1) word rest

theorem toNat_and_low (byte : UInt8) : (byte &&& 0x7f).toNat = byte.toNat % 128 := by
  rw [UInt8.toNat_and]
  exact Nat.and_two_pow_sub_one_eq_mod byte.toNat 7

/-- Bits that are joined above all others are added, without those beyond the sixty-fourth. -/
theorem join_eq {place : Nat} {word : UInt64} (byte : UInt8) (hplace : place < maxLength)
    (hword : word.toNat < 128 ^ place) :
    word ||| (byte &&& 0x7f).toUInt64 <<< UInt64.ofNat (7 * place) =
      UInt64.ofNat (word.toNat + 128 ^ place * (byte.toNat % 128)) := by
  have hshift : 7 * place < 64 := by
    rw [maxLength] at hplace
    omega
  have hpow : 128 ^ place = 2 ^ (7 * place) := (pow_mul 2 7 place).symm
  have hwidth : 2 ^ 64 = 2 ^ (7 * place) * 2 ^ (64 - 7 * place) := by
    rw [← pow_add]
    congr 1
    omega
  rw [hpow] at hword ⊢
  apply UInt64.toNat_inj.mp
  calc (word ||| (byte &&& 0x7f).toUInt64 <<< UInt64.ofNat (7 * place)).toNat
      = word.toNat ||| 2 ^ (7 * place) * (byte.toNat % 128) % 2 ^ 64 := by
        rw [UInt64.toNat_or, UInt64.toNat_shiftLeft, UInt8.toNat_toUInt64, toNat_and_low,
          UInt64.toNat_ofNat_of_lt' (hshift.trans (by decide)), Nat.mod_eq_of_lt hshift,
          Nat.shiftLeft_eq, Nat.mul_comm]
    _ = word.toNat ||| 2 ^ (7 * place) * (byte.toNat % 128 % 2 ^ (64 - 7 * place)) := by
        rw [hwidth, Nat.mul_mod_mul_left]
    _ = word.toNat + 2 ^ (7 * place) * (byte.toNat % 128 % 2 ^ (64 - 7 * place)) := by
        rw [Nat.or_comm, ← Nat.two_pow_add_eq_or_of_lt hword, Nat.add_comm]
    _ = (word.toNat + 2 ^ (7 * place) * (byte.toNat % 128)) % 2 ^ 64 := by
        rw [hwidth, Nat.mod_mul, Nat.add_mul_mod_self_left, Nat.mod_eq_of_lt hword,
          Nat.add_mul_div_left _ _ (Nat.two_pow_pos _), Nat.div_eq_of_lt hword, Nat.zero_add]
    _ = (UInt64.ofNat (word.toNat + 2 ^ (7 * place) * (byte.toNat % 128))).toNat :=
        UInt64.toNat_ofNat'.symm

theorem joinBits_eq {place groups : Nat} {word : UInt64} {bytes : Bytes}
    (hlength : bytes.length ≤ groups) (hgroups : place + groups ≤ maxLength)
    (hword : word.toNat < 128 ^ place) :
    joinBits place word bytes = (decodeGroups? groups bytes).map fun (value, count) =>
      (UInt64.ofNat (word.toNat + 128 ^ place * value), place + count) := by
  induction bytes generalizing place groups word with
  | nil => cases groups <;> rfl
  | cons byte rest ih =>
      have hpositive : 0 < groups := (Nat.zero_lt_succ _).trans_le hlength
      obtain ⟨groups, rfl⟩ := Nat.exists_eq_add_of_lt hpositive
      rw [Nat.zero_add] at hlength hgroups ⊢
      rw [joinBits, decodeGroups?, join_eq byte (by omega) hword]
      split
      next hlast =>
        rw [Nat.mod_eq_of_lt ((byte_lt_iff byte).mp hlast)]
        rfl
      next =>
        have hjoined : (UInt64.ofNat (word.toNat + 128 ^ place * (byte.toNat % 128))).toNat <
            128 ^ (place + 1) := by
          have hlow : byte.toNat % 128 ≤ 127 := by omega
          have hhigh := Nat.mul_le_mul_left (128 ^ place) hlow
          have hmod := Nat.mod_le (word.toNat + 128 ^ place * (byte.toNat % 128)) (2 ^ 64)
          rw [UInt64.toNat_ofNat', pow_succ]
          omega
        rw [ih (Nat.le_of_succ_le_succ hlength) (by omega) hjoined, Option.map_map]
        congr 1
        ext ⟨value, count⟩
        · have hsum : word.toNat + 128 ^ place * (byte.toNat % 128 + 128 * value) =
              word.toNat + 128 ^ place * (byte.toNat % 128) + 128 ^ (place + 1) * value := by
            ring
          simp only [Function.comp_apply]
          rw [hsum, UInt64.ofNat_add (_ + _) (_ * value), UInt64.ofNat_add, UInt64.ofNat_toNat]
        · simp only [Function.comp_apply]
          omega

/-- Decoding joins the bits of the first ten bytes. -/
theorem decode_eq_ok_iff_joinBits {bytes : Bytes} {value : UInt64} {count : Nat} :
    decode bytes = .ok (value, count) ↔
      joinBits 0 0 (bytes.take maxLength) = some (value, count) := by
  have hjoined : joinBits 0 0 (bytes.take maxLength) = _ :=
    joinBits_eq (List.length_take_le maxLength bytes) (Nat.zero_add maxLength).le Nat.one_pos
  rw [decodeGroups_take] at hjoined
  rw [decode_eq_ok_iff, hjoined]
  simp only [Option.map_eq_some_iff, Prod.exists, Prod.mk.injEq]
  constructor
  · rintro ⟨n, hgroups, rfl⟩
    exact ⟨n, count, hgroups, by simp, Nat.zero_add count⟩
  · rintro ⟨n, count', hgroups, hvalue, hcount⟩
    rw [Nat.zero_add] at hcount
    subst hcount
    exact ⟨n, hgroups, by simpa using hvalue⟩

/-- The predicted size counts the bits of a word below its leading zeros. -/
theorem size_eq_clz (value : UInt64) :
    size value = (64 - (value ||| 1).toBitVec.clz.toNat + 6) / 7 := by
  have hodd : (value ||| 1).toBitVec ≠ 0#64 := by
    intro hzero
    have hbit := congrArg (BitVec.getLsbD · 0) hzero
    simp at hbit
  have hclz : (value ||| 1).toBitVec.clz.toNat < 64 := BitVec.clz_lt_iff_ne_zero.mpr hodd
  have hlow := BitVec.two_pow_sub_clz_le_toNat_of_ne_zero (by decide) hodd
  have hhigh := @BitVec.toNat_lt_two_pow_sub_clz 64 (value ||| 1).toBitVec
  have hlog : (value ||| 1).toNat.log2 = 64 - 1 - (value ||| 1).toBitVec.clz.toNat := by
    refine (Nat.log2_eq_iff fun hzero => hodd (BitVec.eq_of_toNat_eq hzero)).mpr ⟨hlow, ?_⟩
    rwa [(by omega : 64 - 1 - (value ||| 1).toBitVec.clz.toNat + 1 =
      64 - (value ||| 1).toBitVec.clz.toNat)]
  simp only [size, hlog]
  congr 1
  omega

/-! ## One varint for every size -/

/-- Bytes are told by whether they have the high bit and by the other seven. -/
theorem byte_eq {byte byte' : UInt8} (hlow : byte.toNat % 128 = byte'.toNat % 128)
    (hhigh : byte < 0x80 ↔ byte' < 0x80) : byte = byte' := by
  have hbound := byte.toNat_lt
  have hbound' := byte'.toNat_lt
  rw [byte_lt_iff, byte_lt_iff] at hhigh
  apply UInt8.toNat_inj.mp
  omega

/-- Bytes that end at the same place and denote the same number are the same. -/
theorem eq_of_groupsValue {front front' : Bytes} {last last' : UInt8}
    (hlength : front.length = front'.length) (hfront : ∀ byte ∈ front, ¬ byte < 0x80)
    (hfront' : ∀ byte ∈ front', ¬ byte < 0x80) (hlast : last < 0x80) (hlast' : last' < 0x80)
    (hvalue : groupsValue (front ++ [last]) = groupsValue (front' ++ [last'])) :
    front ++ [last] = front' ++ [last'] := by
  induction front generalizing front' with
  | nil =>
      cases List.length_eq_zero_iff.mp hlength.symm
      simp only [List.nil_append, groupsValue_cons] at hvalue ⊢
      rw [byte_eq (by omega) (iff_of_true hlast hlast')]
  | cons byte front ih =>
      obtain ⟨byte', front', rfl⟩ := List.exists_cons_of_length_eq_add_one hlength.symm
      obtain ⟨hbyte, hfront⟩ := List.forall_mem_cons.mp hfront
      obtain ⟨hbyte', hfront'⟩ := List.forall_mem_cons.mp hfront'
      simp only [List.cons_append, groupsValue_cons] at hvalue ⊢
      rw [byte_eq (by omega) (iff_of_false hbyte hbyte'),
        ih (Nat.succ.inj hlength) hfront hfront' (by omega)]

theorem groupsValue_lt (bytes : Bytes) : groupsValue bytes < 128 ^ bytes.length := by
  have hdigits := Nat.ofDigits_lt_base_pow_length (b := 128) (l := bytes.map (·.toNat % 128))
    (by decide) (by simp [Nat.mod_lt])
  rwa [List.length_map] at hdigits

/-- Up to nine bytes, the bytes of a word are told by the word and by how many they are. -/
theorem take_eq_of_decode {bytes bytes' : Bytes} {value : UInt64} {count : Nat}
    (hdecode : decode bytes = .ok (value, count)) (hdecode' : decode bytes' = .ok (value, count))
    (hcount : count < maxLength) : bytes.take count = bytes'.take count := by
  obtain ⟨front, last, rest, rfl, hfront, hlast, rfl, hlong, -⟩ := decode_split hdecode
  obtain ⟨front', last', rest', rfl, hfront', hlast', hlength, hlong', -⟩ := decode_split hdecode'
  rw [decode_groups hfront hlast hlong] at hdecode
  rw [decode_groups hfront' hlast' hlong'] at hdecode'
  -- Nine groups of seven bits fit into a word, so the word still is the number that they denote.
  have hsmall : ∀ {bytes : Bytes}, bytes.length < maxLength →
      (UInt64.ofNat (groupsValue bytes)).toNat = groupsValue bytes := by
    intro bytes hbytes
    have hnine : (128 : Nat) ^ bytes.length ≤ 128 ^ 9 :=
      Nat.pow_le_pow_right (by decide) (Nat.le_of_lt_succ hbytes)
    apply UInt64.toNat_ofNat_of_lt'
    exact (groupsValue_lt bytes).trans_le (hnine.trans (by decide))
  have hwords := (Prod.mk.inj (Except.ok.inj (hdecode.trans hdecode'.symm))).1
  have hvalue := congrArg UInt64.toNat hwords
  rw [hsmall (by simpa using hcount), hsmall (by simpa [hlength] using hcount)] at hvalue
  have hsame := eq_of_groupsValue (Nat.succ.inj hlength).symm hfront hfront' hlast hlast' hvalue
  rw [List.append_cons, List.append_cons front', hsame, List.take_left' (by simp [hlength]),
    List.take_left' (by simp [hlength])]

/-- No varint of a word takes fewer bytes than its size. -/
theorem size_le_of_decode {bytes : Bytes} {value : UInt64} {count : Nat}
    (hdecode : decode bytes = .ok (value, count)) : size value ≤ count := by
  have htaken := decode_take_append hdecode []
  have hlength : (bytes.take count).length = count :=
    List.length_take_of_le (decode_count hdecode).2
  rw [List.append_nil] at htaken
  have hdenotes : Denotes (bytes.take count) value := by
    rw [Denotes, htaken, hlength]
  have hle := length_encode_le hdenotes
  rwa [length_encode, hlength] at hle

/-- Up to nine bytes, a varint of the size of its word is the one that is encoded. -/
theorem take_eq_encode {bytes : Bytes} {value : UInt64}
    (hdecode : decode bytes = .ok (value, size value)) (hsize : size value < maxLength) :
    bytes.take (size value) = encode value := by
  have hback := decode_encode_append value []
  rw [length_encode] at hback
  rw [take_eq_of_decode hdecode hback hsize, List.append_nil, List.take_of_length_le (by simp)]

/-! ## Which bytes are a varint -/

/-- A varint is in front of a byte string exactly if one of its first ten bytes ends it. -/
theorem exists_decode_iff (bytes : Bytes) :
    (∃ value count, decode bytes = .ok (value, count)) ↔
      ∃ byte ∈ bytes.take maxLength, byte < 0x80 := by
  have hnone := (decodeGroups_eq_none_iff maxLength bytes).not
  simp only [not_forall, not_not, exists_prop] at hnone
  rw [← hnone, ← ne_eq, Option.ne_none_iff_exists']
  simp only [decode_eq_ok_iff]
  constructor
  · rintro ⟨_, count, n, hgroups, -⟩
    exact ⟨(n, count), hgroups⟩
  · rintro ⟨⟨n, count⟩, hgroups⟩
    exact ⟨_, count, n, hgroups, rfl⟩

theorem decode_eq_malformed_iff (bytes : Bytes) : decode bytes = .error .malformedVarint ↔
    maxLength ≤ bytes.length ∧ ∀ byte ∈ bytes.take maxLength, 0x80 ≤ byte := by
  simp only [decode_eq_error_iff, UInt8.not_lt]
  by_cases hlong : maxLength ≤ bytes.length
  · simp [hlong]
  · simp [hlong]

theorem decode_eq_truncated_iff (bytes : Bytes) :
    decode bytes = .error (.truncated (bytes.length + 1) bytes.length) ↔
      bytes.length < maxLength ∧ ∀ byte ∈ bytes, 0x80 ≤ byte := by
  simp only [decode_eq_error_iff, UInt8.not_lt]
  by_cases hlong : maxLength ≤ bytes.length
  · simp [hlong]
  · rw [not_le] at hlong
    simp [hlong, List.take_of_length_le hlong.le]

/-! ## Canonical and minimal -/

/-- Every word is put as its varint, which has the predicted size and decodes to the word whatever
follows. A byte string decodes exactly if one of its first ten bytes ends a varint, and otherwise it
is refused for good or found too short. No varint of a word is shorter than the one that is put, and
below ten bytes none of the same size is another. -/
theorem encode_shortest :
    (∀ (value : UInt64) (buffer rest : Bytes),
      putBits value buffer 1 = (buffer ++ encode value, size value) ∧
      (encode value).length = size value ∧
      size value = (64 - (value ||| 1).toBitVec.clz.toNat + 6) / 7 ∧
      decode (encode value ++ rest) = .ok (value, size value)) ∧
    ∀ bytes : Bytes,
      ((∃ value count, decode bytes = .ok (value, count)) ↔
        ∃ byte ∈ bytes.take maxLength, byte < 0x80) ∧
      (decode bytes = .error .malformedVarint ↔
        maxLength ≤ bytes.length ∧ ∀ byte ∈ bytes.take maxLength, 0x80 ≤ byte) ∧
      (decode bytes = .error (.truncated (bytes.length + 1) bytes.length) ↔
        bytes.length < maxLength ∧ ∀ byte ∈ bytes, 0x80 ≤ byte) ∧
      ∀ value count,
        (decode bytes = .ok (value, count) ↔
          joinBits 0 0 (bytes.take maxLength) = some (value, count)) ∧
        (decode bytes = .ok (value, count) → size value ≤ count ∧
          (count = size value → count < maxLength → bytes.take count = encode value)) := by
  constructor
  · intro value buffer rest
    refine ⟨?_, length_encode value, size_eq_clz value, ?_⟩
    · rw [putBits_eq, Nat.add_sub_cancel_left]
    · rw [decode_encode_append, length_encode]
  · intro bytes
    refine ⟨exists_decode_iff bytes, decode_eq_malformed_iff bytes, decode_eq_truncated_iff bytes,
      fun value count => ⟨decode_eq_ok_iff_joinBits, fun hdecode => ?_⟩⟩
    refine ⟨size_le_of_decode hdecode, ?_⟩
    rintro rfl hsize
    exact take_eq_encode hdecode hsize

/-- The two bytes of 300 are its only varint of two bytes. The greatest word has several of ten. -/
theorem encode_shortest_bound :
    (∀ bytes, decode bytes = .ok (300, 2) → bytes.take 2 = [0xac, 0x02]) ∧
      decode (List.replicate 9 0xff ++ [0x01]) = .ok (18446744073709551615, 10) ∧
      decode (List.replicate 9 0xff ++ [0x7f]) = .ok (18446744073709551615, 10) := by
  refine ⟨fun bytes hdecode => ?_, by decide, by decide⟩
  exact ((encode_shortest.2 bytes).2.2.2 300 2).2 hdecode |>.2 (by decide) (by decide)

end ProtoWire.Varint
