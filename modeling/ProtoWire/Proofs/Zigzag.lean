import ProtoWire.Proofs.Varint

/-! # Zigzag

The zigzag map and its inverse are told as arithmetic on numbers without bounds. On words of either
width they undo each other, and they are what shifting, inverting and negating the bits makes of a
word.
-/

namespace ProtoWire.Varint

theorem zigzag_lt {n : Int} {bound : Nat} (hlow : -(bound : Int) ≤ n) (hhigh : n < bound) :
    zigzag n < 2 * bound := by
  unfold zigzag
  split <;> omega

/-! ## Words -/

theorem toNat_zigzag32 (n : Int32) : (zigzag32 n).toNat = zigzag n.toInt := by
  have hzigzag : zigzag n.toInt < UInt32.size := zigzag_lt n.le_toInt n.toInt_lt
  rw [zigzag32, UInt32.toNat_ofNat_of_lt' hzigzag]

theorem toNat_zigzag64 (n : Int64) : (zigzag64 n).toNat = zigzag n.toInt := by
  have hzigzag : zigzag n.toInt < UInt64.size := zigzag_lt n.le_toInt n.toInt_lt
  rw [zigzag64, UInt64.toNat_ofNat_of_lt' hzigzag]

theorem toInt_unzigzag32 (n : UInt32) : (unzigzag32 n).toInt = unzigzag n.toNat := by
  have hbound := n.toNat_lt
  rw [unzigzag32, Int32.toInt_ofInt_of_le]
  all_goals
    unfold unzigzag
    split <;> omega

theorem toInt_unzigzag64 (n : UInt64) : (unzigzag64 n).toInt = unzigzag n.toNat := by
  have hbound := n.toNat_lt
  rw [unzigzag64, Int64.toInt_ofInt_of_le]
  all_goals
    unfold unzigzag
    split <;> omega

theorem unzigzag32_zigzag32 (n : Int32) : unzigzag32 (zigzag32 n) = n := by
  rw [← Int32.toInt_inj, toInt_unzigzag32, toNat_zigzag32, unzigzag_zigzag]

theorem unzigzag64_zigzag64 (n : Int64) : unzigzag64 (zigzag64 n) = n := by
  rw [← Int64.toInt_inj, toInt_unzigzag64, toNat_zigzag64, unzigzag_zigzag]

theorem zigzag32_unzigzag32 (n : UInt32) : zigzag32 (unzigzag32 n) = n := by
  rw [← UInt32.toNat_inj, toNat_zigzag32, toInt_unzigzag32, zigzag_unzigzag]

theorem zigzag64_unzigzag64 (n : UInt64) : zigzag64 (unzigzag64 n) = n := by
  rw [← UInt64.toNat_inj, toNat_zigzag64, toInt_unzigzag64, zigzag_unzigzag]

/-! ## Bits -/

section Bits

variable {width : Nat} (bits : BitVec (width + 1))

/-- The doubled number is inverted if it is negative, when the sign fills all bits. -/
theorem toNat_zigzag_bits :
    ((bits <<< 1) ^^^ bits.sshiftRight width).toNat = zigzag bits.toInt := by
  have hbound := bits.isLt
  have hpow : 2 ^ (width + 1) = 2 * 2 ^ width := pow_succ' 2 width
  have hdouble : (bits <<< 1).toNat = 2 * bits.toNat % 2 ^ (width + 1) := by
    rw [BitVec.toNat_shiftLeft, Nat.shiftLeft_eq, pow_one, Nat.mul_comm]
  cases hsign : bits.msb with
  | false =>
      have hsmall : bits.toNat < 2 ^ width := by
        simpa [BitVec.msb_eq_decide] using hsign
      have hzero : bits.sshiftRight width = 0#(width + 1) := by
        rw [BitVec.sshiftRight_eq_of_msb_false hsign]
        apply BitVec.toNat_inj.mp
        rw [BitVec.toNat_ushiftRight, Nat.shiftRight_eq_div_pow, Nat.div_eq_of_lt hsmall]
        rfl
      rw [hzero, BitVec.xor_zero, hdouble, Nat.mod_eq_of_lt (by omega), BitVec.toInt_eq_msb_cond,
        hsign, if_neg Bool.false_ne_true, zigzag, if_pos (Int.natCast_nonneg _)]
      rfl
  | true =>
      have hlarge : 2 ^ width ≤ bits.toNat := by
        simpa [BitVec.msb_eq_decide] using hsign
      have hones : bits.sshiftRight width = BitVec.allOnes (width + 1) := by
        rw [BitVec.sshiftRight_eq_of_msb_true hsign]
        apply BitVec.toNat_inj.mp
        rw [BitVec.toNat_not, BitVec.toNat_ushiftRight, BitVec.toNat_not,
          Nat.shiftRight_eq_div_pow, Nat.div_eq_of_lt (by omega), BitVec.toNat_allOnes, Nat.sub_zero]
      have hwrapped : 2 * bits.toNat % 2 ^ (width + 1) = 2 * bits.toNat - 2 ^ (width + 1) := by
        rw [Nat.mod_eq_sub_mod (by omega), Nat.mod_eq_of_lt (by omega)]
      rw [hones, BitVec.xor_allOnes, BitVec.toNat_not, hdouble, hwrapped,
        BitVec.toInt_eq_msb_cond, hsign, if_pos rfl, zigzag, if_neg (by omega)]
      omega

/-- The halved number is inverted if the word is odd, when the negated lowest bit fills all bits. -/
theorem toInt_unzigzag_bits :
    ((bits >>> 1) ^^^ -(bits &&& 1#(width + 1))).toInt = unzigzag bits.toNat := by
  have hbound := bits.isLt
  have hpow : 2 ^ (width + 1) = 2 * 2 ^ width := pow_succ' 2 width
  have hpositive := Nat.two_pow_pos width
  have hhalf : (bits >>> 1).toNat = bits.toNat / 2 := by
    rw [BitVec.toNat_ushiftRight, Nat.shiftRight_eq_div_pow, pow_one]
  have hlowest : (bits &&& 1#(width + 1)).toNat = bits.toNat % 2 := by
    rw [BitVec.toNat_and, BitVec.toNat_ofNat, Nat.mod_eq_of_lt (by omega), Nat.and_one_is_mod]
  rw [unzigzag]
  by_cases heven : bits.toNat % 2 = 0
  · have hzero : bits &&& 1#(width + 1) = 0#(width + 1) :=
      BitVec.toNat_inj.mp (hlowest.trans heven)
    rw [if_pos heven, hzero, BitVec.neg_zero, BitVec.xor_zero,
      BitVec.toInt_eq_toNat_of_lt (by omega), hhalf]
    rfl
  · have hones : -(bits &&& 1#(width + 1)) = BitVec.allOnes (width + 1) := by
      apply BitVec.toNat_inj.mp
      rw [BitVec.toNat_neg, BitVec.toNat_allOnes, hlowest, Nat.mod_eq_of_lt (by omega)]
      omega
    rw [if_neg heven, hones, BitVec.xor_allOnes, BitVec.toInt_eq_toNat_cond, BitVec.toNat_not,
      hhalf, if_neg (by omega)]
    omega

end Bits

theorem zigzag32_eq_bits (n : Int32) : zigzag32 n = ((n <<< 1) ^^^ (n >>> 31)).toUInt32 :=
  UInt32.toNat_inj.mp ((toNat_zigzag32 n).trans (toNat_zigzag_bits n.toBitVec).symm)

theorem zigzag64_eq_bits (n : Int64) : zigzag64 n = ((n <<< 1) ^^^ (n >>> 63)).toUInt64 :=
  UInt64.toNat_inj.mp ((toNat_zigzag64 n).trans (toNat_zigzag_bits n.toBitVec).symm)

theorem unzigzag32_eq_bits (n : UInt32) :
    unzigzag32 n = (n >>> 1).toInt32 ^^^ -(n &&& 1).toInt32 :=
  Int32.toInt_inj.mp ((toInt_unzigzag32 n).trans (toInt_unzigzag_bits n.toBitVec).symm)

theorem unzigzag64_eq_bits (n : UInt64) :
    unzigzag64 n = (n >>> 1).toInt64 ^^^ -(n &&& 1).toInt64 :=
  Int64.toInt_inj.mp ((toInt_unzigzag64 n).trans (toInt_unzigzag_bits n.toBitVec).symm)

end ProtoWire.Varint
