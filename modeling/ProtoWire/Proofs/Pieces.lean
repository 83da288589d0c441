import ProtoWire.Proofs.Varint

/-! # Varints in pieces

A varint that comes in pieces is decoded at once if the current piece is sure to hold enough of it,
and byte by byte otherwise. Either way the outcome is that of decoding the bytes of all pieces
together, and what is taken from the pieces are the bytes of the varint.
-/

namespace ProtoWire

/-! ## Pieces -/

namespace Chunks

/-- The current piece holds a byte whenever one is left. -/
theorem current_ne_nil {chunks : Chunks} (hleft : chunks.content ≠ []) : chunks.current ≠ [] := by
  induction chunks with
  | nil => exact absurd rfl hleft
  | cons chunk rest ih =>
      cases chunk with
      | nil => exact ih hleft
      | cons byte chunk => exact List.cons_ne_nil byte chunk

theorem current_prefix (chunks : Chunks) : chunks.current <+: chunks.content := by
  induction chunks with
  | nil => exact List.prefix_refl []
  | cons chunk rest ih =>
      cases chunk with
      | nil => exact ih
      | cons byte chunk => exact List.prefix_append (byte :: chunk) rest.flatten

theorem content_advance (count : Nat) (chunks : Chunks) :
    (chunks.advance count).content = chunks.content.drop count := by
  fun_induction advance count chunks with
  | case1 chunks => rfl
  | case2 count => rfl
  | case3 count chunk rest hwhole ih =>
      rw [ih, content, content, List.flatten_cons, List.drop_append, List.drop_eq_nil_of_le hwhole,
        List.nil_append]
  | case4 count chunk rest hpart =>
      rw [content, content, List.flatten_cons, List.flatten_cons,
        List.drop_append_of_le_length (not_le.mp hpart).le]

theorem advance_advance (count count' : Nat) (chunks : Chunks) :
    (chunks.advance count).advance count' = chunks.advance (count + count') := by
  fun_induction advance count chunks with
  | case1 chunks => rw [Nat.zero_add]
  | case2 count =>
      cases count' with
      | zero => rw [advance, Nat.add_zero, advance]
      | succ count' => rw [advance, Nat.succ_add, advance]
  | case3 count chunk rest hwhole ih =>
      rw [ih, Nat.succ_add, advance, if_pos (by omega)]
      congr 1
      omega
  | case4 count chunk rest hpart =>
      cases count' with
      | zero => rw [advance, Nat.add_zero, advance, if_neg hpart]
      | succ count' =>
          rw [advance, Nat.succ_add, advance, List.length_drop, List.drop_drop]
          -- Both ways leave the piece in front, or they end in it at the same byte.
          by_cases hwhole : chunk.length ≤ count + (count' + 1) + 1
          · rw [if_pos (by omega), if_pos hwhole]
            congr 1
            omega
          · rw [if_neg (by omega), if_neg hwhole]
            congr 2
            omega

theorem next_eq_none {chunks : Chunks} (hend : chunks.content = []) : chunks.next? = none := by
  induction chunks with
  | nil => rfl
  | cons chunk rest ih =>
      cases chunk with
      | nil => exact ih hend
      | cons byte chunk => cases hend

/-- The next byte is the first one of all pieces together. -/
theorem next_eq {chunks : Chunks} {byte : UInt8} {rest : Bytes}
    (hcontent : chunks.content = byte :: rest) :
    ∃ after, chunks.next? = some (byte, after) ∧ after.content = rest := by
  induction chunks with
  | nil => cases hcontent
  | cons chunk others ih =>
      cases chunk with
      | nil => exact ih hcontent
      | cons first chunk =>
          obtain ⟨rfl, hrest⟩ := List.cons.inj hcontent
          exact ⟨chunk :: others, rfl, hrest⟩

end Chunks

/-! ## Varints -/

namespace Varint

variable {chunks : Chunks} {value : UInt64} {count : Nat} {error : DecodeError}

/-- Bytes with the high bit are only gathered. -/
theorem gather_skip {front : Bytes} (hfront : ∀ byte ∈ front, ¬ byte < 0x80) (left : Nat)
    (scratch : Bytes) {rest : Bytes} (hcontent : chunks.content = front ++ rest) :
    ∃ after, after.content = rest ∧
      gather (front.length + left) scratch chunks = gather left (scratch ++ front) after := by
  induction front generalizing scratch chunks with
  | nil => exact ⟨chunks, hcontent, by simp⟩
  | cons byte front ih =>
      obtain ⟨hbyte, hfront⟩ := List.forall_mem_cons.mp hfront
      obtain ⟨others, hnext, hothers⟩ := Chunks.next_eq hcontent
      obtain ⟨after, hafter, hgather⟩ := ih hfront (scratch ++ [byte]) hothers
      refine ⟨after, hafter, ?_⟩
      rw [List.length_cons, Nat.succ_add, gather, hnext]
      simp only [if_neg hbyte, hgather, List.append_assoc, List.singleton_append]

theorem gather_ok (hdecode : decode chunks.content = .ok (value, count)) :
    ∃ after, gather maxLength [] chunks = (.ok value, after) ∧
      after.content = chunks.content.drop count := by
  obtain ⟨front, last, rest, hcontent, hfront, hlast, rfl, hlength, hvalue⟩ := decode_split hdecode
  obtain ⟨left, hleft⟩ := Nat.exists_eq_add_of_lt hlength
  obtain ⟨others, hothers, hgather⟩ := gather_skip hfront (left + 1) [] hcontent
  obtain ⟨after, hnext, hafter⟩ := Chunks.next_eq hothers
  refine ⟨after, ?_, ?_⟩
  · rw [hleft, Nat.add_assoc, hgather, gather, hnext]
    simp only [if_pos hlast, List.nil_append, hvalue]
    rfl
  · rw [hafter, hcontent]
    simp

/-- Bytes that are no varint are all taken, but no more than ten. -/
theorem gather_error (hdecode : decode chunks.content = .error error) :
    ∃ after, gather maxLength [] chunks = (.error error, after) ∧
      after.content = chunks.content.drop maxLength := by
  obtain ⟨hhigh, rfl⟩ := decode_eq_error_iff.mp hdecode
  obtain ⟨after, hafter, hgather⟩ := gather_skip hhigh (maxLength - chunks.content.length) []
    (List.take_append_drop maxLength _).symm
  have hlength : (chunks.content.take maxLength).length + (maxLength - chunks.content.length) =
      maxLength := by
    rw [List.length_take]
    omega
  rw [hlength] at hgather
  by_cases hlong : maxLength ≤ chunks.content.length
  · refine ⟨after, ?_, hafter⟩
    rw [hgather, if_pos hlong, Nat.sub_eq_zero_of_le hlong]
    rfl
  · -- The pieces end before the tenth byte.
    obtain ⟨left, hleft⟩ := Nat.exists_eq_add_of_lt (not_le.mp hlong)
    have hshort : chunks.content.take maxLength = chunks.content :=
      List.take_of_length_le (not_le.mp hlong).le
    have hend : after.content = [] := by
      rw [hafter, List.drop_eq_nil_of_le (not_le.mp hlong).le]
    refine ⟨after, ?_, hafter⟩
    have hmore : maxLength - chunks.content.length = left + 1 := by omega
    rw [hgather, if_neg hlong, hmore, hshort, gather, Chunks.next_eq_none hend]
    rfl

/-- A piece that is conclusive holds the whole varint, or ten bytes that are none. -/
theorem decode_current (hconclusive : isConclusive chunks.current = true) :
    decode chunks.current = decode chunks.content ∧
      ∀ error, decode chunks.current = .error error → maxLength ≤ chunks.current.length := by
  obtain ⟨rest, hrest⟩ := chunks.current_prefix
  cases hcurrent : decode chunks.current with
  | ok found =>
      have hfront := decode_take_append hcurrent (chunks.current.drop found.2 ++ rest)
      rw [← List.append_assoc, List.take_append_drop, hrest] at hfront
      exact ⟨hfront.symm, fun _ => nofun⟩
  | error error =>
      have hhigh := (decode_eq_error_iff.mp hcurrent).1
      have hlong : maxLength ≤ chunks.current.length := by
        by_contra hshort
        rw [List.take_of_length_le (not_le.mp hshort).le] at hhigh
        simp only [isConclusive, hshort, decide_false, Bool.false_or, Option.any_eq_true,
          decide_eq_true_eq] at hconclusive
        obtain ⟨last, hlast, hlow⟩ := hconclusive
        exact hhigh last (List.mem_of_getLast? hlast) hlow
      refine ⟨?_, fun _ _ => hlong⟩
      rw [← hcurrent, ← decode_take chunks.current, ← decode_take chunks.content, ← hrest,
        List.take_append_of_le_length hlong]

/-- A varint in pieces is that of all pieces together, and its bytes are taken. -/
theorem decodeChunks_ok (hdecode : decode chunks.content = .ok (value, count)) :
    ∃ after, decodeChunks chunks = (.ok value, after) ∧
      after.content = chunks.content.drop count := by
  rw [decodeChunks]
  split
  next hconclusive =>
    rw [(decode_current hconclusive).1, hdecode]
    exact ⟨chunks.advance count, rfl, chunks.content_advance count⟩
  next => exact gather_ok hdecode

/-- What is no varint in pieces is none in all pieces together. From a piece of ten bytes or more
nothing is taken, otherwise at most ten bytes. -/
theorem decodeChunks_error (hdecode : decode chunks.content = .error error) :
    ∃ after, decodeChunks chunks = (.error error, after) ∧
      after.content = if maxLength ≤ chunks.current.length then chunks.content
        else chunks.content.drop maxLength := by
  rw [decodeChunks]
  split
  next hconclusive =>
    obtain ⟨hsame, hlong⟩ := decode_current hconclusive
    rw [hsame, hdecode]
    exact ⟨chunks, rfl, (if_pos (hlong error (hsame.trans hdecode))).symm⟩
  next hinconclusive =>
    have hshort : ¬ maxLength ≤ chunks.current.length := fun hlong =>
      hinconclusive (by simp [isConclusive, hlong])
    rw [if_neg hshort]
    exact gather_error hdecode

end Varint

end ProtoWire
