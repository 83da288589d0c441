/-! # Similarity of names

How alike two names are: the share of characters that occur in both near the same place, the share
of those that keep their order, and a bonus for a common beginning. A misspelt name is answered
with the most similar known name.
-/

namespace ProtoWire.Source

/-- Marks the first unmarked place, from `low` up to below `high`, that holds a character. -/
def markFirst (c : Char) (low high : Nat) : (place : Nat) → List (Char × Bool) →
    Option (List (Char × Bool))
  | _, [] => none
  | place, (other, marked) :: rest =>
      if low ≤ place && place < high && c == other && !marked then some ((other, true) :: rest)
      else (markFirst c low high (place + 1) rest).map ((other, marked) :: ·)

/-- Pairs the characters of a name, from some place on, with characters within `reach` of the same
place in another: the characters paired, and the other name with its marks. -/
def pairCharacters (reach : Nat) : (place : Nat) → List Char → List (Char × Bool) →
    List Char × List (Char × Bool)
  | _, [], other => ([], other)
  | place, c :: rest, other =>
      match markFirst c (place - reach) (place + reach + 1) 0 other with
      | some other =>
          let (paired, other) := pairCharacters reach (place + 1) rest other
          (c :: paired, other)
      | none => pairCharacters reach (place + 1) rest other

/-- The mean of three shares: of the characters of either name that are paired, and of the pairs
that keep their order. -/
def agreement (a b : List Char) : Float :=
  if a.isEmpty && b.isEmpty then 1
  else
    let reach := max a.length b.length / 2 - 1
    let (paired, other) := pairCharacters reach 0 a (b.map (·, false))
    let partners := other.filterMap fun (c, marked) => if marked then some c else none
    let moved := ((paired.zip partners).filter fun (c, d) => c != d).length / 2
    let matched := paired.length
    if matched = 0 then 0
    else
      (matched.toFloat / a.length.toFloat + matched.toFloat / b.length.toFloat
        + (matched - moved).toFloat / matched.toFloat) / 3

/-- The similarity of two names: up to four characters of a common beginning bring
names that are alike closer. -/
def similarity (a b : String) : Float :=
  let base := agreement a.toList b.toList
  if base > 0.7 then
    let common := ((a.toList.take 4).zip b.toList).takeWhile fun (c, d) => c == d
    base + 0.1 * common.length.toFloat * (1 - base)
  else base

/-- The known name most similar to a name, the first of several, if one is similar enough. -/
def mostSimilar? (name : String) (known : List String) : Option String :=
  let scored := known.foldl (fun (best : Option (Float × String)) candidate =>
    let score := similarity name candidate
    match best with
    | some (highest, _) => if score > 0.8 && highest < score then some (score, candidate) else best
    | none => if score > 0.8 then some (score, candidate) else none) none
  scored.map (·.2)

end ProtoWire.Source
