/-! # Remembered sizes

The size of a nested message is needed once for its own length and again by every message around
it. A size cache remembers it during one encode pass. A pass is one top-level call; what an earlier
pass remembered is not used again, so changing a message between calls never yields a stale size.
-/

namespace ProtoWire

/-- The number of the encode pass that is running, if one is. -/
abbrev Pass := Option Nat

/-- A size and the pass that worked it out. -/
structure StoredSize where
  pass : Nat
  size : Nat
deriving DecidableEq, Repr

/-- The remembered size of one message. -/
structure SizeCache where
  stored : Option StoredSize
deriving DecidableEq, Repr

namespace SizeCache

/-- A cache that remembers nothing. -/
def empty : SizeCache := ⟨none⟩

/-- The size remembered last, whatever the pass. -/
def get? (cache : SizeCache) : Option Nat := cache.stored.map (·.size)

/-- The size remembered by the running pass. -/
def find? (cache : SizeCache) (pass : Pass) : Option Nat :=
  match pass, cache.stored with
  | some current, some stored => if stored.pass = current then some stored.size else none
  | _, _ => none

/-- The cache after a size was worked out; outside of a pass nothing is remembered. -/
def remember (cache : SizeCache) (pass : Pass) (size : Nat) : SizeCache :=
  match pass with
  | some current => ⟨some ⟨current, size⟩⟩
  | none => cache

/-- The size remembered by the running pass, or else the given one, and the cache afterwards. -/
def getOrInit (cache : SizeCache) (pass : Pass) (size : Unit → Nat) : Nat × SizeCache :=
  match cache.find? pass with
  | some found => (found, cache)
  | none => (size (), cache.remember pass (size ()))

/-- The cache with its content forgotten. -/
def invalidate (_ : SizeCache) : SizeCache := empty

/-- A copy remembers nothing. -/
def copy (_ : SizeCache) : SizeCache := empty

/-- The text that shows a cache. -/
def describe (cache : SizeCache) : String :=
  match cache.get? with
  | none => "SizeCache(None)"
  | some size => s!"SizeCache(Some({size}))"

/-- What is remembered has no part in hashing. -/
instance : Hashable SizeCache := ⟨fun _ => 0⟩

end SizeCache

end ProtoWire
