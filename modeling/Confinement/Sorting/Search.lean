/-!
# Searching for a place

A test on positions tells whether a place lies further right. Where its answer changes only
once, every search finds that position. Where it does not, the position found depends on which
ones are tried, so the searches here are part of what sorting does : `halve` tries the middle
of what is left, `gallop` takes ever longer strides from a hint before it halves.
-/

namespace Confinement

namespace Sorting

/-- Halves the positions from `low` to `high`. -/
def halve (further : Nat → Bool) (low high : Nat) : Nat :=
  if low < high then
    let middle := low + (high - low) / 2
    if further middle then halve further (middle + 1) high else halve further low middle
  else low
  termination_by high - low

/-- Takes ever longer strides as long as a test holds. The answer is the longest offset that
passed, or else `last`, and the one after it, which is at most `limit`. -/
def stride (goesOn : Nat → Bool) (limit last offset : Nat) : Nat × Nat :=
  if offset < limit ∧ goesOn offset then stride goesOn limit offset (2 * offset + 1)
  else (last, min offset limit)
  termination_by limit - offset

/-- Searches among `count` positions, from a hint on. -/
def gallop (further : Nat → Bool) (count hint : Nat) : Nat :=
  if further hint then
    let (near, far) := stride (fun i => further (hint + i)) (count - hint) 0 1
    halve further (hint + near + 1) (hint + far)
  else
    let (near, far) := stride (fun i => !further (hint - i)) (hint + 1) 0 1
    halve further (hint + 1 - far) (hint - near)

end Sorting

end Confinement
