import Confinement.Sorting.Search

/-!
# Merging runs

Two sorted runs are merged from the side of the shorter one : from the front if that is the
first, else from the back. The shorter run is the `kept` one, the longer the `other`. Values
are compared one by one until one of the runs has won often enough in a row; then the merge
gallops, taking at once all values that a search finds to come first, until that no longer
pays. How often is enough is a threshold that falls while galloping pays and rises when it
ends, and it is handed on from merge to merge.

The last value of the kept run goes behind all of the other one. For values that all have a
place in the order that is where it belongs, and the result is the stable merge.
-/

namespace Confinement

namespace Sorting

variable {α : Type}

/-- Two runs in the course of being merged. -/
structure Merging (α : Type) where
  /-- What has been taken, the last one first. -/
  taken : List α
  /-- What is left of the kept run. -/
  kept : List α
  /-- What is left of the other run. -/
  other : List α

/-- How two runs are merged. -/
structure MergeRule (α : Type) where
  /-- Whether the head of the other run is taken, given the heads of both. -/
  takesOther : α → α → Bool
  /-- How many values of the kept run come before the head of the other one. -/
  beforeOther : α → List α → Nat
  /-- How many values of the other run come before the head of the kept one. -/
  beforeKept : α → List α → Nat
  /-- Whether the merge gallops through the kept run first. -/
  keptFirst : Bool

namespace Merging

/-- Fails with the result if the runs need no more comparison. -/
def settle (m : Merging α) : Except (List α) (Merging α) :=
  match m.kept, m.other with
  | kept, [] => .error (m.taken.reverse ++ kept)
  | [], other => .error (m.taken.reverse ++ other)
  | [x], other => .error (m.taken.reverse ++ other ++ [x])
  | _, _ => .ok m

/-- Takes values of the kept run. -/
def takeKept (m : Merging α) (count : Nat) : Except (List α) (Merging α) :=
  settle ⟨(m.kept.take count).reverse ++ m.taken, m.kept.drop count, m.other⟩

/-- Takes values of the other run. -/
def takeOther (m : Merging α) (count : Nat) : Except (List α) (Merging α) :=
  settle ⟨(m.other.take count).reverse ++ m.taken, m.kept, m.other.drop count⟩

/-- Takes what comes before the head of the other run, and then that head. The number counts
what came before. -/
def sweepKept (rule : MergeRule α) (m : Merging α) : Except (List α) (Merging α × Nat) := do
  let count := (m.other.head?.map fun x => rule.beforeOther x m.kept).getD 0
  let m ← m.takeKept count
  let m ← m.takeOther 1
  return (m, count)

/-- Takes what comes before the head of the kept run, and then that head. The number counts
what came before. -/
def sweepOther (rule : MergeRule α) (m : Merging α) : Except (List α) (Merging α × Nat) := do
  let count := (m.kept.head?.map fun x => rule.beforeKept x m.other).getD 0
  let m ← m.takeOther count
  let m ← m.takeKept 1
  return (m, count)

/-- One round of galloping, through both runs. The number counts what one sweep took at
most. -/
def round (rule : MergeRule α) (m : Merging α) : Except (List α) (Merging α × Nat) := do
  if rule.keptFirst then
    let (m, first) ← m.sweepKept rule
    let (m, second) ← m.sweepOther rule
    return (m, max first second)
  else
    let (m, first) ← m.sweepOther rule
    let (m, second) ← m.sweepKept rule
    return (m, max first second)

/-- How the next values are found. -/
inductive Pace where
  /-- One by one, after so many in a row from the kept or the other run. -/
  | single (kept other : Nat)
  /-- In a round of galloping. -/
  | gallop

/-- How many values a sweep must take for galloping to pay. -/
def worthwhile : Nat := 7

/-- Merges in at most `steps` steps, each of which takes a value. The answer is the result and
the threshold. -/
def run (rule : MergeRule α) : Nat → Pace → Nat → Merging α → List α × Nat
  | 0, _, threshold, m => (m.taken.reverse ++ m.kept ++ m.other, threshold)
  | steps + 1, .single keptWins otherWins, threshold, m =>
    let takesOther :=
      match m.kept, m.other with
      | x :: _, y :: _ => rule.takesOther x y
      | _, _ => false
    let wins := if takesOther then otherWins + 1 else keptWins + 1
    match if takesOther then m.takeOther 1 else m.takeKept 1 with
    | .error result => (result, threshold)
    | .ok m =>
      if threshold ≤ wins then run rule steps .gallop (threshold + 1) m
      else if takesOther then run rule steps (.single 0 wins) threshold m
      else run rule steps (.single wins 0) threshold m
  | steps + 1, .gallop, threshold, m =>
    let threshold := max 1 (threshold - 1)
    match m.round rule with
    | .error result => (result, threshold)
    | .ok (m, most) =>
      if worthwhile ≤ most then run rule steps .gallop threshold m
      else run rule steps (.single 0 0) (threshold + 1) m

/-- Merges two runs, of which the head of the other one is known to come first. -/
def merge (rule : MergeRule α) (threshold : Nat) (kept other : List α) : List α × Nat :=
  match (Merging.mk [] kept other).takeOther 1 with
  | .error result => (result, threshold)
  | .ok m => run rule (kept.length + other.length) (.single 0 0) threshold m

end Merging

variable (before : α → α → Bool)

/-- How many values come before `x` or with it, searched from a hint. -/
def countUpTo (x : α) (values : List α) (hint : Nat) : Nat :=
  let values := values.toArray
  gallop (fun i => values[i]?.any fun y => !before x y) values.size hint

/-- How many values come before `x`, searched from a hint. -/
def countBefore (x : α) (values : List α) (hint : Nat) : Nat :=
  let values := values.toArray
  gallop (fun i => values[i]?.any fun y => before y x) values.size hint

/-- The merge from the front, with the first run kept. -/
def fromFront : MergeRule α where
  takesOther x y := before y x
  beforeOther y kept := countUpTo before y kept 0
  beforeKept x other := countBefore before x other 0
  keptFirst := true

/-- The merge from the back, with the second run kept. Both runs are given backwards, and so
is the result. -/
def fromBack : MergeRule α where
  takesOther x y := before x y
  beforeOther y kept := kept.length - countBefore before y kept.reverse (kept.length - 1)
  beforeKept x other := other.length - countUpTo before x other.reverse (other.length - 1)
  keptFirst := false

/-- Merges a run with the one behind it. What comes first or last as it stands is left
alone. -/
def mergeRuns (threshold : Nat) (first second : List α) : List α × Nat :=
  let settled := (second.head?.map fun y => countUpTo before y first 0).getD 0
  let kept := first.drop settled
  let count :=
    (kept.getLast?.map fun x => countBefore before x second (second.length - 1)).getD 0
  if count = 0 then (first ++ second, threshold)
  else
    let other := second.take count
    let (merged, threshold) :=
      if kept.length ≤ count then Merging.merge (fromFront before) threshold kept other
      else
        let (merged, threshold) :=
          Merging.merge (fromBack before) threshold other.reverse kept.reverse
        (merged.reverse, threshold)
    (first.take settled ++ merged ++ second.drop count, threshold)

end Sorting

end Confinement
