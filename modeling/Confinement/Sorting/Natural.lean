import Confinement.Sorting.Merge

/-!
# Sorting

Lists are sorted by a test that tells whether one value is before another. Where every value
has a place in the order, sorting is stable : of two values of which neither is before the
other, the one met first stays first (`sort_eq_mergeSort`).

A value that is not a number has no place, as it is neither before nor after any other. With
such values in a list the outcome depends on which pairs are tested, and the rule is the
natural merge sort `natural` : the list is cut into runs, a descending one is turned around, a
short one is made longer by inserting what follows, and the runs are merged in an order that
depends on where they meet (`power`).
-/

namespace Confinement

namespace Sorting

variable {α : Type}

/-! ## Runs -/

/-- The values that follow `last` as long as each goes with the one before it, and the rest. -/
def runFrom (goes : α → α → Bool) (last : α) : List α → List α × List α
  | [] => ([], [])
  | x :: rest =>
    if goes last x then
      let (run, rest) := runFrom goes x rest
      (x :: run, rest)
    else ([], x :: rest)

variable (before : α → α → Bool)

/-- The run at the start, turned around if it descends, and the rest. -/
def firstRun : List α → List α × List α
  | x :: y :: rest =>
    if before y x then
      let (run, rest) := runFrom (fun a b => before b a) y rest
      ((x :: y :: run).reverse, rest)
    else
      let (run, rest) := runFrom (fun a b => !before b a) y rest
      (x :: y :: run, rest)
  | xs => (xs, [])

/-- Puts a value in its place, which halving finds. -/
def insert (sorted : List α) (x : α) : List α :=
  let values := sorted.toArray
  sorted.insertIdx (halve (fun i => values[i]?.any fun y => !before x y) 0 values.size) x

/-- The run at the start, made longer by insertion if it has fewer than `least` values, and the
rest. -/
def nextRun (least : Nat) (xs : List α) : List α × List α :=
  let (run, rest) := firstRun before xs
  let missing := least - run.length
  ((rest.take missing).foldl (insert before) run, rest.drop missing)

/-- The least length of a run : the whole list if it is short, else its leading six binary
digits, plus one if any other digit is set. -/
def leastRun (count : Nat) (carry : Nat := 0) : Nat :=
  if 64 ≤ count then leastRun (count / 2) (max carry (count % 2)) else count + carry

/-! ## The order of merging -/

/-- A run that waits to be merged. -/
structure Run (α : Type) where
  /-- Where it starts in the list. -/
  start : Nat
  /-- Its values, in order. -/
  values : List α
  /-- The power of the border to the run behind it. -/
  power : Nat := 0

/-- The number of the first binary digit in which two fractions of `total` differ, after
`digits` digits in which they do not. -/
def firstDifference (total : Nat) : Nat → Nat → Nat → Nat → Nat
  | 0, digits, _, _ => digits
  | steps + 1, digits, a, b =>
    if total ≤ a then firstDifference total steps (digits + 1) (2 * (a - total)) (2 * (b - total))
    else if total ≤ b then digits + 1
    else firstDifference total steps (digits + 1) (2 * a) (2 * b)

/-- The power of the border between two runs in a list of `total` values : borders near the
middle of the list, or of a half or a quarter of it, have less. It is the first binary digit in
which the middles of the two runs differ. -/
def power (total start first second : Nat) : Nat :=
  let middle := 2 * start + first
  firstDifference total (total.log2 + 2) 0 middle (middle + first + second)

/-- Merges a run with the one behind it. -/
def Run.join (threshold : Nat) (r next : Run α) : Run α × Nat :=
  let (values, threshold) := mergeRuns before threshold r.values next.values
  ({ r with values := values }, threshold)

/-- Merges the last run with those before it whose borders have a greater power. -/
def collapse (power : Nat) (last : Run α) (threshold : Nat) :
    List (Run α) → Run α × List (Run α) × Nat
  | [] => (last, [], threshold)
  | r :: rest =>
    if power < r.power then
      let (joined, threshold) := r.join before threshold last
      collapse power joined threshold rest
    else (last, r :: rest, threshold)

/-- Merges all runs that wait, the last one first. Of the two before the last, the first is
merged with the second if it is shorter than the last. -/
def finish (threshold : Nat) : List (Run α) → List α
  | [] => []
  | [r] => r.values
  | [last, r] => (r.join before threshold last).1.values
  | last :: r :: s :: rest =>
    if s.values.length < last.values.length then
      let (joined, threshold) := s.join before threshold r
      finish threshold (last :: joined :: rest)
    else
      let (joined, threshold) := r.join before threshold last
      finish threshold (joined :: s :: rest)
  termination_by runs => runs.length

/-- Cuts a list of `total` values into runs, in at most `steps` steps, and merges them. The
runs that wait are given with the last one first. -/
def sortFrom (total : Nat) : Nat → Nat → List (Run α) → Nat → List α → List α
  | 0, threshold, waiting, _, xs => finish before threshold waiting ++ xs
  | steps + 1, threshold, waiting, start, xs =>
    if xs.isEmpty then finish before threshold waiting
    else
      let (values, rest) := nextRun before (leastRun total) xs
      let behind := start + values.length
      match waiting with
      | [] => sortFrom total steps threshold [⟨start, values, 0⟩] behind rest
      | last :: earlier =>
        let power := power total last.start last.values.length values.length
        let (last, earlier, threshold) := collapse before power last threshold earlier
        sortFrom total steps threshold
          (⟨start, values, 0⟩ :: { last with power := power } :: earlier) behind rest

/-- The natural merge sort. -/
def natural (xs : List α) : List α :=
  sortFrom before xs.length xs.length Merging.worthwhile [] 0 xs

/-! ## Sorting a list -/

/-- Sorts a list. -/
def sort (hasPlace : α → Bool) (xs : List α) : List α :=
  if xs.all hasPlace then xs.mergeSort fun a b => !before b a else natural before xs

/-- Values that all have a place are sorted stably. -/
theorem sort_eq_mergeSort {hasPlace : α → Bool} (h : ∀ a, hasPlace a = true) (xs : List α) :
    sort before hasPlace xs = xs.mergeSort fun a b => !before b a := by
  simp [sort, h]

/-- A single value is sorted, with or without a place. -/
theorem sort_singleton (hasPlace : α → Bool) (x : α) : sort before hasPlace [x] = [x] := by
  unfold sort
  split
  · exact List.mergeSort_singleton x
  · simp [natural, sortFrom, nextRun, firstRun, finish]

end Sorting

end Confinement
