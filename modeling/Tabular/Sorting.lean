/-!
Sorting by any comparison.

`stableSort` sorts by a comparison that need not be an order. Its steps are fixed, so it has one
result for every comparison: where the comparison is no order, the items may come in any
arrangement, and the sort gives up (`none`) where it takes one item twice and leaves out another.

Up to twenty items are inserted one by one. A longer list is cut into runs, which are sorted already
or left for later; a tree, which depends on their lengths only, says which neighbours are merged.
Two runs that are both unsorted become one unsorted run, and `quicksort` sorts what is unsorted in
the end. Lists of at most 32 items are sorted in halves and merged from both ends at once
(`mergeEnds`): this is the step that can give up.
-/

namespace Tabular.Sorting

variable {α : Type} (less : α → α → Bool)

/-- Whether two items are in order: the second one is not less than the first. -/
def inOrder (a b : α) : Bool := !less b a

/-! ### Short lists -/

/-- Puts an item into a list, in front of the items at the end that it is less than. -/
def insertBack (l : List α) (a : α) : List α :=
  (l.reverse.dropWhile (less a)).reverse ++ a :: (l.reverse.takeWhile (less a)).reverse

/-- Puts items into a list, one after another. -/
def insertAll (sorted l : List α) : List α :=
  l.foldl (insertBack less) sorted

/-- Two items in order. -/
def sortTwo (a b : α) : α × α :=
  if less b a then (b, a) else (a, b)

/-- Four items in order: two pairs, whose first items and whose last items are compared. -/
def sortFour (v₀ v₁ v₂ v₃ : α) : List α :=
  let (a, b) := sortTwo less v₀ v₁
  let (c, d) := sortTwo less v₂ v₃
  let (least, (low, high), greatest) :=
    match less c a, less d b with
    | false, false => (a, sortTwo less b c, d)
    | false, true => (a, sortTwo less c d, b)
    | true, false => (c, sortTwo less a b, d)
    | true, true => (c, sortTwo less a d, b)
  [least, low, high, greatest]

/-- A part of a small list in order. Four items at once come first, if the list is long enough. -/
def sortHalf (byFours : Bool) : List α → List α
  | a :: b :: c :: d :: l =>
    if byFours then insertAll less (sortFour less a b c d) l
    else insertAll less [] (a :: b :: c :: d :: l)
  | l => insertAll less [] l

/-! ### Merging from both ends -/

/-- At most `n` steps of merging from the front: what they put out, and what is left of the two
lists. -/
def mergeFront : Nat → List α → List α → List α × List α × List α
  | n + 1, a :: l, b :: r =>
    if less b a then
      let (out, l', r') := mergeFront n (a :: l) r
      (b :: out, l', r')
    else
      let (out, l', r') := mergeFront n l (b :: r)
      (a :: out, l', r')
  | _, l, r => ([], l, r)

/-- Merges two lists, of which the second is as long as the first or by one longer: as many steps as
the first is long from the front, and as many from the back. The item that may be left between them
goes there. Gives up where the two ends have taken an item twice. -/
def mergeEnds (l r : List α) : Option (List α) :=
  let (front, l₁, r₁) := mergeFront less l.length l r
  let (back, r₂, l₂) := mergeFront (flip less) l.length r.reverse l.reverse
  if l₁.length + l₂.length < l.length ∨ r₁.length + r₂.length < r.length then none
  else
    some (front ++ l₁.take (l₁.length + l₂.length - l.length) ++
      r₁.take (r₁.length + r₂.length - r.length) ++ back.reverse)

/-- Sorts a small list: both halves, which are then merged. -/
def smallSort (l : List α) : Option (List α) :=
  if l.length < 2 then some l
  else
    let half := sortHalf less (8 ≤ l.length)
    mergeEnds less (half (l.take (l.length / 2))) (half (l.drop (l.length / 2)))

/-- The length up to which a list is small. -/
def smallLength : Nat := 32

/-! ### Runs -/

/-- A part of a list, and whether it is sorted. -/
structure Run (α : Type) where
  items : List α
  sorted : Bool

/-- Cuts a list in front of the first item that does not stand in a relation to the one before
it. -/
def cutChain (follows : α → α → Bool) : α → List α → List α × List α
  | _, [] => ([], [])
  | a, b :: l =>
    if follows a b then
      let (chain, rest) := cutChain follows b l
      (b :: chain, rest)
    else ([], b :: l)

/-- Takes the items that are in order off the front of a list. Items in descending order count, if
no two are equal; they are turned round. -/
def takeOrdered : List α → List α × List α
  | [] => ([], [])
  | a :: l =>
    if l.head?.any (less · a) then
      let (chain, rest) := cutChain (flip less) a l
      ((a :: chain).reverse, rest)
    else
      let (chain, rest) := cutChain (inOrder less) a l
      (a :: chain, rest)

/-- Takes one run off the front of a list: the items in order, if there are enough of them;
otherwise a small list, sorted now, or an unsorted run. -/
def takeRun (eager : Bool) (enough : Nat) (l : List α) : Option (Run α × List α) :=
  let (ordered, rest) := takeOrdered less l
  if enough ≤ ordered.length then some (⟨ordered, true⟩, rest)
  else if eager then do
    let items ← smallSort less (l.take smallLength)
    return (⟨items, true⟩, l.drop smallLength)
  else some (⟨l.take enough, false⟩, l.drop enough)

/-- The runs of a list. Every run takes at least one item off it, so the list itself bounds their
number. -/
def runsWithin (eager : Bool) (enough : Nat) : List α → List α → Option (List (Run α))
  | _ :: fuel, a :: l => do
    let (run, rest) ← takeRun less eager enough (a :: l)
    return run :: (← runsWithin eager enough fuel rest)
  | _, _ => some []

/-- How many items in order are enough for a run of a list of `n` items: about the square root of
`n`, if that is more than 64. -/
def enoughFor (n : Nat) : Nat :=
  if n ≤ 64 * 64 then min (n - n / 2) 64
  else
    let shift := (1 + n.log2) / 2
    (Nat.pow 2 shift + n / Nat.pow 2 shift) / 2

/-! ### Which runs are merged -/

/-- Which runs are merged with which. -/
inductive MergeTree (α : Type) where
  | run (run : Run α)
  | node (left right : MergeTree α)

/-- The number of items in a tree. -/
def MergeTree.size : MergeTree α → Nat
  | .run r => r.items.length
  | .node left right => left.size + right.size

/-- How deep in the tree of a list of `n` items the node between two neighbouring runs should be:
the number of binary digits that the places of their middles have in common. -/
def nodeDepth (n start middle stop : Nat) : Nat :=
  let scale := (Nat.pow 2 62 + n - 1) / n
  let differing := (scale * (start + middle)) ^^^ (scale * (middle + stop))
  if differing = 0 then 64 else 63 - differing.log2

/-- Joins a tree to its left neighbours as long as these should be as deep as `depth`. A neighbour
stands with the depth of the node to its right. -/
def collapse (depth : Nat) :
    List (MergeTree α × Nat) → MergeTree α → List (MergeTree α × Nat) × MergeTree α
  | (left, d) :: stack, tree =>
    if depth ≤ d then collapse depth stack (.node left tree) else ((left, d) :: stack, tree)
  | [], tree => ([], tree)

/-- The tree for the trees of a stack, a run that ends at a place in a list of `n` items, and the
runs after it. -/
def schedule (n : Nat) : Nat → List (MergeTree α × Nat) → Run α → List (Run α) → MergeTree α
  | _, stack, run, [] => (collapse 0 stack (.run run)).2
  | place, stack, run, next :: runs =>
    let depth := nodeDepth n (place - run.items.length) place (place + next.items.length)
    let (stack, tree) := collapse depth stack (.run run)
    schedule n (place + next.items.length) ((tree, depth) :: stack) next runs

/-! ### Merging runs -/

/-- Merges two sorted lists, of which the shorter one is moved out of the way: from the front if it
is the first one, else from the back. -/
def merge (l r : List α) : List α :=
  if l.length ≤ r.length then l.merge r (inOrder less)
  else (r.reverse.merge l.reverse (flip (inOrder less))).reverse

section Runs

-- how the unsorted runs are sorted
variable (sortLater : List α → Option (List α))

/-- The items of a run in order. -/
def Run.sort (run : Run α) : Option (List α) :=
  if run.sorted then some run.items else sortLater run.items

/-- Merges two neighbouring runs. Two unsorted ones stay unsorted, if they fit into the room that
there is for sorting them together. -/
def mergeRuns (room : Nat) (left right : Run α) : Option (Run α) :=
  if left.items.length + right.items.length ≤ room ∧ !left.sorted ∧ !right.sorted then
    some ⟨left.items ++ right.items, false⟩
  else do
    let l ← left.sort sortLater
    let r ← right.sort sortLater
    return ⟨merge less l r, true⟩

/-- Merges the runs of a tree. -/
def MergeTree.evaluate (room : Nat) : MergeTree α → Option (Run α)
  | .run r => some r
  | .node left right => do
    mergeRuns less sortLater room (← left.evaluate room) (← right.evaluate room)

/-- The room for sorting a list of `n` items: half of them, or all that fit into eight megabytes at
24 bytes each. -/
def roomFor (n : Nat) : Nat :=
  max (n - n / 2) (min n 333333)

/-- Sorts a list by its runs. -/
def sortRuns (eager : Bool) (l : List α) : Option (List α) := do
  match ← runsWithin less eager (enoughFor l.length) l l with
  | [] => return []
  | first :: rest =>
    let tree := schedule l.length first.items.length [] first rest
    let run ← tree.evaluate less sortLater (roomFor l.length)
    run.sort sortLater

end Runs

/-! ### Quicksort -/

/-- One of three items: the one in the middle. -/
def medianOfThree (a b c : α) : α :=
  if less a b = less a c then
    if less b c = less a b then b else c
  else a

/-- An item somewhere in the middle of a list: the median of three such items from its first, fifth
and eighth eighths. -/
def pseudoMedian (l : List α) : Option α :=
  let n := l.length / 8
  if n = 0 then l.head?
  else do
    let a ← pseudoMedian (l.take n)
    let b ← pseudoMedian ((l.drop (4 * n)).take n)
    let c ← pseudoMedian ((l.drop (7 * n)).take n)
    return medianOfThree less a b c
termination_by l.length
decreasing_by all_goals simp only [List.length_take, List.length_drop]; omega

/-- Sorts a list by a pivot at a time, at most `limit` of them one inside the other; after that by
its runs, each of which is sorted at once. `bound` is the pivot that the whole list is not less
than, if there is one: where the new pivot is not greater, or nothing is less than it, the items
that it is not less than are done. -/
def quicksort : Nat → Option α → List α → Option (List α)
  | 0, _, l =>
    if l.length ≤ smallLength then smallSort less l else sortRuns less (smallSort less) true l
  | limit + 1, bound, l =>
    if l.length ≤ smallLength then smallSort less l
    else do
      let pivot ← pseudoMedian less l
      let low := l.filter (less · pivot)
      if bound.any (inOrder less pivot) || low.isEmpty then
        let done := l.filter (inOrder less · pivot)
        return done ++ (← quicksort limit none (l.filter (less pivot)))
      else
        let high ← quicksort limit (some pivot) (l.filter (inOrder less pivot))
        return (← quicksort limit bound low) ++ high

/-- The number of pivots that are chosen for a list of `n` items. -/
def pivotLimit (n : Nat) : Nat := 2 * n.log2

/-! ### The sort -/

/-- Sorts a list; `none` where it gives up. -/
def stableSort (l : List α) : Option (List α) :=
  if l.length ≤ 20 then some (insertAll less [] l)
  else
    sortRuns less (fun m => quicksort less (pivotLimit m.length) none m)
      (l.length ≤ 2 * smallLength) l

end Tabular.Sorting
