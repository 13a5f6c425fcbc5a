/-!
# Arranging by runs

A list is arranged in its runs: a run is taken from the front as long as each item is in place
behind the one before it, short runs are filled up by insertion, and neighbouring runs are merged.
If `precedes` is an order, this sorts, and items that do not precede each other stay as they are.

The outcome is of interest, too, where `precedes` is no order, since some items are neither in front
of nor behind any other. Then it depends on which items are compared, and that is laid down here:

* `insertByHalves` looks for the place of an item in halves of the run.
* `mergeRuns` leaves the ends of two runs that are in place already, and merges the rest from the
  side of the shorter run. A run that wins often in a row *gallops* (`gallop`): how many of its
  items come next is then looked for in growing steps.
* `power` tells which neighbours are merged first.

All of it only rearranges (`perm_arrange`).
-/

namespace Rollout.Arrangement

variable {α : Type} (precedes : α → α → Bool)

/-! ### Runs -/

/-- Cuts a list behind its longest front in which every item is linked to the next one. -/
def cutRun (linked : α → α → Bool) (first : α) : List α → List α × List α
  | [] => ([first], [])
  | next :: rest =>
    if linked first next then
      let cut := cutRun linked next rest
      (first :: cut.1, cut.2)
    else ([first], next :: rest)

/-- The run at the front of a list, and the items behind it. A run in which every item precedes the
one before it is turned around; else a run ends at the first item that does so. -/
def frontRun : List α → List α × List α
  | [] => ([], [])
  | [item] => ([item], [])
  | first :: second :: rest =>
    -- Only a strict descent is turned around: items that are level keep their order.
    if precedes second first then
      let cut := cutRun (fun a b => precedes b a) first (second :: rest)
      (cut.1.reverse, cut.2)
    else cutRun (fun a b => !precedes b a) first (second :: rest)

/-- Brings an item to its place, which is looked for in one half of the list and then in one half
of that. -/
def insertByHalves (item : α) (items : List α) : List α :=
  match _h : items.drop (items.length / 2) with
  | [] => item :: items
  | middle :: above =>
    let below := items.take (items.length / 2)
    -- An item that is level with the middle goes behind it, which keeps insertion stable.
    if precedes item middle then insertByHalves item below ++ middle :: above
    else below ++ middle :: insertByHalves item above
termination_by items.length
decreasing_by
  all_goals
    have := congrArg List.length _h
    simp only [List.length_drop, List.length_cons, List.length_take] at this ⊢
    omega

/-- The run at the front of a list, filled up to a shortest length, and the items behind it. -/
def filledRun (shortest : Nat) (items : List α) : List α × List α :=
  let cut := frontRun precedes items
  let missing := shortest - cut.1.length
  ((cut.2.take missing).foldl (fun run item => insertByHalves precedes item run) cut.1,
    cut.2.drop missing)

/-- The shortest length of the runs of a list: half of half of the length and so on until it is
below 64, and one more if that left a remainder. -/
def shortestRun (length : Nat) : Nat := go length 0
where
  go (length remainder : Nat) : Nat :=
    if length < 64 then length + remainder else go (length / 2) (max remainder (length % 2))

/-! ### Galloping -/

/-- Takes steps of 1, 3, 7 and so on while they lead further. The result is the last step that did,
and the first one that did not, or the bound. -/
def stride (further : Nat → Bool) (bound : Nat) : Nat → Nat → Nat → Nat × Nat
  | 0, last, step => (last, min step bound)
  | fuel + 1, last, step =>
    -- The bound is never tested: what lies at it is known to fail.
    if step < bound && further step then stride further bound fuel step (2 * step + 1)
    else (last, min step bound)

/-- The first index from `low` on that fails the test, looked for in halves; at most `high`. -/
def halve (test : Nat → Bool) (low high : Nat) : Nat :=
  if low < high then
    let middle := low + (high - low) / 2
    if test middle then halve test (middle + 1) high else halve test low middle
  else high
termination_by high - low

/-- How many items at the front of a list pass a test that the items behind them fail. The place is
looked for in growing steps from an index on, and then in halves. Where the test does not divide the
list in two, the steps decide which of its places is found, so they are laid down exactly. -/
def gallop (test : α → Bool) (items : List α) (hint : Nat) : Nat :=
  let passes (index : Nat) : Bool := items[index]?.any test
  if passes hint then
    -- From the hint forwards: the last step that passes and the first that fails enclose the place.
    let steps := stride (fun step => passes (hint + step)) (items.length - hint) items.length 0 1
    halve passes (hint + steps.1 + 1) (hint + steps.2)
  else
    -- From the hint backwards, with the roles of the two ends exchanged.
    let steps := stride (fun step => !passes (hint - step)) (hint + 1) items.length 0 1
    halve passes (hint + 1 - steps.2) (hint - steps.1)

/-- How many items at the end of a list, of which the last one comes first here, fail a test that
the items before them pass. -/
def gallopBack (test : α → Bool) (items : List α) : Nat :=
  items.length - gallop test items.reverse (items.length - 1)

/-- How two runs are being merged. -/
inductive Pace where
  /-- Item by item; the one and the other run have won that often in a row. -/
  | walking (first second : Nat)
  | galloping

/-- Many items in a row. -/
def many : Nat := 7

/-- The pace after a run has won, and how many wins in a row then make a run gallop. A run that has
won often enough gallops at once, and the bar goes up by one as the price of entering. -/
def Pace.after (wins bar : Nat) (walking : Pace) : Pace × Nat :=
  if wins ≥ bar then (.galloping, bar + 1) else (walking, bar)

/-- The bar while runs gallop: every round makes galloping easier. -/
def lowered (bar : Nat) : Nat := if bar > 1 then bar - 1 else bar

/-- The pace after a round of galloping, and the bar: runs go on as long as one of them gets far. -/
def Pace.afterRound (first second bar : Nat) : Pace × Nat :=
  if first ≥ many || second ≥ many then (.galloping, bar) else (.walking 0 0, bar + 1)

/-! ### Merging -/

/-- Merges two runs from their fronts. The last item of the first run is known to be the last of
all, which is why the first run is never emptied before the second. The bar that was reached comes
with the result; `kept` is the one that counts if the runs end before they gallop. The fuel is the
number of items: each round places one of them at least. -/
def mergeFront : Nat → Pace → Nat → Nat → List α → List α → List α × Nat
  | 0, _, _, kept, xs, ys => (xs ++ ys, kept)
  | fuel + 1, pace, bar, kept, xs, ys =>
    match xs, ys with
    | [], ys => (ys, kept)
    | xs, [] => (xs, kept)
    | [x], ys => (ys ++ [x], kept)
    | x :: xs, y :: ys =>
      match pace with
      | .walking first second =>
        -- On a tie the item of the first run wins, since it stood in front.
        if precedes y x then
          let next := Pace.after (second + 1) bar (.walking 0 (second + 1))
          let rest := mergeFront fuel next.1 next.2 kept (x :: xs) ys
          (y :: rest.1, rest.2)
        else
          let next := Pace.after (first + 1) bar (.walking (first + 1) 0)
          let rest := mergeFront fuel next.1 next.2 kept xs (y :: ys)
          (x :: rest.1, rest.2)
      | .galloping =>
        let bar := lowered bar
        -- The first run gives all that stays in front of `y`, and then the second run all that goes
        -- in front of what the first has next.
        let i := gallop (fun item => !precedes y item) (x :: xs) 0
        let front := (x :: xs).take i
        match (x :: xs).drop i with
        | [] => (front ++ y :: ys, bar)
        | [z] => (front ++ y :: ys ++ [z], bar)
        | z :: zs =>
          let j := gallop (fun item => precedes item z) ys 0
          let out := front ++ y :: ys.take j
          match ys.drop j with
          | [] => (out ++ z :: zs, bar)
          | ws =>
            match zs with
            | [last] => (out ++ z :: ws ++ [last], bar)
            | zs =>
              -- Both runs have items left: the round counts, and only now is the bar kept.
              let next := Pace.afterRound i j bar
              let rest := mergeFront fuel next.1 next.2 next.2 zs ws
              (out ++ z :: rest.1, rest.2)

/-- Merges two runs from their ends; of the runs and of the result the last item comes first here.
The first item of the second run is known to be the first of all, so here it is the second run that
is never emptied before the first. -/
def mergeBack : Nat → Pace → Nat → Nat → List α → List α → List α × Nat
  | 0, _, _, kept, xs, ys => (xs ++ ys, kept)
  | fuel + 1, pace, bar, kept, xs, ys =>
    match xs, ys with
    | [], ys => (ys, kept)
    | xs, [] => (xs, kept)
    | xs, [y] => (xs ++ [y], kept)
    | x :: xs, y :: ys =>
      match pace with
      | .walking first second =>
        -- From behind the item of the second run wins a tie, since it stood further back.
        if precedes y x then
          let next := Pace.after (first + 1) bar (.walking (first + 1) 0)
          let rest := mergeBack fuel next.1 next.2 kept xs (y :: ys)
          (x :: rest.1, rest.2)
        else
          let next := Pace.after (second + 1) bar (.walking 0 (second + 1))
          let rest := mergeBack fuel next.1 next.2 kept (x :: xs) ys
          (y :: rest.1, rest.2)
      | .galloping =>
        let bar := lowered bar
        let i := gallopBack (fun item => !precedes y item) (x :: xs)
        let front := (x :: xs).take i
        match (x :: xs).drop i with
        | [] => (front ++ y :: ys, bar)
        | z :: zs =>
          -- The second run is checked before its items are galloped through: with one item left it
          -- has lost.
          match ys with
          | [last] => (front ++ y :: z :: zs ++ [last], bar)
          | ys =>
            let j := gallopBack (fun item => precedes item z) ys
            let out := front ++ y :: ys.take j
            match ys.drop j with
            | [] => (out ++ z :: zs, bar)
            | [last] => (out ++ z :: zs ++ [last], bar)
            | ws =>
              match zs with
              | [] => (out ++ z :: ws, bar)
              | zs =>
                let next := Pace.afterRound i j bar
                let rest := mergeBack fuel next.1 next.2 next.2 zs ws
                (out ++ z :: rest.1, rest.2)

/-- Merges two runs of which the first item of all is in the second run and the last in the
first. -/
def mergeInside (bar : Nat) (xs ys : List α) : List α × Nat :=
  let fuel := xs.length + ys.length
  -- The shorter run is the one that is set aside, so the merge starts at its side.
  if xs.length ≤ ys.length then
    match ys with
    | [] => (xs, bar)
    | y :: ys =>
      let rest := mergeFront precedes fuel (.walking 0 0) bar bar xs ys
      (y :: rest.1, rest.2)
  else
    match xs.reverse with
    | [] => (ys, bar)
    | x :: xs =>
      let rest := mergeBack precedes fuel (.walking 0 0) bar bar xs ys.reverse
      ((x :: rest.1).reverse, rest.2)

/-- Merges two runs. The bar for galloping is handed on from merge to merge. -/
def mergeRuns (bar : Nat) (xs ys : List α) : List α × Nat :=
  match ys.head? with
  | none => (xs, bar)
  | some y =>
    -- What of the first run stays in front of all of the second is left where it is.
    let i := gallop (fun item => !precedes y item) xs 0
    match (xs.drop i).getLast? with
    | none => (xs ++ ys, bar)
    | some x =>
      -- So is what of the second run stays behind all of the first.
      let j := gallop (fun item => precedes item x) ys (ys.length - 1)
      let merged := mergeInside precedes bar (xs.drop i) (ys.take j)
      (xs.take i ++ merged.1 ++ ys.drop j, merged.2)

/-! ### Which runs are merged -/

/-- A run that waits to be merged. Its power is that of the border behind it, and is known only once
the next run is. -/
structure Run (α : Type) where
  start : Nat
  items : List α
  power : Nat

/-- The power of the border between two runs, whose middles are given, doubled: how often a list
must be halved until a cut separates the middles. Borders of a high power lie between runs that are
close to each other, and these are merged first. -/
def power (whole : Nat) : Nat → Nat → Nat → Nat
  | 0, _, _ => 0
  | fuel + 1, left, right =>
    if left ≥ whole then 1 + power whole fuel (2 * (left - whole)) (2 * (right - whole))
    else if right ≥ whole then 1
    else 1 + power whole fuel (2 * left) (2 * right)

/-- Merges runs, of which the last one comes first here, until no border in front of the last one
has a power above the given one, and notes that for the border behind it. Powers therefore grow from
the bottom of the pile to its top, which keeps the merges balanced. -/
def collapse (power bar : Nat) : List (Run α) → List (Run α) × Nat
  | top :: below :: rest =>
    if below.power > power then
      let merged := mergeRuns precedes bar below.items top.items
      collapse power merged.2 ({ below with items := merged.1 } :: rest)
    else ({ top with power } :: below :: rest, bar)
  | [top] => ([{ top with power }], bar)
  | [] => ([], bar)
termination_by runs => runs.length

/-- The power of the border behind the last run, if a run of some length follows. -/
def borderPower (whole length : Nat) (last : Run α) : Nat :=
  let left := 2 * last.start + last.items.length
  power whole whole left (left + last.items.length + length)

/-- Takes all runs from a list onto those that wait, and merges what has to be merged before the
next one. -/
def collect (whole : Nat) : Nat → Nat → List (Run α) → List α → List (Run α) × Nat
  | 0, bar, runs, items => (⟨whole - items.length, items, 0⟩ :: runs, bar)
  | fuel + 1, bar, runs, items =>
    match items with
    | [] => (runs, bar)
    | items =>
      let cut := filledRun precedes (shortestRun whole) items
      let collapsed := match runs with
        | [] => ([], bar)
        | last :: _ => collapse precedes (borderPower whole cut.1.length last) bar runs
      collect whole fuel collapsed.2
        (⟨whole - items.length, cut.1, 0⟩ :: collapsed.1) cut.2

/-- Merges the runs that are left. -/
def mergeAll (bar : Nat) : List (Run α) → List α
  | [] => []
  | [run] => run.items
  | [top, below] => (mergeRuns precedes bar below.items top.items).1
  | top :: below :: third :: rest =>
    -- Of three runs the middle one goes with the shorter of its neighbours.
    if third.items.length < top.items.length then
      let merged := mergeRuns precedes bar third.items below.items
      mergeAll merged.2 (top :: { third with items := merged.1 } :: rest)
    else
      let merged := mergeRuns precedes bar below.items top.items
      mergeAll merged.2 ({ below with items := merged.1 } :: third :: rest)
termination_by runs => runs.length

/-- Arranges a list. -/
def arrange (items : List α) : List α :=
  let collected := collect precedes items.length items.length many [] items
  mergeAll precedes collected.2 collected.1

/-! ### Nothing is lost -/

/-- Cutting loses nothing. -/
theorem append_cutRun (linked : α → α → Bool) (first : α) (items : List α) :
    (cutRun linked first items).1 ++ (cutRun linked first items).2 = first :: items := by
  induction items generalizing first with
  | nil => rfl
  | cons next rest ih =>
    unfold cutRun
    split
    · exact congrArg (first :: ·) (ih next)
    · rfl

/-- The run at the front and the items behind it are the items. -/
theorem perm_frontRun (items : List α) :
    List.Perm ((frontRun precedes items).1 ++ (frontRun precedes items).2) items := by
  fun_cases frontRun precedes items with
  | case1 => exact .refl _
  | case2 item => exact .refl _
  | case3 first second rest h cut =>
    exact ((List.reverse_perm _).append_right _).trans (.of_eq (append_cutRun _ first _))
  | case4 first second rest h => exact .of_eq (append_cutRun _ first _)

/-- Insertion by halves only rearranges. -/
theorem perm_insertByHalves (item : α) (items : List α) :
    List.Perm (insertByHalves precedes item items) (item :: items) := by
  fun_induction insertByHalves precedes item items with
  | case1 items h => exact .refl _
  | case2 items middle above h below hprec ih =>
    refine (ih.append_right _).trans (.of_eq ?_)
    rw [List.cons_append, ← h, List.take_append_drop]
  | case3 items middle above h below hprec ih =>
    refine ((ih.cons middle).append_left _).trans ?_
    refine ((List.Perm.swap item middle above).append_left _).trans ?_
    refine List.perm_middle.trans (.of_eq ?_)
    rw [← h, List.take_append_drop]

/-- Inserting items one after the other only rearranges. -/
theorem perm_foldl_insertByHalves (further run : List α) :
    List.Perm (further.foldl (fun run item => insertByHalves precedes item run) run)
      (run ++ further) := by
  induction further generalizing run with
  | nil => simp
  | cons item rest ih =>
    refine (ih _).trans (((perm_insertByHalves precedes item run).append_right rest).trans ?_)
    exact List.perm_middle.symm

/-- The run at the front, filled up, and the items behind it are the items. -/
theorem perm_filledRun (shortest : Nat) (items : List α) :
    List.Perm ((filledRun precedes shortest items).1 ++ (filledRun precedes shortest items).2)
      items := by
  refine ((perm_foldl_insertByHalves precedes _ _).append_right _).trans ?_
  simp only [filledRun, List.append_assoc, List.take_append_drop]
  exact perm_frontRun precedes items

open Classical in
/-- An item is as often in a list as in its two parts. -/
theorem count_take_drop (item : α) (i : Nat) (items : List α) :
    items.count item = (items.take i).count item + (items.drop i).count item := by
  rw [← List.count_append, List.take_append_drop]

open Classical in
/-- Merging from the fronts only rearranges. -/
theorem perm_mergeFront (fuel : Nat) (pace : Pace) (bar kept : Nat) (xs ys : List α) :
    List.Perm (mergeFront precedes fuel pace bar kept xs ys).1 (xs ++ ys) := by
  -- A merge takes lists apart in many places, so the claim is counted instead of rearranged: every
  -- case is then a sum.
  rw [List.perm_iff_count]
  intro item
  fun_induction mergeFront precedes fuel pace bar kept xs ys with
  | case1 | case2 => rfl
  | case3 => simp
  | case4 => simp only [List.count_append]; omega
  -- One item is placed, whichever run it comes from, and the rest is by induction.
  | case5 fuel bar kept x xs y ys _ _ _ _ next rest ih
  | case6 fuel bar kept x xs y ys _ _ _ _ next rest ih =>
    simp only [List.count_append, List.count_cons] at ih ⊢
    simp only [rest]
    omega
  -- While galloping, `count_take_drop` says what was taken from a run and what is left of it.
  | case7 fuel bar' kept x xs y ys _ bar i front h =>
    have hx := count_take_drop item i (x :: xs)
    simp only [h, List.count_append, List.count_cons, List.count_nil, front] at hx ⊢
    omega
  | case8 fuel bar' kept x xs y ys _ bar i front z h =>
    have hx := count_take_drop item i (x :: xs)
    simp only [h, List.count_append, List.count_cons, List.count_nil, front] at hx ⊢
    omega
  | case9 fuel bar' kept x xs y ys _ bar i front z zs _ h j out hy =>
    have hx := count_take_drop item i (x :: xs)
    have hys := count_take_drop item j ys
    simp only [h, hy, List.count_append, List.count_cons, List.count_nil, front, out] at hx hys ⊢
    omega
  | case10 fuel bar' kept x xs y ys _ bar i front z j out last _ h _ =>
    have hx := count_take_drop item i (x :: xs)
    have hys := count_take_drop item j ys
    simp only [h, List.count_append, List.count_cons, List.count_nil, front, out] at hx hys ⊢
    omega
  -- Only here does the merge go on after a round, and the induction hypothesis is needed.
  | case11 fuel bar' kept x xs y ys _ bar i front z j out zs _ next _ h _ rest ih =>
    have hx := count_take_drop item i (x :: xs)
    have hys := count_take_drop item j ys
    simp only [h, List.count_append, List.count_cons, front, out] at hx hys ih ⊢
    simp only [rest]
    omega

open Classical in
/-- Merging from the ends only rearranges. -/
theorem perm_mergeBack (fuel : Nat) (pace : Pace) (bar kept : Nat) (xs ys : List α) :
    List.Perm (mergeBack precedes fuel pace bar kept xs ys).1 (xs ++ ys) := by
  -- As for merging from the fronts: each case is a sum of counts.
  rw [List.perm_iff_count]
  intro item
  fun_induction mergeBack precedes fuel pace bar kept xs ys with
  | case1 | case2 | case4 => rfl
  | case3 => simp
  | case5 fuel bar kept x xs y ys _ _ _ _ next rest ih
  | case6 fuel bar kept x xs y ys _ _ _ _ next rest ih =>
    simp only [List.count_append, List.count_cons] at ih ⊢
    simp only [rest]
    omega
  | case7 fuel bar' kept x xs y ys _ bar i front h =>
    have hx := count_take_drop item i (x :: xs)
    simp only [h, List.count_append, List.count_cons, List.count_nil, front] at hx ⊢
    omega
  | case8 fuel bar' kept x xs y bar i front z zs h last _ =>
    have hx := count_take_drop item i (x :: xs)
    simp only [h, List.count_append, List.count_cons, List.count_nil, front] at hx ⊢
    omega
  -- The second run is nearly used up, and one case differs from the other in its last item only.
  | case9 fuel bar' kept x xs y bar i front z zs h ys _ j out hy _
  | case10 fuel bar' kept x xs y bar i front z zs h ys _ j out last hy _ =>
    have hx := count_take_drop item i (x :: xs)
    have hys := count_take_drop item j ys
    simp only [h, hy, List.count_append, List.count_cons, List.count_nil, front, out] at hx hys ⊢
    omega
  | case11 fuel bar' kept x xs y bar i front z ys _ j out _ h _ _ =>
    have hx := count_take_drop item i (x :: xs)
    have hys := count_take_drop item j ys
    simp only [h, List.count_append, List.count_cons, List.count_nil, front, out] at hx hys ⊢
    omega
  -- The round is over and both runs have items left.
  | case12 fuel bar' kept x xs y bar i front z ys _ j out zs _ next _ h _ _ rest ih =>
    have hx := count_take_drop item i (x :: xs)
    have hys := count_take_drop item j ys
    simp only [h, List.count_append, List.count_cons, front, out] at hx hys ih ⊢
    simp only [rest]
    omega

/-- Merging runs that have to be merged only rearranges. -/
theorem perm_mergeInside (bar : Nat) (xs ys : List α) :
    List.Perm (mergeInside precedes bar xs ys).1 (xs ++ ys) := by
  unfold mergeInside
  split
  · split
    · simp
    · exact ((perm_mergeFront precedes ..).cons _).trans List.perm_middle.symm
  · split
    · next h =>
      obtain rfl := List.reverse_eq_nil_iff.1 h
      exact .refl _
    -- The runs are merged from their ends, so all three lists are turned around.
    · next x rest h =>
      refine (List.reverse_perm _).trans (((perm_mergeBack precedes ..).cons x).trans ?_)
      rw [← List.cons_append, ← h]
      exact (List.reverse_perm xs).append (List.reverse_perm ys)

/-- Merging runs only rearranges. -/
theorem perm_mergeRuns (bar : Nat) (xs ys : List α) :
    List.Perm (mergeRuns precedes bar xs ys).1 (xs ++ ys) := by
  unfold mergeRuns
  split
  · next h =>
    obtain rfl := List.head?_eq_none_iff.1 h
    simp
  · next y _ =>
    dsimp only
    split
    · exact .refl _
    · next x _ =>
      -- Only the middle was merged; the two ends are joined to it as they were.
      refine (((perm_mergeInside precedes bar _ _).append_left _).append_right _).trans (.of_eq ?_)
      simp only [List.append_assoc]
      rw [List.take_append_drop, ← List.append_assoc, List.take_append_drop]

/-- The items of the runs that wait. -/
def waiting (runs : List (Run α)) : List α := runs.flatMap Run.items

/-- Merging in between only rearranges the items that wait. -/
theorem perm_collapse (power bar : Nat) (runs : List (Run α)) :
    List.Perm (waiting (collapse precedes power bar runs).1) (waiting runs) := by
  fun_induction collapse precedes power bar runs with
  | case1 bar top below rest h merged ih =>
    refine ih.trans ?_
    simp only [waiting, List.flatMap_cons, merged, ← List.append_assoc]
    exact ((perm_mergeRuns precedes ..).trans List.perm_append_comm).append_right _
  | case2 | case3 | case4 => exact .refl _

/-- Taking runs from a list only rearranges. -/
theorem perm_collect (whole fuel bar : Nat) (runs : List (Run α)) (items : List α) :
    List.Perm (waiting (collect precedes whole fuel bar runs items).1) (waiting runs ++ items) := by
  fun_induction collect precedes whole fuel bar runs items with
  | case1 => simpa [waiting] using List.perm_append_comm
  | case2 => simp
  | case3 fuel bar runs items _ cut collapsed ih =>
    -- Whether runs were waiting or not, `collapse` loses none of them.
    have hwaiting : List.Perm (waiting collapsed.1) (waiting runs) := by
      cases runs with
      | nil => exact .refl _
      | cons last rest => exact perm_collapse precedes ..
    refine ih.trans ((List.perm_append_comm.append_right _).trans ?_)
    rw [List.append_assoc]
    exact hwaiting.append (perm_filledRun precedes ..)

/-- Merging the runs that are left only rearranges. -/
theorem perm_mergeAll (bar : Nat) (runs : List (Run α)) :
    List.Perm (mergeAll precedes bar runs) (waiting runs) := by
  fun_induction mergeAll precedes bar runs with
  | case1 => exact .refl _
  | case2 => simp [waiting]
  | case3 bar top below =>
    simpa [waiting] using (perm_mergeRuns precedes ..).trans List.perm_append_comm
  -- The two runs at the bottom are merged, and the one at the top stays as it is.
  | case4 bar top below third rest h merged ih =>
    refine ih.trans ?_
    simp only [waiting, List.flatMap_cons, merged]
    refine List.Perm.append_left _ ?_
    rw [← List.append_assoc]
    exact ((perm_mergeRuns precedes ..).trans List.perm_append_comm).append_right _
  -- Here it is the two at the top, and all that wait below them stay.
  | case5 bar top below third rest h merged ih =>
    refine ih.trans ?_
    simp only [waiting, List.flatMap_cons, merged, ← List.append_assoc]
    exact (((perm_mergeRuns precedes ..).trans List.perm_append_comm).append_right _).append_right _

/-- Arranging only rearranges. -/
theorem perm_arrange (items : List α) : List.Perm (arrange precedes items) items := by
  refine (perm_mergeAll precedes _ _).trans ((perm_collect precedes ..).trans ?_)
  simp [waiting]

end Rollout.Arrangement
