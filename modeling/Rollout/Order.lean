import Rollout.Arrangement
import Rollout.Value

/-!
# Order of values

Process types and the keys of documents are put in order. Texts are ordered by code point and
numbers by value; a text and a number have no order, and neither have other values.

* `inOrder` is a stable sort by insertion. Items that are ordered by texts come out ascending
  (`pairwise_inOrder`), strictly so if each has a text of its own (`strict_inOrder`).
* "Not a number" is neither before nor behind a number, so keys that have it among them have no
  ascending order. They are arranged by runs (`Arrangement.arrange`).
-/

namespace Rollout

/-! ### Sorting -/

/-- Puts an item before the first one that does not precede it. An item that is level with others
therefore goes in front of them, and since `inOrder` inserts from the end on, those that came first
stay first. -/
def insertInOrder {α : Type} (precedes : α → α → Bool) (item : α) : List α → List α
  | [] => [item]
  | other :: rest =>
    if precedes other item then other :: insertInOrder precedes item rest
    else item :: other :: rest

/-- Items in ascending order. Insertion is enough here: what it gives for an order is all that is
relied on, and it is easy to reason about. -/
def inOrder {α : Type} (precedes : α → α → Bool) (items : List α) : List α :=
  items.foldr (insertInOrder precedes) []

@[simp] theorem inOrder_nil {α : Type} (precedes : α → α → Bool) : inOrder precedes [] = [] := rfl

@[simp] theorem inOrder_cons {α : Type} (precedes : α → α → Bool) (item : α) (items : List α) :
    inOrder precedes (item :: items) = insertInOrder precedes item (inOrder precedes items) := rfl

/-- Insertion only rearranges. -/
theorem perm_insertInOrder {α : Type} (precedes : α → α → Bool) (item : α) (items : List α) :
    List.Perm (insertInOrder precedes item items) (item :: items) := by
  induction items with
  | nil => exact .refl _
  | cons other rest ih =>
    unfold insertInOrder
    split
    · exact (ih.cons other).trans (.swap item other rest)
    · exact .refl _

/-- Sorting only rearranges. -/
theorem perm_inOrder {α : Type} (precedes : α → α → Bool) (items : List α) :
    List.Perm (inOrder precedes items) items := by
  induction items with
  | nil => exact .refl _
  | cons item rest ih => exact (perm_insertInOrder precedes item _).trans (ih.cons item)

/-- Insertion keeps items ascending in their texts. -/
theorem pairwise_insertInOrder {α : Type} {key : α → String} {precedes : α → α → Bool} {item : α}
    {items : List α} (h : ∀ other ∈ items, precedes other item = decide (key other < key item))
    (hsorted : items.Pairwise fun a b => key a ≤ key b) :
    (insertInOrder precedes item items).Pairwise fun a b => key a ≤ key b := by
  induction items with
  | nil => exact List.pairwise_singleton _ _
  | cons other rest ih =>
    obtain ⟨hfirst, hrest⟩ := List.pairwise_cons.mp hsorted
    unfold insertInOrder
    rw [h other List.mem_cons_self]
    by_cases hlt : key other < key item
    -- The item goes further back; what follows the first item is the rest with the item in it.
    · rw [if_pos (decide_eq_true hlt)]
      have hlater := ih (fun later hmem => h later (List.mem_cons_of_mem _ hmem)) hrest
      refine List.pairwise_cons.mpr ⟨fun later hmem => ?_, hlater⟩
      rcases List.mem_cons.mp ((perm_insertInOrder precedes item rest).mem_iff.mp hmem) with
        rfl | hmem
      -- The later item is the inserted one.
      · exact String.not_lt.mp fun hgt => String.lt_irrefl _ (String.lt_trans hlt hgt)
      · exact hfirst later hmem
    -- The item goes in front, and what the first item is not above is not below it either.
    · rw [if_neg (by simpa using hlt)]
      have hle : key item ≤ key other := String.not_lt.mp hlt
      refine List.pairwise_cons.mpr ⟨fun later hmem => ?_, hsorted⟩
      rcases List.mem_cons.mp hmem with rfl | hmem
      · exact hle
      · exact String.le_trans hle (hfirst later hmem)

/-- Items that are ordered by texts come in ascending order of these. The texts only have to decide
the order among the items themselves. -/
theorem pairwise_inOrder {α : Type} {key : α → String} {precedes : α → α → Bool} {items : List α}
    (h : ∀ a ∈ items, ∀ b ∈ items, precedes a b = decide (key a < key b)) :
    (inOrder precedes items).Pairwise fun a b => key a ≤ key b := by
  induction items with
  | nil => exact .nil
  | cons item rest ih =>
    refine pairwise_insertInOrder (fun other hmem => ?_)
      (ih fun a ha b hb => h a (.tail _ ha) b (.tail _ hb))
    exact h other (.tail _ ((perm_inOrder precedes rest).mem_iff.mp hmem)) item (.head _)

/-- Items with texts of their own come in strictly ascending order. -/
theorem strict_inOrder {α : Type} (key : α → String) {precedes : α → α → Bool} {items : List α}
    (h : ∀ a ∈ items, ∀ b ∈ items, precedes a b = decide (key a < key b))
    (hdistinct : (items.map key).Nodup) :
    (inOrder precedes items).Pairwise fun a b => key a < key b := by
  have hnodup : ((inOrder precedes items).map key).Nodup :=
    ((perm_inOrder precedes items).map key).nodup_iff.mpr hdistinct
  -- Ascending and different makes strictly ascending.
  refine ((pairwise_inOrder h).and (List.pairwise_map.mp hnodup)).imp fun ⟨hle, hne⟩ => ?_
  exact Decidable.byContradiction fun hlt => hne (String.le_antisymm hle (String.not_lt.mp hlt))

/-! ### The order of values -/

namespace Value

/-- Two values can be ordered: both are texts, or both are numbers. Truth values count as numbers;
"not a number" is one, too, although it has no place among them. -/
def comparable (a b : Value) : Bool :=
  match a, b with
  | .text _, .text _ => true
  | a, b => a.number?.isSome && b.number?.isSome

/-- The order of values: texts by code point, numbers by value. -/
def precedes (a b : Value) : Bool :=
  match a, b with
  | .text s, .text t => s < t
  | a, b =>
    match a.number?, b.number? with
    | some m, some n => m.compare? n == some .lt
    | _, _ => false

/-- Every two keys of a dictionary can be ordered. Being comparable is the same for all values of a
kind, so it is enough to compare the first key with the others. -/
def allComparable {α : Type} : List (Value × α) → Bool
  | [] => true
  | entry :: rest => rest.all fun other => comparable entry.1 other.1

/-- Every key of a dictionary has its place among the others: it is the same as itself. -/
def allOrdered {α : Type} (entries : List (Value × α)) : Bool :=
  entries.all fun entry => entry.1.same entry.1

/-- The entries of a dictionary in the order of their keys. Where each key has its place any stable
sort gives the same result; where one has none, the result depends on the comparisons that are made,
and only `Arrangement.arrange` makes the right ones. -/
def sortedEntries {α : Type} (entries : List (Value × α)) : List (Value × α) :=
  if allOrdered entries then inOrder (fun a b => precedes a.1 b.1) entries
  else Arrangement.arrange (fun a b => precedes a.1 b.1) entries

/-- Keys that are texts can be ordered. -/
theorem allComparable_of_texts {α : Type} {entries : List (Value × α)}
    (h : ∀ entry ∈ entries, ∃ s, entry.1 = .text s) : allComparable entries = true := by
  cases entries with
  | nil => rfl
  | cons first rest =>
    obtain ⟨⟨s, hs⟩, hrest⟩ := List.forall_mem_cons.mp h
    refine List.all_eq_true.mpr fun other hmem => ?_
    obtain ⟨t, ht⟩ := hrest other hmem
    rw [hs, ht]
    rfl

/-- Keys that are texts have their places. -/
theorem allOrdered_of_texts {α : Type} {entries : List (Value × α)}
    (h : ∀ entry ∈ entries, ∃ s, entry.1 = .text s) : allOrdered entries = true := by
  refine List.all_eq_true.mpr fun entry hmem => ?_
  obtain ⟨s, hs⟩ := h entry hmem
  rw [hs, same_text, beq_self_eq_true]

/-- Keys that have their places are sorted by insertion. -/
theorem sortedEntries_of_allOrdered {α : Type} {entries : List (Value × α)}
    (h : allOrdered entries = true) :
    sortedEntries entries = inOrder (fun a b => precedes a.1 b.1) entries := if_pos h

/-- Sorting only rearranges the entries. -/
theorem perm_sortedEntries {α : Type} (entries : List (Value × α)) :
    List.Perm (sortedEntries entries) entries := by
  unfold sortedEntries
  split
  · exact perm_inOrder _ entries
  · exact Arrangement.perm_arrange _ entries

/-- Sorting keeps the entries. -/
theorem mem_sortedEntries {α : Type} (entries : List (Value × α)) (entry : Value × α) :
    entry ∈ sortedEntries entries ↔ entry ∈ entries :=
  (perm_sortedEntries entries).mem_iff

end Value

end Rollout
