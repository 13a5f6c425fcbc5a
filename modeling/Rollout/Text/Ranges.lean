/-!
# Ranges of code points

The character classes of this library are tables: closed ranges of code points, ascending and
apart. `Ranges.contains` looks a code point up, range by range, so a table means the same in any
order; the order is for the reader.
-/

namespace Rollout.Text

/-- A set of code points as closed ranges, ascending and apart. -/
abbrev Ranges := List (Nat × Nat)

namespace Ranges

/-- Whether a code point lies in one of the ranges. -/
def contains (table : Ranges) (n : Nat) : Bool :=
  table.any fun range => range.1 ≤ n && n ≤ range.2

@[simp] theorem contains_nil (n : Nat) : contains [] n = false := rfl

@[simp] theorem contains_cons (range : Nat × Nat) (rest : Ranges) (n : Nat) :
    contains (range :: rest) n = ((range.1 ≤ n && n ≤ range.2) || contains rest n) := rfl

end Ranges

end Rollout.Text
