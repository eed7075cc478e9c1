/-!
# Sets of characters

A set of characters is written as the increasing list of code points at which membership
changes: characters below the first entry are outside, those from the first up to the second
are inside, and so on.
-/
namespace ApiHandbook.Text

structure CharSet where
  edges : List Nat
  deriving DecidableEq, Repr

/-- A character is inside when an odd number of edges lies at or below it. -/
def CharSet.contains (set : CharSet) (c : Char) : Bool :=
  (set.edges.takeWhile (· ≤ c.toNat)).length % 2 == 1

end ApiHandbook.Text
