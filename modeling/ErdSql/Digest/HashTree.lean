/-!
# Hash trees

The root hash of a list of byte strings, over any hash function. Leaves are hashes of the strings and
a parent is the hash of its two children one after the other; a level of odd length repeats its last
node.
-/

namespace ErdSql.Digest.HashTree

/-- The next level: neighbours in pairs, the last one with itself if it has no partner. -/
def parents (hash : List UInt8 → List UInt8) : List (List UInt8) → List (List UInt8)
  | a :: b :: rest => hash (a ++ b) :: parents hash rest
  | [a] => [hash (a ++ a)]
  | [] => []

/-- The next level is at most half as long, rounded up. -/
theorem length_parents (hash : List UInt8 → List UInt8) :
    ∀ level, (parents hash level).length = (level.length + 1) / 2
  | a :: b :: rest => by
    simp only [parents, List.length_cons, length_parents hash rest]
    omega
  | [a] => by simp [parents]
  | [] => by simp [parents]

/-- The root above a level: levels are halved until one node is left, and at least once. -/
def rootAbove (hash : List UInt8 → List UInt8) : List (List UInt8) → List UInt8
  | [] => []
  | [a] => hash (a ++ a)
  | [a, b] => hash (a ++ b)
  | a :: b :: c :: rest => rootAbove hash (parents hash (a :: b :: c :: rest))
termination_by level => level.length
decreasing_by
  rw [length_parents]
  simp only [List.length_cons]
  omega

/-- The root hash of byte strings. -/
def root (hash : List UInt8 → List UInt8) (items : List (List UInt8)) : List UInt8 :=
  rootAbove hash (items.map hash)

end ErdSql.Digest.HashTree
