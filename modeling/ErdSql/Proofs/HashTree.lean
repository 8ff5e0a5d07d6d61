import ErdSql.Digest.HashTree
import Mathlib

/-!
# Hash trees as trees

The root hash of a list of byte strings is the digest of a binary tree whose leaves are the strings.
Where a level has odd length its last node stands twice, so lists of different length can have one
tree.

* `root_eq_digest`: the root hash is the digest of `tree`.
* `digest_eq_iff`: two trees without collisions have one digest exactly when they are `Alike`: equal,
  except that a leaf may spell the two digests that a node hashes, since leaves and nodes are hashed
  the same way.
* `Alike.eq`: trees in which no leaf spells two digests are alike only if they are equal.
* `tree_injective`: lists without repetitions have different trees.

All inductions follow the levels (`pairUp`, `top`) or the tree.
-/

namespace ErdSql.Digest.HashTree

/-- A binary tree over byte strings. -/
inductive Tree where
  | leaf (item : List UInt8)
  | node (left right : Tree)
  deriving DecidableEq, Inhabited

namespace Tree

/-- The digest of a tree: of its string, or of the digests of its two children one after the other. -/
def digest (hash : List UInt8 → List UInt8) : Tree → List UInt8
  | leaf item => hash item
  | node l r => hash (digest hash l ++ digest hash r)

/-- The byte string that is hashed at the top of a tree. -/
def content (hash : List UInt8 → List UInt8) : Tree → List UInt8
  | leaf item => item
  | node l r => digest hash l ++ digest hash r

/-- All byte strings that are hashed for the digest of a tree. -/
def contents (hash : List UInt8 → List UInt8) : Tree → List (List UInt8)
  | leaf item => [item]
  | node l r => (digest hash l ++ digest hash r) :: (contents hash l ++ contents hash r)

/-- The strings at the leaves, from left to right. -/
def leaves : Tree → List (List UInt8)
  | leaf item => [item]
  | node l r => leaves l ++ leaves r

/-- Trees that hash the same strings level by level, down to the first leaf. -/
inductive Alike (hash : List UInt8 → List UInt8) : Tree → Tree → Prop where
  | leaf {s} :
    Alike hash (.leaf s) (.leaf s)
  | node {l l' r r'} :
    Alike hash l l' →
    Alike hash r r' →
    Alike hash (.node l r) (.node l' r')
  | leafNode {l r} :
    Alike hash (.leaf (digest hash l ++ digest hash r)) (.node l r)
  | nodeLeaf {l r} :
    Alike hash (.node l r) (.leaf (digest hash l ++ digest hash r))

variable {hash : List UInt8 → List UInt8}

/-- A digest is the hash of what is hashed at the top. -/
lemma digest_eq_hash_content (t : Tree) : digest hash t = hash (content hash t) := by
  cases t <;> rfl

/-- The string at the top is among those that are hashed. -/
lemma content_mem_contents (t : Tree) : content hash t ∈ contents hash t := by
  cases t with
  | leaf s => exact List.mem_singleton_self s
  | node l r => exact List.mem_cons_self

/-- Every tree is like itself. -/
lemma Alike.refl (t : Tree) : Alike hash t t := by
  induction t with
  | leaf s => exact .leaf
  | node l r ihl ihr => exact .node ihl ihr

/-- Alike trees have one digest. -/
lemma Alike.digest_eq {t u : Tree} (h : Alike hash t u) : digest hash t = digest hash u := by
  induction h with
  | leaf => rfl
  | node _ _ ihl ihr => rw [digest, digest, ihl, ihr]
  | leafNode => rfl
  | nodeLeaf => rfl

/-- Without collisions, trees of one digest hash one string at the top. -/
lemma content_eq_of_digest_eq {t u : Tree}
    (inj : Set.InjOn hash {s | s ∈ contents hash t ∨ s ∈ contents hash u})
    (h : digest hash t = digest hash u) : content hash t = content hash u := by
  rw [digest_eq_hash_content, digest_eq_hash_content u] at h
  exact inj (Or.inl (content_mem_contents t)) (Or.inr (content_mem_contents u)) h

/-- Without collisions among the strings that are hashed, only alike trees have one digest. -/
lemma Alike.of_digest_eq {n : Nat} (len : ∀ s, (hash s).length = n) {t u : Tree}
    (inj : Set.InjOn hash {s | s ∈ contents hash t ∨ s ∈ contents hash u})
    (h : digest hash t = digest hash u) : Alike hash t u := by
  induction t generalizing u with
  | leaf s =>
    cases u with
    | leaf s' => cases content_eq_of_digest_eq inj h; exact .leaf
    | node l r => cases content_eq_of_digest_eq inj h; exact .leafNode
  | node l r ihl ihr =>
    cases u with
    | leaf s' => cases content_eq_of_digest_eq inj h; exact .nodeLeaf
    | node l' r' =>
      -- digests have one length, so the string at the top says where it is cut
      have lengths : (digest hash l).length = (digest hash l').length := by
        rw [digest_eq_hash_content, digest_eq_hash_content l', len, len]
      obtain ⟨hl, hr⟩ := List.append_inj (content_eq_of_digest_eq inj h) lengths
      refine .node (ihl (inj.mono ?_) hl) (ihr (inj.mono ?_) hr)
      · rintro s (hs | hs) <;> simp [contents, hs]
      · rintro s (hs | hs) <;> simp [contents, hs]

/-- The digests of two trees without collisions agree exactly when the trees are alike. -/
lemma digest_eq_iff {n : Nat} (len : ∀ s, (hash s).length = n) {t u : Tree}
    (inj : Set.InjOn hash {s | s ∈ contents hash t ∨ s ∈ contents hash u}) :
    digest hash t = digest hash u ↔ Alike hash t u :=
  ⟨Alike.of_digest_eq len inj, Alike.digest_eq⟩

/-- Alike trees in which no leaf spells two digests are equal. -/
lemma Alike.eq {t u : Tree} (h : Alike hash t u)
    (plain : ∀ s, s ∈ leaves t ∨ s ∈ leaves u → ∀ a b, s ≠ hash a ++ hash b) : t = u := by
  induction h with
  | leaf => rfl
  | @node l l' r r' _ _ ihl ihr =>
    have el : l = l' := by
      refine ihl fun s hs => plain s ?_
      rcases hs with hs | hs <;> simp [leaves, hs]
    have er : r = r' := by
      refine ihr fun s hs => plain s ?_
      rcases hs with hs | hs <;> simp [leaves, hs]
    rw [el, er]
  | @leafNode l r =>
    refine absurd ?_ (plain _ (Or.inl (List.mem_singleton_self _)) (content hash l) (content hash r))
    rw [digest_eq_hash_content, digest_eq_hash_content r]
  | @nodeLeaf l r =>
    refine absurd ?_ (plain _ (Or.inr (List.mem_singleton_self _)) (content hash l) (content hash r))
    rw [digest_eq_hash_content, digest_eq_hash_content r]

end Tree

/-! ### Building -/

/-- The next level of trees: neighbours in pairs, the last one with itself if it has no partner. -/
def pairUp : List Tree → List Tree
  | a :: b :: rest => .node a b :: pairUp rest
  | [a] => [.node a a]
  | [] => []

/-- The next level is half as long, rounded up. -/
lemma length_pairUp : ∀ level, (pairUp level).length = (level.length + 1) / 2
  | a :: b :: rest => by
    simp only [pairUp, List.length_cons, length_pairUp rest]
    omega
  | [a] => by simp [pairUp]
  | [] => by simp [pairUp]

/-- The tree above a level; of no use for an empty level. -/
def top : List Tree → Tree
  | [] => .leaf []
  | [a] => .node a a
  | [a, b] => .node a b
  | a :: b :: c :: rest => top (pairUp (a :: b :: c :: rest))
termination_by level => level.length
decreasing_by
  rw [length_pairUp]
  simp only [List.length_cons]
  omega

/-- The tree of byte strings. -/
def tree (items : List (List UInt8)) : Tree := top (items.map .leaf)

/-- Pairing digests and pairing trees are the same. -/
lemma parents_map_digest (hash : List UInt8 → List UInt8) :
    ∀ level, parents hash (level.map (Tree.digest hash)) = (pairUp level).map (Tree.digest hash)
  | a :: b :: rest => by
    simp only [List.map_cons, parents, pairUp, Tree.digest, parents_map_digest hash rest]
  | [a] => rfl
  | [] => rfl

/-- The root above the digests of a level is the digest of the tree above it. -/
lemma rootAbove_map_digest (hash : List UInt8 → List UInt8) (level : List Tree)
    (h : level ≠ []) : rootAbove hash (level.map (Tree.digest hash)) = Tree.digest hash (top level) := by
  fun_induction top level with
  | case1 => exact absurd rfl h
  | case2 a => simp only [List.map_cons, List.map_nil, rootAbove, Tree.digest]
  | case3 a b => simp only [List.map_cons, List.map_nil, rootAbove, Tree.digest]
  | case4 a b c rest ih =>
    rw [← ih (by simp [pairUp]), ← parents_map_digest]
    simp only [List.map_cons, rootAbove]

/-- The root hash of byte strings is the digest of their tree. -/
lemma root_eq_digest (hash : List UInt8 → List UInt8) {items : List (List UInt8)}
    (h : items ≠ []) : root hash items = Tree.digest hash (tree items) := by
  have leavesOf : items.map hash = (items.map Tree.leaf).map (Tree.digest hash) := by
    rw [List.map_map]
    rfl
  rw [root, leavesOf, rootAbove_map_digest hash _ (by simpa using h), tree]

/-- The tree above a level has two children. -/
lemma exists_top_eq_node {level : List Tree} (h : level ≠ []) : ∃ l r, top level = .node l r := by
  fun_induction top level with
  | case1 => exact absurd rfl h
  | case2 a => exact ⟨a, a, rfl⟩
  | case3 a b => exact ⟨a, b, rfl⟩
  | case4 a b c rest ih => exact ih (by simp [pairUp])

/-- What is hashed for a root has the length of two digests. -/
lemma length_content_tree {hash : List UInt8 → List UInt8} {n : Nat}
    (len : ∀ s, (hash s).length = n) {items : List (List UInt8)} (h : items ≠ []) :
    ((tree items).content hash).length = 2 * n := by
  obtain ⟨l, r, e⟩ := @exists_top_eq_node (items.map Tree.leaf) (by simpa using h)
  rw [tree, e, Tree.content, List.length_append, Tree.digest_eq_hash_content,
    Tree.digest_eq_hash_content r, len, len]
  omega

/-! ### Leaves -/

/-- The leaves of a level stay in front when it is paired up. -/
lemma leaves_prefix_pairUp : ∀ level : List Tree,
    level.flatMap Tree.leaves <+: (pairUp level).flatMap Tree.leaves
  | a :: b :: rest => by
    simp only [pairUp, List.flatMap_cons, Tree.leaves, List.append_assoc]
    simpa using leaves_prefix_pairUp rest
  | [a] => by simp [pairUp, Tree.leaves]
  | [] => by simp [pairUp]

/-- Pairing up adds no new leaf. -/
lemma mem_leaves_of_pairUp {s : List UInt8} : ∀ {level : List Tree},
    s ∈ (pairUp level).flatMap Tree.leaves → s ∈ level.flatMap Tree.leaves
  | a :: b :: rest, h => by
    simp only [pairUp, List.flatMap_cons, Tree.leaves, List.append_assoc, List.mem_append] at h ⊢
    rcases h with h | h | h
    · exact Or.inl h
    · exact Or.inr (Or.inl h)
    · exact Or.inr (Or.inr (mem_leaves_of_pairUp h))
  | [a], h => by simpa [pairUp, Tree.leaves] using h
  | [], h => by simp [pairUp] at h

/-- The leaves of a level stand in front of the leaves of the tree above it. -/
lemma leaves_prefix_top {level : List Tree} (h : level ≠ []) :
    level.flatMap Tree.leaves <+: (top level).leaves := by
  fun_induction top level with
  | case1 => exact absurd rfl h
  | case2 a => simp [Tree.leaves]
  | case3 a b => simp [Tree.leaves]
  | case4 a b c rest ih => exact (leaves_prefix_pairUp _).trans (ih (by simp [pairUp]))

/-- Every leaf of the tree above a level comes from the level. -/
lemma mem_leaves_of_top {s : List UInt8} {level : List Tree} (h : level ≠ [])
    (hs : s ∈ (top level).leaves) : s ∈ level.flatMap Tree.leaves := by
  fun_induction top level with
  | case1 => exact absurd rfl h
  | case2 a => simpa [Tree.leaves] using hs
  | case3 a b => simpa [Tree.leaves] using hs
  | case4 a b c rest ih => exact mem_leaves_of_pairUp (ih (by simp [pairUp]) hs)

/-- A level of leaves has the strings it was made from. -/
lemma flatMap_leaves_map_leaf (items : List (List UInt8)) :
    (items.map Tree.leaf).flatMap Tree.leaves = items := by
  induction items with
  | nil => rfl
  | cons a rest ih => simpa [Tree.leaves] using ih

/-- The strings of a list stand in front of the leaves of its tree. -/
lemma prefix_leaves_tree {items : List (List UInt8)} (h : items ≠ []) :
    items <+: (tree items).leaves := by
  have front := @leaves_prefix_top (items.map Tree.leaf) (by simpa using h)
  rwa [flatMap_leaves_map_leaf] at front

/-- The leaves of the tree of a list are strings of the list. -/
lemma mem_of_mem_leaves_tree {s : List UInt8} {items : List (List UInt8)} (h : items ≠ [])
    (hs : s ∈ (tree items).leaves) : s ∈ items := by
  have back := @mem_leaves_of_top s (items.map Tree.leaf) (by simpa using h) hs
  rwa [flatMap_leaves_map_leaf] at back

/-- A list without repetitions that goes on from another one with the same tree is that list. -/
lemma eq_of_prefix_of_tree_eq {xs ys : List (List UInt8)} (hx : xs ≠ []) (hy : ys ≠ [])
    (nodup : ys.Nodup) (e : tree xs = tree ys) (front : xs <+: ys) : xs = ys := by
  obtain ⟨zs, rfl⟩ := front
  cases zs with
  | nil => simp
  | cons z zs =>
    -- what goes on is a leaf of the common tree, so it stands in front already
    have hz : z ∈ (tree (xs ++ z :: zs)).leaves :=
      (prefix_leaves_tree hy).subset (by simp)
    rw [← e] at hz
    have : z ∈ xs := mem_of_mem_leaves_tree hx hz
    exact absurd rfl ((List.nodup_append.1 nodup).2.2 z this z List.mem_cons_self)

/-- Lists without repetitions are equal when their trees are. -/
lemma tree_injective {xs ys : List (List UInt8)} (hx : xs ≠ []) (hy : ys ≠ [])
    (nodupX : xs.Nodup) (nodupY : ys.Nodup) (e : tree xs = tree ys) : xs = ys := by
  have px := prefix_leaves_tree hx
  have py := prefix_leaves_tree hy
  rw [← e] at py
  rcases List.prefix_or_prefix_of_prefix px py with h | h
  · exact eq_of_prefix_of_tree_eq hx hy nodupY e h
  · exact (eq_of_prefix_of_tree_eq hy hx nodupX e.symm h).symm

end ErdSql.Digest.HashTree
