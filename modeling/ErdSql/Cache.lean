import ErdSql.Diagnostic

/-!
# Stores of results

What is kept of a compilation, and a store of such entries by key. An entry is never out of date: its
key is made from everything that decides the result.
-/

namespace ErdSql.Cache

/-- What is kept of one compilation. -/
structure Entry where
  sql : String
  diagnostics : List Diagnostic
  generated : Bool
  valid : Bool
  deriving DecidableEq, Inhabited

/-- Entries by key; no key stands twice. -/
structure Store where
  entries : List (String × Entry)
  deriving DecidableEq, Inhabited

namespace Store

/-- The store without entries. -/
def empty : Store := ⟨[]⟩

/-- The entry of a key. -/
def get? (s : Store) (key : String) : Option Entry :=
  s.entries.lookup key

/-- The store without a key. -/
def erase (s : Store) (key : String) : Store :=
  ⟨s.entries.filter fun e => e.1 != key⟩

/-- The store with an entry under a key, in place of the one before. -/
def put (s : Store) (key : String) (entry : Entry) : Store :=
  ⟨(key, entry) :: (s.erase key).entries⟩

/-- The number of entries. -/
def size (s : Store) : Nat := s.entries.length

/-- A key gives the entry put under it last. -/
@[simp]
theorem get?_put_self (s : Store) (key : String) (entry : Entry) :
    (s.put key entry).get? key = some entry := by
  simp [put, get?]

/-- Nothing is found in the store without entries. -/
@[simp]
theorem get?_empty (key : String) : empty.get? key = none := rfl

end Store

end ErdSql.Cache
