/-!
# Words

Whole numbers are kept in signed words of 64 bits. A sum or product that does not fit goes on at the other
end.
-/

namespace ErdSql.Word

/-- The word that a whole number is kept in: the number itself if it fits, or else the one that differs
from it by a multiple of the number of words. -/
def ofInt (n : Int) : Int := Int.bmod n (Nat.pow 2 64)

/-- A number from -2^63 up to 2^63 - 1 is kept as it is. -/
theorem ofInt_of_fits {n : Int} (least : -9223372036854775808 ≤ n) (below : n < 9223372036854775808) :
    ofInt n = n := by
  apply Int.bmod_eq_of_le_mul_two
  · simp only [Nat.pow_eq]
    omega
  · simp only [Nat.pow_eq]
    omega

theorem ofInt_natCast {n : Nat} (small : n < 9223372036854775808) : ofInt n = n :=
  ofInt_of_fits (by omega) (by omega)

end ErdSql.Word
