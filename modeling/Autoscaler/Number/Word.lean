/-!
# Words of 64 bits

The limits of numbers that are kept in 64 bits, without a sign and with one.
-/

namespace Autoscaler

/-- One more than the largest number of 64 bits. -/
def wordLimit : Nat := 18446744073709551616

/-- One more than the largest number of 64 bits with a sign. -/
def signedLimit : Nat := 9223372036854775808

/-- Whether an integer fits 64 bits with a sign. -/
def fitsSigned (n : Int) : Bool := -(signedLimit : Int) ≤ n && n < signedLimit

end Autoscaler
