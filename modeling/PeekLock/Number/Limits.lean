/-! # The limits of fixed widths

The ends of what 32 and 64 bits hold, as plain numbers.
-/

namespace PeekLock

/-- The largest number of 64 bits without a sign. -/
def maxUnsigned64 : Nat := 18446744073709551615

/-- The largest number of 64 bits with a sign. -/
def maxSigned64 : Nat := 9223372036854775807

/-- The least number of 64 bits with a sign. -/
def minSigned64 : Int := -9223372036854775808

/-- The largest number of 32 bits with a sign. -/
def maxSigned32 : Nat := 2147483647

/-- The least number of 32 bits with a sign. -/
def minSigned32 : Int := -2147483648

end PeekLock
