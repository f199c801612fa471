/-! The bounds of whole numbers of 16, 32 and 64 bits. -/
namespace Playfield.Bounds

/-- How many values 16 bits have. -/
def word16 : Nat := 65536

def word32 : Nat := 4294967296

def word64 : Nat := 18446744073709551616

/-- The least signed number of 64 bits. -/
def leastInt64 : Int := -9223372036854775808

def greatestInt64 : Int := 9223372036854775807

def isInt64 (n : Int) : Bool := leastInt64 ≤ n && n ≤ greatestInt64

end Playfield.Bounds
