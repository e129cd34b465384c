/-! # White space

The characters with the Unicode property `White_Space`.
-/

namespace PeekLock

def isWhiteSpace (c : Char) : Bool :=
  let n := c.toNat
  (0x09 ≤ n && n ≤ 0x0D) || n = 0x20 || n = 0x85 || n = 0xA0 || n = 0x1680 ||
    (0x2000 ≤ n && n ≤ 0x200A) || n = 0x2028 || n = 0x2029 || n = 0x202F || n = 0x205F ||
    n = 0x3000

/-- The characters from the first one on that is no white space. -/
def trimStart : List Char → List Char
  | [] => []
  | c :: rest => if isWhiteSpace c then trimStart rest else c :: rest

end PeekLock
