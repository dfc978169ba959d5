/-!
# Blank characters

White space is the property of that name in the Unicode standard. Names of operators, kinds and
steps are compared after removing it at both ends and raising ASCII letters.
-/

namespace Verdict.Text

def isBlank (c : Char) : Bool :=
  let n := c.toNat
  (9 ≤ n && n ≤ 13) || n == 0x20 || n == 0x85 || n == 0xA0 || n == 0x1680
    || (0x2000 ≤ n && n ≤ 0x200A) || n == 0x2028 || n == 0x2029 || n == 0x202F
    || n == 0x205F || n == 0x3000

def trimChars (cs : List Char) : List Char :=
  ((cs.dropWhile isBlank).reverse.dropWhile isBlank).reverse

def trim (s : String) : String :=
  String.ofList (trimChars s.toList)

def raiseAscii (s : String) : String :=
  String.ofList (s.toList.map Char.toUpper)

end Verdict.Text
