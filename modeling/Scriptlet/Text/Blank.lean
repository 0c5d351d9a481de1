/-! White space: the characters with the Unicode property of that name. -/
namespace Scriptlet.Text

def isBlank (c : Char) : Bool :=
  let n := c.toNat
  (0x9 ≤ n && n ≤ 0xd) || n == 0x20 || n == 0x85 || n == 0xa0 || n == 0x1680
    || (0x2000 ≤ n && n ≤ 0x200a) || n == 0x2028 || n == 0x2029 || n == 0x202f
    || n == 0x205f || n == 0x3000

/-- A text without the white space at its two ends. -/
def trim (text : String) : String :=
  let ahead := text.toList.dropWhile isBlank
  String.ofList ((ahead.reverse.dropWhile isBlank).reverse)

end Scriptlet.Text
