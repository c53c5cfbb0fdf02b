/-!
# Blanks

`isBlank` holds of the characters of the `White_Space` class, and `trim` removes them at both ends
of a text. The zero width space and the byte order mark are not blanks.
-/

namespace OntoSchema.Text

def isBlank (c : Char) : Bool :=
  let n := c.toNat
  (9 ≤ n && n ≤ 13) || n == 32 || n == 0x85 || n == 0xA0 || n == 0x1680 ||
    (0x2000 ≤ n && n ≤ 0x200A) || n == 0x2028 || n == 0x2029 || n == 0x202F || n == 0x205F ||
    n == 0x3000

/-- Removes the characters of a class at both ends of a list. -/
def trimList (drop : Char → Bool) (chars : List Char) : List Char :=
  ((chars.dropWhile drop).reverse.dropWhile drop).reverse

def trimWhere (drop : Char → Bool) (text : String) : String :=
  String.ofList (trimList drop text.toList)

def trim (text : String) : String := trimWhere isBlank text

end OntoSchema.Text
