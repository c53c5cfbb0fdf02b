import OntoSchema.Text.CaseTable

/-!
# Lower case

`lowercase` lowers every character of a text. A capital sigma becomes `ς` at the end of a word,
where a cased letter stands before it and none behind it, marks aside, and `σ` elsewhere. A capital
I with a dot is the one character whose lower case has two characters.
-/

namespace OntoSchema.Text

/-- The lower case of a character wherever it stands. -/
def lowerChar (c : Char) : List Char :=
  if c.toNat < 0x80 then [c.toLower]
  else if c = 'İ' then ['i', '\u0307']
  else
    let n := c.toNat
    match lowerRows.find? fun row =>
        row.first ≤ n && n ≤ row.last && (n - row.first) % row.step == 0 with
    | some row => [Char.ofNat (Int.ofNat n + row.shift).toNat]
    | none => [c]

/-- Whether a cased letter comes first in a text, marks and signs aside. -/
def startsCased (chars : List Char) : Bool :=
  match chars.dropWhile isCaseIgnorable with
  | [] => false
  | c :: _ => isCased c

/-- Lowers a text, given the characters before it in reverse. -/
def lowerAfter (before : List Char) : List Char → List Char
  | [] => []
  | c :: rest =>
    let lowered :=
      if c = 'Σ' then
        (if startsCased before && !startsCased rest then ['ς'] else ['σ'])
      else lowerChar c
    lowered ++ lowerAfter (c :: before) rest

def lowercase (text : String) : String := String.ofList (lowerAfter [] text.toList)

end OntoSchema.Text
