/-
This file holds which characters are blank: those that Unicode gives the property White_Space.
Nothing else is, so a byte order mark or a joiner without width is not blank.
-/

namespace SecretRenewal.Text

/-- Whether a character is blank. -/
def isBlank (char : Char) : Bool :=
  let code := char.toNat
  (decide (0x9 ≤ code) && decide (code ≤ 0xd)) || code == 0x20 || code == 0x85 || code == 0xa0 ||
    code == 0x1680 || (decide (0x2000 ≤ code) && decide (code ≤ 0x200a)) || code == 0x2028 ||
    code == 0x2029 || code == 0x202f || code == 0x205f || code == 0x3000

/-- A text without the blanks around it. -/
def trimmed (text : String) : String :=
  String.ofList ((text.toList.dropWhile isBlank).reverse.dropWhile isBlank).reverse

end SecretRenewal.Text
