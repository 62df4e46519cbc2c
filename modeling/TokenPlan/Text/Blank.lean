/-!
White space, and texts without it at their ends.
-/

set_option autoImplicit false
set_option relaxedAutoImplicit false

namespace TokenPlan.Text

/-- White space is the Unicode property of that name. -/
def isBlank (c : Char) : Bool :=
  let code := c.toNat
  (0x9 ≤ code && code ≤ 0xD) || code == 0x20 || code == 0x85 || code == 0xA0 || code == 0x1680 ||
    (0x2000 ≤ code && code ≤ 0x200A) || code == 0x2028 || code == 0x2029 || code == 0x202F ||
    code == 0x205F || code == 0x3000

def trimLeft (text : List Char) : List Char :=
  text.dropWhile isBlank

/-- The text from its first to its last visible character. -/
def trim (text : List Char) : List Char :=
  (trimLeft (trimLeft text).reverse).reverse

theorem trimLeft_cons_of_visible {c : Char} (text : List Char) (visible : isBlank c = false) :
    trimLeft (c :: text) = c :: text := by
  simp [trimLeft, visible]

end TokenPlan.Text
