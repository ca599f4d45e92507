import JsonValidation.Unicode.Unprintable
import JsonValidation.Unicode.DefaultIgnorable
import JsonValidation.Unicode.GraphemeExtend

/-!
# Visible characters

A character is visible if it can be told from its looks alone: it is printable, it is not ignorable,
and it is not drawn together with the character before it. The two halfwidth sound marks of Katakana
extend a grapheme but take a place of their own, so they are visible.

* `Unicode.isVisible`: whether a character is visible.
-/

namespace JsonValidation

namespace Unicode

/-- Whether a code point extends a grapheme but takes a place of its own. -/
def isHalfwidthMark (code : Nat) : Bool := code = 0xff9e || code = 0xff9f

/-- Whether a code point is drawn together with the one before it. -/
def isAttached (code : Nat) : Bool :=
  inRanges graphemeExtend code && !isHalfwidthMark code

/-- Whether a code point can be told from its looks alone. -/
def isVisibleCode (code : Nat) : Bool :=
  !(inRanges unprintable code || inRanges defaultIgnorable code || isAttached code)

/-- Whether a character can be told from its looks alone. -/
def isVisible (c : Char) : Bool := isVisibleCode c.toNat

end Unicode

end JsonValidation
