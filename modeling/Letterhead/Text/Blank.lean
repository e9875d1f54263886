import Letterhead.Text.Basic

/-!
Blanks: the white space of Unicode, and the four ASCII separators U+001C to U+001F.
-/

namespace Letterhead

namespace CodePoint

def isBlank (c : CodePoint) : Bool :=
  c.within 0x09 0x0D || c.within 0x1C 0x20 || c.val == 0x85 || c.val == 0xA0 ||
  c.val == 0x1680 || c.within 0x2000 0x200A || c.val == 0x2028 || c.val == 0x2029 ||
  c.val == 0x202F || c.val == 0x205F || c.val == 0x3000

/-- White space around a number; the ASCII separators are none. -/
def isPadding (c : CodePoint) : Bool := c.isBlank && !c.within 0x1C 0x1F

end CodePoint

namespace Text

/-- The text has no character but blanks. -/
def isBlank (t : Text) : Bool := t.all CodePoint.isBlank

def trimLeft (t : Text) : Text := t.dropWhile CodePoint.isBlank

def trimRight (t : Text) : Text := (t.reverse.dropWhile CodePoint.isBlank).reverse

/-- The text without the blanks at its two ends. -/
def trim (t : Text) : Text := trimRight (trimLeft t)

def trimPadding (t : Text) : Text :=
  ((t.dropWhile CodePoint.isPadding).reverse.dropWhile CodePoint.isPadding).reverse

end Text

end Letterhead
