import Letterhead.Text.Basic

/-!
Names of characters.

The letters and digits of ASCII, its signs and controls, and the signs of Latin 1 and of common
punctuation.
-/

namespace Letterhead.CodePoint

/-- Characters in a row, by the first one and the names of all. -/
def namedRuns : List (Nat × List String) := [
  (0x0, [
    "NULL", "START OF HEADING", "START OF TEXT", "END OF TEXT", "END OF TRANSMISSION", "ENQUIRY",
    "ACKNOWLEDGE", "ALERT", "BACKSPACE", "CHARACTER TABULATION", "LINE FEED", "LINE TABULATION",
    "FORM FEED", "CARRIAGE RETURN", "SHIFT OUT", "SHIFT IN", "DATA LINK ESCAPE",
    "DEVICE CONTROL ONE", "DEVICE CONTROL TWO", "DEVICE CONTROL THREE", "DEVICE CONTROL FOUR",
    "NEGATIVE ACKNOWLEDGE", "SYNCHRONOUS IDLE", "END OF TRANSMISSION BLOCK", "CANCEL",
    "END OF MEDIUM", "SUBSTITUTE", "ESCAPE", "FILE SEPARATOR", "GROUP SEPARATOR",
    "RECORD SEPARATOR", "UNIT SEPARATOR"]),
  (0x20, [
    "SPACE", "EXCLAMATION MARK", "QUOTATION MARK", "NUMBER SIGN", "DOLLAR SIGN", "PERCENT SIGN",
    "AMPERSAND", "APOSTROPHE", "LEFT PARENTHESIS", "RIGHT PARENTHESIS", "ASTERISK", "PLUS SIGN",
    "COMMA", "HYPHEN-MINUS", "FULL STOP", "SOLIDUS", "DIGIT ZERO", "DIGIT ONE", "DIGIT TWO",
    "DIGIT THREE", "DIGIT FOUR", "DIGIT FIVE", "DIGIT SIX", "DIGIT SEVEN", "DIGIT EIGHT",
    "DIGIT NINE", "COLON", "SEMICOLON", "LESS-THAN SIGN", "EQUALS SIGN", "GREATER-THAN SIGN",
    "QUESTION MARK", "COMMERCIAL AT"]),
  (0x5B, [
    "LEFT SQUARE BRACKET", "REVERSE SOLIDUS", "RIGHT SQUARE BRACKET", "CIRCUMFLEX ACCENT",
    "LOW LINE", "GRAVE ACCENT"]),
  (0x7B, [
    "LEFT CURLY BRACKET", "VERTICAL LINE", "RIGHT CURLY BRACKET", "TILDE"]),
  (0xA0, [
    "NO-BREAK SPACE", "INVERTED EXCLAMATION MARK", "CENT SIGN", "POUND SIGN", "CURRENCY SIGN",
    "YEN SIGN", "BROKEN BAR", "SECTION SIGN", "DIAERESIS", "COPYRIGHT SIGN",
    "FEMININE ORDINAL INDICATOR", "LEFT-POINTING DOUBLE ANGLE QUOTATION MARK", "NOT SIGN",
    "SOFT HYPHEN", "REGISTERED SIGN", "MACRON", "DEGREE SIGN", "PLUS-MINUS SIGN",
    "SUPERSCRIPT TWO", "SUPERSCRIPT THREE", "ACUTE ACCENT", "MICRO SIGN", "PILCROW SIGN",
    "MIDDLE DOT", "CEDILLA", "SUPERSCRIPT ONE", "MASCULINE ORDINAL INDICATOR",
    "RIGHT-POINTING DOUBLE ANGLE QUOTATION MARK", "VULGAR FRACTION ONE QUARTER",
    "VULGAR FRACTION ONE HALF", "VULGAR FRACTION THREE QUARTERS", "INVERTED QUESTION MARK"]),
  (0x2010, [
    "HYPHEN", "NON-BREAKING HYPHEN", "FIGURE DASH", "EN DASH", "EM DASH", "HORIZONTAL BAR",
    "DOUBLE VERTICAL LINE", "DOUBLE LOW LINE", "LEFT SINGLE QUOTATION MARK",
    "RIGHT SINGLE QUOTATION MARK", "SINGLE LOW-9 QUOTATION MARK",
    "SINGLE HIGH-REVERSED-9 QUOTATION MARK", "LEFT DOUBLE QUOTATION MARK",
    "RIGHT DOUBLE QUOTATION MARK", "DOUBLE LOW-9 QUOTATION MARK",
    "DOUBLE HIGH-REVERSED-9 QUOTATION MARK", "DAGGER", "DOUBLE DAGGER", "BULLET",
    "TRIANGULAR BULLET", "ONE DOT LEADER", "TWO DOT LEADER", "HORIZONTAL ELLIPSIS",
    "HYPHENATION POINT"])]

/-- Other names of characters, and characters that stand alone. -/
def moreNames : List (String × Nat) := [
  ("HORIZONTAL TABULATION", 0x9), ("TAB", 0x9), ("HT", 0x9), ("NEW LINE", 0xA),
  ("END OF LINE", 0xA), ("LF", 0xA), ("VERTICAL TABULATION", 0xB), ("FF", 0xC), ("CR", 0xD),
  ("ESC", 0x1B), ("DELETE", 0x7F), ("NEXT LINE", 0x85), ("NBSP", 0xA0),
  ("MULTIPLICATION SIGN", 0xD7), ("DIVISION SIGN", 0xF7), ("ZERO WIDTH SPACE", 0x200B),
  ("BYTE ORDER MARK", 0xFEFF), ("TRADE MARK SIGN", 0x2122)]

/-- The character that a name in capitals stands for. -/
def withName? (name : String) : Option CodePoint :=
  match "LATIN CAPITAL LETTER ".toList.isPrefixOf? name.toList,
    "LATIN SMALL LETTER ".toList.isPrefixOf? name.toList with
  | some [c], _ => if 'A' ≤ c ∧ c ≤ 'Z' then some c else none
  | _, some [c] => if 'A' ≤ c ∧ c ≤ 'Z' then some c.toLower else none
  | _, _ =>
    match namedRuns.findSome? fun (first, names) => (names.idxOf? name).map (first + ·) with
    | some n => some ⟨n⟩
    | none => (moreNames.lookup name).map CodePoint.mk

/-- The character that a name stands for, in whatever case it is written. -/
def named? (name : List Char) : Option CodePoint :=
  withName? (String.ofList (name.map Char.toUpper))

example : named? "Carriage Return".toList = some '\r' := by decide +kernel

end Letterhead.CodePoint
