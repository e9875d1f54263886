import Letterhead.Text.Printable

/-!
Quoted text, as messages show it.

The quote is a single one unless the text has single quotes and no double ones. The quote, the
backslash and what cannot be printed are escaped.
-/

namespace Letterhead.Quoted

def hexDigit (n : Nat) : Char :=
  if n < 10 then Char.ofNat (48 + n) else Char.ofNat (87 + n)

/-- The last `width` hexadecimal digits of a number. -/
def hex (n : Nat) : (width : Nat) → List Char
  | 0 => []
  | width + 1 => hex (n / 16) width ++ [hexDigit (n % 16)]

/-- The shortest of the three numeric escapes that holds the code point. -/
def numeric (c : CodePoint) : Text :=
  Text.ofChars <|
    if c.val < 0x100 then '\\' :: 'x' :: hex c.val 2
    else if c.val < 0x10000 then '\\' :: 'u' :: hex c.val 4
    else '\\' :: 'U' :: hex c.val 8

def escape (keep : CodePoint → Bool) (quote c : CodePoint) : Text :=
  if c = quote || c.is '\\' then [CodePoint.ofChar '\\', c]
  else if c.is '\n' then Text.ofChars ['\\', 'n']
  else if c.is '\r' then Text.ofChars ['\\', 'r']
  else if c.is '\t' then Text.ofChars ['\\', 't']
  else if keep c then [c]
  else numeric c

def quoteFor (t : Text) : CodePoint :=
  if t.contains (CodePoint.ofChar '\'') && !t.contains (CodePoint.ofChar '"') then '"' else '\''

def write (keep : CodePoint → Bool) (t : Text) : Text :=
  let quote := quoteFor t
  quote :: t.flatMap (escape keep quote) ++ [quote]

/-- Printable characters stay as they are. -/
def printable (t : Text) : Text := write CodePoint.isPrintable t

/-- Only printable ASCII stays as it is. -/
def ascii (t : Text) : Text := write (·.within 32 126) t

/-- Bytes, quoted after a `b`. -/
def bytes (bs : List UInt8) : Text :=
  CodePoint.ofChar 'b' :: ascii (bs.map fun b => ⟨b.toNat⟩)

/-- The printable form as a string. -/
def string (s : String) : String := (printable (Text.ofString s)).toStringLossy

end Letterhead.Quoted
