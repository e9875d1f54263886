import Letterhead.Template.Value

/-!
What can be wrong with a template.

Most faults are reported together with the template. Some are not: a value that does not support
what is asked of it, a number too large for the form asked for, a field wider than there is memory
for, and years that are too long to be written.
-/

namespace Letterhead.Template

/-- A template, field name or format that is no such thing. -/
inductive Malformed where
  | singleClose
  | singleOpen
  | braceInName
  | unclosedField
  | unclosedSpec
  | noConversion
  | noColon
  | unknownConversion (c : Char)
  | positional
  | tooManyDigits
  | emptyName
  | unclosedBracket
  | junkBehindBracket
  | tooDeep
  | invalidSpec (spec : Text) (kind : Kind)
  | noPrecision
  | twoSeparators
  | separatorWith (separator : Char) (code : CodePoint)
  | unknownCode (code : CodePoint) (kind : Kind)
  | signOnText
  | spaceOnText
  | zeroOnText
  | alternateOnText
  | alignOnText
  | precisionOnInt
  | zeroOnInt
  | signOnChar
  | alternateOnChar
  | precisionTooBig

inductive Fault where
  | malformed (m : Malformed)
  | missingName (name : String)
  | missingIndex (index : Nat)
  | outOfRange (kind : Kind)
  | noAttribute (owner name : String)
  | unsupported
  | overflow
  | noMemory
  | longYear

/-- A character as it is if it can be shown, else by its number. -/
def codeText (c : CodePoint) : Text :=
  if c.within 33 127 then [c]
  else Text.ofChars ('\\' :: 'x' :: Nat.toDigits 16 c.val)

namespace Malformed

def text : Malformed → Text
  | singleClose => "Single '\x7d' encountered in format string"
  | singleOpen => "Single '\x7b' encountered in format string"
  | braceInName => "unexpected '\x7b' in field name"
  | unclosedField => "expected '\x7d' before end of string"
  | unclosedSpec => "unmatched '\x7b' in format spec"
  | noConversion => "end of string while looking for conversion specifier"
  | noColon => "expected ':' after conversion specifier"
  | unknownConversion c =>
    Text.ofString "Unknown conversion specifier " ++
      if 33 ≤ c.toNat ∧ c.toNat < 127 then [CodePoint.ofChar c]
      else Text.ofChars ('\\' :: 'x' :: Nat.toDigits 16 c.toNat)
  | positional => "Format string contains positional fields"
  | tooManyDigits => "Too many decimal digits in format string"
  | emptyName => "Empty attribute in format string"
  | unclosedBracket => "Missing ']' in format string"
  | junkBehindBracket => "Only '.' or '[' may follow ']' in format field specifier"
  | tooDeep => "Max string recursion exceeded"
  | invalidSpec spec kind =>
    Text.ofString "Invalid format specifier '" ++ spec ++
      Text.ofString ("' for object of type '" ++ kind.name ++ "'")
  | noPrecision => "Format specifier missing precision"
  | twoSeparators => "Cannot specify both ',' and '_'."
  | separatorWith separator code =>
    Text.ofString "Cannot specify '" ++ [CodePoint.ofChar separator] ++
      Text.ofString "' with '" ++ codeText code ++ Text.ofString "'."
  | unknownCode code kind =>
    Text.ofString "Unknown format code '" ++ codeText code ++
      Text.ofString ("' for object of type '" ++ kind.name ++ "'")
  | signOnText => "Sign not allowed in string format specifier"
  | spaceOnText => "Space not allowed in string format specifier"
  | zeroOnText => "Negative zero coercion (z) not allowed in string format specifier"
  | alternateOnText => "Alternate form (#) not allowed in string format specifier"
  | alignOnText => "'=' alignment not allowed in string format specifier"
  | precisionOnInt => "Precision not allowed in integer format specifier"
  | zeroOnInt => "Negative zero coercion (z) not allowed in integer format specifier"
  | signOnChar => "Sign not allowed with integer format specifier 'c'"
  | alternateOnChar => "Alternate form (#) not allowed with integer format specifier 'c'"
  | precisionTooBig => "precision too big"

end Malformed

namespace Fault

/-- A cause with its detail in brackets. -/
def cause (name : String) (detail : Text) : Text :=
  Text.ofString name ++ [CodePoint.ofChar '('] ++ detail ++ [CodePoint.ofChar ')']

def indexText : Kind → Text
  | .list => "list index out of range"
  | _ => "string index out of range"

def attributeText (owner name : String) : Text :=
  Text.ofString (owner ++ " has no attribute '" ++ name ++ "'")

/-- How the fault is reported, for those that are. -/
def report? : Fault → Option Text
  | malformed m => some (cause "ValueError" (Quoted.printable m.text))
  | missingName name => some (cause "KeyError" (Quoted.printable (Text.ofString name)))
  | missingIndex index => some (cause "KeyError" (Text.ofChars (Number.digits index)))
  | outOfRange kind => some (cause "IndexError" (Quoted.printable (indexText kind)))
  | noAttribute owner name =>
    some (cause "AttributeError" (Quoted.printable (attributeText owner name)))
  | unsupported => none
  | overflow => none
  | noMemory => none
  | longYear => none

end Fault

end Letterhead.Template
