import Letterhead.Settings.Basic
import Letterhead.Text.Blank
import Letterhead.Text.Case
import Letterhead.Text.Utf8
import Letterhead.Text.Word

/-!
The type of a file whose extension does not tell it.

With indicators configured, each speaks for its extension by the parts found in the content and
in the name, and the only best one wins. Without them the marks of a few languages decide.
-/

namespace Letterhead.ContentType

/-- How many bytes are looked at for a zero. -/
def sniffed : Nat := 512

def isBinary (bs : Bytes) : Bool := (bs.take sniffed).contains 0

/-- How many of the parts occur; an empty part does not count. -/
def hits (parts : List String) (t : Text) : Nat :=
  parts.countP fun p => p != "" && Text.hasPart p t

def score (i : Settings.Indicator) (content name : Text) : Nat :=
  hits i.content content + hits i.filename name

/-- The extension with the best score, if it is the only one and not zero. -/
def winner? (indicators : List (String × Settings.Indicator)) (content name : Text) :
    Option String :=
  let scores := indicators.map fun (ext, i) => (ext, score i content name)
  let best := (scores.map (·.2)).foldl max 0
  match scores.filter (·.2 = best) with
  | [(ext, _)] => if best = 0 then none else some ext
  | _ => none

/-! Marks of languages. Most stand at the start of a line. -/

/-- Some line starts with what the test asks for; the test sees all text from there on. -/
def anyLineStart (test : Text → Bool) (t : Text) : Bool := test t || anyLaterLineStart t
where
  anyLaterLineStart : Text → Bool
    | [] => false
    | c :: t => (c.is '\n' && test t) || anyLaterLineStart t

/-- The text behind one blank or more. -/
def afterBlanks? : Text → Option Text
  | c :: t => if c.isBlank then some (Text.trimLeft t) else none
  | [] => none

/-- The text behind one word character or more. -/
def afterWord? : Text → Option Text
  | c :: t => if c.isWord then some (t.dropWhile CodePoint.isWord) else none
  | [] => none

/-- The text behind a word that is a keyword of a language and the blanks after it. -/
def afterKeyword? (word : String) (t : Text) : Option Text :=
  (Text.dropHead? word t).bind afterBlanks?

/-- The rest of a line is blank. -/
def blankLineEnd (t : Text) : Bool :=
  let blanks := t.takeWhile CodePoint.isBlank
  blanks.length = t.length || blanks.any (·.is '\n')

def isPackageClause (t : Text) : Bool :=
  ((afterKeyword? "package" t).bind afterWord?).any blankLineEnd

def isFunction (t : Text) : Bool :=
  (afterKeyword? "func" t).any fun r => r.head?.any fun c => c.isWord || c.is '('

def isImport (t : Text) : Bool :=
  (afterKeyword? "import" t).any fun r => r.head?.any fun c => c.is '(' || c.is '"'

def isStruct (t : Text) : Bool :=
  (((afterKeyword? "type" t).bind afterWord?).bind afterBlanks?).any fun r =>
    (Text.dropHead? "struct" r).any fun r => !r.head?.any CodePoint.isWord

def looksLikeGo (t : Text) : Bool :=
  anyLineStart isPackageClause t || anyLineStart isFunction t || anyLineStart isImport t ||
    anyLineStart isStruct t

def terraformMarks : List String :=
  ["resource \"", "data \"", "variable \"", "output \"", "provider \"", "terraform \x7b"]

def looksLikeTerraform (t name : Text) : Bool :=
  terraformMarks.any (Text.hasPart · t) || Text.hasPart "terraform" name ||
    Text.hasPart ".tf." name

def afterHashes (t : Text) : Text := t.dropWhile (·.is '#')

def isHeading (t : Text) : Bool :=
  (Text.dropHead? "#" t).any fun r => r.head?.any CodePoint.isBlank

def isSubheading (t : Text) : Bool :=
  (Text.dropHead? "##" t).any fun r => (afterHashes r).head?.any CodePoint.isBlank

/-- The text behind a stretch of one character or more in one line, up to a mark and with it. -/
def afterStretch? (mark : Char) (t : Text) : Option Text :=
  let inside := fun c : CodePoint => !c.is mark && !c.is '\n'
  let n := (t.takeWhile inside).length
  match t.drop n with
  | c :: rest => if n ≠ 0 && c.is mark then some rest else none
  | [] => none

/-- A link with a text in brackets and a target in parentheses opens here. -/
def isLink (t : Text) : Bool :=
  match t with
  | c :: rest =>
    c.is '[' &&
      (((afterStretch? ']' rest).bind (Text.dropHead? "(")).bind (afterStretch? ')')).isSome
  | [] => false

def hasLink : Text → Bool
  | [] => false
  | c :: t => isLink (c :: t) || hasLink t

def isFrontMatterKey (t : Text) : Bool :=
  ["title:", "description:", "layout:", "page_title:", "subcategory:"].any
    fun key => t.startsWith (Text.ofString key)

def looksLikeMarkdown (t : Text) : Bool :=
  anyLineStart isSubheading t || Text.hasPart "\x60\x60\x60" t || hasLink t ||
    (anyLineStart isHeading t && anyLineStart isFrontMatterKey t)

def looksLikeYaml (t : Text) : Bool := Text.hasPart "---" t || Text.hasPart ":\n" t

/-- A name in small letters, as far as these come from ASCII or become ASCII. -/
def lowerName (name : Text) : Text := name.map fun c => if c.val = 0x212A then 'k' else c.lowerAscii

/-- The type that the marks in a text and a name speak for. -/
def guess (t name : Text) : String :=
  let name := lowerName name
  if looksLikeGo t then ".go"
  -- a comment of Terraform would look like a heading
  else if looksLikeTerraform t name then ".tf"
  else if looksLikeMarkdown t then ".md"
  else if looksLikeYaml t then ".yaml"
  else if Text.hasPart "markdown" name || Text.hasPart "md" name then ".md"
  else ".go"

/-- The last part of a path. -/
def baseName (path : String) : Text :=
  Text.ofChars (path.toList.reverse.takeWhile (· != '/')).reverse

def ofText (f : Settings.Files) (t : Text) (path : String) : String :=
  let name := baseName path
  if f.smartIndicators.isEmpty then guess t name
  else (winner? f.smartIndicators t name).getD f.smartDefault

/-- The extension that fits the content; nothing for binary content. -/
def classify (f : Settings.Files) (bs : Bytes) (path : String) : Option String :=
  if isBinary bs then none else some (ofText f (Utf8.decodeLossy bs) path)

/-- As for bytes, of a text that is decoded already. -/
def classifyText (f : Settings.Files) (t : Text) (path : String) : Option String :=
  if (Utf8.encode t).any isBinary then none else some (ofText f t path)

end Letterhead.ContentType
