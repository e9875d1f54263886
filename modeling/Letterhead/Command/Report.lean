import Letterhead.Run.Fix

/-!
What a run prints.
-/

namespace Letterhead.Command

def lines (ls : List String) : String := "".intercalate (ls.map (· ++ "\n"))

def count (n : Nat) : String := Nat.repr n

/-! JSON. -/

def hexDigit (n : Nat) : Char := if n < 10 then Char.ofNat (48 + n) else Char.ofNat (87 + n)

def escapeChar (c : Char) : List Char :=
  match [('"', '"'), ('\\', '\\'), ('\x08', 'b'), ('\t', 't'), ('\n', 'n'), ('\x0c', 'f'),
      ('\r', 'r')].lookup c with
  | some letter => ['\\', letter]
  | none =>
    if c.toNat < 32 then ['\\', 'u', '0', '0', hexDigit (c.toNat / 16), hexDigit (c.toNat % 16)]
    else [c]

def quote (s : String) : String := String.ofList ('"' :: s.toList.flatMap escapeChar ++ ['"'])

def field (indent key value : String) : String := indent ++ quote key ++ ": " ++ value

/-- One issue, without a line end. -/
def issueJson (i : Issue) : String :=
  "    \x7b\n" ++
    ",\n".intercalate [field "      " "file" (quote i.file),
      field "      " "kind" (quote i.kind.key),
      field "      " "problem" (quote i.problem)] ++
    "\n    \x7d"

def issuesJson (is : List Issue) : String :=
  let list := if is.isEmpty then "[]" else "[\n" ++ ",\n".intercalate (is.map issueJson) ++ "\n  ]"
  "\x7b\n" ++ ",\n".intercalate [field "  " "issues" list, field "  " "count" (count is.length)] ++
    "\n\x7d"

/-! Text. -/

def issuesText (is : List Issue) : List String :=
  if is.isEmpty then ["✓ All files have correct copyright headers"]
  else is.map Issue.line ++ ["\nFound " ++ count is.length ++ " files with copyright issues"]

def fixText (r : FixReport) : List String :=
  (if r.changed = 0 then ["✓ No files needed fixing"] else []) ++
  (if r.fixed ≠ 0 then ["✓ Fixed " ++ count r.fixed ++ " files"] else []) ++
  (if r.added ≠ 0 then ["✓ Added headers to " ++ count r.added ++ " files"] else []) ++
  r.errors.map fun i => "✗ " ++ i.line

end Letterhead.Command
