import Letterhead.Number.Shortest
import Letterhead.Text.Quoted
import Letterhead.Text.Utf8

/-!
The data of a configuration document, before it is known to be a configuration.
-/

namespace Letterhead

inductive Datum where
  | null
  | bool (b : Bool)
  | int (i : Int)
  | float (x : Number.Binary64)
  | text (t : Text)
  | bytes (bs : Bytes)
  /-- A date or a time, by its text in messages. -/
  | moment (shown : String)
  | list (items : List Datum)
  | mapping (entries : List (Datum × Datum))

namespace Datum

def string (s : String) : Datum := text s

/-- Nothing, zero, or empty. -/
def isVoid : Datum → Bool
  | null => true
  | bool b => !b
  | int i => i == 0
  | float x => x.isZero
  | text t => t.isEmpty
  | bytes bs => bs.isEmpty
  | moment _ => false
  | list items => items.isEmpty
  | mapping entries => entries.isEmpty

/-- How a key is written in the place of a problem. -/
def keyText : Datum → String
  | null => "None"
  | bool b => if b then "1" else "0"
  | int i => String.ofList (Number.intText i)
  | float x => String.ofList x.text
  | text t => t.toStringLossy
  | bytes bs => (Quoted.bytes bs).toStringLossy
  | moment shown => shown
  | list _ => "[...]"
  | mapping _ => "\x7b...\x7d"

def isText (s : String) : Datum → Bool
  | text t => t == Text.ofString s
  | _ => false

/-- The value of a text key in entries. -/
def find? (key : String) (entries : List (Datum × Datum)) : Option Datum :=
  (entries.find? (·.1.isText key)).map (·.2)

end Datum

end Letterhead
