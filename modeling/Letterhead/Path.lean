import Letterhead.Text.Basic

/-!
Paths, as far as their text goes.

A path is how many slashes it starts with, and names. Empty names and single points do not count;
two points do, because the folder above a link is not the one that the text shows.
-/

namespace Letterhead

structure Path where
  slashes : Nat
  names : List String
deriving DecidableEq

namespace Path

/-- The parts of a text between slashes, without the empty ones. -/
def parts (s : String) : List String :=
  ((Text.cutAt '/' s).map Text.toStringLossy).filter (· != "")

/-- Two slashes at the start are kept, and more are one. -/
def ofString (s : String) : Path :=
  let slashes := (s.toList.takeWhile (· == '/')).length
  ⟨if slashes ≤ 2 then slashes else 1, (parts s).filter (· != ".")⟩

def toString (p : Path) : String :=
  if p.slashes = 0 && p.names.isEmpty then "."
  else String.ofList (List.replicate p.slashes '/') ++ "/".intercalate p.names

/-- The path of a name within a folder. -/
def child (folder name : String) : String := folder ++ "/" ++ name

/-- The path that names make behind another one, which may end in a slash already. -/
def below (path : String) (names : List String) : String :=
  if endsIn path "/" then path ++ "/".intercalate names else "/".intercalate (path :: names)

/-- Names with each pair of points taken against the name before it. -/
def collapse (names : List String) : List String :=
  (names.foldl
    (fun above name => if name = ".." then above.tail else name :: above) []).reverse

end Path

end Letterhead
