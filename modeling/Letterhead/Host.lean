import Letterhead.Template.Value
import Letterhead.Text.CharName

/-!
What the machine of a run offers, apart from its files.

None of it is configured, and the same settings may do on one machine and not on another: how deep
a pattern may be nested, how wide a field may be filled. The names of characters are here too, since
the list of them grows.
-/

namespace Letterhead

structure Host where
  /-- The character that a name stands for. -/
  charNamed? : List Char → Option CodePoint
  /-- The groups of the pattern are nested too deep to be read. -/
  exhausts : String → Bool
  /-- What a value has under a name, beside its data. -/
  member? : Template.Value → String → Option Template.Value
  /-- The widest field of a template that there is memory for. -/
  room : Nat

namespace Host

/-- How deep parentheses are nested, `opened` of which are open here. -/
def nesting (opened deepest : Nat) : List Char → Nat
  | [] => deepest
  | '\\' :: _ :: rest => nesting opened deepest rest
  | '(' :: rest => nesting (opened + 1) (max deepest (opened + 1)) rest
  | ')' :: rest => nesting (opened - 1) deepest rest
  | _ :: rest => nesting opened deepest rest

def usual : Host :=
  { charNamed? := CodePoint.named?
    exhausts := fun pattern => 480 < nesting 0 0 pattern.toList
    member? := fun _ _ => none
    room := 0xFFFFFFFF }

end Host

end Letterhead
