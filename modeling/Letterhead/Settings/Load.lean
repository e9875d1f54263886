import Letterhead.Settings.Validate
import Letterhead.Tree.Locate
import Letterhead.Yaml.Document

/-!
Settings from a configuration file.

A file without a value gives the default settings. Whatever is wrong with a file is told together
with its path, but for text that is no UTF-8 and values that cannot be made.
-/

namespace Letterhead

/-- Why a configuration file gives no settings. -/
inductive LoadFault where
  | unreadable (e : IoError)
  | notUtf8
  | notYaml (f : Yaml.Fault)
  | notMapping
  | invalid (problems : List Settings.Problem)

structure LoadError where
  path : Path
  fault : LoadFault

namespace LoadError

/-- The message for a fault that is reported as one of the configuration. -/
def message? (e : LoadError) : Option String :=
  let path := e.path.toString
  match e.fault with
  | .unreadable io => some ("Could not read config file " ++ path ++ ": " ++ io.message path)
  | .notUtf8 => none
  | .notYaml .malformed => some ("Invalid YAML in " ++ path)
  | .notYaml _ => none
  | .notMapping => some ("Config file " ++ path ++ " must contain a mapping")
  | .invalid _ => some ("Invalid configuration in " ++ path)

end LoadError

namespace Settings

/-- The path of the configuration file if none is given. -/
def defaultPath : String := ".copyplop.yaml"

/-- The environment variable that names a configuration file. -/
def pathVariable : String := "COPYPLOP_CONFIG"

/-- The first path that is given and not empty: the one asked for, that of the environment, or the
default. -/
def configPath (asked environment : Option String) : Path :=
  let given (p : Option String) := p.filter (· ≠ "")
  .ofString (((given asked).or (given environment)).getD defaultPath)

/-- The settings in the bytes of a configuration file. -/
def ofBytes (thisYear : Int) (bs : Bytes) : Except LoadFault Settings := do
  let some t := Utf8.decode? bs | throw .notUtf8
  let d ← (Yaml.read t).mapError LoadFault.notYaml
  if d.isVoid then return .default thisYear
  match d with
  | .mapping _ => (ofDatum thisYear d).mapError LoadFault.invalid
  | _ => throw .notMapping

/-- The settings in the file that a path leads to. -/
def load (thisYear : Int) (t : Tree) (path : Path) : Except LoadError Settings :=
  let settings : Except LoadFault Settings := do
    ofBytes thisYear (← (t.read path.toString).mapError LoadFault.unreadable)
  settings.mapError (⟨path, ·⟩)

end Settings

end Letterhead
