import Reroute.Disk.Basic
import Reroute.Profile.Toml
import Reroute.Profile.Yaml
import Reroute.Text.Lowercase
import Reroute.Text.Quoted

/-!
# Profiles from files

A profile is read from a YAML or a TOML file; the extension of its name says which. What the file
does not say is as in the standard profile, and a file without routes has the standard routes. The
profile has to be accepted.

## Main definitions

* `LoadError` — why a file gives no profile
* `Profile.load` — the profile of a file
-/

namespace Reroute

/-- Why a file gives no profile. -/
inductive LoadError where
  | unknownFormat (extension : Text)
  | unreadableYaml (cause : DiskError)
  | unreadableToml (path : Text) (cause : DiskError)
  /-- What does not fit, nothing in particular if the file is no YAML. -/
  | yaml (path : Text) (misfits : List Yaml.Misfit)
  | toml (path : Text)
  | unknownKeys (path : Text) (keys : List Toml.Key)
  | invalid (path : Text) (cause : ProfileError)

/-- The message of a load error. -/
def LoadError.message : LoadError → Text
  | unknownFormat extension =>
    "unsupported profile format " ++ extension.quote ++ ", expected .yaml, .yml or .toml"
  | unreadableYaml cause => "read profile failed: " ++ cause.message
  | unreadableToml path cause => path ++ ": failed to parse TOML: " ++ cause.message
  | yaml path [] => path ++ ": failed to parse YAML"
  | yaml path misfits =>
    path ++ ": failed to parse YAML: yaml: unmarshal errors:" ++
      misfits.flatMap fun m => Text.ofString "\n  " ++ m.message
  | toml path => path ++ ": failed to parse TOML"
  | unknownKeys path keys =>
    path ++ ": unknown profile keys: [" ++ Text.join " " (keys.map Toml.Key.render) ++ "]"
  | invalid path cause => path ++ ": " ++ cause.message

namespace Profile

/-- The profile that a file starts from: the standard one without routes. -/
def foundation : Profile := { standard with routes := [] }

/-- The profile with the standard routes if it has none, as long as it is accepted. -/
def complete (path : Text) (p : Profile) : Except LoadError Profile :=
  let p := if p.routes.isEmpty then { p with routes := standardRoutes } else p
  match p.validate with
  | .error e => .error (.invalid path e)
  | .ok () => .ok p

/-- The profile of a YAML file with the given text. -/
def ofYamlFile (path text : Text) : Except LoadError Profile :=
  match ofYaml foundation text with
  | .error misfits => .error (.yaml path misfits)
  | .ok p => complete path p

/-- The profile of a TOML file with the given text. -/
def ofTomlFile (path text : Text) : Except LoadError Profile :=
  match ofToml foundation text with
  | .error .malformed => .error (.toml path)
  | .error (.unknownKeys keys) => .error (.unknownKeys path keys)
  | .ok p => complete path p

/-- The profile of a file. -/
def load (path : Text) : DiskJob (Except LoadError Profile) := do
  let extension := (Path.extension path).toLower
  if extension = Text.ofString ".yaml" || extension = Text.ofString ".yml" then
    match ← (DiskOp.read path).perform with
    | .error e => return .error (.unreadableYaml e)
    | .ok text => return ofYamlFile path text
  else if extension = Text.ofString ".toml" then
    match ← (DiskOp.read path).perform with
    | .error e => return .error (.unreadableToml path e)
    | .ok text => return ofTomlFile path text
  else return .error (.unknownFormat extension)

end Profile

end Reroute
