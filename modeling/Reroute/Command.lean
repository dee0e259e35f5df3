import Reroute.Flag.Usage
import Reroute.Session

/-!
# Commands

The two programs: one patches files, the other restores them. Both turn their arguments into a
configuration and run a session on it. Arguments that are no flags are files, after those of the
`files` flag.

## Main definitions

* `Environment` — what the surroundings say about the user
* `CommandError` — why arguments give no configuration
* `Config.ofArguments` — the configuration that arguments give
* `Program`, `Ending` — the programs, and how a run of one ends
* `Program.exec` — a run of a program, which may break off
-/

namespace Reroute

/-- What the surroundings say about the user. -/
structure Environment where
  /-- The folder of the user, empty if there is none. -/
  home : Text
  /-- The folder for what may be lost, empty if none is set. -/
  cache : Text
deriving DecidableEq, Repr

/-- The folder for what may be lost: the one that is set, which has to be absolute, or else one in
the folder of the user. -/
def Environment.cacheFolder? (env : Environment) : Option Text :=
  if env.cache ≠ [] then if Path.isAbsolute env.cache then some env.cache else none
  else if env.home ≠ [] then some (env.home ++ "/.cache")
  else none

/-- Why arguments give no configuration. -/
inductive CommandError where
  /-- The flags cannot be defined together. -/
  | undefinable
  | flag (cause : FlagError)
  | exclusive
  | noCacheFolder
deriving DecidableEq, Repr

/-- The message of a command error. -/
def CommandError.message : CommandError → Text
  | undefinable => "flags cannot be defined together"
  | flag cause => cause.message
  | exclusive => "-dryrun and -check are mutually exclusive"
  | noCacheFolder => "no user cache directory available, set -state or use -state none"

namespace Config

/-- The flags that all programs have. -/
def standardFlags : List Flag := [
  ⟨"files", .text [], "Comma separated source files to patch"⟩,
  ⟨"profile", .text [],
    "YAML or TOML profile with markers, helper and unit table (default: tool server profile)"⟩,
  ⟨"state", .text [],
    "Snapshot directory used for undo (default: user cache dir, 'none' to disable)"⟩,
  ⟨"dryrun", .switch false, "Print the diff without writing files"⟩,
  ⟨"check", .switch false, "Exit with an error if any file would change"⟩,
  ⟨"diff", .switch false, "Print a unified diff of every written change"⟩,
  ⟨"nocolor", .switch false, "Disable colored diff output"⟩,
  ⟨"cachemb", .int 32, "Snapshot store memory budget in MB"⟩,
  ⟨"debugstorage", .switch false, "Log snapshot store diagnostics and cache metrics"⟩]

/-- The files that a flag lists together with other arguments. -/
def joinFiles (files : Text) (others : List Text) : Text :=
  if others = [] then files
  else (if files = [] then [] else files ++ Text.ofString ",") ++ Text.join "," others

/-- The name for no archive. -/
def noArchive : Text := "none"

/-- The name of the archive in the folder for what may be lost. -/
def archiveName : Text := "callsplice"

/-- The archive that a flag names. Without a name it lies in the folder for what may be lost. -/
def archiveFolder (env : Environment) (name : Text) : Except CommandError Text :=
  if name = noArchive then .ok []
  else if name ≠ [] then .ok name
  else
    match env.cacheFolder? with
    | some folder => .ok (Path.below folder archiveName)
    | none => .error .noCacheFolder

/-- The configuration that the values of flags and other arguments give. -/
def ofValues (env : Environment) (values : FlagValues) (others : List Text) :
    Except CommandError Config :=
  let dryRun := values.switch "dryrun"
  let check := values.switch "check"
  if dryRun && check then .error .exclusive
  else
    (archiveFolder env (values.text "state")).map fun archive =>
      { blank with
        files := joinFiles (values.text "files") others
        profileFile := values.text "profile"
        archive, dryRun, check
        diff := values.switch "diff"
        plain := values.switch "nocolor"
        cacheSize := values.int "cachemb"
        verboseArchive := values.switch "debugstorage" }

/-- The configuration that arguments give, and the values of the flags. -/
def ofArguments (extra : List Flag) (env : Environment) (arguments : List Text) :
    Except CommandError (Config × FlagValues) :=
  let flags := standardFlags ++ extra
  if !Flag.areDefinable flags then .error .undefinable
  else
    match Flag.parse flags (Flag.defaults flags) arguments with
    | .error e => .error (.flag e)
    | .ok (values, others) => (ofValues env values others).map fun c => (c, values)

end Config

/-! ### Programs -/

/-- The programs. -/
inductive Program where
  | patch
  | restore
deriving DecidableEq, Repr

/-- How a run of a program ends. -/
structure Ending where
  exit : Nat
  output : Text
  log : List Text
  /-- What is said to the user apart from output and log. -/
  notice : Text
deriving DecidableEq, Repr

/-- The start of the log entry of an error. -/
def errorMark : Text := "!! "

namespace Program

/-- The name of a program. -/
def name : Program → Text
  | patch => "callsplice"
  | restore => "restore"

/-- The flags that a program has apart from those that all have. -/
def extraFlags : Program → List Flag
  | patch => []
  | restore => [
    ⟨"force", .switch false, "Restore even if the file was edited after patching"⟩,
    ⟨"all", .switch false, "Restore every snapshotted file (default when no files are listed)"⟩]

/-- The usage text of a program with extra flags. -/
def usage (name : Text) (extra : List Flag) : Text :=
  Flag.usageText name (Config.standardFlags ++ extra)

/-- What is said about arguments that are wrong, and about those that ask for help. -/
def notice (name : Text) (extra : List Flag) (e : FlagError) : Text :=
  (if e = .help then [] else e.message ++ Text.ofString "\n") ++ usage name extra

/-- A run that ends because of its arguments. -/
def refused (p : Program) : CommandError → Ending
  | .flag e => ⟨if e = .help then 0 else 2, [], [], notice p.name p.extraFlags e⟩
  | e => ⟨1, [], [errorMark ++ e.message], []⟩

/-- How a run ends after its session. -/
def ended (p : Program) (a : Account) : Ending :=
  match p, a.errors.isEmpty with
  | patch, true => ⟨0, a.output, a.log, []⟩
  | patch, false => ⟨1, a.output, a.log ++ [errorMark ++ a.message], []⟩
  | restore, true => ⟨0, a.output, a.log ++ [Text.ofString "Restore completed"], []⟩
  | restore, false => ⟨1, a.output, a.log ++ [errorMark ++ "Failed to restore: " ++ a.message], []⟩

variable [Snapshot.Format]

/-- The session of a program. -/
def session (p : Program) (cwd : Text) (coloured : Bool) (c : Config) (values : FlagValues) :
    SessionJob (Option Account) := do
  match p with
  | patch => return (← c.run cwd coloured).1
  | restore =>
    let c := { c with restoreAll := values.switch "all" || c.files = [] }
    return some (← c.restore cwd (values.switch "force")).1

/-- A run of a program in a working directory. A run that breaks off has no ending. -/
def exec (p : Program) (cwd : Text) (env : Environment) (coloured : Bool) (arguments : List Text) :
    SessionJob (Option Ending) := do
  match Config.ofArguments p.extraFlags env arguments with
  | .error e => return some (p.refused e)
  | .ok (c, values) => return (← p.session cwd coloured c values).map p.ended

end Program

end Reroute
