import Reroute.Profile.Load
import Reroute.Text.Blank

/-!
# Configurations

A configuration says what a session works on and how. Before its first use it is prepared: the
listed files are checked, the profile is loaded and the folder of the archive is made absolute. A
preparation that fails leaves the files that it listed, and the next one lists them once more. If it
fails only because there is no working directory to start from, it leaves the profile too.

## Main definitions

* `Config` — what a session works on and how
* `ConfigError` — why a configuration cannot be used
* `Config.listed` — the files that a list with commas names
* `Config.prepare` — one attempt at preparing a configuration
-/

namespace Reroute

/-- What a session works on and how. -/
structure Config where
  /-- The files, with commas between them. -/
  files : Text
  /-- The file of the profile, empty for the standard profile. -/
  profileFile : Text
  /-- The folder of the archive, empty if there is none. -/
  archive : Text
  /-- Nothing is stored. -/
  dryRun : Bool
  /-- Nothing is stored, and a file that would change counts as an error. -/
  check : Bool
  /-- The diffs of stored files are shown. -/
  diff : Bool
  /-- Diffs are shown without colours. -/
  plain : Bool
  /-- The archive tells what it does. -/
  verboseArchive : Bool
  /-- All files with a snapshot are restored. -/
  restoreAll : Bool
  /-- The memory for the archive, in megabytes. -/
  cacheSize : Int
  /-- The files to work on, found by the preparation. -/
  targets : List Text
  /-- The profile, found by the preparation. -/
  profile? : Option Profile
  /-- The preparation has succeeded. -/
  prepared : Bool
  /-- Files are to be restored. -/
  restoring : Bool
deriving DecidableEq, Repr

/-- Why a configuration cannot be used. -/
inductive ConfigError where
  | alreadyPrepared
  | noTargets
  | inaccessible (cause : DiskError)
  | folder (path : Text)
  | repeatedTarget
  | cacheSize (size : Int)
  | profile (cause : LoadError)
  | archiveUnresolved (cause : DiskError)

/-- The message of a configuration error. -/
def ConfigError.message : ConfigError → Text
  | alreadyPrepared => "config has already been prepared"
  | noTargets => "at least one target file is required"
  | inaccessible cause =>
    "target file does not exist or is not accessible: " ++ cause.message
  | folder path => "target " ++ path ++ " is a directory, expected a source file"
  | repeatedTarget => "target files must not be listed more than once"
  | cacheSize size => "cache size must be between 1 and 10240 MB, got " ++ Text.ofInt size
  | profile cause => "invalid profile: " ++ cause.message
  | archiveUnresolved cause => "error resolving state directory: " ++ cause.message

namespace Config

/-- A configuration that lists no file and leaves everything else as it is by default. -/
def blank : Config where
  files := []
  profileFile := []
  archive := []
  dryRun := false
  check := false
  diff := false
  plain := false
  verboseArchive := false
  restoreAll := false
  cacheSize := 32
  targets := []
  profile? := none
  prepared := false
  restoring := false

/-- The least and the greatest memory for the archive, in megabytes. -/
def cacheSizes : Int × Int := (1, 10240)

/-- The clean paths that a list with commas names. -/
def listed (files : Text) : List Text :=
  (((Text.fields (Text.byte ',') files).map Text.trim).filter (· ≠ [])).map Path.clean

/-- The configuration after it has listed its files. -/
def withTargets (c : Config) : Config := { c with targets := c.targets ++ listed c.files }

/-- Whether a path leads to a file. A file that is to be restored may be missing. -/
def checkTarget (restoring : Bool) (path : Text) : DiskJob (Except ConfigError Unit) := do
  match ← (DiskOp.stat path).perform with
  | .error e =>
    if restoring && e.fault = .notFound then return .ok () else return .error (.inaccessible e)
  | .ok info => if info.isFolder then return .error (.folder path) else return .ok ()

/-- Whether paths lead to files; the first that does not counts. -/
def checkTargets (restoring : Bool) : List Text → DiskJob (Except ConfigError Unit)
  | [] => pure (.ok ())
  | path :: rest => do
    match ← checkTarget restoring path with
    | .error e => return .error e
    | .ok () => checkTargets restoring rest

/-- The profile that a configuration names. -/
def loadProfile (c : Config) : DiskJob (Except ConfigError Profile) := do
  if c.profileFile = [] then return .ok Profile.standard
  match ← Profile.load c.profileFile with
  | .error e => return .error (.profile e)
  | .ok p => return .ok p

/-- The profile of a configuration that has listed its files, as long as nothing is wrong with it.
-/
def examine (c : Config) : DiskJob (Except ConfigError Profile) := do
  if c.targets.isEmpty && !(c.restoring && c.restoreAll) then return .error .noTargets
  match ← checkTargets c.restoring c.targets with
  | .error e => return .error e
  | .ok () =>
    if ¬ c.targets.Nodup then return .error .repeatedTarget
    if c.cacheSize < cacheSizes.1 || cacheSizes.2 < c.cacheSize then
      return .error (.cacheSize c.cacheSize)
    c.loadProfile

/-- The folder of the archive as an absolute path. -/
def resolveArchive (c : Config) : DiskJob (Except ConfigError Text) := do
  if c.archive = [] then return .ok []
  if Path.isAbsolute c.archive then return .ok (Path.clean c.archive)
  match ← DiskOp.workingDirectory.perform with
  | .error e => return .error (.archiveUnresolved e)
  | .ok cwd => return .ok (Path.below cwd c.archive)

/-- The configuration with a profile that was found. -/
def withProfile (c : Config) (p : Profile) : Config := { c with profile? := some p }

/-- The configuration after a preparation that has found where the archive is. -/
def settled (c : Config) (archive : Text) : Config := { c with archive, prepared := true }

/-- One attempt at preparing a configuration, and the configuration after it. -/
def prepare (c : Config) : DiskJob (Except ConfigError Unit × Config) := do
  if c.prepared then return (.error .alreadyPrepared, c)
  match ← c.withTargets.examine with
  | .error e => return (.error e, c.withTargets)
  | .ok p =>
    match ← c.resolveArchive with
    | .error e => return (.error e, c.withTargets.withProfile p)
    | .ok archive => return (.ok (), (c.withTargets.withProfile p).settled archive)

end Config

end Reroute
