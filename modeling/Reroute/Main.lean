import Reroute.Command
import Reroute.Snapshot.Standard
import Std.Time.Zoned

/-!
# The command line

The programs on a real disk. Which program runs is a matter of the name of the executable: under the
name `restore` it restores files, under any other it patches them.

A real disk is not asked for permission bits, so the files it stores have the usual ones. The
snapshots are kept in an archive, in the standard format.
-/

namespace Reroute.CommandLine

/-! ### A real disk -/

/-- Why a real disk refuses an operation. -/
def faultOf : IO.Error → Fault
  | .noFileOrDirectory _ _ _ => .notFound
  | .permissionDenied _ _ _ => .denied
  | .alreadyExists _ _ _ => .occupied
  | .inappropriateType _ code _ => if code = 20 then .notFolder else .isFolder
  | .invalidArgument _ code _ => if code = 36 then .nameTooLong else .invalidPath
  | e => .other (Text.ofString e.toString)

/-- An action on a path, with the reason if it is refused. -/
def attempt {α : Type} (path : Text) (action : String → IO α) : IO (Except Fault α) := do
  if 0 ∈ path then return .error .invalidPath
  match path.toString? with
  | none => return .error .invalidPath
  | some s =>
    try return .ok (← action s)
    catch e => return .error (faultOf e)

/-- An action on a path under a name that errors are reported with. -/
def attemptAs {α : Type} (name path : Text) (action : String → IO α) : IO (Except DiskError α) := do
  match ← attempt path action with
  | .ok a => return .ok a
  | .error e => return .error ⟨name, [path], e⟩

/-- A text as it is written. -/
def bytes (t : Text) : ByteArray := ⟨t.toArray⟩

/-- A new empty file of an unused name in a folder, after at most the given number of attempts. -/
def createTemp (folder : Text) : Nat → IO (Except DiskError Text)
  | 0 => return .error ⟨"open", [Disk.tempPath folder 0], .occupied⟩
  | attempts + 1 => do
    let path := Disk.tempPath folder (← IO.rand 0 (2 ^ 32 - 1))
    match ← attempt path fun s => IO.FS.Handle.mk s .writeNew with
    | .ok _ => return .ok path
    | .error .occupied => createTemp folder attempts
    | .error e => return .error ⟨"open", [path], e⟩

/-- The rights that three permission bits give. -/
def rights (bits : Nat) : IO.AccessRight := ⟨bits / 4 % 2 = 1, bits / 2 % 2 = 1, bits % 2 = 1⟩

/-- What an operation does to a real disk. -/
def perform : (op : DiskOp) → IO op.Answer
  | .workingDirectory => do
    try return .ok (Text.ofString (← IO.currentDir).toString)
    catch e => return .error ⟨"getwd", [], faultOf e⟩
  | .stat path => attemptAs "stat" path fun s => do
    let info ← ((← IO.currentDir) / s).metadata
    return ⟨info.type matches .dir, Node.usualMode⟩
  | .read path => do
    match ← attempt path fun s => IO.FS.readBinFile s with
    | .ok content => return .ok content.toList
    | .error .isFolder => return .error ⟨"read", [path], .isFolder⟩
    | .error e => return .error ⟨"open", [path], e⟩
  | .createTemp folder => createTemp folder 10000
  | .append path text => attemptAs "write" path fun s => do
    let h ← IO.FS.Handle.mk s .append
    h.write (bytes text)
    h.flush
  | .sync _ => return .ok ()
  | .close _ => return .ok ()
  | .chmod path mode => attemptAs "chmod" path fun s =>
    IO.setAccessRights s ⟨rights (mode / 64), rights (mode / 8), rights mode⟩
  | .rename source target => do
    match ← attempt source fun s => attempt target fun t => IO.FS.rename s t with
    | .ok (.ok ()) => return .ok ()
    | .ok (.error .isFolder) => return .error ⟨"rename", [source, target], .occupied⟩
    | .ok (.error e) | .error e => return .error ⟨"rename", [source, target], e⟩
  | .remove path => attemptAs "remove" path fun s => IO.FS.removeFile s
  | .mkdir path => attemptAs "mkdir" path fun s => IO.FS.createDir s

/-- A job carried out on a real disk. -/
def carryOut {α : Type} : DiskJob α → IO α
  | .done a => return a
  | .ask op next => do carryOut (next (← perform op))

/-! ### The surroundings -/

/-- A variable of the surroundings, empty if it is not set. -/
def setting (name : String) : IO Text := do return Text.ofString ((← IO.getEnv name).getD "")

/-- Whether the output may have colours. -/
def isColoured : IO Bool := do
  if (← setting "NO_COLOR") ≠ [] then return false
  if (← setting "TERM") = Text.ofString "dumb" then return false
  (← IO.getStdout).isTty

/-- A number with at least the given number of digits. -/
def padded (width : Nat) (n : Int) : Text :=
  let digits := Text.ofInt n
  List.replicate (width - digits.length) (Text.byte '0') ++ digits

/-- The time before an entry of the log. -/
def stamp (t : Std.Time.PlainDateTime) : Text :=
  padded 4 t.year.toInt ++ "/" ++ padded 2 t.month.val ++ "/" ++ padded 2 t.day.val ++ " " ++
    padded 2 t.hour.val ++ ":" ++ padded 2 t.minute.val ++ ":" ++ padded 2 t.second.val ++ " "

/-- The time as a program tells it. -/
def now : Program → IO Std.Time.PlainDateTime
  | .patch => Std.Time.PlainDateTime.now
  | .restore => do
    return (Std.Time.DateTime.ofTimestampWithZone (← Std.Time.Timestamp.now) .UTC).toPlainDateTime

/-- An entry of the log as a line. -/
def logLine (time entry : Text) : Text :=
  time ++ entry ++ if entry.getLast? = some Text.newline then [] else [Text.newline]

/-- The program of an executable. -/
def programOf (executable : Option String) : Program :=
  if executable = some "restore" then .restore else .patch

/-- A run of a program, and the status with which it ends. -/
def exec (p : Program) (arguments : List Text) : IO UInt32 := do
  let cwd := Text.ofString (← IO.currentDir).toString
  let env : Environment := ⟨← setting "HOME", ← setting "XDG_CACHE_HOME"⟩
  match ← carryOut ((p.exec cwd env (← isColoured) arguments).onDisk false) with
  | none => return 2
  | some ending =>
    let time := stamp (← now p)
    (← IO.getStdout).write (bytes ending.output)
    (← IO.getStderr).write (bytes (ending.notice ++ ending.log.flatMap (logLine time)))
    return ending.exit.toUInt32

end Reroute.CommandLine

/-- Runs the program of the executable on the arguments. -/
def main (arguments : List String) : IO UInt32 := do
  let p := Reroute.CommandLine.programOf (← IO.appPath).fileName
  Reroute.CommandLine.exec p (arguments.map Reroute.Text.ofString)
