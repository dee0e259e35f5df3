import Reroute.Text.Basic

/-!
# Disk errors

Why an operation on a disk fails, and how the failure is worded.
-/

namespace Reroute

/-- Why a disk refuses an operation. -/
inductive Fault where
  | notFound
  | notFolder
  | isFolder
  | occupied
  | invalidPath
  | nameTooLong
  | denied
  /-- Any other reason, in the words of the disk. -/
  | other (reason : Text)
deriving DecidableEq, Repr

/-- The wording of a fault. -/
def Fault.message : Fault → Text
  | notFound => "no such file or directory"
  | notFolder => "not a directory"
  | isFolder => "is a directory"
  | occupied => "file exists"
  | invalidPath => "invalid argument"
  | nameTooLong => "file name too long"
  | denied => "permission denied"
  | other reason => reason

/-- An operation that a disk refused: what was done, to which paths, and why it failed. -/
structure DiskError where
  action : Text
  paths : List Text
  fault : Fault
deriving DecidableEq, Repr

/-- The message of a disk error. -/
def DiskError.message (e : DiskError) : Text :=
  Text.join " " (e.action :: e.paths) ++ ": " ++ e.fault.message

end Reroute
