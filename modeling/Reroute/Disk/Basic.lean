import Reroute.Disk.Error
import Reroute.Disk.Path
import Reroute.Job
import Reroute.Keyed

/-!
# Disks

A disk as data: files and folders by their place, which is the list of components from the root, and
a working directory. A path is followed component by component from the root or from the working
directory, so that `a/../b` needs the folder `a`, and a path that ends in a slash needs a folder.

A folder may be linked to another one. What is looked for in it is then looked for in the other one,
so a file may be reached by several clean paths. Files are not linked.

The operations that the program asks of a disk form an interface. A disk answers them by
`Disk.perform`; a job over the interface may just as well run on a real disk.

## Main definitions

* `Disk`, `Node` — files and folders by place
* `Disk.follow` — where a path leads
* `DiskOp`, `diskInterface` — the operations on disks
* `Disk.perform` — what the operations do to a disk
* `Disk.listing` — the files below the working directory
-/

namespace Reroute

/-- What stands at a place of a disk. -/
inductive Node where
  | file (mode : Nat) (text : Text)
  | folder
deriving DecidableEq, Repr

/-- The permission bits of a new file. -/
def Node.usualMode : Nat := 0o644

/-- The permission bits of a folder. -/
def Node.folderMode : Nat := 0o755

/-- The permission bits of what stands at a place. -/
def Node.mode : Node → Nat
  | file mode _ => mode
  | folder => folderMode

/-- Files and folders by place, the working directory and the links. The root is always a folder. -/
structure Disk where
  nodes : Keyed (List Text) Node
  cwd : List Text
  /-- The folders that stand for another one, with the place of that one. -/
  links : Keyed (List Text) (List Text)

namespace Disk

/-- What stands at a place. -/
def node? (d : Disk) (place : List Text) : Option Node :=
  if place = [] then some .folder else d.nodes.find? place

/-- The disk with a node at a place. -/
def set (d : Disk) (place : List Text) (node : Node) : Disk :=
  { d with nodes := d.nodes.insert place node }

/-- The disk without what stands at a place. -/
def unset (d : Disk) (place : List Text) : Disk := { d with nodes := d.nodes.erase place }

/-! ### Paths on a disk -/

/-- The longest name of a file or folder. -/
def nameLimit : Nat := 255

/-- The longest path. -/
def pathLimit : Nat := 4095

/-- The place of the folder that is entered at a place: the one that a link leads to, if there is a
folder, and otherwise the place itself. -/
def entered (d : Disk) (place : List Text) : List Text :=
  match d.links.find? place with
  | none => place
  | some target => if d.node? target = some .folder then target else place

/-- The place that components lead to from another place. All but the last have to be folders; at
the last there may be nothing. -/
def walk (d : Disk) : List Text → List Text → Except Fault (List Text)
  | place, [] => .ok place
  | place, component :: rest =>
    match d.node? place with
    | none => .error .notFound
    | some (.file _ _) => .error .notFolder
    | some .folder =>
      if component = Text.ofString "." then d.walk place rest
      else if component = Text.ofString ".." then d.walk (d.entered place).dropLast rest
      else if nameLimit < component.length then .error .nameTooLong
      else d.walk (d.entered place ++ [component]) rest

/-- The components of a path in the order in which they are followed. The end of a path that ends in
a slash is the folder itself. -/
def route (p : Text) : List Text :=
  (Text.fields Path.slash p).filter (· ≠ []) ++
    if p.getLast? = some Path.slash then [Text.ofString "."] else []

/-- The place that a path leads to. -/
def follow (d : Disk) (p : Text) : Except Fault (List Text) :=
  if 0 ∈ p then .error .invalidPath
  else if p = [] then .error .notFound
  else if pathLimit < p.length then .error .nameTooLong
  else d.walk (if Path.isAbsolute p then [] else d.cwd) (route p)

/-- What a path leads to. -/
def find (d : Disk) (p : Text) : Except Fault (List Text × Node) :=
  match d.follow p with
  | .error e => .error e
  | .ok place =>
    match d.node? place with
    | none => .error .notFound
    | some node => .ok (place, node)

end Disk

/-! ### Operations -/

/-- What is known of a file or folder without reading it. -/
structure FileInfo where
  isFolder : Bool
  mode : Nat
deriving DecidableEq, Repr

/-- The operations on a disk. -/
inductive DiskOp where
  /-- The path of the working directory. -/
  | workingDirectory
  | stat (path : Text)
  | read (path : Text)
  /-- A new empty file of an unused name in a folder. -/
  | createTemp (folder : Text)
  /-- More text at the end of a file that was created here. -/
  | append (path text : Text)
  | sync (path : Text)
  | close (path : Text)
  | chmod (path : Text) (mode : Nat)
  | rename (source target : Text)
  | remove (path : Text)
  | mkdir (path : Text)
deriving DecidableEq, Repr

/-- The answers to an operation on a disk. -/
abbrev DiskOp.Answer : DiskOp → Type
  | workingDirectory => Except DiskError Text
  | stat _ => Except DiskError FileInfo
  | read _ => Except DiskError Text
  | createTemp _ => Except DiskError Text
  | _ => Except DiskError Unit

/-- The operations on a disk with their answers. -/
def diskInterface : Interface := ⟨DiskOp, DiskOp.Answer⟩

/-- A job on a disk. -/
abbrev DiskJob := Job diskInterface

/-- The job of one operation on a disk. -/
def DiskOp.perform (op : DiskOp) : DiskJob op.Answer := Job.perform (I := diskInterface) op

namespace Disk

/-- The start of the names of temporary files. -/
def tempLead : Text := ".tmp-splice-"

/-- The path of a temporary file in a folder. -/
def tempPath (folder : Text) (number : Nat) : Text :=
  let lead := if folder.getLast? = some Path.slash then folder else folder ++ [Path.slash]
  lead ++ tempLead ++ Text.ofNat number

/-- Whether a path leads to something. -/
def isTaken (d : Disk) (p : Text) : Bool := (d.find p).isOk

/-- The path of the first unused temporary file in a folder. -/
def freshTemp (d : Disk) (folder : Text) : Text :=
  let numbers := List.range (d.nodes.entries.length + 1)
  ((numbers.map (tempPath folder)).find? fun p => !d.isTaken p).getD (tempPath folder 0)

/-- An answer that changes nothing. -/
def refuse {α : Type} (d : Disk) (action : Text) (paths : List Text) (fault : Fault) :
    Except DiskError α × Disk := (.error ⟨action, paths, fault⟩, d)

/-- An answer to an operation on the file at a path, which changes the file. -/
def modify (d : Disk) (action path : Text) (change : Nat → Text → Node) :
    Except DiskError Unit × Disk :=
  match d.find path with
  | .error e => d.refuse action [path] e
  | .ok (_, .folder) => d.refuse action [path] .isFolder
  | .ok (place, .file mode text) => (.ok (), d.set place (change mode text))

/-- Whether the owner may read a file with the given permission bits. -/
def isReadable (mode : Nat) : Bool := mode / 0o400 % 2 = 1

/-- The text of the file at a path. -/
def readFile (d : Disk) (path : Text) : Except DiskError Text :=
  match d.find path with
  | .error e => .error ⟨"open", [path], e⟩
  | .ok (_, .folder) => .error ⟨"read", [path], .isFolder⟩
  | .ok (_, .file mode text) =>
    if isReadable mode then .ok text else .error ⟨"open", [path], .denied⟩

/-- An empty file at an unused path. -/
def create (d : Disk) (path : Text) : Except DiskError Text × Disk :=
  match d.follow path with
  | .error e => d.refuse "open" [path] e
  | .ok place =>
    match d.node? place with
    | some _ => d.refuse "open" [path] .occupied
    | none => (.ok path, d.set place (.file 0o600 []))

/-- A file moved to another path, in place of the file that is there. -/
def move (d : Disk) (source target : Text) : Except DiskError Unit × Disk :=
  match d.find source with
  | .error e => d.refuse "rename" [source, target] e
  | .ok (_, .folder) => d.refuse "rename" [source, target] .isFolder
  | .ok (place, node) =>
    match d.follow target with
    | .error e => d.refuse "rename" [source, target] e
    | .ok goal =>
      match d.node? goal with
      | some .folder => d.refuse "rename" [source, target] .occupied
      | _ => (.ok (), (d.unset place).set goal node)

/-- What the operations do to a disk. -/
def perform : Handler diskInterface Disk
  | .workingDirectory, d =>
    match d.node? d.cwd with
    | some .folder => (.ok (Path.ofComponents d.cwd), d)
    | _ => d.refuse "getwd" [] .notFound
  | .stat path, d =>
    match d.find path with
    | .error e => d.refuse "stat" [path] e
    | .ok (_, .file mode _) => (.ok ⟨false, mode⟩, d)
    | .ok (_, .folder) => (.ok ⟨true, Node.folderMode⟩, d)
  | .read path, d => (d.readFile path, d)
  | .createTemp folder, d => d.create (d.freshTemp folder)
  | .append path more, d => d.modify "write" path fun mode text => .file mode (text ++ more)
  | .sync path, d => d.modify "sync" path .file
  | .close path, d => d.modify "close" path .file
  | .chmod path mode, d => d.modify "chmod" path fun _ text => .file mode text
  | .rename source target, d => d.move source target
  | .remove path, d =>
    match d.find path with
    | .error e => d.refuse "remove" [path] e
    | .ok (place, _) => (.ok (), d.unset place)
  | .mkdir path, d =>
    match d.follow (Path.withoutSlashes path) with
    | .error e => d.refuse "mkdir" [path] e
    | .ok place =>
      match d.node? place with
      | some _ => d.refuse "mkdir" [path] .occupied
      | none => (.ok (), d.set place .folder)

/-! ### Laying out a disk -/

/-- The place of a path, read as text. -/
def placeOf (d : Disk) (p : Text) : List Text :=
  let start := if Path.isAbsolute p then [] else d.cwd
  ((Text.fields Path.slash p).foldl (Path.follow true) start.reverse).reverse

/-- The places above a place, from the root down. -/
def above (place : List Text) : List (List Text) := (List.range place.length).map place.take

/-- The disk with folders at all places that have nothing. -/
def withFolders (d : Disk) (places : List (List Text)) : Disk :=
  places.foldl (fun d place => if (d.node? place).isSome then d else d.set place .folder) d

/-- The disk with a file at a path, and the folders that it lies in. -/
def put (d : Disk) (p : Text) (mode : Nat) (text : Text) : Disk :=
  (d.withFolders (above (d.placeOf p))).set (d.placeOf p) (.file mode text)

/-- The disk with a folder at a path, and the folders that it lies in. -/
def putFolder (d : Disk) (p : Text) : Disk :=
  d.withFolders (above (d.placeOf p) ++ [d.placeOf p])

/-- The disk with a folder at a path that is linked to the one at another path. -/
def putLink (d : Disk) (p target : Text) : Disk :=
  { d.putFolder p with links := d.links.insert (d.placeOf p) (d.placeOf target) }

/-- The disk without what is at a path and below it. -/
def clear (d : Disk) (p : Text) : Disk :=
  let places := d.nodes.keys.filter fun place => (d.placeOf p).isPrefixOf place
  places.foldl unset d

/-- A disk with nothing but a working directory. -/
def fresh (cwd : Text) : Disk := (⟨.empty, [], .empty⟩ : Disk).putFolder cwd |> fun d =>
  { d with cwd := d.placeOf cwd }

/-- The order of places: component by component. -/
def placeLe : List Text → List Text → Bool
  | [], _ => true
  | _ :: _, [] => false
  | a :: as, b :: bs => Text.lt a b || (a == b && placeLe as bs)

/-- The files below the working directory in the order of their places, each with its place relative
to the working directory. -/
def listing (d : Disk) : List (List Text × Nat × Text) :=
  let files := d.nodes.entries.filterMap fun (place, node) =>
    match node with
    | .folder => none
    | .file mode text =>
      if d.cwd.isPrefixOf place then some (place.drop d.cwd.length, mode, text) else none
  files.mergeSort fun a b => placeLe a.1 b.1

end Disk

end Reroute
