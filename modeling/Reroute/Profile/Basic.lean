import Reroute.CallRule
import Reroute.Helper
import Reroute.Landmarks

/-!
# Profiles

A profile holds all that a pass needs to know about one kind of source file: where the helper goes,
how units are found, which calls are rerouted, and the routes. A profile is accepted if a pass over
its own output finds nothing left to do: the helper is recognised where it was installed, and no
text that a pass writes contains the target.

## Main definitions

* `Profile` — markers, helper and routes
* `Profile.standard` — the profile of a file tool server, whose results go through activity logging
* `Profile.validate` — the checks on a profile
-/

namespace Reroute

/-- Markers, helper and routes for one kind of source file. -/
structure Profile where
  /-- The line that the helper's definition follows. -/
  anchor : Text
  helper : Helper
  /-- What stands before the name of a unit in its declaration. -/
  declaration : Text
  /-- What starts the next unit. -/
  nextUnit : Text
  /-- The start of the calls that are rerouted. -/
  target : Text
  routes : List Route
deriving DecidableEq, Repr, Inhabited

/-- Why a profile is not accepted. -/
inductive ProfileError where
  | anchorRequired
  | helperRequired
  | identRequired
  | identNotInDefinition (ident : Text)
  | marksRequired
  | targetRequired
  | helperNotDefined (name : Text)
  | targetInHelperCall (target : Text)
  | targetInArguments (unit target : Text)
  | table (error : TableError)
deriving DecidableEq, Repr

/-- The message of a profile error. -/
def ProfileError.message : ProfileError → Text
  | anchorRequired => "profile anchor is required"
  | helperRequired => "profile helper name and definition are required"
  | identRequired => "profile helper ident is required to detect a prior injection"
  | identNotInDefinition ident => "helper definition does not contain its ident " ++ ident.quote
  | marksRequired => "profile decl_prefix and next_unit_marker are required"
  | targetRequired => "profile target_prefix is required"
  | helperNotDefined name => "helper definition does not define " ++ name.quote
  | targetInHelperCall target =>
    "target prefix " ++ target.quote ++ " would match rewritten call sites"
  | targetInArguments unit target =>
    "unit " ++ unit ++ " arguments contain target prefix " ++ target.quote
  | table error => error.message

namespace Profile

/-- The profile whose texts are all empty. -/
def empty : Profile := ⟨[], ⟨[], [], []⟩, [], [], [], []⟩

/-- The marks by which the profile finds units. -/
def landmarks (p : Profile) : Landmarks := ⟨p.declaration, p.nextUnit⟩

/-- The rule by which the profile reroutes calls. -/
def callRule (p : Profile) : CallRule := ⟨p.target, p.helper.name⟩

/-- The route table of the profile. -/
def table (p : Profile) : Except TableError RouteTable := RouteTable.ofList p.routes

/-- The first unit with an argument that contains the target. -/
def firstNested? (p : Profile) : Option Route :=
  p.routes.find? fun r => r.path.includes p.target || r.summary.includes p.target

/-- The first cause for which the profile is not accepted. -/
def validate (p : Profile) : Except ProfileError Unit :=
  if p.anchor.isEmpty then .error .anchorRequired
  else if p.helper.name.isEmpty || p.helper.definition.isEmpty then .error .helperRequired
  else if p.helper.ident.isEmpty then .error .identRequired
  else if !p.helper.definition.includes p.helper.ident then
    .error (.identNotInDefinition p.helper.ident)
  else if p.declaration.isEmpty || p.nextUnit.isEmpty then .error .marksRequired
  else if p.target.isEmpty then .error .targetRequired
  else if !p.helper.definition.includes (p.helper.name ++ "(") then
    .error (.helperNotDefined p.helper.name)
  else if Text.includes (p.helper.name ++ "(") p.target then .error (.targetInHelperCall p.target)
  else
    match p.firstNested? with
    | some r => .error (.targetInArguments r.name p.target)
    | none =>
      match p.table with
      | .error e => .error (.table e)
      | .ok _ => .ok ()

/-! ### The standard profile -/

/-- The definition of the helper that logs an activity and then reports success. -/
def standardDefinition : Text :=
  "\n\nfn success_log(\n    tool: &str,\n    category: &str,\n    path: Option<&str>,\n" ++
  "    summary: &str,\n    contents: Vec<Content>,\n) -> CallToolResult \x7b\n" ++
  "    crate::activity::log_activity(tool, category, path, summary);\n" ++
  "    CallToolResult::success(contents)\n\x7d\n"

/-- The handlers of the file tool server. -/
def standardRoutes : List Route := [
  ⟨"list_directory", "read", "args.path.clone()", "\"Listed directory items\""⟩,
  ⟨"list_directory_recursive", "read", "args.path.clone()", "\"Listed directory recursively\""⟩,
  ⟨"read_file", "read", "args.path.clone()", "\"Read file contents\""⟩,
  ⟨"write_file", "write", "args.path.clone()", "&format!(\"Wrote file: \x7b\x7d\", args.path)"⟩,
  ⟨"search_files", "read", "args.pattern.clone()", "\"Searched files\""⟩,
  ⟨"grep_content", "read", "args.root_path.clone()",
    "&format!(\"Grepped for \x7b\x7d\", args.pattern)"⟩,
  ⟨"read_lines", "read", "args.path.clone()", "\"Read file lines\""⟩,
  ⟨"move_file", "delete", "args.source.clone()",
    "&format!(\"Moved to \x7b\x7d\", args.destination)"⟩,
  ⟨"delete_file", "delete", "args.path.clone()", "\"Deleted file/dir\""⟩,
  ⟨"copy_file", "write", "args.destination.clone()",
    "&format!(\"Copied from \x7b\x7d\", args.source)"⟩,
  ⟨"get_file_info", "read", "args.path.clone()", "\"Read file metadata\""⟩,
  ⟨"batch_read", "read", "format!(\"\x7b\x7d paths\", args.paths.len())", "\"Batch read files\""⟩,
  ⟨"zip_files", "write", "args.output_path.clone()", "\"Created zip archive\""⟩,
  ⟨"unzip_files", "write", "args.destination.clone()", "\"Extracted zip archive\""⟩,
  ⟨"patch_file", "write", "args.path.clone()", "\"Patched file contents\""⟩]

/-- The profile of the file tool server: successful results go through activity logging. -/
def standard : Profile where
  anchor := "use std::sync::Arc;"
  helper := ⟨"success_log", "fn success_log", standardDefinition⟩
  declaration := "async fn "
  nextUnit := "async fn "
  target := "CallToolResult::success("
  routes := standardRoutes

end Profile

end Reroute
