import TokenPlan.Entries
import TokenPlan.Text.Split
import TokenPlan.Unit.Error

/-!
A directory of text files, in which a command reads and writes by paths. It holds no directories of
its own. A path can also lead to the directories above it and to the root, which hold no files but
those that are written there.
-/

set_option autoImplicit false
set_option relaxedAutoImplicit false

namespace TokenPlan.Command

/-- Why a file cannot be read or written, with the code where the system gives one. -/
inductive FileFault where
  | system (code : Nat) (reason : String)
  | other (reason : String)
deriving DecidableEq, Repr

namespace FileFault

def missing : FileFault := .system 2 "No such file or directory"

def notDirectory : FileFault := .system 20 "Not a directory"

def isDirectory : FileFault := .system 21 "Is a directory"

def nameTooLong : FileFault := .system 36 "File name too long"

def notText : FileFault := .other "stream did not contain valid UTF-8"

/-- The fault of a code; the words for a code that a directory of files can give are fixed. -/
def ofCode (code : Nat) (reason : String) : FileFault :=
  let known := [missing, notDirectory, isDirectory, nameTooLong]
  (known.find? fun
    | .system knownCode _ => knownCode = code
    | .other _ => false).getD (.system code reason)

def message : FileFault → String
  | .system code reason => reason ++ " (os error " ++ Text.numeral code ++ ")"
  | .other reason => reason

end FileFault

/-- Text files under their names; a file elsewhere stands under the way to it and its name. -/
structure Directory where
  files : List (String × String)
deriving DecidableEq

namespace Directory

/-- The longest name of a file, in bytes. -/
def longestName : Nat := 255

def longestPath : Nat := 4095

/--
A name and the way to where it is looked up: nothing in the directory itself, one step up for each
directory above it, and a slash for the root.
-/
structure Site where
  way : String
  name : String
deriving DecidableEq

def Site.key (site : Site) : String :=
  site.way ++ site.name

/-- What a path leads to, seen from the directory. -/
inductive Place where
  | directory
  | file (site : Site)
  /-- A name at which the path does not end, though slashes may be all that follows it. -/
  | beyond (site : Site) (onlySlashes : Bool)
deriving DecidableEq

def rootWay : String := "/"

/-- The way to the directory above; above the root is the root. -/
def stepUp (way : String) : String :=
  if way = rootWay then rootWay else "../" ++ way

/-- Follows the parts of a path from the directory at the end of a way. -/
def placeOf (way : String) : List (List Char) → Place
  | [] => .directory
  | part :: rest =>
    if part = [] ∨ part = ['.'] then placeOf way rest
    else if part = ['.', '.'] then placeOf (stepUp way) rest
    else if rest = [] then .file ⟨way, String.ofList part⟩
    else .beyond ⟨way, String.ofList part⟩ (rest.all List.isEmpty)

/-- Where a path leads; one with a slash in front starts at the root. -/
def locate (path : String) : Place :=
  placeOf (if path.toList.head? = some '/' then rootWay else "") (Text.parts '/' path.toList)

/-- A path that is empty or too long is not followed. -/
def checkPath (path : String) : Except FileFault Unit :=
  if path = "" then .error .missing
  else if longestPath < path.utf8ByteSize then .error .nameTooLong
  else .ok ()

/-- A name that is too long can be neither found nor made. -/
def checkName (name : String) : Except FileFault Unit :=
  if longestName < name.utf8ByteSize then .error .nameTooLong else .ok ()

def get? (d : Directory) (site : Site) : Option String :=
  Entries.get? site.key d.files

def set (d : Directory) (site : Site) (text : String) : Directory :=
  ⟨Entries.set site.key text d.files⟩

/-- The fault of a path that goes on behind a site. -/
def faultBeyond (d : Directory) (site : Site) : FileFault :=
  if (d.get? site).isSome then .notDirectory else .missing

def read (d : Directory) (path : String) : Except FileFault String := do
  checkPath path
  match locate path with
  | .directory => throw .isDirectory
  | .beyond site _ => do
    checkName site.name
    throw (d.faultBeyond site)
  | .file site => do
    checkName site.name
    require .missing (d.get? site)

/-- Writes the file that a path leads to, whether or not it exists. -/
def write (d : Directory) (path text : String) : Except FileFault Directory := do
  checkPath path
  match locate path with
  | .directory => throw .isDirectory
  | .beyond _ true => throw .isDirectory
  | .beyond site false => do
    checkName site.name
    throw (d.faultBeyond site)
  | .file site => do
    checkName site.name
    return d.set site text

/-- Only a path that leads to a file can be written, and that file alone is set. -/
theorem write_eq_ok_iff {d after : Directory} {path text : String} :
    d.write path text = .ok after ↔
      ∃ site, checkPath path = .ok () ∧ locate path = .file site ∧
        checkName site.name = .ok () ∧ after = d.set site text := by
  cases followed : checkPath path with
  | error fault => simp [write, followed, bind, Except.bind]
  | ok done =>
    cases located : locate path with
    | directory =>
      simp [write, followed, located, bind, Except.bind, throw, throwThe, MonadExceptOf.throw]
    | beyond site onlySlashes =>
      cases onlySlashes <;> cases checked : checkName site.name <;>
        simp [write, followed, located, checked, bind, Except.bind, throw, throwThe,
          MonadExceptOf.throw]
    | file site =>
      cases checked : checkName site.name with
      | error fault => simp [write, followed, located, checked, bind, Except.bind]
      | ok done =>
        simp [write, followed, located, checked, bind, Except.bind, pure, Except.pure, eq_comm]

theorem read_of_write {d after : Directory} {path text : String}
    (written : d.write path text = .ok after) : after.read path = .ok text := by
  obtain ⟨site, followed, located, checked, rfl⟩ := write_eq_ok_iff.mp written
  simp [read, followed, located, checked, get?, set, Entries.get?_set_self, require, bind,
    Except.bind]

end Directory

end TokenPlan.Command
