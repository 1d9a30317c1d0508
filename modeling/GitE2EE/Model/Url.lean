import GitE2EE.Lib.Split
import GitE2EE.Model.Git

/-!
# Storage URLs

`e2ee::` URLs (`url.rs`) and the location of a Git carrier (`parse_carrier_location`). A
relative path of a carrier that exists is made absolute against the current directory;
everything else is left to Git as it was written.
-/

namespace GitE2EE

open Wire Effect Split

/-! ## Paths -/

/-- Where a process runs: its current directory, and which paths exist from there. -/
structure WorkingDirectory where
  path : Text
  pathExists : Text → Bool
  /-- The path of a directory is absolute. -/
  rooted : path.head? = some 47

/-- `Path::is_relative`. -/
def isRelative (path : Text) : Bool := path.head? != some 47

/-- `PathBuf::push` of a component, or of the empty path. -/
def pushComponent (base component : Text) : Text :=
  if base.getLast? = some 47 then base ++ component else base ++ 47 :: component

/-- `Path::components`, the root and a leading `.` apart: empty components and `.` are
dropped, `..` is kept. -/
def pathComponents (path : Text) : List Text :=
  (components path).filter fun component => component ≠ [] && component ≠ text "."

/-- What a path is resolved against: two leading slashes, and not three, are kept. -/
def pathBase (dir : WorkingDirectory) (path : Text) : Text :=
  if isRelative path then dir.path
  else if (text "//").isPrefixOf path && !(text "///").isPrefixOf path then text "//"
  else text "/"

/-- `std::path::absolute` of a path that is not empty. A trailing slash is kept. -/
def absolutePath (dir : WorkingDirectory) (path : Text) : Text :=
  let joined := (pathComponents path).foldl pushComponent (pathBase dir path)
  if path.getLast? = some 47 then pushComponent joined [] else joined

/-- `std::path::absolute`. -/
def absolute (dir : WorkingDirectory) (path : Text) : Result Text :=
  if path = [] then .error (.of (.io .other "cannot make an empty path absolute"))
  else .ok (absolutePath dir path)

/-! ## URLs -/

inductive StorageUrl where
  | directory (path : Text)
  | git (remote : Text)
deriving DecidableEq

/-- `str::strip_prefix`. -/
def stripPrefix (start t : Text) : Option Text :=
  if start.isPrefixOf t then some (t.drop start.length) else none

/-- A URL without its scheme. -/
def urlAddress (url : Text) : Text := (stripPrefix (text "e2ee::") url).getD url

/-- The path and the fragment of an address. -/
def splitFragment (address : Text) : Text × Option Text :=
  match rsplitOnce 35 address with
  | some (path, branch) => (path, some branch)
  | none => (address, none)

/-- An absolute path with its fragment put back. -/
def withFragment (path : Text) : Option Text → Text
  | some branch => path ++ 35 :: branch
  | none => path

namespace StorageUrl

/-- The address of a Git carrier. -/
def parseGit (dir : WorkingDirectory) (address : Text) : Result StorageUrl := do
  bailIf (address = []) "empty storage URL"
  let (path, fragment) := splitFragment address
  if isRelative path ∧ dir.pathExists path then do
    let absolute ← absolute dir path
    pure (.git (withFragment absolute fragment))
  else pure (.git address)

def parse (dir : WorkingDirectory) (url : Text) : Result StorageUrl :=
  match stripPrefix (text "dir:") (urlAddress url) with
  | some path => do
    bailIf (path = []) s!"empty directory path in storage URL {quoted url}"
    pure (.directory (← absolute dir path))
  | none => parseGit dir (urlAddress url)

/-- `Display`. -/
def display : StorageUrl → Text
  | directory path => text "e2ee::dir:" ++ path
  | git remote => text "e2ee::" ++ remote

end StorageUrl

/-! ## Carriers -/

def CARRIER_DEFAULT_BRANCH : Text := text "main"

/-- Splits `remote#branch` on the last `#`; without a `#` the branch is `main`. -/
def parseCarrierLocation (location : Text) : Result (Text × Text) := do
  let (remote, branch) := (rsplitOnce 35 location).getD (location, CARRIER_DEFAULT_BRANCH)
  bailIf (remote = []) "empty carrier Git remote"
  bailIf (branch = []) s!"empty carrier branch in {quoted location}"
  bailIf (isValidRefName (text "refs/heads/" ++ branch) = false ∨ branch.head? = some 45)
    s!"invalid carrier branch name {quoted branch} in {quoted location}"
  pure (remote, branch)

end GitE2EE
