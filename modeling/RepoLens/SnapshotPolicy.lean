import RepoLens.Lib.Paths
import RepoLens.Lib.Utf8
import RepoLens.SnapshotRanges

/-!
`internal/snapshotpolicy` and how `internal/platform/snapshotstore` comes to a file with it. Paths
are texts: names of broken bytes, which a walk may meet as well, are left out.
-/

namespace RepoLens

def cleanPath (path : String) : String := String.ofList (Paths.clean path.toList)

namespace SnapshotPolicy

open Paths

/-- `strings.ToLower` as far as it leads to an ASCII letter. -/
def lower (c : Char) : Char :=
  if c = '\u212a' then 'k' else if c = '\u0130' then 'i' else c.toLower

def toLower (name : List Char) : List Char := name.map lower

structure Decision where
  allowed : Bool
  visibility : String
  reason : String
  deriving DecidableEq, Repr

def Decision.deny (reason : String) : Decision := ⟨false, "", reason⟩

def visibilityAgentReadable : String := "AGENT_READABLE"

def ignoredDirectories : List String :=
  [".git", "node_modules", "vendor", "dist", "build", "bin", "obj", ".idea", ".vscode", "target",
    "__pycache__", ".next", "testdata"]

def ignoredExtensions : List String :=
  [".exe", ".dll", ".so", ".dylib", ".bin", ".png", ".jpg", ".jpeg", ".gif", ".ico", ".svg", ".pdf",
    ".zip", ".tar", ".gz", ".7z", ".jar", ".war", ".pyc", ".class", ".db", ".sqlite", ".woff",
    ".woff2", ".ttf", ".eot", ".mp4", ".mp3"]

def sensitiveNames : List String :=
  [".env", "id_rsa", "id_dsa", "id_ed25519", "secret.json", "secrets.json", "credential.json",
    "credentials.json", "service-account.json", "service_account.json"]

def shouldSkipDirectory (name : List Char) : Bool :=
  ignoredDirectories.contains (String.ofList (toLower name)) || (toLower name).head? == some '.'

def evaluateParts (parts : List (List Char)) : Decision :=
  if parts.dropLast.any shouldSkipDirectory then .deny "path is under an excluded directory"
  else
    let base := toLower (parts.getLastD [])
    if sensitiveNames.contains (String.ofList base) || ".env.".toList.isPrefixOf base ||
        ".pem".toList.isSuffixOf base || ".key".toList.isSuffixOf base then
      .deny "path identifies a sensitive file"
    else if ignoredExtensions.contains (String.ofList (toLower (ext base))) then
      .deny "file type is excluded by snapshot policy"
    else ⟨true, visibilityAgentReadable, ""⟩

def leavesRoot (clean : List Char) : Bool :=
  clean == ['.'] || clean.isEmpty || clean == up || "../".toList.isPrefixOf clean

def evaluate (path : String) (size : Int) : Decision :=
  if size < 0 ∨ '\\' ∈ path.toList then .deny "path or size is invalid"
  else if leavesRoot (clean path.toList) ∨ isAbs path.toList then
    .deny "path is not a snapshot relative path"
  else evaluateParts ((clean path.toList).splitOn '/')

def canMaterialize (path : String) (size : Int) : Decision := evaluate path size
def canIndex (path : String) (size : Int) : Decision := evaluate path size
def canReadByAgent (path : String) (size : Int) : Decision := evaluate path size
def canIssueEvidence (path : String) (size : Int) : Decision := evaluate path size

structure FileEntry where
  path : String
  size : Int
  sha256 : String
  language : String
  visibility : String
  deriving DecidableEq, Repr

structure Manifest where
  version : Int
  snapshotID : String
  commitSHA : String
  contentHash : String
  files : List FileEntry
  deriving DecidableEq, Repr

def manifestVersion : Int := 1

/-- `sort.Search` on the indices `i, …, j - 1`: the first one that the test accepts, if
it accepts all behind it. -/
def search (test : Nat → Bool) : Nat → Nat → Nat → Nat
  | 0, i, _ => i
  | fuel + 1, i, j =>
    if i < j then
      if test ((i + j) / 2) then search test fuel i ((i + j) / 2)
      else search test fuel ((i + j) / 2 + 1) j
    else i

def Manifest.contains (manifest : Manifest) (path : String) : Bool :=
  (canReadByAgent path 0).allowed &&
    let n := manifest.files.length
    let test (i : Nat) := manifest.files[i]?.all fun file => decide (cleanPath path ≤ file.path)
    manifest.files[search test n 0 n]?.any fun file =>
      file.path == cleanPath path && file.visibility == visibilityAgentReadable

def validHash (value : String) : Bool :=
  value.toList.length == 64 &&
    value.toList.all fun c => c.isDigit || ('a' ≤ c.toLower && c.toLower ≤ 'f')

def canonicalEntry (file : FileEntry) : Bool :=
  file.path != "" && cleanPath file.path == file.path && decide (0 ≤ file.size) &&
    (canMaterialize file.path file.size).allowed && file.visibility == visibilityAgentReadable &&
    validHash file.sha256 && file.language != ""

inductive ManifestErr where
  | notFound
  | unreadable
  | malformed
  | version (version : Int)
  | identity
  | entry (path : String)
  deriving DecidableEq, Repr

inductive ManifestFile where
  | missing
  | unreadable
  | malformed
  | decoded (manifest : Manifest)
  deriving DecidableEq, Repr

def sortedFiles (files : List FileEntry) : List FileEntry :=
  files.insertionSort fun first second => first.path ≤ second.path

/-- The check of the entries in `LoadManifest`: each stands at its place, once. -/
def checkEntries : Option String → List FileEntry → List FileEntry → Except ManifestErr Unit
  | before, file :: files, sorted :: rest =>
    if file.path ≠ sorted.path ∨ before = some file.path ∨ canonicalEntry file = false then
      .error (.entry file.path)
    else checkEntries (some file.path) files rest
  | _, _, _ => .ok ()

def loadManifest : ManifestFile → Except ManifestErr Manifest
  | .missing => .error .notFound
  | .unreadable => .error .unreadable
  | .malformed => .error .malformed
  | .decoded manifest => do
      if manifest.version ≠ manifestVersion then throw (.version manifest.version)
      if manifest.snapshotID = "" ∨ manifest.commitSHA = "" ∨
          validHash manifest.contentHash = false then
        throw .identity
      checkEntries none manifest.files (sortedFiles manifest.files)
      return manifest

def requiresManifest (sourceRoot : String) : Bool :=
  let parts := (clean sourceRoot.toList).splitOn '/'
  (parts.zip parts.tail).any fun (part, next) =>
    part == "executions".toList && "gen-".toList.isPrefixOf next

inductive FileKind where
  | directory
  | regular
  | symlink
  | other
  deriving DecidableEq, Repr

/-- The answers of the file system: `Lstat`, `EvalSymlinks`, the content behind
`os.Open`, and the manifest that belongs to a source root. -/
structure FileSystem where
  lstat : String → Option FileKind
  evalSymlinks : String → Option String
  content : String → Option Bytes
  manifest : String → ManifestFile

variable (fs : FileSystem)

def canReadFromSnapshot (sourceRoot path : String) : Decision :=
  let decision := canReadByAgent path 0
  if decision.allowed = false then decision
  else
    match loadManifest (fs.manifest sourceRoot) with
    | .error .notFound =>
      if requiresManifest sourceRoot then .deny "immutable snapshot manifest is missing"
      else decision
    | .error _ => .deny "snapshot manifest is unavailable or invalid"
    | .ok manifest =>
      if manifest.contains path then decision
      else .deny "file is not present in the snapshot manifest"

def canIssueEvidenceFromSnapshot (sourceRoot path : String) : Decision :=
  let decision := canIssueEvidence path 0
  if decision.allowed = false then decision
  else
    let manifestDecision := canReadFromSnapshot fs sourceRoot path
    if manifestDecision.allowed = false then manifestDecision else decision

/-- Why `SafePath` refuses a path. -/
inductive Refusal where
  | accessDenied
  | traversal
  | root
  | notFound
  | symlink
  | resolution
  | rootUnavailable
  | escape
  | nonRegular
  deriving DecidableEq, Repr

def Refusal.text (relativePath : String) : Refusal → String
  | .accessDenied => "snapshot file access denied: " ++ relativePath
  | .traversal => "path traversal denied: " ++ relativePath
  | .root => "non-canonical snapshot root denied"
  | .notFound => "file not found: " ++ relativePath
  | .symlink => "symlink access denied: " ++ relativePath
  | .resolution => "path resolution denied: " ++ relativePath
  | .rootUnavailable => "snapshot root unavailable"
  | .escape => "symlink escape denied: " ++ relativePath
  | .nonRegular => "non-regular snapshot file denied: " ++ relativePath

def joinPath (first second : String) : String :=
  String.ofList (joinTwo first.toList second.toList)

/-- The loop of `SafePath` over the elements below the source root. -/
def checkComponents (current : String) : List (List Char) → Except Refusal Unit
  | [] => .ok ()
  | component :: rest =>
    if component = [] ∨ component = ['.'] then checkComponents current rest
    else
      let current := joinPath current (String.ofList component)
      match fs.lstat current with
      | none => .error .notFound
      | some .symlink => .error .symlink
      | some _ => checkComponents current rest

def locate (sourceRoot cleaned : String) : Except Refusal String := do
  if cleaned = "." ∨ isAbs cleaned.toList ∨ "../".toList.isPrefixOf cleaned.toList ∨
      cleaned = ".." then
    throw .traversal
  if fs.lstat sourceRoot ≠ some .directory then throw .root
  let fullPath := joinPath sourceRoot cleaned
  let some kind := fs.lstat fullPath | throw .notFound
  if kind = .symlink then throw .symlink
  let some relativeFromRoot := rel sourceRoot.toList fullPath.toList | throw .resolution
  checkComponents fs sourceRoot (relativeFromRoot.splitOn '/')
  let some rootReal := fs.evalSymlinks sourceRoot | throw .rootUnavailable
  let some pathReal := fs.evalSymlinks fullPath | throw .notFound
  match rel rootReal.toList pathReal.toList with
  | none => throw .escape
  | some inside =>
    if inside = up ∨ "../".toList.isPrefixOf inside then throw .escape
    if kind ≠ .regular then throw .nonRegular
    return pathReal

def safePath (sourceRoot relativePath : String) : Except Refusal String :=
  if (canReadByAgent relativePath 0).allowed then locate fs sourceRoot (cleanPath relativePath)
  else .error .accessDenied

end SnapshotPolicy

open SnapshotPolicy

structure Buffering where
  cut : Bytes → Reader
  reads : ∀ content, (cut content).Reads content

structure LocalSnapshotStore where
  getSourcePath : String → String → String
  fs : FileSystem

namespace LocalSnapshotStore

variable (store : LocalSnapshotStore)

def denied (relativePath : String) (decision : Decision) : SnapshotErr :=
  .message ("snapshot file access denied: " ++ relativePath ++ " (" ++ decision.reason ++ ")")

def readFileRangeAt (buffering : Buffering) (sourceRoot relativePath : String)
    (startLine endLine maxBytes : Int) (stopAtEnd : Bool) : Except SnapshotErr FileRange := do
  let fullPath ← (safePath store.fs sourceRoot relativePath).mapError
    fun refusal => .message (refusal.text relativePath)
  let some content := store.fs.content fullPath | throw (.message "failed to read file")
  readRange (buffering.cut content) (cleanPath relativePath) startLine endLine maxBytes stopAtEnd

def readFileRange (buffering : Buffering) (repoID snapshotID relativePath : String)
    (startLine endLine maxBytes : Int) (stopAtEnd : Bool) : Except SnapshotErr FileRange :=
  let sourceRoot := store.getSourcePath repoID snapshotID
  let decision := canReadFromSnapshot store.fs sourceRoot relativePath
  if decision.allowed then
    store.readFileRangeAt buffering sourceRoot relativePath startLine endLine maxBytes stopAtEnd
  else .error (denied relativePath decision)

def readFileRangeBounded (buffering : Buffering) (repoID snapshotID relativePath : String)
    (startLine endLine maxBytes : Int) : Except SnapshotErr FileRange :=
  store.readFileRange buffering repoID snapshotID relativePath startLine endLine maxBytes true

def fileExists (repoID snapshotID relativePath : String) : Bool :=
  let sourceRoot := store.getSourcePath repoID snapshotID
  (canReadFromSnapshot store.fs sourceRoot relativePath).allowed &&
    match safePath store.fs sourceRoot relativePath with
    | .error _ => false
    | .ok fullPath =>
      match store.fs.lstat fullPath with
      | none => false
      | some kind => kind != .directory && kind != .symlink

end LocalSnapshotStore

theorem cleanPath_cleanPath (path : String) : cleanPath (cleanPath path) = cleanPath path := by
  simp [cleanPath, Paths.clean_clean]

namespace SnapshotPolicy

variable {path sourceRoot : String}

theorem evaluate_spelling (plain : '\\' ∉ path.toList) (size : Int) :
    evaluate (cleanPath path) size = evaluate path size := by
  have plain_ : '\\' ∉ (cleanPath path).toList := by
    intro member
    simp only [cleanPath, String.toList_ofList] at member
    exact plain (Paths.mem_of_mem_clean member (by decide) (by decide))
  unfold evaluate
  simp only [plain, plain_, or_false]
  simp only [cleanPath, String.toList_ofList, Paths.clean_clean, Paths.isAbs_clean]

theorem plain_of_allowed {size : Int} (allowed : (evaluate path size).allowed) :
    0 ≤ size ∧ '\\' ∉ path.toList := by
  unfold evaluate at allowed
  by_cases invalid : size < 0 ∨ '\\' ∈ path.toList
  · simp [invalid, Decision.deny] at allowed
  · rw [not_or] at invalid
    exact ⟨by omega, invalid.2⟩

theorem evaluate_cleanPath {size : Int} (allowed : (evaluate path size).allowed) :
    evaluate (cleanPath path) size = evaluate path size :=
  evaluate_spelling (plain_of_allowed allowed).2 size

theorem Manifest.contains_cleanPath {manifest : Manifest} (allowed : (evaluate path 0).allowed) :
    manifest.contains (cleanPath path) = manifest.contains path := by
  simp only [Manifest.contains, canReadByAgent, evaluate_cleanPath allowed, cleanPath_cleanPath]

variable (fs : FileSystem)

theorem canReadFromSnapshot_cleanPath (allowed : (evaluate path 0).allowed) :
    canReadFromSnapshot fs sourceRoot (cleanPath path) =
      canReadFromSnapshot fs sourceRoot path := by
  unfold canReadFromSnapshot canReadByAgent
  rw [evaluate_cleanPath allowed]
  simp only [Manifest.contains_cleanPath allowed]

theorem canIssueEvidenceFromSnapshot_cleanPath (allowed : (evaluate path 0).allowed) :
    canIssueEvidenceFromSnapshot fs sourceRoot (cleanPath path) =
      canIssueEvidenceFromSnapshot fs sourceRoot path := by
  unfold canIssueEvidenceFromSnapshot canIssueEvidence
  rw [evaluate_cleanPath allowed, canReadFromSnapshot_cleanPath fs allowed]

theorem safePath_cleanPath (allowed : (evaluate path 0).allowed) :
    safePath fs sourceRoot (cleanPath path) = safePath fs sourceRoot path := by
  unfold safePath canReadByAgent
  rw [evaluate_cleanPath allowed, cleanPath_cleanPath]

theorem canIssueEvidenceFromSnapshot_allowed :
    (canIssueEvidenceFromSnapshot fs sourceRoot path).allowed ↔
      (evaluate path 0).allowed ∧ (canReadFromSnapshot fs sourceRoot path).allowed := by
  simp only [canIssueEvidenceFromSnapshot, canIssueEvidence]
  by_cases allowed : (evaluate path 0).allowed = true
  · by_cases readable : (canReadFromSnapshot fs sourceRoot path).allowed = true
    · simp [allowed, readable]
    · simp [allowed, readable]
  · simp [allowed]

end SnapshotPolicy

end RepoLens
