import RepoLens.Evidence
import RepoLens.Lib.Interleaving

/-!
`internal/retrieval/artifact/publisher.go` with its callers: executions write an index into a
staging directory, rename it into place and finalize the row of their build, while the periodic
cleanup removes old directories that no row refers to.
-/

namespace RepoLens

namespace Artifacts

open Interleaving Evidence

structure Manifest where
  retrievalBuildID : Int
  strategy : String
  documentCount : Int
  artifactHash : String
  createdAt : Nat

/-- `Save` and `Load` of `bm25`, and the JSON of a manifest. -/
structure Codec (Index : Type) where
  save : Index → Bytes
  load : Bytes → Except String Index
  totalDocs : Index → Int
  marshal : Manifest → Bytes
  unmarshal : Bytes → Except String Manifest
  faithful : ∀ manifest, unmarshal (marshal manifest) = .ok manifest

/-- The elements of a path below the base directory. -/
abbrev Path := List String

inductive File where
  | index
  | manifest
  deriving DecidableEq

structure Dir where
  files : File → Option Bytes
  modTime : Nat

/-- What `retrieval_builds` keeps of a READY build. -/
structure Row where
  buildID : Int
  artifactPath : Path
  artifactHash : String
  deriving DecidableEq

/-- `os.DirEntry` -/
structure Entry where
  name : String
  isDir : Bool
  symlink : Bool

inductive Listing where
  | missing
  | failed (err : String)
  | entries (entries : List Entry)

/-- One claim's execution of a build; `suffix` is what `MkdirTemp` draws. -/
structure Execution (Index : Type) where
  buildID : Int
  generation : Int
  claimToken : String
  index : Index
  suffix : String

namespace Execution

variable {Index : Type}

/-- `RetrievalJobHandler.Execute` raises the generation to 1. -/
def executionGeneration (x : Execution Index) : Int := if x.generation < 1 then 1 else x.generation

def claimKey (sha : Sha256) (x : Execution Index) : String :=
  sha.hex (Utf8.ofString (if x.claimToken = "" then "default-token" else x.claimToken))

def tmpDir (x : Execution Index) : Path :=
  [".tmp", toString x.buildID ++ "-" ++ toString x.executionGeneration ++ "-" ++ x.suffix]

def finalDir (sha : Sha256) (x : Execution Index) : Path :=
  [toString x.buildID, "gen-" ++ toString x.executionGeneration, x.claimKey sha]

end Execution

/-- The executions of one index directory. Claim tokens and suffixes are random, so no two of them
share a directory. -/
structure Publisher (Index E : Type) where
  sha : Sha256
  codec : Codec Index
  baseDir : String
  strategy : Int → String
  ttl : Nat
  execution : E → Execution Index
  tmpDir_apart : ∀ {one two}, (execution one).tmpDir = (execution two).tmpDir → one = two
  finalDir_apart : ∀ {one two},
    (execution one).finalDir sha = (execution two).finalDir sha → one = two

/-- `io` stands for calls that do not change the modelled part of a directory, and `write` for those
that leave a file with this content: also an `OpenFile` with `O_CREATE` and `O_TRUNC`. -/
inductive Call where
  | io
  | now
  | mkdirTemp (dir : Path)
  | write (dir : Path) (file : File) (data : Bytes)
  | read (dir : Path) (file : File)
  | rename (old new : Path)
  | finalize (row : Row)
  | pluck
  | readDir (dir : Path)
  | info (dir : Path)
  | removeFile (dir : Path) (file : File)
  | removeDir (dir : Path)

def Reply : Call → Type
  | .now => Nat
  | .read .. => Except String Bytes
  | .pluck => Except String (List Path)
  | .readDir _ => Listing
  | .info _ => Except String Nat
  | _ => Except String Unit

abbrev Api : Interface := ⟨Call, Reply⟩

abbrev Prog (α : Type) := Program Api α

def ask (c : Call) : Prog (Reply c) := @Program.ask Api c

section Source

variable {Index E α β : Type}

/-- Go on after a success, and return the error under a text otherwise. -/
def check (text : String) (first : Prog (Except String α)) (next : α → Prog (Except String β)) :
    Prog (Except String β) := do
  match ← first with
  | .error err => pure (.error (text ++ err))
  | .ok a => next a

/-- As `check`, but the index file is closed before the error is returned. -/
def checkClosing (text closing : String) (first : Prog (Except String Unit))
    (next : Prog (Except String β)) : Prog (Except String β) := do
  match ← first with
  | .ok () => next
  | .error err =>
    check (text ++ err ++ "\n" ++ closing) (ask .io) fun _ => pure (.error (text ++ err))

def writeFile (dir : Path) (file : File) (data : Bytes) : Prog (Except String Unit) :=
  check "" (ask (.write dir file [])) fun _ =>
  check "" (ask (.write dir file data)) fun _ => ask .io

/-- `os.RemoveAll` on a directory with these two files: what cannot be removed is passed over, and
reported if it keeps the directory. -/
def removeAll (dir : Path) : Prog (Except String Unit) := do
  let index ← ask (.removeFile dir .index)
  let manifest ← ask (.removeFile dir .manifest)
  match ← ask (.removeDir dir) with
  | .ok () => pure (.ok ())
  | .error err =>
    match index, manifest with
    | .error first, _ => pure (.error first)
    | .ok (), .error second => pure (.error second)
    | .ok (), .ok () => pure (.error err)

namespace Publisher

variable (p : Publisher Index E)

def pathText (dir : Path) : String := "/".intercalate (p.baseDir :: dir)

/-- `Publish` between `MkdirTemp` and its end. -/
def build (x : Execution Index) : Prog (Except String (Path × String)) :=
  check "failed creating index file: " (ask (.write x.tmpDir .index [])) fun _ =>
  checkClosing "failed saving index: " "failed closing index file after save error: "
    (ask (.write x.tmpDir .index (p.codec.save x.index))) <|
  checkClosing "failed syncing index file: " "failed closing index file after sync error: "
    (ask .io) <|
  check "failed closing index file: " (ask .io) fun _ =>
  check "" (ask .io) fun _ =>
  check "" (ask (.read x.tmpDir .index)) fun data => do
  let createdAt ← ask .now
  let manifest : Manifest :=
    ⟨x.buildID, p.strategy x.buildID, p.codec.totalDocs x.index, p.sha.hex data, createdAt⟩
  check "failed writing manifest: "
    (writeFile x.tmpDir .manifest (p.codec.marshal manifest)) fun _ =>
  check "failed creating artifact generation dir: " (ask .io) fun _ =>
  check ("failed atomically renaming artifact dir to " ++ p.pathText (x.finalDir p.sha) ++ ": ")
    (ask (.rename x.tmpDir (x.finalDir p.sha))) fun _ =>
  pure (.ok (x.finalDir p.sha, p.sha.hex data))

def publish (x : Execution Index) : Prog (Except String (Path × String)) :=
  if x.executionGeneration < 1 then pure (.error "execution generation must be positive")
  else
    check "failed creating artifact staging root: " (ask .io) fun _ =>
    check "failed creating staging artifact dir: " (ask (.mkdirTemp x.tmpDir)) fun _ => do
      match ← p.build x with
      | .ok published => pure (.ok published)
      | .error err =>
        check (err ++ "\nfailed cleaning temporary artifact directory: ") (removeAll x.tmpDir)
          fun _ => pure (.error err)

/-- `RetrievalJobHandler.Execute` once the index is built. -/
def execute (x : Execution Index) : Prog Unit := do
  match ← p.publish x with
  | .error _ => pure ()
  | .ok (path, hash) =>
    let _ ← ask (.finalize ⟨x.buildID, path, hash⟩)
    pure ()

end Publisher

def isHexString (value : String) : Bool :=
  value.toList.all fun r => ('0' ≤ r && r ≤ '9') || ('a' ≤ r && r ≤ 'f') || ('A' ≤ r && r ≤ 'F')

/-- `strconv.ParseInt` with base 10 and 64 bits. -/
def parseInt (value : String) : Option Int :=
  let (sign, digits) : Int × List Char := match value.toList with
    | '-' :: rest => (-1, rest)
    | '+' :: rest => (1, rest)
    | digits => (1, digits)
  let n := sign * (digits.foldl (fun n c => 10 * n + (c.toNat - 48)) 0 : Nat)
  if digits = [] ∨ !digits.all Char.isDigit ∨ n < -2 ^ 63 ∨ 2 ^ 63 ≤ n then none else some n

def isGeneration (name : String) : Bool :=
  match "gen-".toList.isPrefixOf name.toList, parseInt (String.ofList (name.toList.drop 4)) with
  | true, some n => decide (1 ≤ n)
  | _, _ => false

/-- The directories removed so far, and the error that ended the cleanup. -/
abbrev Cleaned := Nat × Option String

def each (step : Entry → Nat → Prog Cleaned) : List Entry → Nat → Prog Cleaned
  | [], removed => pure (removed, none)
  | entry :: rest, removed => do
      match ← step entry removed with
      | (removed, none) => each step rest removed
      | stopped => pure stopped

def eachIn (dir : Path) (step : Entry → Nat → Prog Cleaned) (removed : Nat) : Prog Cleaned := do
  match ← ask (.readDir dir) with
  | .entries entries => each step entries removed
  | .failed err => pure (removed, some err)
  | .missing => pure (removed, some "no such file or directory")

def removeOlder (olderThan : Nat) (dir : Path) (removed : Nat) : Prog Cleaned := do
  match ← ask (.info dir) with
  | .error err => pure (removed, some err)
  | .ok modTime =>
    if modTime < olderThan then
      match ← removeAll dir with
      | .error err => pure (removed, some err)
      | .ok () => pure (removed + 1, none)
    else pure (removed, none)

def Entry.plainDir (entry : Entry) : Bool := entry.isDir && !entry.symlink

def cleanClaim (refs : List Path) (olderThan : Nat) (build generation : String) (claim : Entry)
    (removed : Nat) : Prog Cleaned :=
  if claim.name.utf8ByteSize ≠ 64 ∨ !isHexString claim.name ∨ !claim.plainDir then
    pure (removed, none)
  else if [build, generation, claim.name] ∈ refs then pure (removed, none)
  else removeOlder olderThan [build, generation, claim.name] removed

def cleanTmp (olderThan : Nat) (tmp : Entry) (removed : Nat) : Prog Cleaned :=
  if !tmp.plainDir then pure (removed, none) else removeOlder olderThan [".tmp", tmp.name] removed

def cleanBuild (refs : List Path) (olderThan : Nat) (build : Entry) (removed : Nat) :
    Prog Cleaned :=
  if build.name = ".tmp" then eachIn [".tmp"] (cleanTmp olderThan) removed
  else if (parseInt build.name).isNone ∨ !build.plainDir then pure (removed, none)
  else
    eachIn [build.name] (fun generation removed =>
      if !isGeneration generation.name ∨ !generation.plainDir then pure (removed, none)
      else eachIn [build.name, generation.name]
        (cleanClaim refs olderThan build.name generation.name) removed) removed

def cleanupUnreferenced (refs : List Path) (olderThan : Nat) : Prog Cleaned := do
  match ← ask (.readDir []) with
  | .missing => pure (0, none)
  | .failed err => pure (0, some err)
  | .entries entries => each (cleanBuild refs olderThan) entries 0

/-- `runArtifactCleanup` once, with the part of `Cleanup` that is about the index directory. -/
def cleanup (ttl : Nat) : Prog Cleaned := do
  let now : Nat ← ask .now
  match ← ask .pluck with
  | .error err => pure (0, some err)
  | .ok refs => cleanupUnreferenced refs (now - ttl)

end Source

structure World (E : Type) where
  clock : Nat
  dirs : Path → Option Dir
  rows : List Row
  started : E → Option Nat

namespace World

variable {E : Type}

def put (w : World E) (dir : Path) (content : Option Dir) : World E :=
  { w with dirs := Function.update w.dirs dir content }

/-- The execution has been started, and the time that a cleanup grants has not passed since. -/
def live (w : World E) (ttl : Nat) (e : E) : Bool :=
  (w.started e).any fun t => w.clock ≤ t + ttl

end World

/-- What the outside decides about a call: its error, what a failed write leaves of the file,
whether a failed finalization has committed, and the entries of a directory. -/
structure Oracle where
  fault : Option String
  left : Option Bytes
  committed : Bool
  listing : Listing

def Oracle.answer {α : Type} (o : Oracle) (a : α) : Except String α :=
  match o.fault with
  | some err => .error err
  | none => .ok a

section Machine

variable {E : Type}

def Dir.write (d : Dir) (file : File) (data : Option Bytes) (now : Nat) : Dir :=
  ⟨Function.update d.files file data, now⟩

def Dir.isEmpty (d : Dir) : Bool := (d.files .index).isNone && (d.files .manifest).isNone

/-- A call on a directory that has to be there. -/
def within (w : World E) (dir : Path) (f : Dir → Except String Unit × World E) :
    Except String Unit × World E :=
  match w.dirs dir with
  | none => (.error "no such file or directory", w)
  | some d => f d

def effect (w : World E) (o : Oracle) : (c : Call) → Reply c × World E
  | .io => (o.answer (), w)
  | .now => (w.clock, w)
  | .mkdirTemp dir =>
    if o.fault.isNone && (w.dirs dir).isNone then
      (.ok (), w.put dir (some ⟨fun _ => none, w.clock⟩))
    else (.error (o.fault.getD "file exists"), w)
  | .write dir file data => within w dir fun d =>
      (o.answer (), w.put dir (some (d.write file (if o.fault.isSome then o.left else some data)
        (if (d.files file).isSome then d.modTime else w.clock))))
  | .read dir file =>
    (match (w.dirs dir).bind (·.files file) with
      | none => .error "no such file or directory"
      | some data => o.answer data, w)
  | .rename old new => within w old fun d =>
    if o.fault.isNone && (w.dirs new).all Dir.isEmpty then
      (.ok (), (w.put old none).put new (some d))
    else (.error (o.fault.getD "file exists"), w)
  | .finalize row =>
    (o.answer (),
      if o.fault.isNone || o.committed then
        { w with rows := row :: w.rows.filter (·.buildID ≠ row.buildID) }
      else w)
  | .pluck => (o.answer (w.rows.map Row.artifactPath), w)
  | .readDir _ => (o.listing, w)
  | .info dir =>
    (match w.dirs dir with
      | none => .error "no such file or directory"
      | some d => o.answer d.modTime, w)
  | .removeFile dir file =>
    match o.fault, w.dirs dir with
    | some err, _ => (.error err, w)
    | none, none => (.ok (), w)
    | none, some d => (.ok (), w.put dir (some (d.write file none w.clock)))
  | .removeDir dir =>
    match o.fault, w.dirs dir with
    | some err, _ => (.error err, w)
    | none, none => (.ok (), w)
    | none, some d =>
      if d.isEmpty then (.ok (), w.put dir none) else (.error "directory not empty", w)

inductive Proc (E : Type) where
  | execution (e : E)
  | cleaner (n : Nat)
  deriving DecidableEq

/-- A retry resets the row of a build. -/
inductive Move (E : Type) where
  | tick
  | start (e : E)
  | clean (n : Nat)
  | reset (buildID : Int)

variable {Index : Type} [DecidableEq E]

/-- Executions that take longer than the cleanup grants are not part of the system: they make no
calls any more. -/
def system (p : Publisher Index E) : Machine Api (World E) (Proc E) Oracle (Move E) where
  perform
    | .execution e, c, w, o => if w.live p.ttl e then some (effect w o c) else none
    | .cleaner _, c, w, o => some (effect w o c)
  move
    | .tick, w => some ({ w with clock := w.clock + 1 }, [])
    | .start e, w =>
      if (w.started e).isSome then none
      else some ({ w with started := Function.update w.started e (some w.clock) },
        [(.execution e, p.execute (p.execution e))])
    | .clean n, w => some (w, [(.cleaner n, do let _ ← cleanup p.ttl; pure ())])
    | .reset buildID, w => some ({ w with rows := w.rows.filter (·.buildID ≠ buildID) }, [])

def initial : State Api (World E) (Proc E) := ⟨⟨0, fun _ => none, [], fun _ => none⟩, fun _ => none⟩

end Machine

def Publisher.loadIndexVerified {Index E : Type} (p : Publisher Index E) (w : World E) (dir : Path)
    (expectedBuildID : Int) (expectedHash : String) (expectedStrategy : Option String) :
    Except String Index :=
  match (w.dirs dir).bind (·.files .manifest) with
  | none =>
    .error ("failed opening artifact manifest at " ++ p.pathText (dir ++ ["manifest.json"]) ++
      ": no such file or directory")
  | some manifestBytes =>
    match p.codec.unmarshal manifestBytes with
    | .error err => .error ("invalid artifact manifest: " ++ err)
    | .ok manifest =>
      if 0 < expectedBuildID ∧ manifest.retrievalBuildID ≠ expectedBuildID then
        .error ("artifact build id mismatch: manifest=" ++ toString manifest.retrievalBuildID ++
          " expected=" ++ toString expectedBuildID)
      else if expectedStrategy.any (manifest.strategy ≠ ·) then
        .error ("retrieval artifact strategy mismatch: manifest=" ++ manifest.strategy ++
          " expected=" ++ expectedStrategy.getD "")
      else
        match (w.dirs dir).bind (·.files .index) with
        | none => .error ("failed opening index artifact at " ++
            p.pathText (dir ++ ["index.json"]) ++ ": no such file or directory")
        | some data =>
          if manifest.artifactHash = "" ∨ p.sha.hex data ≠ manifest.artifactHash ∨
              (expectedHash ≠ "" ∧ p.sha.hex data ≠ expectedHash) then
            .error "retrieval artifact hash mismatch"
          else p.codec.load data

end Artifacts

end RepoLens
