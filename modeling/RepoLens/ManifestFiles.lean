import RepoLens.SnapshotManifest
import RepoLens.Lib.Wire

/-!
`WriteManifest` and what `LoadManifest` reads back: the manifest is checked, written to a
temporary file and renamed.
-/

namespace RepoLens

namespace SnapshotPolicy

open Paths

/-- `NewManifest`; the order of entries with one path is not specified there. -/
def newManifest (snapshotID commitSHA contentHash : String) (files : List FileEntry) : Manifest :=
  ⟨manifestVersion, snapshotID, commitSHA, contentHash, sortedFiles files⟩

def Manifest.allowedPaths (manifest : Manifest) : List String :=
  (manifest.files.filter fun file => (canIndex file.path file.size).allowed &&
    file.visibility == visibilityAgentReadable).map FileEntry.path

def manifestFileName : String := ".repolens-snapshot-manifest.json"

def manifestPath (sourceRoot : String) : String :=
  joinPath (String.ofList (dir sourceRoot.toList)) manifestFileName

structure ManifestCodec where
  marshal : Manifest → Bytes
  unmarshal : Bytes → Option Manifest
  faithful : ∀ manifest, unmarshal (marshal manifest) = some manifest

abbrev Disk := String → Option Bytes

/-- The errors of the file system in a `WriteManifest`: a failed write leaves something of the
temporary file, whose removal may fail. -/
structure WriteFaults where
  write : Option (Option Bytes × String)
  rename : Option String
  removed : Bool

inductive WriteErr where
  | version (version : Int)
  | identity
  | entry (path : String)
  | io (text : String)
  deriving DecidableEq, Repr

/-- The loop of `WriteManifest` over the sorted entries. -/
def checkUnique : Option String → List FileEntry → Except WriteErr Unit
  | _, [] => .ok ()
  | before, file :: files =>
    if before = some file.path ∨ canonicalEntry file = false then .error (.entry file.path)
    else checkUnique (some file.path) files

def replaceFile (faults : WriteFaults) (path : String) (data : Bytes) (disk : Disk) :
    Except WriteErr Unit × Disk :=
  let tmp := path ++ ".tmp"
  match faults.write with
  | some (left, err) => (.error (.io err), Function.update disk tmp left)
  | none =>
    match faults.rename with
    | some err =>
      (.error (.io err), Function.update disk tmp (if faults.removed then none else some data))
    | none => (.ok (), Function.update (Function.update disk tmp none) path (some data))

def writeManifest (codec : ManifestCodec) (faults : WriteFaults) (sourceRoot : String)
    (manifest : Manifest) (disk : Disk) : Except WriteErr Unit × Disk :=
  if manifest.version ≠ manifestVersion then (.error (.version manifest.version), disk)
  else if manifest.snapshotID = "" ∨ manifest.commitSHA = "" ∨
      validHash manifest.contentHash = false then
    (.error .identity, disk)
  else
    let manifest :=
      newManifest manifest.snapshotID manifest.commitSHA manifest.contentHash manifest.files
    match checkUnique none manifest.files with
    | .error err => (.error err, disk)
    | .ok () => replaceFile faults (manifestPath sourceRoot) (codec.marshal manifest) disk

def Disk.manifestFile (codec : ManifestCodec) (disk : Disk) (sourceRoot : String) : ManifestFile :=
  match disk (manifestPath sourceRoot) with
  | none => .missing
  | some data =>
    match codec.unmarshal data with
    | none => .malformed
    | some manifest => .decoded manifest

variable {files : List FileEntry} {manifest : Manifest}

theorem checkUnique_ok_iff {before : Option String} :
    checkUnique before files = .ok () ↔ Fresh before files ∧ Canonical files := by
  induction files generalizing before with
  | nil => simp [checkUnique, Fresh, Canonical]
  | cons file files ih =>
    simp only [checkUnique]
    by_cases bad : before = some file.path ∨ canonicalEntry file = false
    · rw [if_pos bad]
      simp only [Fresh, Canonical, List.forall_mem_cons, reduceCtorEq, false_iff]
      rintro ⟨⟨new, -⟩, canonical, -⟩
      rcases bad with same | excluded
      · exact new same
      · simp [canonical] at excluded
    · rw [if_neg bad, ih]
      simp only [not_or, Bool.not_eq_false] at bad
      simp [Fresh, Canonical, bad.1, bad.2]

theorem checkUnique_sortedFiles_iff : checkUnique none (sortedFiles files) = .ok () ↔
    Increasing (sortedFiles files) ∧ Canonical (sortedFiles files) := by
  rw [checkUnique_ok_iff, fresh_iff (sortedFiles_inOrder files) (by simp)]
  simp

theorem tmp_ne (path : String) : path ≠ path ++ ".tmp" := by
  intro same
  have size := congrArg String.length same
  simp at size

theorem replaceFile_file (faults : WriteFaults) (path : String) (data : Bytes) (disk : Disk) :
    (replaceFile faults path data disk).2 path =
      if (replaceFile faults path data disk).1 = .ok () then some data else disk path := by
  unfold replaceFile
  cases faults.write with
  | some failure => simp [Function.update_of_ne (tmp_ne path)]
  | none =>
    cases faults.rename with
    | some err => simp [Function.update_of_ne (tmp_ne path)]
    | none => simp

theorem writeManifest_cases (codec : ManifestCodec) (faults : WriteFaults)
    (sourceRoot snapshotID commitSHA contentHash : String) (entries : List FileEntry)
    (disk : Disk) :
    let manifest := newManifest snapshotID commitSHA contentHash entries
    (∃ err, writeManifest codec faults sourceRoot manifest disk = (.error err, disk)) ∨
      manifest.Valid ∧ writeManifest codec faults sourceRoot manifest disk =
        replaceFile faults (manifestPath sourceRoot) (codec.marshal manifest) disk := by
  intro manifest
  have again : newManifest manifest.snapshotID manifest.commitSHA manifest.contentHash
      manifest.files = manifest := by
    simp only [manifest, newManifest, sortedFiles_eq (sortedFiles_inOrder entries)]
  have version : ¬ manifest.version ≠ manifestVersion := not_not.mpr rfl
  unfold writeManifest
  rw [if_neg version, again]
  by_cases identity : manifest.snapshotID = "" ∨ manifest.commitSHA = "" ∨
      validHash manifest.contentHash = false
  · rw [if_pos identity]
    exact .inl ⟨_, rfl⟩
  · rw [if_neg identity]
    simp only [not_or, Bool.not_eq_false] at identity
    cases checked : checkUnique none manifest.files with
    | error err => exact .inl ⟨err, by simp only [checked]⟩
    | ok _ =>
      obtain ⟨increasing, canonical⟩ := checkUnique_sortedFiles_iff.mp checked
      exact .inr ⟨⟨rfl, identity.1, identity.2.1, identity.2.2, increasing, canonical⟩,
        by simp only [checked]⟩

theorem Manifest.Valid.allowedPaths_eq (valid : manifest.Valid) :
    manifest.allowedPaths = manifest.files.map FileEntry.path := by
  unfold Manifest.allowedPaths
  rw [List.filter_eq_self.mpr]
  intro file member
  have canonical := valid.canonical file member
  simp only [canonicalEntry, canMaterialize, Bool.and_eq_true] at canonical
  simp only [canIndex, Bool.and_eq_true]
  exact ⟨canonical.1.1.1.2, canonical.1.1.2⟩

theorem Manifest.Valid.mem_paths_iff (valid : manifest.Valid) (path : String) :
    path ∈ manifest.files.map FileEntry.path ↔
      manifest.contains path = true ∧ cleanPath path = path := by
  rw [Manifest.contains_iff valid]
  constructor
  · intro member
    have ⟨allowed, clean_⟩ := allowed_of_mem valid member
    exact ⟨⟨allowed, clean_.symm ▸ member⟩, clean_⟩
  · rintro ⟨⟨-, member⟩, clean_⟩
    exact clean_ ▸ member

theorem Increasing.nodup (increasing : Increasing files) : (files.map FileEntry.path).Nodup :=
  List.pairwise_map.mpr (List.Pairwise.imp ne_of_lt increasing)

/-- `LoadManifest` returns what `WriteManifest` has written; a path that occurs twice or is not
canonical is refused, and a call that fails leaves the file as it was. -/
theorem manifest_round_trip (codec : ManifestCodec) (faults : WriteFaults)
    (sourceRoot snapshotID commitSHA contentHash : String) (entries : List FileEntry)
    (disk : Disk) :
    let manifest := newManifest snapshotID commitSHA contentHash entries
    let written := writeManifest codec faults sourceRoot manifest disk
    (written.1 = .ok () →
      loadManifest (written.2.manifestFile codec sourceRoot) = .ok manifest ∧
        Increasing manifest.files ∧ manifest.files.Perm entries ∧
        manifest.allowedPaths = manifest.files.map FileEntry.path ∧ manifest.allowedPaths.Nodup ∧
        ∀ path, path ∈ manifest.allowedPaths ↔
          manifest.contains path = true ∧ cleanPath path = path) ∧
    (¬ (entries.map FileEntry.path).Nodup ∨ ¬ Canonical entries → ∃ err, written.1 = .error err) ∧
    ∀ err, written.1 = .error err →
      written.2 (manifestPath sourceRoot) = disk (manifestPath sourceRoot) := by
  intro manifest written
  have perm : manifest.files.Perm entries := sortedFiles_perm entries
  rcases writeManifest_cases codec faults sourceRoot snapshotID commitSHA contentHash entries
    disk with
    ⟨err, failed⟩ | ⟨valid, replaced⟩
  · have shape : written = (.error err, disk) := failed
    rw [shape]
    exact ⟨fun stored => (by cases stored), fun _ => ⟨err, rfl⟩, fun _ _ => rfl⟩
  · have file : written.2 (manifestPath sourceRoot) =
        if written.1 = .ok () then
          some (codec.marshal manifest) else disk (manifestPath sourceRoot) := by
      have shape : written = replaceFile faults (manifestPath sourceRoot) (codec.marshal manifest)
          disk :=
        replaced
      rw [shape]
      exact replaceFile_file faults _ _ disk
    refine ⟨fun stored => ?_, fun broken => ?_, fun err failed => ?_⟩
    · have read : written.2.manifestFile codec sourceRoot = .decoded manifest := by
        unfold Disk.manifestFile
        rw [file, if_pos stored]
        simp only [codec.faithful]
      refine ⟨loadManifest_ok_iff.mpr ⟨read, valid⟩, valid.increasing, perm, valid.allowedPaths_eq,
        ?_, ?_⟩
      · rw [valid.allowedPaths_eq]
        exact valid.increasing.nodup
      · intro path
        rw [valid.allowedPaths_eq]
        exact valid.mem_paths_iff path
    · -- the manifest was accepted, so neither is the case
      rcases broken with repeated | excluded
      · exact absurd ((perm.map _).nodup_iff.mp valid.increasing.nodup) repeated
      · exact absurd (fun file member => valid.canonical file (perm.mem_iff.mpr member)) excluded
    · rw [file, if_neg (by rw [failed]; exact fun same => by cases same)]

open Wire.Code in
def entryCode : Wire.Code FileEntry :=
  via (pair string (pair int (pair string (pair string string))))
    (fun file => (file.path, file.size, file.sha256, file.language, file.visibility))
    (fun (path, size, sha256, language, visibility) => ⟨path, size, sha256, language, visibility⟩)
    fun _ => rfl

open Wire.Code in
def manifestCode : Wire.Code Manifest :=
  via (pair int (pair string (pair string (pair string (list entryCode)))))
    (fun m => (m.version, m.snapshotID, m.commitSHA, m.contentHash, m.files))
    (fun (version, snapshotID, commitSHA, contentHash, files) =>
      ⟨version, snapshotID, commitSHA, contentHash, files⟩) fun _ => rfl

def wireCodec : ManifestCodec := ⟨manifestCode.put, manifestCode.read, manifestCode.read_put⟩

def goEntry (path : String) : FileEntry :=
  ⟨path, 1, String.ofList (List.replicate 64 '0'), "go", visibilityAgentReadable⟩

/-- Two entries that come in the wrong order. -/
theorem manifest_round_trip_two :
    let manifest := newManifest "snap" "commit" (String.ofList (List.replicate 64 'a'))
      [goEntry "src/b.go", goEntry "a.go"]
    let written := writeManifest wireCodec ⟨none, none, true⟩ "/repo/source" manifest fun _ => none
    written.1 = .ok () ∧
      loadManifest (written.2.manifestFile wireCodec "/repo/source") = .ok manifest ∧
      manifest.allowedPaths = ["a.go", "src/b.go"] := by
  intro manifest written
  have stored : written.1 = .ok () := by decide +kernel
  have loaded := (manifest_round_trip wireCodec ⟨none, none, true⟩ "/repo/source" "snap" "commit"
    (String.ofList (List.replicate 64 'a')) [goEntry "src/b.go", goEntry "a.go"] fun _ =>
      none).1 stored
  exact ⟨stored, loaded.1, by decide +kernel⟩

end SnapshotPolicy

end RepoLens
