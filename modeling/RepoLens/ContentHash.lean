import RepoLens.EvidenceIssue

/-!
The content hash of `SnapshotJobHandler.Execute` in `internal/indexing`.
-/

namespace RepoLens

open Evidence

namespace Materialization

/-- A regular file that the walk comes to. -/
structure SourceFile where
  relPath : Bytes
  content : Bytes
  deriving DecidableEq, Repr

structure Limits where
  isExplicitlyIgnoredFile : Bytes → Bool
  maxFileSizeKB : Int
  maxFileCount : Int
  maxIndexableSourceBytes : Int

inductive WalkErr where
  | fileTooLarge (relPath : Bytes)
  | tooManyFiles (maxFileCount : Int)
  | repositoryTooLarge (maxBytes : Int)
  deriving DecidableEq, Repr

structure Walked where
  manifest : List Bytes
  fileCount : Nat
  totalBytes : Nat
  deriving DecidableEq, Repr

def nul : UInt8 := 0

/-- `relPath+"\x00"+string(content)` -/
def SourceFile.entry (file : SourceFile) : Bytes := file.relPath ++ nul :: file.content

def visit (limits : Limits) (walked : Walked) (file : SourceFile) : Except WalkErr Walked :=
  let size := file.content.length
  if limits.isExplicitlyIgnoredFile file.relPath then .ok walked
  else if limits.maxFileSizeKB * 1024 < size then .error (.fileTooLarge file.relPath)
  else if 0 < limits.maxFileCount ∧ limits.maxFileCount ≤ walked.fileCount then
    .error (.tooManyFiles limits.maxFileCount)
  else if 0 < limits.maxIndexableSourceBytes ∧
      limits.maxIndexableSourceBytes < walked.totalBytes + size then
    .error (.repositoryTooLarge limits.maxIndexableSourceBytes)
  else
    .ok ⟨walked.manifest ++ [file.entry], walked.fileCount + 1, walked.totalBytes + size⟩

/-- `walkFiles` over the files in some order. -/
def walk (limits : Limits) : List SourceFile → Walked → Except WalkErr Walked
  | [], walked => .ok walked
  | file :: files, walked =>
    match visit limits walked file with
    | .error err => .error err
    | .ok walked => walk limits files walked

def sortStrings (entries : List Bytes) : List Bytes := entries.insertionSort (· ≤ ·)

def hashManifest (sha : Sha256) (manifest : List Bytes) : String :=
  sha.hex (sortStrings manifest).flatten

def contentHash (sha : Sha256) (limits : Limits) (files : List SourceFile) :
    Except WalkErr String :=
  (walk limits files ⟨[], 0, 0⟩).map fun walked => hashManifest sha walked.manifest

def indexed (limits : Limits) (files : List SourceFile) : List SourceFile :=
  files.filter fun file => !limits.isExplicitlyIgnoredFile file.relPath

instance bytesTotal : Std.Total fun one two : Bytes => one ≤ two := ⟨List.le_total⟩

instance bytesTrans : IsTrans Bytes fun one two => one ≤ two := ⟨fun _ _ _ => List.le_trans⟩

theorem walk_manifest {limits : Limits} {files : List SourceFile} {before after : Walked}
    (walked : walk limits files before = .ok after) :
    after.manifest = before.manifest ++ (indexed limits files).map SourceFile.entry := by
  induction files generalizing before with
  | nil =>
    simp only [walk, Except.ok.injEq] at walked
    simp [indexed, walked]
  | cons file files ih =>
    simp only [walk] at walked
    cases step : visit limits before file with
    | error err => simp [step] at walked
    | ok next =>
      simp only [step] at walked
      rw [ih walked]
      simp only [visit] at step
      by_cases ignored : limits.isExplicitlyIgnoredFile file.relPath = true
      · simp only [ignored, if_true, Except.ok.injEq] at step
        simp [indexed, ignored, step]
      · rw [if_neg ignored] at step
        split_ifs at step
        cases step
        simp [indexed, ignored]

theorem contentHash_ok {sha : Sha256} {limits : Limits} {files : List SourceFile} {hash : String}
    (hashed : contentHash sha limits files = .ok hash) :
    hash = hashManifest sha ((indexed limits files).map SourceFile.entry) := by
  unfold contentHash at hashed
  cases done : walk limits files ⟨[], 0, 0⟩ with
  | error err => simp [done, Except.map] at hashed
  | ok walked =>
    have manifest := walk_manifest done
    rw [List.nil_append] at manifest
    simp only [done, Except.map, Except.ok.injEq] at hashed
    rw [← hashed, manifest]

theorem sortStrings_eq_iff {entries others : List Bytes} :
    sortStrings entries = sortStrings others ↔ entries.Perm others := by
  constructor
  · intro same
    have first := List.perm_insertionSort (fun one two : Bytes => one ≤ two) entries
    have second := List.perm_insertionSort (fun one two : Bytes => one ≤ two) others
    exact first.symm.trans ((List.Perm.of_eq same).trans second)
  · intro perm
    apply List.Perm.eq_of_pairwise (fun _ _ _ _ => List.le_antisymm)
      (List.pairwise_insertionSort _ entries) (List.pairwise_insertionSort _ others)
    exact (List.perm_insertionSort _ entries).trans
      (perm.trans (List.perm_insertionSort _ others).symm)

def Plain (files : List SourceFile) : Prop := ∀ file ∈ files, nul ∉ file.relPath

def rows (files : List SourceFile) : List Bytes := sortStrings (files.map SourceFile.entry)

/-- Two sets of files whose entries, one behind the other, are the same bytes, cut into
entries at different places. -/
def Recut (files others : List SourceFile) : Prop :=
  (rows files).flatten = (rows others).flatten ∧
    (rows files).map List.length ≠ (rows others).map List.length

theorem read_entry {file : SourceFile} (plain : nul ∉ file.relPath) :
    (⟨file.entry.takeWhile (· ≠ nul), (file.entry.dropWhile (· ≠ nul)).tail⟩ : SourceFile) =
      file := by
  have before : ∀ b ∈ file.relPath, decide (b ≠ nul) = true := by
    intro b member
    simp only [decide_eq_true_eq]
    rintro rfl
    exact plain member
  rw [SourceFile.entry, List.takeWhile_append_of_pos before, List.dropWhile_append_of_pos before]
  simp

theorem perm_map_entry {files others : List SourceFile} (plain : Plain files)
    (plain_ : Plain others) :
    (files.map SourceFile.entry).Perm (others.map SourceFile.entry) ↔ files.Perm others := by
  constructor
  · intro perm
    let read (entry : Bytes) : SourceFile :=
      ⟨entry.takeWhile (· ≠ nul), (entry.dropWhile (· ≠ nul)).tail⟩
    have back {list : List SourceFile} (plain : Plain list) :
        (list.map SourceFile.entry).map read = list := by
      induction list with
      | nil => rfl
      | cons file list ih =>
        rw [List.map_cons, List.map_cons, ih fun other member => plain other (by simp [member]),
          List.cons.injEq]
        exact ⟨read_entry (plain file (by simp)), rfl⟩
    rw [← back plain, ← back plain_]
    exact perm.map read
  · exact List.Perm.map _

theorem rows_eq_iff {files others : List SourceFile} (plain : Plain files) (plain_ : Plain others) :
    rows files = rows others ↔ files.Perm others := by
  rw [rows, rows, sortStrings_eq_iff, perm_map_entry plain plain_]

/-- The content hashes of two walks are equal exactly for equal sets of files, if no two sets make
up the same bytes. -/
theorem content_hash_determines_iff (sha : Sha256) (limits : Limits)
    (files others : List SourceFile) (plain : Plain (indexed limits files))
    (plain_ : Plain (indexed limits others))
    (apart : sha.Apart (rows (indexed limits files)).flatten (rows (indexed limits others)).flatten)
    (hash hash_ : String) (walked walked_ : List SourceFile) (order : walked.Perm files)
    (order_ : walked_.Perm others) (hashed : contentHash sha limits walked = .ok hash)
    (hashed_ : contentHash sha limits walked_ = .ok hash_) :
    (hash = hash_ ↔ (indexed limits files).Perm (indexed limits others)) ↔
      ¬ Recut (indexed limits files) (indexed limits others) := by
  have digest {walked files : List SourceFile} {hash : String} (order : walked.Perm files)
      (hashed : contentHash sha limits walked = .ok hash) :
      hash = sha.hex (rows (indexed limits files)).flatten := by
    have kept : (indexed limits walked).Perm (indexed limits files) := order.filter _
    have sorted := sortStrings_eq_iff.mpr (kept.map SourceFile.entry)
    rw [contentHash_ok hashed, hashManifest, sorted, rows]
  have hashes : hash = hash_ ↔
      (rows (indexed limits files)).flatten = (rows (indexed limits others)).flatten := by
    rw [digest order hashed, digest order_ hashed_]
    exact ⟨apart, congrArg sha.hex⟩
  rw [hashes, ← rows_eq_iff plain plain_, List.eq_iff_flatten_eq, Recut]
  tauto

def unlimited : Limits := ⟨fun _ => false, 512, 0, 0⟩

def textFile (relPath content : String) : SourceFile :=
  ⟨Utf8.ofString relPath, Utf8.ofString content⟩

/-- A byte more in one of two files, walked in either order. -/
theorem content_hash_determines_iff_grown :
    let files := [textFile "a.go" "x", textFile "b.go" "y"]
    let others := [textFile "b.go" "y", textFile "a.go" "xx"]
    ∃ hash hash_, contentHash sizeDigest unlimited files = .ok hash ∧
      contentHash sizeDigest unlimited others = .ok hash_ ∧ hash ≠ hash_ := by
  intro files others
  have plain : ∀ list, list = files ∨ list = others → Plain (indexed unlimited list) := by
    rintro list (rfl | rfl) <;> unfold Plain <;> decide +kernel
  refine ⟨_, _, rfl, rfl, fun same => ?_⟩
  have determined := content_hash_determines_iff sizeDigest unlimited files others
    (plain _ (.inl rfl)) (plain _ (.inr rfl))
    (fun same => absurd same (by decide +kernel)) _ _ files
    others (List.Perm.refl _) (List.Perm.refl _) rfl rfl
  have kept : ¬ Recut (indexed unlimited files) (indexed unlimited others) := by
    rintro ⟨flat, -⟩
    exact absurd flat (by decide +kernel)
  exact absurd ((determined.mpr kept).mp same) (by decide +kernel)

/-- The last byte of one file goes over to the path of the next. -/
theorem content_hash_recut :
    let files := [textFile "a.go" "x", textFile "b.go" "y"]
    let others := [textFile "a.go" "", textFile "xb.go" "y"]
    (∀ sha, contentHash sha unlimited files = contentHash sha unlimited others) ∧
      ¬ files.Perm others := by
  intro files others
  constructor
  · intro sha
    have same : (sortStrings (files.map SourceFile.entry)).flatten =
        (sortStrings (others.map SourceFile.entry)).flatten := by
      decide +kernel
    have walked (list : List SourceFile) (two : list = files ∨ list = others) :
        contentHash sha unlimited list =
          .ok (hashManifest sha (list.map SourceFile.entry)) := by
      rcases two with rfl | rfl <;> rfl
    rw [walked files (.inl rfl), walked others (.inr rfl), hashManifest, hashManifest, same]
  · decide +kernel

end Materialization

end RepoLens
