import RepoLens.EvidenceIssue

/-!
`ComputeRequestHashForRevision` of `internal/diagnosis`, by which `Service.create` tells whether
an idempotency key comes back with the same request.
-/

namespace RepoLens

open Lines Evidence Utf8

namespace Diagnosis

def bar : UInt8 := 124

/-- A number as `%d` prints it. -/
def decimal (n : Int) : Bytes := Utf8.ofString (toString n)

/-- `CreateDiagnosisInput`, as far as it is hashed. -/
structure RequestInput where
  revisionID : Bytes
  repositoryID : Bytes
  snapshotID : Bytes
  title : Bytes
  description : Bytes
  errorLog : Bytes
  codeIndexBuildID : Int
  retrievalBuildID : Int
  deriving DecidableEq, Repr

def computeRequestHash (sha : Sha256) (repoID snapshotID title description errorLog : Bytes)
    (pinnedBuildIDs : List Int) : String :=
  sha.hex (join bar [trimBytes repoID, trimBytes snapshotID, trimBytes title, trimBytes description,
    trimBytes errorLog, decimal (pinnedBuildIDs.getD 0 0), decimal (pinnedBuildIDs.getD 1 0)])

def computeRequestHashForRevision (sha : Sha256) (revisionID repoID snapshotID title description
    errorLog : Bytes) (pinnedBuildIDs : List Int) : String :=
  sha.hex (trimBytes revisionID ++ bar :: Utf8.ofString
    (computeRequestHash sha repoID snapshotID title description errorLog pinnedBuildIDs))

def RequestInput.hash (sha : Sha256) (input : RequestInput) : String :=
  computeRequestHashForRevision sha input.revisionID input.repositoryID input.snapshotID input.title
    input.description input.errorLog [input.codeIndexBuildID, input.retrievalBuildID]

/-- What `create` makes of the run that it finds under the idempotency key. -/
inductive KeyUse where
  | unused
  | conflict
  | existing
  deriving DecidableEq, Repr

def checkIdempotency (existing : Option String) (reqHash : String) : KeyUse :=
  match existing with
  | none => .unused
  | some stored => if stored ≠ reqHash then .conflict else .existing

namespace RequestInput

def texts (input : RequestInput) : List Bytes :=
  [trimBytes input.repositoryID, trimBytes input.snapshotID, trimBytes input.title,
    trimBytes input.description, trimBytes input.errorLog]

def fields (input : RequestInput) : Bytes × List Bytes × Int × Int :=
  (trimBytes input.revisionID, input.texts, input.codeIndexBuildID, input.retrievalBuildID)

def raw (input : RequestInput) : Bytes :=
  join bar (input.texts ++ [decimal input.codeIndexBuildID, decimal input.retrievalBuildID])

def pieces (input : RequestInput) : List Bytes := input.texts.flatMap (·.splitOn bar)

def bars (input : RequestInput) : List Nat := input.texts.map (·.count bar)

structure Recut (one two : RequestInput) : Prop where
  revision : trimBytes one.revisionID = trimBytes two.revisionID
  codeIndexBuild : one.codeIndexBuildID = two.codeIndexBuildID
  retrievalBuild : one.retrievalBuildID = two.retrievalBuildID
  pieces : one.pieces = two.pieces
  bars : one.bars ≠ two.bars

def whole (sha : Sha256) (input : RequestInput) : Bytes :=
  trimBytes input.revisionID ++ bar :: Utf8.ofString (sha.hex input.raw)

theorem hash_eq (sha : Sha256) (input : RequestInput) :
    input.hash sha = sha.hex (input.whole sha) := rfl

end RequestInput

theorem bar_notMem_decimal (n : Int) : bar ∉ decimal n := by
  intro member
  obtain ⟨c, among, number⟩ := Utf8.mem_encode_ascii (by decide) member
  have isBar : c = '|' := Char.toNat_inj.mp number
  subst isBar
  have digit {m : Nat} (inside : '|' ∈ m.repr.toList) : False := by
    rw [Nat.toList_repr] at inside
    exact absurd (Nat.isDigit_of_mem_toDigits (by decide) (by decide) inside) (by decide)
  have printed : '|' ∈ (Int.repr n).toList := among
  cases n with
  | ofNat m => exact digit printed
  | negSucc m =>
    simp only [Int.repr, String.toList_append, List.mem_append] at printed
    rcases printed with sign | rest
    · exact absurd sign (by decide)
    · exact digit rest

theorem decimal_inj {one two : Int} : decimal one = decimal two ↔ one = two := by
  rw [decimal, decimal, Utf8.ofString_inj]
  exact Int.repr_inj

theorem bar_notMem_hex (sha : Sha256) (content : Bytes) :
    bar ∉ Utf8.ofString (sha.hex content) := by
  intro member
  obtain ⟨c, among, number⟩ := Utf8.mem_encode_ascii (by decide) member
  have isBar : c = '|' := Char.toNat_inj.mp number
  subst isBar
  have digits := sha.digits content
  simp only [SnapshotPolicy.validHash, Bool.and_eq_true, List.all_eq_true] at digits
  exact absurd (digits.2 '|' among) (by decide)

namespace RequestInput

variable {one two : RequestInput}

theorem raw_eq_iff : one.raw = two.raw ↔ one.pieces = two.pieces ∧
    one.codeIndexBuildID = two.codeIndexBuildID ∧ one.retrievalBuildID = two.retrievalBuildID := by
  have number (n : Int) : (decimal n).splitOn bar = [decimal n] := by
    have whole := splitOn_append_of_notMem bar (bar_notMem_decimal n) []
    simpa using whole
  have split_ (input : RequestInput) : (input.texts ++ [decimal input.codeIndexBuildID,
      decimal input.retrievalBuildID]).flatMap (·.splitOn bar) =
        input.pieces ++ [decimal input.codeIndexBuildID, decimal input.retrievalBuildID] := by
    rw [List.flatMap_append, pieces, List.flatMap_cons, List.flatMap_singleton, number, number,
      List.singleton_append]
  rw [raw, raw, join_inj bar (by simp [texts]) (by simp [texts]), split_, split_]
  constructor
  · intro same
    have ⟨pieces, builds⟩ := List.append_inj' same rfl
    simpa [pieces, decimal_inj] using builds
  · rintro ⟨pieces, code, retrieval⟩
    rw [pieces, code, retrieval]

theorem whole_eq_iff (sha : Sha256) : one.whole sha = two.whole sha ↔
    trimBytes one.revisionID = trimBytes two.revisionID ∧ sha.hex one.raw = sha.hex two.raw := by
  constructor
  · intro same
    -- the digest holds no bar, so the last bar ends the revision
    rw [← splitOn_inj bar, whole, whole, splitOn_append_last bar (bar_notMem_hex sha _),
      splitOn_append_last bar (bar_notMem_hex sha _)] at same
    have ⟨revision, digest⟩ := List.append_inj' same rfl
    rw [List.singleton_inj, Utf8.ofString_inj] at digest
    exact ⟨(splitOn_inj bar).mp revision, digest⟩
  · rintro ⟨revision, digest⟩
    rw [whole, whole, revision, digest]

theorem fields_eq_iff : one.fields = two.fields ↔
    trimBytes one.revisionID = trimBytes two.revisionID ∧
      one.codeIndexBuildID = two.codeIndexBuildID ∧ one.retrievalBuildID = two.retrievalBuildID ∧
      one.pieces = two.pieces ∧ one.bars = two.bars := by
  simp only [fields, Prod.mk.injEq, pieces, bars]
  rw [@eq_iff_pieces_eq _ bar one.texts _ two.texts]
  tauto

theorem hash_eq_iff {sha : Sha256} (inner : sha.Apart one.raw two.raw)
    (outer : sha.Apart (one.whole sha) (two.whole sha)) :
    one.hash sha = two.hash sha ↔
      trimBytes one.revisionID = trimBytes two.revisionID ∧
        one.codeIndexBuildID = two.codeIndexBuildID ∧ one.retrievalBuildID = two.retrievalBuildID ∧
        one.pieces = two.pieces := by
  have raws : sha.hex one.raw = sha.hex two.raw ↔ one.raw = two.raw := ⟨inner, congrArg sha.hex⟩
  have wholes : one.hash sha = two.hash sha ↔ one.whole sha = two.whole sha :=
    ⟨outer, congrArg sha.hex⟩
  rw [wholes, whole_eq_iff, raws, raw_eq_iff]
  tauto

end RequestInput

theorem checkIdempotency_conflict {stored reqHash : String} :
    checkIdempotency (some stored) reqHash = .conflict ↔ stored ≠ reqHash := by
  unfold checkIdempotency
  by_cases same : stored = reqHash <;> simp [same]

/-- The request hash tells two requests apart exactly if they do not have the same pieces between
bars; a key that comes back with another one is then a conflict. -/
theorem request_hash_identifies_iff (sha : Sha256) (one two : RequestInput)
    (inner : sha.Apart one.raw two.raw) (outer : sha.Apart (one.whole sha) (two.whole sha)) :
    ((one.hash sha = two.hash sha ↔ one.fields = two.fields) ↔ ¬ one.Recut two) ∧
      (¬ one.Recut two → (checkIdempotency (some (one.hash sha)) (two.hash sha) = .conflict ↔
        one.fields ≠ two.fields)) := by
  have identifies : (one.hash sha = two.hash sha ↔ one.fields = two.fields) ↔ ¬ one.Recut two := by
    rw [RequestInput.hash_eq_iff inner outer, RequestInput.fields_eq_iff]
    constructor
    · rintro exact_ ⟨revision, code, retrieval, pieces, bars⟩
      exact bars (exact_.mp ⟨revision, code, retrieval, pieces⟩).2.2.2.2
    · intro kept
      constructor
      · rintro ⟨revision, code, retrieval, pieces⟩
        refine ⟨revision, code, retrieval, pieces, ?_⟩
        by_contra bars
        exact kept ⟨revision, code, retrieval, pieces, bars⟩
      · rintro ⟨revision, code, retrieval, pieces, -⟩
        exact ⟨revision, code, retrieval, pieces⟩
  refine ⟨identifies, fun kept => ?_⟩
  rw [checkIdempotency_conflict, Ne, identifies.mpr kept]

def issueRequest (title description : String) : RequestInput :=
  ⟨[], Utf8.ofString "repo", Utf8.ofString "snap", Utf8.ofString title,
    Utf8.ofString description, [],
    1, 2⟩

/-- Two requests of different titles and revisions, for a digest that tells sizes apart. -/
theorem request_hash_identifies_iff_titles :
    let one := issueRequest "crash" "a|b"
    let two := { issueRequest "crashed" "a|bc" with revisionID := Utf8.ofString "r" }
    checkIdempotency (some (one.hash sizeDigest)) (two.hash sizeDigest) = .conflict := by
  intro one two
  have identified := request_hash_identifies_iff sizeDigest one two
    (fun same => absurd same (by decide +kernel)) (fun same => absurd same (by decide +kernel))
  have kept : ¬ one.Recut two := by
    rintro ⟨-, -, -, pieces, -⟩
    exact absurd pieces (by decide +kernel)
  exact (identified.2 kept).mpr (by decide +kernel)

/-- A bar that moves from the title to the description is not seen, whatever the digest. -/
theorem request_hash_bar_moved :
    (∀ sha : Sha256, (issueRequest "a|b" "c").hash sha = (issueRequest "a" "b|c").hash sha) ∧
      (issueRequest "a|b" "c").fields ≠ (issueRequest "a" "b|c").fields := by
  constructor
  · intro sha
    have same : (issueRequest "a|b" "c").raw = (issueRequest "a" "b|c").raw := by decide +kernel
    rw [RequestInput.hash_eq, RequestInput.hash_eq, RequestInput.whole, RequestInput.whole, same]
    rfl
  · decide +kernel

end Diagnosis

end RepoLens
