import RepoLens.SnapshotPolicy

/-!
The manifest of a snapshot: what `LoadManifest` accepts, what `Contains` finds in it by
binary search, and that the policy decides in the same way for all spellings of a path.
-/

namespace RepoLens

namespace SnapshotPolicy

open Paths

variable {files : List FileEntry} {manifest : Manifest}

def Increasing (files : List FileEntry) : Prop := files.Pairwise fun one two => one.path < two.path

def InOrder (files : List FileEntry) : Prop := files.Pairwise fun one two => one.path ≤ two.path

def Canonical (files : List FileEntry) : Prop := ∀ file ∈ files, canonicalEntry file = true

/-- What `LoadManifest` and `WriteManifest` ask of a manifest. -/
structure Manifest.Valid (manifest : Manifest) : Prop where
  version : manifest.version = manifestVersion
  snapshotID : manifest.snapshotID ≠ ""
  commitSHA : manifest.commitSHA ≠ ""
  contentHash : validHash manifest.contentHash = true
  increasing : Increasing manifest.files
  canonical : Canonical manifest.files

instance pathTotal : Std.Total fun one two : FileEntry => one.path ≤ two.path :=
  ⟨fun one two => le_total one.path two.path⟩

instance pathTrans : IsTrans FileEntry fun one two => one.path ≤ two.path :=
  ⟨fun _ _ _ => le_trans⟩

theorem sortedFiles_perm (files : List FileEntry) : (sortedFiles files).Perm files :=
  List.perm_insertionSort _ files

theorem sortedFiles_inOrder (files : List FileEntry) : InOrder (sortedFiles files) :=
  List.pairwise_insertionSort _ files

theorem sortedFiles_eq (ordered : InOrder files) : sortedFiles files = files :=
  List.Pairwise.insertionSort_eq ordered

theorem Increasing.inOrder (increasing : Increasing files) : InOrder files :=
  List.Pairwise.imp le_of_lt increasing

theorem paths_sortedFiles_iff :
    files.map FileEntry.path = (sortedFiles files).map FileEntry.path ↔ InOrder files := by
  constructor
  · intro same
    have ordered : ((sortedFiles files).map FileEntry.path).Pairwise (· ≤ ·) :=
      List.pairwise_map.mpr (sortedFiles_inOrder files)
    rw [← same] at ordered
    exact List.pairwise_map.mp ordered
  · intro ordered
    rw [sortedFiles_eq ordered]

def Fresh : Option String → List FileEntry → Prop
  | _, [] => True
  | before, file :: files => before ≠ some file.path ∧ Fresh (some file.path) files

theorem checkEntries_ok_iff {before : Option String} {sorted : List FileEntry}
    (size : files.length = sorted.length) :
    checkEntries before files sorted = .ok () ↔
      files.map FileEntry.path = sorted.map FileEntry.path ∧ Fresh before files ∧
        Canonical files := by
  induction files generalizing before sorted with
  | nil =>
    cases sorted with
    | nil => simp [checkEntries, Fresh, Canonical]
    | cons first rest => simp at size
  | cons file files ih =>
    cases sorted with
    | nil => simp at size
    | cons first rest =>
      simp only [List.length_cons, Nat.add_right_cancel_iff] at size
      simp only [checkEntries]
      by_cases bad : file.path ≠ first.path ∨ before = some file.path ∨ canonicalEntry file = false
      · rw [if_pos bad]
        simp only [List.map_cons, List.cons.injEq, Fresh, Canonical, List.forall_mem_cons,
          reduceCtorEq, false_iff]
        rintro ⟨⟨place, -⟩, ⟨new, -⟩, canonical, -⟩
        rcases bad with moved | same | excluded
        · exact moved place
        · exact new same
        · simp [canonical] at excluded
      · rw [if_neg bad, ih size]
        simp only [not_or, not_not, Bool.not_eq_false] at bad
        obtain ⟨place, new, canonical⟩ := bad
        simp only [List.map_cons, List.cons.injEq, place, Fresh, Canonical, List.forall_mem_cons,
          canonical, true_and]
        rw [← place]
        simp [new]

theorem fresh_iff {before : Option String} (ordered : InOrder files)
    (behind : ∀ path, before = some path → ∀ file ∈ files, path ≤ file.path) :
    Fresh before files ↔
      Increasing files ∧ ∀ path, before = some path → ∀ file ∈ files, path < file.path := by
  induction files generalizing before with
  | nil => simp [Fresh, Increasing]
  | cons file files ih =>
    obtain ⟨first, rest⟩ := List.pairwise_cons.mp ordered
    have next := @ih (some file.path) rest (by rintro path ⟨rfl⟩; exact first)
    simp only [Fresh, next, Increasing, List.pairwise_cons]
    constructor
    · rintro ⟨new, increasing, greater⟩
      refine ⟨⟨greater _ rfl, increasing⟩, ?_⟩
      rintro path same other member
      have least : path < file.path := by
        apply lt_of_le_of_ne (behind path same file (by simp))
        rintro rfl
        exact new same
      rcases List.mem_cons.mp member with rfl | later
      · exact least
      · exact lt_of_lt_of_le least (first other later)
    · rintro ⟨⟨greater, increasing⟩, least⟩
      refine ⟨fun same => ?_, increasing, by rintro path ⟨rfl⟩; exact greater⟩
      exact lt_irrefl _ (least file.path same file (by simp))

theorem checkEntries_sortedFiles_iff :
    checkEntries none files (sortedFiles files) = .ok () ↔ Increasing files ∧ Canonical files := by
  rw [checkEntries_ok_iff (sortedFiles_perm files).length_eq.symm, paths_sortedFiles_iff]
  constructor
  · rintro ⟨ordered, fresh, canonical⟩
    exact ⟨((fresh_iff ordered (by simp)).mp fresh).1, canonical⟩
  · rintro ⟨increasing, canonical⟩
    exact ⟨increasing.inOrder, (fresh_iff increasing.inOrder (by simp)).mpr ⟨increasing, by simp⟩,
      canonical⟩

theorem loadManifest_ok_iff {file : ManifestFile} :
    loadManifest file = .ok manifest ↔ file = .decoded manifest ∧ manifest.Valid := by
  cases file with
  | missing => simp [loadManifest]
  | unreadable => simp [loadManifest]
  | malformed => simp [loadManifest]
  | decoded decoded =>
    simp only [loadManifest, ManifestFile.decoded.injEq]
    constructor
    · intro loaded
      by_cases version : decoded.version ≠ manifestVersion
      · simp [version, throw, throwThe, MonadExceptOf.throw, bind, Except.bind] at loaded
      · by_cases identity : decoded.snapshotID = "" ∨ decoded.commitSHA = "" ∨
            validHash decoded.contentHash = false
        · simp [version, identity, throw, throwThe, MonadExceptOf.throw, bind,
            Except.bind] at loaded
        · simp only [version, if_false, identity, bind, Except.bind, pure, Except.pure] at loaded
          cases checked : checkEntries none decoded.files (sortedFiles decoded.files) with
          | error err => simp [checked] at loaded
          | ok _ =>
            simp only [checked, Except.ok.injEq] at loaded
            subst loaded
            obtain ⟨increasing, canonical⟩ := checkEntries_sortedFiles_iff.mp checked
            simp only [not_or, Bool.not_eq_false] at identity
            exact ⟨rfl, by simpa using version, identity.1, identity.2.1, identity.2.2, increasing,
              canonical⟩
    · rintro ⟨rfl, valid⟩
      have checked := checkEntries_sortedFiles_iff.mpr ⟨valid.increasing, valid.canonical⟩
      simp [valid.version, valid.snapshotID, valid.commitSHA, valid.contentHash, checked, bind,
        Except.bind, pure, Except.pure]

theorem search_spec {test : Nat → Bool} {n : Nat}
    (rises : ∀ i j, i ≤ j → j < n → test i = true → test j = true) {fuel i j : Nat} (start : i ≤ j)
    (stop : j ≤ n) (enough : j - i ≤ fuel) (below : ∀ k < i, test k = false)
    (above : ∀ k, j ≤ k → k < n → test k = true) :
    search test fuel i j ≤ n ∧ (∀ k < search test fuel i j, test k = false) ∧
      ∀ k, search test fuel i j ≤ k → k < n → test k = true := by
  induction fuel generalizing i j with
  | zero =>
    have same : i = j := by omega
    subst same
    exact ⟨stop, below, above⟩
  | succ fuel ih =>
    unfold search
    by_cases open_ : i < j
    · rw [if_pos open_]
      by_cases accepted : test ((i + j) / 2) = true
      · rw [if_pos accepted]
        apply ih (by omega) (by omega) (by omega) below
        intro k from_ inside
        exact rises _ k from_ inside accepted
      · rw [if_neg accepted]
        apply ih (by omega) stop (by omega) _ above
        intro k before
        by_contra taken
        exact accepted (rises k _ (by omega) (by omega) (by simpa using taken))
    · rw [if_neg open_]
      have same : i = j := by omega
      subst same
      exact ⟨stop, below, above⟩

theorem evaluate_size {path : String} {size : Int} (proper : 0 ≤ size) :
    evaluate path size = evaluate path 0 := by
  have fine : ¬ size < 0 := by omega
  simp [evaluate, fine]

theorem Manifest.contains_iff (valid : manifest.Valid) {path : String} :
    manifest.contains path = true ↔
      (evaluate path 0).allowed = true ∧ cleanPath path ∈ manifest.files.map FileEntry.path := by
  let test (i : Nat) : Bool :=
    manifest.files[i]?.all fun file => decide (cleanPath path ≤ file.path)
  have at_ {i : Nat} (inside : i < manifest.files.length) :
      test i = decide (cleanPath path ≤ manifest.files[i].path) := by
    simp [test, List.getElem?_eq_getElem inside]
  have ordered {i j : Nat} (before : i ≤ j) (inside : j < manifest.files.length) :
      manifest.files[i].path ≤ manifest.files[j].path := by
    rcases Nat.lt_or_eq_of_le before with less | rfl
    · exact le_of_lt (List.pairwise_iff_getElem.mp valid.increasing i j _ inside less)
    · exact le_rfl
  have rises : ∀ i j, i ≤ j → j < manifest.files.length → test i = true → test j = true := by
    intro i j before inside accepted
    rw [at_ inside, decide_eq_true_eq]
    rw [at_ (by omega), decide_eq_true_eq] at accepted
    exact accepted.trans (ordered before inside)
  have spec := search_spec rises (Nat.zero_le _) le_rfl (Nat.sub_le _ _) (by simp) (by omega)
  obtain ⟨-, below, above⟩ := spec
  simp only [Manifest.contains, canReadByAgent, Bool.and_eq_true]
  apply and_congr_right
  intro _
  constructor
  · intro found
    cases there : manifest.files[search test manifest.files.length 0 manifest.files.length]? with
    | none =>
      rw [there] at found
      cases found
    | some file =>
      rw [there] at found
      simp only [Option.any_some, Bool.and_eq_true, beq_iff_eq] at found
      rw [← found.1]
      exact List.mem_map_of_mem (List.mem_of_getElem? there)
  · intro member
    obtain ⟨file, among, same⟩ := List.mem_map.mp member
    obtain ⟨k, inside, rfl⟩ := List.getElem_of_mem among
    have accepted : test k = true := by
      rw [at_ inside, same]
      exact decide_eq_true le_rfl
    have notBehind : search test manifest.files.length 0 manifest.files.length ≤ k := by
      by_contra behind
      rw [below k (by omega)] at accepted
      cases accepted
    -- the entry that is found lies between the path and the entry that has it
    have reached := above _ le_rfl (by omega)
    rw [at_ (by omega), decide_eq_true_eq] at reached
    have least := (ordered notBehind inside).trans_eq same
    rw [List.getElem?_eq_getElem (show search test manifest.files.length 0 manifest.files.length <
      manifest.files.length by omega), Option.any_some]
    have canonical := valid.canonical _ (List.getElem_mem
      (show search test manifest.files.length 0 manifest.files.length <
        manifest.files.length by omega))
    simp only [canonicalEntry, Bool.and_eq_true] at canonical
    simp only [Bool.and_eq_true, beq_iff_eq]
    exact ⟨le_antisymm least reached, by simpa using canonical.1.1.2⟩

theorem allowed_of_mem (valid : manifest.Valid) {path : String}
    (member : path ∈ manifest.files.map FileEntry.path) :
    (evaluate path 0).allowed = true ∧ cleanPath path = path := by
  obtain ⟨file, among, rfl⟩ := List.mem_map.mp member
  have canonical := valid.canonical file among
  simp only [canonicalEntry, canMaterialize, Bool.and_eq_true, beq_iff_eq,
    decide_eq_true_eq] at canonical
  obtain ⟨⟨⟨⟨⟨⟨-, clean⟩, size⟩, allowed⟩, -⟩, -⟩, -⟩ := canonical
  rw [evaluate_size size] at allowed
  exact ⟨allowed, clean⟩

def ExcludedName (name : List Char) : Prop :=
  String.ofList name ∈ sensitiveNames ∨ ".env.".toList <+: name ∨ ".pem".toList <:+ name ∨
    ".key".toList <:+ name ∨ String.ofList (ext name) ∈ ignoredExtensions

theorem toNat_toLower (c : Char) :
    c.toLower.toNat = if 65 ≤ c.toNat ∧ c.toNat ≤ 90 then c.toNat + 32 else c.toNat := by
  unfold Char.toLower
  have bounds : (c.val ≥ 'A'.val ∧ c.val ≤ 'Z'.val) ↔ 65 ≤ c.toNat ∧ c.toNat ≤ 90 := by
    simp only [ge_iff_le, UInt32.le_iff_toNat_le]
    rfl
  by_cases capital : 65 ≤ c.toNat ∧ c.toNat ≤ 90
  · rw [dif_pos (bounds.mpr capital), if_pos capital]
    have gap : ('a'.val - 'A'.val).toNat = 32 := by decide
    have number : c.val.toNat = c.toNat := rfl
    show (c.val + ('a'.val - 'A'.val)).toNat = _
    rw [UInt32.toNat_add, gap, number]
    omega
  · rw [dif_neg (fun inside => capital (bounds.mp inside)), if_neg capital]

theorem toNat_lower (c : Char) : (lower c).toNat =
    if c.toNat = 0x212a then 107 else if c.toNat = 0x130 then 105
    else if 65 ≤ c.toNat ∧ c.toNat ≤ 90 then c.toNat + 32 else c.toNat := by
  have kelvin : c = '\u212a' ↔ c.toNat = 0x212a := (Char.toNat_inj (d := '\u212a')).symm
  have dotted : c = '\u0130' ↔ c.toNat = 0x130 := (Char.toNat_inj (d := '\u0130')).symm
  unfold lower
  by_cases one : c = '\u212a'
  · rw [if_pos one, if_pos (kelvin.mp one)]
    rfl
  · rw [if_neg one, if_neg (fun same => one (kelvin.mpr same))]
    by_cases two : c = '\u0130'
    · rw [if_pos two, if_pos (dotted.mp two)]
      rfl
    · rw [if_neg two, if_neg (fun same => two (dotted.mpr same)), toNat_toLower]

theorem lower_eq_iff {stop : Char} (other : stop = '.' ∨ stop = '/') (c : Char) :
    lower c = stop ↔ c = stop := by
  rw [← Char.toNat_inj, ← Char.toNat_inj, toNat_lower]
  have number : stop.toNat = 46 ∨ stop.toNat = 47 := by
    rcases other with rfl | rfl
    · exact .inl rfl
    · exact .inr rfl
  split_ifs <;> omega

theorem lower_lower (c : Char) : lower (lower c) = lower c := by
  apply Char.toNat_inj.mp
  rw [toNat_lower (lower c), toNat_lower c]
  split_ifs <;> omega

theorem toLower_toLower (name : List Char) : toLower (toLower name) = toLower name := by
  simp [toLower, lower_lower]

theorem ext_toLower (name : List Char) : ext (toLower name) = toLower (ext name) :=
  ext_map (lower_eq_iff (.inl rfl)) (lower_eq_iff (.inr rfl)) name

theorem tables_small : (∀ name ∈ sensitiveNames, String.ofList (toLower name.toList) = name) ∧
    ∀ name ∈ ignoredExtensions, String.ofList (toLower name.toList) = name := by
  decide +kernel

theorem mem_small {table : List String}
    (small : ∀ name ∈ table, String.ofList (toLower name.toList) = name) {name : List Char}
    (member : String.ofList name ∈ table) : String.ofList (toLower name) ∈ table := by
  have same := small _ member
  rw [String.toList_ofList] at same
  rwa [same]

theorem excludedName_toLower {name : List Char} (excluded : ExcludedName name) :
    ExcludedName (toLower name) := by
  rcases excluded with sensitive | env | pem | key | type_
  · exact .inl (mem_small tables_small.1 sensitive)
  · exact .inr (.inl (env.map lower))
  · exact .inr (.inr (.inl (pem.map lower)))
  · exact .inr (.inr (.inr (.inl (key.map lower))))
  · refine .inr (.inr (.inr (.inr ?_)))
    rw [ext_toLower]
    exact mem_small tables_small.2 type_

theorem evaluateParts_allowed {parts : List (List Char)}
    (allowed : (evaluateParts parts).allowed = true) :
    (∀ part ∈ parts.dropLast, shouldSkipDirectory part = false) ∧
      ¬ ExcludedName (toLower (parts.getLastD [])) := by
  unfold evaluateParts at allowed
  by_cases skipped : parts.dropLast.any shouldSkipDirectory = true
  · simp [skipped, Decision.deny] at allowed
  · rw [if_neg skipped] at allowed
    refine ⟨by simpa using skipped, ?_⟩
    generalize shape : toLower (parts.getLastD []) = base at allowed
    have small : toLower (ext base) = ext base := by
      rw [← shape, ext_toLower, toLower_toLower]
    by_cases sensitive : (sensitiveNames.contains (String.ofList base) ||
        ".env.".toList.isPrefixOf base || ".pem".toList.isSuffixOf base ||
        ".key".toList.isSuffixOf base) = true
    · rw [if_pos sensitive] at allowed
      cases allowed
    · rw [if_neg sensitive, small] at allowed
      simp only [Bool.or_eq_true, List.contains_iff_mem, List.isPrefixOf_iff_prefix,
        List.isSuffixOf_iff_suffix, not_or] at sensitive
      rintro (listed | env | pem | key | type_)
      · exact sensitive.1.1.1 listed
      · exact sensitive.1.1.2 env
      · exact sensitive.1.2 pem
      · exact sensitive.2 key
      · rw [if_pos (List.contains_iff_mem.mpr type_)] at allowed
        cases allowed

theorem evaluate_allowed {path : String} {size : Int}
    (allowed : (evaluate path size).allowed = true) :
    leavesRoot (clean path.toList) = false ∧
      (evaluateParts ((clean path.toList).splitOn '/')).allowed = true := by
  have valid := plain_of_allowed allowed
  have fine : ¬ (size < 0 ∨ '\\' ∈ path.toList) := by
    rintro (negative | member)
    · omega
    · exact valid.2 member
  unfold evaluate at allowed
  rw [if_neg fine] at allowed
  by_cases leaves : leavesRoot (clean path.toList) = true ∨ isAbs path.toList = true
  · rw [if_pos leaves] at allowed
    cases allowed
  · rw [if_neg leaves] at allowed
    rw [not_or] at leaves
    exact ⟨by simpa using leaves.1, allowed⟩

/-- The policy cannot be got around by another spelling of a path. -/
theorem policy_spelling (path : String) (plain : '\\' ∉ path.toList)
    (relative : isAbs path.toList = false) :
    (∀ size, evaluate path size = evaluate (cleanPath path) size) ∧
    (∀ size, (evaluate path size).allowed = true →
      let parts := (cleanPath path).toList.splitOn '/'
      isAbs (cleanPath path).toList = false ∧ up ∉ parts ∧
        (∀ part ∈ parts.dropLast, shouldSkipDirectory part = false) ∧
        ∀ name, toLower name = toLower (parts.getLastD []) → ¬ ExcludedName name) ∧
    (∀ file manifest, loadManifest file = .ok manifest →
      (manifest.contains path = true ↔ cleanPath path ∈ manifest.files.map FileEntry.path)) ∧
    ∀ fs sourceRoot other, '\\' ∉ other.toList → isAbs other.toList = false →
      cleanPath other = cleanPath path →
      canReadFromSnapshot fs sourceRoot other = canReadFromSnapshot fs sourceRoot path := by
  have contains {file : ManifestFile} {manifest : Manifest} (loaded : loadManifest file =
    .ok manifest)
      {path : String} (plain : '\\' ∉ path.toList) :
      manifest.contains path = true ↔ cleanPath path ∈ manifest.files.map FileEntry.path := by
    have valid := (loadManifest_ok_iff.mp loaded).2
    rw [Manifest.contains_iff valid, ← evaluate_spelling plain]
    exact and_iff_right_of_imp fun member => (allowed_of_mem valid member).1
  refine ⟨fun size => (evaluate_spelling plain size).symm, ?_,
    fun file manifest loaded => contains loaded plain, ?_⟩
  · intro size allowed parts
    have shape : parts = (clean path.toList).splitOn '/' := by
      simp only [parts, cleanPath, String.toList_ofList]
    obtain ⟨inside, parted⟩ := evaluate_allowed allowed
    obtain ⟨directories, base⟩ := evaluateParts_allowed parted
    rw [← shape] at directories base
    refine ⟨by simp [cleanPath, isAbs_clean, relative], ?_, directories, ?_⟩
    · intro climbs
      have some : elements path.toList ≠ [] := by
        intro none
        simp [leavesRoot, clean, relative, none] at inside
      rw [shape, splitOn_clean relative some] at climbs
      rcases clean_climbs relative climbs with same | start
      · simp [leavesRoot, same] at inside
      · have found : "../".toList.isPrefixOf (clean path.toList) = true :=
          List.isPrefixOf_iff_prefix.mpr start
        simp only [leavesRoot, found, Bool.or_true] at inside
        cases inside
    · intro name same excluded
      rw [← same] at base
      exact base (excludedName_toLower excluded)
  · intro fs sourceRoot other plain_ _ same
    have decided : evaluate other 0 = evaluate path 0 := by
      rw [← evaluate_spelling plain_, ← evaluate_spelling plain, same]
    unfold canReadFromSnapshot canReadByAgent
    rw [decided]
    cases loaded : loadManifest (fs.manifest sourceRoot) with
    | error err => cases err <;> rfl
    | ok manifest =>
        have both : manifest.contains other = manifest.contains path := by
          rw [Bool.eq_iff_iff, contains loaded plain_, contains loaded plain, same]
        simp only [both]

/-- Two spellings of a file below a directory. -/
theorem policy_spelling_dotted :
    evaluate "x/.././src//A.go" 0 = evaluate "src/A.go" 0 ∧
      ∀ fs sourceRoot, canReadFromSnapshot fs sourceRoot "src/A.go" =
        canReadFromSnapshot fs sourceRoot "x/.././src//A.go" := by
  have clean_ : cleanPath "x/.././src//A.go" = "src/A.go" := by decide +kernel
  obtain ⟨same, -, -, spellings⟩ := policy_spelling "x/.././src//A.go" (by decide) (by decide)
  refine ⟨by rw [same, clean_], fun fs sourceRoot => ?_⟩
  exact spellings fs sourceRoot "src/A.go" (by decide) (by decide) (by decide +kernel)

end SnapshotPolicy

end RepoLens
