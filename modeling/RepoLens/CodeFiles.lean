import RepoLens.Lib.Paths
import RepoLens.SnapshotRanges

/-!
`internal/codeintel/parser`: what is recorded of each Go file of a module, and the path of the
package that it belongs to.
-/

namespace RepoLens

namespace CodeIntel

inductive ParseStatus where
  | ok
  | error
  | skipped
  deriving DecidableEq

structure CodeFile where
  path : String
  packagePath : String
  packageName : String
  contentHash : String
  lineCount : Nat
  sizeBytes : Nat
  isTest : Bool
  includedByBuildContext : Bool
  parseStatus : ParseStatus
  parseError : String
  deriving DecidableEq

/-- `ParsedFile`; of the tree only its presence is used here. -/
structure ParsedFile where
  codeFile : CodeFile
  hasAST : Bool
  content : Bytes
  deriving DecidableEq

structure WalkedFile where
  relPath : String
  content : Except String Bytes

structure Toolchain where
  matchesBuildContext : String → Bytes → Bool
  parseFile : String → Bytes → Except String String
  sha256Hex : Bytes → String

def fileDir (path : String) : String := String.ofList (Paths.dir path.toList)

def fileName (path : String) : List Char := (path.toList.reverse.takeWhile (· != '/')).reverse

def packagePathOf (modulePath relPath : String) : String :=
  let dirRel := fileDir relPath
  if dirRel = "." ∨ dirRel = "" then modulePath else modulePath ++ "/" ++ dirRel

def lineCountOf (content : Bytes) : Nat :=
  content.count newline + if content ≠ [] ∧ content.getLast? ≠ some newline then 1 else 0

def parseWalked (tools : Toolchain) (modulePath : String) (file : WalkedFile) : ParsedFile :=
  match file.content with
  | .error err =>
    { codeFile := ⟨file.relPath, "", "", "", 0, 0, false, true, .error, "read error: " ++ err⟩
      hasAST := false
      content := [] }
  | .ok content =>
    let codeFile : CodeFile :=
      { path := file.relPath
        packagePath := packagePathOf modulePath file.relPath
        packageName := ""
        contentHash := tools.sha256Hex content
        lineCount := lineCountOf content
        sizeBytes := content.length
        isTest := "_test.go".toList.isSuffixOf (fileName file.relPath)
        includedByBuildContext := tools.matchesBuildContext file.relPath content
        parseStatus := .skipped
        parseError := "" }
    if !codeFile.includedByBuildContext then ⟨codeFile, false, content⟩
    else
      match tools.parseFile file.relPath content with
      | .error err => ⟨{ codeFile with parseStatus := .error, parseError := err }, true, content⟩
      | .ok name => ⟨{ codeFile with parseStatus := .ok, packageName := name }, true, content⟩

namespace ParsedFile

def parsed (file : ParsedFile) : Bool := file.hasAST && file.codeFile.parseStatus = .ok

def production (file : ParsedFile) : Bool := !file.codeFile.isTest && file.parsed

def test (file : ParsedFile) : Bool := file.codeFile.isTest && file.parsed

def directory (file : ParsedFile) : String := fileDir file.codeFile.path

end ParsedFile

/-- The map of the first loop: the first name for a path stays. -/
def productionPackageNames (files : List ParsedFile) : List (String × String) :=
  files.foldl (fun names file =>
    if !file.production then names
    else if (names.lookup file.codeFile.packagePath).isSome then names
    else names ++ [(file.codeFile.packagePath, file.codeFile.packageName)]) []

def ParsedFile.withExternalPath (productionPackageNames : List (String × String))
    (file : ParsedFile) : ParsedFile :=
  if !file.test then file
  else
    match productionPackageNames.lookup file.codeFile.packagePath with
    | none => file
    | some productionName =>
      if file.codeFile.packageName = productionName ++ "_test" then
        { file with codeFile :=
            { file.codeFile with packagePath := file.codeFile.packagePath ++ "_test" } }
      else file

def applyExternalTestPackagePaths (files : List ParsedFile) : List ParsedFile :=
  files.map (·.withExternalPath (productionPackageNames files))

def parseRepository (tools : Toolchain) (modulePath : String) (walked : List WalkedFile) :
    List ParsedFile :=
  applyExternalTestPackagePaths (walked.map (parseWalked tools modulePath))

theorem fileDir_ne_empty (path : String) : fileDir path ≠ "" := by
  have some : Paths.dir path.toList ≠ [] := Paths.clean_ne_nil _
  intro empty
  apply some
  simpa [fileDir] using congrArg String.toList empty

variable {modulePath : String} {file : ParsedFile}

theorem packagePathOf_root {path : String} (root : fileDir path = ".") :
    packagePathOf modulePath path = modulePath := by
  rw [packagePathOf, if_pos (.inl root)]

theorem packagePathOf_below {path : String} (below : fileDir path ≠ ".") :
    packagePathOf modulePath path = modulePath ++ "/" ++ fileDir path := by
  rw [packagePathOf, if_neg (by simp [below, fileDir_ne_empty])]

theorem packagePathOf_inj {one two : String} :
    packagePathOf modulePath one = packagePathOf modulePath two ↔ fileDir one = fileDir two := by
  by_cases root : fileDir one = "." <;> by_cases root_ : fileDir two = "."
  · rw [packagePathOf_root root, packagePathOf_root root_, root, root_]
    simp
  · rw [packagePathOf_root root, packagePathOf_below root_, root]
    simp [String.ext_iff, Ne.symm root_]
  · rw [packagePathOf_below root, packagePathOf_root root_, root_]
    simp [String.ext_iff, root]
  · rw [packagePathOf_below root, packagePathOf_below root_]
    simp [String.ext_iff]

theorem packagePathOf_test {one two : String} :
    packagePathOf modulePath one ++ "_test" = packagePathOf modulePath two ↔
      fileDir one ≠ "." ∧ fileDir two = fileDir one ++ "_test" := by
  by_cases root : fileDir one = "." <;> by_cases root_ : fileDir two = "."
  · rw [packagePathOf_root root, packagePathOf_root root_, root]
    simp [String.ext_iff]
  · rw [packagePathOf_root root, packagePathOf_below root_, root]
    simp [String.ext_iff]
  · rw [packagePathOf_below root, packagePathOf_root root_, root_]
    have longer : ("." : String) ≠ fileDir one ++ "_test" := by
      intro same
      have lengths := congrArg (fun text : String => text.toList.length) same
      simp at lengths
    simp [String.ext_iff] at longer ⊢
    exact fun _ => longer
  · rw [packagePathOf_below root, packagePathOf_below root_]
    simp [String.ext_iff, root, eq_comm]

theorem lookup_productionPackageNames (files : List ParsedFile) (path : String) :
    (productionPackageNames files).lookup path =
      (files.find? fun file => file.production && file.codeFile.packagePath = path).map
        (·.codeFile.packageName) := by
  have run (files : List ParsedFile) : ∀ names : List (String × String),
      (files.foldl (fun names file =>
        if !file.production then names
        else if (names.lookup file.codeFile.packagePath).isSome then names
        else names ++ [(file.codeFile.packagePath, file.codeFile.packageName)]) names).lookup path =
      (names.lookup path).or
        ((files.find? fun file => file.production && file.codeFile.packagePath = path).map
          (·.codeFile.packageName)) := by
    induction files with
    | nil => simp
    | cons file files ih =>
      intro names
      rw [List.foldl_cons, ih, List.find?_cons]
      by_cases production : file.production = true
      · by_cases here : file.codeFile.packagePath = path
        · cases known : names.lookup path <;>
            simp [production, here, known, List.lookup_append]
        · have other : (path == file.codeFile.packagePath) = false := by simpa using Ne.symm here
          cases known : names.lookup file.codeFile.packagePath <;>
            simp [production, here, other, List.lookup_append, List.lookup_cons]
      · simp [production]
  exact run files []

def Legal (files : List ParsedFile) : Prop :=
  ∀ directory, ∃ package : String, ∀ file ∈ files, file.parsed = true → file.directory = directory →
    if file.codeFile.isTest then
      file.codeFile.packageName = package ∨ file.codeFile.packageName = package ++ "_test"
    else file.codeFile.packageName = package

def Identified (files : List ParsedFile) : Prop :=
  ∀ one ∈ files, ∀ two ∈ files, one.parsed = true → two.parsed = true →
    (one.codeFile.packagePath = two.codeFile.packagePath ↔
      one.directory = two.directory ∧ one.codeFile.packageName = two.codeFile.packageName)

def TestsAccompanied (files : List ParsedFile) : Prop :=
  ∀ one ∈ files, ∀ two ∈ files, one.parsed = true → two.parsed = true →
    one.directory = two.directory →
    one.codeFile.packageName ≠ two.codeFile.packageName →
      ∃ file ∈ files, file.production = true ∧ file.directory = one.directory

/-- Beside a directory below the root with a package and its external test package there is no
directory whose name only adds the ending. -/
def EndingFree (files : List ParsedFile) : Prop :=
  ∀ own ∈ files, ∀ external ∈ files, own.production = true → external.test = true →
    own.directory = external.directory →
      external.codeFile.packageName = own.codeFile.packageName ++ "_test" →
      external.directory ≠ "." →
        ∀ file ∈ files, file.parsed = true → file.directory ≠ external.directory ++ "_test"

theorem ne_append_test (name : String) : name ≠ name ++ "_test" := by
  intro same
  have lengths := congrArg (fun text : String => text.toList.length) same
  simp at lengths

namespace ParsedFile

theorem withExternalPath_same (names : List (String × String)) (file : ParsedFile) :
    (file.withExternalPath names).parsed = file.parsed ∧
      (file.withExternalPath names).directory = file.directory ∧
      (file.withExternalPath names).codeFile.packageName = file.codeFile.packageName := by
  unfold withExternalPath
  split
  · exact ⟨rfl, rfl, rfl⟩
  · split
    · exact ⟨rfl, rfl, rfl⟩
    · split <;> exact ⟨rfl, rfl, rfl⟩

def External (files : List ParsedFile) (file : ParsedFile) : Prop :=
  file.test = true ∧ ∃ own ∈ files, own.production = true ∧ own.directory = file.directory ∧
    file.codeFile.packageName = own.codeFile.packageName ++ "_test"

theorem parsed_of_production (production : file.production = true) : file.parsed = true := by
  unfold ParsedFile.production at production
  exact (Bool.and_eq_true_iff.mp production).2

theorem not_test_of_production (production : file.production = true) :
    file.codeFile.isTest = false := by
  unfold ParsedFile.production at production
  simpa using (Bool.and_eq_true_iff.mp production).1

theorem parsed_of_test (test : file.test = true) : file.parsed = true :=
  (Bool.and_eq_true_iff.mp test).2

end ParsedFile

section Identity

variable {modulePath : String} {files : List ParsedFile} (legal : Legal files)
  (based : ∀ file ∈ files, file.parsed = true →
    file.codeFile.packagePath = packagePathOf modulePath file.codeFile.path)

include legal in
theorem production_name {one two : ParsedFile} (member : one ∈ files) (member_ : two ∈ files)
    (production : one.production = true) (production_ : two.production = true)
    (same : one.directory = two.directory) : one.codeFile.packageName =
      two.codeFile.packageName := by
  obtain ⟨package, names⟩ := legal one.directory
  have first := names one member (ParsedFile.parsed_of_production production) rfl
  have second := names two member_ (ParsedFile.parsed_of_production production_) same.symm
  rw [ParsedFile.not_test_of_production production] at first
  rw [ParsedFile.not_test_of_production production_] at second
  exact first.trans second.symm

include legal based

theorem withExternalPath_path (member : file ∈ files) (parsed : file.parsed = true) :
    (file.External files ∧
      (file.withExternalPath (productionPackageNames files)).codeFile.packagePath =
        packagePathOf modulePath file.codeFile.path ++ "_test") ∨
      (¬ file.External files ∧
        (file.withExternalPath (productionPackageNames files)).codeFile.packagePath =
        packagePathOf modulePath file.codeFile.path) := by
  have path := based file member parsed
  have directories {other : ParsedFile} (member_ : other ∈ files) (parsed_ : other.parsed = true) :
      other.codeFile.packagePath = file.codeFile.packagePath ↔
        other.directory = file.directory := by
    rw [path, based other member_ parsed_]
    exact packagePathOf_inj
  unfold ParsedFile.withExternalPath
  rw [lookup_productionPackageNames]
  by_cases test : file.test = true
  · cases found : files.find? fun other =>
        other.production && other.codeFile.packagePath = file.codeFile.packagePath with
    | none =>
      right
      simp only [test, Option.map_none]
      refine ⟨?_, path⟩
      rintro ⟨_, own, inside, production, same, _⟩
      have none_ := List.find?_eq_none.mp found own inside
      simp [production, (directories inside (ParsedFile.parsed_of_production production)).mpr
        same] at none_
    | some own =>
      have inside := List.mem_of_find?_eq_some found
      have holds := List.find?_some found
      rw [Bool.and_eq_true, decide_eq_true_eq] at holds
      have same := (directories inside (ParsedFile.parsed_of_production holds.1)).mp holds.2
      simp only [test, Option.map_some]
      by_cases named : file.codeFile.packageName = own.codeFile.packageName ++ "_test"
      · left
        refine ⟨⟨test, own, inside, holds.1, same, named⟩, ?_⟩
        simp [named, path]
      · right
        refine ⟨?_, by simp [named, path]⟩
        rintro ⟨_, other, inside_, production, same_, named_⟩
        rw [production_name legal inside_ inside production holds.1
          (same_.trans same.symm)] at named_
        exact named named_
  · right
    refine ⟨fun external => test external.1, ?_⟩
    simp [test, path]

omit based in
theorem external_of_same {one two : ParsedFile} (member : two ∈ files) (parsed : two.parsed = true)
    (external : one.External files) (same : one.directory = two.directory)
    (names : one.codeFile.packageName = two.codeFile.packageName) : two.External files := by
  obtain ⟨_, own, inside, production, beside, named⟩ := external
  refine ⟨?_, own, inside, production, beside.trans same, names ▸ named⟩
  by_contra plain
  -- a file that is not a test would have the name of the package itself
  have production_ : two.production = true := by
    simp only [ParsedFile.test, parsed, Bool.and_true, Bool.not_eq_true] at plain
    simp [ParsedFile.production, parsed, plain]
  have name := production_name legal inside member production production_ (beside.trans same)
  rw [names, ← name] at named
  exact ne_append_test _ named

omit based in
theorem name_of_not_external {own : ParsedFile} (inside : own ∈ files)
    (production : own.production = true) (member : file ∈ files) (parsed : file.parsed = true)
    (beside : own.directory = file.directory) (plain : ¬ file.External files) :
    file.codeFile.packageName = own.codeFile.packageName := by
  obtain ⟨package, names⟩ := legal file.directory
  have ownName := names own inside (ParsedFile.parsed_of_production production) beside
  rw [ParsedFile.not_test_of_production production] at ownName
  have name := names file member parsed rfl
  split at name
  · next test =>
      rcases name with same | named
      · exact same.trans ownName.symm
      · refine absurd ⟨?_, own, inside, production, beside, ?_⟩ plain
        · simp [ParsedFile.test, test, parsed]
        · rw [named, show own.codeFile.packageName = package from ownName]
  · exact name.trans ownName.symm

theorem identified_iff :
    Identified (applyExternalTestPackagePaths files) ↔ TestsAccompanied files ∧
      EndingFree files := by
  have moved : Identified (applyExternalTestPackagePaths files) ↔ ∀ one ∈ files, ∀ two ∈ files,
      one.parsed = true → two.parsed = true →
        ((one.withExternalPath (productionPackageNames files)).codeFile.packagePath =
            (two.withExternalPath (productionPackageNames files)).codeFile.packagePath ↔
          one.directory = two.directory ∧ one.codeFile.packageName = two.codeFile.packageName) := by
    simp only [Identified, applyExternalTestPackagePaths, List.mem_map, forall_exists_index,
      and_imp, forall_apply_eq_imp_iff₂, ParsedFile.withExternalPath_same]
  rw [moved]
  constructor
  · intro identified
    constructor
    · intro one member two member_ parsed parsed_ same differ
      by_contra alone
      -- without such a file both keep the path of the directory
      have plain {file : ParsedFile} (beside : file.directory = one.directory) : ¬ file.External
          files := by
        rintro ⟨_, own, inside, production, same, _⟩
        exact alone ⟨own, inside, production, same.trans beside⟩
      rcases withExternalPath_path legal based member parsed with ⟨external, _⟩ | ⟨_, path⟩
      · exact plain rfl external
      rcases withExternalPath_path legal based member_ parsed_ with ⟨external, _⟩ | ⟨_, path_⟩
      · exact plain same.symm external
      have paths := (identified one member two member_ parsed parsed_).mp (by
        rw [path, path_]
        exact packagePathOf_inj.mpr same)
      exact differ paths.2
    · intro own inside external member production test beside named below file member_ parsed ending
      -- some file of the other directory has the path of the external test package
      have clash {other : ParsedFile} (there : other ∈ files) (parsed : other.parsed = true)
          (ending : other.directory = external.directory ++ "_test")
          (plain : ¬ other.External files) : False := by
        rcases withExternalPath_path legal based member (ParsedFile.parsed_of_test test) with
          ⟨_, path⟩ | ⟨no, _⟩
        · rcases withExternalPath_path legal based there parsed with ⟨yes, _⟩ | ⟨_, path_⟩
          · exact plain yes
          · have paths :=
              (identified external member other there (ParsedFile.parsed_of_test test)
              parsed).mp (by
              rw [path, path_]
              exact packagePathOf_test.mpr ⟨below, ending⟩)
            exact ne_append_test _ (paths.1.trans ending)
        · exact no ⟨test, own, inside, production, beside, named⟩
      by_cases plain : file.External files
      · obtain ⟨_, other, there, production_, same, _⟩ := plain
        refine clash there (ParsedFile.parsed_of_production production_) (same.trans ending) ?_
        rintro ⟨test_, _⟩
        simp [ParsedFile.test, ParsedFile.not_test_of_production production_] at test_
      · exact clash member_ parsed ending plain
  · rintro ⟨accompanied, free⟩ one member two member_ parsed parsed_
    -- an external test file and another one have the same path only if the ending is a directory's
    have apart {one two : ParsedFile} (member : one ∈ files) (member_ : two ∈ files)
      (parsed : two.parsed = true)
        (external : one.External files)
        (paths : packagePathOf modulePath one.codeFile.path ++ "_test" =
          packagePathOf modulePath two.codeFile.path) : False := by
      obtain ⟨below, ending⟩ := packagePathOf_test.mp paths
      obtain ⟨test, own, inside, production, beside, named⟩ := external
      exact free own inside one member production test beside named below two member_ parsed ending
    constructor
    · intro paths
      rcases withExternalPath_path legal based member parsed with
        ⟨external, path⟩ | ⟨plain, path⟩ <;>
        rcases withExternalPath_path legal based member_ parsed_ with
          ⟨external_, path_⟩ | ⟨plain_, path_⟩ <;>
          rw [path, path_] at paths
      · have same : one.directory = two.directory :=
          packagePathOf_inj.mp (String.append_left_inj _ |>.mp paths)
        obtain ⟨_, own, inside, production, beside, named⟩ := external
        obtain ⟨_, own_, inside_, production_, beside_, named_⟩ := external_
        refine ⟨same, ?_⟩
        rw [named, named_, production_name legal inside inside_ production production_
          (beside.trans (same.trans beside_.symm))]
      · exact (apart member member_ parsed_ external paths).elim
      · exact (apart member_ member parsed external_ paths.symm).elim
      · have same : one.directory = two.directory := packagePathOf_inj.mp paths
        refine ⟨same, ?_⟩
        by_contra differ
        obtain ⟨own, inside, production, beside⟩ :=
          accompanied one member two member_ parsed parsed_ same differ
        apply differ
        rw [name_of_not_external legal inside production member parsed beside plain,
          name_of_not_external legal inside production member_ parsed_ (beside.trans same) plain_]
    · rintro ⟨same, names⟩
      have base := (@packagePathOf_inj modulePath one.codeFile.path two.codeFile.path).mpr same
      rcases withExternalPath_path legal based member parsed with
        ⟨external, path⟩ | ⟨plain, path⟩ <;>
        rcases withExternalPath_path legal based member_ parsed_ with
          ⟨external_, path_⟩ | ⟨plain_, path_⟩ <;>
          rw [path, path_]
      · rw [base]
      · exact absurd (external_of_same legal member_ parsed_ external same names) plain_
      · exact absurd (external_of_same legal member parsed external_ same.symm names.symm) plain
      · exact base

end Identity

theorem parseWalked_packagePath {tools : Toolchain} {file : WalkedFile}
    (parsed : (parseWalked tools modulePath file).parsed = true) :
    (parseWalked tools modulePath file).codeFile.packagePath =
      packagePathOf modulePath (parseWalked tools modulePath file).codeFile.path := by
  unfold parseWalked at parsed ⊢
  split
  · next err unread =>
      rw [unread] at parsed
      cases parsed
  · simp only
    split
    · rfl
    · split <;> rfl

/-- Two files have the same path exactly if they are of the same package: where a directory with two
names has a file that is not a test, and none has the name of another one and the ending. -/
theorem packagePaths_identify_iff (tools : Toolchain) (modulePath : String)
    (walked : List WalkedFile) (legal : Legal (walked.map (parseWalked tools modulePath))) :
    Identified (parseRepository tools modulePath walked) ↔
      TestsAccompanied (walked.map (parseWalked tools modulePath)) ∧
        EndingFree (walked.map (parseWalked tools modulePath)) := by
  apply @identified_iff modulePath _ legal
  intro file member parsed
  obtain ⟨entry, _, rfl⟩ := List.mem_map.mp member
  exact parseWalked_packagePath parsed

def sampleFiles (names : List (String × String)) : List ParsedFile :=
  names.map fun file =>
    parseWalked ⟨fun _ _ => true, fun path _ => .ok ((names.lookup path).getD ""),
      fun _ => ""⟩ "m" ⟨file.1, .ok []⟩

theorem packagePaths_identify_iff_tested :
    Identified (applyExternalTestPackagePaths
      (sampleFiles [("p/a.go", "p"), ("p/a_test.go", "p_test")])) := by
  have named : ∀ file ∈ sampleFiles [("p/a.go", "p"), ("p/a_test.go", "p_test")],
      if file.codeFile.isTest then
        file.codeFile.packageName = "p" ∨ file.codeFile.packageName = "p" ++ "_test"
      else file.codeFile.packageName = "p" := by decide +kernel
  apply (packagePaths_identify_iff ⟨fun _ _ => true, fun path _ =>
    .ok (([("p/a.go", "p"), ("p/a_test.go", "p_test")].lookup path).getD ""), fun _ => ""⟩ "m"
    [⟨"p/a.go", .ok []⟩, ⟨"p/a_test.go", .ok []⟩] fun _ =>
      ⟨"p", fun file member _ _ => named file member⟩).mpr
  constructor
  · unfold TestsAccompanied
    decide +kernel
  · unfold EndingFree
    decide +kernel

/-- A directory with tests of both packages alone, and an external test package beside a directory
of its name. -/
theorem packagePaths_merged :
    (Legal (sampleFiles [("p/a_test.go", "p"), ("p/b_test.go", "p_test")]) ∧
      ¬ Identified (applyExternalTestPackagePaths
        (sampleFiles [("p/a_test.go", "p"), ("p/b_test.go", "p_test")]))) ∧
    Legal (sampleFiles [("d/a.go", "p"), ("d/a_test.go", "p_test"), ("d_test/b.go", "p")]) ∧
      ¬ Identified (applyExternalTestPackagePaths
        (sampleFiles [("d/a.go", "p"), ("d/a_test.go", "p_test"), ("d_test/b.go", "p")])) := by
  have named : ∀ files ∈ [sampleFiles [("p/a_test.go", "p"), ("p/b_test.go", "p_test")],
      sampleFiles [("d/a.go", "p"), ("d/a_test.go", "p_test"), ("d_test/b.go", "p")]],
        ∀ file ∈ files,
      if file.codeFile.isTest then
        file.codeFile.packageName = "p" ∨ file.codeFile.packageName = "p" ++ "_test"
      else file.codeFile.packageName = "p" := by decide +kernel
  refine ⟨⟨fun _ => ⟨"p", fun file member _ _ => named _ (by simp) file member⟩, ?_⟩,
    fun _ => ⟨"p", fun file member _ _ => named _ (by simp) file member⟩, ?_⟩
  · unfold Identified
    decide +kernel
  · unfold Identified
    decide +kernel

end CodeIntel

end RepoLens
