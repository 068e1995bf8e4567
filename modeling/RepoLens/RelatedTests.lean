import RepoLens.GoProgram

/-!
`internal/codeintel/tests`: tests that are related to a production symbol, by four signals.
-/

namespace RepoLens

namespace CodeIntel

/-- `TestRelationReason`, the strongest first. -/
inductive Signal where
  | directSemantic
  | directSyntactic
  | nameMatch
  | samePackage
  deriving DecidableEq

namespace Signal

def text : Signal → String
  | directSemantic => "DIRECT_SEMANTIC_USAGE"
  | directSyntactic => "DIRECT_SYNTACTIC_USAGE"
  | nameMatch => "NAME_MATCH"
  | samePackage => "SAME_PACKAGE"

def resolutionKind : Signal → ResolutionKind
  | directSemantic => .semantic
  | directSyntactic => .syntactic
  | nameMatch => .heuristic
  | samePackage => .heuristic

def confidence : Signal → Rat
  | directSemantic => 1
  | directSyntactic => 85 / 100
  | nameMatch => 70 / 100
  | samePackage => 40 / 100

def explanation (test prod : Symbol) : Signal → String
  | directSemantic =>
    "Test " ++ test.name ++ " directly calls or references " ++ prod.qualifiedName ++
      " resolved via types"
  | directSyntactic =>
    "Test " ++ test.name ++ " contains AST identifier reference matching " ++ prod.name
  | nameMatch =>
    "Test name " ++ test.name ++ " follows standard Go test naming convention for " ++ prod.name
  | samePackage =>
    "Test " ++ test.name ++ " resides in the same package (" ++ prod.packageName ++ ") as " ++
      prod.name

end Signal

structure RelatedTestDiscovery where
  targetSymbolKeyHash : String
  targetSymbolName : String
  testSymbolKeyHash : String
  testSymbolName : String
  testFilePath : String
  reasonCode : String
  resolutionKind : ResolutionKind
  confidence : Rat
  explanation : String
  testLine : Nat
  deriving DecidableEq

structure TestFile where
  decls : List FuncDecl
  apart : (decls.map (·.pos)).Nodup

structure TestDiscoveryContext where
  symbols : List Symbol
  testFiles : String → Option TestFile
  typeInfoByFile : String → Option TypeInfo
  sha256Hex : String → String

structure TestFunc where
  symbol : Symbol
  astFunc : FuncDecl

def startsWith (text start : String) : Bool := start.toList.isPrefixOf text.toList

def Symbol.isTest (sym : Symbol) : Bool :=
  "_test.go".toList.isSuffixOf sym.filePath.toList || startsWith sym.name "Test" ||
    startsWith sym.name "Benchmark" || startsWith sym.name "Example"

def objectIdentity (obj : Object) : Option (SymbolKind × String) :=
  match obj.kind with
  | .func none => some (.function, "")
  | .func (some recv) =>
    (Object.declaredReceiverName (some recv)).map fun receiver => (.method, receiver)
  | .typeName true type =>
    some (if type.unalias.underlying = .interface then .interface else .type, "")
  | _ => none

def semanticObjectMatches (sha256Hex : String → String) (obj : Option Object) (sym : Symbol) :
    Bool :=
  match obj with
  | none => false
  | some obj =>
    if obj.pkg ≠ some sym.packagePath ∨ obj.name ≠ sym.name then false
    else
      match objectIdentity obj with
      | none => false
      | some (kind, receiver) =>
        if kind ≠ sym.kind ∨ receiver ≠ sym.receiverCanonical then false
        else buildSymbolKey sha256Hex sym.modulePath obj.pkgPath receiver kind obj.name =
          (sym.symbolKeyRaw, sym.symbolKeyHash)

def hasDirectSemanticUsage (sha256Hex : String → String) (funcDecl : FuncDecl)
    (typeInfo : Option TypeInfo)
    (prodSym : Symbol) : Bool :=
  match funcDecl.body, typeInfo with
  | some body, some info => body.nodes.any fun
      | .ident ident => semanticObjectMatches sha256Hex (info.uses ident.id) prodSym
      | .selector _ _ sel => semanticObjectMatches sha256Hex (info.selections sel.id) prodSym
      | _ => false
  | _, _ => false

def hasDirectSyntacticUsage (funcDecl : FuncDecl) (prodSym : Symbol) : Bool :=
  match funcDecl.body with
  | some body => body.nodes.any fun
      | .ident ident => ident.name = prodSym.name
      | .selector _ _ sel => sel.name = prodSym.name
      | _ => false
  | none => false

def isNameMatch (testName : String) (prodSym : Symbol) : Bool :=
  ["Test", "Benchmark", "Example"].any fun pfx =>
    startsWith testName pfx &&
      let rest := String.ofList (testName.toList.drop pfx.toList.length)
      let target := prodSym.receiverCanonical ++ "_" ++ prodSym.name
      rest = prodSym.name || startsWith rest (prodSym.name ++ "_") ||
        startsWith rest prodSym.name ||
        (prodSym.receiverCanonical ≠ "" && (rest = target || startsWith rest (target ++ "_") ||
          rest = prodSym.receiverCanonical ++ prodSym.name))

def isSamePackage (testPkgPath prodPkgPath : String) : Bool := testPkgPath = prodPkgPath

namespace TestDiscoveryContext

variable (tctx : TestDiscoveryContext)

def prodSymbols : List Symbol := tctx.symbols.filter fun sym => !sym.isTest

def testSymbols : List Symbol := tctx.symbols.filter (·.isTest)

def joined (sym : Symbol) : List TestFunc :=
  match tctx.testFiles sym.filePath with
  | none => []
  | some file => (file.decls.filter (·.name = sym.name)).map (⟨sym, ·⟩)

def testFuncs : List TestFunc := tctx.testSymbols.flatMap tctx.joined

def holds (prodSym : Symbol) (tf : TestFunc) : Signal → Bool
  | .directSemantic =>
    hasDirectSemanticUsage tctx.sha256Hex tf.astFunc (tctx.typeInfoByFile tf.symbol.filePath)
      prodSym
  | .directSyntactic => hasDirectSyntacticUsage tf.astFunc prodSym
  | .nameMatch => isNameMatch tf.symbol.name prodSym
  | .samePackage => isSamePackage tf.symbol.packagePath prodSym.packagePath

def signalOf (prodSym : Symbol) (tf : TestFunc) : Option Signal :=
  if tctx.holds prodSym tf .directSemantic then some .directSemantic
  else if tctx.holds prodSym tf .directSyntactic then some .directSyntactic
  else if tctx.holds prodSym tf .nameMatch then some .nameMatch
  else if tctx.holds prodSym tf .samePackage then some .samePackage
  else none

def discovery (prodSym : Symbol) (tf : TestFunc) (signal : Signal) : RelatedTestDiscovery where
  targetSymbolKeyHash := prodSym.symbolKeyHash
  targetSymbolName := prodSym.name
  testSymbolKeyHash := tf.symbol.symbolKeyHash
  testSymbolName := tf.symbol.name
  testFilePath := tf.symbol.filePath
  reasonCode := signal.text
  resolutionKind := signal.resolutionKind
  confidence := signal.confidence
  explanation := signal.explanation tf.symbol prodSym
  testLine := tf.symbol.startLine

def discoverFor (prodSym : Symbol) : List TestFunc → List String → List RelatedTestDiscovery
  | [], _ => []
  | tf :: rest, seenTests =>
    if seenTests.contains tf.symbol.symbolKeyHash then discoverFor prodSym rest seenTests
    else
      match tctx.signalOf prodSym tf with
      | none => discoverFor prodSym rest seenTests
      | some signal =>
        discovery prodSym tf signal ::
          discoverFor prodSym rest (tf.symbol.symbolKeyHash :: seenTests)

def discoverRelatedTests : List RelatedTestDiscovery :=
  if tctx.testSymbols.isEmpty || tctx.prodSymbols.isEmpty then []
  else tctx.prodSymbols.flatMap fun prodSym => tctx.discoverFor prodSym tctx.testFuncs []

def Strongest (prodSym : Symbol) (tf : TestFunc) (signal : Signal) : Prop :=
  tctx.holds prodSym tf signal = true ∧
    ∀ other, tctx.holds prodSym tf other = true → other.confidence ≤ signal.confidence

def ownDeclaration (sym : Symbol) : Option FuncDecl :=
  (tctx.testFiles sym.filePath).bind fun file =>
    file.decls.find? fun decl => decl.pos = ⟨sym.startLine, sym.startCol⟩ && decl.name = sym.name

def reported (prodHash testHash : String) : List RelatedTestDiscovery :=
  tctx.discoverRelatedTests.filter fun discovery =>
    discovery.targetSymbolKeyHash = prodHash && discovery.testSymbolKeyHash = testHash

def ReportsStrongest : Prop :=
  ∀ prodSym ∈ tctx.prodSymbols, ∀ testSym ∈ tctx.testSymbols,
    (tctx.reported prodSym.symbolKeyHash testSym.symbolKeyHash).length ≤ 1 ∧
      ∀ decl, tctx.ownDeclaration testSym = some decl →
        (∃ signal, tctx.holds prodSym ⟨testSym, decl⟩ signal = true) →
          ∃ discovery signal, tctx.reported prodSym.symbolKeyHash testSym.symbolKeyHash =
            [discovery] ∧
            tctx.Strongest prodSym ⟨testSym, decl⟩ signal ∧ discovery.reasonCode = signal.text ∧
              discovery.confidence = signal.confidence

def firstSignal (prodSym : Symbol) (testHash : String) : Option Signal :=
  (tctx.testFuncs.filter (·.symbol.symbolKeyHash = testHash)).findSome? (tctx.signalOf prodSym)

def ProductionApart : Prop :=
  ∀ testSym ∈ tctx.testSymbols, tctx.prodSymbols.Pairwise fun one two =>
    one.symbolKeyHash = two.symbolKeyHash →
      tctx.firstSignal one testSym.symbolKeyHash = none ∨
        tctx.firstSignal two testSym.symbolKeyHash = none

def FirstIsOwn : Prop :=
  ∀ prodSym ∈ tctx.prodSymbols, ∀ testSym ∈ tctx.testSymbols, ∀ decl,
    tctx.ownDeclaration testSym = some decl → (tctx.signalOf prodSym ⟨testSym, decl⟩).isSome →
      tctx.firstSignal prodSym testSym.symbolKeyHash = tctx.signalOf prodSym ⟨testSym, decl⟩

variable {tctx} {prodSym : Symbol} {tf : TestFunc}

theorem strongest_iff {signal : Signal} :
    tctx.Strongest prodSym tf signal ↔ tctx.signalOf prodSym tf = some signal := by
  have all (P : Signal → Prop) : (∀ signal, P signal) ↔
      P .directSemantic ∧ P .directSyntactic ∧ P .nameMatch ∧ P .samePackage := by
    constructor
    · exact fun every => ⟨every _, every _, every _, every _⟩
    · rintro ⟨first, second, third, fourth⟩ signal
      cases signal <;> assumption
  unfold Strongest signalOf
  rw [all]
  cases first : tctx.holds prodSym tf .directSemantic <;> cases second : tctx.holds prodSym tf
    .directSyntactic <;>
    cases third : tctx.holds prodSym tf .nameMatch <;> cases fourth : tctx.holds prodSym tf
      .samePackage <;>
      cases signal <;> simp [Signal.confidence, first, second, third, fourth] <;> norm_num

theorem signalOf_isSome :
    (tctx.signalOf prodSym tf).isSome ↔ ∃ signal, tctx.holds prodSym tf signal = true := by
  constructor
  · intro some
    obtain ⟨signal, found⟩ := Option.isSome_iff_exists.mp some
    exact ⟨signal, (strongest_iff.mpr found).1⟩
  · rintro ⟨signal, held⟩
    unfold signalOf
    cases signal <;> simp [held] <;> split_ifs <;> simp

theorem discoverFor_target {rest : List TestFunc} {seenTests : List String}
    {discovery : RelatedTestDiscovery}
    (member : discovery ∈ tctx.discoverFor prodSym rest seenTests) :
    discovery.targetSymbolKeyHash = prodSym.symbolKeyHash := by
  induction rest generalizing seenTests with
  | nil => cases member
  | cons tf rest ih =>
    unfold discoverFor at member
    split at member
    · exact ih member
    · split at member
      · exact ih member
      · rcases List.mem_cons.mp member with rfl | later
        · rfl
        · exact ih later

theorem discoverFor_test (rest : List TestFunc) (seenTests : List String) (testHash : String) :
    (tctx.discoverFor prodSym rest seenTests).filter (·.testSymbolKeyHash = testHash) =
      if testHash ∈ seenTests then []
      else ((rest.filter (·.symbol.symbolKeyHash = testHash)).findSome? fun tf =>
        (tctx.signalOf prodSym tf).map (discovery prodSym tf)).toList := by
  induction rest generalizing seenTests with
  | nil => simp [discoverFor]
  | cons tf rest ih =>
    unfold discoverFor
    by_cases known : tf.symbol.symbolKeyHash ∈ seenTests
    · rw [if_pos (List.contains_iff_mem.mpr known), ih]
      by_cases here : tf.symbol.symbolKeyHash = testHash
      · simp [here ▸ known]
      · simp [here]
    · rw [if_neg (by simpa using known)]
      cases found : tctx.signalOf prodSym tf with
      | none =>
        rw [ih]
        by_cases here : tf.symbol.symbolKeyHash = testHash <;> simp [here, found]
      | some signal =>
        by_cases here : tf.symbol.symbolKeyHash = testHash
        · simp [here ▸ known, here, found, discovery, ih]
        · simp [here, discovery, ih, Ne.symm here]

def firstDiscovery (tctx : TestDiscoveryContext) (testHash : String) (prodSym : Symbol) :
    Option RelatedTestDiscovery :=
  (tctx.testFuncs.filter (·.symbol.symbolKeyHash = testHash)).findSome? fun tf =>
    (tctx.signalOf prodSym tf).map (discovery prodSym tf)

theorem firstDiscovery_spec (testHash : String) (prodSym : Symbol) :
    (tctx.firstDiscovery testHash prodSym = none ∧ tctx.firstSignal prodSym testHash = none) ∨
      ∃ tf signal, tctx.firstDiscovery testHash prodSym = some (discovery prodSym tf signal) ∧
        tctx.firstSignal prodSym testHash = some signal := by
  unfold firstDiscovery firstSignal
  induction tctx.testFuncs.filter (·.symbol.symbolKeyHash = testHash) with
  | nil => exact .inl ⟨rfl, rfl⟩
  | cons tf rest ih =>
    cases found : tctx.signalOf prodSym tf with
    | none => simpa [found] using ih
    | some signal => exact .inr ⟨tf, signal, by simp [found], by simp [found]⟩

theorem firstDiscovery_eq_none (testHash : String) (prodSym : Symbol) :
    tctx.firstDiscovery testHash prodSym = none ↔ tctx.firstSignal prodSym testHash = none := by
  rcases @firstDiscovery_spec tctx testHash prodSym with
    ⟨none_, silent⟩ | ⟨tf, signal, some_, found⟩
  · simp [none_, silent]
  · simp [some_, found]

theorem discoverRelatedTests_eq : tctx.discoverRelatedTests =
    tctx.prodSymbols.flatMap fun prodSym => tctx.discoverFor prodSym tctx.testFuncs [] := by
  unfold discoverRelatedTests
  split
  · rename_i empty
    rw [Bool.or_eq_true, List.isEmpty_iff, List.isEmpty_iff] at empty
    rcases empty with noTests | noProds
    · simp [testFuncs, noTests, discoverFor]
    · simp [noProds]
  · rfl

theorem reported_eq (prodHash testHash : String) : tctx.reported prodHash testHash =
    (tctx.prodSymbols.filter (·.symbolKeyHash = prodHash)).filterMap
      (tctx.firstDiscovery testHash) := by
  rw [reported, discoverRelatedTests_eq]
  induction tctx.prodSymbols with
  | nil => rfl
  | cons prodSym rest ih =>
    rw [List.flatMap_cons, List.filter_append, ih]
    have own : (tctx.discoverFor prodSym tctx.testFuncs []).filter (fun discovery =>
          discovery.targetSymbolKeyHash = prodHash && discovery.testSymbolKeyHash = testHash) =
        if prodSym.symbolKeyHash = prodHash then
          (tctx.firstDiscovery testHash prodSym).toList else [] := by
      split
      · rename_i here
        have test := @discoverFor_test tctx prodSym tctx.testFuncs [] testHash
        rw [if_neg List.not_mem_nil] at test
        rw [firstDiscovery, ← test]
        apply List.filter_congr
        intro discovery member
        simp [discoverFor_target member, here]
      · rename_i other
        rw [List.filter_eq_nil_iff]
        intro discovery member
        simp [discoverFor_target member, other]
    rw [own]
    by_cases here : prodSym.symbolKeyHash = prodHash
    · rw [if_pos here, List.filter_cons_of_pos (by simpa using here), List.filterMap_cons]
      cases tctx.firstDiscovery testHash prodSym <;> rfl
    · rw [if_neg here, List.filter_cons_of_neg (by simpa using here), List.nil_append]

theorem length_filterMap_le_one_iff {α β : Type} (f : α → Option β) (l : List α) :
    (l.filterMap f).length ≤ 1 ↔ l.Pairwise fun a b => f a = none ∨ f b = none := by
  induction l with
  | nil => simp
  | cons a l ih =>
    rw [List.pairwise_cons, List.filterMap_cons]
    cases value : f a with
    | none => simp [ih]
    | some b =>
      have rest_none : (l.filterMap f).length + 1 ≤ 1 ↔ ∀ c ∈ l, f c = none := by
        rw [← List.filterMap_eq_nil_iff, ← List.length_eq_zero_iff]
        omega
      simp only [List.length_cons, rest_none, reduceCtorEq, false_or]
      constructor
      · intro silent
        refine ⟨silent, ih.mp ?_⟩
        rw [List.filterMap_eq_nil_iff.mpr silent]
        exact Nat.zero_le 1
      · exact fun both => both.1

theorem signal_text_inj {one two : Signal} (same : one.text = two.text) : one = two := by
  cases one <;> cases two <;> first | rfl | simp [Signal.text] at same

theorem firstSignal_isSome_of_own {testSym : Symbol} {decl : FuncDecl}
    (member : testSym ∈ tctx.testSymbols) (own : tctx.ownDeclaration testSym = some decl)
    (signals : (tctx.signalOf prodSym ⟨testSym, decl⟩).isSome) :
    (tctx.firstSignal prodSym testSym.symbolKeyHash).isSome := by
  obtain ⟨file, parsed, found⟩ := Option.bind_eq_some_iff.mp own
  have listed := List.mem_of_find?_eq_some found
  have named : decl.name = testSym.name := by
    have both := List.find?_some found
    simp only [Bool.and_eq_true, decide_eq_true_eq] at both
    exact both.2
  have joined : (⟨testSym, decl⟩ : TestFunc) ∈ tctx.joined testSym := by
    simp [TestDiscoveryContext.joined, parsed, listed, named]
  rw [firstSignal, List.findSome?_isSome_iff]
  refine ⟨⟨testSym, decl⟩, ?_, signals⟩
  rw [List.mem_filter]
  exact ⟨List.mem_flatMap.mpr ⟨testSym, member, joined⟩, by simp⟩

theorem productionApart_iff :
    tctx.ProductionApart ↔ ∀ prodSym ∈ tctx.prodSymbols, ∀ testSym ∈ tctx.testSymbols,
    (tctx.reported prodSym.symbolKeyHash testSym.symbolKeyHash).length ≤ 1 := by
  simp only [reported_eq, length_filterMap_le_one_iff, List.pairwise_filter, firstDiscovery_eq_none]
  constructor
  · intro apart prodSym _ testSym member
    apply (apart testSym member).imp
    intro one two none_or first second
    apply none_or
    simp only [decide_eq_true_eq] at first second
    exact first.trans second.symm
  · intro apart testSym member
    rw [List.pairwise_iff_forall_sublist]
    intro one two pair same
    have pairs := apart one (pair.subset List.mem_cons_self) testSym member
    rw [List.pairwise_iff_forall_sublist] at pairs
    exact pairs pair (by simp) (by simp [same])

/-- The strongest signals are reported exactly when no two production symbols share a key and a
test, and the first test of a name with a signal has its own one. -/
theorem reportsStrongest_iff (tctx : TestDiscoveryContext) :
    tctx.ReportsStrongest ↔ tctx.ProductionApart ∧ tctx.FirstIsOwn := by
  rw [productionApart_iff]
  -- what a production symbol has for a test is among what is reported for their keys
  have reports {prodSym : Symbol} (member : prodSym ∈ tctx.prodSymbols) {testHash : String}
      {found : RelatedTestDiscovery} (first : tctx.firstDiscovery testHash prodSym = some found) :
      found ∈ tctx.reported prodSym.symbolKeyHash testHash := by
    rw [reported_eq, List.mem_filterMap]
    exact ⟨prodSym, by simp [member], first⟩
  constructor
  · intro strongest
    refine ⟨fun prodSym prod testSym test => (strongest prodSym prod testSym test).1, ?_⟩
    intro prodSym prod testSym test decl own signals
    obtain ⟨found, signal, only, strong, reason, -⟩ :=
      (strongest prodSym prod testSym test).2 decl own (signalOf_isSome.mp signals)
    have some_ := firstSignal_isSome_of_own test own signals
    rcases @firstDiscovery_spec tctx testSym.symbolKeyHash prodSym with
      ⟨-, silent⟩ | ⟨tf, given, first, is⟩
    · simp [silent] at some_
    · have listed := reports prod first
      rw [only, List.mem_singleton] at listed
      rw [← listed] at reason
      rw [is, strongest_iff.mp strong, signal_text_inj reason]
  · rintro ⟨apart, firstIsOwn⟩ prodSym prod testSym test
    have few := apart prodSym prod testSym test
    refine ⟨few, ?_⟩
    intro decl own signals
    obtain ⟨signal, strong⟩ := Option.isSome_iff_exists.mp (signalOf_isSome.mpr signals)
    have same := firstIsOwn prodSym prod testSym test decl own (signalOf_isSome.mpr signals)
    rcases @firstDiscovery_spec tctx testSym.symbolKeyHash prodSym with
      ⟨-, silent⟩ | ⟨tf, given, first, is⟩
    · rw [same, strong] at silent
      cases silent
    · rw [same, strong, Option.some.injEq] at is
      have listed := reports prod first
      obtain ⟨only, whole⟩ : ∃ only,
          tctx.reported prodSym.symbolKeyHash testSym.symbolKeyHash = [only] :=
        List.length_eq_one_iff.mp (Nat.le_antisymm few (List.length_pos_of_mem listed))
      rw [whole, List.mem_singleton] at listed
      refine ⟨only, signal, whole, strongest_iff.mpr strong, ?_, ?_⟩
      · rw [← listed, is]
        rfl
      · rw [← listed, is]
        rfl

def sampleSymbol (filePath hash : String) (kind : SymbolKind) (name receiver : String)
    (line : Nat) : Symbol where
  filePath := filePath
  symbolKeyRaw := hash
  symbolKeyHash := hash
  modulePath := "m"
  packagePath := "m/p"
  packageName := "p"
  kind := kind
  name := name
  qualifiedName := "p." ++ name
  receiverCanonical := receiver
  startLine := line
  startCol := 1

def sampleTests : TestDiscoveryContext where
  symbols := [sampleSymbol "p/a.go" "open" .function "Open" "" 3,
    sampleSymbol "p/a_test.go" "one" .method "Close" "One" 5,
      sampleSymbol "p/a_test.go" "two" .method "Close" "Two" 9]
  testFiles := fun path => if path = "p/a_test.go" then
    some ⟨[⟨⟨5, 1⟩, "Close", some (.ident ⟨0, "Open"⟩)⟩, ⟨⟨9, 1⟩, "Close", some (.other [])⟩],
      by decide⟩ else none
  typeInfoByFile := fun _ => none
  sha256Hex := id

theorem sampleTests_not_strongest : ¬ sampleTests.ReportsStrongest := by
  intro strongest
  obtain ⟨found, signal, only, strong, reason, -⟩ :=
    (strongest (sampleSymbol "p/a.go" "open" .function "Open" "" 3) (by decide +kernel)
      (sampleSymbol "p/a_test.go" "two" .method "Close" "Two" 9) (by decide +kernel)).2
      ⟨⟨9, 1⟩, "Close", some (.other [])⟩ rfl ⟨.samePackage, by decide +kernel⟩
  have own : signal = .samePackage := by
    rw [strongest_iff] at strong
    exact Option.some.inj (strong.symm.trans rfl)
  have first : (sampleTests.reported "open" "two").map (·.reasonCode) =
      ["DIRECT_SYNTACTIC_USAGE"] := by decide +kernel
  rw [show sampleTests.reported "open" "two" = [found] from only, List.map_singleton, reason,
    own] at first
  exact absurd first (by decide)

end TestDiscoveryContext

end CodeIntel

end RepoLens
