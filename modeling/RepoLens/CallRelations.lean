import RepoLens.GoProgram

/-!
`internal/codeintel/relation`: the calls and references in the bodies of a file.
-/

namespace RepoLens

namespace CodeIntel

structure SymbolRelation where
  fromSymbolKeyHash : String
  toSymbolKeyHash : String
  relationType : RelationType
  resolutionKind : ResolutionKind
  confidence : Rat
  reasonCode : String
  reasonDetail : String
  targetName : String
  targetPackagePath : String
  targetQualifiedName : String
  filePath : String
  line : Nat
  column : Nat
  deriving DecidableEq

/-- `ExtractionContext`, with the digest that symbol keys are made with. Digests are not empty. -/
structure ExtractionContext where
  modulePath : String
  symbolsByKey : String → Option Symbol
  symbolsByFile : String → List Symbol
  importPathMap : String → List (String × String)
  typeInfoByFile : String → Option TypeInfo
  sha256Hex : String → String
  hashed : ∀ key symbol, symbolsByKey key = some symbol → symbol.symbolKeyHash ≠ ""

/-- Where a relation is found. -/
structure Site where
  callerHash : String
  filePath : String
  packagePath : String
  pos : Position

def callRelation (site : Site) (toSymbolKeyHash : String) (resolutionKind : ResolutionKind)
    (confidence : Rat)
    (reasonCode reasonDetail targetName targetPackagePath
      targetQualifiedName : String) : SymbolRelation :=
  { fromSymbolKeyHash := site.callerHash
    toSymbolKeyHash, relationType :=
      .callCandidate, resolutionKind, confidence, reasonCode, reasonDetail,
    targetName, targetPackagePath, targetQualifiedName
    filePath := site.filePath
    line := site.pos.line
    column := site.pos.column }

def indirectCallRelation (site : Site) (targetName : String) : SymbolRelation :=
  callRelation site "" .unresolved 0 "INDIRECT_CALL"
    ("Call through function-valued variable " ++ targetName ++ " is indirect") targetName "" ""

namespace ExtractionContext

variable (ectx : ExtractionContext)

def lookup (packagePath receiver : String) (kind : SymbolKind) (name : String) : Option Symbol :=
  ectx.symbolsByKey (buildSymbolKey ectx.sha256Hex ectx.modulePath packagePath receiver kind name).1

def methodCall (site : Site) (obj : Object) (recv : Option GoType) : SymbolRelation :=
  let receiverName := (Object.declaredReceiverName recv).getD ""
  let targetPkgPath := obj.pkgPath
  let found := if (Object.declaredReceiverName recv).isSome then
    ectx.lookup targetPkgPath receiverName .method obj.name else none
  match found with
  | some targetSym =>
    callRelation site targetSym.symbolKeyHash .semantic 1 "SEMANTIC_METHOD_SELECTION"
      ("Call to method " ++ obj.name ++ " on declaring receiver " ++ receiverName ++
        " resolved via go/types")
      obj.name targetPkgPath (receiverName ++ "." ++ obj.name)
  | none =>
    -- not downgraded to a syntactic candidate
    let reasonCode := if targetPkgPath ≠ "" ∧ targetPkgPath ≠ ectx.modulePath ∧
        ¬ (ectx.modulePath ++ "/").toList <+: targetPkgPath.toList then "UNRESOLVED_EXTERNAL_METHOD"
      else "SEMANTIC_TARGET_NOT_INDEXED"
    let qualifiedName := if receiverName ≠ "" then receiverName ++ "." ++ obj.name else obj.name
    callRelation site "" .unresolved 0 reasonCode
      ("go/types resolved method " ++ qualifiedName ++ " but the target symbol is not indexed")
      obj.name targetPkgPath qualifiedName

def usedCall (site : Site) (reasonCode : String) (reasonDetail : String → String → String) :
    Option Object → Option SymbolRelation
  | none => none
  | some obj =>
    match obj.kind with
    | .func _ =>
      (ectx.lookup obj.pkgPath "" .function obj.name).map fun targetSym =>
        callRelation site targetSym.symbolKeyHash .semantic 1 reasonCode
          (reasonDetail obj.name obj.pkgPath)
          obj.name obj.pkgPath targetSym.qualifiedName
    | _ => if obj.isFunctionValue then some (indirectCallRelation site obj.name) else none

def packageFuncDetail (name pkg : String) : String :=
  "Call to func " ++ name ++ " in pkg " ++ pkg ++ " resolved via go/types"

def directFuncDetail (name _pkg : String) : String :=
  "Direct call to local func " ++ name ++ " resolved via go/types"

/-- The first part of `extractCallRelation`, by the type information. -/
def semanticCall (site : Site) (info : TypeInfo) : Node → Option SymbolRelation
  | .selector _ _ sel =>
    let used := ectx.usedCall site "SEMANTIC_PACKAGE_FUNC_CALL" packageFuncDetail (info.uses sel.id)
    match info.selections sel.id with
    | none => used
    | some obj =>
      match obj.kind with
      | .func recv => some (ectx.methodCall site obj recv)
      | _ => if obj.isFunctionValue then some (indirectCallRelation site obj.name) else used
  | .ident ident =>
    ectx.usedCall site "SEMANTIC_DIRECT_FUNC_CALL" directFuncDetail (info.uses ident.id)
  | _ => none

def syntacticCall (site : Site) : Node → Option SymbolRelation
  | .selector _ (.ident x) sel =>
    match (ectx.importPathMap site.filePath).lookup x.name with
    | some importPath =>
      let found := if ectx.modulePath.toList <+: importPath.toList then
        ectx.lookup importPath "" .function sel.name else none
      match found with
      | some targetSym =>
        some (callRelation site targetSym.symbolKeyHash .syntactic (4 / 5)
          "SYNTACTIC_IMPORTED_PACKAGE_CALL"
          ("Call to " ++ x.name ++ "." ++ sel.name ++ " matched via AST import alias")
          sel.name importPath targetSym.qualifiedName)
      | none =>
        some (callRelation site "" .unresolved (1 / 2) "UNRESOLVED_EXTERNAL_CALL"
          ("Call to " ++ x.name ++ "." ++ sel.name ++ " in external package " ++ importPath)
          sel.name importPath (x.name ++ "." ++ sel.name))
    | none =>
      some (callRelation site "" .syntactic (3 / 5) "SYNTACTIC_RECEIVER_CALL"
        ("Method call ." ++ sel.name ++ "() on receiver variable " ++ x.name)
        sel.name site.packagePath (x.name ++ "." ++ sel.name))
  | .ident ident =>
    (ectx.lookup site.packagePath "" .function ident.name).map fun targetSym =>
      callRelation site targetSym.symbolKeyHash .syntactic (3 / 4) "SYNTACTIC_SAME_PKG_FUNC_CALL"
        ("Call to local function " ++ ident.name) ident.name site.packagePath
          targetSym.qualifiedName
  | _ => none

def extractCallRelation (site : Site) (typeInfo : Option TypeInfo) (fn : Node) :
    Option SymbolRelation :=
  (typeInfo.bind fun info => ectx.semanticCall site info fn).or (ectx.syntacticCall site fn)

def referencedSymbolKind (obj : Object) : Option SymbolKind :=
  match obj.kind with
  | .func (some _) => some .method
  | .func none => some .function
  | .typeName _ type => some (if type.unalias.underlying = .interface then .interface else .type)
  | _ => none

def referencedReceiver (obj : Object) : Option String :=
  match obj.kind with
  | .func (some recv) => Object.declaredReceiverName (some recv)
  | _ => some ""

def extractSelectorReference (site : Site) (typeInfo : Option TypeInfo) (sel : Ident) :
    Option SymbolRelation := do
  let info ← typeInfo
  let usesObj ← info.uses sel.id
  let kind ← referencedSymbolKind usesObj
  let receiver ← referencedReceiver usesObj
  let targetSym ← ectx.lookup usesObj.pkgPath receiver kind sel.name
  return { callRelation site targetSym.symbolKeyHash .semantic 1 "SEMANTIC_TYPE_OR_SYMBOL_REF"
    ("Reference to " ++ sel.name ++ " in pkg " ++ usesObj.pkgPath ++ " resolved via go/types")
    sel.name usesObj.pkgPath targetSym.qualifiedName with relationType := .reference }

def findEnclosingSymbol (funcDecl : FuncDecl) (fileSymbols : List Symbol) : Option Symbol :=
  fileSymbols.find? fun sym =>
    sym.startLine = funcDecl.pos.line && sym.startCol = funcDecl.pos.column && sym.name =
      funcDecl.name

def nodeRelation (callerHash filePath packagePath : String) (typeInfo : Option TypeInfo) : Node →
    Option SymbolRelation
  | .call pos fn _ => ectx.extractCallRelation ⟨callerHash, filePath, packagePath, pos⟩ typeInfo fn
  | .selector pos _ sel =>
    ectx.extractSelectorReference ⟨callerHash, filePath, packagePath, pos⟩ typeInfo sel
  | _ => none

def extractRelations (decls : List FuncDecl) (filePath packagePath : String) :
    List SymbolRelation :=
  decls.flatMap fun funcDecl =>
    match funcDecl.body with
    | none => []
    | some body =>
      let callerHash := ((findEnclosingSymbol funcDecl (ectx.symbolsByFile filePath)).map
        (·.symbolKeyHash)).getD ""
      body.nodes.filterMap (ectx.nodeRelation callerHash filePath packagePath
        (ectx.typeInfoByFile filePath))

def ownSymbol (obj : Object) : Option Symbol :=
  match obj.kind with
  | .func none => ectx.lookup obj.pkgPath "" .function obj.name
  | .func (some recv) =>
    match Object.receiverType recv with
    | .named receiver true _ => ectx.lookup obj.pkgPath receiver .method obj.name
    | _ => none
  | .typeName true type =>
    ectx.lookup obj.pkgPath "" (if type.unalias.underlying = .interface then .interface else .type)
      obj.name
  | _ => none

def calleeObject (info : TypeInfo) : Node → Option Object
  | .selector _ _ sel => (info.selections sel.id).or (info.uses sel.id)
  | .ident ident => info.uses ident.id
  | _ => none

def NamesOwn (obj : Object) (relation : SymbolRelation) : Prop :=
  relation.toSymbolKeyHash ≠ "" →
    ∃ symbol, ectx.ownSymbol obj = some symbol ∧ relation.toSymbolKeyHash = symbol.symbolKeyHash

def namedFunction (site : Site) : Node → Option Symbol
  | .selector _ (.ident x) sel =>
    ((ectx.importPathMap site.filePath).lookup x.name).bind fun importPath =>
      if ectx.modulePath.toList <+: importPath.toList then
        ectx.lookup importPath "" .function sel.name else none
  | .ident ident => ectx.lookup site.packagePath "" .function ident.name
  | _ => none

def Decided (obj : Object) : Prop :=
  obj.isMethod = true ∨ obj.isFunctionValue = true ∨
    (obj.kind = .func none ∧ (ectx.lookup obj.pkgPath "" .function obj.name).isSome)

def LocalMethodsApart (obj : Object) : Prop :=
  ∀ recv receiver form, obj.kind = .func (some recv) →
    Object.receiverType recv = .named receiver false form →
    ectx.lookup obj.pkgPath receiver .method obj.name = none

def NamesApart (site : Site) (fn : Node) (obj : Object) : Prop :=
  ¬ ectx.Decided obj → ∀ named, ectx.namedFunction site fn = some named →
    ∃ symbol, ectx.ownSymbol obj = some symbol ∧ named.symbolKeyHash = symbol.symbolKeyHash

variable {ectx} {site : Site} {info : TypeInfo} {fn : Node} {obj : Object}

theorem methodCall_names {recv : GoType} (kind : obj.kind = .func (some recv)) :
    ectx.NamesOwn obj (ectx.methodCall site obj (some recv)) ↔ ectx.LocalMethodsApart obj := by
  have apart : ectx.LocalMethodsApart obj ↔ ∀ receiver form,
      Object.receiverType recv = .named receiver false form →
        ectx.lookup obj.pkgPath receiver .method obj.name = none := by
    unfold LocalMethodsApart
    simp only [kind, ObjectKind.func.injEq, Option.some.injEq]
    exact ⟨fun all receiver form => all recv receiver form rfl,
      fun all _ receiver form same => same ▸ all receiver form⟩
  rw [apart]
  unfold methodCall NamesOwn ownSymbol Object.declaredReceiverName
  simp only [Option.map_some, kind]
  cases shape : Object.receiverType recv with
  | named receiver packageLevel form =>
    simp only [Option.isSome_some, if_true, Option.getD_some]
    cases found : ectx.lookup obj.pkgPath receiver .method obj.name with
    | none => cases packageLevel <;> simp [callRelation, found]
    | some symbol =>
      have hash := ectx.hashed _ _ found
      cases packageLevel <;> simp [callRelation, found, hash]
  | _ => simp [callRelation]

theorem usedCall_names {reasonCode : String} {reasonDetail : String → String → String}
    {relation : SymbolRelation} (plain : obj.isMethod = false)
    (found : ectx.usedCall site reasonCode reasonDetail (some obj) = some relation) : ectx.NamesOwn
      obj relation := by
  unfold usedCall at found
  simp only at found
  split at found
  · next recv kind =>
      cases recv with
      | some type => simp [Object.isMethod, kind] at plain
      | none =>
        obtain ⟨symbol, indexed, rfl⟩ := Option.map_eq_some_iff.mp found
        intro _
        exact ⟨symbol, by simp [ownSymbol, kind, indexed], rfl⟩
  · split at found
    · cases found
      exact fun some => absurd rfl some
    · cases found

theorem usedCall_eq_none {reasonCode : String} {reasonDetail : String → String → String}
    (plain : obj.isMethod = false) :
    ectx.usedCall site reasonCode reasonDetail (some obj) = none ↔ ¬ ectx.Decided obj := by
  unfold usedCall Decided
  simp only [plain, Bool.false_eq_true, false_or]
  cases kind : obj.kind with
  | func recv =>
    cases recv with
    | some type => simp [Object.isMethod, kind] at plain
    | none => simp [Object.isFunctionValue, kind]
  | _ => simp

theorem syntacticCall_names :
    (∀ relation, ectx.syntacticCall site fn = some relation → ectx.NamesOwn obj relation) ↔
      ∀ named, ectx.namedFunction site fn = some named →
        ∃ symbol, ectx.ownSymbol obj = some symbol ∧
          named.symbolKeyHash = symbol.symbolKeyHash := by
  have linked {relation : SymbolRelation} {key : String} {named : Symbol}
    (indexed : ectx.symbolsByKey key = some named)
      (target : relation.toSymbolKeyHash = named.symbolKeyHash) :
      ectx.NamesOwn obj relation ↔
        ∃ symbol, ectx.ownSymbol obj = some symbol ∧
          named.symbolKeyHash = symbol.symbolKeyHash := by
    unfold NamesOwn
    rw [target]
    exact ⟨fun names => names (ectx.hashed _ _ indexed), fun names _ => names⟩
  have unlinked {relation : SymbolRelation} (target : relation.toSymbolKeyHash = "") : ectx.NamesOwn
      obj relation :=
    fun some => absurd target some
  cases fn with
  | ident ident =>
    simp only [syntacticCall, namedFunction]
    cases found : ectx.lookup site.packagePath "" .function ident.name with
    | none => simp
    | some named => simpa using linked found rfl
  | selector pos x sel =>
    cases x with
    | ident x =>
      simp only [syntacticCall, namedFunction]
      cases imported : (ectx.importPathMap site.filePath).lookup x.name with
      | none => simpa using unlinked rfl
      | some importPath =>
        by_cases inside : ectx.modulePath.toList <+: importPath.toList
        · simp only [Option.bind_some, if_pos inside]
          cases found : ectx.lookup importPath "" .function sel.name with
          | none => simpa using unlinked rfl
          | some named => simpa using linked found rfl
        · simp only [Option.bind_some, if_neg inside]
          simpa using unlinked rfl
    | _ => simp [syntacticCall, namedFunction]
  | _ => simp [syntacticCall, namedFunction]

theorem semanticCall_cases (alone : ∀ ident, fn = .ident ident → info.selections ident.id = none)
    (callee : calleeObject info fn = some obj) :
    (∃ recv, obj.kind = .func (some recv) ∧
        ectx.semanticCall site info fn = some (ectx.methodCall site obj (some recv))) ∨
      (∃ relation, ectx.Decided obj ∧ obj.isMethod = false ∧
        ectx.semanticCall site info fn = some relation ∧ ectx.NamesOwn obj relation) ∨
      (¬ ectx.Decided obj ∧ ectx.semanticCall site info fn = none) := by
  -- a function or a variable that the identifier denotes
  have used (plain : obj.isMethod = false) (call : ∃ reasonCode reasonDetail,
      ectx.semanticCall site info fn = ectx.usedCall site reasonCode reasonDetail (some obj)) :
      (∃ relation, ectx.Decided obj ∧ obj.isMethod = false ∧
        ectx.semanticCall site info fn = some relation ∧ ectx.NamesOwn obj relation) ∨
      (¬ ectx.Decided obj ∧ ectx.semanticCall site info fn = none) := by
    obtain ⟨reasonCode, reasonDetail, eq⟩ := call
    rw [eq]
    cases found : ectx.usedCall site reasonCode reasonDetail (some obj) with
    | none => exact .inr ⟨(usedCall_eq_none plain).mp found, rfl⟩
    | some relation =>
      refine .inl ⟨relation, ?_, plain, rfl, usedCall_names plain found⟩
      by_contra undecided
      rw [(usedCall_eq_none plain).mpr undecided] at found
      cases found
  have plain_of {id : Nat} (uses : info.uses id = some obj) (none_ : info.selections id = none) :
      obj.isMethod = false := by
    by_contra method
    rw [info.selected _ _ uses (by simpa using method)] at none_
    cases none_
  cases fn with
  | ident ident =>
    have uses : info.uses ident.id = some obj := callee
    refine .inr (used (plain_of uses (alone ident rfl)) ⟨"SEMANTIC_DIRECT_FUNC_CALL",
      directFuncDetail, ?_⟩)
    rw [semanticCall, uses]
  | selector pos x sel =>
    cases selection : info.selections sel.id with
    | none =>
      have uses : info.uses sel.id = some obj := by simpa [calleeObject, selection] using callee
      refine .inr (used (plain_of uses selection) ⟨"SEMANTIC_PACKAGE_FUNC_CALL", packageFuncDetail,
        ?_⟩)
      simp only [semanticCall, selection, uses]
    | some other =>
      have same : other = obj := by simpa [calleeObject, selection] using callee
      rw [same] at selection
      have uses := info.used _ _ selection
      cases kind : obj.kind with
      | func recv =>
        cases recv with
        | some recv => exact .inl ⟨recv, rfl, by simp only [semanticCall, selection, kind]⟩
        | none => exact absurd kind (info.methods _ _ selection)
      | _ =>
        have plain : obj.isMethod = false := by simp [Object.isMethod, kind]
        refine .inr (used plain ⟨"SEMANTIC_PACKAGE_FUNC_CALL", packageFuncDetail, ?_⟩)
        -- the selection and the identifier give the same answer
        simp only [semanticCall, selection, kind, uses, usedCall]
        split <;> rfl
  | _ => cases callee

/-- A call is linked to the symbol of the object that its callee denotes, if to any, exactly if
methods of local types have no symbol under their names, and the function found by name is the
object's own where the type information does not decide. -/
theorem callRelation_sound_iff (ectx : ExtractionContext) (site : Site) (info : TypeInfo)
    (fn : Node) (obj : Object)
    (alone : ∀ ident, fn = .ident ident → info.selections ident.id = none)
    (callee : calleeObject info fn = some obj) :
    (∀ relation, ectx.extractCallRelation site (some info) fn = some relation →
      ectx.NamesOwn obj relation) ↔
      ectx.LocalMethodsApart obj ∧ ectx.NamesApart site fn obj := by
  have apart (plain : obj.isMethod = false) : ectx.LocalMethodsApart obj := by
    intro recv _ _ kind
    simp [Object.isMethod, kind] at plain
  unfold extractCallRelation NamesApart
  rcases @semanticCall_cases ectx site info fn obj alone callee with
    ⟨recv, kind, call⟩ | ⟨relation, decided, plain, call, names⟩ | ⟨undecided, call⟩
  · have decided : ectx.Decided obj := .inl (by simp [Object.isMethod, kind])
    simp only [Option.bind_some, call, Option.some_or, Option.some.injEq, forall_eq',
      methodCall_names kind, decided, not_true_eq_false, false_imp_iff, and_true]
  · simp only [Option.bind_some, call, Option.some_or, Option.some.injEq, forall_eq', decided,
      not_true_eq_false, false_imp_iff, and_true]
    exact ⟨fun _ => apart plain, fun _ => names⟩
  · have plain : obj.isMethod = false := by
      by_contra method
      exact undecided (.inl (by simpa using method))
    simp only [Option.bind_some, call, Option.none_or, syntacticCall_names, undecided,
      not_false_eq_true, true_imp_iff, apart plain, true_and]

def sampleContext : ExtractionContext where
  modulePath := "m"
  symbolsByKey := fun key =>
    if key = "m|m||FUNCTION|parse" then
      some ⟨"a.go", key, "h", "m", "m", "m", .function, "parse", "m.parse", "", 1, 1⟩
    else none
  symbolsByFile := fun _ => []
  importPathMap := fun _ => []
  typeInfoByFile := fun _ => none
  sha256Hex := fun _ => "h"
  hashed := by
    intro key symbol found
    split at found
    · cases found
      exact (by decide : "h" ≠ "")
    · cases found

def sampleInfo (obj : Object) (plain : obj.isMethod = false) : TypeInfo where
  uses := fun _ => some obj
  selections := fun _ => none
  used := by simp
  selected := by
    intro _ other same method
    cases same
    rw [plain] at method
    cases method
  methods := by simp

theorem callRelation_sound_iff_function :
    ∃ relation, sampleContext.extractCallRelation ⟨"", "a.go", "m", ⟨2, 1⟩⟩
        (some (sampleInfo ⟨some "m", "parse", .func none⟩ rfl))
        (.ident ⟨0, "parse"⟩) = some relation ∧
      sampleContext.NamesOwn ⟨some "m", "parse", .func none⟩ relation := by
  refine ⟨_, rfl, (callRelation_sound_iff sampleContext ⟨"", "a.go", "m", ⟨2, 1⟩⟩
    (sampleInfo ⟨some "m", "parse", .func none⟩ rfl)
    (.ident ⟨0, "parse"⟩) ⟨some "m", "parse", .func none⟩
    (fun _ _ => rfl) rfl).mpr ⟨?_, ?_⟩ _ rfl⟩
  · rintro recv receiver form kind
    cases kind
  · intro undecided
    refine absurd (.inr (.inr ⟨rfl, ?_⟩)) undecided
    decide +kernel

/-- A conversion to a local type of the name of a function. -/
theorem conversion_linked_to_function :
    calleeObject (sampleInfo ⟨some "m", "parse", .typeName false (.named "parse" false .other)⟩ rfl)
        (.ident ⟨0, "parse"⟩) = some ⟨some "m", "parse",
          .typeName false (.named "parse" false .other)⟩ ∧
      ∃ relation, sampleContext.extractCallRelation ⟨"", "a.go", "m", ⟨2, 1⟩⟩
        (some (sampleInfo ⟨some "m", "parse", .typeName false (.named "parse" false .other)⟩ rfl))
        (.ident ⟨0, "parse"⟩) = some relation ∧ relation.toSymbolKeyHash = "h" ∧
      ¬ sampleContext.NamesOwn ⟨some "m", "parse",
        .typeName false (.named "parse" false .other)⟩ relation := by
  refine ⟨rfl, _, rfl, by decide +kernel, ?_⟩
  intro names
  obtain ⟨symbol, own, _⟩ := names (by decide +kernel)
  cases own

end ExtractionContext

end CodeIntel

end RepoLens
