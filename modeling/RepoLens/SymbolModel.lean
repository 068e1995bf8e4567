import Mathlib

/-!
`internal/codeintel/model`: symbols, how they are named, and how two of them are related.
-/

namespace RepoLens

namespace CodeIntel

inductive SymbolKind where
  | function
  | method
  | type
  | interface
  deriving DecidableEq

def SymbolKind.text : SymbolKind → String
  | .function => "FUNCTION"
  | .method => "METHOD"
  | .type => "TYPE"
  | .interface => "INTERFACE"

inductive RelationType where
  | reference
  | callCandidate
  | testRelation
  deriving DecidableEq

def RelationType.text : RelationType → String
  | .reference => "REFERENCE"
  | .callCandidate => "CALL_CANDIDATE"
  | .testRelation => "TEST_RELATION"

inductive ResolutionKind where
  | semantic
  | syntactic
  | heuristic
  | unresolved
  deriving DecidableEq

def ResolutionKind.text : ResolutionKind → String
  | .semantic => "SEMANTIC"
  | .syntactic => "SYNTACTIC"
  | .heuristic => "HEURISTIC"
  | .unresolved => "UNRESOLVED"

/-- The fields of `Symbol` that relations and tests are made from. -/
structure Symbol where
  filePath : String
  symbolKeyRaw : String
  symbolKeyHash : String
  modulePath : String
  packagePath : String
  packageName : String
  kind : SymbolKind
  name : String
  qualifiedName : String
  receiverCanonical : String
  startLine : Nat
  startCol : Nat
  deriving DecidableEq

def symbolKeyRawOf (modulePath packagePath receiverCanonical : String) (kind : SymbolKind)
    (name : String) :
    String :=
  modulePath ++ "|" ++ packagePath ++ "|" ++ receiverCanonical ++ "|" ++ kind.text ++ "|" ++ name

/-- `BuildSymbolKey`, with the digest of a text. -/
def buildSymbolKey (sha256Hex : String → String) (modulePath packagePath receiverCanonical : String)
    (kind : SymbolKind) (name : String) : String × String :=
  let raw := symbolKeyRawOf modulePath packagePath receiverCanonical kind name
  (raw, sha256Hex raw)

end CodeIntel

end RepoLens
