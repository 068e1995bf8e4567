import RepoLens.SymbolModel

/-!
What is read of a Go file: the tree of `go/ast` and what `go/types` records for its identifiers.
-/

namespace RepoLens

namespace CodeIntel

structure Position where
  line : Nat
  column : Nat
  deriving DecidableEq

structure Ident where
  id : Nat
  name : String
  deriving DecidableEq

inductive Node where
  | ident (ident : Ident)
  | selector (pos : Position) (x : Node) (sel : Ident)
  | call (pos : Position) (fn : Node) (args : List Node)
  | other (children : List Node)

mutual

/-- The nodes in the order of `ast.Inspect`. -/
def Node.nodes : Node → List Node
  | .ident ident => [.ident ident]
  | .selector pos x sel => .selector pos x sel :: (x.nodes ++ [.ident sel])
  | .call pos fn args => .call pos fn args :: (fn.nodes ++ nodesOf args)
  | .other children => .other children :: nodesOf children

def nodesOf : List Node → List Node
  | [] => []
  | child :: children => child.nodes ++ nodesOf children

end

structure FuncDecl where
  pos : Position
  name : String
  body : Option Node

inductive TypeForm where
  | interface
  | signature
  | other
  deriving DecidableEq

inductive GoType where
  | named (name : String) (packageLevel : Bool) (form : TypeForm)
  | pointer (elem : GoType)
  | alias (actual : GoType)
  | typeParam
  | literal (form : TypeForm)
  deriving DecidableEq

namespace GoType

def unalias : GoType → GoType
  | .alias actual => actual.unalias
  | type => type

def underlying : GoType → TypeForm
  | .named _ _ form => form
  | .pointer _ => .other
  | .alias actual => actual.underlying
  | .typeParam => .interface
  | .literal form => form

end GoType

inductive ObjectKind where
  | func (recv : Option GoType)
  | typeName (packageLevel : Bool) (type : GoType)
  | var (type : Option GoType)
  | other
  deriving DecidableEq

structure Object where
  pkg : Option String
  name : String
  kind : ObjectKind
  deriving DecidableEq

namespace Object

def pkgPath (obj : Object) : String := obj.pkg.getD ""

def isFunctionValue (obj : Object) : Bool :=
  match obj.kind with
  | .var (some type) => type.unalias.underlying = .signature
  | _ => false

def receiverType (recv : GoType) : GoType :=
  match recv.unalias with
  | .pointer elem => elem.unalias
  | type => type

def declaredReceiverName (recv : Option GoType) : Option String :=
  match recv.map receiverType with
  | some (.named name _ _) => some name
  | _ => none

def isMethod (obj : Object) : Bool :=
  match obj.kind with
  | .func (some _) => true
  | _ => false

end Object

structure TypeInfo where
  uses : Nat → Option Object
  selections : Nat → Option Object
  used : ∀ id obj, selections id = some obj → uses id = some obj
  selected : ∀ id obj, uses id = some obj → obj.isMethod = true → selections id = some obj
  methods : ∀ id obj, selections id = some obj → obj.kind ≠ .func none

end CodeIntel

end RepoLens
