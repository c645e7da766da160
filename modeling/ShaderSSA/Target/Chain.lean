import ShaderSSA.Fault

/-!
# Access chains

A chain is a root link, which names a variable, and links that each narrow the location before them
to a field or an element. `Chain` is a chain under construction; its head alone names the finished
location.
-/

namespace ShaderSSA.Target

/-- A chain under construction: its first and its last link. -/
structure Chain where
  head : LinkId
  tail : LinkId
deriving DecidableEq

namespace Links

def get (links : Links) (id : LinkId) : Except Fault Link :=
  match links[id.index.toNat]? with
  | some link => .ok link
  | none => .error (.defect (.linkRange id))

def nextId (links : Links) : LinkId := ⟨UInt32.ofNat links.size⟩

def root (links : Links) (var : VarId) (type : ShaderType) : Chain × Links :=
  (⟨links.nextId, links.nextId⟩, links.push ⟨.var var, type, none⟩)

/-- The type that a link of the given kind narrows a location to; a root narrows nothing. -/
def narrowed? (kind : LinkKind) (parent : ShaderType) : Except Fault (Option ShaderType) :=
  match kind with
  | .var _ => .error (.defect .rootInsideChain)
  | .struct index => .ok (parent.field? index)
  | .array _ => .ok parent.indexResult?

/-- Attach a link behind the tail. Its type must be what the tail narrows to. -/
def append (links : Links) (chain : Chain) (kind : LinkKind) (type : ShaderType) :
    Except Fault (Chain × Links) := do
  let parent ← links.get chain.tail
  let expected ← narrowed? kind parent.type
  if expected ≠ some type then
    throw (.defect (.linkType type parent.type expected))
  let id := links.nextId
  let links := links.push ⟨kind, type, none⟩
  return (⟨chain.head, id⟩, links.modify chain.tail.index.toNat fun l => { l with child := some id })

/-- Visit the links from `id` on, at most `fuel` of them. A link is visited before its child is looked
up, so the first fault along the chain is the one that counts. -/
def visitFrom {α : Type} (links : Links) (visit : LinkId → Link → Except Fault α) :
    Nat → LinkId → Except Fault (List α)
  | 0, _ => .ok []
  | fuel + 1, id => do
    let link ← links.get id
    let first ← visit id link
    match link.child with
    | none => return [first]
    | some child => return first :: (← links.visitFrom visit fuel child)

/-- Visit the links of a chain, root first. A chain has no more links than the arena. -/
def visit {α : Type} (links : Links) (visit : LinkId → Link → Except Fault α) (head : LinkId) :
    Except Fault (List α) :=
  links.visitFrom visit (links.size + 1) head

def walk (links : Links) (head : LinkId) : Except Fault (List (LinkId × Link)) :=
  links.visit (fun id link => .ok (id, link)) head

def rootVar (links : Links) (head : LinkId) : Except Fault VarId := do
  match (← links.get head).kind with
  | .var v => return v
  | _ => throw (.defect (.chainWithoutRoot head))

def chainType (links : Links) (head : LinkId) : Except Fault ShaderType := do
  match (← links.walk head).getLast? with
  | some (_, link) => return link.type
  | none => throw (.defect (.linkRange head))

end Links

end ShaderSSA.Target
