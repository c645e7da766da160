import ShaderSSA.Proofs.Integers

/-!
What lowering makes of a source program besides links and plain instructions: variables, and tests of raw booleans.
The source lists them in the order in which they are made.
-/

namespace ShaderSSA

namespace Lowering
open Target

/-- A variable that lowering makes, or the test of a raw boolean. -/
inductive Product where
  | declared (id : Source.VarId)
  | returned (owner : Option FuncId)
  | literal (owner : Option FuncId) (l : Source.Literal)
  | test

@[simp]
def Product.isTest : Product → Bool
  | .test => true
  | .declared _ | .returned _ | .literal .. => false

def tested (raw : Bool) : List Product := if raw then [.test] else []

def countTests (products : List Product) : Nat := products.countP Product.isTest

@[simp]
theorem countTests_nil : countTests [] = 0 := rfl

@[simp]
theorem countTests_cons (x : Product) (products : List Product) :
    countTests (x :: products) = x.isTest.toNat + countTests products := by
  cases x <;> simp [countTests, List.countP_cons, Nat.add_comm]

@[simp]
theorem countTests_append (a b : List Product) : countTests (a ++ b) = countTests a + countTests b :=
  List.countP_append

@[simp]
theorem countTests_tested (raw : Bool) : countTests (tested raw) = raw.toNat := by cases raw <;> rfl

end Lowering

namespace Source
open Target Lowering

/-- A literal as an index becomes part of its link. -/
def Rvalue.isLiteral : Rvalue → Bool
  | .constant _ => true
  | _ => false

section
variable (source : Program) (f : Option FuncId)

mutual

/-- What is made when the value is evaluated in the function `f`. -/
def Rvalue.products : Rvalue → List Product
  | .place p => p.products ++ tested (source.holdsRaw (.place p))
  | .constant l => [.literal f l]
  | .swizzle value _ _ => value.products
  | .texture texture => texture.products
  | .expression op type operands =>
    if op = .uboLoad then operandProducts 0 operands ++ (operandProducts 1 operands ++ tested type.isBoolean)
    else if op = .getBufferSize then operandProducts 0 operands
    else if (interpolation? op).isSome then
      interpolantProducts operands ++ if op = .interpolateAtCentroid then [] else operandProducts 1 operands
    else productsOf operands

def productsOf : List Rvalue → List Product
  | [] => []
  | r :: rs => r.products ++ productsOf rs

def operandProducts : Nat → List Rvalue → List Product
  | _, [] => []
  | 0, r :: _ => r.products
  | skip + 1, _ :: rs => operandProducts skip rs

def interpolantProducts : List Rvalue → List Product
  | .place p :: _ => p.products
  | _ => []

/-- What is made when the chain of the place is built. -/
def Place.products : Place → List Product
  | .var _ _ => []
  | .field record _ _ => record.products
  | .element array index _ => array.products ++ if index.isLiteral then [] else index.products

def Texture.products : Texture → List Product
  | ⟨_, _, sampler, coordinate, projector, comparator, offset, lod⟩ =>
    sampler.products ++ (sourceProducts coordinate ++ (sourceProducts projector ++
      (sourceProducts comparator ++ (sourceProducts offset ++ lod.products))))

def sourceProducts : Option Rvalue → List Product
  | none => []
  | some r => r.products

def LodInfo.products : LodInfo → List Product
  | .absent | .component _ => []
  | .bias r | .lod r | .sampleIndex r => r.products
  | .grad dpdx dpdy => dpdx.products ++ dpdy.products

end

/-- What is made for the location that the value is read from. -/
def Rvalue.locationProducts : Rvalue → List Product
  | .place p => p.products source f
  | .constant l => [.literal f l]
  | _ => []

def locationsProducts : List Rvalue → List Product
  | [] => []
  | r :: rs => r.locationProducts source f ++ locationsProducts rs

/-- Some parameters of a built-in function are locations, and the mask of a store is no value. -/
def recipeProducts (recipe : Recipe) (result : Option ShaderType) (params : List Rvalue) : List Product :=
  match recipe, params with
  | .atomicCounter _, location :: data | .image _, location :: data =>
    location.locationProducts source f ++ productsOf source f data
  | .imageQuery, image :: _ => image.locationProducts source f
  | .barrier, _ | .clock, _ => []
  | .ssboLoad, params => productsOf source f params ++ tested (result.any ShaderType.isBoolean)
  | .ssboStore, [block, offset, value, _] => productsOf source f [block, offset] ++ value.products source f
  | .sharedStore, [offset, value, _] => productsOf source f [offset] ++ value.products source f
  | _, params => productsOf source f params

def resultProducts : Option Place → List Product
  | none => []
  | some place => place.products source f

def Call.products (call : Call) : List Product :=
  match (source.signature? call.callee).bind Signature.intrinsic with
  | some id =>
    recipeProducts source f (ruleOf id).recipe (call.result.map Place.type) call.parameters ++
      resultProducts source f call.result
  | none => locationsProducts source f call.parameters ++ resultProducts source f call.result

/-- A copy finds the location of its value, a store evaluates it. -/
def assignProducts (target : Place) (value : Rvalue) (mask : UInt8) : List Product :=
  target.products source f ++
    if assignment target value mask = .copy false then value.locationProducts source f else value.products source f

mutual

def Stmt.products : Stmt → List Product
  | .declare id => [.declared id]
  | .loop body => stmtsProducts body
  | .branch condition thenBody elseBody =>
    condition.products source f ++ (stmtsProducts thenBody ++ stmtsProducts elseBody)
  | .discard condition => sourceProducts source f condition
  | .ret none => []
  | .ret (some value) => if value.isStored then value.locationProducts source f else value.products source f
  | .call call => call.products source f
  | .assign target value mask condition =>
    assignProducts source f target value mask ++ sourceProducts source f condition
  | .function .. | .jump _ | .emitVertex _ | .endPrimitive _ | .barrier => []

def stmtsProducts : List Stmt → List Product
  | [] => []
  | s :: ss => s.products ++ stmtsProducts ss

end

end

namespace Program

/-- What is made for a body: its parameters, the variable of its result, and what its statements need. -/
def bodyProducts (source : Program) (f : Option FuncId) (signature : Signature) : List Product :=
  signature.parameters.map .declared ++
    ((if signature.returnType.isVoid then [] else [.returned f]) ++ stmtsProducts source f signature.body)

def signatureProducts (source : Program) (id : SignatureId) : List Product :=
  match source.signature? id with
  | some signature =>
    if !signature.isIntrinsic && signature.isDefined then source.bodyProducts (source.functionOf? id) signature else []
  | none => []

def topProducts (source : Program) : Stmt → List Product
  | .declare id => [.declared id]
  | .function _ ids => ids.flatMap source.signatureProducts
  | _ => []

/-- What is made of the program, in order. -/
def products (source : Program) : List Product := source.statements.flatMap source.topProducts

end Program

/-! ### Tests among the products -/

section
variable (source : Program) (f : Option FuncId)

mutual

theorem Rvalue.countTests_products : ∀ r : Rvalue, countTests (r.products source f) = r.tests source
  | .place p => by simp [Rvalue.products, Rvalue.tests, Place.countTests_products p]
  | .constant l => by simp [Rvalue.products, Rvalue.tests]
  | .swizzle value _ _ => by rw [Rvalue.products, Rvalue.tests, Rvalue.countTests_products value]
  | .texture texture => by rw [Rvalue.products, Rvalue.tests, Texture.countTests_products texture]
  | .expression op type operands => by
    have operand := countTests_operandProducts operands
    have interpolant := countTests_interpolantProducts operands
    rw [Rvalue.products, Rvalue.tests]
    repeat' split
    all_goals simp [operand, interpolant, countTests_productsOf operands, Nat.add_assoc]

theorem countTests_productsOf : ∀ rs : List Rvalue, countTests (productsOf source f rs) = testsOf source rs
  | [] => rfl
  | r :: rs => by simp [productsOf, testsOf, Rvalue.countTests_products r, countTests_productsOf rs]

theorem countTests_operandProducts : ∀ (rs : List Rvalue) (skip : Nat),
    countTests (operandProducts source f skip rs) = operandTests source skip rs
  | [], _ => by simp [operandProducts, operandTests]
  | r :: _, 0 => by rw [operandProducts, operandTests, Rvalue.countTests_products r]
  | _ :: rs, skip + 1 => by rw [operandProducts, operandTests, countTests_operandProducts rs]

theorem countTests_interpolantProducts : ∀ rs : List Rvalue,
    countTests (interpolantProducts source f rs) = interpolantTests source rs
  | .place p :: _ => by rw [interpolantProducts, interpolantTests, Place.countTests_products p]
  | [] | .expression .. :: _ | .swizzle .. :: _ | .texture _ :: _ | .constant _ :: _ => by
    simp [interpolantProducts, interpolantTests]

theorem Place.countTests_products : ∀ p : Place, countTests (p.products source f) = p.tests source
  | .var _ _ => by simp [Place.products, Place.tests]
  | .field record _ _ => by rw [Place.products, Place.tests, Place.countTests_products record]
  | .element array index _ => by
    have value := Rvalue.countTests_products index
    rw [Place.products, Place.tests, countTests_append, Place.countTests_products array]
    cases index <;> simp_all [Rvalue.isLiteral, Rvalue.tests]

theorem Texture.countTests_products : ∀ t : Texture, countTests (t.products source f) = t.tests source
  | ⟨_, _, sampler, coordinate, projector, comparator, offset, lod⟩ => by
    simp [Texture.products, Texture.tests, Place.countTests_products sampler, countTests_sourceProducts coordinate,
      countTests_sourceProducts projector, countTests_sourceProducts comparator, countTests_sourceProducts offset,
      LodInfo.countTests_products lod, Nat.add_assoc]

theorem countTests_sourceProducts : ∀ r : Option Rvalue, countTests (sourceProducts source f r) = sourceTests source r
  | none => by simp [sourceProducts, sourceTests]
  | some r => by rw [sourceProducts, sourceTests, Rvalue.countTests_products r]

theorem LodInfo.countTests_products : ∀ lod : LodInfo, countTests (lod.products source f) = lod.tests source
  | .absent | .component _ => by simp [LodInfo.products, LodInfo.tests]
  | .bias r | .lod r | .sampleIndex r => by rw [LodInfo.products, LodInfo.tests, Rvalue.countTests_products r]
  | .grad dpdx dpdy => by
    simp [LodInfo.products, LodInfo.tests, Rvalue.countTests_products dpdx, Rvalue.countTests_products dpdy]

end

attribute [simp] Rvalue.countTests_products countTests_productsOf Place.countTests_products countTests_sourceProducts

@[simp]
theorem Rvalue.countTests_locationProducts (r : Rvalue) :
    countTests (r.locationProducts source f) = r.locationTests source := by
  cases r <;> simp [Rvalue.locationProducts, Rvalue.locationTests]

@[simp]
theorem countTests_locationsProducts (rs : List Rvalue) :
    countTests (locationsProducts source f rs) = locationsTests source rs := by
  induction rs with
  | nil => rfl
  | cons r rs ih => simp [locationsProducts, locationsTests, ih]

@[simp]
theorem countTests_recipeProducts (recipe : Recipe) (result : Option ShaderType) (params : List Rvalue) :
    countTests (recipeProducts source f recipe result params) = recipeTests source recipe result params := by
  unfold recipeProducts recipeTests
  split <;> simp

@[simp]
theorem countTests_resultProducts (result : Option Place) :
    countTests (resultProducts source f result) = resultTests source result := by
  cases result <;> simp [resultProducts, resultTests]

theorem Call.countTests_products (call : Call) : countTests (call.products source f) = call.tests source := by
  unfold Call.products Call.tests
  split <;> simp [*]

theorem countTests_assignProducts (target : Place) (value : Rvalue) (mask : UInt8) :
    countTests (assignProducts source f target value mask) = assignTests source target value mask := by
  unfold assignProducts assignTests
  split <;> simp

mutual

theorem Stmt.countTests_products : ∀ s : Stmt, countTests (s.products source f) = s.tests source
  | .loop body => by rw [Stmt.products, Stmt.tests, countTests_stmtsProducts body]
  | .branch condition thenBody elseBody => by
    simp [Stmt.products, Stmt.tests, countTests_stmtsProducts thenBody, countTests_stmtsProducts elseBody,
      Nat.add_assoc]
  | .ret (some value) => by
    rw [Stmt.products, Stmt.tests]
    split <;> simp
  | .call call => by rw [Stmt.products, Stmt.tests, Call.countTests_products]
  | .assign target value mask condition => by simp [Stmt.products, Stmt.tests, countTests_assignProducts]
  | .declare _ | .ret none | .discard _ | .function .. | .jump _ | .emitVertex _ | .endPrimitive _ | .barrier => by
    simp [Stmt.products, Stmt.tests]

theorem countTests_stmtsProducts : ∀ ss : List Stmt, countTests (stmtsProducts source f ss) = stmtsTests source ss
  | [] => by simp [stmtsProducts, stmtsTests]
  | s :: ss => by simp [stmtsProducts, stmtsTests, Stmt.countTests_products s, countTests_stmtsProducts ss]

end

end

end Source

end ShaderSSA
