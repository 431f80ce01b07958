import DocQuery.Condition.Flat
import DocQuery.Condition.OperandError
import DocQuery.Condition.Predicate
import DocQuery.Parameter
import DocQuery.Sql.Term
import DocQuery.Value.Mask

/-! Compiling conditions.

A tree is normalized and compiled leaf by leaf, from left to right. A leaf gives one
term, or several that are joined alike, and binds its values in the order in which the
terms use them. Parentheses go around the groups of the tree, around a disjunction
inside a conjunction, and around several terms joined by "or" inside a conjunction.

The values bound so far are the state of `Compile`. They outlive an error: what a leaf
bound before it failed stays bound. -/
namespace DocQuery.Sql

open DocQuery.Symbol (joined parenthesized)

inductive CompileError where
  | unsetParameter (name : String)
  | operand (e : OperandError)
  | unsupportedOperand (place : Place) (op : Operator)
  | invalidLiteral (place : Place) (reason : String)
  | emptyCondition
  | flat (e : FlatError)
  | notNormalized (document : String)
  deriving DecidableEq, Repr

def CompileError.message : CompileError → String
  | unsetParameter name => "parameter '" ++ name ++ "' has no value"
  | operand e => e.message
  | unsupportedOperand p op =>
    p.document ++ ": operator " ++ op.name ++ " has no rendering for field '" ++ p.field ++
      "' with this operand"
  | invalidLiteral p reason =>
    p.document ++ ": invalid literal for field '" ++ p.field ++ "': " ++ reason
  | emptyCondition => "condition tree is empty"
  | flat e => e.message
  | notNormalized document => document ++ ": builder must be normalized before compiling"

/-- Computations that bind values and may fail. -/
abbrev Compile := ExceptT CompileError (StateM (Array Value))

/-- Binds a value and gives its place. -/
def bind (v : Value) : Compile Nat := do
  modify fun bound => bound.push v
  return (← get).size

/-- The terms of one predicate and what joins them. -/
structure Fragment where
  joiner : Joiner
  terms : List Term
  deriving DecidableEq, Repr

def Fragment.single (t : Term) : Fragment :=
  ⟨.and, [t]⟩

/-- The tokens of a fragment that is a member of a group joined by `inside`, if of any. -/
def Fragment.tokens (inside : Option Joiner) (f : Fragment) : List Token :=
  let tokens := joined f.joiner (f.terms.map fun t => [.atom t])
  if f.terms.length > 1 ∧ f.joiner = .or ∧ inside = some .and then parenthesized tokens
  else tokens

/-! ### Terms -/

section Terms

variable (numbered : Bool) (params : ParamSet)

def columnOf (qualifier : String) (path : FieldPath) : Column :=
  ⟨qualifier, path.storageNames⟩

def unsupported (p : Predicate) : CompileError :=
  .unsupportedOperand p.field.place p.op

def nullOperand (p : Predicate) : CompileError :=
  .operand (.nullOperand p.field.place p.op)

def nullOnNonNullable (p : Predicate) : CompileError :=
  .operand (.nullOnNonNullable p.field.place)

def malformedRange (p : Predicate) (count : Nat) : CompileError :=
  .operand (.malformedRange p.field.place count)

/-- A predicate without an operand. -/
def nullaryTerm (p : Predicate) : Except CompileError Term :=
  match p.op with
  | .isNull => .ok (.nullTest false (columnOf p.qualifier p.field))
  | .isNotNull => .ok (.nullTest true (columnOf p.qualifier p.field))
  | _ => .error (unsupported p)

/-- A comparison with null. -/
def nullTerm (p : Predicate) : Except CompileError Term :=
  if !p.op.acceptsNull then .error (nullOperand p)
  else if !p.field.isNullable then .error (nullOnNonNullable p)
  else
    let negated := p.op == .notEqual || p.op == .notLike || p.op == .notIn
    .ok (.nullTest negated (columnOf p.qualifier p.field))

/-- A comparison with another field. -/
def fieldTerm (p : Predicate) (qualifier : String) (path : FieldPath) : Except CompileError Term :=
  let left := columnOf p.qualifier p.field
  let right := Side.column (columnOf qualifier path)
  let illegal := CompileError.operand (.illegalFieldComparison p.field.place p.op)
  if p.foldCase then .error illegal
  else match p.op with
    | .isIn => .ok (.member false false left right)
    | .notIn => .ok (.member true false left right)
    | .bitsAnd => .ok (.allBits left right right)
    | .bitsOr => .ok (.someBits left right)
    | op =>
      match op.symbol? with
      | some symbol => .ok (.compare symbol false left right)
      | none => .error illegal

/-- The symbol of a comparison with one value. -/
def scalarSymbol? : Operator → Option String
  | .isIn => some "="
  | .notIn => some "<>"
  | op => op.symbol?

/-- A comparison with one value that is not null. Where placeholders are not numbered a
mask that is used twice is bound twice. -/
def scalarTerm (p : Predicate) (v : Value) : Compile Term := do
  let column := columnOf p.qualifier p.field
  match p.op with
  | .between | .notBetween => throw (malformedRange p 1)
  | .bitsAnd =>
    let mask ← bind v
    let again ← if numbered then pure mask else bind v
    return .allBits column (.bound mask) (.bound again)
  | .bitsOr => return .someBits column (.bound (← bind v))
  | op =>
    match scalarSymbol? op with
    | some symbol => return .compare symbol p.foldCase column (.bound (← bind v))
    | none => throw (unsupported p)

/-- Being one of the items, or none of them. Nulls among the items become a test for
null beside the list of the others. -/
def membership (p : Predicate) (items : List Value) (negated : Bool) : Compile Fragment :=
  let column := columnOf p.qualifier p.field
  let joiner := if negated then Joiner.and else .or
  let test := Term.nullTest negated column
  let values := items.filter fun v => !v.isNull
  let values := if p.foldCase then values.map Value.casefold else values
  if items.any Value.isNull then
    if !p.field.isNullable then throw (nullOnNonNullable p)
    else if values.isEmpty then return ⟨joiner, [test]⟩
    else do
      let place ← bind (.list values)
      return ⟨joiner, [.member negated p.foldCase column (.bound place), test]⟩
  else do
    let place ← bind (.list values)
    return ⟨joiner, [.member negated p.foldCase column (.bound place)]⟩

/-- One comparison for each item. -/
def chainTerms (p : Predicate) : List Value → Compile (List Term)
  | [] => return []
  | v :: rest => do
    let t ← if v.isNull then liftM (nullTerm p) else scalarTerm numbered p v
    let terms ← chainTerms p rest
    return t :: terms

/-- One range for each two items; an odd item at the end is passed over. -/
def rangeTerms (p : Predicate) (negated parens : Bool) : List Value → Compile (List Term)
  | low :: high :: rest => do
    let low ← bind low
    let high ← bind high
    let terms ← rangeTerms p negated parens rest
    return .range negated parens (columnOf p.qualifier p.field) low high :: terms
  | _ => return []

/-- Lying in one of the ranges, or in none of them. -/
def ranges (p : Predicate) (items : List Value) (negated : Bool) : Compile Fragment :=
  if items.isEmpty || items.length % 2 != 0 then throw (malformedRange p items.length)
  else if items.any Value.isNull then throw (nullOperand p)
  else do
    let terms ← rangeTerms p negated (items.length / 2 > 1) items
    return ⟨if negated then .and else .or, terms⟩

/-- Some bit of the items' common mask is set. -/
def maskTest (p : Predicate) (items : List Value) : Compile Fragment :=
  if items.any Value.isNull then throw (nullOperand p)
  else match Value.bitMask items with
    | .ok mask => do
      let place ← bind mask
      return .single (.someBits (columnOf p.qualifier p.field) (.bound place))
    | .error e => throw (.invalidLiteral p.field.place e.message)

/-- A comparison with the members of a list. -/
def collection (p : Predicate) (items : List Value) : Compile Fragment :=
  match p.op with
  | .equal | .isIn => membership p items false
  | .notEqual | .notIn => membership p items true
  | .between => ranges p items false
  | .notBetween => ranges p items true
  | .bitsOr => maskTest p items
  | op =>
    if !op.chains then throw (unsupported p)
    else if items.isEmpty then return .single .never
    else do
      let terms ← chainTerms numbered p items
      return ⟨.or, terms⟩

/-- A comparison with a value. A field that holds lists is compared with a whole list. -/
def valueFragment (p : Predicate) (v : Value) : Compile Fragment :=
  if p.op.isNullary then Fragment.single <$> liftM (nullaryTerm p)
  else match v with
    | .null => Fragment.single <$> liftM (nullTerm p)
    | .list items =>
      if p.field.kind.isList && (p.op == .equal || p.op == .notEqual) then
        Fragment.single <$> scalarTerm numbered p (.list items)
      else collection numbered p items
    | v => Fragment.single <$> scalarTerm numbered p v

def fragment (p : Predicate) : Compile Fragment :=
  match p.operand with
  | .none => Fragment.single <$> liftM (nullaryTerm p)
  | .field qualifier path => Fragment.single <$> liftM (fieldTerm p qualifier path)
  | .const v => valueFragment numbered p v
  | .param name =>
    match params.value? name with
    | some v => valueFragment numbered p v
    | none => throw (.unsetParameter name)

/-! ### Trees -/

mutual

/-- The tokens of a tree that is a member of a group joined by `inside`, if of any. -/
def treeTokens (inside : Option Joiner) : Tree Predicate → Compile (List Token)
  | .leaf p => Fragment.tokens inside <$> fragment numbered params p
  | .node j members => joined j <$> memberTokens j members
  | .group t => parenthesized <$> treeTokens none t

def memberTokens (j : Joiner) : List (Tree Predicate) → Compile (List (List Token))
  | [] => return []
  | t :: rest => do
    let tokens ← treeTokens (some j) t
    let parts ← memberTokens j rest
    return (if Flat.needsParens j t then parenthesized tokens else tokens) :: parts

end

/-- Compiles a condition, which must have a leaf, after those compiled before. -/
def condition (t : Tree Predicate) : Compile (List Token) :=
  let t := t.normalize
  if t.isEmpty then throw .emptyCondition else treeTokens numbered params none t

/-- Compiles a condition if there is one. -/
def condition? : Option (Tree Predicate) → Compile (Option (List Token))
  | none => return none
  | some t => some <$> condition numbered params t

end Terms

/-! ### Text -/

/-- A condition's text and its values in the order of their places. -/
structure Compiled where
  text : String
  params : List Value

/-- Compiles one condition on its own. -/
def compileTree (d : Dialect) (params : ParamSet) (t : Tree Predicate) :
    Except CompileError Compiled :=
  match (condition d.numbered params t).run.run #[] with
  | (.ok tokens, bound) => .ok ⟨render d tokens, bound.toList⟩
  | (.error e, _) => .error e

/-- Compiles a flat condition; the empty list gives nothing. -/
def compileFlat (d : Dialect) (params : ParamSet) (list : List (FlatTerm Predicate)) :
    Except CompileError (Option Compiled) :=
  match Flat.decode list with
  | .error e => .error (.flat e)
  | .ok none => .ok none
  | .ok (some t) => some <$> compileTree d params t

/-- Compiles conditions one after the other with one count of places. Each gives its
text or its error. -/
def compileEach (d : Dialect) (params : ParamSet) (bound : Array Value) :
    List (Tree Predicate) → List (Except CompileError String) × Array Value
  | [] => ([], bound)
  | t :: rest =>
    let (result, bound) := (condition d.numbered params t).run.run bound
    let (results, bound) := compileEach d params bound rest
    (result.map (render d) :: results, bound)

end DocQuery.Sql
