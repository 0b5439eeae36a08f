import TensorSchema.Dimension
import TensorSchema.Error
import TensorSchema.FreshName
import TensorSchema.NominalType

/-! The schema of a tensor relation: an ordered list of dimensions and attributes, which may implement the
roles of a nominal type. Elements pushed one by one have pairwise distinct names. -/

namespace TensorSchema

structure Attribute where
  name : String
  type : DataType
deriving DecidableEq, Repr

def Attribute.rename (a : Attribute) (name : String) : Attribute := { a with name := name }

inductive Element where
  | dim (d : Dimension)
  | attr (a : Attribute)
deriving DecidableEq

namespace Element

def name : Element → String
  | dim d => d.name
  | attr a => a.name

def type : Element → DataType
  | dim d => d.type
  | attr a => a.type

def rename (e : Element) (name : String) : Element :=
  match e with
  | dim d => dim (d.rename name)
  | attr a => attr (a.rename name)

def isDimension : Element → Bool
  | dim _ => true
  | attr _ => false

def dimension? : Element → Option Dimension
  | dim d => some d
  | attr _ => none

def attribute? : Element → Option Attribute
  | dim _ => none
  | attr a => some a

end Element

structure Schema where
  name : String
  elements : List Element
  nominal : Option NominalType
  roles : NameMap String
deriving DecidableEq

namespace Schema

def new (name : String) : Schema := ⟨name, [], none, ∅⟩

def rename (s : Schema) (name : String) : Schema := { s with name := name }

def names (s : Schema) : List String := s.elements.map Element.name

def element? (s : Schema) (name : String) : Option Element :=
  s.elements.find? fun e => e.name = name

def hasElement (s : Schema) (name : String) : Bool := (s.element? name).isSome

/-- The first element with a given name, if that is a dimension. -/
def dimension? (s : Schema) (name : String) : Option Dimension :=
  (s.element? name).bind Element.dimension?

def dimensions (s : Schema) : List Dimension := s.elements.filterMap Element.dimension?

def attributes (s : Schema) : List Attribute := s.elements.filterMap Element.attribute?

def duplicateName (name : String) (k : Nat) : String :=
  name ++ String.join (List.replicate k "-new")

def storedName (s : Schema) (name : String) : String := freshName s.names (duplicateName name)

/-- Appends an element, and gives the name under which it is stored: a name that is taken gets duplicate
marks. -/
def push (s : Schema) (e : Element) : Schema × String :=
  let stored := s.storedName e.name
  ({ s with elements := s.elements ++ [e.rename stored] }, stored)

def pushAll (s : Schema) (es : List Element) : Schema := es.foldl (fun s e => (s.push e).1) s

def withType (s : Schema) (t : NominalType) : Schema := { s with nominal := some t, roles := ∅ }

def attach (s : Schema) (t : NominalType) (roles : NameMap String) : Schema :=
  { s with nominal := some t, roles := roles }

def bindRole (s : Schema) (role element : String) : Schema × Except SchemaError Unit :=
  if s.nominal.any (fun t => (t.role? role).isSome) && s.hasElement element then
    ({ s with roles := s.roles.insert role element }, .ok ())
  else (s, .error (.invalidBinding role element))

def implementation? (s : Schema) (role : String) : Option Element :=
  (s.roles.find? role).bind s.element?

structure Parts where
  dimensions : Bool
  attributes : Bool
  nominal : Bool
deriving DecidableEq, Repr

def Parts.structural : Parts := ⟨true, true, false⟩

def Parts.keeps (parts : Parts) : Element → Bool
  | .dim _ => parts.dimensions
  | .attr _ => parts.attributes

def restrictRoles (s : Schema) (roles : NameMap String) : NameMap String :=
  roles.filter fun _ element => s.hasElement element

def copy (s : Schema) (parts : Parts) : Schema :=
  let t := (new "").pushAll (s.elements.filter parts.keeps)
  match s.nominal with
  | some type => if parts.nominal then t.attach type (t.restrictRoles s.roles) else t
  | none => t

/-- The product of `acc` and the lengths of the dimensions, if 64 bits hold every partial product. -/
def cellProduct (acc : Int64) : List Dimension → Option Int64
  | [] => some acc
  | d :: rest => do
    let n ← d.length?
    let acc ← exactInt64 (acc.toInt * n.toInt)
    cellProduct acc rest

def cellCount (s : Schema) : Option Int64 := cellProduct 1 s.dimensions

def elementSignature (e : Element) : String :=
  e.name ++ "," ++ (if e.isDimension then "d" else "a") ++ "," ++ e.type.name

/-- The layout in short: `#x,d,int|v,a,float`. -/
def signature (s : Schema) : String := "#" ++ "|".intercalate (s.elements.map elementSignature)

def dimensionText (d : Dimension) : String :=
  d.name ++ "[" ++ d.type.name ++ "]" ++ Double.message d.lower ++ ":" ++ Double.message d.upper

def attributeText (a : Attribute) : String := a.name ++ "[" ++ a.type.name ++ "]"

/-- The layout with bounds: `grid<(x[int]0:3 y[int]0:4)><(v[float])>`. -/
def text (s : Schema) : String :=
  s.name ++ "<(" ++ " ".intercalate (s.dimensions.map dimensionText) ++ ")><("
    ++ " ".intercalate (s.attributes.map attributeText) ++ ")>"

end Schema

end TensorSchema
