import TensorSchema.NameMap

namespace TensorSchema

structure Role where
  name : String
  mandatory : Bool
deriving DecidableEq, Repr

structure NominalType where
  name : String
  roles : NameMap Role
deriving DecidableEq

namespace NominalType

def new (name : String) : NominalType := ⟨name, ∅⟩

def withRole (t : NominalType) (role : String) (mandatory : Bool) : NominalType :=
  { t with roles := t.roles.insert role ⟨role, mandatory⟩ }

def role? (t : NominalType) (role : String) : Option Role := t.roles.find? role

/-- A role that the type does not know is optional. -/
def isMandatory (t : NominalType) (role : String) : Bool := (t.role? role).any Role.mandatory

end NominalType

end TensorSchema
