import TensorSchema.Schema
import TensorSchema.Traced

namespace TensorSchema

inductive Conformance where
  | untyped
  | holds (type : NominalType) (roles : NameMap String)
  | broken (role element : String)
deriving DecidableEq

namespace Conformance

/-- A single lost mandatory role breaks conformance; lost optional roles are dropped. -/
def check (source target : Schema) : Conformance :=
  match source.nominal with
  | none => untyped
  | some type =>
    match source.roles.entries.find? fun (role, element) =>
        !target.hasElement element && type.isMandatory role with
    | some (role, element) => broken role element
    | none => holds type (target.restrictRoles source.roles)

def lostRoles (type : NominalType) (target : Schema) : List (String × String) → List Event
  | [] => []
  | (role, element) :: rest =>
    if target.hasElement element then lostRoles type target rest
    else if type.isMandatory role then [.mandatoryLost role element]
    else .optionalDropped role element :: lostRoles type target rest

def events (source target : Schema) : List Event :=
  match source.nominal with
  | none => []
  | some type => lostRoles type target source.roles.entries

def propagate (source target : Schema) : Schema :=
  match check source target with
  | holds type roles => target.attach type roles
  | _ => target

def carry {ε : Type} (source target : Schema) : Traced ε Schema :=
  ⟨events source target, .ok (propagate source target)⟩

@[simp] theorem outcome_carry {ε : Type} (source target : Schema) :
    (carry source target : Traced ε Schema).outcome = .ok (propagate source target) := rfl

end Conformance

end TensorSchema
