namespace TensorSchema

inductive OperatorKind where
  | scan
  | select
  | filter
  | subset
  | logical
  | comparison
  | arithmetic
  | cross
  | dimensionJoin
  | aggregate
  | split
  | userDefined
deriving DecidableEq, Repr

namespace OperatorKind

def all : List OperatorKind :=
  [scan, select, filter, subset, logical, comparison, arithmetic, cross, dimensionJoin, aggregate,
    split, userDefined]

def tag : OperatorKind → String
  | scan => "scan"
  | select => "select"
  | filter => "filter"
  | subset => "subset"
  | logical => "logical"
  | comparison => "comparison"
  | arithmetic => "arithmetic"
  | cross => "cross"
  | dimensionJoin => "dimjoin"
  | aggregate => "aggregate"
  | split => "split"
  | userDefined => "user_defined"

def ofTag? (s : String) : Option OperatorKind := all.find? fun k => k.tag = s

end OperatorKind

end TensorSchema
