namespace TensorSchema

def searchFresh (taken : List String) (candidate : Nat → String) : Nat → Nat → String
  | 0, k => candidate k
  | fuel + 1, k =>
    if candidate k ∈ taken then searchFresh taken candidate fuel (k + 1) else candidate k

/-- The first candidate that is not taken. With distinct candidates, `taken.length` failures use up
every taken name. -/
def freshName (taken : List String) (candidate : Nat → String) : String :=
  searchFresh taken candidate taken.length 0

end TensorSchema
