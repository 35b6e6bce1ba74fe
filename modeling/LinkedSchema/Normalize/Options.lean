import LinkedSchema.Fault
/-! Policy switches of the normalization. -/
namespace LinkedSchema

structure Options where
  /-- Whether arrays lose their bounds once these are documented. -/
  stripItemBounds : Bool := false
  /-- The largest distance between the bounds of an array that still becomes a tuple. -/
  maxTupleSize : Nat := 20
  deriving DecidableEq

def Options.make (stripItemBounds : Bool) (maxTupleSize : Int) : Except Fault Options :=
  if maxTupleSize < 0 then .error (.negativeTupleSize maxTupleSize)
  else .ok ⟨stripItemBounds, maxTupleSize.toNat⟩

end LinkedSchema
