import ProductQuantization.Matrix.Basic
import ProductQuantization.Random.IndexSample

/-!
# Sampling rows

A sample is drawn without replacement.  A sample at least as large as the dataset is the dataset
itself, in its own order, and nothing is drawn for it.
-/

set_option autoImplicit false

namespace ProductQuantization

/-- `size` rows of the data in random order, or all of them in their own order if there are no more
than that. -/
def sampleRows {σ : Type} [RandomSource σ] (data : Matrix) (size : Nat) (s : σ) : Matrix × σ :=
  if h : data.rows ≤ size then (data, s)
  else
    let (indices, s) := sampleIndices data.rows size (Nat.lt_of_not_le h) s
    (data.selectRows indices, s)

end ProductQuantization
