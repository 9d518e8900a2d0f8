import ProductQuantization.Json.Decode
import ProductQuantization.Matrix.Basic
import ProductQuantization.Options
import ProductQuantization.Rotation.Train

/-!
# The library's values in JSON

Every value that can be kept as JSON is a record, and this file says under which names and in which
order its fields are written.  `toJson` writes all of them.  `ofJson?` reads a record in either of
its two forms; a field may be missing only where a default is named here.

A matrix is compared with its shape when it is read.  A codebook and a code table are taken as they
come.
-/

set_option autoImplicit false

namespace ProductQuantization

/-- An array of the values of a list. -/
def Json.ofList {α : Type} (f : α → Json) (xs : List α) : Json := .array (xs.map f)

/-! ## Matrices -/

namespace Matrix

/-- The fields of a matrix. -/
def fieldNames : List String := ["rows", "cols", "data"]

/-- A matrix, whose buffer must fill its shape. -/
def ofJson? (j : Json) : Option Matrix := do
  match ← j.fields? fieldNames with
  | [rows, cols, data] =>
    let rows ← Json.required Json.size? rows
    let cols ← Json.required Json.size? cols
    let data ← Json.required (Json.list? Json.single?) data
    (ofData rows cols data.toArray).toOption
  | _ => none

/-- A matrix as JSON. -/
def toJson (m : Matrix) : Json :=
  .record [("rows", .ofNat m.rows), ("cols", .ofNat m.cols),
    ("data", .ofList .ofSingle m.data.toList)]

end Matrix

/-! ## Options -/

namespace KMeansOptions

/-- The fields of the k-means options. -/
def fieldNames : List String := ["restarts", "max_iterations", "tolerance"]

/-- k-means options; what is missing stays at its standard. -/
def ofJson? (j : Json) : Option KMeansOptions := do
  match ← j.fields? fieldNames with
  | [restarts, maxIterations, tolerance] =>
    some {
      restarts := ← Json.withDefault standard.restarts Json.size? restarts
      maxIterations := ← Json.withDefault standard.maxIterations Json.size? maxIterations
      tolerance := ← Json.withDefault standard.tolerance Json.float? tolerance }
  | _ => none

/-- k-means options as JSON. -/
def toJson (o : KMeansOptions) : Json :=
  .record [("restarts", .ofNat o.restarts), ("max_iterations", .ofNat o.maxIterations),
    ("tolerance", .ofFloat o.tolerance)]

end KMeansOptions

/-- The k-means options inside another record, which may be missing. -/
def Json.kmeansField? : Option Json → Option KMeansOptions :=
  Json.withDefault .standard KMeansOptions.ofJson?

/-- A number of bits as it is written: a whole number of at most thirty-two bits. -/
def Json.bits? : Json → Option Nat := Json.below? (wordValues 32)

namespace QuantizerOptions

/-- The fields of the options for a codebook. -/
def fieldNames : List String := ["num_subspaces", "nbits", "kmeans"]

/-- Options for a codebook. -/
def ofJson? (j : Json) : Option QuantizerOptions := do
  match ← j.fields? fieldNames with
  | [subspaces, bits, kmeans] =>
    some {
      subspaces := ← Json.required Json.size? subspaces
      bits := ← Json.required Json.bits? bits
      kmeans := ← Json.kmeansField? kmeans }
  | _ => none

/-- Options for a codebook as JSON. -/
def toJson (o : QuantizerOptions) : Json :=
  .record [("num_subspaces", .ofNat o.subspaces), ("nbits", .ofNat o.bits),
    ("kmeans", o.kmeans.toJson)]

end QuantizerOptions

namespace RotationOptions

/-- The fields of the options for a rotation. -/
def fieldNames : List String := ["num_subspaces", "num_clusters", "iterations", "kmeans"]

/-- Options for a rotation. -/
def ofJson? (j : Json) : Option RotationOptions := do
  match ← j.fields? fieldNames with
  | [subspaces, clusters, rounds, kmeans] =>
    some {
      subspaces := ← Json.required Json.size? subspaces
      clusters := ← Json.required Json.size? clusters
      rounds := ← Json.required Json.size? rounds
      kmeans := ← Json.kmeansField? kmeans }
  | _ => none

/-- Options for a rotation as JSON. -/
def toJson (o : RotationOptions) : Json :=
  .record [("num_subspaces", .ofNat o.subspaces), ("num_clusters", .ofNat o.clusters),
    ("iterations", .ofNat o.rounds), ("kmeans", o.kmeans.toJson)]

end RotationOptions

/-! ## Results of training -/

namespace Codebook

/-- The fields of a codebook. -/
def fieldNames : List String :=
  ["num_subspaces", "codebook_size", "dim", "subspace_dim", "centroids"]

/-- A codebook, well-formed or not. -/
def ofJson? (j : Json) : Option Codebook := do
  match ← j.fields? fieldNames with
  | [subspaces, size, dim, subspaceDim, centroids] =>
    let centroids ← Json.required (Json.list? Json.single?) centroids
    some {
      subspaces := ← Json.required Json.size? subspaces
      size := ← Json.required Json.size? size
      dim := ← Json.required Json.size? dim
      subspaceDim := ← Json.required Json.size? subspaceDim
      centroids := centroids.toArray }
  | _ => none

/-- A codebook as JSON. -/
def toJson (c : Codebook) : Json :=
  .record [("num_subspaces", .ofNat c.subspaces), ("codebook_size", .ofNat c.size),
    ("dim", .ofNat c.dim), ("subspace_dim", .ofNat c.subspaceDim),
    ("centroids", .ofList .ofSingle c.centroids.toList)]

end Codebook

namespace CodeTable

/-- The fields of a code table. -/
def fieldNames : List String := ["num_vectors", "num_subspaces", "codes"]

/-- A code: a whole number of at most sixteen bits. -/
def code? (j : Json) : Option UInt16 := (j.below? (wordValues 16)).map Nat.toUInt16

/-- A code table, well-formed or not. -/
def ofJson? (j : Json) : Option CodeTable := do
  match ← j.fields? fieldNames with
  | [vectors, subspaces, codes] =>
    let codes ← Json.required (Json.list? code?) codes
    some {
      vectors := ← Json.required Json.size? vectors
      subspaces := ← Json.required Json.size? subspaces
      codes := codes.toArray }
  | _ => none

/-- A code table as JSON. -/
def toJson (t : CodeTable) : Json :=
  .record [("num_vectors", .ofNat t.vectors), ("num_subspaces", .ofNat t.subspaces),
    ("codes", .ofList (fun code => .ofNat code.toNat) t.codes.toList)]

end CodeTable

namespace RotatedQuantizer

/-- The fields of a rotated quantizer. -/
def fieldNames : List String := ["rotation", "codebook", "assignments", "distortions"]

/-- A rotated quantizer. -/
def ofJson? (j : Json) : Option RotatedQuantizer := do
  match ← j.fields? fieldNames with
  | [rotation, codebook, table, distortions] =>
    some {
      rotation := ← Json.required Matrix.ofJson? rotation
      codebook := ← Json.required Codebook.ofJson? codebook
      table := ← Json.required CodeTable.ofJson? table
      distortions := ← Json.required (Json.list? Json.float?) distortions }
  | _ => none

/-- A rotated quantizer as JSON. -/
def toJson (q : RotatedQuantizer) : Json :=
  .record [("rotation", q.rotation.toJson), ("codebook", q.codebook.toJson),
    ("assignments", q.table.toJson), ("distortions", .ofList .ofFloat q.distortions)]

end RotatedQuantizer
end ProductQuantization
