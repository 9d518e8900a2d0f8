import ProductQuantization.Proofs.Artifact.CodecFormat

/-!
# Views of the centroids

A centroid can be seen in three places: by its number in its subspace, as a piece of the block of
the whole subspace, and in the file.  Each place is computed in its own way, and `Codebook.Shows`
says that all three show the same vector.  In a well-formed codebook they do so for every centroid
(`WellFormed.shows`), and in one made of clusterings that vector is a row of a clustering.

Centroids are numbered through, subspace by subspace, and the buffer is cut into pieces of one width
for them.  Numbers are not shared (`number_inj`) and pieces with different numbers lie apart
(`piece_splice_other`), so overwriting a centroid leaves all others as they are.  After any sequence
of changes each centroid is what was last written to it (`exists_overwrite`).

`centroid_views` puts the two together.
-/

set_option autoImplicit false

namespace ProductQuantization

/-! ## Numbers and their bytes -/

namespace Word

theorem bytesOfSingles_append (xs ys : List Single) :
    bytesOfSingles (xs ++ ys) = bytesOfSingles xs ++ bytesOfSingles ys := List.flatMap_append

/-- The bytes of a part of the numbers are a part of their bytes. -/
theorem slice_bytesOfSingles (front part back : List Single) :
    ((bytesOfSingles (front ++ (part ++ back))).drop (4 * front.length)).take (4 * part.length)
      = bytesOfSingles part := by
  have hbytes : ∀ xs : List Single, 4 * xs.length = (bytesOfSingles xs).length := fun xs => by
    rw [length_bytesOfSingles, Nat.mul_comm]
  rw [bytesOfSingles_append, bytesOfSingles_append, hbytes front, hbytes part, List.drop_left,
    List.take_left]

end Word

/-! ## Pieces of one width -/

section Pieces

variable {α : Type}

/-- Piece `p` of a list that is cut into pieces of one width. -/
def piece (width p : Nat) (xs : List α) : List α := (xs.drop (p * width)).take width

/-- The list with other members from piece `p` on. -/
def splice (width p : Nat) (values xs : List α) : List α :=
  xs.take (p * width) ++ (values ++ xs.drop (p * width + width))

variable {width p q : Nat} {values xs : List α}

/-- A list up to a piece, the piece, and what comes after it. -/
theorem pieces_eq (width p : Nat) (xs : List α) :
    xs.take (p * width) ++ (piece width p xs ++ xs.drop (p * width + width)) = xs := by
  rw [piece, ← List.drop_drop, List.take_append_drop, List.take_append_drop]

theorem length_splice (hv : values.length = width) (hp : p * width + width ≤ xs.length) :
    (splice width p values xs).length = xs.length := by
  simp only [splice, List.length_append, List.length_take, List.length_drop]
  omega

theorem piece_splice_self (hv : values.length = width) (hp : p * width + width ≤ xs.length) :
    piece width p (splice width p values xs) = values := by
  have hfront : (xs.take (p * width)).length = p * width := by
    rw [List.length_take, Nat.min_eq_left (by omega)]
  rw [piece, splice, List.drop_left' hfront, List.take_left' hv]

/-- Pieces with different numbers lie apart. -/
theorem piece_splice_other (hv : values.length = width) (hp : p * width + width ≤ xs.length)
    (h : q ≠ p) : piece width q (splice width p values xs) = piece width q xs := by
  have hfront : (xs.take (p * width)).length = p * width := by
    rw [List.length_take, Nat.min_eq_left (by omega)]
  rcases Nat.lt_or_gt_of_ne h with h | h
  · have hbefore : q * width + width ≤ p * width := by
      rw [← Nat.succ_mul]
      exact Nat.mul_le_mul_right _ h
    rw [piece, splice, List.drop_append_of_le_length (by omega),
      List.take_append_of_le_length (by rw [List.length_drop]; omega), List.drop_take,
      List.take_take, Nat.min_eq_left (by omega), piece]
  · have hafter : p * width + width ≤ q * width := by
      rw [← Nat.succ_mul]
      exact Nat.mul_le_mul_right _ h
    have hlen : (xs.take (p * width) ++ values).length = p * width + width := by
      rw [List.length_append, hfront, hv]
    rw [piece, splice, ← List.append_assoc, List.drop_append, List.drop_eq_nil_of_le (by omega),
      List.nil_append, List.drop_drop, hlen, Nat.add_sub_cancel' hafter, piece]

end Pieces

namespace Codebook

/-! ## The numbers of the centroids -/

/-- Where centroid `k` of subspace `m` stands among all centroids. -/
def number (c : Codebook) (m k : Nat) : Nat := m * c.size + k

theorem number_lt {c : Codebook} {m k : Nat} (hm : m < c.subspaces) (hk : k < c.size) :
    c.number m k < c.subspaces * c.size := Matrix.flat_lt hm hk

/-- No two centroids have the same number. -/
theorem number_inj {c : Codebook} {m k m' k' : Nat} (hk : k < c.size) (hk' : k' < c.size)
    (h : c.number m k = c.number m' k') : m = m' ∧ k = k' := by
  have hpos : 0 < c.size := Nat.zero_lt_of_lt hk
  have hdiv : ∀ {m k}, k < c.size → c.number m k / c.size = m := fun {m k} hk => by
    rw [number, Nat.mul_comm, Nat.mul_add_div hpos, Nat.div_eq_of_lt hk, Nat.add_zero]
  have hmod : ∀ {m k}, k < c.size → c.number m k % c.size = k := fun {m k} hk => by
    rw [number, Nat.mul_comm, Nat.mul_add_mod, Nat.mod_eq_of_lt hk]
  exact ⟨by rw [← hdiv (m := m) hk, h, hdiv hk'], by rw [← hmod (m := m) hk, h, hmod hk']⟩

theorem WellFormed.length_centroids {c : Codebook} (h : c.WellFormed) :
    c.centroids.toList.length = c.subspaces * c.size * c.subspaceDim := by
  rw [Array.length_toList, h.centroids_size]

/-- The numbers of a centroid lie in the buffer. -/
theorem WellFormed.piece_le {c : Codebook} (h : c.WellFormed) {m k : Nat} (hm : m < c.subspaces)
    (hk : k < c.size) :
    c.number m k * c.subspaceDim + c.subspaceDim ≤ c.centroids.toList.length := by
  rw [h.length_centroids, ← Nat.succ_mul]
  exact Nat.mul_le_mul_right _ (number_lt hm hk)

theorem WellFormed.centroid?_eq {c : Codebook} (h : c.WellFormed) {m k : Nat}
    (hm : m < c.subspaces) (hk : k < c.size) :
    c.centroid? m k = some (piece c.subspaceDim (c.number m k) c.centroids.toList) :=
  slice?_eq_some (h.piece_le hm hk)

/-! ## Three views of a centroid -/

/-- The vector is what is seen of centroid `k` of subspace `m`: when it is asked for, in the block
of its subspace, and in any file that the codebook is written to. -/
structure Shows (c : Codebook) (m k : Nat) (values : Point) : Prop where
  centroid_eq : c.centroid? m k = some values
  block_eq : ∃ block, c.subspace? m = some block ∧
    (block.drop (k * c.subspaceDim)).take c.subspaceDim = values
  file_eq : ∀ {maxElements : Nat} {h : CodecHeader} {bytes : List UInt8},
    CodecHeader.forCodebook maxElements c = .ok h → Codec.toBytes h c = .ok bytes →
      Word.takeSingles ((bytes.drop (16 + 4 * ((m * c.size + k) * c.subspaceDim))).take
        (4 * c.subspaceDim)) = values

/-- The block of a subspace, cut out of the buffer. -/
theorem WellFormed.subspace?_eq {c : Codebook} (h : c.WellFormed) {m : Nat} (hm : m < c.subspaces) :
    c.subspace? m = some (piece (c.size * c.subspaceDim) m c.centroids.toList) := by
  have hin : m * (c.size * c.subspaceDim) + c.size * c.subspaceDim ≤ c.centroids.size := by
    rw [h.centroids_size, ← Nat.succ_mul, Nat.mul_assoc]
    exact Nat.mul_le_mul_right _ hm
  rw [subspace?, Nat.mul_assoc, slice?_eq_some hin, piece]

/-- A piece of a piece. -/
theorem piece_piece {α : Type} {width size m k : Nat} (hk : k < size) (xs : List α) :
    piece width k (piece (size * width) m xs) = piece width (m * size + k) xs := by
  have hin : k * width + width ≤ size * width := by
    rw [← Nat.succ_mul]
    exact Nat.mul_le_mul_right _ hk
  rw [piece, piece, List.drop_take, List.take_take, List.drop_drop, Nat.min_eq_left (by omega),
    piece, Nat.add_mul, Nat.mul_assoc]

/-- The centroids in a file. -/
theorem WellFormed.file_eq {c : Codebook} (hc : c.WellFormed) {m k : Nat} (hm : m < c.subspaces)
    (hk : k < c.size) {h : CodecHeader} {bytes : List UInt8} (hb : Codec.toBytes h c = .ok bytes) :
    (bytes.drop (16 + 4 * (c.number m k * c.subspaceDim))).take (4 * c.subspaceDim)
      = Word.bytesOfSingles (piece c.subspaceDim (c.number m k) c.centroids.toList) := by
  obtain ⟨-, -, hb⟩ := bind_eq_ok.1 hb
  cases hb
  have hin := hc.piece_le hm hk
  have hfront : (c.centroids.toList.take (c.number m k * c.subspaceDim)).length
      = c.number m k * c.subspaceDim := by
    rw [List.length_take, Nat.min_eq_left (by omega)]
  have hpart : (piece c.subspaceDim (c.number m k) c.centroids.toList).length = c.subspaceDim := by
    rw [piece, List.length_take, List.length_drop, Nat.min_eq_left (by omega)]
  have hslice := Word.slice_bytesOfSingles
    (c.centroids.toList.take (c.number m k * c.subspaceDim))
    (piece c.subspaceDim (c.number m k) c.centroids.toList)
    (c.centroids.toList.drop (c.number m k * c.subspaceDim + c.subspaceDim))
  rw [pieces_eq, hfront, hpart] at hslice
  rw [← List.drop_drop, ← h.length_toBytes, List.drop_left, hslice]

/-- **All views of a centroid show the same.** -/
theorem WellFormed.shows {c : Codebook} (h : c.WellFormed) {m k : Nat} (hm : m < c.subspaces)
    (hk : k < c.size) {values : Point} (hv : c.centroid? m k = some values) :
    c.Shows m k values := by
  have hpiece : piece c.subspaceDim (c.number m k) c.centroids.toList = values :=
    Option.some_inj.1 ((h.centroid?_eq hm hk).symm.trans hv)
  refine ⟨hv, ⟨_, h.subspace?_eq hm, (piece_piece hk _).trans hpiece⟩, fun _ hb => ?_⟩
  have hfile := h.file_eq hm hk hb
  rw [hpiece] at hfile
  rw [← number, hfile, Word.takeSingles_bytesOfSingles]

/-! ## Overwriting centroids -/

/-- A vector to be put in the place of a centroid. -/
structure Change where
  subspace : Nat
  index : Nat
  values : Point

/-- The centroid to be overwritten is there, and of the width of the vector. -/
structure Change.Fits (c : Codebook) (x : Change) : Prop where
  subspace_lt : x.subspace < c.subspaces
  index_lt : x.index < c.size
  length_eq : x.values.length = c.subspaceDim

/-- Overwrite centroids, one after the other. -/
def overwrite? (c : Codebook) (changes : List Change) : Option Codebook :=
  changes.foldlM (fun c x => c.setCentroid? x.subspace x.index x.values) c

/-- What the last of the changes puts in the place of centroid `k` of subspace `m`. -/
def last? (m k : Nat) (changes : List Change) : Option Point :=
  (changes.reverse.find? fun x => x.subspace = m ∧ x.index = k).map Change.values

/-- Two codebooks of one shape. -/
structure SameShape (c c' : Codebook) : Prop where
  subspaces_eq : c.subspaces = c'.subspaces
  size_eq : c.size = c'.size
  dim_eq : c.dim = c'.dim
  subspaceDim_eq : c.subspaceDim = c'.subspaceDim

theorem SameShape.trans {c c' c'' : Codebook} (h : c.SameShape c') (h' : c'.SameShape c'') :
    c.SameShape c'' :=
  ⟨h.subspaces_eq.trans h'.subspaces_eq, h.size_eq.trans h'.size_eq, h.dim_eq.trans h'.dim_eq,
    h.subspaceDim_eq.trans h'.subspaceDim_eq⟩

theorem Change.Fits.of_sameShape {c c' : Codebook} {x : Change} (h : x.Fits c)
    (hs : c.SameShape c') : x.Fits c' :=
  ⟨hs.subspaces_eq ▸ h.subspace_lt, hs.size_eq ▸ h.index_lt, hs.subspaceDim_eq ▸ h.length_eq⟩

/-- What the last of some changes puts there, if the first does not. -/
theorem last?_cons (m k : Nat) (x : Change) (changes : List Change) :
    last? m k (x :: changes) = (last? m k changes).or
      (if x.subspace = m ∧ x.index = k then some x.values else none) := by
  rw [last?, List.reverse_cons, List.find?_append, Option.map_or, last?]
  by_cases h : x.subspace = m ∧ x.index = k <;> simp [h]

variable {c : Codebook} {x : Change}

/-- The codebook after a change. -/
def changed (c : Codebook) (x : Change) : Codebook :=
  { c with centroids :=
      (splice c.subspaceDim (c.number x.subspace x.index) x.values c.centroids.toList).toArray }

theorem sameShape_changed (c : Codebook) (x : Change) : c.SameShape (c.changed x) :=
  ⟨rfl, rfl, rfl, rfl⟩

/-- A change that fits is made. -/
theorem setCentroid?_eq_some (h : c.WellFormed) (hx : x.Fits c) :
    c.setCentroid? x.subspace x.index x.values = some (c.changed x) := by
  have hin := h.piece_le hx.subspace_lt hx.index_lt
  rw [setCentroid?, if_pos hx.length_eq, copyAt?_eq_some (by rw [hx.length_eq]; exact hin),
    hx.length_eq]
  rfl

theorem WellFormed.changed (h : c.WellFormed) (hx : x.Fits c) : (c.changed x).WellFormed := by
  refine ⟨h.dim_pos, h.subspaces_pos, h.dim_eq, ?_⟩
  have hlen := length_splice hx.length_eq (h.piece_le hx.subspace_lt hx.index_lt)
  rw [h.length_centroids] at hlen
  exact List.size_toArray.trans hlen

/-- **A change is seen where it is made, and nowhere else.** -/
theorem centroid?_changed (h : c.WellFormed) (hx : x.Fits c) {m k : Nat} (hm : m < c.subspaces)
    (hk : k < c.size) : (c.changed x).centroid? m k
      = if x.subspace = m ∧ x.index = k then some x.values else c.centroid? m k := by
  have hin := h.piece_le hx.subspace_lt hx.index_lt
  rw [(h.changed hx).centroid?_eq hm hk, h.centroid?_eq hm hk]
  split
  · rename_i heq
    obtain ⟨rfl, rfl⟩ := heq
    exact congrArg some (piece_splice_self hx.length_eq hin)
  · rename_i hne
    refine congrArg some (piece_splice_other hx.length_eq hin fun heq => hne ?_)
    exact number_inj hx.index_lt hk heq.symm

/-- **Each centroid is what was last written to it**, or what it was. -/
theorem exists_overwrite {changes : List Change} (h : c.WellFormed)
    (hall : ∀ x ∈ changes, x.Fits c) : ∃ c', c.overwrite? changes = some c' ∧ c'.WellFormed ∧
      c.SameShape c' ∧ ∀ m k, m < c.subspaces → k < c.size →
        c'.centroid? m k = (last? m k changes).or (c.centroid? m k) := by
  induction changes generalizing c with
  | nil => exact ⟨c, rfl, h, ⟨rfl, rfl, rfl, rfl⟩, fun _ _ _ _ => rfl⟩
  | cons x changes ih =>
    obtain ⟨hx, hrest⟩ := List.forall_mem_cons.1 hall
    have hs := sameShape_changed c x
    obtain ⟨c', hc', hwell, hs', hread⟩ :=
      ih (h.changed hx) fun y hy => (hrest y hy).of_sameShape hs
    refine ⟨c', ?_, hwell, hs.trans hs', fun m k hm hk => ?_⟩
    · rw [overwrite?, List.foldlM_cons, setCentroid?_eq_some h hx]
      exact hc'
    · rw [hread m k hm hk, centroid?_changed h hx hm hk, last?_cons, Option.or_assoc]
      split <;> rfl

/-! ## All together -/

/-- **The views of the centroids agree and do not overlap.**  In a codebook made of clusterings,
centroid `k` of subspace `m` is row `k` of clustering `m`, and is seen as this row in every way
there is to see it.  In any well-formed codebook centroids can be overwritten in any order.
Afterwards each centroid is seen as what was last put in its place, or else as it was, and one more
change changes the centroid it is for and no other. -/
theorem centroid_views :
    (∀ {dim : Nat} {clusterings : List Clustering} {c : Codebook},
      ofClusterings dim clusterings = .ok c → c.WellFormed ∧ c.subspaces = clusterings.length ∧
        ∀ m k, m < c.subspaces → k < c.size → ∃ x, clusterings[m]? = some x ∧
          ∃ hk : k < x.centroids.rows, c.Shows m k (x.centroids.rowAt ⟨k, hk⟩)) ∧
    (∀ {c : Codebook} {changes : List Change}, c.WellFormed → (∀ x ∈ changes, x.Fits c) →
      ∃ c', c.overwrite? changes = some c' ∧ c'.WellFormed ∧ c.SameShape c' ∧
        (∀ m k, m < c.subspaces → k < c.size → ∃ values, c.centroid? m k = some values ∧
          c'.Shows m k ((last? m k changes).getD values)) ∧
        ∀ x : Change, x.Fits c → ∃ c'', c'.setCentroid? x.subspace x.index x.values = some c'' ∧
          c''.centroid? x.subspace x.index = some x.values ∧
          ∀ m k, m < c.subspaces → k < c.size → (m, k) ≠ (x.subspace, x.index) →
            c''.centroid? m k = c'.centroid? m k) := by
  refine ⟨fun h => ?_, fun {c changes} h hall => ?_⟩
  · obtain ⟨-, hc⟩ := holds_ofClusterings h
    refine ⟨hc.wellFormed, hc.subspaces_eq, fun m k hm hk => ?_⟩
    have hm' := hc.subspaces_eq ▸ hm
    have hk' := (hc.rows_eq _ (List.getElem_mem hm')).symm ▸ hk
    exact ⟨_, List.getElem?_eq_getElem hm', hk',
      hc.wellFormed.shows hm hk (hc.centroid?_eq hm' hk')⟩
  · obtain ⟨c', hc', hwell, hs, hread⟩ := exists_overwrite h hall
    refine ⟨c', hc', hwell, hs, fun m k hm hk => ?_, fun x hx => ?_⟩
    · have hold := h.centroid?_eq hm hk
      refine ⟨_, hold, hwell.shows (hs.subspaces_eq ▸ hm) (hs.size_eq ▸ hk) ?_⟩
      rw [hread m k hm hk, hold]
      cases last? m k changes <;> rfl
    · have hx' := hx.of_sameShape hs
      refine ⟨_, setCentroid?_eq_some hwell hx', ?_, fun m k hm hk hne => ?_⟩
      · rw [centroid?_changed hwell hx' hx'.subspace_lt hx'.index_lt, if_pos ⟨rfl, rfl⟩]
      · rw [centroid?_changed hwell hx' (hs.subspaces_eq ▸ hm) (hs.size_eq ▸ hk), if_neg]
        rintro ⟨rfl, rfl⟩
        exact hne rfl

/-- Two subspaces of width two with two centroids each, as a file and after a change. -/
theorem centroid_views_two : ∃ c h bytes c',
    ofClusterings 4 [⟨.stack 2 [[.zero, .one], [.one, .zero]], #[], 0⟩,
      ⟨.stack 2 [[.one, .one], [.zero, .nan]], #[], 0⟩] = .ok c ∧
    CodecHeader.forCodebook 0 c = .ok h ∧ Codec.toBytes h c = .ok bytes ∧
    Word.takeSingles ((bytes.drop 40).take 8) = [.zero, .nan] ∧
    c.overwrite? [⟨0, 1, [.nan, .one]⟩] = some c' ∧
    c'.centroid? 0 1 = some [.nan, .one] ∧ c'.centroid? 1 0 = some [.one, .one] := by
  have hc : ofClusterings 4 [⟨.stack 2 [[.zero, .one], [.one, .zero]], #[], 0⟩,
      ⟨.stack 2 [[.one, .one], [.zero, .nan]], #[], 0⟩]
      = .ok ⟨2, 2, 4, 2, #[.zero, .one, .one, .zero, .one, .one, .zero, .nan]⟩ := by
    decide +kernel
  obtain ⟨hwell, -, hshows⟩ := centroid_views.1 hc
  obtain ⟨x, hx, hk, hrow⟩ := hshows 1 1 (by decide) (by decide)
  cases hx
  have hvalues : ∀ hk : 1 < 2, (Matrix.stack 2 [[.one, .one], [.zero, .nan]]).rowAt ⟨1, hk⟩
      = [.zero, .nan] := by decide +kernel
  have hh : CodecHeader.forCodebook 0
      ⟨2, 2, 4, 2, #[.zero, .one, .one, .zero, .one, .one, .zero, .nan]⟩
      = .ok ⟨0, 4, 2, 1⟩ := by decide +kernel
  obtain ⟨bytes, hb⟩ : ∃ bytes, Codec.toBytes ⟨0, 4, 2, 1⟩
      ⟨2, 2, 4, 2, #[.zero, .one, .one, .zero, .one, .one, .zero, .nan]⟩ = .ok bytes :=
    exists_of_isOk (by decide +kernel)
  have hfits : ∀ x ∈ [(⟨0, 1, [.nan, .one]⟩ : Change)], x.Fits
      ⟨2, 2, 4, 2, #[.zero, .one, .one, .zero, .one, .one, .zero, .nan]⟩ := by
    simpa using ⟨by decide, by decide, rfl⟩
  obtain ⟨c', hc', -, -, hread, -⟩ := centroid_views.2 hwell hfits
  obtain ⟨old, -, h01⟩ := hread 0 1 (by decide) (by decide)
  obtain ⟨row, h10, h10'⟩ := hread 1 0 (by decide) (by decide)
  refine ⟨_, _, bytes, c', hc, hh, hb, (hrow.file_eq hh hb).trans (hvalues hk), hc',
    h01.centroid_eq, ?_⟩
  cases Option.some_inj.1 h10
  exact h10'.centroid_eq

end Codebook
end ProductQuantization
