import ProductQuantization.Json.Record
import ProductQuantization.Proofs.Outcome

/-!
# Reading what has been written

A value that is written as JSON and read again is the same value, and for a record that comes down to
its parts: a number is read from its digits, a list item by item, and of an object whose names are
all different every field is found under its name (`fields?_record`).

Reading a code table does nothing but that.  So every table whose sizes are words can be read,
well-formed or not (`CodeTable.exists_ofJson?_iff`), also as a part of a rotated quantizer
(`RotatedQuantizer.exists_ofJson?_iff`).
-/

set_option autoImplicit false

namespace ProductQuantization

/-! ## Digits -/

theorem foldl_digitsOnto (n : Nat) (rest : List Digit) :
    (digitsOnto n rest).foldl (fun n d => 10 * n + d.val) 0
      = rest.foldl (fun n d => 10 * n + d.val) n := by
  induction n, rest using digitsOnto.induct with
  | case1 n rest h => simp [digitsOnto, h]
  | case2 n rest h ih =>
    rw [digitsOnto, dif_neg h, ih, List.foldl_cons, Nat.div_add_mod]

/-- A number is read from its digits. -/
theorem natOfDigits_digitsOf (n : Nat) : natOfDigits (digitsOf n) = n := by
  rw [natOfDigits_eq_foldl, digitsOf, foldl_digitsOnto, List.foldl_nil]

namespace Json

/-- A whole number that is in range. -/
theorem below?_ofNat {bound n : Nat} (h : n < bound) : below? bound (.ofNat n) = some n := by
  simp [below?, ofNat, Number.toInt?, natOfDigits_digitsOf, h]

theorem lt_of_below? {bound n : Nat} {v : Json} (h : below? bound v = some n) : n < bound := by
  cases v with
  | number digits =>
    obtain ⟨k, -, h⟩ := Option.bind_eq_some_iff.1 h
    split at h
    · rename_i hk
      cases h
      omega
    · cases h
  | _ => cases h

theorem size?_ofNat {n : Nat} (h : n < wordValues 64) : size? (.ofNat n) = some n := by
  rw [size?, below?_ofNat h]

/-! ## Lists and records -/

section Records

variable {α : Type}

theorem required_some (decode : Json → Option α) (v : Json) :
    required decode (some v) = decode v := rfl

theorem exists_of_required {decode : Json → Option α} {field : Option Json} {x : α}
    (h : required decode field = some x) : ∃ v, field = some v ∧ decode v = some x :=
  Option.bind_eq_some_iff.1 h

theorem list?_ofList {encode : α → Json} {decode : Json → Option α} {xs : List α}
    (h : ∀ x ∈ xs, decode (encode x) = some x) : list? decode (ofList encode xs) = some xs := by
  rw [ofList, list?, List.mapM_map, mapM_eq_some, List.forall₂_same]
  exact h

theorem valuesOf_record {members : List (String × Json)} (h : (members.map Prod.fst).Nodup)
    {name : String} {v : Json} (hmem : (name, v) ∈ members) :
    valuesOf name (members.map fun (k, v) => (some k, v)) = [v] := by
  induction members with
  | nil => cases hmem
  | cons first members ih =>
    obtain ⟨hfirst, hrest⟩ := List.nodup_cons.1 h
    rcases List.mem_cons.1 hmem with rfl | hmem
    · -- the rest has other names
      have hnone : valuesOf name (members.map fun (k, v) => (some k, v)) = [] := by
        simp only [valuesOf, List.map_eq_nil_iff, List.filter_eq_nil_iff, List.mem_map]
        rintro ⟨k, w⟩ ⟨⟨k', w'⟩, hother, heq⟩ hname
        cases heq
        obtain rfl : k' = name := by simpa using hname
        exact hfirst (List.mem_map.2 ⟨(k', w'), hother, rfl⟩)
      simpa [valuesOf] using hnone
    · have hne : first.1 ≠ name := fun heq => hfirst (heq ▸ List.mem_map.2 ⟨_, hmem, rfl⟩)
      simpa [valuesOf, hne] using ih hrest hmem

/-- Every field of a record is found under its name. -/
theorem fields?_record (members : List (String × Json)) (h : (members.map Prod.fst).Nodup) :
    (Json.record members).fields? (members.map Prod.fst) = some (members.map fun m => some m.2) := by
  rw [record, fields?, if_neg (by simp), List.mapM_map, mapM_eq_some, List.forall₂_map_right_iff,
    List.forall₂_same]
  rintro ⟨name, v⟩ hmem
  rw [Function.comp_apply, valuesOf_record h hmem]

end Records
end Json

/-! ## Tables and what contains them -/

namespace CodeTable

theorem code?_ofNat (code : UInt16) : code? (.ofNat code.toNat) = some code := by
  have hlt : code.toNat < wordValues 16 := code.toNat_lt
  rw [code?, Json.below?_ofNat hlt, Option.map_some]
  exact congrArg some UInt16.ofNat_toNat

/-- The two sizes and the codes are read on their own; nothing compares them with one another. -/
theorem ofJson?_record {vectors subspaces codes : Json} {n m : Nat} {cs : List UInt16}
    (hn : Json.size? vectors = some n) (hm : Json.size? subspaces = some m)
    (hcs : Json.list? code? codes = some cs) :
    ofJson? (.record [("num_vectors", vectors), ("num_subspaces", subspaces), ("codes", codes)])
      = some ⟨n, m, cs.toArray⟩ := by
  have hfields := Json.fields?_record [("num_vectors", vectors), ("num_subspaces", subspaces),
    ("codes", codes)] (by simp)
  simp only [List.map_cons, List.map_nil] at hfields
  rw [ofJson?]
  simp [fieldNames, hfields, Json.required_some, hn, hm, hcs]

/-- A table is read as it has been written. -/
theorem ofJson?_toJson {t : CodeTable} (hvectors : t.vectors < wordValues 64)
    (hsubspaces : t.subspaces < wordValues 64) : ofJson? t.toJson = some t :=
  ofJson?_record (Json.size?_ofNat hvectors) (Json.size?_ofNat hsubspaces)
    (Json.list?_ofList fun code _ => code?_ofNat code)

/-- **The tables that can be read** are all those whose sizes are words, whatever their codes. -/
theorem exists_ofJson?_iff {t : CodeTable} :
    (∃ v, ofJson? v = some t) ↔ t.vectors < wordValues 64 ∧ t.subspaces < wordValues 64 := by
  constructor
  · rintro ⟨v, h⟩
    obtain ⟨fields, -, h⟩ := Option.bind_eq_some_iff.1 h
    split at h
    · obtain ⟨codes, -, h⟩ := Option.bind_eq_some_iff.1 h
      obtain ⟨n, hn, h⟩ := Option.bind_eq_some_iff.1 h
      obtain ⟨m, hm, h⟩ := Option.bind_eq_some_iff.1 h
      cases h
      obtain ⟨v, -, hv⟩ := Json.exists_of_required hn
      obtain ⟨w, -, hw⟩ := Json.exists_of_required hm
      exact ⟨Json.lt_of_below? hv, Json.lt_of_below? hw⟩
    · cases h
  · rintro ⟨hvectors, hsubspaces⟩
    exact ⟨t.toJson, ofJson?_toJson hvectors hsubspaces⟩

end CodeTable

namespace RotatedQuantizer

/-- The parts of a rotated quantizer are read on their own, too. -/
theorem ofJson?_record {rotation codebook table distortions : Json} {r : Matrix} {c : Codebook}
    {t : CodeTable} {ds : List Float} (hr : Matrix.ofJson? rotation = some r)
    (hc : Codebook.ofJson? codebook = some c) (ht : CodeTable.ofJson? table = some t)
    (hd : Json.list? Json.float? distortions = some ds) :
    ofJson? (.record [("rotation", rotation), ("codebook", codebook), ("assignments", table),
      ("distortions", distortions)]) = some ⟨r, c, t, ds⟩ := by
  have hfields := Json.fields?_record [("rotation", rotation), ("codebook", codebook),
    ("assignments", table), ("distortions", distortions)] (by simp)
  simp only [List.map_cons, List.map_nil] at hfields
  rw [ofJson?]
  simp [fieldNames, hfields, Json.required_some, hr, hc, ht, hd]

/-- **The rotated quantizers that can be read** are all those whose parts can be read. -/
theorem exists_ofJson?_iff {q : RotatedQuantizer} :
    (∃ v, ofJson? v = some q) ↔ (∃ v, Matrix.ofJson? v = some q.rotation) ∧
      (∃ v, Codebook.ofJson? v = some q.codebook) ∧ (∃ v, CodeTable.ofJson? v = some q.table) ∧
        ∃ v, Json.list? Json.float? v = some q.distortions := by
  constructor
  · rintro ⟨v, h⟩
    obtain ⟨fields, -, h⟩ := Option.bind_eq_some_iff.1 h
    split at h
    · obtain ⟨r, hr, h⟩ := Option.bind_eq_some_iff.1 h
      obtain ⟨c, hc, h⟩ := Option.bind_eq_some_iff.1 h
      obtain ⟨t, ht, h⟩ := Option.bind_eq_some_iff.1 h
      obtain ⟨ds, hds, h⟩ := Option.bind_eq_some_iff.1 h
      cases h
      obtain ⟨rotation, -, hr⟩ := Json.exists_of_required hr
      obtain ⟨codebook, -, hc⟩ := Json.exists_of_required hc
      obtain ⟨table, -, ht⟩ := Json.exists_of_required ht
      obtain ⟨distortions, -, hds⟩ := Json.exists_of_required hds
      exact ⟨⟨rotation, hr⟩, ⟨codebook, hc⟩, ⟨table, ht⟩, ⟨distortions, hds⟩⟩
    · cases h
  · rintro ⟨⟨rotation, hr⟩, ⟨codebook, hc⟩, ⟨table, ht⟩, ⟨distortions, hds⟩⟩
    exact ⟨_, ofJson?_record hr hc ht hds⟩

end RotatedQuantizer
end ProductQuantization
