import ProductQuantization.Dataset.Tsv
import ProductQuantization.Proofs.Matrix.Rows
import ProductQuantization.Proofs.Text.Pieces

/-!
# Vectors in text are read line by line

A text is a list of lines, and a line is garbled, blank, or a row of fields (`Line`).  What reading a
text comes to is said here of that list: which lines are looked at (`InView`), what can be wrong with
a line (`Fault`), and which matrix the rows make if nothing is (`Table`).  `parse_reads` is all of
that together, with and without a cap.

Two numbers go with a line.  Its place among all lines, blank ones included, is what a field that is
no numeral is reported with.  The number of rows before it is what a row of the wrong width is
reported with, and what the cap is compared to, before the line itself is looked at.
-/

set_option autoImplicit false

namespace ProductQuantization
namespace Tsv

/-! ## Lines -/

/-- What a line is. -/
inductive Line where
  /-- The bytes are no UTF-8. -/
  | garbled
  | blank
  /-- The fields between the tabs, without the blanks around them. -/
  | row (fields : List (List Char))

/-- The line that bytes make. -/
def Line.ofBytes (bytes : List UInt8) : Line :=
  match Text.ofBytes? bytes with
  | none => .garbled
  | some cs =>
    if Text.trim cs = [] then .blank
    else .row ((Text.splitAt '\t' (Text.trim cs)).map Text.trim)

/-- The lines of a text. -/
def linesOf (bytes : List UInt8) : List Line := (lines bytes).map Line.ofBytes

/-- The fields of a line that is a row. -/
def Line.fields? : Line → Option (List (List Char))
  | .row fields => some fields
  | _ => none

/-- The rows among the lines, in order. -/
def rowsOf (ls : List Line) : List (List (List Char)) := ls.filterMap Line.fields?

/-- How many rows there are before a line. -/
def rowsBefore (ls : List Line) (i : Nat) : Nat := (rowsOf (ls.take i)).length

/-- The number of fields in the first row. -/
def firstWidth? (ls : List Line) : Option Nat := (rowsOf ls).head?.map List.length

/-- A field that is no numeral. -/
def unreadable (field : List Char) : Bool := (readSingle? field).isNone

/-- The vector that the fields of a row stand for. -/
def vector? (fields : List (List Char)) : Option Point := fields.mapM readSingle?

/-! ## What is looked at, and what can be wrong with it -/

/-- A line is looked at as long as there are fewer rows before it than the cap allows. -/
structure InView (cap : Option Nat) (ls : List Line) (i : Nat) : Prop where
  lt_length : i < ls.length
  below : ∀ c, cap = some c → rowsBefore ls i < c

/-- What is wrong with line `i`.  Of a row whose width is not that of the first row a field that is
no numeral is reported all the same. -/
inductive Fault (ls : List Line) (i : Nat) : DatasetError → Prop where
  | garbled (h : ls[i]? = some .garbled) : Fault ls i .io
  /-- The first field that is no numeral; lines are counted from one. -/
  | field {fields : List (List Char)} {value : List Char} (h : ls[i]? = some (.row fields))
      (hvalue : fields.find? unreadable = some value) : Fault ls i (.parse (i + 1) value)
  /-- All fields are numerals, but there are not as many as in the first row. -/
  | width {fields : List (List Char)} {x : Point} {w : Nat} (h : ls[i]? = some (.row fields))
      (hx : vector? fields = some x) (hw : firstWidth? ls = some w) (hne : fields.length ≠ w) :
      Fault ls i (.raggedRow (rowsBefore ls i) w fields.length)

/-- The rows that are left of a text when `row` rows have been read. -/
def capped (cap : Option Nat) (row : Nat) (rows : List (List (List Char))) :
    List (List (List Char)) :=
  match cap with
  | none => rows
  | some c => rows.take (c - row)

/-- The matrix with the vectors of the given rows; without rows it has no columns. -/
structure Table (rows : List (List (List Char))) (m : Matrix) : Prop where
  rows_eq : m.rows = rows.length
  cols_eq : m.cols = (rows.head?.map List.length).getD 0
  toRows_eq : rows.mapM vector? = some m.toRows

/-! ## One line -/

section OneLine

variable {fields : List (List Char)} {line : Nat}

theorem vector?_cons {field : List Char} {y : Single} (hy : readSingle? field = some y)
    (fields : List (List Char)) :
    vector? (field :: fields) = (vector? fields).map (y :: ·) := by
  rw [vector?, List.mapM_cons, hy]
  cases hfields : fields.mapM readSingle? <;> simp [vector?, hfields]

/-- Either all fields are numerals, or there is a first one that is none. -/
theorem vector?_cases (fields : List (List Char)) :
    (∃ x, vector? fields = some x) ∨ ∃ value, fields.find? unreadable = some value := by
  cases h : fields.find? unreadable with
  | some value => exact .inr ⟨value, rfl⟩
  | none =>
    refine .inl (exists_mapM_eq_some fun field hfield => ?_)
    have hread := List.find?_eq_none.1 h field hfield
    rw [unreadable, Bool.not_eq_true, Option.isNone_eq_false_iff, Option.isSome_iff_exists] at hread
    exact hread

theorem length_vector? {x : Point} (h : vector? fields = some x) : x.length = fields.length :=
  (mapM_eq_some.1 h).length_eq.symm

/-- A row of numerals has no field that is none. -/
theorem find?_of_vector? {x : Point} (h : vector? fields = some x) :
    fields.find? unreadable = none := by
  rw [List.find?_eq_none]
  intro field hfield
  obtain ⟨i, hi, rfl⟩ := List.mem_iff_getElem.1 hfield
  have hsteps := List.forall₂_iff_get.1 (mapM_eq_some.1 h)
  have hstep := hsteps.2 i hi (hsteps.1 ▸ hi)
  rw [List.get_eq_getElem] at hstep
  simp [unreadable, hstep]

theorem readFields_of_vector? {raw : List (List Char)} {x : Point}
    (h : vector? (raw.map Text.trim) = some x) : readFields line raw = .ok x := by
  induction raw generalizing x with
  | nil =>
    cases h
    rfl
  | cons field raw ih =>
    cases hfield : readSingle? (Text.trim field) with
    | none => simp [vector?, hfield] at h
    | some y =>
      rw [List.map_cons, vector?_cons hfield, Option.map_eq_some_iff] at h
      obtain ⟨xs, hxs, rfl⟩ := h
      simp only [readFields, hfield, ih hxs]
      rfl

theorem readFields_of_find? {raw : List (List Char)} {value : List Char}
    (h : (raw.map Text.trim).find? unreadable = some value) :
    readFields line raw = .error (.parse line value) := by
  induction raw with
  | nil => cases h
  | cons field raw ih =>
    rw [List.map_cons, List.find?_cons] at h
    cases hfield : readSingle? (Text.trim field) with
    | none =>
      rw [unreadable, hfield] at h
      cases h
      simp only [readFields, hfield]
    | some y =>
      rw [unreadable, hfield] at h
      simp only [readFields, hfield, ih h]
      rfl

theorem readLine_garbled {bytes : List UInt8} (h : Line.ofBytes bytes = .garbled) :
    readLine line bytes = .error .io := by
  rw [Line.ofBytes] at h
  rw [readLine]
  cases hbytes : Text.ofBytes? bytes with
  | none => rfl
  | some cs =>
    rw [hbytes] at h
    dsimp only at h
    split at h <;> cases h

theorem readLine_blank {bytes : List UInt8} (h : Line.ofBytes bytes = .blank) :
    readLine line bytes = .ok none := by
  rw [Line.ofBytes] at h
  rw [readLine]
  cases hbytes : Text.ofBytes? bytes with
  | none =>
    rw [hbytes] at h
    cases h
  | some cs =>
    rw [hbytes] at h
    dsimp only at h ⊢
    split at h
    · rename_i htrim
      rw [htrim]
    · cases h

/-- A row is read field by field. -/
theorem readLine_row (line : Nat) {bytes : List UInt8} (h : Line.ofBytes bytes = .row fields) :
    ∃ raw, fields = raw.map Text.trim ∧ readLine line bytes = (readFields line raw).map some := by
  rw [Line.ofBytes] at h
  rw [readLine]
  cases hbytes : Text.ofBytes? bytes with
  | none =>
    rw [hbytes] at h
    cases h
  | some cs =>
    rw [hbytes] at h
    dsimp only at h ⊢
    split at h
    · cases h
    · rename_i htrim
      cases h
      refine ⟨_, rfl, ?_⟩
      cases hcs : Text.trim cs with
      | nil => exact absurd hcs htrim
      | cons c cs => rfl

theorem readLine_row_eq_ok (line : Nat) {bytes : List UInt8} {x : Point}
    (h : Line.ofBytes bytes = .row fields) (hx : vector? fields = some x) :
    readLine line bytes = .ok (some x) := by
  obtain ⟨raw, rfl, hread⟩ := readLine_row line h
  rw [hread, readFields_of_vector? hx]
  rfl

theorem readLine_row_eq_error {bytes : List UInt8} {value : List Char}
    (h : Line.ofBytes bytes = .row fields) (hvalue : fields.find? unreadable = some value) :
    readLine line bytes = .error (.parse line value) := by
  obtain ⟨raw, rfl, hread⟩ := readLine_row line h
  rw [hread, readFields_of_find? hvalue]
  rfl

/-- A row has a field: a line that is not blank is cut into at least one piece. -/
theorem fields_ne_nil {bytes : List UInt8} (h : Line.ofBytes bytes = .row fields) :
    fields ≠ [] := by
  rw [Line.ofBytes] at h
  split at h
  · cases h
  · split at h
    · cases h
    · cases h
      rw [Ne, List.map_eq_nil_iff]
      exact Text.splitAt_ne_nil _

end OneLine

/-! ## Lines after lines -/

section Lines

variable {cap : Option Nat} {done ls : List Line} {l : Line} {rest : List (List UInt8)}
  {bytes : List UInt8} {fields : List (List Char)}

theorem rowsOf_append (done ls : List Line) : rowsOf (done ++ ls) = rowsOf done ++ rowsOf ls :=
  List.filterMap_append

theorem rowsOf_cons_row (fields : List (List Char)) (ls : List Line) :
    rowsOf (.row fields :: ls) = fields :: rowsOf ls := rfl

theorem rowsBefore_length (done ls : List Line) :
    rowsBefore (done ++ ls) done.length = (rowsOf done).length := by
  rw [rowsBefore, List.take_left]

theorem rowsBefore_mono {i j : Nat} (h : i ≤ j) (ls : List Line) :
    rowsBefore ls i ≤ rowsBefore ls j := by
  have hsplit : ls.take j = ls.take i ++ (ls.take j).drop i := by
    conv_lhs => rw [← List.take_append_drop i (ls.take j), List.take_take, Nat.min_eq_left h]
  rw [rowsBefore, rowsBefore, hsplit, rowsOf_append, List.length_append]
  exact Nat.le_add_right _ _

/-- The width that the rows read so far prescribe stays when more lines are looked at. -/
theorem firstWidth?_append {w : Nat} (h : firstWidth? done = some w) (ls : List Line) :
    firstWidth? (done ++ ls) = some w := by
  rw [firstWidth?, rowsOf_append]
  cases hrows : rowsOf done with
  | nil =>
    rw [firstWidth?, hrows] at h
    cases h
  | cons fields rows =>
    rw [firstWidth?, hrows] at h
    exact h

theorem firstWidth?_append_row (done : List Line) (fields : List (List Char)) (ls : List Line) :
    firstWidth? (done ++ .row fields :: ls) = some ((firstWidth? done).getD fields.length) := by
  rw [firstWidth?, firstWidth?, rowsOf_append, rowsOf_cons_row]
  cases rowsOf done <;> rfl

theorem getElem?_length (done : List Line) (l : Line) (ls : List Line) :
    (done ++ l :: ls)[done.length]? = some l := by
  rw [List.getElem?_append_right (Nat.le_refl _), Nat.sub_self]
  rfl

/-! ### The line after those that are done -/

theorem not_fault_blank (done ls : List Line) (e : DatasetError) :
    ¬ Fault (done ++ .blank :: ls) done.length e := by
  intro h
  have hline := getElem?_length done .blank ls
  cases h with
  | garbled h => cases hline.symm.trans h
  | field h _ => cases hline.symm.trans h
  | width h _ _ _ => cases hline.symm.trans h

theorem not_fault_row {x : Point} (hx : vector? fields = some x)
    (hw : ∀ w, firstWidth? done = some w → fields.length = w) (ls : List Line)
    (e : DatasetError) : ¬ Fault (done ++ .row fields :: ls) done.length e := by
  intro h
  have hline := getElem?_length done (.row fields) ls
  cases h with
  | garbled h => cases hline.symm.trans h
  | field h hvalue =>
    cases hline.symm.trans h
    cases (find?_of_vector? hx).symm.trans hvalue
  | width h _ hfirst hne =>
    cases hline.symm.trans h
    rw [firstWidth?_append_row] at hfirst
    cases hdone : firstWidth? done with
    | none =>
      rw [hdone] at hfirst
      exact hne (Option.some.inj hfirst)
    | some w =>
      rw [hdone] at hfirst
      exact hne ((hw w hdone).trans (Option.some.inj hfirst))

/-- A line has one fault at most. -/
theorem Fault.unique {i : Nat} {e e' : DatasetError} (h : Fault ls i e) (h' : Fault ls i e') :
    e = e' := by
  cases h with
  | garbled h =>
    cases h' with
    | garbled h' => rfl
    | field h' _ => cases h.symm.trans h'
    | width h' _ _ _ => cases h.symm.trans h'
  | field h hvalue =>
    cases h' with
    | garbled h' => cases h.symm.trans h'
    | field h' hvalue' =>
      cases h.symm.trans h'
      cases hvalue.symm.trans hvalue'
      rfl
    | width h' hx _ _ =>
      cases h.symm.trans h'
      cases (find?_of_vector? hx).symm.trans hvalue
  | width h hx hw hne =>
    cases h' with
    | garbled h' => cases h.symm.trans h'
    | field h' hvalue =>
      cases h.symm.trans h'
      cases (find?_of_vector? hx).symm.trans hvalue
    | width h' hx' hw' hne' =>
      cases h.symm.trans h'
      cases hw.symm.trans hw'
      rfl

/-! ### From a line on -/

/-- Nothing is wrong from line `k` on, as far as lines are looked at. -/
def ClearFrom (cap : Option Nat) (ls : List Line) (k : Nat) : Prop :=
  ∀ i e, k ≤ i → InView cap ls i → ¬ Fault ls i e

/-- The first fault from line `k` on, in a line that is looked at. -/
def FirstFault (cap : Option Nat) (ls : List Line) (k : Nat) (e : DatasetError) : Prop :=
  ∃ i, k ≤ i ∧ InView cap ls i ∧ Fault ls i e ∧ ∀ j e', k ≤ j → j < i → ¬ Fault ls j e'

theorem ClearFrom.cons {k : Nat} (hk : ∀ e, ¬ Fault ls k e) (h : ClearFrom cap ls (k + 1)) :
    ClearFrom cap ls k := by
  intro i e hi hview
  rcases Nat.eq_or_lt_of_le hi with rfl | hlt
  · exact hk e
  · exact h i e hlt hview

theorem FirstFault.cons {k : Nat} {e : DatasetError} (hk : ∀ e', ¬ Fault ls k e')
    (h : FirstFault cap ls (k + 1) e) : FirstFault cap ls k e := by
  obtain ⟨i, hi, hview, hfault, hbefore⟩ := h
  refine ⟨i, by omega, hview, hfault, fun j e' hj hlt => ?_⟩
  rcases Nat.eq_or_lt_of_le hj with rfl | hj
  · exact hk e'
  · exact hbefore j e' hj hlt

theorem FirstFault.here {k : Nat} {e : DatasetError} (hview : InView cap ls k)
    (h : Fault ls k e) : FirstFault cap ls k e :=
  ⟨k, Nat.le_refl k, hview, h, fun _ _ hj hlt => absurd hlt (Nat.not_lt.2 hj)⟩

/-- A line that is looked at comes right after those that are done. -/
theorem inView_length (hcap : ∀ c, cap = some c → (rowsOf done).length < c) (l : Line)
    (ls : List Line) : InView cap (done ++ l :: ls) done.length :=
  ⟨by simp, fun c hc => by rw [rowsBefore_length]; exact hcap c hc⟩

/-- What reading the lines that are left comes to. -/
inductive Outcome (cap : Option Nat) (done : List Line) (rest : List (List UInt8)) :
    Except DatasetError (List Point) → Prop where
  | ok {xs : List Point} (clear : ClearFrom cap (done ++ rest.map Line.ofBytes) done.length)
      (vectors : (capped cap (rowsOf done).length (rowsOf (rest.map Line.ofBytes))).mapM vector?
        = some xs) (widths : ∀ x ∈ xs, firstWidth? (done ++ rest.map Line.ofBytes) = some x.length) :
      Outcome cap done rest (.ok xs)
  | error {e : DatasetError}
      (fault : FirstFault cap (done ++ rest.map Line.ofBytes) done.length e) :
      Outcome cap done rest (.error e)

theorem outcome_nil (cap : Option Nat) (done : List Line) : Outcome cap done [] (.ok []) := by
  refine .ok (fun i e hi hview => ?_) ?_ (by simp)
  · have hlt := hview.lt_length
    rw [List.map_nil, List.append_nil] at hlt
    omega
  · cases cap <;> simp [capped, rowsOf]

/-- Nothing is looked at once the cap has been reached. -/
theorem outcome_stop (done : List Line) (rest : List (List UInt8)) :
    Outcome (some (rowsOf done).length) done rest (.ok []) := by
  refine .ok (fun i e hi hview => ?_) (by simp [capped]) (by simp)
  have hbelow := hview.below _ rfl
  have hle := rowsBefore_mono hi (done ++ rest.map Line.ofBytes)
  rw [rowsBefore_length] at hle
  omega

theorem rowsOf_append_blank (done : List Line) : rowsOf (done ++ [.blank]) = rowsOf done := by
  simp [rowsOf, Line.fields?]

theorem length_rowsOf_append_row (done : List Line) (fields : List (List Char)) :
    (rowsOf (done ++ [.row fields])).length = (rowsOf done).length + 1 := by
  rw [rowsOf_append, List.length_append]
  rfl

theorem capped_cons {row : Nat} (hcap : ∀ c, cap = some c → row < c) (fields : List (List Char))
    (rows : List (List (List Char))) :
    capped cap row (fields :: rows) = fields :: capped cap (row + 1) rows := by
  cases cap with
  | none => rfl
  | some c =>
    have hlt := hcap c rfl
    obtain ⟨d, hd⟩ : ∃ d, c - row = d + 1 := ⟨c - row - 1, by omega⟩
    rw [capped, capped, hd, List.take_succ_cons]
    congr 2
    omega

/-- A step over a line that is not bad. -/
theorem Outcome.blank (h : Line.ofBytes bytes = .blank) {r : Except DatasetError (List Point)}
    (hr : Outcome cap (done ++ [.blank]) rest r) : Outcome cap done (bytes :: rest) r := by
  have hlen : (done ++ [Line.blank]).length = done.length + 1 := by simp
  have hls : done ++ (bytes :: rest).map Line.ofBytes
      = (done ++ [.blank]) ++ rest.map Line.ofBytes := by simp [h]
  have hno : ∀ e, ¬ Fault ((done ++ [.blank]) ++ rest.map Line.ofBytes) done.length e := by
    intro e
    rw [List.append_assoc]
    exact not_fault_blank done _ e
  have hrest : rowsOf ((bytes :: rest).map Line.ofBytes) = rowsOf (rest.map Line.ofBytes) := by
    rw [List.map_cons, h]
    rfl
  cases hr with
  | ok clear vectors widths =>
    rw [hlen] at clear
    rw [rowsOf_append_blank] at vectors
    exact .ok (hls ▸ clear.cons hno) (hrest ▸ vectors) (hls ▸ widths)
  | error fault =>
    rw [hlen] at fault
    exact .error (hls ▸ fault.cons hno)

/-- A step over a row of numerals. -/
theorem Outcome.row {x : Point} (h : Line.ofBytes bytes = .row fields)
    (hx : vector? fields = some x) (hw : ∀ w, firstWidth? done = some w → fields.length = w)
    (hcap : ∀ c, cap = some c → (rowsOf done).length < c)
    {r : Except DatasetError (List Point)} (hr : Outcome cap (done ++ [.row fields]) rest r) :
    Outcome cap done (bytes :: rest) (r.map (x :: ·)) := by
  have hlen : (done ++ [Line.row fields]).length = done.length + 1 := by simp
  have hls : done ++ (bytes :: rest).map Line.ofBytes
      = (done ++ [.row fields]) ++ rest.map Line.ofBytes := by simp [h]
  have hno : ∀ e, ¬ Fault ((done ++ [.row fields]) ++ rest.map Line.ofBytes) done.length e := by
    intro e
    rw [List.append_assoc]
    exact not_fault_row hx hw _ e
  have hrest : rowsOf ((bytes :: rest).map Line.ofBytes)
      = fields :: rowsOf (rest.map Line.ofBytes) := by
    rw [List.map_cons, h, rowsOf_cons_row]
  cases hr with
  | ok clear vectors widths =>
    rw [hlen] at clear
    rw [length_rowsOf_append_row] at vectors
    refine .ok (hls ▸ clear.cons hno) ?_ (hls ▸ List.forall_mem_cons.2 ⟨?_, widths⟩)
    · rw [hrest, capped_cons hcap, List.mapM_cons, hx, vectors]
      rfl
    · rw [List.append_assoc, List.singleton_append, firstWidth?_append_row, length_vector? hx]
      cases hdone : firstWidth? done with
      | none => rfl
      | some w => exact congrArg some (hw w hdone).symm
  | error fault =>
    rw [hlen] at fault
    exact .error (hls ▸ fault.cons hno)

/-- A row that is wider or narrower than the first. -/
theorem Outcome.width {x : Point} {w : Nat} (h : Line.ofBytes bytes = .row fields)
    (hx : vector? fields = some x) (hw : firstWidth? done = some w) (hne : x.length ≠ w)
    (hcap : ∀ c, cap = some c → (rowsOf done).length < c) :
    Outcome cap done (bytes :: rest) (.error (.raggedRow (rowsOf done).length w x.length)) := by
  have hview := inView_length hcap (.row fields) (rest.map Line.ofBytes)
  have hline := getElem?_length done (.row fields) (rest.map Line.ofBytes)
  have hfault := Fault.width hline hx
    (firstWidth?_append hw (Line.row fields :: rest.map Line.ofBytes))
    ((length_vector? hx).symm.trans_ne hne)
  rw [rowsBefore_length, ← length_vector? hx] at hfault
  refine .error (.here ?_ ?_) <;> rw [List.map_cons, h]
  · exact hview
  · exact hfault

/-- The width that the next row is compared to. -/
theorem checkWidth_cases (row : Nat) (width : Option Nat) (x : Point) :
    ((∀ w, width = some w → x.length = w) ∧ checkWidth row width x = .ok ()) ∨
      ∃ w, width = some w ∧ x.length ≠ w ∧
        checkWidth row width x = .error (.raggedRow row w x.length) := by
  cases width with
  | none => exact .inl ⟨by simp, rfl⟩
  | some w =>
    by_cases hw : x.length = w
    · exact .inl ⟨fun w' h => (Option.some.inj h) ▸ hw, if_pos hw⟩
    · exact .inr ⟨w, rfl, hw, if_neg hw⟩

/-- **Reading goes through the lines one after the other** and stops at the first that is bad. -/
theorem outcome_readLines (cap : Option Nat) (rest : List (List UInt8)) (done : List Line)
    (hcap : ∀ c, cap = some c → (rowsOf done).length ≤ c) :
    Outcome cap done rest
      (readLines cap (done.length + 1) (rowsOf done).length (firstWidth? done) rest) := by
  induction rest generalizing done with
  | nil => exact outcome_nil cap done
  | cons bytes rest ih =>
    rw [readLines]
    split
    · rename_i hstop
      rw [hstop]
      exact outcome_stop done _
    · rename_i hgo
      have hbelow : ∀ c, cap = some c → (rowsOf done).length < c := by
        rintro c rfl
        exact Nat.lt_of_le_of_ne (hcap c rfl) fun h => hgo (by rw [h])
      have hview := inView_length hbelow (Line.ofBytes bytes) (rest.map Line.ofBytes)
      have hline := getElem?_length done (Line.ofBytes bytes) (rest.map Line.ofBytes)
      cases h : Line.ofBytes bytes with
      | garbled =>
        rw [readLine_garbled h]
        exact .error (.here hview (.garbled (h ▸ hline)))
      | blank =>
        have hlen : (done ++ [Line.blank]).length = done.length + 1 := by simp
        have hnext := ih (done ++ [.blank]) (by rwa [rowsOf_append_blank])
        rw [hlen, firstWidth?, rowsOf_append_blank] at hnext
        rw [readLine_blank h]
        exact hnext.blank h
      | row fields =>
        rcases vector?_cases fields with ⟨x, hx⟩ | ⟨value, hvalue⟩
        · rw [readLine_row_eq_ok (done.length + 1) h hx, ok_bind]
          dsimp only
          rcases checkWidth_cases (rowsOf done).length (firstWidth? done) x with
            ⟨hw, hok⟩ | ⟨w, hw, hne, herror⟩
          · have hw' : ∀ w, firstWidth? done = some w → fields.length = w := fun w h =>
              (length_vector? hx).symm.trans (hw w h)
            have hlen : (done ++ [Line.row fields]).length = done.length + 1 := by simp
            have hnext := ih (done ++ [.row fields]) fun c hc => by
              rw [length_rowsOf_append_row]
              exact hbelow c hc
            rw [hlen, length_rowsOf_append_row, firstWidth?_append_row, ← length_vector? hx] at hnext
            rw [hok, ok_bind]
            have hstep := hnext.row h hx hw' hbelow
            generalize readLines cap _ _ _ rest = r at hstep ⊢
            cases r <;> exact hstep
          · rw [herror, error_bind]
            exact .width h hx hw hne hbelow
        · rw [readLine_row_eq_error h hvalue]
          exact .error (.here hview (.field (h ▸ hline) hvalue))

/-- **What comes after the last row asked for does not matter.** -/
theorem readLines_congr (front rest rest' : List (List UInt8)) (line row : Nat)
    (width : Option Nat) {c : Nat} (hc : c ≤ row + (rowsOf (front.map Line.ofBytes)).length)
    (hrow : row ≤ c) :
    readLines (some c) line row width (front ++ rest)
      = readLines (some c) line row width (front ++ rest') := by
  induction front generalizing line row width with
  | nil =>
    have hstop : ∀ rest, readLines (some row) line row width rest = .ok [] := by
      intro rest
      cases rest with
      | nil => rfl
      | cons bytes rest => rw [readLines, if_pos rfl]
    obtain rfl : c = row := by
      simp only [List.map_nil, rowsOf, List.filterMap_nil, List.length_nil, Nat.add_zero] at hc
      omega
    exact (hstop _).trans (hstop _).symm
  | cons bytes front ih =>
    rw [List.cons_append, List.cons_append, readLines, readLines]
    split
    · rfl
    · rename_i hgo
      have hlt : row < c := Nat.lt_of_le_of_ne hrow fun h => hgo (by rw [h])
      cases h : Line.ofBytes bytes with
      | garbled => rw [readLine_garbled h]; rfl
      | blank =>
        have hrows : rowsOf ((bytes :: front).map Line.ofBytes) = rowsOf (front.map Line.ofBytes) := by
          rw [List.map_cons, h]
          rfl
        rw [readLine_blank h]
        exact ih _ _ _ (hrows ▸ hc) hrow
      | row fields =>
        rw [List.map_cons, h, rowsOf_cons_row, List.length_cons] at hc
        rcases vector?_cases fields with ⟨x, hx⟩ | ⟨value, hvalue⟩
        · rw [readLine_row_eq_ok _ h hx]
          dsimp only [ok_bind]
          rw [ih (line + 1) (row + 1) (some (width.getD x.length)) (by omega) hlt]
        · rw [readLine_row_eq_error h hvalue]
          rfl

end Lines

/-! ## A whole text -/

section Texts

variable {cap : Option Nat} {bytes : List UInt8} {rows : List (List (List Char))} {m m' : Matrix}

theorem not_clearFrom {ls : List Line} {k : Nat} {e : DatasetError}
    (h : FirstFault cap ls k e) : ¬ ClearFrom cap ls k := by
  intro hclear
  obtain ⟨i, hi, hview, hfault, -⟩ := h
  exact hclear i e hi hview hfault

/-- There is one first fault at most. -/
theorem FirstFault.unique {ls : List Line} {k : Nat} {e e' : DatasetError}
    (h : FirstFault cap ls k e) (h' : FirstFault cap ls k e') : e = e' := by
  obtain ⟨i, hi, -, hfault, hbefore⟩ := h
  obtain ⟨i', hi', -, hfault', hbefore'⟩ := h'
  rcases Nat.lt_trichotomy i i' with hlt | rfl | hlt
  · exact absurd hfault (hbefore' i e hi hlt)
  · exact hfault.unique hfault'
  · exact absurd hfault' (hbefore i' e' hi' hlt)

/-- A line that a capped reader looks at is looked at without a cap. -/
theorem ClearFrom.capped {ls : List Line} {k : Nat} (h : ClearFrom none ls k) (cap : Option Nat) :
    ClearFrom cap ls k :=
  fun i e hi hview => h i e hi ⟨hview.lt_length, fun _ hc => nomatch hc⟩

theorem ne_nil_of_mem_rowsOf {fields : List (List Char)} (h : fields ∈ rowsOf (linesOf bytes)) :
    fields ≠ [] := by
  rw [rowsOf, List.mem_filterMap] at h
  obtain ⟨l, hl, hfields⟩ := h
  obtain ⟨line, -, hline⟩ := List.mem_map.1 hl
  cases l with
  | garbled => cases hfields
  | blank => cases hfields
  | row fields' =>
    cases hfields
    exact fields_ne_nil hline

theorem capped_sublist (cap : Option Nat) (row : Nat) (rows : List (List (List Char))) :
    List.Sublist (capped cap row rows) rows := by
  cases cap with
  | none => exact List.Sublist.refl rows
  | some c => exact List.take_sublist _ rows

/-- The vectors of the rows, one below the other, are a table of the rows. -/
theorem table_stack {xs : List Point} (hne : ∀ fields ∈ rows, fields ≠ [])
    (h : rows.mapM vector? = some xs) {w : Nat} (hw : ∀ x ∈ xs, x.length = w) :
    Table rows (.stack ((xs.head?.map List.length).getD 0) xs) := by
  have hsteps := mapM_eq_some.1 h
  cases hsteps with
  | nil => exact ⟨rfl, rfl, rfl⟩
  | @cons fields x rows xs hx hrest =>
    have hlen := length_vector? hx
    have hwidth : x.length ≠ 0 :=
      hlen ▸ mt List.length_eq_zero_iff.1 (hne fields List.mem_cons_self)
    refine ⟨congrArg (· + 1) hrest.length_eq.symm, hlen, ?_⟩
    rw [h]
    refine congrArg some (Matrix.toRows_stack hwidth fun y hy => ?_).symm
    exact (hw y hy).trans (hw x List.mem_cons_self).symm

/-- Rows that have fields are the rows of one table only. -/
theorem Table.unique (hne : ∀ fields ∈ rows, fields ≠ []) (h : Table rows m)
    (h' : Table rows m') : m = m' := by
  have hr := h.rows_eq.trans h'.rows_eq.symm
  have hc := h.cols_eq.trans h'.cols_eq.symm
  have ht : m.toRows = m'.toRows := Option.some.inj (h.toRows_eq.symm.trans h'.toRows_eq)
  cases rows with
  | nil =>
    refine Matrix.ext_rowAt hr hc fun i ha _ => ?_
    rw [h.rows_eq] at ha
    cases ha
  | cons fields rows =>
    have hwidth : m.cols ≠ 0 :=
      h.cols_eq ▸ mt List.length_eq_zero_iff.1 (hne fields List.mem_cons_self)
    calc m = .stack m.cols m.toRows := (Matrix.stack_toRows hwidth).symm
      _ = .stack m'.cols m'.toRows := by rw [hc, ht]
      _ = m' := Matrix.stack_toRows (hc ▸ hwidth)

/-- The first rows of a table are the table of the first rows. -/
theorem Table.take {L : Nat} (hL : 1 ≤ L) (h : Table rows m) (h' : Table (rows.take L) m') :
    m'.rows = min L m.rows ∧ m'.cols = m.cols ∧ m'.toRows = m.toRows.take L := by
  refine ⟨?_, ?_, ?_⟩
  · rw [h'.rows_eq, h.rows_eq, List.length_take]
  · rw [h'.cols_eq, h.cols_eq, List.head?_take, if_neg (by omega)]
  · have hsteps := mapM_eq_some.1 h.toRows_eq
    have htake := mapM_eq_some.2 (List.forall₂_take L hsteps)
    exact Option.some.inj (h'.toRows_eq.symm.trans htake)

/-- What reading a text comes to. -/
theorem parse_cases (bytes : List UInt8) (cap : Option Nat) :
    (∃ m, parse bytes cap = .ok m ∧ ClearFrom cap (linesOf bytes) 0 ∧
      Table (capped cap 0 (rowsOf (linesOf bytes))) m) ∨
    ∃ e, parse bytes cap = .error e ∧ FirstFault cap (linesOf bytes) 0 e := by
  have houtcome := outcome_readLines cap (lines bytes) [] fun _ _ => Nat.zero_le _
  have hparse : parse bytes cap = (readLines cap 1 0 none (lines bytes)).bind
      fun rows => .ok (.stack ((rows.head?.map List.length).getD 0) rows) := rfl
  change Outcome cap [] (lines bytes) (readLines cap 1 0 none (lines bytes)) at houtcome
  generalize readLines cap 1 0 none (lines bytes) = r at hparse houtcome
  cases houtcome with
  | error fault => exact .inr ⟨_, hparse, fault⟩
  | @ok xs clear vectors widths =>
    refine .inl ⟨_, hparse, clear, ?_⟩
    have hne : ∀ fields ∈ capped cap 0 (rowsOf (linesOf bytes)), fields ≠ [] := fun fields h =>
      ne_nil_of_mem_rowsOf ((capped_sublist cap 0 _).subset h)
    have hw : ∀ x ∈ xs, x.length = (firstWidth? (linesOf bytes)).getD 0 := by
      intro x hx
      rw [show firstWidth? (linesOf bytes) = some x.length from widths x hx]
      rfl
    exact table_stack hne vectors hw

/-- **Reading a text is reading its lines in order**: it succeeds if nothing is wrong with a line
that is looked at, with the matrix of the rows up to the cap, and reports what is wrong with the first
such line otherwise.  Nothing after the last row asked for changes the result, so that a cap takes the
first rows of what is read without one. -/
theorem parse_reads (bytes : List UInt8) (cap : Option Nat) :
    ((∃ m, parse bytes cap = .ok m) ↔ ClearFrom cap (linesOf bytes) 0) ∧
    (∀ m, parse bytes cap = .ok m ↔
      ClearFrom cap (linesOf bytes) 0 ∧ Table (capped cap 0 (rowsOf (linesOf bytes))) m) ∧
    (∀ e, parse bytes cap = .error e ↔ FirstFault cap (linesOf bytes) 0 e) ∧
    (∀ (front rest rest' : List UInt8) (L : Nat), L ≤ (rowsOf (linesOf front)).length →
      parse (front ++ 0x0A :: rest) (some L) = parse (front ++ 0x0A :: rest') (some L)) ∧
    (∀ (m : Matrix) (L : Nat), parse bytes none = .ok m → 1 ≤ L →
      ∃ m', parse bytes (some L) = .ok m' ∧ m'.rows = min L m.rows ∧ m'.cols = m.cols ∧
        m'.toRows = m.toRows.take L) := by
  refine ⟨?_, fun m => ?_, fun e => ?_, fun front rest rest' L hL => ?_, fun m L hm hL => ?_⟩
  · rcases parse_cases bytes cap with ⟨m, hm, hclear, -⟩ | ⟨e, he, hfault⟩
    · exact ⟨fun _ => hclear, fun _ => ⟨m, hm⟩⟩
    · refine ⟨fun ⟨m, hm⟩ => ?_, fun hclear => absurd hclear (not_clearFrom hfault)⟩
      cases he.symm.trans hm
  · rcases parse_cases bytes cap with ⟨m', hm', hclear, htable⟩ | ⟨e, he, hfault⟩
    · rw [hm']
      refine ⟨fun h => ⟨hclear, Except.ok.inj h ▸ htable⟩, fun h => congrArg Except.ok ?_⟩
      exact htable.unique (fun fields hf => ne_nil_of_mem_rowsOf ((capped_sublist cap 0 _).subset hf))
        h.2
    · rw [he]
      exact ⟨fun h => (by cases h), fun h => absurd h.1 (not_clearFrom hfault)⟩
  · rcases parse_cases bytes cap with ⟨m, hm, hclear, -⟩ | ⟨e', he', hfault⟩
    · rw [hm]
      exact ⟨fun h => (by cases h), fun h => absurd hclear (not_clearFrom h)⟩
    · rw [he']
      exact ⟨fun h => Except.error.inj h ▸ hfault, fun h => congrArg Except.error (hfault.unique h)⟩
  · have hlines : L ≤ 0 + (rowsOf ((lines front).map Line.ofBytes)).length := by
      rw [Nat.zero_add]
      exact hL
    have hreads := readLines_congr (lines front) (lines rest) (lines rest') 1 0 none hlines
      (Nat.zero_le L)
    rw [parse, parse, lines, lines, Text.splitAt_append, Text.splitAt_append]
    exact congrArg (· >>= _) hreads
  · rcases parse_cases bytes none with ⟨m₀, hm₀, hclear, htable⟩ | ⟨e, he, -⟩
    · cases hm₀.symm.trans hm
      rcases parse_cases bytes (some L) with ⟨m', hm', -, htable'⟩ | ⟨e, -, hfault⟩
      · exact ⟨m', hm', htable.take hL htable'⟩
      · exact absurd (hclear.capped _) (not_clearFrom hfault)
    · cases he.symm.trans hm

/-- Two rows with a blank line between them: what comes after them does not count if two are asked
for, be it no UTF-8. -/
theorem parse_reads_garbled_tail :
    let front : List UInt8 := [0x31, 0x09, 0x32, 0x0A, 0x20, 0x0A, 0x33, 0x09, 0x34]
    (2 ≤ (rowsOf (linesOf front)).length ∧
      parse (front ++ [0x0A, 0xFF]) (some 2) = parse (front ++ [0x0A]) (some 2)) ∧
    (∃ m, parse (front ++ [0x0A]) none = .ok m ∧ 1 ≤ 1 ∧
      ∃ m', parse (front ++ [0x0A]) (some 1) = .ok m' ∧ m'.rows = min 1 m.rows ∧
        m'.cols = m.cols ∧ m'.toRows = m.toRows.take 1) := by
  intro front
  have hreads := parse_reads (front ++ [0x0A]) none
  have hrows : 2 ≤ (rowsOf (linesOf front)).length := by decide +kernel
  refine ⟨⟨hrows, hreads.2.2.2.1 front [0xFF] [] 2 hrows⟩, ?_⟩
  obtain ⟨m, hm⟩ := exists_of_isOk (x := parse (front ++ [0x0A]) none) (by decide +kernel)
  exact ⟨m, hm, Nat.le_refl 1, hreads.2.2.2.2 m 1 hm (Nat.le_refl 1)⟩

end Texts
end Tsv
end ProductQuantization
