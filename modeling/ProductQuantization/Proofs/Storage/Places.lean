import ProductQuantization.Proofs.Storage.Outcomes
import ProductQuantization.Proofs.Text.Pieces

/-!
# Places, and what publishing does to them

A path in text leads to a place only if everything on the way is a directory, so whether it does
depends on what is on the disk.  *Where* it leads does not: `Disk.place` only looks at the working
directory, and `place_of_resolve` says that a path leads there or nowhere.  Two artifacts can
therefore be told apart without knowing what is on the disk, also if the path of one of them is
absolute and that of the other is not.

* `SameDirectories` relates two disks on which every path leads the same way.
* `Written` says what writing a file in place does to a disk, step by step (`written_of_steps`).
* `Published` says what publishing an artifact does to a disk, and `ends_publish_published` that it
  does this whenever it succeeds: the artifact is under its path, and everything else, apart from the
  temporary file, is what it was.
* `Published.entryAt?_of_ne` is the frame: what is at neither of these two places is found as before.
-/

set_option autoImplicit false

namespace ProductQuantization

/-! ## Where a path leads -/

namespace Path

/-- Where pieces of a path lead from a place, as long as nothing is in the way. -/
def walk : Place → List String → Place
  | here, [] => here
  | here, piece :: rest =>
    if piece = "" ∨ piece = "." then walk here rest
    else if piece = ".." then walk here.up rest
    else walk (here ++ [piece]) rest

theorem walk_append (here : Place) (front rest : List String) :
    walk here (front ++ rest) = walk (walk here front) rest := by
  induction front generalizing here with
  | nil => rfl
  | cons piece front ih =>
    simp only [List.cons_append, walk]
    split
    · exact ih _
    · split <;> exact ih _

/-- The name of a file: a single component of a path that stands for something. -/
structure IsName (name : String) : Prop where
  ne_empty : name ≠ ""
  ne_dot : name ≠ "."
  ne_dots : name ≠ ".."
  slash_not_mem : '/' ∉ name.toList

theorem walk_name {name : String} (h : IsName name) (here : Place) :
    walk here [name] = here ++ [name] := by
  simp [walk, h.ne_empty, h.ne_dot, h.ne_dots]

theorem walk_singleton_empty (here : Place) : walk here [""] = here := by simp [walk]

/-- Whether a path is absolute is seen at its beginning. -/
theorem isAbsolute_append {front : String} (h : front.toList ≠ []) (rest : String) :
    isAbsolute (front ++ rest) = isAbsolute front := by
  rw [isAbsolute, isAbsolute, String.toList_append, List.head?_append_of_ne_nil _ h]

theorem isAbsolute_name {name : String} (h : IsName name) : isAbsolute name = false := by
  rw [isAbsolute, decide_eq_false_iff_not]
  exact fun hhead => h.slash_not_mem (List.mem_of_mem_head? hhead)

end Path

/-- The place that a path stands for, seen from the working directory. -/
def Disk.place (d : Disk) (path : String) : Place := Path.walk (d.start path) (Path.pieces path)

theorem Disk.place_congr {d d' : Disk} (h : d'.here = d.here) (path : String) :
    d'.place path = d.place path := by
  rw [place, place, start, start, h]

/-! ### Names in a directory -/

namespace Path

theorem isAbsolute_join (directory : String) {name : String} (h : IsName name) :
    isAbsolute (join directory name) = isAbsolute directory := by
  by_cases hempty : directory.toList = []
  · have hname : join directory name = name := by
      rw [String.toList_eq_nil_iff] at hempty
      subst hempty
      exact String.empty_append
    rw [hname, isAbsolute_name h, isAbsolute, hempty]
    rfl
  · rw [join]
    split
    · exact isAbsolute_append hempty _
    · rw [String.append_assoc]
      exact isAbsolute_append hempty _

/-- A name behind a slash is a step of its own. -/
theorem walk_pieces_slash (here : Place) (base : List Char) {name : String} (h : IsName name)
    {path : String} (hpath : path.toList = base ++ '/' :: name.toList) :
    walk here (pieces path) = walk here (pieces (String.ofList base)) ++ [name] := by
  rw [pieces, pieces, hpath, Text.splitAt_append, Text.splitAt_of_not_mem h.slash_not_mem,
    List.map_append, walk_append, String.toList_ofList]
  simpa using walk_name h _

theorem walk_pieces_join (here : Place) (directory : String) {name : String} (h : IsName name) :
    walk here (pieces (join directory name)) = walk here (pieces directory) ++ [name] := by
  rw [join]
  split
  · rename_i hend
    rw [Bool.or_eq_true, String.isEmpty_iff] at hend
    rcases hend with rfl | hend
    · have hpieces : pieces ("" ++ name) = [name] := by
        rw [String.empty_append, pieces, Text.splitAt_of_not_mem h.slash_not_mem]
        simp
      rw [hpieces]
      exact (walk_name h here).trans (congrArg (· ++ [name]) (walk_singleton_empty here).symm)
    -- the slash at the end stands for nothing
    rw [← String.endsWith_toSlice, String.Slice.endsWith_string_iff, String.copy_toSlice] at hend
    obtain ⟨base, hbase⟩ := hend
    have hdirectory : walk here (pieces directory) = walk here (pieces (String.ofList base)) := by
      rw [pieces, pieces, ← hbase, String.toList_ofList]
      show walk here ((Text.splitAt '/' (base ++ '/' :: [])).map String.ofList) = _
      rw [Text.splitAt_append, List.map_append, walk_append, String.toList_ofList]
      exact walk_singleton_empty _
    rw [hdirectory]
    refine walk_pieces_slash here base h ?_
    rw [String.toList_append, ← hbase, List.append_assoc]
    rfl
  · rw [walk_pieces_slash here directory.toList h, String.ofList_toList]
    rw [String.toList_append, String.toList_append, List.append_assoc]
    rfl

theorem temporaryPath_join (directory name : String) :
    Storage.temporaryPath (join directory name) = join directory (Storage.temporaryPath name) := by
  rw [Storage.temporaryPath, Storage.temporaryPath, join, join]
  split <;> simp only [String.append_assoc]

end Path

/-- **A name in a directory** stands for a place in the place of the directory. -/
theorem Disk.place_join (d : Disk) (directory : String) {name : String} (h : Path.IsName name) :
    d.place (Path.join directory name) = d.place directory ++ [name] := by
  rw [place, place, start, start, Path.isAbsolute_join directory h, Path.walk_pieces_join _ _ h]

/-! ## Disks on which every path leads the same way -/

namespace Disk

variable {d d' : Disk}

theorem follow_eq_walk {here p : Place} {pieces : List String}
    (h : d.follow here pieces = .ok p) : p = Path.walk here pieces := by
  induction pieces generalizing here with
  | nil => exact (Except.ok.inj h).symm
  | cons piece rest ih =>
    rw [follow] at h
    rw [Path.walk]
    split at h
    · cases h
    · cases h
    · split at h
      · rw [if_pos ‹_›]
        exact ih h
      · rw [if_neg ‹_›]
        split at h
        · rw [if_pos ‹_›]
          exact ih h
        · rw [if_neg ‹_›]
          split at h
          · exact ih h
          · cases h

/-- **A path leads to its place or nowhere.** -/
theorem place_of_resolve {path : String} {p : Place} (h : d.resolve path = some p) :
    p = d.place path := by
  rw [resolve] at h
  split at h
  · cases h
  · cases hf : d.follow (d.start path) (Path.pieces path) with
    | error o => rw [hf] at h; cases h
    | ok q =>
      rw [hf] at h
      cases h
      exact follow_eq_walk hf

/-- There are directories at the same places, and the same one is the working directory. -/
structure SameDirectories (d d' : Disk) : Prop where
  here_eq : d'.here = d.here
  isDirectory_eq : ∀ p, d'.isDirectory p = d.isDirectory p

theorem SameDirectories.refl (d : Disk) : SameDirectories d d := ⟨rfl, fun _ => rfl⟩

theorem SameDirectories.symm (h : SameDirectories d d') : SameDirectories d' d :=
  ⟨h.here_eq.symm, fun p => (h.isDirectory_eq p).symm⟩

theorem SameDirectories.trans {d₁ d₂ d₃ : Disk} (h : SameDirectories d₁ d₂)
    (h' : SameDirectories d₂ d₃) : SameDirectories d₁ d₃ :=
  ⟨h'.here_eq.trans h.here_eq, fun p => (h'.isDirectory_eq p).trans (h.isDirectory_eq p)⟩

theorem SameDirectories.place_eq (h : SameDirectories d d') (path : String) :
    d'.place path = d.place path :=
  place_congr h.here_eq path

theorem SameDirectories.follow (hd : SameDirectories d d') {here p : Place} {pieces : List String}
    (h : d.follow here pieces = .ok p) : d'.follow here pieces = .ok p := by
  induction pieces generalizing here with
  | nil => exact h
  | cons piece rest ih =>
    rw [Disk.follow] at h
    split at h
    · cases h
    · cases h
    · rename_i hfind
      have hfind' : d'.find? here = some .directory := by
        have hdir := hd.isDirectory_eq here
        rwa [isDirectory, isDirectory, hfind, decide_eq_decide, eq_self, iff_true] at hdir
      rw [Disk.follow, hfind']
      simp only
      split at h
      · rw [if_pos ‹_›]
        exact ih h
      · rw [if_neg ‹_›]
        split at h
        · rw [if_pos ‹_›]
          exact ih h
        · rw [if_neg ‹_›]
          split at h
          · rw [if_pos ‹_›]
            exact ih h
          · cases h

/-- Every path that leads somewhere still leads there. -/
theorem SameDirectories.resolve (hd : SameDirectories d d') {path : String} {p : Place}
    (h : d.resolve path = some p) : d'.resolve path = some p := by
  rw [Disk.resolve] at h ⊢
  split at h
  · cases h
  · have hstart : d'.start path = d.start path := by rw [Disk.start, Disk.start, hd.here_eq]
    rw [if_neg ‹_›, hstart]
    cases hf : d.follow (d.start path) (Path.pieces path) with
    | error o => rw [hf] at h; cases h
    | ok q =>
      rw [hf] at h
      rw [hd.follow hf]
      exact h

/-! ## Changing one place -/

/-- A place where there is no directory is not on the way to the working directory. -/
theorem not_isPrefix_here {p : Place} (h : d.isDirectory p = false) : ¬ p <+: d.here := by
  intro hprefix
  simp [isDirectory, find?, hprefix] at h

theorem lookup_erase_of_ne {p q : Place} (h : q ≠ p) (d : Disk) :
    (d.erase p).tree.lookup q = d.tree.lookup q := by
  rw [erase]
  induction d.tree with
  | nil => rfl
  | cons entry tree ih =>
    obtain ⟨p', e⟩ := entry
    by_cases hp : p' = p
    · have hq : (q == p') = false := by simpa [hp] using h
      simpa [List.lookup_cons, hp, hp ▸ hq] using ih
    · simp only [List.filter_cons, hp, ne_eq, not_false_eq_true, decide_true, if_true,
        List.lookup_cons]
      rw [ih]

theorem find?_erase_of_ne {p q : Place} (h : q ≠ p) (d : Disk) :
    (d.erase p).find? q = d.find? q := by
  rw [find?, find?, lookup_erase_of_ne h]
  rfl

theorem find?_erase_self {p : Place} (h : d.isDirectory p = false) : (d.erase p).find? p = none := by
  have hhere : ¬ p <+: (d.erase p).here := fun hprefix => not_isPrefix_here h hprefix
  rw [find?, if_neg hhere, List.lookup_eq_none_iff]
  intro entry hentry
  have hne : entry.1 ≠ p := by simpa using (List.mem_filter.1 hentry).2
  simpa using Ne.symm hne

theorem find?_put_self {p : Place} (h : d.isDirectory p = false) (e : Entry) :
    (d.put p e).find? p = some e := by
  simp [find?, put, not_isPrefix_here h]

theorem find?_put_of_ne {p q : Place} (h : q ≠ p) (e : Entry) (d : Disk) :
    (d.put p e).find? q = d.find? q := by
  have hq : (q == p) = false := by simpa using h
  rw [find?, find?, put, List.lookup_cons, hq, lookup_erase_of_ne h]

/-- Putting a file where there is no directory changes no directory. -/
theorem sameDirectories_put {p : Place} (h : d.isDirectory p = false) (bytes : List UInt8) :
    SameDirectories d (d.put p (.file bytes)) := by
  refine ⟨rfl, fun q => ?_⟩
  by_cases hq : q = p
  · rw [hq, h, isDirectory, find?_put_self h]
    rfl
  · rw [isDirectory, isDirectory, find?_put_of_ne hq]

/-- Nor does taking a file away. -/
theorem sameDirectories_erase {p : Place} (h : d.isDirectory p = false) :
    SameDirectories d (d.erase p) := by
  refine ⟨rfl, fun q => ?_⟩
  by_cases hq : q = p
  · rw [hq, h, isDirectory, find?_erase_self h]
    rfl
  · rw [isDirectory, isDirectory, find?_erase_of_ne hq]

/-! ## What only depends on the files -/

theorem find?_congr (h : d'.toFiles = d.toFiles) (p : Place) : d'.find? p = d.find? p := by
  rw [find?, find?, h]

theorem isDirectory_congr (h : d'.toFiles = d.toFiles) (p : Place) :
    d'.isDirectory p = d.isDirectory p := by
  rw [isDirectory, isDirectory, find?_congr h]

theorem resolve_congr (h : d'.toFiles = d.toFiles) (path : String) :
    d'.resolve path = d.resolve path := by
  have hd' : d' = { d with mishaps := d'.mishaps } := by
    cases d'
    cases h
    rfl
  have hstart : ({ d with mishaps := d'.mishaps } : Disk).start path = d.start path := rfl
  rw [resolve, resolve, hd', hstart, follow_mishaps]

theorem SameDirectories.of_files (h : d'.toFiles = d.toFiles) : SameDirectories d d' :=
  ⟨congrArg Files.here h, isDirectory_congr h⟩

/-- It is the files that matter. -/
theorem SameDirectories.trans_files {d₁ d₂ : Disk} (h : SameDirectories d d₁)
    (hfiles : d₂.toFiles = d₁.toFiles) : SameDirectories d d₂ :=
  h.trans (.of_files hfiles)

/-! ## Steps that have not failed

A step that has not failed has done its work on the files that were there, and has used up at most
one of the mishaps to come. -/

/-- What comes of a step that has not failed. -/
def StepTo (f : Disk → Bool × Disk) (d d' : Disk) : Prop :=
  ∃ d₀ : Disk, d₀.toFiles = d.toFiles ∧ d₀.mishaps <:+ d.mishaps ∧ f d₀ = (true, d')

theorem stepTo_of_step {f : Disk → Bool × Disk} (h : step false f d = (true, d')) :
    StepTo f d d' := by
  rw [step] at h
  split at h
  · exact ⟨d, rfl, List.suffix_rfl, h⟩
  · cases h
  · rename_i rest hmishaps
    exact ⟨{ d with mishaps := rest }, rfl, hmishaps ▸ List.suffix_cons false rest, h⟩

theorem createFile_eq_true {path : String} (h : StepTo (createFile path) d d') :
    ∃ p, d.resolve path = some p ∧ d.isDirectory p = false ∧
      d'.toFiles = (d.put p (.file [])).toFiles ∧ d'.mishaps <:+ d.mishaps := by
  obtain ⟨d₀, hfiles, hmishaps, h⟩ := h
  rw [createFile, resolve_congr hfiles] at h
  cases hp : d.resolve path with
  | none => simp [hp] at h
  | some p =>
    simp only [hp] at h
    split at h
    · cases h
    · rename_i hdir
      cases h
      rw [isDirectory_congr hfiles, Bool.not_eq_true] at hdir
      refine ⟨p, rfl, hdir, ?_, hmishaps⟩
      rw [put, put, erase, erase, hfiles]

theorem fillFile_eq_true {path : String} {bytes : List UInt8}
    (h : StepTo (fillFile path bytes) d d') :
    ∃ p, d.resolve path = some p ∧ d.isDirectory p = false ∧
      d'.toFiles = (d.put p (.file bytes)).toFiles ∧ d'.mishaps <:+ d.mishaps := by
  obtain ⟨d₀, hfiles, hmishaps, h⟩ := h
  rw [fillFile, resolve_congr hfiles] at h
  cases hp : d.resolve path with
  | none => simp [hp] at h
  | some p =>
    simp only [hp, find?_congr hfiles] at h
    split at h
    · rename_i hfile
      cases h
      refine ⟨p, rfl, by simp [isDirectory, hfile], ?_, hmishaps⟩
      rw [put, put, erase, erase, hfiles]
    · cases h

theorem syncFile_eq_true {path : String} (h : StepTo (syncFile path) d d') :
    d'.toFiles = d.toFiles ∧ d'.mishaps <:+ d.mishaps := by
  obtain ⟨d₀, hfiles, hmishaps, h⟩ := h
  cases (Prod.mk.inj h).2
  exact ⟨hfiles, hmishaps⟩

theorem renameFile_eq_true {source target : String}
    (h : StepTo (renameFile source target) d d') :
    ∃ p q bytes, d.resolve source = some p ∧ d.resolve target = some q ∧
      d.find? p = some (.file bytes) ∧ d.isDirectory q = false ∧
      d'.toFiles = ((d.erase p).put q (.file bytes)).toFiles ∧ d'.mishaps <:+ d.mishaps := by
  obtain ⟨d₀, hfiles, hmishaps, h⟩ := h
  rw [renameFile, resolve_congr hfiles, resolve_congr hfiles] at h
  split at h
  · rename_i p q hp hq
    rw [find?_congr hfiles] at h
    split at h
    · rename_i bytes hfile
      split at h
      · cases h
      · rename_i hdir
        cases h
        rw [isDirectory_congr hfiles, Bool.not_eq_true] at hdir
        refine ⟨p, q, bytes, hp, hq, hfile, hdir, ?_, hmishaps⟩
        simp only [put, erase, hfiles]
    · cases h
  · cases h

end Disk

/-! ## Publishing -/

/-- What publishing an artifact does to a disk. -/
structure Published (path : String) (bytes : List UInt8) (d d' : Disk) : Prop where
  /-- The path leads to its place. -/
  resolve_eq : d.resolve path = some (d.place path)
  /-- The artifact is there. -/
  holds : d'.find? (d.place path) = some (.file bytes)
  /-- Everything else, apart from the temporary file, is what it was. -/
  frame : ∀ p, p ≠ d.place path → p ≠ d.place (Storage.temporaryPath path) →
    d'.find? p = d.find? p
  /-- No directory has come or gone. -/
  directories : d.SameDirectories d'
  /-- Mishaps have been used up, but there are no new ones. -/
  mishaps : d'.mishaps <:+ d.mishaps

/-- What writing a file in place does to a disk. -/
structure Written (path : String) (bytes : List UInt8) (d d' : Disk) : Prop where
  resolve_eq : d.resolve path = some (d.place path)
  /-- There has been no directory under the path. -/
  isDirectory_eq : d.isDirectory (d.place path) = false
  holds : d'.find? (d.place path) = some (.file bytes)
  frame : ∀ p, p ≠ d.place path → d'.find? p = d.find? p
  directories : d.SameDirectories d'
  mishaps : d'.mishaps <:+ d.mishaps

section Steps

open Disk

variable {path : String} {bytes : List UInt8} {d d₁ d₂ d₃ : Disk}

/-- Every step of writing looks for the file at the same place. -/
theorem written_of_steps (h₁ : StepTo (createFile path) d d₁) (h₂ : StepTo (fillFile path bytes) d₁ d₂)
    (h₃ : StepTo (syncFile path) d₂ d₃) : Written path bytes d d₃ := by
  obtain ⟨t, ht, htdir, hfiles₁, hmishaps₁⟩ := createFile_eq_true h₁
  obtain ⟨t₂, ht₂, htdir₂, hfiles₂, hmishaps₂⟩ := fillFile_eq_true h₂
  obtain ⟨hfiles₃, hmishaps₃⟩ := syncFile_eq_true h₃
  have hsame₁ : d.SameDirectories d₁ := (sameDirectories_put htdir []).trans_files hfiles₁
  cases (hsame₁.resolve ht).symm.trans ht₂
  have hsame₂ : d₁.SameDirectories d₂ := (sameDirectories_put htdir₂ bytes).trans_files hfiles₂
  have hplace := place_of_resolve ht
  refine ⟨hplace ▸ ht, hplace ▸ htdir, ?_, fun p hp => ?_,
    (hsame₁.trans hsame₂).trans_files hfiles₃,
    hmishaps₃.trans (hmishaps₂.trans hmishaps₁)⟩
  · rw [← hplace, find?_congr hfiles₃, find?_congr hfiles₂, find?_put_self htdir₂]
  · rw [← hplace] at hp
    rw [find?_congr hfiles₃, find?_congr hfiles₂, find?_put_of_ne hp, find?_congr hfiles₁,
      find?_put_of_ne hp]

/-- Renaming puts what has been written under its path. -/
theorem Written.published (hw : Written (Storage.temporaryPath path) bytes d d₁)
    (h : StepTo (renameFile (Storage.temporaryPath path) path) d₁ d₂) :
    Published path bytes d d₂ := by
  obtain ⟨t, q, bytes', ht, hq, hfile, hqdir, hfiles, hmishaps⟩ := renameFile_eq_true h
  cases (hw.directories.resolve hw.resolve_eq).symm.trans ht
  cases hw.holds.symm.trans hfile
  have htdir := (hw.directories.isDirectory_eq _).trans hw.isDirectory_eq
  have herased := sameDirectories_erase htdir
  have hqdir' := (herased.isDirectory_eq q).trans hqdir
  have hplace := (place_of_resolve hq).trans (hw.directories.place_eq path)
  refine ⟨?_, ?_, fun p hp hp' => ?_, ?_, hmishaps.trans hw.mishaps⟩
  · rw [← hplace]
    exact hw.directories.symm.resolve hq
  · rw [← hplace, find?_congr hfiles, find?_put_self hqdir']
  · rw [← hplace] at hp
    rw [find?_congr hfiles, find?_put_of_ne hp, find?_erase_of_ne hp', hw.frame p hp']
  · have hput := sameDirectories_put hqdir' bytes
    exact hw.directories.trans (herased.trans (hput.trans_files hfiles))

/-- **Publishing puts the artifact under its path and leaves everything else alone**, if it
succeeds. -/
theorem ends_publish_published (path : String) (bytes : Result (List UInt8)) (d : Disk) :
    Ends d (Storage.publish path bytes)
      (fun _ d' => ∃ contents, bytes = .ok contents ∧ Published path contents d d')
      fun _ _ => True := by
  refine ends_tryCatch ?_
  have hhandled : ∀ (d : Disk) (e : QuantError) (good : Unit → Disk → Prop), Ends d (do
        let _ ← liftM (FileSystem.removeFile (Storage.temporaryPath path) : StateM Disk Bool)
        throw e : ExceptT QuantError (StateM Disk) Unit) good fun _ _ => True :=
    fun d e good => ends_bind (ends_step (ends_throw trivial))
  refine ends_bind ?_
  rw [Storage.write]
  refine ends_bind (ends_require (fun d₁ h₁ => ?_) fun d₁ _ => hhandled d₁ .io _)
  refine ends_bind (ends_lift (fun contents hcontents => ?_) fun e he => hhandled d₁ e _)
  refine ends_bind (ends_require (fun d₂ h₂ => ?_) fun d₂ _ => hhandled d₂ .io _)
  refine ends_require (fun d₃ h₃ => ?_) fun d₃ _ => hhandled d₃ .io _
  refine ends_require (fun d₄ h₄ => ?_) fun d₄ _ => hhandled d₄ .io _
  have hwritten : Written (Storage.temporaryPath path) contents d d₃ :=
    written_of_steps (stepTo_of_step h₁) (stepTo_of_step h₂) (stepTo_of_step h₃)
  exact ⟨contents, hcontents, hwritten.published (stepTo_of_step h₄)⟩

end Steps

/-! ## Looking at a file -/

/-- What a path leads to. -/
def Disk.entryAt? (d : Disk) (path : String) : Option Entry := d.resolve path >>= d.find?

theorem Disk.entryAt?_eq_some {d : Disk} {path : String} {entry : Entry} :
    d.entryAt? path = some entry ↔ ∃ p, d.resolve path = some p ∧ d.find? p = some entry :=
  Option.bind_eq_some_iff

/-- Among the same directories, it only matters what is at the place of the path. -/
theorem Disk.entryAt?_congr {d d' : Disk} (hd : d.SameDirectories d') {path : String}
    (h : d'.find? (d.place path) = d.find? (d.place path)) :
    d'.entryAt? path = d.entryAt? path := by
  rw [Disk.entryAt?, Disk.entryAt?]
  cases hp : d.resolve path with
  | some p =>
    rw [hd.resolve hp]
    cases Disk.place_of_resolve hp
    exact h
  | none =>
    cases hp' : d'.resolve path with
    | none => rfl
    | some p' =>
      rw [hd.symm.resolve hp'] at hp
      cases hp

namespace Published

variable {path : String} {bytes : List UInt8} {d d' : Disk}

/-- The artifact is found under its path. -/
theorem entryAt?_self (h : Published path bytes d d') : d'.entryAt? path = some (.file bytes) :=
  Disk.entryAt?_eq_some.2 ⟨_, h.directories.resolve h.resolve_eq, h.holds⟩

/-- **What another path leads to is what it was.** -/
theorem entryAt?_of_ne (h : Published path bytes d d') {other : String}
    (hpath : d.place other ≠ d.place path)
    (htemporary : d.place other ≠ d.place (Storage.temporaryPath path)) :
    d'.entryAt? other = d.entryAt? other :=
  Disk.entryAt?_congr h.directories (h.frame _ hpath htemporary)

end Published

end ProductQuantization
