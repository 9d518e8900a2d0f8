import ProductQuantization.Proofs.Artifact.CodecFormat
import ProductQuantization.Proofs.Storage.Places
import ProductQuantization.Storage.TornWrite

/-!
# All of an artifact, or nothing

Publishing an artifact takes five steps, and there are five ways to fail: the temporary file cannot
be made, the contents cannot be worked out, they cannot be written, they cannot be made to last, and
the file cannot be given its path.  `Storage.Stopped` lists them, for any file system at all, each
with the state in which the step has left the files; `runFrom_publish_of_stopped` says that the
temporary file is then removed, and `runFrom_publish_of_done` what happens if there is no failure.

On a `FragileDisk` a write can stop half-way, with the first bytes in the temporary file already.
Still, nothing but the temporary file is touched before the artifact gets its path
(`Stopped.touchedAt`), and that is another place than the one where the artifact goes
(`place_temporaryPath_ne`).  So whoever looks at the path finds all of the new artifact or exactly
what was there before.
-/

set_option autoImplicit false

namespace ProductQuantization

/-! ## Where publishing can stop -/

namespace Storage

section Stopping

variable {σ : Type} [FileSystem (StateM σ)]

/-- Writing a file in place has gone through: each step has left the next one its state. -/
inductive WriteDone (path : String) (bytes : Result (List UInt8)) (s : σ) : List UInt8 → σ → Prop
  | mk {contents : List UInt8} {s₁ s₂ s₃ : σ}
      (create : (FileSystem.createFile path : StateM σ Bool).run s = (true, s₁))
      (bytes_eq : bytes = .ok contents)
      (fill : (FileSystem.fillFile path contents : StateM σ Bool).run s₁ = (true, s₂))
      (sync : (FileSystem.syncFile path : StateM σ Bool).run s₂ = (true, s₃)) :
      WriteDone path bytes s contents s₃

/-- Writing a file in place has stopped, with an error and the files as they are then. -/
inductive WriteStopped (path : String) (bytes : Result (List UInt8)) (s : σ) :
    QuantError → σ → Prop
  | create {s₁ : σ} (create : (FileSystem.createFile path : StateM σ Bool).run s = (false, s₁)) :
      WriteStopped path bytes s .io s₁
  | contents {e : QuantError} {s₁ : σ}
      (create : (FileSystem.createFile path : StateM σ Bool).run s = (true, s₁))
      (bytes_eq : bytes = .error e) : WriteStopped path bytes s e s₁
  | fill {contents : List UInt8} {s₁ s₂ : σ}
      (create : (FileSystem.createFile path : StateM σ Bool).run s = (true, s₁))
      (bytes_eq : bytes = .ok contents)
      (fill : (FileSystem.fillFile path contents : StateM σ Bool).run s₁ = (false, s₂)) :
      WriteStopped path bytes s .io s₂
  | sync {contents : List UInt8} {s₁ s₂ s₃ : σ}
      (create : (FileSystem.createFile path : StateM σ Bool).run s = (true, s₁))
      (bytes_eq : bytes = .ok contents)
      (fill : (FileSystem.fillFile path contents : StateM σ Bool).run s₁ = (true, s₂))
      (sync : (FileSystem.syncFile path : StateM σ Bool).run s₂ = (false, s₃)) :
      WriteStopped path bytes s .io s₃

/-- Publishing has stopped, either while the temporary file was written or at its new path. -/
inductive Stopped (path : String) (bytes : Result (List UInt8)) (s : σ) : QuantError → σ → Prop
  | write {e : QuantError} {s₁ : σ} (write : WriteStopped (temporaryPath path) bytes s e s₁) :
      Stopped path bytes s e s₁
  | rename {contents : List UInt8} {s₁ s₂ : σ}
      (write : WriteDone (temporaryPath path) bytes s contents s₁)
      (rename : (FileSystem.renameFile (temporaryPath path) path : StateM σ Bool).run s₁
        = (false, s₂)) : Stopped path bytes s .io s₂

variable {path : String} {bytes : Result (List UInt8)} {contents : List UInt8} {e : QuantError}
  {s s₁ s₂ : σ}

/-- Only the contents have errors of their own. -/
theorem Stopped.error_eq (h : Stopped path bytes s e s₁) : e = .io ∨ bytes = .error e := by
  cases h with
  | write h =>
    cases h with
    | contents _ hbytes => exact .inr hbytes
    | _ => exact .inl rfl
  | rename => exact .inl rfl

theorem WriteDone.runFrom (h : WriteDone path bytes s contents s₁) :
    runFrom s (write path bytes) = (.ok (), s₁) := by
  obtain ⟨hcreate, rfl, hfill, hsync⟩ := h
  rw [write, runFrom_bind_ok (runFrom_require_true hcreate _), runFrom_bind_ok (runFrom_lift _ _),
    runFrom_bind_ok (runFrom_require_true hfill _)]
  exact runFrom_require_true hsync _

theorem WriteStopped.runFrom (h : WriteStopped path bytes s e s₁) :
    runFrom s (write path bytes) = (.error e, s₁) := by
  rw [write]
  cases h with
  | create hcreate => exact runFrom_bind_error (runFrom_require_false hcreate _) _
  | contents hcreate hbytes =>
    rw [runFrom_bind_ok (runFrom_require_true hcreate _), hbytes]
    exact runFrom_bind_error (runFrom_lift _ _) _
  | fill hcreate hbytes hfill =>
    rw [runFrom_bind_ok (runFrom_require_true hcreate _), hbytes,
      runFrom_bind_ok (runFrom_lift _ _)]
    exact runFrom_bind_error (runFrom_require_false hfill _) _
  | sync hcreate hbytes hfill hsync =>
    rw [runFrom_bind_ok (runFrom_require_true hcreate _), hbytes,
      runFrom_bind_ok (runFrom_lift _ _), runFrom_bind_ok (runFrom_require_true hfill _)]
    exact runFrom_require_false hsync _

/-- There is no other way for writing to end. -/
theorem writeDone_or_writeStopped (path : String) (bytes : Result (List UInt8)) (s : σ) :
    (∃ contents s₁, WriteDone path bytes s contents s₁) ∨
      ∃ e s₁, WriteStopped path bytes s e s₁ := by
  rcases hcreate : (FileSystem.createFile path : StateM σ Bool).run s with ⟨_ | _, s₁⟩
  · exact .inr ⟨_, _, .create hcreate⟩
  rcases hbytes : bytes with e | contents
  · exact .inr ⟨_, _, .contents hcreate rfl⟩
  rcases hfill : (FileSystem.fillFile path contents : StateM σ Bool).run s₁ with ⟨_ | _, s₂⟩
  · exact .inr ⟨_, _, .fill hcreate rfl hfill⟩
  rcases hsync : (FileSystem.syncFile path : StateM σ Bool).run s₂ with ⟨_ | _, s₃⟩
  · exact .inr ⟨_, _, .sync hcreate rfl hfill hsync⟩
  · exact .inl ⟨_, _, .mk hcreate rfl hfill hsync⟩

theorem runFrom_publish_of_done (h : WriteDone (temporaryPath path) bytes s contents s₁)
    (hrename : (FileSystem.renameFile (temporaryPath path) path : StateM σ Bool).run s₁
      = (true, s₂)) : runFrom s (publish path bytes) = (.ok (), s₂) := by
  refine runFrom_tryCatch_ok ?_ _
  rw [runFrom_bind_ok h.runFrom]
  exact runFrom_require_true hrename _

/-- **Whatever has gone wrong, the temporary file is removed** and the error is passed on. -/
theorem runFrom_publish_of_stopped (h : Stopped path bytes s e s₁) :
    runFrom s (publish path bytes)
      = (.error e, ((FileSystem.removeFile (temporaryPath path) : StateM σ Bool).run s₁).2) := by
  have hbody : runFrom s (do
      write (temporaryPath path) bytes
      require .io (FileSystem.renameFile (temporaryPath path) path)) = (.error e, s₁) := by
    cases h with
    | write h => exact runFrom_bind_error h.runFrom _
    | rename h hrename =>
      rw [runFrom_bind_ok h.runFrom]
      exact runFrom_require_false hrename _
  exact (runFrom_tryCatch_error hbody _).trans rfl

end Stopping

end Storage

/-! ## The temporary file is somewhere else -/

namespace Path

theorem exists_pieces_temporaryPath (path : String) :
    ∃ front last, pieces path = front ++ [last] ∧
      pieces (Storage.temporaryPath path) = front ++ [Storage.temporaryPath last] := by
  have hslash : '/' ∉ ".tmp".toList := by decide
  obtain ⟨front, last, hpath, htemporary⟩ := Text.exists_splitAt_append hslash path.toList
  refine ⟨front.map String.ofList, String.ofList last, ?_, ?_⟩
  · rw [pieces, hpath, List.map_append]
    rfl
  · rw [pieces, Storage.temporaryPath, String.toList_append, htemporary, List.map_append]
    simp [Storage.temporaryPath]

theorem length_temporaryPath (name : String) :
    (Storage.temporaryPath name).length = name.length + 4 := by
  rw [Storage.temporaryPath, String.length_append]
  rfl

theorem temporaryPath_ne (name : String) : Storage.temporaryPath name ≠ name := fun h => by
  have hlen := congrArg String.length h
  rw [length_temporaryPath] at hlen
  omega

/-- A name with `.tmp` at the end is neither empty nor dots. -/
theorem walk_temporaryPath (here : Place) (name : String) :
    walk here [Storage.temporaryPath name] = here ++ [Storage.temporaryPath name] := by
  have hne : ∀ short : String, short.length < 4 → Storage.temporaryPath name ≠ short := by
    rintro short hshort rfl
    rw [length_temporaryPath] at hshort
    omega
  simp [walk, hne "" (by decide), hne "." (by decide), hne ".." (by decide)]

/-- One step more, and not a step that is the last of the path, leads somewhere else. -/
theorem walk_temporaryPath_ne (here : Place) (last : String) :
    walk here [Storage.temporaryPath last] ≠ walk here [last] := by
  rw [walk_temporaryPath, walk]
  split
  · intro h
    simpa [walk] using congrArg List.length h
  split
  · intro h
    have hlen := congrArg List.length h
    rw [walk, Place.up, List.length_append, List.length_dropLast, List.length_singleton] at hlen
    omega
  · simpa [walk] using temporaryPath_ne last

theorem isAbsolute_temporaryPath {path : String} (h : path ≠ "") :
    isAbsolute (Storage.temporaryPath path) = isAbsolute path :=
  isAbsolute_append (fun hnil => h (String.toList_eq_nil_iff.1 hnil)) _

end Path

/-- **The temporary file does not go where the artifact goes.** -/
theorem Disk.place_temporaryPath_ne (d : Disk) (path : String) :
    d.place (Storage.temporaryPath path) ≠ d.place path := by
  have hstart : d.start (Storage.temporaryPath path) = d.start path := by
    by_cases h : path = ""
    · subst h
      rfl
    · rw [start, start, Path.isAbsolute_temporaryPath h]
  obtain ⟨front, last, hpath, htemporary⟩ := Path.exists_pieces_temporaryPath path
  rw [place, place, hstart, hpath, htemporary, Path.walk_append, Path.walk_append]
  exact Path.walk_temporaryPath_ne _ last

/-! ## What a step touches -/

namespace Disk

variable {d d' d'' : Disk} {path : String} {p : Place}

/-- Two disks are the same but for what is at the place of one path, where no directory has come or
gone. -/
structure TouchedAt (path : String) (d d' : Disk) : Prop where
  frame : ∀ q, q ≠ d.place path → d'.find? q = d.find? q
  directories : d.SameDirectories d'

namespace TouchedAt

theorem of_files (path : String) (h : d'.toFiles = d.toFiles) : TouchedAt path d d' :=
  ⟨fun q _ => find?_congr h q, .of_files h⟩

theorem refl (path : String) (d : Disk) : TouchedAt path d d := of_files path rfl

/-- Which steps fail by mishap is nothing that can be found at a place. -/
theorem withMishaps (path : String) (d : Disk) (mishaps : List Bool) :
    TouchedAt path d { d with mishaps } := of_files path rfl

theorem trans (h : TouchedAt path d d') (h' : TouchedAt path d' d'') : TouchedAt path d d'' := by
  refine ⟨fun q hq => ?_, h.directories.trans h'.directories⟩
  rw [h'.frame q (h.directories.place_eq path ▸ hq), h.frame q hq]

theorem put (hp : d.resolve path = some p) (h : d.isDirectory p = false) (bytes : List UInt8) :
    TouchedAt path d (d.put p (.file bytes)) := by
  cases place_of_resolve hp
  exact ⟨fun _ hq => find?_put_of_ne hq _ d, sameDirectories_put h bytes⟩

theorem erase (hp : d.resolve path = some p) (h : d.isDirectory p = false) :
    TouchedAt path d (d.erase p) := by
  cases place_of_resolve hp
  exact ⟨fun _ hq => find?_erase_of_ne hq d, sameDirectories_erase h⟩

/-- A mishap only uses itself up. -/
theorem step {f : Disk → Bool × Disk} (h : ∀ d, TouchedAt path d (f d).2) (d : Disk) :
    TouchedAt path d (Disk.step false f d).2 := by
  rw [Disk.step]
  split
  · exact h d
  · exact withMishaps path d _
  · exact (withMishaps path d _).trans (h _)

end TouchedAt

theorem isDirectory_eq_false_of_file {bytes : List UInt8} (h : d.find? p = some (.file bytes)) :
    d.isDirectory p = false := by
  rw [isDirectory, h]
  rfl

theorem touchedAt_createFile (path : String) (d : Disk) :
    TouchedAt path d (createFile path d).2 := by
  rw [createFile]
  split
  · exact .refl _ d
  · rename_i p hp
    split
    · exact .refl _ d
    · rename_i hdir
      exact .put hp (by simpa using hdir) []

theorem touchedAt_fillFile (path : String) (bytes : List UInt8) (d : Disk) :
    TouchedAt path d (fillFile path bytes d).2 := by
  rw [fillFile]
  split
  · exact .refl _ d
  · rename_i p hp
    split
    · rename_i hfile
      exact .put hp (isDirectory_eq_false_of_file hfile) bytes
    · exact .refl _ d

theorem touchedAt_removeFile (path : String) (d : Disk) :
    TouchedAt path d (removeFile path d).2 := by
  rw [removeFile]
  split
  · exact .refl _ d
  · rename_i p hp
    split
    · rename_i hfile
      exact .erase hp (isDirectory_eq_false_of_file hfile)
    · exact .refl _ d

/-- What is removed is no longer there. -/
theorem entryAt?_removeFile (path : String) (d : Disk) (bytes : List UInt8) :
    (removeFile path d).2.entryAt? path ≠ some (.file bytes) := by
  rw [removeFile]
  split
  · rename_i hp
    simp [entryAt?, hp]
  · rename_i p hp
    split
    · rename_i hfile
      have hdir := isDirectory_eq_false_of_file hfile
      rw [entryAt?, (sameDirectories_erase hdir).resolve hp]
      simp [find?_erase_self hdir]
    · rename_i hfile
      rw [entryAt?, hp]
      exact fun h => hfile bytes h

theorem files_renameFile_of_false {source target : String}
    (h : step false (renameFile source target) d = (false, d')) : d'.toFiles = d.toFiles := by
  have hrename : ∀ d d', renameFile source target d = (false, d') → d' = d := by
    intro d d' h
    rw [renameFile] at h
    split at h
    · split at h
      · split at h
        · exact (Prod.mk.inj h).2.symm
        · cases h
      · exact (Prod.mk.inj h).2.symm
    · exact (Prod.mk.inj h).2.symm
  rw [step] at h
  split at h
  · rw [hrename _ _ h]
  · cases h
    rfl
  · rw [hrename _ _ h]

end Disk

/-! ## Steps on a fragile disk -/

namespace FragileDisk

variable {path : String} {bytes : List UInt8} {s s' : FragileDisk} {b : Bool}

theorem onDisk_eq {f : Disk → Bool × Disk} (h : onDisk f s = (b, s')) :
    f s.disk = (b, s'.disk) := by
  cases h
  rfl

theorem fillFile_eq_true (h : fillFile path bytes s = (true, s')) :
    Disk.step false (Disk.fillFile path bytes) s.disk = (true, s'.disk) := by
  rw [fillFile] at h
  split at h
  · cases h
  · exact onDisk_eq h

theorem touchedAt_step {f : Disk → Bool × Disk} (hf : ∀ d, Disk.TouchedAt path d (f d).2)
    (h : onDisk (Disk.step false f) s = (b, s')) : Disk.TouchedAt path s.disk s'.disk := by
  have htouched := Disk.TouchedAt.step hf s.disk
  rwa [onDisk_eq h] at htouched

/-- Whether or not it gets to the end, a write touches only its own file. -/
theorem touchedAt_fillFile (h : fillFile path bytes s = (b, s')) :
    Disk.TouchedAt path s.disk s'.disk := by
  rw [fillFile] at h
  split at h
  · cases h
    exact (Disk.TouchedAt.withMishaps _ s.disk _).trans (Disk.touchedAt_fillFile path _ _)
  · exact touchedAt_step (Disk.touchedAt_fillFile path bytes) h

end FragileDisk

namespace Storage

section Touching

variable {path : String} {bytes : Result (List UInt8)} {contents : List UInt8} {e : QuantError}
  {s s' s₁ s₂ : FragileDisk} {b : Bool}

theorem touchedAt_create
    (h : (FileSystem.createFile path : StateM FragileDisk Bool).run s = (b, s')) :
    Disk.TouchedAt path s.disk s'.disk :=
  FragileDisk.touchedAt_step (Disk.touchedAt_createFile path) h

theorem touchedAt_fill
    (h : (FileSystem.fillFile path contents : StateM FragileDisk Bool).run s = (b, s')) :
    Disk.TouchedAt path s.disk s'.disk :=
  FragileDisk.touchedAt_fillFile h

theorem touchedAt_sync
    (h : (FileSystem.syncFile path : StateM FragileDisk Bool).run s = (b, s')) :
    Disk.TouchedAt path s.disk s'.disk :=
  FragileDisk.touchedAt_step (fun d => .refl _ d) h

/-- Wherever writing stops, only the file that is written has been touched. -/
theorem WriteStopped.touchedAt (h : WriteStopped path bytes s e s₁) :
    Disk.TouchedAt path s.disk s₁.disk := by
  cases h with
  | create hcreate => exact touchedAt_create hcreate
  | contents hcreate => exact touchedAt_create hcreate
  | fill hcreate _ hfill => exact (touchedAt_create hcreate).trans (touchedAt_fill hfill)
  | sync hcreate _ hfill hsync =>
    exact ((touchedAt_create hcreate).trans (touchedAt_fill hfill)).trans (touchedAt_sync hsync)

theorem WriteDone.touchedAt (h : WriteDone path bytes s contents s₁) :
    Disk.TouchedAt path s.disk s₁.disk := by
  obtain ⟨hcreate, -, hfill, hsync⟩ := h
  exact ((touchedAt_create hcreate).trans (touchedAt_fill hfill)).trans (touchedAt_sync hsync)

/-- **Before the artifact gets its path, only the temporary file has been touched.** -/
theorem Stopped.touchedAt (h : Stopped path bytes s e s₁) :
    Disk.TouchedAt (temporaryPath path) s.disk s₁.disk := by
  cases h with
  | write h => exact h.touchedAt
  | rename h hrename =>
    exact h.touchedAt.trans
      (.of_files _ (Disk.files_renameFile_of_false (FragileDisk.onDisk_eq hrename)))

theorem WriteDone.written (h : WriteDone path bytes s contents s₁) :
    bytes = .ok contents ∧ Written path contents s.disk s₁.disk := by
  obtain ⟨hcreate, hbytes, hfill, hsync⟩ := h
  exact ⟨hbytes, written_of_steps (Disk.stepTo_of_step (FragileDisk.onDisk_eq hcreate))
    (Disk.stepTo_of_step (FragileDisk.fillFile_eq_true hfill))
    (Disk.stepTo_of_step (FragileDisk.onDisk_eq hsync))⟩

end Touching

end Storage

/-- The temporary file becomes the artifact. -/
theorem Disk.find?_renameFile_temporary {path : String} {d d' : Disk}
    (h : StepTo (renameFile (Storage.temporaryPath path) path) d d') :
    d'.find? (d.place (Storage.temporaryPath path)) = none := by
  obtain ⟨t, q, bytes, ht, hq, hfile, -, hfiles, -⟩ := renameFile_eq_true h
  cases place_of_resolve ht
  cases place_of_resolve hq
  rw [find?_congr hfiles, find?_put_of_ne (d.place_temporaryPath_ne path),
    find?_erase_self (isDirectory_eq_false_of_file hfile)]

/-! ## Where nothing is in the way -/

namespace Disk

/-- A file can be put where a path leads. -/
def HasRoom (d : Disk) (path : String) : Prop :=
  ∃ p, d.resolve path = some p ∧ d.isDirectory p = false

section Succeeding

variable {d d' : Disk} {path : String} {old : List UInt8}

theorem HasRoom.of_sameDirectories (h : d.HasRoom path) (hd : d.SameDirectories d') :
    d'.HasRoom path := by
  obtain ⟨p, hp, hdir⟩ := h
  exact ⟨p, hd.resolve hp, (hd.isDirectory_eq p).trans hdir⟩

theorem createFile_of_hasRoom (h : d.HasRoom path) :
    ∃ d', createFile path d = (true, d') ∧ d'.entryAt? path = some (.file []) ∧
      d'.mishaps = d.mishaps := by
  obtain ⟨p, hp, hdir⟩ := h
  exact ⟨d.put p (.file []), by simp [createFile, hp, hdir],
    entryAt?_eq_some.2 ⟨p, (sameDirectories_put hdir []).resolve hp, find?_put_self hdir _⟩, rfl⟩

theorem fillFile_of_file (h : d.entryAt? path = some (.file old)) (bytes : List UInt8) :
    ∃ d', fillFile path bytes d = (true, d') ∧ d'.entryAt? path = some (.file bytes) ∧
      d'.mishaps = d.mishaps := by
  obtain ⟨p, hp, hfile⟩ := entryAt?_eq_some.1 h
  have hdir := isDirectory_eq_false_of_file hfile
  exact ⟨d.put p (.file bytes), by simp [fillFile, hp, hfile], entryAt?_eq_some.2
    ⟨p, (sameDirectories_put hdir bytes).resolve hp, find?_put_self hdir _⟩, rfl⟩

theorem renameFile_of_file {target : String} (h : d.entryAt? path = some (.file old))
    (htarget : d.HasRoom target) : ∃ d', renameFile path target d = (true, d') := by
  obtain ⟨p, hp, hfile⟩ := entryAt?_eq_some.1 h
  obtain ⟨q, hq, hdir⟩ := htarget
  exact ⟨(d.erase p).put q (.file old), by simp [renameFile, hp, hq, hfile, hdir]⟩

end Succeeding
end Disk

/-- A step of a disk without mishaps. -/
theorem FragileDisk.onDisk_step_of_nil {s : FragileDisk} {f : Disk → Bool × Disk} {d' : Disk}
    (hm : s.disk.mishaps = []) (h : f s.disk = (true, d')) :
    onDisk (Disk.step false f) s = (true, ⟨d', s.torn⟩) := by
  rw [onDisk, Disk.step, hm, h]

/-- Nothing is in the way of an artifact. -/
structure FragileDisk.Ready (s : FragileDisk) (path : String) : Prop where
  mishaps_eq : s.disk.mishaps = []
  temporary : s.disk.HasRoom (Storage.temporaryPath path)
  target : s.disk.HasRoom path

namespace Storage

/-- **Where nothing is in the way, publishing succeeds.** -/
theorem runFrom_publish_of_ready {path : String} {s : FragileDisk} (h : s.Ready path)
    (contents : List UInt8) : ∃ s', runFrom s (publish path (.ok contents)) = (.ok (), s') := by
  obtain ⟨hm, htemporary, hpath⟩ := h
  obtain ⟨d₁, hcreate, hentry₁, hm₁⟩ := Disk.createFile_of_hasRoom htemporary
  obtain ⟨d₂, hfill, hentry₂, hm₂⟩ := Disk.fillFile_of_file hentry₁ contents
  have hm₁' := hm₁.trans hm
  have hm₂' := hm₂.trans hm₁'
  have hsync : Disk.syncFile (temporaryPath path) d₂ = (true, d₂) := by
    have hthere : (d₂.resolve (temporaryPath path) >>= d₂.find?).isSome = true :=
      Option.isSome_of_eq_some hentry₂
    rw [Disk.syncFile, Disk.isThere, hthere]
  have hfill' : FragileDisk.fillFile (temporaryPath path) contents ⟨d₁, s.torn⟩
      = (true, ⟨d₂, s.torn⟩) := by
    rw [FragileDisk.fillFile, hm₁']
    exact FragileDisk.onDisk_step_of_nil hm₁' hfill
  have hdone : WriteDone (temporaryPath path) (.ok contents) s contents ⟨d₂, s.torn⟩ :=
    .mk (FragileDisk.onDisk_step_of_nil hm hcreate) rfl hfill'
      (FragileDisk.onDisk_step_of_nil hm₂' hsync)
  obtain ⟨d₃, hrename⟩ := Disk.renameFile_of_file hentry₂
    (hpath.of_sameDirectories hdone.touchedAt.directories)
  exact ⟨_, runFrom_publish_of_done hdone (FragileDisk.onDisk_step_of_nil hm₂' hrename)⟩

end Storage

/-! ## What publishing leaves behind -/

/-- What an attempt to publish an artifact has made of a disk: everything or nothing. -/
structure AllOrNothing (path : String) (bytes : Result (List UInt8)) (d : Disk)
    (outcome : Result Unit) (d' : Disk) : Prop where
  /-- If there is no error, the artifact is under its path. -/
  published : outcome = .ok () →
    ∃ contents, bytes = .ok contents ∧ d'.entryAt? path = some (.file contents)
  /-- If there is one, what was under the path is still there. -/
  kept : ∀ e, outcome = .error e → (e = .io ∨ bytes = .error e) ∧ d'.entryAt? path = d.entryAt? path
  /-- There is no temporary file. -/
  temporary : ∀ contents, d'.entryAt? (Storage.temporaryPath path) ≠ some (.file contents)
  /-- What any other path leads to is what it was. -/
  others : ∀ other, d.place other ≠ d.place path →
    d.place other ≠ d.place (Storage.temporaryPath path) →
    d'.entryAt? other = d.entryAt? other
  /-- So is everything else that is on the disk. -/
  frame : ∀ p, p ≠ d.place path → p ≠ d.place (Storage.temporaryPath path) →
    d'.find? p = d.find? p

namespace AllOrNothing

variable {path : String} {bytes : Result (List UInt8)} {contents : List UInt8} {e : QuantError}
  {d d' : Disk} {outcome : Result Unit}

theorem of_published (hbytes : bytes = .ok contents) (h : Published path contents d d')
    (htemporary : d'.find? (d.place (Storage.temporaryPath path)) = none) :
    AllOrNothing path bytes d (.ok ()) d' where
  published _ := ⟨contents, hbytes, h.entryAt?_self⟩
  kept _ he := by cases he
  temporary bytes' hentry := by
    obtain ⟨p, hp, hfile⟩ := Disk.entryAt?_eq_some.1 hentry
    rw [Disk.place_of_resolve hp, h.directories.place_eq, htemporary] at hfile
    cases hfile
  others _ := h.entryAt?_of_ne
  frame := h.frame

theorem of_touchedAt (he : e = .io ∨ bytes = .error e)
    (h : Disk.TouchedAt (Storage.temporaryPath path) d d') :
    AllOrNothing path bytes d (.error e)
      (Disk.removeFile (Storage.temporaryPath path) d').2 := by
  have hremoved := h.trans (Disk.touchedAt_removeFile _ d')
  refine ⟨fun hok => (by cases hok), ?_, Disk.entryAt?_removeFile _ d', fun other _ hother => ?_,
    fun p _ hp => hremoved.frame p hp⟩
  · rintro e' he'
    cases he'
    exact ⟨he, Disk.entryAt?_congr hremoved.directories
      (hremoved.frame _ (d.place_temporaryPath_ne path).symm)⟩
  · exact Disk.entryAt?_congr hremoved.directories (hremoved.frame _ hother)

/-- What cannot be written at all is not written. -/
theorem of_invalid (h : AllOrNothing path bytes d outcome d')
    (hbad : ∀ contents, bytes ≠ .ok contents) :
    outcome ≠ .ok () ∧ d'.entryAt? path = d.entryAt? path := by
  cases outcome with
  | ok u =>
    obtain ⟨contents, hok, -⟩ := h.published rfl
    exact absurd hok (hbad contents)
  | error e => exact ⟨by simp, (h.kept e rfl).2⟩

end AllOrNothing

/-- Publishing is all or nothing, wherever it stops, and all if nothing is in the way. -/
theorem Storage.publish_allOrNothing (path : String) (bytes : Result (List UInt8))
    (s : FragileDisk) : ∃ outcome s', runFrom s (publish path bytes) = (outcome, s') ∧
      AllOrNothing path bytes s.disk outcome s'.disk ∧
      ∀ contents, bytes = .ok contents → s.Ready path → outcome = .ok () := by
  have hstopped : ∀ e s₁, Stopped path bytes s e s₁ → ∃ outcome s',
      runFrom s (publish path bytes) = (outcome, s') ∧
        AllOrNothing path bytes s.disk outcome s'.disk ∧
        ∀ contents, bytes = .ok contents → s.Ready path → outcome = .ok () := by
    intro e s₁ h
    have hrun := runFrom_publish_of_stopped h
    refine ⟨_, _, hrun, .of_touchedAt h.error_eq h.touchedAt, ?_⟩
    rintro contents rfl hready
    obtain ⟨s', hok⟩ := runFrom_publish_of_ready hready contents
    cases hrun.symm.trans hok
  rcases writeDone_or_writeStopped (temporaryPath path) bytes s with
    ⟨contents, s₁, hdone⟩ | ⟨e, s₁, h⟩
  · rcases hrename : (FileSystem.renameFile (temporaryPath path) path
      : StateM FragileDisk Bool).run s₁ with ⟨_ | _, s₂⟩
    · exact hstopped _ _ (.rename hdone hrename)
    · obtain ⟨hbytes, hwritten⟩ := hdone.written
      have hstep := Disk.stepTo_of_step (FragileDisk.onDisk_eq hrename)
      have htemporary := Disk.find?_renameFile_temporary hstep
      rw [hdone.touchedAt.directories.place_eq] at htemporary
      exact ⟨_, _, runFrom_publish_of_done hdone hrename,
        .of_published hbytes (hwritten.published hstep) htemporary, fun _ _ _ => rfl⟩
  · exact hstopped e s₁ (.write h)

/-! ## Artifacts -/

theorem RotationFile.toBytes_eq_ok {m : Matrix} {bytes : List UInt8} :
    toBytes m = .ok bytes ↔
      m.rows = m.cols ∧ bytes = (List.ofFn m.rowAt).flatMap Word.bytesOfSingles := by
  have hrows : (List.ofFn m.rowAt).flatMap Word.bytesOfSingles
      = Word.bytesOfSingles m.data.toList := by
    rw [← m.flatten_rowAt, Word.bytesOfSingles, List.flatten_eq_flatMap, List.flatMap_assoc]
    rfl
  rw [hrows, toBytes, checkSquare, bind_eq_ok]
  constructor
  · rintro ⟨u, hu, h⟩
    cases h
    exact ⟨by simpa using hu, rfl⟩
  · rintro ⟨hsquare, rfl⟩
    exact ⟨(), by simpa using hsquare, rfl⟩

/-- **Artifacts are written all or nothing.**  Whatever is on the disk, whatever the path, whichever
steps fail by mishap and however much of the file has been written by then: writing a codec or a
rotation puts exactly its bytes under the path, or it ends in an error and what was under the path
is still there.  Either way there is no temporary file, and everything else is what it was.  A
header that does not describe the codebook, and a rotation that is not square, are never written;
anything else is, where there is room and no mishap. -/
theorem artifacts_all_or_nothing (s : FragileDisk) (path : String) :
    (∀ (h : CodecHeader) (c : Codebook), ∃ outcome s',
      Storage.runFrom s (Codec.write path h c) = (outcome, s') ∧
      AllOrNothing path (Codec.toBytes h c) s.disk outcome s'.disk ∧
      (h.checkDescribes c ≠ .ok () →
        outcome ≠ .ok () ∧ s'.disk.entryAt? path = s.disk.entryAt? path) ∧
      (h.checkDescribes c = .ok () → s.Ready path → outcome = .ok ())) ∧
    ∀ rotation : Matrix, ∃ outcome s',
      Storage.runFrom s (RotationFile.write path rotation) = (outcome, s') ∧
      AllOrNothing path (RotationFile.toBytes rotation) s.disk outcome s'.disk ∧
      (outcome = .ok () → s'.disk.entryAt? path
        = some (.file ((List.ofFn rotation.rowAt).flatMap Word.bytesOfSingles))) ∧
      (rotation.rows ≠ rotation.cols →
        outcome ≠ .ok () ∧ s'.disk.entryAt? path = s.disk.entryAt? path) ∧
      (rotation.rows = rotation.cols → s.Ready path → outcome = .ok ()) := by
  refine ⟨fun h c => ?_, fun rotation => ?_⟩
  · obtain ⟨outcome, s', hrun, hall, hready⟩ :=
      Storage.publish_allOrNothing path (Codec.toBytes h c) s
    exact ⟨outcome, s', hrun, hall, fun hforeign => hall.of_invalid fun contents hcontents =>
      hforeign (Codec.toBytes_eq_ok.1 hcontents).1,
      fun hc => hready _ (Codec.toBytes_eq_ok.2 ⟨hc, rfl⟩)⟩
  · obtain ⟨outcome, s', hrun, hall, hready⟩ :=
      Storage.publish_allOrNothing path (RotationFile.toBytes rotation) s
    refine ⟨outcome, s', hrun, hall, fun hok => ?_, fun hsquare => hall.of_invalid
      fun contents hcontents => hsquare (RotationFile.toBytes_eq_ok.1 hcontents).1,
      fun hsquare => hready _ (RotationFile.toBytes_eq_ok.2 ⟨hsquare, rfl⟩)⟩
    obtain ⟨contents, hcontents, hentry⟩ := hall.published hok
    rw [hentry, (RotationFile.toBytes_eq_ok.1 hcontents).2]

/-- A disk with an old file of a single byte in the working directory. -/
def oldFile (mishaps : List Bool) (torn : List Nat) : FragileDisk :=
  ⟨⟨⟨[(["data", "r"], .file [7])], ["data"]⟩, mishaps⟩, torn⟩

/-- A write stops after three of the four bytes of a rotation, and the old file is still there; if
there is no mishap, the rotation replaces it.  The path is absolute in the one case and relative in
the other. -/
theorem artifacts_all_or_nothing_torn :
    (∃ s', Storage.runFrom (oldFile [false, true] [3]) (RotationFile.write "/data/r" (.identity 1))
        = (.error .io, s') ∧ s'.disk.entryAt? "/data/r" = some (.file [7])) ∧
    ∃ s', Storage.runFrom (oldFile [] []) (RotationFile.write "r" (.identity 1))
        = (.ok (), s') ∧ s'.disk.entryAt? "r" = some (.file [0, 0, 128, 63]) := by
  constructor
  · obtain ⟨outcome, s', hrun, hall, -⟩ :=
      (artifacts_all_or_nothing (oldFile [false, true] [3]) "/data/r").2 (.identity 1)
    have houtcome : outcome = .error .io :=
      (congrArg Prod.fst hrun).symm.trans (by decide +kernel)
    subst houtcome
    refine ⟨s', hrun, (hall.kept .io rfl).2.trans ?_⟩
    decide +kernel
  · obtain ⟨outcome, s', hrun, -, hpublished, -, hready⟩ :=
      (artifacts_all_or_nothing (oldFile [] []) "r").2 (.identity 1)
    have houtcome := hready rfl ⟨rfl, ⟨["data", "r.tmp"], by decide +kernel, by decide +kernel⟩,
      ⟨["data", "r"], by decide +kernel, by decide +kernel⟩⟩
    subst houtcome
    refine ⟨s', hrun, (hpublished rfl).trans ?_⟩
    decide +kernel

end ProductQuantization
