import ProductQuantization.Dataset.Read
import ProductQuantization.Proofs.Storage.Places

/-!
# Computations that only read

A computation that reads what is under one path, and does nothing else to the files, gives the same
answer on every disk with the same thing under that path (`Reads`), as long as nothing fails by
mishap.  That is kept by all ways of putting computations together, so it holds of reading a dataset.
-/

set_option autoImplicit false

namespace ProductQuantization

/-- No step to come fails by mishap. -/
def Disk.Calm (d : Disk) : Prop := d.mishaps = []

/-- The computation depends on what is under the path and on nothing else, and it changes nothing, as
long as there are no mishaps. -/
def Reads {ε α : Type} (path : String) (x : ExceptT ε (StateM Disk) α) : Prop :=
  ∀ d d' : Disk, d.Calm → d'.Calm → d'.entryAt? path = d.entryAt? path →
    ∃ r, d.run x = (r, d) ∧ d'.run x = (r, d')

section Rules

variable {ε ε' α β : Type} {path : String}

theorem reads_pure (a : α) : Reads path (pure a : ExceptT ε (StateM Disk) α) :=
  fun _ _ _ _ _ => ⟨.ok a, rfl, rfl⟩

theorem reads_throw (e : ε) : Reads path (throw e : ExceptT ε (StateM Disk) α) :=
  fun _ _ _ _ _ => ⟨.error e, rfl, rfl⟩

theorem reads_lift (r : Except ε α) : Reads path (liftM r : ExceptT ε (StateM Disk) α) :=
  fun _ _ _ _ _ => ⟨r, by cases r <;> rfl, by cases r <;> rfl⟩

theorem reads_bind {x : ExceptT ε (StateM Disk) β} {f : β → ExceptT ε (StateM Disk) α}
    (hx : Reads path x) (hf : ∀ b, Reads path (f b)) : Reads path (x >>= f) := by
  intro d d' hd hd' hentry
  obtain ⟨r, hrun, hrun'⟩ := hx d d' hd hd' hentry
  rw [run_bind, run_bind, hrun, hrun']
  cases r with
  | ok b => exact hf b d d' hd hd' hentry
  | error e => exact ⟨.error e, rfl, rfl⟩

theorem reads_adapt {x : ExceptT ε' (StateM Disk) α} (f : ε' → ε) (hx : Reads path x) :
    Reads path (x.adapt f) := by
  intro d d' hd hd' hentry
  obtain ⟨r, hrun, hrun'⟩ := hx d d' hd hd' hentry
  have hadapt : ∀ d : Disk, d.run (x.adapt f) = ((d.run x).1.mapError f, (d.run x).2) :=
    fun _ => rfl
  rw [hadapt, hadapt, hrun, hrun']
  exact ⟨_, rfl, rfl⟩

/-- A step that looks at what is under the path. -/
theorem reads_step {x : StateM Disk α} {g : Option Entry → α}
    (h : ∀ d : Disk, d.Calm → x.run d = (g (d.entryAt? path), d)) :
    Reads path (liftM x : ExceptT ε (StateM Disk) α) := by
  intro d d' hd hd' hentry
  have hlift : ∀ d : Disk, d.run (liftM x : ExceptT ε (StateM Disk) α)
      = (.ok (x.run d).1, (x.run d).2) := fun _ => rfl
  rw [hlift, hlift, h d hd, h d' hd', hentry]
  exact ⟨_, rfl, rfl⟩

/-- Without a mishap, a step is what it does. -/
theorem Disk.Calm.step_eq {d : Disk} (hd : d.Calm) (failed : α) (f : Disk → α × Disk) :
    Disk.step failed f d = f d := by
  rw [Disk.step, hd]

/-- Whether there is anything under the path. -/
theorem reads_require_isThere (e : ε) :
    Reads path (Storage.require e (FileSystem.isThere path : StateM Disk Bool)) := by
  refine reads_bind (reads_step (g := Option.isSome) fun d hd => ?_) fun found => ?_
  · exact hd.step_eq false (Disk.isThere path)
  · cases found with
    | true => exact reads_pure ()
    | false => exact reads_throw e

/-- The bytes of a file, if it is one. -/
def Entry.bytes? : Option Entry → Option (List UInt8)
  | some (.file bytes) => some bytes
  | _ => none

theorem readFile_eq (path : String) (d : Disk) :
    Disk.readFile path d = (Entry.bytes? (d.entryAt? path), d) := by
  rw [Disk.readFile, Disk.entryAt?]
  rcases d.resolve path >>= d.find? with _ | _ | _ <;> rfl

theorem run_readFile {d : Disk} (hd : d.Calm) :
    (FileSystem.readFile path : StateM Disk (Option (List UInt8))).run d
      = (Entry.bytes? (d.entryAt? path), d) :=
  (hd.step_eq none (Disk.readFile path)).trans (readFile_eq path d)

/-- The contents of the file under the path. -/
theorem reads_contents (e : ε) :
    Reads path (Storage.contents e path : ExceptT ε (StateM Disk) (List UInt8)) := by
  refine reads_bind (reads_step fun d hd => run_readFile hd) fun found => ?_
  cases found with
  | some bytes => exact reads_pure bytes
  | none => exact reads_throw e

/-- The contents of a file that is there. -/
theorem run_contents {d : Disk} (hd : d.Calm) {bytes : List UInt8}
    (h : d.entryAt? path = some (.file bytes)) (e : ε) :
    d.run (Storage.contents e path) = (.ok bytes, d) := by
  have hlift : d.run (liftM (FileSystem.readFile path : StateM Disk (Option (List UInt8))) :
      ExceptT ε (StateM Disk) _) = (.ok (some bytes), d) := by
    have hread : (FileSystem.readFile path : StateM Disk (Option (List UInt8))).run d
        = (Entry.bytes? (d.entryAt? path), d) := run_readFile hd
    rw [h] at hread
    exact congrArg (fun p : Option (List UInt8) × Disk => (Except.ok p.1, p.2)) hread
  rw [Storage.contents, run_bind, hlift]
  rfl

end Rules

/-! ## Datasets -/

/-- **Reading a dataset depends on its file alone.** -/
theorem reads_dataset (path : String) (cap : Option Nat) :
    Reads path (Dataset.read path cap : ExceptT DatasetError (StateM Disk) Matrix) := by
  have hrest : ∀ data : Matrix, Reads path (if data.rows = 0 then throw (.emptyDataset path)
      else pure data : ExceptT DatasetError (StateM Disk) Matrix) := by
    intro data
    split
    · exact reads_throw _
    · exact reads_pure _
  refine reads_bind (reads_lift _) fun format => ?_
  cases format with
  | tsv =>
    refine reads_bind ?_ hrest
    rw [Dataset.readText]
    split
    · exact reads_bind (reads_require_isThere _) fun _ => reads_pure _
    · exact reads_bind (reads_contents _) fun bytes => reads_lift _
  | fvecs => exact reads_bind (reads_bind (reads_contents _) fun bytes => reads_lift _) hrest

end ProductQuantization
