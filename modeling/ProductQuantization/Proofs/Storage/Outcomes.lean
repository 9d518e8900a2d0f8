import Mathlib.Data.List.Forall2
import ProductQuantization.Artifact.Publish
import ProductQuantization.Storage.Disk

/-!
# What a computation on files ends in

A computation on files is run on a `Disk` and ends in an answer or an error, on a disk that it may
have changed.  `Ends` says what holds in either case, and there is one rule for each way in which
the library puts computations together, so that a claim about a job is proved along its text.

The steps that only look leave the files of a disk alone, whether they fail by mishap or not.
Publishing an artifact fails over the files or because the artifact has no bytes (`ends_publish`).
-/

set_option autoImplicit false

namespace ProductQuantization

/-! ## Running -/

namespace Storage

/-- Run a computation from a state. -/
def runFrom {σ ε α : Type} (s : σ) (x : ExceptT ε (StateM σ) α) : Except ε α × σ :=
  (ExceptT.run x).run s

section Rules

variable {σ ε α β : Type} {s s' : σ} {x : ExceptT ε (StateM σ) α}

theorem runFrom_bind_ok {x : ExceptT ε (StateM σ) β} {b : β} (h : runFrom s x = (.ok b, s'))
    (f : β → ExceptT ε (StateM σ) α) : runFrom s (x >>= f) = runFrom s' (f b) := by
  have hbind : runFrom s (x >>= f) = (ExceptT.bindCont f (runFrom s x).1).run (runFrom s x).2 := rfl
  rw [hbind, h]
  rfl

theorem runFrom_bind_error {x : ExceptT ε (StateM σ) β} {e : ε} (h : runFrom s x = (.error e, s'))
    (f : β → ExceptT ε (StateM σ) α) : runFrom s (x >>= f) = (.error e, s') := by
  have hbind : runFrom s (x >>= f) = (ExceptT.bindCont f (runFrom s x).1).run (runFrom s x).2 := rfl
  rw [hbind, h]
  rfl

theorem runFrom_tryCatch (f : ε → ExceptT ε (StateM σ) α) :
    runFrom s (tryCatch x f) = (ExceptT.run (match (runFrom s x).1 with
      | .ok a => (pure a : ExceptT ε (StateM σ) α)
      | .error e => f e)).run (runFrom s x).2 := rfl

theorem runFrom_tryCatch_ok {a : α} (h : runFrom s x = (.ok a, s'))
    (f : ε → ExceptT ε (StateM σ) α) : runFrom s (tryCatch x f) = (.ok a, s') := by
  rw [runFrom_tryCatch, h]
  rfl

/-- What fails is handled in the state that it leaves behind. -/
theorem runFrom_tryCatch_error {e : ε} (h : runFrom s x = (.error e, s'))
    (f : ε → ExceptT ε (StateM σ) α) : runFrom s (tryCatch x f) = runFrom s' (f e) := by
  rw [runFrom_tryCatch, h]
  rfl

theorem runFrom_lift (s : σ) (r : Except ε α) :
    runFrom s (liftM r : ExceptT ε (StateM σ) α) = (r, s) := by
  cases r <;> rfl

theorem runFrom_require_true {step : StateM σ Bool} (h : step.run s = (true, s')) (e : ε) :
    runFrom s (require e step) = (.ok (), s') := by
  have hstep : runFrom s (liftM step : ExceptT ε (StateM σ) Bool) = (.ok true, s') :=
    congrArg (fun p : Bool × σ => ((.ok p.1, p.2) : Except ε Bool × σ)) h
  exact runFrom_bind_ok hstep _

theorem runFrom_require_false {step : StateM σ Bool} (h : step.run s = (false, s')) (e : ε) :
    runFrom s (require e step) = (.error e, s') := by
  have hstep : runFrom s (liftM step : ExceptT ε (StateM σ) Bool) = (.ok false, s') :=
    congrArg (fun p : Bool × σ => ((.ok p.1, p.2) : Except ε Bool × σ)) h
  exact runFrom_bind_ok hstep _

end Rules
end Storage

/-- Run a computation on a disk. -/
def Disk.run {ε α : Type} (d : Disk) (x : ExceptT ε (StateM Disk) α) : Except ε α × Disk :=
  (ExceptT.run x).run d

/-- The answer alone tells what a run is but for the disk. -/
theorem Disk.run_eq_of_fst {ε α : Type} {d : Disk} {x : ExceptT ε (StateM Disk) α} {r : Except ε α}
    (h : (d.run x).1 = r) : d.run x = (r, (d.run x).2) := Prod.ext h rfl

/-- On disk `d`, the computation ends in an answer and a disk with the one property, or in an error
and a disk with the other. -/
def Ends {ε α : Type} (d : Disk) (x : ExceptT ε (StateM Disk) α) (good : α → Disk → Prop)
    (bad : ε → Disk → Prop) : Prop :=
  match d.run x with
  | (.ok a, d') => good a d'
  | (.error e, d') => bad e d'

section Rules

variable {ε ε' α β : Type} {d : Disk} {good : α → Disk → Prop} {bad : ε → Disk → Prop}

/-! ## Ways to put computations together -/

theorem Ends.of_ok {x : ExceptT ε (StateM Disk) α} (h : Ends d x good bad) {a : α} {d' : Disk}
    (hx : d.run x = (.ok a, d')) : good a d' := by
  rw [Ends, hx] at h
  exact h

theorem Ends.of_error {x : ExceptT ε (StateM Disk) α} (h : Ends d x good bad) {e : ε} {d' : Disk}
    (hx : d.run x = (.error e, d')) : bad e d' := by
  rw [Ends, hx] at h
  exact h

theorem Ends.cases {x : ExceptT ε (StateM Disk) α} (h : Ends d x good bad) :
    (∃ a d', d.run x = (.ok a, d') ∧ good a d') ∨ ∃ e d', d.run x = (.error e, d') ∧ bad e d' := by
  rcases hx : d.run x with ⟨r, d'⟩
  cases r with
  | ok a => exact .inl ⟨a, d', rfl, h.of_ok hx⟩
  | error e => exact .inr ⟨e, d', rfl, h.of_error hx⟩

theorem ends_intro {x : ExceptT ε (StateM Disk) α} (hok : ∀ a d', d.run x = (.ok a, d') → good a d')
    (herror : ∀ e d', d.run x = (.error e, d') → bad e d') : Ends d x good bad := by
  rw [Ends]
  split
  · rename_i a d' hx
    exact hok a d' hx
  · rename_i e d' hx
    exact herror e d' hx

/-- What follows may use how the computation has ended. -/
theorem Ends.mono_run {x : ExceptT ε (StateM Disk) α} {good' : α → Disk → Prop}
    {bad' : ε → Disk → Prop} (h : Ends d x good bad)
    (hgood : ∀ a d', d.run x = (.ok a, d') → good a d' → good' a d')
    (hbad : ∀ e d', d.run x = (.error e, d') → bad e d' → bad' e d') : Ends d x good' bad' :=
  ends_intro (fun a d' hx => hgood a d' hx (h.of_ok hx)) fun e d' hx => hbad e d' hx (h.of_error hx)

theorem Ends.mono {x : ExceptT ε (StateM Disk) α} {good' : α → Disk → Prop}
    {bad' : ε → Disk → Prop} (h : Ends d x good bad) (hgood : ∀ a d', good a d' → good' a d')
    (hbad : ∀ e d', bad e d' → bad' e d') : Ends d x good' bad' :=
  h.mono_run (fun a d' _ => hgood a d') fun e d' _ => hbad e d'

theorem ends_pure {a : α} (h : good a d) : Ends d (pure a) good bad := h

theorem ends_throw {e : ε} (h : bad e d) : Ends d (throw e) good bad := h

/-- What has been worked out before leaves the disk as it is. -/
theorem ends_lift {r : Except ε α} (hok : ∀ a, r = .ok a → good a d)
    (herror : ∀ e, r = .error e → bad e d) :
    Ends d (liftM r : ExceptT ε (StateM Disk) α) good bad := by
  cases r with
  | ok a => exact hok a rfl
  | error e => exact herror e rfl

theorem run_bind (d : Disk) (x : ExceptT ε (StateM Disk) β) (f : β → ExceptT ε (StateM Disk) α) :
    d.run (x >>= f) = match d.run x with
      | (.ok b, d') => d'.run (f b)
      | (.error e, d') => (.error e, d') := by
  rcases h : d.run x with ⟨r, d'⟩
  cases r with
  | ok b => exact Storage.runFrom_bind_ok h f
  | error e => exact Storage.runFrom_bind_error h f

theorem run_bind_eq_ok {x : ExceptT ε (StateM Disk) β} {f : β → ExceptT ε (StateM Disk) α} {a : α}
    {d' : Disk} : d.run (x >>= f) = (.ok a, d') ↔
      ∃ b d₁, d.run x = (.ok b, d₁) ∧ d₁.run (f b) = (.ok a, d') := by
  rw [run_bind]
  rcases d.run x with ⟨r, d₁⟩
  cases r with
  | ok b =>
    constructor
    · exact fun h => ⟨b, d₁, rfl, h⟩
    · rintro ⟨b', d₁', hx, h⟩
      cases hx
      exact h
  | error e => simp

/-- What has been worked out before is there on every disk. -/
theorem run_lift_eq_ok {r : Except ε α} {a : α} {d' : Disk} :
    d.run (liftM r : ExceptT ε (StateM Disk) α) = (.ok a, d') ↔ r = .ok a ∧ d' = d := by
  have hrun : d.run (liftM r : ExceptT ε (StateM Disk) α) = (r, d) := Storage.runFrom_lift d r
  rw [hrun, Prod.mk.injEq, eq_comm (a := d)]

/-- One after the other. -/
theorem ends_bind {x : ExceptT ε (StateM Disk) β} {f : β → ExceptT ε (StateM Disk) α}
    (h : Ends d x (fun b d' => Ends d' (f b) good bad) bad) : Ends d (x >>= f) good bad := by
  rcases h.cases with ⟨b, d', hx, hb⟩ | ⟨e, d', hx, he⟩
  · rw [Ends, run_bind, hx]
    exact hb
  · rw [Ends, run_bind, hx]
    exact he

/-- An error is given another name. -/
theorem ends_adapt {x : ExceptT ε' (StateM Disk) α} {f : ε' → ε}
    (h : Ends d x good fun e d' => bad (f e) d') : Ends d (x.adapt f) good bad := by
  have hrun : d.run (x.adapt f) = ((d.run x).1.mapError f, (d.run x).2) := rfl
  rcases h.cases with ⟨a, d', hx, ha⟩ | ⟨e, d', hx, he⟩
  · rw [Ends, hrun, hx]
    exact ha
  · rw [Ends, hrun, hx]
    exact he

/-- An error is handled. -/
theorem ends_tryCatch {x : ExceptT ε (StateM Disk) α} {f : ε → ExceptT ε (StateM Disk) α}
    (h : Ends d x good fun e d' => Ends d' (f e) good bad) : Ends d (tryCatch x f) good bad := by
  rcases h.cases with ⟨a, d', hx, ha⟩ | ⟨e, d', hx, he⟩
  · have hrun : d.run (tryCatch x f) = (.ok a, d') := Storage.runFrom_tryCatch_ok hx f
    rw [Ends, hrun]
    exact ha
  · have hrun : d.run (tryCatch x f) = d'.run (f e) := Storage.runFrom_tryCatch_error hx f
    rw [Ends, hrun]
    exact he

/-- A step on files that cannot go wrong by itself. -/
theorem ends_step {x : StateM Disk α} (h : good (x.run d).1 (x.run d).2) :
    Ends d (liftM x : ExceptT ε (StateM Disk) α) good bad := h

/-- A step that must not fail. -/
theorem ends_require {good : Unit → Disk → Prop} {e : ε} {step : StateM Disk Bool}
    (hok : ∀ d', step.run d = (true, d') → good () d')
    (herror : ∀ d', step.run d = (false, d') → bad e d') :
    Ends d (Storage.require e step) good bad := by
  refine ends_bind (ends_step ?_)
  rcases hstep : step.run d with ⟨b, d'⟩
  cases b with
  | true => exact ends_pure (hok d' hstep)
  | false => exact ends_throw (herror d' hstep)

/-- The same for every member of a list, as long as it goes well. -/
theorem ends_mapM {γ : Type} {f : γ → ExceptT ε (StateM Disk) α} {P : Disk → Prop}
    {bad : ε → Disk → Prop} {xs : List γ}
    (h : ∀ x ∈ xs, ∀ d, P d → Ends d (f x) (fun _ d' => P d') bad) (hd : P d) :
    Ends d (xs.mapM f) (fun _ d' => P d') bad := by
  induction xs generalizing d with
  | nil => exact hd
  | cons x xs ih =>
    rw [List.mapM_cons]
    refine ends_bind ((h x List.mem_cons_self d hd).mono (fun a d' hd' => ?_) fun e d' he => he)
    refine ends_bind ((ih (fun y hy => h y (List.mem_cons_of_mem _ hy)) hd').mono ?_ ?_)
    · exact fun as d'' hd'' => hd''
    · exact fun e d'' he => he

/-- The same for every member of a list, when what each of them leaves behind is kept by all. -/
theorem ends_mapM_forall₂ {γ : Type} {f : γ → ExceptT ε (StateM Disk) α}
    {R : γ → α → Disk → Prop} {bad : ε → Disk → Prop} {xs : List γ}
    (h : ∀ x ∈ xs, ∀ d, Ends d (f x) (fun a d' => R x a d' ∧ ∀ y b, R y b d → R y b d') bad) :
    Ends d (xs.mapM f)
      (fun as d' => List.Forall₂ (fun x a => R x a d') xs as ∧ ∀ y b, R y b d → R y b d') bad := by
  induction xs generalizing d with
  | nil => exact ⟨.nil, fun _ _ h => h⟩
  | cons x xs ih =>
    rw [List.mapM_cons]
    refine ends_bind ((h x List.mem_cons_self d).mono ?_ fun e d' he => he)
    rintro a d₁ ⟨hx, hkeep⟩
    refine ends_bind ((ih fun y hy => h y (List.mem_cons_of_mem _ hy)).mono ?_ fun e d' he => he)
    rintro as d₂ ⟨hxs, hkeep'⟩
    exact ends_pure ⟨.cons (hkeep' x a hx) hxs, fun y b hy => hkeep' y b (hkeep y b hy)⟩

end Rules

/-! ## Steps that only look -/

section Looking

variable {ε : Type} {d : Disk}

/-- A step that leaves the files alone, whatever happens. -/
theorem files_step {α : Type} (failed : α) {f : Disk → α × Disk}
    (h : ∀ d, (f d).2.toFiles = d.toFiles) (d : Disk) :
    (Disk.step failed f d).2.toFiles = d.toFiles := by
  rw [Disk.step]
  split
  · exact h d
  · rfl
  · exact h _

theorem files_isThere {path : String} {d d' : Disk} {found : Bool}
    (h : (FileSystem.isThere path : StateM Disk Bool).run d = (found, d')) :
    d'.toFiles = d.toFiles := by
  have hstep : Disk.step false (Disk.isThere path) d = (found, d') := h
  have hfiles := files_step false (fun _ => rfl : ∀ d,
    (Disk.isThere path d).2.toFiles = d.toFiles) d
  rwa [hstep] at hfiles

theorem files_readFile {path : String} {d d' : Disk} {found : Option (List UInt8)}
    (h : (FileSystem.readFile path : StateM Disk (Option (List UInt8))).run d = (found, d')) :
    d'.toFiles = d.toFiles := by
  have hread : ∀ d, (Disk.readFile path d).2.toFiles = d.toFiles := fun d => by
    rw [Disk.readFile]
    split <;> rfl
  have hstep : Disk.step none (Disk.readFile path) d = (found, d') := h
  have hfiles := files_step none hread d
  rwa [hstep] at hfiles

/-- Reading a whole file. -/
theorem ends_contents (e : ε) (path : String) :
    Ends d (Storage.contents e path) (fun _ d' => d'.toFiles = d.toFiles)
      fun e' d' => e' = e ∧ d'.toFiles = d.toFiles := by
  refine ends_bind (ends_step ?_)
  rcases hread : (FileSystem.readFile path : StateM Disk (Option (List UInt8))).run d
    with ⟨found, d'⟩
  have hfiles := files_readFile hread
  cases found with
  | some bytes => exact hfiles
  | none => exact ⟨rfl, hfiles⟩

end Looking

/-! ## Making directories -/

namespace Disk

theorem follow_mishaps (d : Disk) (mishaps : List Bool) (here : Place) (pieces : List String) :
    ({ d with mishaps } : Disk).follow here pieces = d.follow here pieces := by
  induction pieces generalizing here with
  | nil => rfl
  | cons piece rest ih =>
    rw [follow, follow]
    simp only [ih]
    rfl

theorem makeDirectory_mishaps (d : Disk) (mishaps : List Bool) (start : Place)
    (pieces : List String) : ({ d with mishaps } : Disk).makeDirectory start pieces
      = (d.makeDirectory start pieces).map fun d' => { d' with mishaps } := by
  rw [makeDirectory, makeDirectory, follow_mishaps]
  cases d.follow start (pieces.reverse.dropWhile (· = "")).reverse with
  | error o => rfl
  | ok place =>
    simp only [bind, Except.bind]
    have hfind : ({ d with mishaps } : Disk).find? place = d.find? place := rfl
    rw [hfind]
    rcases d.find? place with _ | _ | _ <;> rfl

theorem makeFirst_mishaps (d : Disk) (mishaps : List Bool) (start : Place)
    (paths : List (List String)) : ({ d with mishaps } : Disk).makeFirst start paths
      = ((d.makeFirst start paths).1, { (d.makeFirst start paths).2 with mishaps }) := by
  induction paths with
  | nil => rfl
  | cons pieces above ih =>
    simp only [makeFirst, makeDirectory_mishaps, ih]
    cases d.makeDirectory start pieces with
    | ok d' => rfl
    | error o =>
      cases o with
      | blocked => rfl
      | missing =>
        rcases d.makeFirst start above with ⟨made, d'⟩
        cases made with
        | false => rfl
        | true =>
          simp only [Except.map, makeDirectory_mishaps]
          cases d'.makeDirectory start pieces with
          | ok d'' => rfl
          | error o => rfl

/-- Which steps fail by mishap makes no difference to what the others do. -/
theorem makeDirectories_mishaps (path : String) (d : Disk) (mishaps : List Bool) :
    makeDirectories path { d with mishaps }
      = ((makeDirectories path d).1, { (makeDirectories path d).2 with mishaps }) := by
  rw [makeDirectories, makeDirectories]
  split
  · rfl
  · split
    · exact makeFirst_mishaps _ _ _ _
    · rfl

end Disk

/-- Making a directory, when that does not fail. -/
theorem files_makeDirectories {path : String} {d d' : Disk}
    (h : (FileSystem.makeDirectories path : StateM Disk Bool).run d = (true, d')) :
    (Disk.makeDirectories path d).1 = true ∧
      d'.toFiles = (Disk.makeDirectories path d).2.toFiles := by
  have hstep : Disk.step false (Disk.makeDirectories path) d = (true, d') := h
  rw [Disk.step] at hstep
  split at hstep
  · rw [hstep]
    exact ⟨rfl, rfl⟩
  · cases hstep
  · rw [Disk.makeDirectories_mishaps, Prod.mk.injEq] at hstep
    obtain ⟨hmade, rfl⟩ := hstep
    exact ⟨hmade, rfl⟩

/-! ## Publishing -/

/-- **Publishing fails over the files, or because there are no bytes to publish.** -/
theorem ends_publish {d : Disk} (path : String) (bytes : Result (List UInt8)) :
    Ends d (Storage.publish path bytes) (fun _ _ => True)
      fun e _ => e = .io ∨ bytes = .error e := by
  refine ends_tryCatch ?_
  have hhandled : ∀ (d : Disk) (e : QuantError), e = .io ∨ bytes = .error e →
      Ends d (do
        let _ ← liftM (FileSystem.removeFile (Storage.temporaryPath path) : StateM Disk Bool)
        throw e : ExceptT QuantError (StateM Disk) Unit) (fun _ _ => True)
          fun e _ => e = .io ∨ bytes = .error e :=
    fun d e he => ends_bind (ends_step (ends_throw he))
  refine ends_bind ?_
  rw [Storage.write]
  refine ends_bind ?_
  refine ends_require (fun d₁ _ => ?_) fun d₁ _ => hhandled d₁ .io (.inl rfl)
  refine ends_bind (ends_lift (fun contents _ => ?_) fun e he => hhandled d₁ e (.inr he))
  refine ends_bind (ends_require (fun d₂ _ => ?_) fun d₂ _ => hhandled d₂ .io (.inl rfl))
  refine ends_require (fun d₃ _ => ?_) fun d₃ _ => hhandled d₃ .io (.inl rfl)
  exact ends_require (fun d₄ _ => trivial) fun d₄ _ => hhandled d₄ .io (.inl rfl)

end ProductQuantization
