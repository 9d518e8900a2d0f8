import ProductQuantization.CommandLine.Call
import ProductQuantization.Job.Stages

/-!
# Running calls

`CommandLine.run` answers a call with what is to be printed and the exit code: 0 for success, 1 for
a job that fails, 2 for a call that is not understood.
-/

set_option autoImplicit false

namespace ProductQuantization

/-- What a call comes to. -/
structure Outcome where
  exitCode : UInt8
  output : String
  errors : String
deriving DecidableEq, Repr

namespace CommandLine

/-! ## Output -/

/-- Text made at least `width` characters long by blanks at the end. -/
def padTo (width : Nat) (text : String) : String :=
  text ++ String.ofList (List.replicate (width - text.length) ' ')

/-- The line for a codec. -/
def reportLine (r : CodecReport) : String :=
  "M=" ++ padTo 4 (toString r.subspaces) ++ " nbits=" ++ padTo 2 (toString r.bits) ++
    " mse=" ++ fixed 6 r.error ++ "  " ++ r.path ++ "\n"

/-- The line for a rotation. -/
def rotationLine (r : Matrix) : String := s!"Saved {r.rows}x{r.cols} rotation\n"

/-- How to call the program. -/
def usage : String :=
  "Usage: --config-file <CONFIG_FILE> <COMMAND>\n\n" ++
    "Commands:\n" ++
    "  opq        Learn the OPQ rotation and write it to opq_matrix_file\n" ++
    "  construct  Train and write one codec per (M, nbits) pair\n" ++
    "  run        Run opq then construct in one process\n"

/-- What a failed job comes to: what was being done, and why it failed. -/
def failure (doing : String) (e : JobError) : Outcome :=
  ⟨1, "", "Error: " ++ doing ++ "\n\nCaused by:\n    " ++ e.message ++ "\n"⟩

/-- What a computation comes to, its answer being printed. -/
def outcome {α : Type} (doing : String) (print : α → String) : JobResult α → Outcome
  | .ok x => ⟨0, print x, ""⟩
  | .error e => failure doing e

/-! ## Running -/

variable {m : Type → Type} [Monad m] [FileSystem m]

/-- Run a command. -/
def runCommand (c : JobConfig) : Command → m Outcome
  | .opq => do
    let r ← (Job.runRotation c : ExceptT JobError m (Option Matrix)).run
    pure (outcome "opq stage failed" (fun x => (x.map rotationLine).getD "") r)
  | .construct => do
    let r ← (Job.runConstruct c : ExceptT JobError m (List CodecReport)).run
    pure (outcome "construct stage failed" (fun x => String.join (x.map reportLine)) r)
  | .run => do
    let r ← (Job.runAll c : ExceptT JobError m (List CodecReport)).run
    pure (outcome "run failed" (fun x => String.join (x.map reportLine)) r)

/-- Run the program. -/
def run (arguments : List String) : m Outcome := do
  match parse none arguments with
  | none => pure ⟨2, "", usage⟩
  | some .help => pure ⟨0, usage, ""⟩
  | some (.job command path) =>
    match ← (Job.load path : ExceptT JobError m JobConfig).run with
    | .error e => pure (failure ("loading config " ++ path) e)
    | .ok c => runCommand c command

end CommandLine
end ProductQuantization
