import StackMachine.Fixture.Document

/-!
# Running files of fixtures

Every case of a file runs on its own, in the order of the names. A verbose runner reports each
verdict after what the case itself logged.
-/

namespace StackMachine.Fixture

/-- Why a test failed, or could not be made. -/
inductive TestError where
  /-- The file could not be read. -/
  | unreadable
  /-- The text is no file of cases. -/
  | document (cause : Json.DecodeError)
  /-- Bytes, a word or an address are not hexadecimal, in the words of whoever read them. -/
  | hex (reason : String)
  /-- An expectation was not met. -/
  | assertion (mismatch : Mismatch)
  deriving DecidableEq, Repr

/-- Says why a test failed, where there is more to say than that it did. -/
def TestError.message? : TestError → Option String
  | unreadable => none
  | document _ => none
  | hex reason => some s!"Hex error: {reason}"
  | assertion mismatch =>
    let why := mismatch.message
    some s!"Assertion failed: {why}"

/-- The verdicts on the cases of a file. -/
structure Results where
  /-- Where the cases came from. -/
  file : String
  passed : List String
  /-- The cases that failed, each with the reason. -/
  failed : List (String × String)
  deriving DecidableEq, Repr

namespace Results

/-- How many cases were run. -/
def total (r : Results) : Nat :=
  r.passed.length + r.failed.length

/-- Whether no case failed. -/
def allPassed (r : Results) : Bool :=
  r.failed.isEmpty

/-- The results with one more verdict. -/
def add (r : Results) (name : String) : Except Mismatch Unit → Results
  | .ok () => { r with passed := r.passed ++ [name] }
  | .error mismatch =>
    let reason := ((TestError.assertion mismatch).message?).getD ""
    { r with failed := r.failed ++ [(name, reason)] }

end Results

/-- The event that reports a verdict. -/
def verdictEvent (name : String) : Except Mismatch Unit → Event
  | .ok () => .casePassed name
  | .error mismatch => .caseFailed name (((TestError.assertion mismatch).message?).getD "")

/-- A machine that runs fixtures. -/
structure Runner where
  vm : Vm
  /-- Whether every verdict is reported. -/
  verbose : Bool

namespace Runner

/-- Runs one case. -/
def runCase? (runner : Runner) (fx : Fixture) : Option (Except TestError Unit) :=
  (fx.run? runner.vm).map fun v => v.verdict.mapError .assertion

/-- Runs cases one after another. -/
def runCases? (runner : Runner) (results : Results) (log : Array Event) :
    List (String × Fixture) → Option (Results × Array Event)
  | [] => some (results, log)
  | (name, fx) :: rest => do
    let v ← fx.run? runner.vm
    let log := log ++ v.log
    let log := if runner.verbose then log.push (verdictEvent name v.verdict) else log
    runner.runCases? (results.add name v.verdict) log rest

/-- Runs the cases of a JSON text from a given source. -/
def runText? (runner : Runner) (source text : String) :
    Option (Except TestError (Results × Array Event)) :=
  match File.ofText text with
  | .error cause => some (.error (.document cause))
  | .ok file => (runner.runCases? ⟨source, [], []⟩ #[] file.entries).map .ok

/-- Runs the cases of a file, given its contents if it could be read. -/
def runFile? (runner : Runner) (path : String) :
    (contents : Option String) → Option (Except TestError (Results × Array Event))
  | some text => runner.runText? path text
  | none => some (.error .unreadable)

end Runner

end StackMachine.Fixture
