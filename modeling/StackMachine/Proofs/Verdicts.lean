import StackMachine.Fixture.Runner
import StackMachine.Proofs.Cases
import StackMachine.Proofs.Runs

/-!
# Verdicts

A case passes if its execution ends and all that is expected of it holds (`Fixture.Passes`). A file
comes to one verdict for each of its cases, in the order of the names (`Fixture.Judged`), and
`Fixture.Runner.Reports` is what the results tell about them. `Fixture.Runner.verdicts_sound` says
so of every text that is a file of cases.
-/

namespace StackMachine.Fixture

/-! ## Expectations -/

/-- What is expected holds of a result and of a host. -/
structure Expect.Holds (expect : Expect) (result : ExecutionResult) (host : RecordingHost) :
    Prop where
  status : result.status = expect.status
  gasLeft : result.gasLeft = expect.gasLeft
  output : result.output = expect.output
  /-- A slot that is absent reads as zero. -/
  storage : ∀ account ∈ expect.storage.entries, ∀ slot ∈ account.2.entries,
    (host.accounts.slot? account.1 slot.1).getD 0 = slot.2
  calls : ∀ count, expect.calls = some count → host.calls.length = count

theorem checkSlots_eq_ok {host : RecordingHost} {address : Address} {slots : List (Word × Word)} :
    checkSlots host address slots = .ok () ↔
      ∀ slot ∈ slots, host.storageAt address slot.1 = slot.2 := by
  induction slots with
  | nil => simp [checkSlots]
  | cons slot rest ih =>
    obtain ⟨key, expected⟩ := slot
    rw [checkSlots, List.forall_mem_cons, ← ih]
    split
    · rename_i same
      exact (and_iff_right same).symm
    · rename_i other
      simp [other]

theorem checkStorage_eq_ok {host : RecordingHost} {accounts : List (Address × Slots)} :
    checkStorage host accounts = .ok () ↔ ∀ account ∈ accounts, ∀ slot ∈ account.2.entries,
      host.storageAt account.1 slot.1 = slot.2 := by
  induction accounts with
  | nil => simp [checkStorage]
  | cons account rest ih =>
    obtain ⟨address, slots⟩ := account
    rw [checkStorage, List.forall_mem_cons, ← ih, ← checkSlots_eq_ok, bind_eq_ok]
    exact ⟨fun ⟨_, first, rest⟩ => ⟨first, rest⟩, fun ⟨first, rest⟩ => ⟨_, first, rest⟩⟩

/-- The last check of all. -/
theorem checkCalls_eq_ok {expected : Option Nat} {host : RecordingHost} :
    (match expected with
      | some calls =>
        if host.calls.length = calls then pure ()
        else throw (Mismatch.calls calls host.calls.length)
      | none => (pure () : Except Mismatch Unit)) = .ok () ↔
      ∀ count, expected = some count → host.calls.length = count := by
  cases expected with
  | none => simp [pure, Except.pure]
  | some calls =>
    by_cases h : host.calls.length = calls <;>
      simp [h, pure, Except.pure, throw, throwThe, MonadExceptOf.throw]

/-- A check finds no mismatch if all that is expected holds. -/
theorem check_eq_ok {expect : Expect} {result : ExecutionResult} {host : RecordingHost} :
    check expect result host = .ok () ↔ expect.Holds result host := by
  have missed (mismatch : Mismatch) (rest : Unit → Except Mismatch Unit) :
      ¬ (throw mismatch >>= rest) = .ok () := nofun
  by_cases status : result.status = expect.status
  · by_cases gasLeft : result.gasLeft = expect.gasLeft
    · by_cases output : result.output = expect.output
      · simp only [check, status, gasLeft, output, ne_eq, not_true_eq_false, ↓reduceIte, ite_not,
          bind_eq_ok]
        exact ⟨fun ⟨_, storage, calls⟩ => ⟨status, gasLeft, output, checkStorage_eq_ok.mp storage,
            checkCalls_eq_ok.mp calls⟩,
          fun holds => ⟨(), checkStorage_eq_ok.mpr holds.storage,
            checkCalls_eq_ok.mpr holds.calls⟩⟩
      · simp only [check, status, gasLeft, output, ne_eq, not_true_eq_false, not_false_eq_true,
          ↓reduceIte]
        exact iff_of_false (missed _ _) fun holds => output holds.output
    · simp only [check, status, gasLeft, ne_eq, not_true_eq_false, not_false_eq_true, ↓reduceIte]
      exact iff_of_false (missed _ _) fun holds => gasLeft holds.gasLeft
  · simp only [check, status, ne_eq, not_false_eq_true, ↓reduceIte]
    exact iff_of_false (missed _ _) fun holds => status holds.status

/-! ## Verdicts on one case -/

section

variable {vm : Vm} {fx : Fixture}

/-- The execution of a case before its first step. -/
def execution (vm : Vm) (fx : Fixture) : Execution RecordingHost :=
  vm.begin fx.host fx.revision fx.message fx.exec.code

/-- The execution of a case comes to an end. -/
def Ends (vm : Vm) (fx : Fixture) : Prop :=
  ∃ n result, (fx.execution vm).HaltsAfter n result

/-- The execution of a case comes to an end at which all that is expected of it holds. -/
def Passes (vm : Vm) (fx : Fixture) : Prop :=
  ∃ n result, (fx.execution vm).HaltsAfter n result ∧
    fx.expect.Holds result (Execution.steps n (fx.execution vm)).host

/-- The verdict on a case, if its execution ends. -/
def verdict? (vm : Vm) (fx : Fixture) : Option (Except Mismatch Unit) :=
  (fx.run? vm).map Verdict.verdict

theorem verdict?_eq_some {verdict : Except Mismatch Unit} :
    fx.verdict? vm = some verdict ↔ ∃ n result, (fx.execution vm).HaltsAfter n result ∧
      check fx.expect result (Execution.steps n (fx.execution vm)).host = verdict := by
  have outcomes : fx.verdict? vm
      = (fx.execution vm).outcome?.map fun o => check fx.expect o.1 o.2 := by
    rw [verdict?, run?, Execution.outcome?, Option.map_map, Option.map_map]
    rfl
  have fits : (fx.execution vm).frame.stack.size ≤ stackLimit :=
    Execution.start_stack_size_le _ fx.host
  simp only [outcomes, Option.map_eq_some_iff, Prod.exists, Execution.outcome?_eq_some fits]
  constructor
  · rintro ⟨result, _, ⟨n, ends, rfl⟩, checked⟩
    exact ⟨n, result, ends, checked⟩
  · rintro ⟨n, result, ends, checked⟩
    exact ⟨result, _, ⟨n, ends, rfl⟩, checked⟩

theorem passes_iff : fx.Passes vm ↔ fx.verdict? vm = some (.ok ()) := by
  simp only [Passes, verdict?_eq_some, check_eq_ok]

theorem ends_iff : fx.Ends vm ↔ ∃ verdict, fx.verdict? vm = some verdict := by
  simp only [Ends, verdict?_eq_some]
  constructor
  · rintro ⟨n, result, ends⟩
    exact ⟨_, n, result, ends, rfl⟩
  · rintro ⟨_, n, result, ends, -⟩
    exact ⟨n, result, ends⟩

theorem Runner.runCase?_eq (runner : Runner) (fx : Fixture) :
    runner.runCase? fx = (fx.verdict? runner.vm).map (Except.mapError .assertion) := by
  rw [runCase?, verdict?, Option.map_map]
  rfl

theorem Runner.runCase?_eq_ok {runner : Runner} :
    runner.runCase? fx = some (.ok ()) ↔ fx.verdict? runner.vm = some (.ok ()) := by
  rw [runCase?_eq]
  rcases fx.verdict? runner.vm with _ | _ | _ <;> simp [Except.mapError]

theorem Runner.runCase?_eq_error {runner : Runner} {error : TestError} :
    runner.runCase? fx = some (.error error) ↔
      ∃ mismatch, fx.verdict? runner.vm = some (.error mismatch) ∧ .assertion mismatch = error := by
  rw [runCase?_eq]
  rcases fx.verdict? runner.vm with _ | _ | _ <;> simp [Except.mapError]

end

/-! ## Verdicts on several cases -/

/-- The verdicts on cases, under their names and in their order. -/
def Judged (vm : Vm) : List (String × Fixture) → List (String × Except Mismatch Unit) → Prop :=
  List.Forall₂ fun entry verdict => verdict.1 = entry.1 ∧ entry.2.verdict? vm = some verdict.2

namespace Judged

variable {vm : Vm} {cases : List (String × Fixture)}
  {verdicts : List (String × Except Mismatch Unit)}

theorem names (h : Judged vm cases verdicts) : verdicts.map Prod.fst = cases.map Prod.fst := by
  induction h with
  | nil => rfl
  | cons first _ ih => rw [List.map_cons, List.map_cons, first.1, ih]

/-- A verdict is one on a case of that name. -/
theorem mem_iff (h : Judged vm cases verdicts) {name : String} {verdict : Except Mismatch Unit} :
    (name, verdict) ∈ verdicts ↔ ∃ fx, (name, fx) ∈ cases ∧ fx.verdict? vm = some verdict := by
  induction h with
  | nil => simp
  | @cons entry judged _ _ first _ ih =>
    obtain ⟨key, fx⟩ := entry
    obtain ⟨_, found⟩ := judged
    obtain ⟨rfl, ends⟩ := first
    simp only [List.mem_cons, ih, Prod.mk.injEq]
    constructor
    · rintro (⟨rfl, rfl⟩ | ⟨fx, mem, ends⟩)
      · exact ⟨fx, .inl ⟨rfl, rfl⟩, ends⟩
      · exact ⟨fx, .inr mem, ends⟩
    · rintro ⟨fx, ⟨rfl, rfl⟩ | mem, ends'⟩
      · exact .inl ⟨rfl, Option.some.inj (ends'.symm.trans ends)⟩
      · exact .inr ⟨fx, mem, ends'⟩

/-- If names are not repeated, a case has one verdict. -/
theorem mem_iff_of_mem (h : Judged vm cases verdicts) (single : (cases.map Prod.fst).Nodup)
    {name : String} {fx : Fixture} (member : (name, fx) ∈ cases)
    {verdict : Except Mismatch Unit} :
    (name, verdict) ∈ verdicts ↔ fx.verdict? vm = some verdict := by
  rw [h.mem_iff]
  constructor
  · rintro ⟨other, found, ends⟩
    rw [← OrderedMap.lookup_eq_some_of_nodup single] at member found
    rwa [Option.some.inj (member.symm.trans found)]
  · exact fun ends => ⟨fx, member, ends⟩

/-- There are verdicts on cases if all of them end. -/
theorem exists_iff : (∃ verdicts, Judged vm cases verdicts) ↔ ∀ c ∈ cases, c.2.Ends vm := by
  induction cases with
  | nil => exact iff_of_true ⟨[], List.Forall₂.nil⟩ fun _ member => nomatch member
  | cons first rest ih =>
    rw [List.forall_mem_cons, ← ih, ends_iff]
    constructor
    · rintro ⟨_, _ | ⟨judged, others⟩⟩
      exact ⟨⟨_, judged.2⟩, _, others⟩
    · rintro ⟨⟨verdict, judged⟩, verdicts, others⟩
      exact ⟨(first.1, verdict) :: verdicts, .cons ⟨rfl, judged⟩ others⟩

end Judged

/-! ## Results of several cases -/

namespace Results

/-- The results with several more verdicts. -/
def addAll (r : Results) (verdicts : List (String × Except Mismatch Unit)) : Results :=
  verdicts.foldl (fun r v => r.add v.1 v.2) r

/-- The name of a case that passed. -/
def passedName? : String × Except Mismatch Unit → Option String
  | (name, .ok ()) => some name
  | (_, .error _) => none

/-- The name of a case that failed, with the reason. -/
def failure? : String × Except Mismatch Unit → Option (String × String)
  | (_, .ok ()) => none
  | (name, .error mismatch) => some (name, ((TestError.assertion mismatch).message?).getD "")

theorem addAll_eq (r : Results) (verdicts : List (String × Except Mismatch Unit)) :
    r.addAll verdicts = ⟨r.file, r.passed ++ verdicts.filterMap passedName?,
      r.failed ++ verdicts.filterMap failure?⟩ := by
  induction verdicts generalizing r with
  | nil => simp [addAll]
  | cons v rest ih =>
    have step : r.addAll (v :: rest) = (r.add v.1 v.2).addAll rest := rfl
    obtain ⟨name, mismatch | _⟩ := v <;>
      simp [step, ih, add, passedName?, failure?, List.filterMap_cons]

variable {source : String} {verdicts : List (String × Except Mismatch Unit)} {name : String}

theorem addAll_empty : addAll ⟨source, [], []⟩ verdicts
    = ⟨source, verdicts.filterMap passedName?, verdicts.filterMap failure?⟩ :=
  addAll_eq _ _

theorem mem_passed_addAll :
    name ∈ (addAll ⟨source, [], []⟩ verdicts).passed ↔ (name, .ok ()) ∈ verdicts := by
  rw [addAll_empty, List.mem_filterMap]
  constructor
  · rintro ⟨⟨_, _ | _⟩, member, found⟩
    · cases found
    · cases found
      exact member
  · exact fun member => ⟨_, member, rfl⟩

theorem mem_failed_addAll {reason : String} :
    (name, reason) ∈ (addAll ⟨source, [], []⟩ verdicts).failed ↔
      ∃ mismatch, (name, .error mismatch) ∈ verdicts ∧
        (TestError.assertion mismatch).message? = some reason := by
  rw [addAll_empty, List.mem_filterMap]
  constructor
  · rintro ⟨⟨_, mismatch | _⟩, member, found⟩
    · cases found
      exact ⟨mismatch, member, rfl⟩
    · cases found
  · rintro ⟨mismatch, member, message⟩
    refine ⟨_, member, ?_⟩
    rw [failure?, message]
    rfl

theorem mem_failedNames_addAll :
    name ∈ (addAll ⟨source, [], []⟩ verdicts).failed.map Prod.fst ↔
      ∃ mismatch, (name, .error mismatch) ∈ verdicts := by
  rw [List.mem_map]
  constructor
  · rintro ⟨⟨_, reason⟩, member, rfl⟩
    obtain ⟨mismatch, member, -⟩ := mem_failed_addAll.mp member
    exact ⟨mismatch, member⟩
  · rintro ⟨mismatch, member⟩
    exact ⟨(name, _), mem_failed_addAll.mpr ⟨mismatch, member, rfl⟩, rfl⟩

/-- Every verdict is counted once. -/
theorem total_addAll : (addAll ⟨source, [], []⟩ verdicts).total = verdicts.length := by
  rw [addAll_empty]
  induction verdicts with
  | nil => rfl
  | cons v rest ih =>
    simp only [total] at ih ⊢
    obtain ⟨name, mismatch | _⟩ := v <;>
      simp only [List.filterMap_cons, passedName?, failure?, List.length_cons] <;> omega

/-- What is picked from verdicts keeps the order of their names. -/
theorem pairwise_filterMap {α : Type} {pick : String × Except Mismatch Unit → Option α}
    {key : α → String} (named : ∀ v a, pick v = some a → v.1 = key a)
    {R : String → String → Prop} (h : (verdicts.map Prod.fst).Pairwise R) :
    (verdicts.filterMap pick).Pairwise fun a b => R (key a) (key b) := by
  refine (List.pairwise_map.mp h).filterMap _ fun v w related a first b second => ?_
  rwa [← named v a first, ← named w b second]

theorem passed_addAll_pairwise {R : String → String → Prop}
    (h : (verdicts.map Prod.fst).Pairwise R) :
    (addAll ⟨source, [], []⟩ verdicts).passed.Pairwise R := by
  rw [addAll_empty]
  refine pairwise_filterMap (fun v name found => ?_) h
  obtain ⟨_, _ | _⟩ := v <;> cases found
  rfl

theorem failed_addAll_pairwise {R : String → String → Prop}
    (h : (verdicts.map Prod.fst).Pairwise R) :
    ((addAll ⟨source, [], []⟩ verdicts).failed.map Prod.fst).Pairwise R := by
  rw [addAll_empty]
  refine List.pairwise_map.mpr (pairwise_filterMap (fun v failure found => ?_) h)
  obtain ⟨_, _ | _⟩ := v <;> cases found
  rfl

end Results

/-- Several cases come to the verdicts on each of them. -/
theorem Runner.runCases?_eq_some {runner : Runner} {results after : Results} {log : Array Event}
    {cases : List (String × Fixture)} :
    (∃ log', runner.runCases? results log cases = some (after, log')) ↔
      ∃ verdicts, Judged runner.vm cases verdicts ∧ after = results.addAll verdicts := by
  induction cases generalizing results log with
  | nil =>
    constructor
    · rintro ⟨_, ran⟩
      cases ran
      exact ⟨[], List.Forall₂.nil, rfl⟩
    · rintro ⟨verdicts, judged, rfl⟩
      cases judged
      exact ⟨log, rfl⟩
  | cons first rest ih =>
    obtain ⟨name, fx⟩ := first
    simp only [runCases?, Option.bind_eq_bind, Option.bind_eq_some_iff]
    constructor
    · rintro ⟨log', v, ran, others⟩
      obtain ⟨verdicts, judged, rfl⟩ := ih.mp ⟨log', others⟩
      have verdict : fx.verdict? runner.vm = some v.verdict := by rw [verdict?, ran]; rfl
      exact ⟨(name, v.verdict) :: verdicts, .cons ⟨rfl, verdict⟩ judged, rfl⟩
    · rintro ⟨_, judged, rfl⟩
      obtain _ | @⟨_, ⟨_, verdict⟩, _, verdicts, ⟨rfl, ended⟩, judged⟩ := judged
      obtain ⟨v, ran, rfl⟩ := Option.map_eq_some_iff.mp ended
      obtain ⟨log', others⟩ := ih.mpr ⟨verdicts, judged, rfl⟩
      exact ⟨log', v, ran, others⟩

namespace Runner

variable {runner : Runner} {source text : String} {file : File}

/-- A text that was read comes to the verdicts on its cases. -/
theorem runText?_eq_some (parsed : File.ofText text = .ok file)
    {outcome : Except TestError (Results × Array Event)} :
    runner.runText? source text = some outcome ↔ ∃ results log, outcome = .ok (results, log) ∧
      runner.runCases? ⟨source, [], []⟩ #[] file.entries = some (results, log) := by
  rw [runText?, parsed]
  simp only [Option.map_eq_some_iff, Prod.exists]
  exact exists_congr fun _ => exists_congr fun _ => and_comm.trans (and_congr_left' eq_comm)

theorem runText?_of_judged {verdicts : List (String × Except Mismatch Unit)}
    (parsed : File.ofText text = .ok file) (judged : Judged runner.vm file.entries verdicts) :
    ∃ log, runner.runText? source text
      = some (.ok (.addAll ⟨source, [], []⟩ verdicts, log)) := by
  obtain ⟨log, ran⟩ := runCases?_eq_some.mpr ⟨verdicts, judged, rfl⟩
  exact ⟨log, (runText?_eq_some parsed).mpr ⟨_, log, rfl, ran⟩⟩

/-- What the results of a file tell about its cases. -/
structure Reports (runner : Runner) (source : String) (file : File) (results : Results) :
    Prop where
  file_eq : results.file = source
  /-- Every case is among those that passed or among those that failed. -/
  reported : ∀ name, name ∈ file.entries.map Prod.fst ↔
    name ∈ results.passed ∨ name ∈ results.failed.map Prod.fst
  /-- No case is among both. -/
  apart : ∀ name ∈ results.passed, name ∉ results.failed.map Prod.fst
  passed_ascending : results.passed.Pairwise (· < ·)
  failed_ascending : (results.failed.map Prod.fst).Pairwise (· < ·)
  passed_iff : ∀ name fx, (name, fx) ∈ file.entries →
    (name ∈ results.passed ↔ fx.Passes runner.vm)
  /-- The verdict on a case is the one that it has by itself. -/
  passed_alone : ∀ name fx, (name, fx) ∈ file.entries →
    (name ∈ results.passed ↔ runner.runCase? fx = some (.ok ()))
  failed_alone : ∀ name fx, (name, fx) ∈ file.entries → ∀ reason,
    (name, reason) ∈ results.failed ↔
      ∃ error, runner.runCase? fx = some (.error error) ∧ error.message? = some reason
  /-- A file with this case and no other reports it in the same way. -/
  alone : ∀ name fx, (name, fx) ∈ file.entries → ∃ single log,
    runner.runCases? ⟨source, [], []⟩ #[] [(name, fx)] = some (single, log) ∧
      (name ∈ single.passed ↔ name ∈ results.passed) ∧
      ∀ reason, (name, reason) ∈ single.failed ↔ (name, reason) ∈ results.failed

theorem Reports.of_judged {verdicts : List (String × Except Mismatch Unit)}
    (ascending : OrderedMap.Ascending file.entries)
    (judged : Judged runner.vm file.entries verdicts) :
    runner.Reports source file (.addAll ⟨source, [], []⟩ verdicts) := by
  have single : (file.entries.map Prod.fst).Nodup := OrderedMap.nodup_of_ascending ascending.keys
  have names : (verdicts.map Prod.fst).Pairwise (· < ·) := judged.names ▸ ascending.keys
  have verdict {name : String} {fx : Fixture} (member : (name, fx) ∈ file.entries)
      {verdict : Except Mismatch Unit} :
      (name, verdict) ∈ verdicts ↔ fx.verdict? runner.vm = some verdict :=
    judged.mem_iff_of_mem single member
  refine {
    file_eq := by rw [Results.addAll_empty]
    reported := ?_
    apart := ?_
    passed_ascending := Results.passed_addAll_pairwise names
    failed_ascending := Results.failed_addAll_pairwise names
    passed_iff := fun name fx member => by
      rw [Results.mem_passed_addAll, verdict member, passes_iff]
    passed_alone := fun name fx member => by
      rw [Results.mem_passed_addAll, verdict member, runCase?_eq_ok]
    failed_alone := fun name fx member reason => ?_
    alone := fun name fx member => ?_ }
  · intro name
    rw [← judged.names, Results.mem_passed_addAll, Results.mem_failedNames_addAll, List.mem_map]
    constructor
    · rintro ⟨⟨_, mismatch | _⟩, member, rfl⟩
      · exact .inr ⟨mismatch, member⟩
      · exact .inl member
    · rintro (member | ⟨_, member⟩) <;> exact ⟨_, member, rfl⟩
  · intro name passed failed
    have passed := Results.mem_passed_addAll.mp passed
    obtain ⟨mismatch, failed⟩ := Results.mem_failedNames_addAll.mp failed
    have nodup : (verdicts.map Prod.fst).Nodup := judged.names ▸ single
    rw [← OrderedMap.lookup_eq_some_of_nodup nodup] at passed failed
    cases passed.symm.trans failed
  · simp only [Results.mem_failed_addAll, verdict member, runCase?_eq_error]
    constructor
    · rintro ⟨mismatch, ended, message⟩
      exact ⟨_, ⟨mismatch, ended, rfl⟩, message⟩
    · rintro ⟨_, ⟨mismatch, ended, rfl⟩, message⟩
      exact ⟨mismatch, ended, message⟩
  · -- The execution of a case does not see the file, so its verdict is at hand for any other.
    obtain ⟨found, ended⟩ := ends_iff.mp (Judged.exists_iff.mp ⟨verdicts, judged⟩ _ member)
    have judgedAlone : Judged runner.vm [(name, fx)] [(name, found)] :=
      .cons ⟨rfl, ended⟩ List.Forall₂.nil
    have verdictAlone {verdict : Except Mismatch Unit} :
        (name, verdict) ∈ [(name, found)] ↔ fx.verdict? runner.vm = some verdict :=
      judgedAlone.mem_iff_of_mem (List.nodup_singleton name) List.mem_cons_self
    obtain ⟨log, ran⟩ := runCases?_eq_some.mpr ⟨_, judgedAlone, rfl⟩
    refine ⟨_, log, ran, ?_, fun reason => ?_⟩
    · rw [Results.mem_passed_addAll, Results.mem_passed_addAll, verdictAlone, verdict member]
    · simp only [Results.mem_failed_addAll, verdictAlone, verdict member]

end Runner

end StackMachine.Fixture
