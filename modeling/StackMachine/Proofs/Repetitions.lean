import StackMachine.Proofs.Verdicts

/-!
# Repeated names and keys

A document may name two cases alike, and give a slot of the storage that a case expects two values,
also with the key in two spellings. Only what is written last is run and checked:
`Fixture.Runner.last_written_counts`.
-/

namespace StackMachine

/-! ## The last case of a name -/

theorem Json.member?_obj (name : String) (members : List (Option String × Json)) :
    (Json.obj members).member? name = members.reverse.lookup (some name) := by
  rw [member?]
  induction members.reverse with
  | nil => rfl
  | cons m rest ih =>
    rw [OrderedMap.lookup_cons_eq_ite]
    by_cases named : m.1 = some name
    · rw [List.find?_cons_of_pos (by simpa using named), if_pos named.symm]
      rfl
    · rw [List.find?_cons_of_neg (by simpa using named), if_neg (Ne.symm named), ih]

namespace Fixture

open Json (Decoded)

/-- The cases of a document, under their names and in the order of the text. -/
def Written : List (Option String × Json) → List (String × Fixture) → Prop :=
  List.Forall₂ fun m c => m.1 = some c.1 ∧ Fixture.ofJson m.2 = .ok c.2

namespace Written

variable {members : List (Option String × Json)} {cases : List (String × Fixture)}

theorem names (h : Written members cases) :
    members.map Prod.fst = (cases.map Prod.fst).map some := by
  induction h with
  | nil => rfl
  | cons first _ ih => rw [List.map_cons, List.map_cons, List.map_cons, ih, first.1]

theorem reverse (h : Written members cases) : Written members.reverse cases.reverse :=
  List.forall₂_reverse_iff.mpr h

theorem exists_of_mem (h : Written members cases) {m : Option String × Json} (member : m ∈ members) :
    ∃ name fx, m.1 = some name ∧ Fixture.ofJson m.2 = .ok fx := by
  induction h with
  | nil => cases member
  | @cons _ c _ _ first _ ih =>
    rcases List.mem_cons.mp member with rfl | member
    · exact ⟨c.1, c.2, first⟩
    · exact ih member

/-- The first case of a name is that of the first member. -/
theorem lookup (h : Written members cases) {name : String} {j : Json}
    (found : members.lookup (some name) = some j) :
    ∃ fx, cases.lookup name = some fx ∧ Fixture.ofJson j = .ok fx := by
  induction h with
  | nil => cases found
  | @cons m c _ _ first _ ih =>
    obtain ⟨_, value⟩ := m
    obtain ⟨key, fx⟩ := c
    obtain ⟨rfl, read⟩ := first
    simp only [OrderedMap.lookup_cons_eq_ite, Option.some.injEq] at found
    rw [OrderedMap.lookup_cons_eq_ite]
    split at found
    · rename_i same
      cases found
      exact ⟨fx, if_pos same, read⟩
    · rename_i apart
      rw [if_neg apart]
      exact ih found

end Written

/-- A text that was read as a file is an object whose members are cases. -/
theorem File.written_of_ofText {text : String} {file : File} (h : File.ofText text = .ok file) :
    ∃ members cases, Json.ofText? text = some (.obj members) ∧ Written members cases ∧
      file = OrderedMap.ofList cases := by
  obtain ⟨j, document, read⟩ := File.ofText_eq_ok.mp h
  obtain ⟨cases, entries, rfl⟩ := map_eq_ok.mp read
  obtain ⟨members, rfl, matched⟩ := Json.asEntries_eq_ok.mp entries
  refine ⟨members, cases, document, matched.imp ?_, rfl⟩
  rintro m c ⟨name, named, same, read⟩
  cases same
  exact ⟨named, read⟩

/-! ## The last value of a slot -/

/-- The slots that are written in the storage that a case expects, by account and in the order of the
text. -/
def writtenSlots (j : Json) : Decoded (List (Address × List (Word × Word))) := do
  let fields ← j.fields ["revision", "exec", "env", "call_result", "pre", "expect"]
  let expect ← fields.required "expect" fun j =>
    j.fields ["status", "gas_left", "output", "storage", "calls"]
  expect.withDefault "storage" (Json.asEntries addressOfName (Json.asEntries wordOfName asWord)) []

theorem written_of_storageOfJson {j : Json} {m : StorageMap} (h : storageOfJson j = .ok m) :
    ∃ written, j.asEntries addressOfName (Json.asEntries wordOfName asWord) = .ok written ∧
      m = OrderedMap.ofList (written.map fun a => (a.1, OrderedMap.ofList a.2)) := by
  obtain ⟨accounts, entries, rfl⟩ := map_eq_ok.mp h
  obtain ⟨written, read, rfl⟩ := Json.asEntries_map entries
  exact ⟨written, read, rfl⟩

theorem Expect.storage_of_ofJson {j : Json} {expect : Expect} (h : Expect.ofJson j = .ok expect) :
    ∃ fields, j.fields ["status", "gas_left", "output", "storage", "calls"] = .ok fields ∧
      fields.withDefault "storage" storageOfJson ∅ = .ok expect.storage := by
  simp only [Expect.ofJson, bind_eq_ok] at h
  obtain ⟨fields, read, _, -, _, -, _, -, storage, stored, _, -, h⟩ := h
  cases h
  exact ⟨fields, read, stored⟩

/-- What a case expects of the storage is what was written last. -/
theorem writtenSlots_of_ofJson {j : Json} {fx : Fixture} (h : Fixture.ofJson j = .ok fx) :
    ∃ written, writtenSlots j = .ok written ∧
      fx.expect.storage = OrderedMap.ofList (written.map fun a => (a.1, OrderedMap.ofList a.2)) := by
  obtain ⟨fields, read, -, required⟩ := ofJson_parts h
  obtain ⟨expect, found, expected⟩ := Json.required_eq_ok.mp required
  obtain ⟨parts, readExpect, stored⟩ := Expect.storage_of_ofJson expected
  have reads : writtenSlots j = parts.withDefault "storage"
      (Json.asEntries addressOfName (Json.asEntries wordOfName asWord)) [] := by
    rw [writtenSlots, read]
    show (fields.required "expect" _ >>= _) = _
    rw [Json.required_eq_ok.mpr ⟨expect, found, readExpect⟩]
    rfl
  rw [reads]
  rcases Json.withDefault_eq_ok.mp stored with ⟨absent, same⟩ | ⟨storage, present, stored⟩
  · exact ⟨[], Json.withDefault_eq_ok.mpr (.inl ⟨absent, rfl⟩), same.symm⟩
  · obtain ⟨written, read, same⟩ := written_of_storageOfJson stored
    exact ⟨written, Json.withDefault_eq_ok.mpr (.inr ⟨storage, present, read⟩), same⟩

/-- The slots of a host have the values that were written last for them, for each account as it was
written last. -/
def KeepsLast (written : List (Address × List (Word × Word))) (host : RecordingHost) : Prop :=
  ∀ address slots, written.reverse.lookup address = some slots →
    ∀ key value, slots.reverse.lookup key = some value → host.storageAt address key = value

/-- What is expected of the storage is what was written last. -/
theorem keepsLast_iff {storage : StorageMap} {written : List (Address × List (Word × Word))}
    (h : storage = OrderedMap.ofList (written.map fun a => (a.1, OrderedMap.ofList a.2)))
    {host : RecordingHost} : KeepsLast written host ↔
      ∀ account ∈ storage.entries, ∀ slot ∈ account.2.entries,
        (host.accounts.slot? account.1 slot.1).getD 0 = slot.2 := by
  have accounts {address : Address} {slots : Slots} : (address, slots) ∈ storage.entries ↔
      ∃ list, written.reverse.lookup address = some list ∧ OrderedMap.ofList list = slots := by
    rw [h, OrderedMap.mem_entries_ofList, ← List.map_reverse, OrderedMap.lookup_map_values,
      Option.map_eq_some_iff]
  constructor
  · rintro last ⟨address, _⟩ member ⟨key, value⟩ slot
    obtain ⟨slots, found, rfl⟩ := accounts.mp member
    exact last address slots found key value (OrderedMap.mem_entries_ofList.mp slot)
  · intro holds address slots found key value slot
    exact holds (address, OrderedMap.ofList slots) (accounts.mpr ⟨slots, found, rfl⟩) (key, value)
      (OrderedMap.mem_entries_ofList.mpr slot)

/-! ## Results of a document -/

namespace Runner

variable {runner : Runner} {source text : String} {results : Results} {log : Array Event}

/-- Results come from a text that was read, and report the cases that were read from it. -/
theorem reports_of_runText? (ran : runner.runText? source text = some (.ok (results, log))) :
    ∃ file, File.ofText text = .ok file ∧ runner.Reports source file results ∧
      results.total = file.entries.length := by
  cases parsed : File.ofText text with
  | error cause =>
    rw [runText?, parsed] at ran
    cases ran
  | ok file =>
    obtain ⟨_, _, same, cases⟩ := (runText?_eq_some parsed).mp ran
    cases same
    obtain ⟨verdicts, judged, rfl⟩ := runCases?_eq_some.mp ⟨log, cases⟩
    refine ⟨file, rfl, .of_judged (File.entries_of_ofText parsed).1 judged, ?_⟩
    rw [Results.total_addAll, ← judged.length_eq]

/-- Every member of a document that is run must be a case, but of several with one name only the last
is run and reported: there are as many verdicts as names, and as many as members only if no name is
repeated. Such a case passes if its execution ends as expected with the values in the storage that
were written last; others that were written for the same slots or accounts do not matter. -/
theorem last_written_counts
    (ran : runner.runText? source text = some (.ok (results, log))) :
    ∃ members, Json.ofText? text = some (.obj members) ∧
      (∀ m ∈ members, ∃ name fx, m.1 = some name ∧ Fixture.ofJson m.2 = .ok fx) ∧
      results.total = (members.map Prod.fst).dedup.length ∧
      (results.total = members.length ↔ (members.map Prod.fst).Nodup) ∧
      ∀ name j, members.reverse.lookup (some name) = some j →
        ∃ fx written, Fixture.ofJson j = .ok fx ∧ writtenSlots j = .ok written ∧
          (name ∈ results.failed.map Prod.fst ↔ name ∉ results.passed) ∧
          (name ∈ results.passed ↔ ∃ n result, (fx.execution runner.vm).HaltsAfter n result ∧
            let host := (Execution.steps n (fx.execution runner.vm)).host
            result.status = fx.expect.status ∧ result.gasLeft = fx.expect.gasLeft ∧
              result.output = fx.expect.output ∧ KeepsLast written host ∧
              ∀ count, fx.expect.calls = some count → host.calls.length = count) := by
  obtain ⟨file, parsed, reports, total⟩ := reports_of_runText? ran
  obtain ⟨members, cases, document, written, rfl⟩ := File.written_of_ofText parsed
  have distinct : results.total = (members.map Prod.fst).dedup.length := by
    rw [total, OrderedMap.length_ofList, written.names,
      List.dedup_map_of_injective fun _ _ => Option.some.inj, List.length_map]
  refine ⟨members, document, ?_, distinct, ?_, fun name j last => ?_⟩
  · exact fun m member => written.exists_of_mem member
  · rw [distinct, ← List.dedup_eq_self, ← List.length_map Prod.fst]
    exact ⟨(List.dedup_sublist _).eq_of_length, congrArg List.length⟩
  · obtain ⟨fx, found, read⟩ := written.reverse.lookup last
    obtain ⟨slots, readSlots, storage⟩ := writtenSlots_of_ofJson read
    have member : (name, fx) ∈ (OrderedMap.ofList cases).entries :=
      OrderedMap.mem_entries_ofList.mpr found
    have reported := (reports.reported name).mp (List.mem_map_of_mem member)
    refine ⟨fx, slots, read, readSlots, ⟨fun failed passed => reports.apart name passed failed,
      reported.resolve_left⟩, (reports.passed_iff name fx member).trans ?_⟩
    constructor
    · rintro ⟨n, result, ends, holds⟩
      exact ⟨n, result, ends, holds.status, holds.gasLeft, holds.output,
        (keepsLast_iff storage).mpr holds.storage, holds.calls⟩
    · rintro ⟨n, result, ends, status, gasLeft, output, last, calls⟩
      exact ⟨n, result, ends, status, gasLeft, output, (keepsLast_iff storage).mp last, calls⟩

/-- A case that names a slot in two spellings passes with the second value. -/
theorem last_written_counts_slot :
    let text := "\x7b\"a\":\x7b\"exec\":\x7b\"code\":\"\",\"gas\":9\x7d,\"expect\":[\"success\",9,\"\",
      \x7b\"0000000000000000000000000000000000000000\":\x7b\"0\":\"1\",\"00\":\"0\"\x7d\x7d]\x7d\x7d"
    let runner : Runner := ⟨.default, false⟩
    ∃ results log members j fx, runner.runText? "slot" text = some (.ok (results, log)) ∧
      Json.ofText? text = some (.obj members) ∧ members.reverse.lookup (some "a") = some j ∧
      writtenSlots j = .ok [(0, [(0, 1), (0, 0)])] ∧ Fixture.ofJson j = .ok fx ∧
      "a" ∈ results.passed ∧ ∃ n result, (fx.execution runner.vm).HaltsAfter n result ∧
        (Execution.steps n (fx.execution runner.vm)).host.storageAt 0 0 = 0 := by
  intro text runner
  let exec : Exec := ⟨defaultDestination, defaultSender, [], [], 9, 0, false, 0⟩
  let fx : Fixture :=
    ⟨.latest, exec, .default, none, ∅, ⟨.success, 9, [], ⟨[(0, ⟨[(0, 0)]⟩)]⟩, none⟩⟩
  obtain ⟨parsed, written⟩ : File.ofText text = .ok ⟨[("a", fx)]⟩ ∧
      ((Json.ofText? text).bind (Json.member? "a")).map writtenSlots
        = some (.ok [(0, [(0, 1), (0, 0)])]) := by decide +kernel
  have idling : (fx.execution .default).HaltsAfter 1 ⟨.success, 9, []⟩ :=
    ⟨by decide +kernel, by decide +kernel⟩
  have passes : fx.verdict? runner.vm = some (.ok ()) :=
    verdict?_eq_some.mpr ⟨1, _, idling, by decide +kernel⟩
  obtain ⟨log, ran⟩ : ∃ log, runner.runText? "slot" text
      = some (.ok (.addAll ⟨"slot", [], []⟩ [("a", .ok ())], log)) :=
    runText?_of_judged parsed (.cons ⟨rfl, passes⟩ List.Forall₂.nil)
  obtain ⟨members, document, -, -, -, last⟩ := last_written_counts ran
  rw [document, Option.bind_some, Json.member?_obj] at written
  obtain ⟨j, found, slots⟩ := Option.map_eq_some_iff.mp written
  obtain ⟨fx, _, read, slots', -, passed_iff⟩ := last "a" j found
  cases slots.symm.trans slots'
  have passed : "a" ∈ (Results.addAll ⟨"slot", [], []⟩ [("a", .ok ())]).passed :=
    List.mem_singleton_self _
  obtain ⟨n, result, ends, -, -, -, keeps, -⟩ := passed_iff.mp passed
  exact ⟨_, log, members, j, fx, ran, document, found, slots, read, passed, n, result, ends,
    keeps 0 _ rfl 0 0 rfl⟩

/-- Of two cases with one name the first, which fails, is not reported. -/
theorem repeated_name_unreported :
    let failing := "\x7b\"exec\":\x7b\"code\":\"\",\"gas\":9\x7d,
      \"expect\":\x7b\"status\":\"success\",\"gas_left\":8\x7d\x7d"
    let passing := "\x7b\"exec\":\x7b\"code\":\"\",\"gas\":9\x7d,
      \"expect\":\x7b\"status\":\"success\",\"gas_left\":9\x7d\x7d"
    let text := "\x7b\"a\":" ++ failing ++ ",\"a\":" ++ passing ++ "\x7d"
    let runner : Runner := ⟨.default, false⟩
    (∃ members, Json.ofText? text = some (.obj members) ∧ members.length = 2) ∧
      (∃ fx, Fixture.ofText failing = .ok fx ∧
        runner.runCase? fx = some (.error (.assertion (.gasLeft 8 9)))) ∧
      ∃ results log, runner.runText? "twice" text = some (.ok (results, log)) ∧
        results.total = 1 ∧ results.allPassed = true := by
  intro failing passing text runner
  let exec : Exec := ⟨defaultDestination, defaultSender, [], [], 9, 0, false, 0⟩
  let fails : Fixture := ⟨.latest, exec, .default, none, ∅, ⟨.success, 8, [], ∅, none⟩⟩
  let passes : Fixture := { fails with expect := ⟨.success, 9, [], ∅, none⟩ }
  have first : Fixture.ofText failing = .ok fails := by decide +kernel
  obtain ⟨parsed, two⟩ : File.ofText text = .ok ⟨[("a", passes)]⟩ ∧
      ((Json.ofText? text).map fun j => (j.asEntries .ok Fixture.ofJson).map List.length)
        = some (.ok 2) := by decide +kernel
  have idling : (fails.execution .default).HaltsAfter 1 ⟨.success, 9, []⟩ :=
    ⟨by decide +kernel, by decide +kernel⟩
  have failed : fails.verdict? runner.vm = some (.error (.gasLeft 8 9)) :=
    verdict?_eq_some.mpr ⟨1, _, idling, by decide +kernel⟩
  have passed : passes.verdict? runner.vm = some (.ok ()) :=
    verdict?_eq_some.mpr ⟨1, _, idling, by decide +kernel⟩
  obtain ⟨log, ran⟩ : ∃ log, runner.runText? "twice" text
      = some (.ok (.addAll ⟨"twice", [], []⟩ [("a", .ok ())], log)) :=
    runText?_of_judged parsed (.cons ⟨rfl, passed⟩ List.Forall₂.nil)
  obtain ⟨_, document, read⟩ := Option.map_eq_some_iff.mp two
  obtain ⟨entries, read, length⟩ := map_eq_ok.mp read
  obtain ⟨members, rfl, matched⟩ := Json.asEntries_eq_ok.mp read
  exact ⟨⟨members, document, matched.length_eq.trans length⟩,
    ⟨fails, first, runCase?_eq_error.mpr ⟨_, failed, rfl⟩⟩, _, log, ran, rfl, rfl⟩

end Runner

end Fixture

end StackMachine
