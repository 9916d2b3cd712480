import StackMachine.Fixture.Document
import StackMachine.Proofs.OrderedMaps
import StackMachine.Proofs.Records
import StackMachine.Proofs.Storage

/-!
# Cases and their documents

What is read of the JSON form of a case, and the host that it is run on. Storage that was read has
each account and each slot once (`Fixture.ordered_of_storageOfJson`), so that the host of a case
starts with the storage that the case states: `Fixture.storageAt_host`.
-/

namespace StackMachine

/-! ## Storage -/

namespace StorageMap

/-- Accounts ascend, and so do the slots of each of them. -/
structure Ordered (m : StorageMap) : Prop where
  accounts : OrderedMap.Ascending m.entries
  slots : ∀ account ∈ m.entries, OrderedMap.Ascending account.2.entries

theorem ordered_empty : Ordered ∅ :=
  ⟨.nil, fun _ member => nomatch member⟩

end StorageMap

namespace Fixture

open Json (Decoded)

/-- A map that was read is in order, and its values were read. -/
theorem entries_of_map {κ ν : Type} [DecidableEq κ] [LT κ] [LE κ] [Std.LawfulOrderLT κ]
    [DecidableLT κ] [Std.IsLinearOrder κ] {key : String → Decoded κ} {value : Json → Decoded ν}
    {j : Json} {m : OrderedMap κ ν} (h : (j.asEntries key value).map OrderedMap.ofList = .ok m) :
    OrderedMap.Ascending m.entries ∧ ∀ e ∈ m.entries, ∃ j, value j = .ok e.2 := by
  obtain ⟨entries, read, rfl⟩ := map_eq_ok.mp h
  exact ⟨OrderedMap.ascending_ofList entries, fun _ member =>
    Json.value_of_mem_entries read (OrderedMap.mem_of_mem_ofList member)⟩

/-- Storage that was read has each account and each slot once. -/
theorem ordered_of_storageOfJson {j : Json} {m : StorageMap} (h : storageOfJson j = .ok m) :
    m.Ordered := by
  obtain ⟨accounts, slots⟩ := entries_of_map h
  refine ⟨accounts, fun account member => ?_⟩
  obtain ⟨_, read⟩ := slots account member
  exact (entries_of_map read).1

theorem ofJson_parts {j : Json} {fx : Fixture} (h : Fixture.ofJson j = .ok fx) :
    ∃ fields, j.fields ["revision", "exec", "env", "call_result", "pre", "expect"] = .ok fields ∧
      fields.withDefault "pre" storageOfJson ∅ = .ok fx.pre ∧
      fields.required "expect" Expect.ofJson = .ok fx.expect := by
  simp only [ofJson, bind_eq_ok] at h
  obtain ⟨fields, read, _, -, _, -, _, -, _, -, pre, hpre, expect, hexpect, h⟩ := h
  cases h
  exact ⟨fields, read, hpre, hexpect⟩

theorem ordered_pre {j : Json} {fx : Fixture} (h : Fixture.ofJson j = .ok fx) : fx.pre.Ordered := by
  obtain ⟨fields, -, pre, -⟩ := ofJson_parts h
  rcases Json.withDefault_eq_ok.mp pre with ⟨-, same⟩ | ⟨_, -, read⟩
  · rw [← same]
    exact StorageMap.ordered_empty
  · exact ordered_of_storageOfJson read

theorem File.ofText_eq_ok {text : String} {file : File} :
    File.ofText text = .ok file ↔ ∃ j, Json.ofText? text = some j ∧ File.ofJson j = .ok file := by
  rw [ofText]
  cases Json.ofText? text <;> simp

/-- A file that was read has its cases in the order of their names, each name once, and the storage
of each case is in order. -/
theorem File.entries_of_ofText {text : String} {file : File} (h : File.ofText text = .ok file) :
    OrderedMap.Ascending file.entries ∧ ∀ c ∈ file.entries, c.2.pre.Ordered := by
  obtain ⟨j, -, read⟩ := File.ofText_eq_ok.mp h
  obtain ⟨ascending, cases⟩ := entries_of_map read
  refine ⟨ascending, fun c member => ?_⟩
  obtain ⟨_, read⟩ := cases c member
  exact ordered_pre read

end Fixture

end StackMachine
