import Mathlib.Data.List.Induction
import Mathlib.Logic.Equiv.Basic
import StackMachine.Proofs.Regions
import StackMachine.Proofs.Stacks

/-!
# Calls on a stack

A stack by itself, under any calls in any order, beside a list of bounded length under the same
calls. The list has the words from bottom to top, so the places that a call counts from the top are
positions counted from the other end there: `Action.refusal?`, `Action.given?` and `Action.leaves`
say what a call is to such a list. `Action.map_toList_apply` says that one call agrees with it,
`Action.run_shows` that a history of calls does, and `Action.require_eq_inTurn` what the check of an
arity has to do with pops and pushes. `Action.run_agrees_with_list` puts them together.
-/

namespace StackMachine

namespace Stack

/-! ## Vocabulary of the statement -/

/-- A list with the items at two positions exchanged. -/
def exchange (l : List Word) (i j : Nat) : List Word :=
  match l[i]?, l[j]? with
  | some a, some b => (l.set i b).set j a
  | _, _ => l

/-- The check of an operation's arity as sixty-four bits compute it, a sum that wraps around
included. -/
def checkedRequire (len inputs outputs : UInt64) : Except VmError Unit :=
  if len < inputs then .error .stackUnderflow
  else if inputs < outputs ∧ UInt64.ofNat stackLimit < len - inputs + outputs then
    .error .stackOverflow
  else .ok ()

/-- A call on a stack. -/
inductive Action where
  | push (w : Word)
  | pop
  | peek (depth : Nat)
  | dup (n : Nat)
  | swap (n : Nat)
  | require (inputs outputs : Nat)
  deriving DecidableEq, Repr

namespace Action

/-- Carries out a call, which may give back a word. -/
def apply (s : Stack) : Action → Except VmError (Option Word × Stack)
  | push w => (s.push w).map fun t => (none, t)
  | pop => s.pop.map fun (w, t) => (some w, t)
  | peek depth => (s.peek depth).map fun w => (some w, s)
  | dup n => (s.dup n).map fun t => (none, t)
  | swap n => (s.swap n).map fun t => (none, t)
  | require inputs outputs => (s.require inputs outputs).map fun _ => (none, s)

/-- The stack after a call. A call that fails leaves it as it was. -/
def after (s : Stack) (a : Action) : Stack :=
  match a.apply s with
  | .ok (_, t) => t
  | .error _ => s

/-- The stack after a history of calls on an empty one. -/
def run (history : List Action) : Stack :=
  history.foldl after .empty

/-- Carries out calls in turn until one fails. -/
def inTurn (s : Stack) (calls : List Action) : Except VmError Stack :=
  calls.foldlM (fun s a => (a.apply s).map Prod.snd) s

/-- The error with which a list refuses a call. -/
def refusal? (l : List Word) : Action → Option VmError
  | push _ => if l.length = stackLimit then some .stackOverflow else none
  | pop => if l.length = 0 then some .stackUnderflow else none
  | peek depth => if l.length ≤ depth then some .stackUnderflow else none
  | dup n =>
    if n = 0 ∨ l.length < n then some .stackUnderflow
    else if l.length = stackLimit then some .stackOverflow
    else none
  | swap n => if n = 0 ∨ l.length ≤ n then some .stackUnderflow else none
  | require inputs outputs =>
    if l.length < inputs then some .stackUnderflow
    else if stackLimit < l.length - inputs + outputs then some .stackOverflow
    else none

/-- The word that a call gives back. -/
def given? (l : List Word) : Action → Option Word
  | pop => l.getLast?
  | peek depth => l[l.length - 1 - depth]?
  | push _ | dup _ | swap _ | require _ _ => none

/-- The list that a call leaves if it is not refused. -/
def leaves (l : List Word) : Action → List Word
  | push w => l ++ [w]
  | pop => l.dropLast
  | dup n => l ++ l[l.length - n]?.toList
  | swap n => exchange l (l.length - 1) (l.length - 1 - n)
  | peek _ | require _ _ => l

/-- Carries out a call on a list. -/
def onList (l : List Word) (a : Action) : Except VmError (Option Word × List Word) :=
  match a.refusal? l with
  | some error => .error error
  | none => .ok (a.given? l, a.leaves l)

/-- The list after a call. -/
def listAfter (l : List Word) (a : Action) : List Word :=
  match a.onList l with
  | .ok (_, left) => left
  | .error _ => l

/-- The list after a history of calls on an empty one. -/
def runList (history : List Action) : List Word :=
  history.foldl listAfter []

end Action

/-! ## Places from either end -/

variable {s : Stack}

theorem length_toList (s : Stack) : s.toList.length = s.size :=
  List.length_reverse

/-- Places from the top are positions from the other end. -/
theorem getElem?_items {depth : Nat} (within : depth < s.size) :
    s.items[depth]? = s.toList[s.size - 1 - depth]? := by
  have within' : depth < s.toList.length := by rwa [length_toList]
  rw [← s.length_toList, ← List.getElem?_reverse within', toList, List.reverse_reverse]

theorem getElem?_toList {position : Nat} (within : position < s.size) :
    s.toList[position]? = s.items[s.size - 1 - position]? :=
  List.getElem?_reverse within

/-! ## Exchanges -/

theorem length_exchange (l : List Word) (i j : Nat) : (exchange l i j).length = l.length := by
  unfold exchange
  split <;> simp

theorem getElem?_exchange {l : List Word} {i j : Nat} (hi : i < l.length) (hj : j < l.length)
    (k : Nat) : (exchange l i j)[k]? = l[Equiv.swap i j k]? := by
  rw [exchange, List.getElem?_eq_getElem hi, List.getElem?_eq_getElem hj, Equiv.swap_apply_def]
  by_cases second : k = j
  · subst second
    rw [List.getElem?_set_self (by simpa using hj)]
    by_cases same : k = i <;> simp [same, hi]
  · rw [List.getElem?_set_ne (Ne.symm second), if_neg second]
    by_cases first : k = i
    · subst first
      rw [List.getElem?_set_self hi, if_pos rfl, List.getElem?_eq_getElem hj]
    · rw [List.getElem?_set_ne (Ne.symm first), if_neg first]

/-- The top and the word so many places below it change places. -/
theorem getElem?_swap {t : Stack} {n : Nat} (swapped : s.swap n = .ok t) (depth : Nat) :
    t.items[depth]? = s.items[Equiv.swap 0 n depth]? := by
  obtain ⟨m, top, w, rest, rfl, items, item, rfl⟩ := swap_eq_ok.mp swapped
  obtain ⟨within, -⟩ := List.getElem?_eq_some_iff.mp item
  rw [items, Equiv.swap_apply_def]
  cases depth with
  | zero => simp [item]
  | succ d =>
    by_cases found : d = m
    · subst found
      simp [within]
    · simp [found, Ne.symm found]

theorem size_swap {t : Stack} {n : Nat} (swapped : s.swap n = .ok t) : t.size = s.size := by
  obtain ⟨m, top, w, rest, rfl, items, -, rfl⟩ := swap_eq_ok.mp swapped
  simp [size, items]

theorem bounds_of_swap {t : Stack} {n : Nat} (swapped : s.swap n = .ok t) :
    0 < n ∧ n < s.size := by
  obtain ⟨m, top, w, rest, rfl, items, item, -⟩ := swap_eq_ok.mp swapped
  obtain ⟨within, -⟩ := List.getElem?_eq_some_iff.mp item
  simp only [size, items, List.length_cons]
  omega

/-- From the bottom, the last position and the one so far before it are exchanged. -/
theorem getElem?_toList_swap {t : Stack} {n : Nat} (swapped : s.swap n = .ok t) (position : Nat) :
    t.toList[position]? = s.toList[Equiv.swap (s.size - 1) (s.size - 1 - n) position]? := by
  obtain ⟨some, below⟩ := bounds_of_swap swapped
  have same := size_swap swapped
  by_cases within : position < s.size
  · have mirrored : s.size - 1 - Equiv.swap (s.size - 1) (s.size - 1 - n) position
        = Equiv.swap 0 n (s.size - 1 - position) := by
      rw [Equiv.swap_apply_def, Equiv.swap_apply_def]
      split_ifs <;> omega
    have within' : Equiv.swap (s.size - 1) (s.size - 1 - n) position < s.size := by
      rw [Equiv.swap_apply_def]
      split_ifs <;> omega
    rw [getElem?_toList (same ▸ within), getElem?_toList within', getElem?_swap swapped, same,
      mirrored]
  · have kept : Equiv.swap (s.size - 1) (s.size - 1 - n) position = position :=
      Equiv.swap_apply_of_ne_of_ne (by omega) (by omega)
    rw [kept, List.getElem?_eq_none, List.getElem?_eq_none] <;> rw [length_toList] <;> omega

/-- Two exchanges at one place undo each other. -/
theorem swap_swap {t : Stack} {n : Nat} (swapped : s.swap n = .ok t) : t.swap n = .ok s := by
  obtain ⟨some, below⟩ := bounds_of_swap swapped
  rw [← size_swap swapped] at below
  obtain ⟨u, again⟩ := swap_ok below some
  have items : u.items = s.items := by
    apply List.ext_getElem?
    intro depth
    rw [getElem?_swap again, getElem?_swap swapped, Equiv.swap_apply_self]
  have same : u = s := by
    cases u
    cases s
    exact congrArg Stack.mk items
  rw [again, same]

/-! ## Arity in sixty-four bits -/

/-- No sum of a stack's size and a byte wraps around. -/
theorem require_eq_checkedRequire (fits : s.size ≤ stackLimit) (inputs outputs : UInt8) :
    s.require inputs.toNat outputs.toNat
      = checkedRequire (.ofNat s.size) inputs.toUInt64 outputs.toUInt64 := by
  have given := outputs.toNat_lt
  have limit : stackLimit = 1024 := rfl
  have most : (UInt64.ofNat stackLimit).toNat = stackLimit := rfl
  have len : (UInt64.ofNat s.size).toNat = s.size :=
    UInt64.toNat_ofNat_of_lt' (Nat.lt_of_le_of_lt fits (by decide))
  simp only [require, checkedRequire, UInt64.lt_iff_toNat_lt, UInt8.toNat_toUInt64, len, most]
  split
  · rfl
  · rename_i enough
    have left : (UInt64.ofNat s.size - inputs.toUInt64).toNat = s.size - inputs.toNat := by
      rw [UInt64.toNat_sub_of_le, len, UInt8.toNat_toUInt64]
      rw [UInt64.le_iff_toNat_le, len, UInt8.toNat_toUInt64]
      exact Nat.not_lt.mp enough
    rw [UInt64.toNat_add, left, UInt8.toNat_toUInt64, Nat.mod_eq_of_lt (by omega)]

namespace Action

/-! ## One call -/

/-- A call fails as a list of bounded length refuses it. -/
theorem apply_eq_error (fits : s.size ≤ stackLimit) {a : Action} {error : VmError} :
    a.apply s = .error error ↔ a.refusal? s.toList = some error := by
  have full : stackLimit ≤ s.size ↔ s.size = stackLimit :=
    ⟨fun least => Nat.le_antisymm fits least, Nat.le_of_eq ∘ Eq.symm⟩
  cases a <;>
    simp only [apply, map_eq_error, push_eq_error, pop_eq_error, peek_eq_error, dup_eq_error,
      swap_eq_error, require_eq_error fits, full, refusal?, length_toList, ite_eq_iff,
      Option.some_inj, @eq_comm _ error, reduceCtorEq, and_false, or_false]

/-- A call that succeeds gives back what is found in the list, and leaves what becomes of it. -/
theorem eq_of_apply {a : Action} {given : Option Word} {t : Stack}
    (done : a.apply s = .ok (given, t)) :
    given = a.given? s.toList ∧ t.toList = a.leaves s.toList := by
  cases a with
  | push w =>
    obtain ⟨t, pushed, answer⟩ := map_eq_ok.mp done
    cases answer
    obtain ⟨-, rfl⟩ := push_eq_ok.mp pushed
    exact ⟨rfl, List.reverse_cons⟩
  | pop =>
    obtain ⟨⟨w, t⟩, popped, answer⟩ := map_eq_ok.mp done
    cases answer
    have items := pop_eq_ok.mp popped
    simp [given?, leaves, toList, items]
  | peek depth =>
    obtain ⟨w, found, answer⟩ := map_eq_ok.mp done
    cases answer
    have item := peek_eq_ok.mp found
    obtain ⟨within, -⟩ := List.getElem?_eq_some_iff.mp item
    rw [getElem?_items within] at item
    rw [given?, length_toList, item]
    exact ⟨rfl, rfl⟩
  | dup n =>
    obtain ⟨t, copied, answer⟩ := map_eq_ok.mp done
    cases answer
    obtain ⟨-, m, w, rfl, item, rfl⟩ := dup_eq_ok.mp copied
    obtain ⟨within, -⟩ := List.getElem?_eq_some_iff.mp item
    -- The first word from the top is zero places below it.
    rw [getElem?_items within, Nat.sub_sub, Nat.add_comm 1 m] at item
    rw [leaves, length_toList, item]
    exact ⟨rfl, List.reverse_cons⟩
  | swap n =>
    obtain ⟨t, swapped, answer⟩ := map_eq_ok.mp done
    cases answer
    obtain ⟨some, below⟩ := bounds_of_swap swapped
    refine ⟨rfl, List.ext_getElem? fun position => ?_⟩
    rw [getElem?_toList_swap swapped, leaves, length_toList, getElem?_exchange] <;>
      rw [length_toList] <;> omega
  | require inputs outputs =>
    obtain ⟨_, _, answer⟩ := map_eq_ok.mp done
    cases answer
    exact ⟨rfl, rfl⟩

/-- A call on a stack is the same call on the list of its words. -/
theorem map_toList_apply (fits : s.size ≤ stackLimit) (a : Action) :
    (a.apply s).map (Prod.map id toList) = a.onList s.toList := by
  cases done : a.apply s with
  | error error =>
    rw [onList, (apply_eq_error fits).mp done]
    rfl
  | ok answer =>
    obtain ⟨given, t⟩ := answer
    obtain ⟨rfl, left⟩ := eq_of_apply done
    have granted : a.refusal? s.toList = none := by
      refine Option.eq_none_iff_forall_ne_some.mpr fun error refused => ?_
      rw [(apply_eq_error fits).mpr refused] at done
      cases done
    rw [onList, granted, Except.map, Prod.map, left]
    rfl

/-- What is copied is the word found one place less deep. -/
theorem toList_of_dup {t : Stack} {n : Nat} (copied : s.dup n = .ok t) :
    ∃ w, s.peek (n - 1) = .ok w ∧ t.toList = s.toList ++ [w] := by
  obtain ⟨-, m, w, rfl, item, rfl⟩ := dup_eq_ok.mp copied
  exact ⟨w, peek_eq_ok.mpr item, List.reverse_cons⟩

/-- A call that fails leaves a stack as it was. -/
theorem after_of_apply_eq_error {a : Action} {error : VmError} (fails : a.apply s = .error error) :
    a.after s = s := by
  rw [after, fails]

/-- A call that is not refused leaves a list within the bound. -/
theorem length_leaves {l : List Word} {a : Action} (fits : l.length ≤ stackLimit)
    (granted : a.refusal? l = none) : (a.leaves l).length ≤ stackLimit := by
  cases a with
  | push w =>
    have room : l.length ≠ stackLimit := by simpa [refusal?] using granted
    rw [leaves, List.length_append, List.length_singleton]
    omega
  | pop =>
    rw [leaves, List.length_dropLast]
    omega
  | dup n =>
    have room : l.length ≠ stackLimit := by
      intro full
      rw [refusal?, if_pos full] at granted
      split at granted <;> cases granted
    have copied : l[l.length - n]?.toList.length ≤ 1 := by
      cases l[l.length - n]? <;> simp
    rw [leaves, List.length_append]
    omega
  | swap n => rwa [leaves, length_exchange]
  | peek _ | require _ _ => exact fits

/-! ## Any number of calls -/

theorem toList_after (fits : s.size ≤ stackLimit) (a : Action) :
    (a.after s).toList = a.listAfter s.toList := by
  rw [listAfter, ← map_toList_apply fits, after]
  cases a.apply s <;> rfl

theorem length_listAfter {l : List Word} (fits : l.length ≤ stackLimit) (a : Action) :
    (a.listAfter l).length ≤ stackLimit := by
  rw [listAfter, onList]
  cases granted : a.refusal? l with
  | some _ => exact fits
  | none => exact length_leaves fits granted

theorem run_append (history : List Action) (a : Action) :
    run (history ++ [a]) = a.after (run history) := by
  rw [run, List.foldl_append]
  rfl

theorem runList_append (history : List Action) (a : Action) :
    runList (history ++ [a]) = a.listAfter (runList history) := by
  rw [runList, List.foldl_append]
  rfl

/-- The words that a history of calls leaves are what it makes of the empty list, never too many. -/
theorem run_shows (history : List Action) :
    (run history).toList = runList history ∧ (runList history).length ≤ stackLimit := by
  induction history using List.reverseRecOn with
  | nil => exact ⟨rfl, Nat.zero_le _⟩
  | append_singleton history a ih =>
    obtain ⟨shows, bounded⟩ := ih
    have fits : (run history).size ≤ stackLimit := by rwa [← length_toList, shows]
    rw [run_append, runList_append, toList_after fits, shows]
    exact ⟨rfl, length_listAfter bounded a⟩

/-! ## Calls in turn -/

theorem inTurn_cons (s : Stack) (a : Action) (calls : List Action) :
    inTurn s (a :: calls) = (a.apply s).bind fun done => inTurn done.2 calls := by
  rw [inTurn, List.foldlM_cons]
  cases a.apply s <;> rfl

theorem inTurn_append (s : Stack) (first second : List Action) :
    inTurn s (first ++ second) = (inTurn s first).bind fun t => inTurn t second := by
  rw [inTurn, List.foldlM_append]
  rfl

theorem inTurn_pops (s : Stack) (n : Nat) :
    inTurn s (.replicate n .pop)
      = if s.size < n then .error .stackUnderflow else .ok ⟨s.items.drop n⟩ := by
  induction n generalizing s with
  | zero => rfl
  | succ n ih =>
    rw [List.replicate_succ, inTurn_cons, apply, Stack.pop]
    cases items : s.items with
    | nil => simp [size, items, Except.map, Except.bind]
    | cons w rest =>
      have short : size ⟨rest⟩ < n ↔ s.size < n + 1 := by
        rw [size, size, items, List.length_cons, Nat.add_lt_add_iff_right]
      simp only [Except.map, Except.bind, ih, List.drop_succ_cons]
      exact if_congr short rfl rfl

theorem inTurn_pushes (fits : s.size ≤ stackLimit) (ws : List Word) :
    inTurn s (ws.map .push)
      = if stackLimit < s.size + ws.length then .error .stackOverflow
        else .ok ⟨ws.reverse ++ s.items⟩ := by
  induction ws generalizing s with
  | nil => exact (if_neg (Nat.not_lt.mpr fits)).symm
  | cons w ws ih =>
    rw [List.map_cons, inTurn_cons, apply, Stack.push]
    by_cases room : s.size < stackLimit
    · have grown : size ⟨w :: s.items⟩ = s.size + 1 := rfl
      have fits' : size ⟨w :: s.items⟩ ≤ stackLimit := room
      rw [if_pos room, Except.map, Except.bind, ih fits', grown, List.length_cons,
        List.reverse_cons, List.append_assoc, Nat.add_right_comm]
      rfl
    · have past : stackLimit < s.size + (w :: ws).length := by
        rw [List.length_cons]
        omega
      rw [if_neg room, if_pos past]
      rfl

/-- The check of an arity answers like so many pops with pushes of any words after them. -/
theorem require_eq_inTurn (fits : s.size ≤ stackLimit) (inputs : Nat) (ws : List Word) :
    s.require inputs ws.length
      = (inTurn s (.replicate inputs .pop ++ ws.map .push)).map fun _ => () := by
  rw [inTurn_append, inTurn_pops]
  by_cases short : s.size < inputs
  · rw [Stack.require, if_pos short, if_pos short]
    rfl
  · have left : size ⟨s.items.drop inputs⟩ = s.size - inputs := List.length_drop
    have fits' : size ⟨s.items.drop inputs⟩ ≤ stackLimit := by omega
    rw [if_neg short, Except.bind, inTurn_pushes fits', left]
    by_cases past : stackLimit < s.size - inputs + ws.length
    · rw [if_pos past, (require_eq_error fits).mpr (.inr ⟨short, past, rfl⟩)]
      rfl
    · rw [if_neg past, require_eq_ok.mpr ⟨Nat.not_lt.mp short, fun grows => past grows.2⟩]
      rfl

/-- A stack under any calls holds and answers what a list of at most 1024 words does under the same
calls, and fails when the list refuses, with the same error; then it is as before. A copy is of the
word that is found one place less deep. An exchange moves two words and no other, and undoes itself.
The check of an arity answers like the pops and pushes that it stands for, and for bytes sixty-four
bits compute it without wrapping around. -/
theorem run_agrees_with_list (history : List Action) :
    let s := run history
    let l := runList history
    (s.toList = l ∧ l.length ≤ 1024) ∧
      (∀ a : Action, (a.apply s).map (Prod.map id toList) = a.onList l) ∧
      (∀ (a : Action) (error : VmError), a.apply s = .error error ↔ a.refusal? l = some error) ∧
      (∀ (a : Action) (error : VmError), a.apply s = .error error → a.after s = s) ∧
      (∀ (n : Nat) (t : Stack), s.dup n = .ok t →
        ∃ w, s.peek (n - 1) = .ok w ∧ t.toList = l ++ [w]) ∧
      (∀ (n : Nat) (t : Stack), s.swap n = .ok t →
        (∀ position, t.toList[position]?
            = l[Equiv.swap (l.length - 1) (l.length - 1 - n) position]?) ∧
          t.swap n = .ok s) ∧
      (∀ (inputs : Nat) (ws : List Word), s.require inputs ws.length
        = (inTurn s (.replicate inputs .pop ++ ws.map .push)).map fun _ => ()) ∧
      ∀ inputs outputs : UInt8, s.require inputs.toNat outputs.toNat
        = checkedRequire (.ofNat s.size) inputs.toUInt64 outputs.toUInt64 := by
  intro s l
  obtain ⟨shows, bounded⟩ : s.toList = l ∧ l.length ≤ stackLimit := run_shows history
  have fits : s.size ≤ stackLimit := by rwa [← length_toList, shows]
  refine ⟨⟨shows, bounded⟩, ?_, ?_, ?_, ?_, ?_, ?_, ?_⟩
  · intro a
    rw [← shows]
    exact map_toList_apply fits a
  · intro a error
    rw [← shows]
    exact apply_eq_error fits
  · intro a error fails
    exact after_of_apply_eq_error fails
  · intro n t copied
    rw [← shows]
    exact toList_of_dup copied
  · intro n t swapped
    rw [← shows, length_toList]
    exact ⟨getElem?_toList_swap swapped, swap_swap swapped⟩
  · exact fun inputs ws => require_eq_inTurn fits inputs ws
  · exact fun inputs outputs => require_eq_checkedRequire fits inputs outputs

/-- Of three words the top and the bottom exchanged, the bottom copied, and a copy from too deep. -/
theorem run_agrees_with_list_bottom :
    let history := [push 1, push 2, swap 2, push 3, pop, push 9, require 4 0, peek 3]
    let s := run history
    let exchanged : Stack := ⟨[1, 2, 9]⟩
    let copied : Stack := ⟨[1, 9, 2, 1]⟩
    (s.swap 2 = .ok exchanged ∧ s.dup 3 = .ok copied ∧
        (dup 4).apply s = .error .stackUnderflow) ∧
      exchanged.swap 2 = .ok s ∧ exchanged.toList[0]? = (runList history)[2]? ∧
      (∃ w, s.peek 2 = .ok w ∧ copied.toList = runList history ++ [w]) ∧ (dup 4).after s = s := by
  intro history s exchanged copied
  have swapped : s.swap 2 = .ok exchanged := by decide +kernel
  have duplicated : s.dup 3 = .ok copied := by decide +kernel
  have past : (dup 4).apply s = .error .stackUnderflow := by decide +kernel
  obtain ⟨-, -, -, kept, copies, exchanges, -⟩ := run_agrees_with_list history
  obtain ⟨moved, back⟩ := exchanges 2 exchanged swapped
  exact ⟨⟨swapped, duplicated, past⟩, back, moved 0, copies 3 copied duplicated,
    kept (dup 4) _ past⟩

end Action

end Stack

end StackMachine
