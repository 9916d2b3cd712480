import StackMachine.Status
import StackMachine.Word

/-!
# The operand stack

A stack of words with a limit. A call that fails changes nothing.
-/

namespace StackMachine

/-- An operand stack. -/
structure Stack where
  /-- The words, the top first. -/
  items : List Word
  deriving DecidableEq, Repr

namespace Stack

/-- The stack without words. -/
def empty : Stack := ⟨[]⟩

instance : Inhabited Stack := ⟨empty⟩

/-- The words from bottom to top. -/
def toList (s : Stack) : List Word :=
  s.items.reverse

/-- The number of words. -/
def size (s : Stack) : Nat :=
  s.items.length

/-- Whether there is no word. -/
def isEmpty (s : Stack) : Bool :=
  s.items.isEmpty

/-- Puts a word on top. -/
def push (s : Stack) (w : Word) : Except VmError Stack :=
  if s.size < stackLimit then .ok ⟨w :: s.items⟩ else .error .stackOverflow

/-- Takes the top off. -/
def pop (s : Stack) : Except VmError (Word × Stack) :=
  match s.items with
  | w :: rest => .ok (w, ⟨rest⟩)
  | [] => .error .stackUnderflow

/-- The word `depth` places below the top. -/
def peek (s : Stack) (depth : Nat) : Except VmError Word :=
  match s.items[depth]? with
  | some w => .ok w
  | none => .error .stackUnderflow

/-- Pushes a copy of the `n`-th word, the top being the first. -/
def dup (s : Stack) : (n : Nat) → Except VmError Stack
  | 0 => .error .stackUnderflow
  | n + 1 => match s.items[n]? with
    | some w => s.push w
    | none => .error .stackUnderflow

/-- Exchanges the top with the word `n` places below it. -/
def swap (s : Stack) : (n : Nat) → Except VmError Stack
  | 0 => .error .stackUnderflow
  | n + 1 => match s.items with
    | [] => .error .stackUnderflow
    | top :: rest => match rest[n]? with
      | some w => .ok ⟨w :: rest.set n top⟩
      | none => .error .stackUnderflow

/-- Whether `inputs` words can be taken off and then `outputs` words pushed. -/
def require (s : Stack) (inputs outputs : Nat) : Except VmError Unit :=
  if s.size < inputs then .error .stackUnderflow
  else if inputs < outputs ∧ stackLimit < s.size - inputs + outputs then .error .stackOverflow
  else .ok ()

end Stack

end StackMachine
