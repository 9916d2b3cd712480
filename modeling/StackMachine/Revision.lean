import StackMachine.Json.Decode

/-!
# Revisions

The revisions of the instruction set, oldest first. An instruction that came with a revision is
defined under it and under every newer one.
-/

namespace StackMachine

/-- A revision of the instruction set. -/
inductive Revision where
  | frontier
  | homestead
  | tangerineWhistle
  | spuriousDragon
  | byzantium
  | constantinople
  | petersburg
  | istanbul
  | berlin
  | london
  | paris
  | shanghai
  | cancun
  | prague
  deriving DecidableEq, Repr

namespace Revision

/-- All revisions, oldest first. -/
def all : List Revision :=
  [frontier, homestead, tangerineWhistle, spuriousDragon, byzantium, constantinople, petersburg,
    istanbul, berlin, london, paris, shanghai, cancun, prague]

/-- The newest revision. -/
def latest : Revision := prague

/-- How many revisions are older. -/
def age : Revision → Nat
  | frontier => 0
  | homestead => 1
  | tangerineWhistle => 2
  | spuriousDragon => 3
  | byzantium => 4
  | constantinople => 5
  | petersburg => 6
  | istanbul => 7
  | berlin => 8
  | london => 9
  | paris => 10
  | shanghai => 11
  | cancun => 12
  | prague => 13

/-- Older revisions come first. -/
instance : LE Revision := ⟨fun r s => r.age ≤ s.age⟩

instance : DecidableLE Revision := fun r s => inferInstanceAs (Decidable (r.age ≤ s.age))

/-- Whether a revision has everything that came with another one. -/
def includes (r other : Revision) : Bool :=
  other ≤ r

/-- The name in documents. -/
def name : Revision → String
  | frontier => "frontier"
  | homestead => "homestead"
  | tangerineWhistle => "tangerine_whistle"
  | spuriousDragon => "spurious_dragon"
  | byzantium => "byzantium"
  | constantinople => "constantinople"
  | petersburg => "petersburg"
  | istanbul => "istanbul"
  | berlin => "berlin"
  | london => "london"
  | paris => "paris"
  | shanghai => "shanghai"
  | cancun => "cancun"
  | prague => "prague"

/-- The name in messages and events. -/
def title : Revision → String
  | frontier => "Frontier"
  | homestead => "Homestead"
  | tangerineWhistle => "TangerineWhistle"
  | spuriousDragon => "SpuriousDragon"
  | byzantium => "Byzantium"
  | constantinople => "Constantinople"
  | petersburg => "Petersburg"
  | istanbul => "Istanbul"
  | berlin => "Berlin"
  | london => "London"
  | paris => "Paris"
  | shanghai => "Shanghai"
  | cancun => "Cancun"
  | prague => "Prague"

/-- Reads a revision by name. -/
def ofJson (j : Json) : Json.Decoded Revision :=
  j.asName (all.map fun r => (r.name, r))

end Revision

end StackMachine
