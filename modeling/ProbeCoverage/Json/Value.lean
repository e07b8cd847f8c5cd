/-!
JSON values. Objects keep their members in order, repeated names included, since some readers
refuse a repeated name and others pass over it. What is well formed as text and still has no
value, a number beyond all doubles or half of a surrogate pair, has a marker of its own: a reader
that skips a value never notices, one that wants it does.
-/

namespace ProbeCoverage.Json

/-- A JSON number. Integers of 64 bits, signed or not, are exact; others are doubles. -/
inductive Number where
  | int (value : Int)
  | float (value : Float)
  | outOfRange

inductive Name where
  | text (value : String)
  | unpaired
  deriving DecidableEq

inductive Value where
  | null
  | bool (value : Bool)
  | number (value : Number)
  | string (value : String)
  | unpaired
  | array (items : List Value)
  | object (members : List (Name × Value))

instance : Inhabited Value := ⟨.null⟩

namespace Value

def record (members : List (String × Value)) : Value :=
  .object (members.map fun member => (.text member.1, member.2))

def nat (n : Nat) : Value :=
  .number (.int n)

def ofOption {α : Type} (encode : α → Value) : Option α → Value
  | none => .null
  | some value => encode value

def ofList {α : Type} (encode : α → Value) (items : List α) : Value :=
  .array (items.map encode)

def items? : Value → Option (List Value)
  | .array items => some items
  | _ => none

def string? : Value → Option String
  | .string value => some value
  | _ => none

def bool? : Value → Option Bool
  | .bool value => some value
  | _ => none

def nat? : Value → Option Nat
  | .number (.int value) => if 0 ≤ value then some value.toNat else none
  | _ => none

def member? (value : Value) (name : String) : Option Value :=
  match value with
  | .object members => (members.reverse.find? fun member => member.1 == .text name).map Prod.snd
  | _ => none

mutual

def depth : Value → Nat
  | .array items => 1 + depthOfItems items
  | .object members => 1 + depthOfMembers members
  | _ => 0

def depthOfItems : List Value → Nat
  | [] => 0
  | item :: rest => max (depth item) (depthOfItems rest)

def depthOfMembers : List (Name × Value) → Nat
  | [] => 0
  | (_, value) :: rest => max (depth value) (depthOfMembers rest)

end

mutual

/-- Whether every part of the value has a value: no number is out of range, no surrogate is
unpaired. -/
def sound : Value → Bool
  | .number .outOfRange => false
  | .unpaired => false
  | .array items => soundItems items
  | .object members => soundMembers members
  | _ => true

def soundItems : List Value → Bool
  | [] => true
  | item :: rest => sound item && soundItems rest

def soundMembers : List (Name × Value) → Bool
  | [] => true
  | (name, value) :: rest => name != .unpaired && sound value && soundMembers rest

end

end Value

end ProbeCoverage.Json
