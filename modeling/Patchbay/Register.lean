import Patchbay.Fault

namespace Patchbay

/-! Registers: tables in which a key is bound once and for all.

Values can be refined later, but never bound anew under the same key, and reading
a key that was not bound is a fault.  Keys keep the order in which they were bound.
-/

structure Register (α : Type u) where
  /-- What the register is called in faults. -/
  label : String
  entries : Table α := ∅

namespace Register

variable {α : Type u}

def get (register : Register α) (key : String) : Outcome α :=
  match register.entries.get? key with
  | some value => .ok value
  | none => .error (.unknownEntry register.label key)

def add (register : Register α) (key : String) (value : α) : Outcome (Register α) :=
  if register.entries.contains key then .error (.protectedKey register.label key)
  else .ok { register with entries := register.entries.set key value }

def refine (register : Register α) (key : String) (change : α → α) : Register α :=
  { register with entries := register.entries.modify key change }

def contains (register : Register α) (key : String) : Bool := register.entries.contains key

def keys (register : Register α) : List String := register.entries.keys

def values (register : Register α) : List α := register.entries.values

def size (register : Register α) : Nat := register.entries.size

end Register

end Patchbay
