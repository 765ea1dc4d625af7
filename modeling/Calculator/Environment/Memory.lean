import Calculator.Environment

/-!
# Mappings in memory

Variables are held in mappings that are changed in place, and whoever refers to a mapping sees the
changes. What must not change along with a mapping is a copy of it.
-/

namespace Calculator

/-- Where a mapping is. -/
abbrev Address := Nat

/-- The mappings that have been made so far. A mapping is at the address that counts the mappings
made before it, and none is ever taken away. -/
structure Memory where
  mappings : List Environment

namespace Memory

/-- The address of the mapping that is made next. -/
def next (m : Memory) : Address := m.mappings.length

/-- What the mapping at an address holds. -/
def read (m : Memory) (a : Address) : Environment := m.mappings[a]?.getD .empty

/-- Assigns a value to a variable in the mapping at an address. -/
def set (m : Memory) (a : Address) (name : String) (value : Int) : Memory :=
  ⟨m.mappings.modify a fun mapping => mapping.set name value⟩

/-- Makes a copy of the mapping at an address. -/
def copy (m : Memory) (a : Address) : Memory := ⟨m.mappings ++ [m.read a]⟩

variable (m : Memory) {a b : Address} (name : String) (value : Int)

@[simp] theorem next_set : (m.set a name value).next = m.next := List.length_modify ..

@[simp] theorem next_copy : (m.copy a).next = m.next + 1 := List.length_append

theorem read_set_self (ha : a < m.next) :
    (m.set a name value).read a = (m.read a).set name value := by
  unfold next at ha
  simp [read, set, ha]

theorem read_set_of_ne (hne : a ≠ b) : (m.set a name value).read b = m.read b := by
  simp [read, set, hne]

theorem read_copy_next : (m.copy a).read m.next = m.read a := by
  simp [read, copy, next]

theorem read_copy_of_lt (hb : b < m.next) : (m.copy a).read b = m.read b := by
  unfold next at hb
  rw [read, copy, List.getElem?_append_left hb]
  rfl

end Memory

end Calculator
