/-!
# Slots

A sequence whose elements take one or more slots each. An element is addressed by its first slot,
and the slots before `start` belong to nobody. `get?` finds an element by bisection.
-/

namespace ClassSplice

/-- Types whose elements take a number of slots. -/
class Width (α : Type) where
  width : α → Nat

export Width (width)

/-- The entries lie side by side, from the slot `start` up to the slot `stop`. -/
def Laid {α : Type} [Width α] (start : Nat) : List (Nat × α) → Nat → Prop
  | [], stop => start = stop
  | (slot, a) :: rest, stop => slot = start ∧ Laid (start + width a) rest stop

theorem Laid.append {α : Type} [Width α] {start stop : Nat} {entries : List (Nat × α)} (a : α)
    (h : Laid start entries stop) : Laid start (entries ++ [(stop, a)]) (stop + width a) := by
  induction entries generalizing start with
  | nil => simp_all [Laid]
  | cons e rest ih => exact ⟨h.1, ih h.2⟩

structure Slots (start : Nat) (α : Type) [Width α] where
  /-- The elements, each with its first slot. -/
  entries : Array (Nat × α)
  /-- The first slot of the next element. -/
  next : Nat
  laid : Laid start entries.toList next

namespace Slots

variable {start : Nat} {α : Type} [Width α]

def empty : Slots start α := ⟨#[], start, rfl⟩

instance : Inhabited (Slots start α) := ⟨empty⟩

def size (s : Slots start α) : Nat := s.entries.size

def isEmpty (s : Slots start α) : Bool := s.entries.isEmpty

def push (s : Slots start α) (a : α) : Slots start α where
  entries := s.entries.push (s.next, a)
  next := s.next + width a
  laid := by simpa using s.laid.append a

def append (s : Slots start α) (as : List α) : Slots start α := as.foldl push s

def ofList (as : List α) : Slots start α := empty.append as

/-- The elements in order, each with its first slot. -/
def toList (s : Slots start α) : List (Nat × α) := s.entries.toList

@[simp] theorem toList_empty : (empty : Slots start α).toList = [] := rfl

@[simp] theorem next_empty : (empty : Slots start α).next = start := rfl

@[simp] theorem toList_push (s : Slots start α) (a : α) :
    (s.push a).toList = s.toList ++ [(s.next, a)] := by
  simp [push, toList]

@[simp] theorem next_push (s : Slots start α) (a : α) : (s.push a).next = s.next + width a := rfl

/-- The last of `size` entries from `base` on that starts at or before `slot`, or `base`. -/
def bisect (entries : Array (Nat × α)) (slot base size : Nat)
    (h : base + size ≤ entries.size) : Nat :=
  if hs : 1 < size then
    let half := size / 2
    if entries[base + half].1 > slot then bisect entries slot base (size - half) (by omega)
    else bisect entries slot (base + half) (size - half) (by omega)
  else base
termination_by size

/-- The element whose first slot is `slot`. -/
def get? (s : Slots start α) (slot : Nat) : Option α :=
  match s.entries[bisect s.entries slot 0 s.entries.size (by omega)]? with
  | some (first, a) => if first = slot then some a else none
  | none => none

/-- The elements with their slots, each shown by `item`. -/
def describe (item : α → String) (s : Slots start α) : String :=
  "[" ++ ", ".intercalate (s.toList.map fun e => "#" ++ toString e.1 ++ " = " ++ item e.2) ++ "]"

instance [DecidableEq α] : DecidableEq (Slots start α) := fun s t =>
  decidable_of_iff (s.entries = t.entries ∧ s.next = t.next) (by cases s; cases t; simp)

end Slots

end ClassSplice
