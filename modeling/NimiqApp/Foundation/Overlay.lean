/-!
# Overlaid memory

A union gives several types to one piece of memory.  A member is described
by how it is read and written: a value read through the member it was last
written through comes back, and storing the value that a member has anyway
changes nothing.  What another member reads from the same memory is left open.
-/

namespace NimiqApp
namespace Foundation

/-- One member of a union over the memory `Memory`. -/
structure Member (Memory : Type) (α : Type) where
  /-- The value the member has in a memory. -/
  read : Memory → α
  /-- Store a value through the member. -/
  write : Memory → α → Memory
  /-- A value stored through the member is read back. -/
  read_write : ∀ memory value, read (write memory value) = value
  /-- Storing the value of the member leaves the memory as it is. -/
  write_read : ∀ memory, write memory (read memory) = memory

namespace Member

attribute [simp] read_write write_read

/-- Update memory through one member. -/
def modify (member : Member Memory α) (change : α → α)
    (memory : Memory) : Memory :=
  member.write memory (change (member.read memory))

@[simp] theorem read_modify
    (member : Member Memory α)
    (change : α → α)
    (memory : Memory) :
    member.read (member.modify change memory) =
      change (member.read memory) := by
  simp [modify]

end Member

/-- What every member of a union reads from memory that a member wrote. -/
structure Overlay {Index : Type} (α : Index → Type) where
  /-- The value of the second member where the first one has the given
  value. -/
  view : ∀ written read : Index, α written → α read
  /-- A member reads what it wrote. -/
  view_self : ∀ index value, view index index value = value

namespace Overlay

variable {Index : Type} {α : Index → Type}

/-- A member of the union over memory that is the value stored last. -/
def member [∀ index, DecidableEq (α index)] (overlay : Overlay α)
    (index : Index) : Member (Sigma α) (α index) where
  read memory := overlay.view memory.fst index memory.snd
  write memory value :=
    if overlay.view memory.fst index memory.snd = value
    then memory
    else ⟨index, value⟩
  read_write memory value := by
    by_cases same : overlay.view memory.fst index memory.snd = value
    · rw [if_pos same, same]
    · rw [if_neg same]
      exact overlay.view_self index value
  write_read memory := if_pos rfl

end Overlay
end Foundation
end NimiqApp
