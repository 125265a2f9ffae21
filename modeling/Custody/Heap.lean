/-
  Custody.Heap — allocations reached by handle.

  An allocation is one text or one vector. Which address it gets is the allocator's choice, and all
  that is known of the choice is that nothing live is there: the address of an allocation that ended
  may be given out again, or never.
-/
import Custody.Element
import Custody.Handle
import Custody.Slots

namespace Custody

/-- What an allocation holds. -/
inductive Object where
  | text (t : String)
  | vector (element : Element) (items : Array element.Item)

/-- Where the next allocation goes, by how many there were and by what is in the slots. -/
structure Allocator where
  slot : Nat → Slots Object → Nat
  unused : ∀ (made : Nat) (slots : Slots Object), slots.get? (slot made slots) = none

/-- Behind all others, so that no address is given out again. -/
def Allocator.growing : Allocator := ⟨fun _ slots => slots.next, fun _ slots => slots.get?_next⟩

/-- The allocation with handle `h` is in the slot before `h`'s address. -/
structure Heap where
  slots : Slots Object
  /-- How many allocations there were, those that ended included. -/
  made : Nat
  allocator : Allocator

namespace Heap

def empty (a : Allocator) : Heap := ⟨.empty, 0, a⟩

def nextSlot (heap : Heap) : Nat := heap.allocator.slot heap.made heap.slots

/-- The handle that the next allocation gets. -/
def next (heap : Heap) : Handle := ⟨heap.nextSlot + 1, Nat.succ_ne_zero _⟩

def find? (heap : Heap) (h : Handle) : Option Object := heap.slots.get? (h.address - 1)

def allocate (heap : Heap) (o : Object) : Heap :=
  { heap with slots := heap.slots.place heap.nextSlot o, made := heap.made + 1 }

/-- Puts `o` in the place of what the allocation held. -/
def replace (heap : Heap) (h : Handle) (o : Object) : Heap :=
  { heap with slots := heap.slots.put (h.address - 1) o }

/-- Ends an allocation. -/
def release (heap : Heap) (h : Handle) : Heap := { heap with slots := heap.slots.clear (h.address - 1) }

theorem find?_empty (a : Allocator) (h : Handle) : (empty a).find? h = none := by
  simp [empty, find?, Slots.get?_empty]

theorem slot_injective {a b : Handle} (h : a.address - 1 = b.address - 1) : a = b := by
  have := a.ne_null
  have := b.ne_null
  exact Handle.ext_address (by omega)

theorem find?_allocate (heap : Heap) (o : Object) (h : Handle) :
    (heap.allocate o).find? h = if h = heap.next then some o else heap.find? h := by
  simp only [allocate, find?, Slots.get?_place]
  by_cases e : h = heap.next
  · subst e; simp [next]
  · have : h.address - 1 ≠ heap.nextSlot := fun e' => e (slot_injective e')
    simp [e, this]

theorem find?_next (heap : Heap) : heap.find? heap.next = none :=
  heap.allocator.unused heap.made heap.slots

theorem find?_replace {heap : Heap} {h : Handle} {old : Object} (live : heap.find? h = some old)
    (o : Object) (g : Handle) :
    (heap.replace h o).find? g = if g = h then some o else heap.find? g := by
  have hlt := Slots.lt_next_of_get? live
  simp only [replace, find?, Slots.get?_put]
  by_cases e : g = h
  · subst e; simp [hlt]
  · have : h.address - 1 ≠ g.address - 1 := fun e' => e (slot_injective e').symm
    simp [e, this]

theorem find?_release (heap : Heap) (h g : Handle) :
    (heap.release h).find? g = if g = h then none else heap.find? g := by
  simp only [release, find?, Slots.get?_clear]
  by_cases e : g = h
  · subst e; simp
  · have : h.address - 1 ≠ g.address - 1 := fun e' => e (slot_injective e').symm
    simp [e, this]

end Heap

end Custody
