import Mathlib.Order.Lattice
import Mathlib.Data.List.Basic

/-!
# Finite sets kept in order

A strictly increasing list is the observable content of a balanced-tree set:
membership, insertion, removal and iteration in key order.  The order is part
of the type, so a set with a repeated or misplaced element cannot be built.
-/

namespace MuduoChat

/-- A finite set presented by its elements in strictly increasing order. -/
structure OrderedSet (α : Type*) [LinearOrder α] where
  elems : List α
  sorted : elems.Pairwise (· < ·)
  deriving DecidableEq

namespace OrderedSet

variable {α : Type*} [LinearOrder α]

instance : Membership α (OrderedSet α) where
  mem set value := value ∈ set.elems

instance (value : α) (set : OrderedSet α) : Decidable (value ∈ set) :=
  inferInstanceAs (Decidable (value ∈ set.elems))

def empty : OrderedSet α := ⟨[], List.Pairwise.nil⟩

instance : EmptyCollection (OrderedSet α) := ⟨empty⟩

instance : Inhabited (OrderedSet α) := ⟨empty⟩

def insertElems (value : α) : List α → List α
  | [] => [value]
  | first :: rest =>
      if value < first then value :: first :: rest
      else if value = first then first :: rest
      else first :: insertElems value rest

theorem mem_insertElems {value other : α} {elems : List α} :
    other ∈ insertElems value elems ↔ other = value ∨ other ∈ elems := by
  induction elems with
  | nil => simp [insertElems]
  | cons first rest ih =>
      unfold insertElems
      split_ifs with hlt heq
      · simp
      · subst heq
        simp
      · simp only [List.mem_cons, ih]
        tauto

theorem sorted_insertElems {value : α} {elems : List α}
    (hsorted : elems.Pairwise (· < ·)) :
    (insertElems value elems).Pairwise (· < ·) := by
  induction elems with
  | nil => simp [insertElems]
  | cons first rest ih =>
      obtain ⟨hfirst, hrest⟩ := List.pairwise_cons.mp hsorted
      unfold insertElems
      split_ifs with hlt heq
      · have hleast : ∀ other ∈ first :: rest, value < other := by
          intro other hother
          rcases List.mem_cons.mp hother with rfl | hmem
          · exact hlt
          · exact hlt.trans (hfirst other hmem)
        exact List.pairwise_cons.mpr ⟨hleast, hsorted⟩
      · exact hsorted
      · have hleast : ∀ other ∈ insertElems value rest, first < other := by
          intro other hother
          rcases mem_insertElems.mp hother with rfl | hmem
          · exact lt_of_le_of_ne (not_lt.mp hlt) (Ne.symm heq)
          · exact hfirst other hmem
        exact List.pairwise_cons.mpr ⟨hleast, ih hrest⟩

def insert (set : OrderedSet α) (value : α) : OrderedSet α :=
  ⟨insertElems value set.elems, sorted_insertElems set.sorted⟩

def erase (set : OrderedSet α) (value : α) : OrderedSet α :=
  ⟨set.elems.filter (· ≠ value), set.sorted.filter _⟩

@[simp] theorem mem_insert {set : OrderedSet α} {value other : α} :
    other ∈ set.insert value ↔ other = value ∨ other ∈ set :=
  mem_insertElems

@[simp] theorem mem_erase {set : OrderedSet α} {value other : α} :
    other ∈ set.erase value ↔ other ∈ set ∧ other ≠ value := by
  show other ∈ set.elems.filter _ ↔ other ∈ set.elems ∧ _
  simp

@[simp] theorem not_mem_empty {value : α} : value ∉ (∅ : OrderedSet α) :=
  List.not_mem_nil

end OrderedSet

end MuduoChat
