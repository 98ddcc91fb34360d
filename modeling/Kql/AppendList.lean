/-!
Lists that grow at the end and share what they were built from. The entries are held newest first,
so a new entry costs one node and leaves every earlier list as it was; the size is stored beside
them. `toList` is the view, oldest entry first.
-/

namespace Kql

structure AppendList (α : Type) where
  newestFirst : List α
  size : Nat

namespace AppendList

variable {α : Type}

def empty : AppendList α := ⟨[], 0⟩

instance : EmptyCollection (AppendList α) := ⟨empty⟩

def push (l : AppendList α) (a : α) : AppendList α := ⟨a :: l.newestFirst, l.size + 1⟩

/-- The entries, oldest first. -/
def toList (l : AppendList α) : List α := l.newestFirst.reverse

def newest? (l : AppendList α) : Option α := l.newestFirst.head?

/-- The stored size is the number of entries. -/
def Sized (l : AppendList α) : Prop := l.size = l.toList.length

@[simp] theorem toList_empty : (∅ : AppendList α).toList = [] := rfl

@[simp] theorem toList_push (l : AppendList α) (a : α) : (l.push a).toList = l.toList ++ [a] := by
  simp [push, toList]

@[simp] theorem size_push (l : AppendList α) (a : α) : (l.push a).size = l.size + 1 := rfl

theorem sized_empty : (∅ : AppendList α).Sized := rfl

theorem Sized.push {l : AppendList α} (h : l.Sized) (a : α) : (l.push a).Sized := by
  simp only [Sized, size_push, toList_push, List.length_append, List.length_singleton]
  exact congrArg (· + 1) h

/-! Entries that are pushed one after another. -/

theorem toList_foldl_push (entries : List α) (l : AppendList α) :
    (entries.foldl push l).toList = l.toList ++ entries := by
  induction entries generalizing l with
  | nil => exact (List.append_nil _).symm
  | cons a rest ih => rw [List.foldl_cons, ih, toList_push, List.append_assoc, List.singleton_append]

theorem Sized.foldl_push {l : AppendList α} (h : l.Sized) (entries : List α) :
    (entries.foldl AppendList.push l).Sized := by
  induction entries generalizing l with
  | nil => exact h
  | cons a rest ih => exact ih (h.push a)

end AppendList
end Kql
