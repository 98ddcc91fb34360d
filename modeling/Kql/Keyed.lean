/-!
Lists of keyed entries in which a later entry takes the place of an earlier one with the same key.
The order is that of first mention and the content that of last mention.
-/

namespace Kql.Keyed

variable {α κ : Type} [DecidableEq κ]

/-- Puts `entry` in the place of the first entry with its key, or at the end when there is none. -/
def put (key : α → κ) (entry : α) : List α → List α
  | [] => [entry]
  | e :: rest => if key e = key entry then entry :: rest else e :: put key entry rest

/-- Puts each of `entries` in turn, the first one first. -/
def putAll (key : α → κ) (entries : List α) (l : List α) : List α :=
  entries.foldl (fun l e => put key e l) l

def find? (key : α → κ) (k : κ) (l : List α) : Option α :=
  l.find? fun e => key e = k

@[simp] theorem putAll_nil (key : α → κ) (l : List α) : putAll key [] l = l := rfl

@[simp] theorem putAll_cons (key : α → κ) (e : α) (es l : List α) :
    putAll key (e :: es) l = putAll key es (put key e l) := rfl

theorem putAll_append (key : α → κ) (es es' l : List α) :
    putAll key (es ++ es') l = putAll key es' (putAll key es l) := by
  simp [putAll]

theorem put_of_notMem (key : α → κ) (entry : α) (l : List α) (h : key entry ∉ l.map key) :
    put key entry l = l ++ [entry] := by
  induction l with
  | nil => rfl
  | cons e rest ih =>
    simp only [List.map_cons, List.mem_cons, not_or] at h
    simp [put, Ne.symm h.1, ih h.2]

theorem map_put (key : α → κ) (entry : α) (l : List α) :
    (put key entry l).map key =
      if key entry ∈ l.map key then l.map key else l.map key ++ [key entry] := by
  induction l with
  | nil => simp [put]
  | cons e rest ih =>
    by_cases h : key e = key entry
    · simp [put, h]
    · have h' : key entry ≠ key e := Ne.symm h
      simp only [put, h, if_false, List.map_cons, ih, List.mem_cons, h', false_or]
      split <;> rfl

theorem mem_put {key : α → κ} {entry a : α} {l : List α} (h : a ∈ put key entry l) :
    a = entry ∨ a ∈ l := by
  induction l with
  | nil => exact .inl (List.mem_singleton.mp h)
  | cons e rest ih =>
    rw [put] at h
    split at h
    · exact (List.mem_cons.mp h).imp_right (List.mem_cons_of_mem _)
    · rcases List.mem_cons.mp h with rfl | hrest
      · exact .inr List.mem_cons_self
      · exact (ih hrest).imp_right (List.mem_cons_of_mem _)

theorem mem_putAll {key : α → κ} {entries l : List α} {a : α} (h : a ∈ putAll key entries l) :
    a ∈ entries ∨ a ∈ l := by
  induction entries generalizing l with
  | nil => exact .inr h
  | cons e es ih =>
    rcases ih h with hes | hput
    · exact .inl (List.mem_cons_of_mem e hes)
    · rcases mem_put hput with rfl | hl
      · exact .inl List.mem_cons_self
      · exact .inr hl

end Kql.Keyed
