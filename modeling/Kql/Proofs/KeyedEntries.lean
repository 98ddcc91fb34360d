import Kql.Keyed
import Mathlib.Data.List.Induction
import Mathlib.Data.List.Nodup

/-!
What is left of entries that were put into a list one after another. A key stands where it was first
mentioned, with the entry that was put last, so no key comes twice. No entry is lost exactly when no
key is mentioned twice.
-/

namespace Kql

theorem eraseDups_concat {α : Type} [DecidableEq α] (l : List α) (a : α) :
    (l ++ [a]).eraseDups = if a ∈ l then l.eraseDups else l.eraseDups ++ [a] := by
  rw [List.eraseDups_append]
  by_cases mentioned : a ∈ l
  · simp [List.cons_removeAll, mentioned]
  · simp [List.cons_removeAll, List.eraseDups_cons, mentioned]

theorem eraseDups_of_nodup {α : Type} [DecidableEq α] {l : List α} (h : l.Nodup) :
    l.eraseDups = l := by
  induction l using List.reverseRecOn with
  | nil => rfl
  | append_singleton earlier a ih =>
      rw [← List.concat_eq_append, List.nodup_concat] at h
      rw [eraseDups_concat, if_neg h.1, ih h.2]

namespace Keyed

variable {α κ : Type} [DecidableEq κ] {key : α → κ}

/-! ## Keys and entries -/

theorem nodup_map_put (key : α → κ) (entry : α) (l : List α) (h : (l.map key).Nodup) :
    ((put key entry l).map key).Nodup := by
  rw [map_put]
  split
  · exact h
  · next fresh =>
    rw [← List.concat_eq_append]
    exact h.concat fresh

theorem nodup_map_putAll (key : α → κ) (entries : List α) {l : List α} (h : (l.map key).Nodup) :
    ((putAll key entries l).map key).Nodup := by
  induction entries generalizing l with
  | nil => exact h
  | cons e rest ih => exact ih (nodup_map_put key e l h)

/-- New keys come out behind those that were there, in the order of first mention. -/
theorem map_putAll (key : α → κ) (entries l : List α) :
    (putAll key entries l).map key =
      l.map key ++ ((entries.map key).filter fun k => k ∉ l.map key).eraseDups := by
  induction entries using List.reverseRecOn with
  | nil => rw [putAll_nil, List.map_nil, List.filter_nil, List.eraseDups_nil, List.append_nil]
  | append_singleton earlier e ih =>
      rw [putAll_append, putAll_cons, putAll_nil, map_put, ih, List.map_append, List.map_singleton,
        List.filter_append, List.filter_singleton]
      by_cases present : key e ∈ l.map key
      · simp only [present, List.mem_append, true_or, if_true, not_true, decide_false, cond_false,
          List.append_nil]
      · simp only [present, List.mem_append, false_or, not_false_iff, decide_true, cond_true,
          List.mem_eraseDups, eraseDups_concat, List.mem_filter, and_true]
        split
        · rfl
        · rw [List.append_assoc]

theorem map_putAll_nil (key : α → κ) (entries : List α) :
    (putAll key entries []).map key = (entries.map key).eraseDups := by
  rw [map_putAll, List.map_nil, List.nil_append]
  simp only [List.not_mem_nil, not_false_iff, decide_true, List.filter_true]

theorem find?_put (key : α → κ) (k : κ) (entry : α) (l : List α) :
    find? key k (put key entry l) = if key entry = k then some entry else find? key k l := by
  induction l with
  | nil =>
      by_cases hk : key entry = k <;> simp [put, find?, hk]
  | cons e rest ih =>
      simp only [find?] at ih
      by_cases same : key e = key entry
      · by_cases hk : key entry = k <;> simp [put, find?, same, hk]
      · by_cases hk : key e = k
        · have other : key entry ≠ k := fun h => same (hk.trans h.symm)
          simp [put, find?, hk, other, Ne.symm other]
        · simp [put, find?, same, hk, ih]

/-- The entry of a key is the last one that was put with it. -/
theorem find?_putAll (key : α → κ) (k : κ) (entries l : List α) :
    find? key k (putAll key entries l) = (find? key k entries.reverse).or (find? key k l) := by
  induction entries generalizing l with
  | nil => rfl
  | cons e rest ih =>
      rw [putAll_cons, ih, find?_put, List.reverse_cons]
      simp only [find?, List.find?_append, List.find?_singleton, decide_eq_true_eq]
      by_cases hk : key e = k <;> simp [hk]

/-- Where no key comes twice, an entry is found by its key, and no other one has that key. -/
theorem find?_eq_some_iff {l : List α} (h : (l.map key).Nodup) {k : κ} {e : α} :
    find? key k l = some e ↔ l.filter (fun e => key e = k) = [e] := by
  induction l with
  | nil => simp [find?]
  | cons first rest ih =>
      rw [List.map_cons, List.nodup_cons] at h
      by_cases hk : key first = k
      · have alone : rest.filter (fun e => key e = k) = [] := by
          rw [List.filter_eq_nil_iff]
          intro other hm same
          exact h.1 (List.mem_map.mpr ⟨other, hm, (of_decide_eq_true same).trans hk.symm⟩)
        simp [find?, hk, alone]
      · have later := ih h.2
        simpa [find?, hk] using later

/-! ## Entries without repetition -/

theorem putAll_eq_append {entries l : List α} (h : ((l ++ entries).map key).Nodup) :
    putAll key entries l = l ++ entries := by
  induction entries generalizing l with
  | nil => simp
  | cons e rest ih =>
      rw [List.append_cons] at h ⊢
      have fresh : key e ∉ l.map key := by
        rw [List.map_append, List.map_append] at h
        have front := List.Nodup.of_append_left h
        rw [List.map_singleton, ← List.concat_eq_append, List.nodup_concat] at front
        exact front.1
      rw [putAll_cons, put_of_notMem key e l fresh, ih h]

theorem length_put (key : α → κ) (entry : α) (l : List α) :
    (put key entry l).length = if key entry ∈ l.map key then l.length else l.length + 1 := by
  have same := congrArg List.length (map_put key entry l)
  rw [List.length_map] at same
  rw [same]
  split <;> simp

theorem length_putAll_le (key : α → κ) (entries l : List α) :
    (putAll key entries l).length ≤ l.length + entries.length := by
  induction entries generalizing l with
  | nil => simp
  | cons e rest ih =>
      have whole := ih (put key e l)
      rw [length_put] at whole
      rw [putAll_cons, List.length_cons]
      split at whole <;> omega

/-- A key that is mentioned again costs an entry, and nothing that is put later makes up for it. -/
theorem length_putAll_iff {entries l : List α} (h : (l.map key).Nodup) :
    (putAll key entries l).length = l.length + entries.length ↔
      ((l ++ entries).map key).Nodup := by
  constructor
  · induction entries generalizing l with
    | nil => simpa using h
    | cons e rest ih =>
        intro whole
        rw [putAll_cons, List.length_cons] at whole
        have fresh : key e ∉ l.map key := by
          intro mentioned
          have short := length_putAll_le key rest (put key e l)
          rw [length_put, if_pos mentioned] at short
          omega
        have next := nodup_map_put key e l h
        rw [put_of_notMem key e l fresh] at next whole
        rw [List.append_cons]
        apply ih next
        rw [whole, List.length_append, List.length_singleton]
        omega
  · intro nodup
    rw [putAll_eq_append nodup, List.length_append]

theorem putAll_eq_append_iff {entries l : List α} (h : (l.map key).Nodup) :
    putAll key entries l = l ++ entries ↔ ((l ++ entries).map key).Nodup := by
  constructor
  · intro whole
    rw [← length_putAll_iff h, whole, List.length_append]
  · exact putAll_eq_append

theorem put_of_mem {entry : α} {l : List α} (h : (l.map key).Nodup) (hm : entry ∈ l) :
    put key entry l = l := by
  induction l with
  | nil => cases hm
  | cons e rest ih =>
      rw [List.map_cons, List.nodup_cons] at h
      rw [put]
      rcases List.mem_cons.mp hm with rfl | later
      · rw [if_pos rfl]
      · have other : key e ≠ key entry := by
          intro same
          exact h.1 (same ▸ List.mem_map_of_mem later)
        rw [if_neg other, ih h.2 later]

/-! ## Last entries -/

/-- Where no key comes twice, the last entry of a key is the first one. -/
theorem find?_reverse {l : List α} (h : (l.map key).Nodup) (k : κ) :
    find? key k l.reverse = find? key k l := by
  have put := find?_putAll key k l []
  have nothing : find? key k ([] : List α) = none := rfl
  rwa [putAll_eq_append h, List.nil_append, nothing, Option.or_none, eq_comm] at put

/-- The entry is in the list, and none behind it has its key. -/
def IsLast (key : α → κ) (entry : α) (l : List α) : Prop :=
  ∃ before after, l = before ++ entry :: after ∧ key entry ∉ after.map key

omit [DecidableEq κ] in
theorem isLast_map_iff {β : Type} {f : β → α} {entry : α} {l : List β} :
    IsLast key entry (l.map f) ↔ ∃ b, f b = entry ∧ IsLast (fun b => key (f b)) b l := by
  constructor
  · rintro ⟨_, _, split, last⟩
    obtain ⟨before, behind, rfl, rfl, hbehind⟩ := List.map_eq_append_iff.mp split
    obtain ⟨b, after, rfl, rfl, rfl⟩ := List.map_eq_cons_iff.mp hbehind
    exact ⟨b, rfl, before, after, rfl, by rwa [List.map_map] at last⟩
  · rintro ⟨b, rfl, before, after, rfl, last⟩
    exact ⟨before.map f, after.map f, List.map_append, by rwa [List.map_map]⟩

theorem find?_reverse_eq_some_iff {l : List α} {k : κ} {entry : α} :
    find? key k l.reverse = some entry ↔ key entry = k ∧ IsLast key entry l := by
  rw [find?, List.find?_eq_some_iff_append, decide_eq_true_eq]
  refine and_congr_right fun hk => ⟨?_, ?_⟩
  · rintro ⟨after, before, split, later⟩
    refine ⟨before.reverse, after.reverse, ?_, ?_⟩
    · rw [← List.reverse_reverse l, split]
      simp
    · intro hm
      obtain ⟨a, ha, same⟩ := List.mem_map.mp hm
      have other := later a (List.mem_reverse.mp ha)
      simp [same, hk] at other
  · rintro ⟨before, after, rfl, later⟩
    refine ⟨after.reverse, before.reverse, by simp, fun a ha => ?_⟩
    have other : key a ≠ k := fun same =>
      later (hk ▸ same ▸ List.mem_map_of_mem (List.mem_reverse.mp ha))
    simp [other]

theorem find?_reverse_eq_none_iff {l : List α} {k : κ} :
    find? key k l.reverse = none ↔ k ∉ l.map key := by
  simp [find?]

/-- Where no key comes twice, an entry is in the list exactly when its key leads to it. -/
theorem mem_iff_find? {l : List α} (h : (l.map key).Nodup) {entry : α} :
    entry ∈ l ↔ find? key (key entry) l = some entry := by
  refine ⟨fun hm => ?_, List.mem_of_find?_eq_some⟩
  obtain ⟨before, after, rfl⟩ := List.append_of_mem hm
  rw [← find?_reverse h, find?_reverse_eq_some_iff]
  refine ⟨rfl, before, after, rfl, ?_⟩
  rw [List.map_append, List.map_cons] at h
  exact (List.nodup_cons.mp h.of_append_right).1

/-- An entry that was there before is left where none was put with its key. -/
theorem mem_putAll_iff {entries l : List α} (h : (l.map key).Nodup) {entry : α} :
    entry ∈ putAll key entries l ↔
      IsLast key entry entries ∨ key entry ∉ entries.map key ∧ entry ∈ l := by
  rw [mem_iff_find? (nodup_map_putAll key entries h), find?_putAll, Option.or_eq_some_iff,
    find?_reverse_eq_some_iff, find?_reverse_eq_none_iff, ← mem_iff_find? h, eq_self_iff_true, true_and]

/-! ## Entries that their keys determine -/

section

variable {f : κ → α}

theorem find?_map (hf : ∀ k, key (f k) = k) (k : κ) (keys : List κ) :
    find? key k (keys.map f) = if k ∈ keys then some (f k) else none := by
  induction keys with
  | nil => rfl
  | cons first rest ih =>
      simp only [find?] at ih
      by_cases hk : first = k
      · simp [find?, hf, hk]
      · simp [find?, hf, hk, ih, Ne.symm hk]

/-- Where the key determines the entry, putting it again changes nothing. -/
theorem putAll_map_nil (hf : ∀ k, key (f k) = k) (keys : List κ) :
    putAll key (keys.map f) [] = keys.eraseDups.map f := by
  induction keys using List.reverseRecOn with
  | nil => rfl
  | append_singleton earlier k ih =>
      have nodup := nodup_map_putAll key (earlier.map f) (l := []) List.nodup_nil
      have back : (earlier.eraseDups.map f).map key = earlier.eraseDups := by
        rw [List.map_map]
        exact List.map_id'' hf _
      rw [List.map_append, List.map_singleton, putAll_append, putAll_cons, putAll_nil, ih,
        eraseDups_concat]
      rw [ih] at nodup
      by_cases mentioned : k ∈ earlier
      · rw [if_pos mentioned]
        exact put_of_mem nodup (List.mem_map_of_mem (List.mem_eraseDups.mpr mentioned))
      · rw [if_neg mentioned, List.map_append, List.map_singleton]
        apply put_of_notMem
        rwa [back, hf, List.mem_eraseDups]

end

end Keyed
end Kql
