import EntityScaffold.Entries
import Mathlib.Data.List.Nodup

/- Entries made one by one: no two of them have one key, and entries for different keys stay in the order they are made in. -/

namespace EntityScaffold.Entries

variable {α κ ν : Type} [DecidableEq κ] {key : κ} {value : ν} {entries : List (κ × ν)}

theorem put_of_not_mem (h : key ∉ entries.map (·.1)) (value : ν) : put key value entries = entries ++ [(key, value)] := by
  induction entries with
  | nil => rfl
  | cons e r ih =>
    obtain ⟨hkey, hr⟩ := not_or.1 (mt List.mem_cons.2 h)
    have rest : putBy (fun k l => decide (k = l)) key value r = r ++ [(key, value)] := ih hr
    simp [put, putBy, Ne.symm hkey, rest]

theorem put_of_get? (h : get? key entries = some value) : put key value entries = entries := by
  induction entries with
  | nil => exact absurd h (by simp)
  | cons e r ih =>
    obtain ⟨k, v⟩ := e
    rw [get?_cons] at h
    rw [put, putBy]
    by_cases same : k = key
    · obtain rfl : v = value := by simpa [same] using h
      simp [same]
    · rw [if_neg (by simpa using same)]
      exact congrArg ((k, v) :: ·) (ih (by simpa [same] using h))

theorem eq_or_mem_of_mem_put {e : κ × ν} (h : e ∈ put key value entries) : e = (key, value) ∨ e ∈ entries := by
  induction entries with
  | nil => exact Or.inl (List.mem_singleton.1 h)
  | cons d r ih =>
    rw [put, putBy] at h
    split at h
    · next same =>
      obtain rfl : d.1 = key := of_decide_eq_true same
      exact (List.mem_cons.1 h).imp_right (List.mem_cons_of_mem d)
    · rcases List.mem_cons.1 h with rfl | h
      · exact Or.inr List.mem_cons_self
      · exact (ih h).imp_right (List.mem_cons_of_mem d)

theorem keys_put_of_mem (h : key ∈ entries.map (·.1)) (value : ν) :
    (put key value entries).map (·.1) = entries.map (·.1) := by
  induction entries with
  | nil => exact absurd h (by simp)
  | cons e r ih =>
    rw [put, putBy]
    split
    · rfl
    · next other =>
      have later : key ∈ r.map (·.1) := (List.mem_cons.1 h).resolve_left fun same => other (decide_eq_true same.symm)
      exact congrArg (e.1 :: ·) (ih later)

theorem nodup_put (distinct : (entries.map (·.1)).Nodup) (key : κ) (value : ν) :
    ((put key value entries).map (·.1)).Nodup := by
  by_cases known : key ∈ entries.map (·.1)
  · rwa [keys_put_of_mem known]
  · rw [put_of_not_mem known, List.map_append]
    exact List.Nodup.append distinct (List.nodup_singleton key) (List.disjoint_singleton.2 known)

variable (keyOf : α → κ) (valueOf : α → ν)

theorem nodup_foldl_put (as : List α) (distinct : (entries.map (·.1)).Nodup) :
    ((as.foldl (fun es a => put (keyOf a) (valueOf a) es) entries).map (·.1)).Nodup := by
  induction as generalizing entries with
  | nil => exact distinct
  | cons a as ih => exact ih (nodup_put distinct (keyOf a) (valueOf a))

theorem foldl_put {as : List α} (entries : List (κ × ν)) (distinct : (entries.map (·.1) ++ as.map keyOf).Nodup) :
    as.foldl (fun es a => put (keyOf a) (valueOf a) es) entries = entries ++ as.map fun a => (keyOf a, valueOf a) := by
  induction as generalizing entries with
  | nil => simp
  | cons a as ih =>
    have new : keyOf a ∉ entries.map (·.1) := fun known => (List.disjoint_of_nodup_append distinct) known List.mem_cons_self
    rw [List.foldl_cons, put_of_not_mem new, ih]
    · simp
    · simpa using distinct

end EntityScaffold.Entries
