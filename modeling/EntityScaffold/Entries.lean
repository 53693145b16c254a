/- Entries in the order of their first arrival: a later value for a key takes the place of the earlier one. -/

namespace EntityScaffold.Entries

variable {κ : Type} {ν : Type}

/-- Sets the value of a key, where the keys are compared by the given test: in its place if the key is there, else at the end. -/
def putBy (same : κ → κ → Bool) (key : κ) (value : ν) : List (κ × ν) → List (κ × ν)
  | [] => [(key, value)]
  | (k, v) :: r => if same k key then (k, value) :: r else (k, v) :: putBy same key value r

def put [DecidableEq κ] (key : κ) (value : ν) (entries : List (κ × ν)) : List (κ × ν) :=
  putBy (fun k l => k = l) key value entries

def get? [DecidableEq κ] (key : κ) (entries : List (κ × ν)) : Option ν :=
  (entries.find? fun e => e.1 = key).map (·.2)

@[simp] theorem get?_nil [DecidableEq κ] (key : κ) : get? key ([] : List (κ × ν)) = none := rfl

theorem get?_cons [DecidableEq κ] (key k : κ) (v : ν) (r : List (κ × ν)) :
    get? key ((k, v) :: r) = if k = key then some v else get? key r := by
  by_cases h : k = key <;> simp [get?, h]

theorem get?_put_self [DecidableEq κ] (key : κ) (value : ν) (entries : List (κ × ν)) :
    get? key (put key value entries) = some value := by
  induction entries with
  | nil => simp [put, putBy, get?_cons]
  | cons e r ih =>
    obtain ⟨k, v⟩ := e
    by_cases h : k = key
    · simp [put, putBy, h, get?_cons]
    · simpa [put, putBy, h, get?_cons] using ih

/-- A new value for one key leaves all other keys alone. -/
theorem get?_put_of_ne [DecidableEq κ] {key other : κ} (h : other ≠ key) (value : ν) (entries : List (κ × ν)) :
    get? other (put key value entries) = get? other entries := by
  induction entries with
  | nil => simp [put, putBy, get?_cons, Ne.symm h]
  | cons e r ih =>
    obtain ⟨k, v⟩ := e
    by_cases hk : k = key
    · subst hk
      simp [put, putBy, get?_cons, Ne.symm h]
    · have := ih
      simp only [put] at this
      simp [put, putBy, hk, get?_cons, this]

end EntityScaffold.Entries
