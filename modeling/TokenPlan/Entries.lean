/-!
Entries under keys, in the order in which the keys were first set.
-/

set_option autoImplicit false
set_option relaxedAutoImplicit false

namespace TokenPlan.Entries

/-- Sets the value under a key: a new key goes to the end, a known one keeps its place. -/
def set {α : Type} (key : String) (value : α) : List (String × α) → List (String × α)
  | [] => [(key, value)]
  | entry :: entries =>
    if entry.1 = key then (key, value) :: entries else entry :: set key value entries

def get? {α : Type} (key : String) (entries : List (String × α)) : Option α :=
  (entries.find? fun entry => entry.1 = key).map Prod.snd

theorem set_of_not_mem {α : Type} {key : String} (value : α) {entries : List (String × α)}
    (fresh : key ∉ entries.map Prod.fst) : set key value entries = entries ++ [(key, value)] := by
  induction entries with
  | nil => rfl
  | cons entry entries ih =>
    simp only [List.map_cons, List.mem_cons, not_or] at fresh
    simp [set, Ne.symm fresh.1, ih fresh.2]

theorem get?_set_self {α : Type} (key : String) (value : α) (entries : List (String × α)) :
    get? key (set key value entries) = some value := by
  induction entries with
  | nil => simp [set, get?]
  | cons entry entries ih =>
    by_cases same : entry.1 = key
    · simp [set, get?, same]
    · simpa [set, get?, same] using ih

theorem get?_set_of_ne {α : Type} {key other : String} (different : other ≠ key) (value : α)
    (entries : List (String × α)) : get? other (set key value entries) = get? other entries := by
  induction entries with
  | nil => simp [set, get?, Ne.symm different]
  | cons entry entries ih =>
    by_cases same : entry.1 = key
    · simp [set, get?, same, Ne.symm different]
    · by_cases found : entry.1 = other
      · simp [set, get?, found, different]
      · simpa [set, get?, same, found] using ih

end TokenPlan.Entries
