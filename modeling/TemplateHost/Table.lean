/-!
# Tables in order of arrival

A table keeps its keys in the order in which they first arrived. Setting a present key replaces its
value and moves nothing; erasing a key and setting it again puts it at the end.
-/
namespace TemplateHost

structure Table (κ ν : Type) where
  entries : List (κ × ν)

namespace Table
variable {κ ν : Type} [DecidableEq κ]

def empty : Table κ ν := ⟨[]⟩

instance : Inhabited (Table κ ν) := ⟨empty⟩

def keys (t : Table κ ν) : List κ := t.entries.map (·.1)

def values (t : Table κ ν) : List ν := t.entries.map (·.2)

def find (k : κ) : List (κ × ν) → Option ν
  | [] => none
  | (j, v) :: r => if j = k then some v else find k r

def get? (t : Table κ ν) (k : κ) : Option ν := find k t.entries

def contains (t : Table κ ν) (k : κ) : Bool := (t.get? k).isSome

def put (k : κ) (v : ν) : List (κ × ν) → List (κ × ν)
  | [] => [(k, v)]
  | (j, w) :: r => if j = k then (j, v) :: r else (j, w) :: put k v r

def set (t : Table κ ν) (k : κ) (v : ν) : Table κ ν := ⟨put k v t.entries⟩

def erase (t : Table κ ν) (k : κ) : Table κ ν := ⟨t.entries.filter fun e => e.1 ≠ k⟩

def ofList (l : List (κ × ν)) : Table κ ν := l.foldl (fun t e => t.set e.1 e.2) empty

theorem find_put_self (k : κ) (v : ν) (l : List (κ × ν)) : find k (put k v l) = some v := by
  induction l with
  | nil => simp [put, find]
  | cons e r ih => by_cases h : e.1 = k <;> simp_all [put, find]

theorem find_put_ne {k j : κ} (h : j ≠ k) (v : ν) (l : List (κ × ν)) :
    find j (put k v l) = find j l := by
  induction l with
  | nil => simp [put, find, h.symm]
  | cons e r ih =>
    by_cases hk : e.1 = k
    · simp [put, find, hk, h.symm]
    · by_cases hj : e.1 = j <;> simp_all [put, find]

@[simp] theorem get?_set_self (t : Table κ ν) (k : κ) (v : ν) : (t.set k v).get? k = some v :=
  find_put_self k v t.entries

@[simp] theorem get?_set_ne (t : Table κ ν) {k j : κ} (h : j ≠ k) (v : ν) :
    (t.set k v).get? j = t.get? j := find_put_ne h v t.entries

@[simp] theorem get?_empty (k : κ) : (empty : Table κ ν).get? k = none := rfl

theorem find_filter_self (k : κ) (l : List (κ × ν)) :
    find k (l.filter fun e => e.1 ≠ k) = none := by
  induction l with
  | nil => rfl
  | cons e r ih => by_cases h : e.1 = k <;> simp_all [find]

theorem find_filter_ne {k j : κ} (h : j ≠ k) (l : List (κ × ν)) :
    find j (l.filter fun e => e.1 ≠ k) = find j l := by
  induction l with
  | nil => rfl
  | cons e r ih =>
    by_cases hk : e.1 = k
    · simpa [find, hk, h.symm] using ih
    · by_cases hj : e.1 = j <;> simp_all [find]

@[simp] theorem get?_erase_self (t : Table κ ν) (k : κ) : (t.erase k).get? k = none :=
  find_filter_self k t.entries

@[simp] theorem get?_erase_ne (t : Table κ ν) {k j : κ} (h : j ≠ k) :
    (t.erase k).get? j = t.get? j := find_filter_ne h t.entries

theorem find_isSome_iff (k : κ) (l : List (κ × ν)) :
    (find k l).isSome ↔ k ∈ l.map (·.1) := by
  induction l with
  | nil => simp [find]
  | cons e r ih =>
    by_cases h : e.1 = k
    · simp [find, h]
    · simp [find, h, ih, Ne.symm h]

theorem contains_iff (t : Table κ ν) (k : κ) : t.contains k = true ↔ k ∈ t.keys :=
  find_isSome_iff k t.entries

theorem keys_put_of_mem {k : κ} (v : ν) (l : List (κ × ν)) (h : k ∈ l.map (·.1)) :
    (put k v l).map (·.1) = l.map (·.1) := by
  induction l with
  | nil => simp at h
  | cons e r ih =>
    by_cases hk : e.1 = k
    · simp [put, hk]
    · simp only [List.map_cons, List.mem_cons] at h
      simp [put, hk, ih (h.resolve_left (Ne.symm hk))]

theorem keys_put_of_not_mem {k : κ} (v : ν) (l : List (κ × ν)) (h : k ∉ l.map (·.1)) :
    (put k v l).map (·.1) = l.map (·.1) ++ [k] := by
  induction l with
  | nil => simp [put]
  | cons e r ih =>
    simp only [List.map_cons, List.mem_cons, not_or] at h
    simp [put, Ne.symm h.1, ih h.2]

theorem keys_set_of_mem (t : Table κ ν) {k : κ} (v : ν) (h : k ∈ t.keys) :
    (t.set k v).keys = t.keys := keys_put_of_mem v t.entries h

theorem keys_set_of_not_mem (t : Table κ ν) {k : κ} (v : ν) (h : k ∉ t.keys) :
    (t.set k v).keys = t.keys ++ [k] := keys_put_of_not_mem v t.entries h

theorem keys_erase (t : Table κ ν) (k : κ) : (t.erase k).keys = t.keys.filter (· ≠ k) := by
  simp [erase, keys, List.filter_map, Function.comp_def]

end Table

end TemplateHost
