import Mathlib.Data.List.Nodup

/-- A `std::unordered_map`: one entry for each key. The order of `entries` is the
order in which an iteration visits them; no operation below promises more. -/
structure UnorderedMap (κ ν : Type) where
  entries : List (κ × ν)
  nodup : (entries.map Prod.fst).Nodup
  deriving DecidableEq, Repr

namespace UnorderedMap

variable {κ ν : Type} [DecidableEq κ]

omit [DecidableEq κ] in
theorem ext_entries {m n : UnorderedMap κ ν} (same : m.entries = n.entries) : m = n := by
  cases m
  cases n
  cases same
  rfl

def empty : UnorderedMap κ ν := ⟨[], List.nodup_nil⟩

instance : Inhabited (UnorderedMap κ ν) := ⟨empty⟩

def find (m : UnorderedMap κ ν) (key : κ) : Option ν :=
  m.entries.lookup key

def count (m : UnorderedMap κ ν) (key : κ) : Nat :=
  if (m.find key).isSome then 1 else 0

theorem lookup_isSome_iff {key : κ} {entries : List (κ × ν)} :
    (entries.lookup key).isSome ↔ key ∈ entries.map Prod.fst := by
  induction entries with
  | nil => simp
  | cons entry rest ih =>
    obtain ⟨name, stored⟩ := entry
    by_cases same : key = name
    · simp [same]
    · simp [List.lookup_cons, beq_false_of_ne same, same, ih]

theorem lookup_map_value {μ : Type} (f : ν → μ) (entries : List (κ × ν)) (key : κ) :
    (entries.map (fun entry => (entry.1, f entry.2))).lookup key = (entries.lookup key).map f := by
  induction entries with
  | nil => rfl
  | cons entry rest ih =>
    obtain ⟨name, stored⟩ := entry
    by_cases same : key = name
    · simp [same]
    · simp [List.lookup_cons, beq_false_of_ne same, ih]

/-- `insert` keeps the entry that is already there. -/
def insert (m : UnorderedMap κ ν) (key : κ) (value : ν) : UnorderedMap κ ν :=
  if absent : key ∈ m.entries.map Prod.fst then m
  else ⟨m.entries ++ [(key, value)], by
    rw [List.map_append, List.map_singleton]
    exact List.Nodup.append m.nodup (List.nodup_singleton key)
      (List.disjoint_singleton.mpr absent)⟩

def erase (m : UnorderedMap κ ν) (key : κ) : UnorderedMap κ ν :=
  ⟨m.entries.filter (fun entry => entry.1 ≠ key),
    (m.nodup.sublist ((List.filter_sublist).map Prod.fst))⟩

@[simp] theorem find_empty (key : κ) : (empty : UnorderedMap κ ν).find key = none := rfl

theorem find_eq_some_iff {m : UnorderedMap κ ν} {key : κ} {value : ν} :
    m.find key = some value ↔ (key, value) ∈ m.entries := by
  obtain ⟨entries, nodup⟩ := m
  simp only [find]
  induction entries with
  | nil => simp
  | cons entry rest ih =>
    obtain ⟨name, stored⟩ := entry
    rw [List.map_cons, List.nodup_cons] at nodup
    by_cases same : key = name
    · subst same
      have fresh : (key, value) ∉ rest := fun member =>
        nodup.1 (List.mem_map.mpr ⟨_, member, rfl⟩)
      simp only [List.lookup_cons, beq_self_eq_true, List.mem_cons, fresh, or_false,
        Option.some.injEq, Prod.mk.injEq, true_and]
      exact eq_comm
    · simp only [List.lookup_cons, beq_false_of_ne same, List.mem_cons, Prod.mk.injEq, same,
        false_and, false_or]
      exact ih nodup.2

theorem find_insert_self {m : UnorderedMap κ ν} {key : κ} (absent : m.find key = none) (value : ν) :
    (m.insert key value).find key = some value := by
  have outside : key ∉ m.entries.map Prod.fst := by
    rw [← lookup_isSome_iff]
    simp only [find] at absent
    simp [absent]
  rw [find_eq_some_iff]
  simp [insert, outside]

theorem find_insert_of_ne {m : UnorderedMap κ ν} {key other : κ} (differs : other ≠ key) (value : ν) :
    (m.insert key value).find other = m.find other := by
  unfold insert
  split
  · rfl
  · simp only [find, List.lookup_append, List.lookup_cons, beq_false_of_ne differs, List.lookup_nil,
      Option.or_none]

theorem insert_of_find {m : UnorderedMap κ ν} {key : κ} {old : ν} (present : m.find key = some old)
    (value : ν) : m.insert key value = m := by
  have inside : key ∈ m.entries.map Prod.fst := by
    rw [← lookup_isSome_iff]
    simp only [find] at present
    simp [present]
  simp [insert, inside]

/-- Of the values inserted under one key the first stays. -/
theorem find_foldl_insert {α : Type} (name : α → κ) (value : α → ν) (inserted : List α) (key : κ)
    (m : UnorderedMap κ ν) :
    (inserted.foldl (fun m x => m.insert (name x) (value x)) m).find key =
      (m.find key).or ((inserted.find? (fun x => name x = key)).map value) := by
  induction inserted generalizing m with
  | nil => simp
  | cons x inserted ih =>
    rw [List.foldl_cons, ih, List.find?_cons]
    by_cases same : name x = key
    · subst same
      cases present : m.find (name x) with
      | none => simp [find_insert_self present]
      | some old => simp [insert_of_find present, present]
    · simp [find_insert_of_ne (Ne.symm same), same]

@[simp] theorem find_erase_self (m : UnorderedMap κ ν) (key : κ) : (m.erase key).find key = none := by
  rw [Option.eq_none_iff_forall_ne_some]
  intro value found
  have member := find_eq_some_iff.mp found
  simp [erase] at member

theorem find_erase_of_ne {m : UnorderedMap κ ν} {key other : κ} (differs : other ≠ key) :
    (m.erase key).find other = m.find other := by
  ext value
  simp only [find_eq_some_iff, erase, List.mem_filter, decide_eq_true_eq]
  constructor
  · exact fun member => member.1
  · exact fun member => ⟨member, differs⟩

theorem erase_of_find_none {m : UnorderedMap κ ν} {key : κ} (absent : m.find key = none) :
    m.erase key = m := by
  have outside : key ∉ m.entries.map Prod.fst := by
    rw [← lookup_isSome_iff]
    simp only [find] at absent
    simp [absent]
  apply ext_entries
  simp only [erase, ne_eq, decide_not]
  refine List.filter_eq_self.mpr (fun entry member => ?_)
  have differs : entry.1 ≠ key := fun same => outside (same ▸ List.mem_map.mpr ⟨entry, member, rfl⟩)
  simp [differs]

end UnorderedMap
