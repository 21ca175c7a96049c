import Mathlib.Data.List.Infix

namespace Find

variable {α : Type} [DecidableEq α]

/-- Position of the first occurrence of `pat` in a list, as `std::string::find`
reports it; `none` stands for `npos`. -/
def find (pat : List α) : List α → Option Nat
  | [] => if pat = [] then some 0 else none
  | x :: xs => if pat <+: x :: xs then some 0 else (find pat xs).map (· + 1)

theorem find_cons_here {pat xs : List α} {x : α} (starts : pat <+: x :: xs) :
    find pat (x :: xs) = some 0 := by
  simp only [find, starts, if_true]

theorem find_cons_later {pat xs : List α} {x : α} (differs : ¬ pat <+: x :: xs) :
    find pat (x :: xs) = (find pat xs).map (· + 1) := by
  simp only [find, differs, if_false]

/-- A reported position is a real occurrence that lies inside the list. -/
theorem find_bound {pat s : List α} {k : Nat} (found : find pat s = some k) :
    k + pat.length ≤ s.length := by
  induction s generalizing k with
  | nil =>
    unfold find at found
    split at found
    · rename_i empty
      cases Option.some.inj found
      simp [empty]
    · simp at found
  | cons x xs ih =>
    by_cases starts : pat <+: x :: xs
    · rw [find_cons_here starts] at found
      cases Option.some.inj found
      simpa using starts.length_le
    · rw [find_cons_later starts] at found
      obtain ⟨j, inner, rfl⟩ := Option.map_eq_some_iff.mp found
      have bound := ih inner
      simp only [List.length_cons]
      omega

/-- What was found stays found, at the same place, when more input arrives. -/
theorem find_append {pat s : List α} {k : Nat} (found : find pat s = some k) (t : List α) :
    find pat (s ++ t) = some k := by
  induction s generalizing k with
  | nil =>
    unfold find at found
    split at found
    · rename_i empty
      cases Option.some.inj found
      subst empty
      cases t <;> simp [find]
    · simp at found
  | cons x xs ih =>
    have bound := find_bound found
    by_cases starts : pat <+: x :: xs
    · rw [find_cons_here starts] at found
      cases Option.some.inj found
      exact find_cons_here (starts.trans (List.prefix_append _ _))
    · rw [find_cons_later starts] at found
      obtain ⟨j, inner, rfl⟩ := Option.map_eq_some_iff.mp found
      have later : ¬ pat <+: x :: (xs ++ t) := by
        intro starts'
        have short : pat.length ≤ (x :: xs).length := by omega
        exact starts (List.prefix_of_prefix_length_le starts' (List.prefix_append (x :: xs) t) short)
      rw [List.cons_append, find_cons_later later, ih inner]
      rfl

/-- A prefix that ends before the first occurrence is complete holds none. -/
theorem find_before {pat s t : List α} {k : Nat} (found : find pat t = some k)
    (starts : s <+: t) (short : s.length < k + pat.length) : find pat s = none := by
  cases inner : find pat s with
  | none => rfl
  | some j =>
    obtain ⟨rest, rfl⟩ := starts
    have same := (find_append inner rest).symm.trans found
    cases Option.some.inj same
    have bound := find_bound inner
    omega

/-- A pattern is found right after text that does not contain its first element. -/
theorem find_of_head_not_mem {c : α} {cs s : List α} (absent : c ∉ s) (t : List α) :
    find (c :: cs) (s ++ (c :: cs) ++ t) = some s.length := by
  induction s with
  | nil =>
    rw [List.nil_append, List.cons_append, find_cons_here]
    · rfl
    · exact List.prefix_append (c :: cs) t
  | cons x xs ih =>
    have other : ¬ c :: cs <+: x :: (xs ++ (c :: cs) ++ t) := by
      intro starts
      have same := (List.cons_prefix_cons.mp starts).1
      exact absent (by simp [same])
    rw [List.cons_append, List.cons_append, find_cons_later other,
      ih (fun member => absent (List.mem_cons_of_mem _ member))]
    rfl

end Find
