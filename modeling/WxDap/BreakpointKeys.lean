import Mathlib
import WxDap.Messages.Requests

namespace WxDap

/-! ### Equality and the hashed values -/

namespace Breakpoint

/-- `operator==` -/
def equals (a other : Breakpoint) : Bool :=
  (a.source.path ≠ "" && a.source.path = other.source.path && a.line = other.line) ||
    (a.source.name ≠ "" && a.source.name = other.source.name) ||
    a.source.sourceReference = other.source.sourceReference

/-- The text that is hashed. -/
def hashKey (b : Breakpoint) : String := b.source.path ++ b.source.name ++ toString b.line.toInt

end Breakpoint

namespace SourceBreakpoint

def equals (a other : SourceBreakpoint) : Bool := a.line = other.line

/-- The line as a `size_t`. -/
def hashKey (b : SourceBreakpoint) : Nat := (b.line.toInt % 2 ^ 64).toNat

end SourceBreakpoint

namespace FunctionBreakpoint

def equals (a other : FunctionBreakpoint) : Bool := a.name = other.name

def hashKey (b : FunctionBreakpoint) : String := b.name

end FunctionBreakpoint

/-- What an unordered container expects of three of its keys. -/
structure LawfulKeys {α κ : Type} (equals : α → α → Bool) (hashKey : α → κ) (a b c : α) : Prop where
  refl : equals a a = true
  symm : equals a b = true → equals b a = true
  trans : equals a b = true → equals b c = true → equals a c = true
  hash : equals a b = true → hashKey a = hashKey b

/-- The hashes agree whatever the hash of the text or number is. -/
theorem LawfulKeys.hash_eq {α κ η : Type} {equals : α → α → Bool} {hashKey : α → κ} {a b c : α}
    (lawful : LawfulKeys equals hashKey a b c) (same : equals a b = true) (hash : κ → η) :
    hash (hashKey a) = hash (hashKey b) := congrArg hash (lawful.hash same)

/-- Equality of a field that the hash depends on. -/
theorem lawfulKeys_of_field {α φ κ : Type} [DecidableEq φ] (field : α → φ) (key : φ → κ) (a b c : α) :
    LawfulKeys (fun a b => decide (field a = field b)) (fun a => key (field a)) a b c where
  refl := decide_eq_true rfl
  symm same := decide_eq_true (of_decide_eq_true same).symm
  trans left right := decide_eq_true ((of_decide_eq_true left).trans (of_decide_eq_true right))
  hash same := congrArg key (of_decide_eq_true same)

/-! ### The criteria of a breakpoint -/

namespace Breakpoint

/-- The alternatives of `operator==`. The last one holds for any two breakpoints without a reference. -/
inductive Criterion
  | location
  | name
  | reference
  deriving DecidableEq, Repr

def Linked : Criterion → Breakpoint → Breakpoint → Prop
  | .location, a, b => a.source.path ≠ "" ∧ a.source.path = b.source.path ∧ a.line = b.line
  | .name, a, b => a.source.name ≠ "" ∧ a.source.name = b.source.name
  | .reference, a, b => a.source.sourceReference = b.source.sourceReference

theorem Linked.symm {criterion : Criterion} {a b : Breakpoint} (linked : Linked criterion a b) :
    Linked criterion b a := by
  cases criterion with
  | location =>
    obtain ⟨some, path, line⟩ := linked
    exact ⟨path ▸ some, path.symm, line.symm⟩
  | name =>
    obtain ⟨some, name⟩ := linked
    exact ⟨name ▸ some, name.symm⟩
  | reference => exact Eq.symm linked

theorem equals_iff (a b : Breakpoint) : equals a b = true ↔ ∃ criterion, Linked criterion a b := by
  simp only [equals, Bool.or_eq_true, Bool.and_eq_true, decide_eq_true_eq]
  constructor
  · rintro ((⟨⟨some, path⟩, line⟩ | ⟨some, name⟩) | reference)
    · exact ⟨.location, some, path, line⟩
    · exact ⟨.name, some, name⟩
    · exact ⟨.reference, reference⟩
  · rintro ⟨_ | _ | _, linked⟩
    · exact Or.inl (Or.inl ⟨⟨linked.1, linked.2.1⟩, linked.2.2⟩)
    · exact Or.inl (Or.inr linked)
    · exact Or.inr linked

theorem equals_comm (a b : Breakpoint) : equals a b = equals b a := by
  rw [Bool.eq_iff_iff, equals_iff, equals_iff]
  exact exists_congr fun _ => ⟨Linked.symm, Linked.symm⟩

/-- The fields that the text to be hashed is made of. -/
def SameText (a b : Breakpoint) : Prop :=
  a.source.path = b.source.path ∧ a.source.name = b.source.name ∧ a.line = b.line

theorem SameText.hashKey_eq {a b : Breakpoint} (same : SameText a b) : hashKey a = hashKey b := by
  obtain ⟨path, name, line⟩ := same
  rw [hashKey, hashKey, path, name, line]

theorem SameText.equals {a b c : Breakpoint} (same : SameText a b)
    (reference : a.source.sourceReference = b.source.sourceReference) : equals a c = equals b c := by
  obtain ⟨path, name, line⟩ := same
  rw [Breakpoint.equals, Breakpoint.equals, path, name, line, reference]

/-! ### What a third breakpoint shows -/

section
variable {a b : Breakpoint}

/-- A breakpoint that only its reference links to others. -/
def atReference (reference : Int32) : Breakpoint := { source := { sourceReference := reference } }

/-- Every breakpoint is linked to one that has nothing but its reference. -/
theorem reference_eq_of_equals (same : ∀ c, equals a c = equals b c) :
    a.source.sourceReference = b.source.sourceReference := by
  have linked := same (atReference a.source.sourceReference)
  have self : equals a (atReference a.source.sourceReference) = true := (equals_iff _ _).mpr ⟨.reference, rfl⟩
  rw [self, eq_comm, equals_iff] at linked
  obtain ⟨_ | _ | _, linked⟩ := linked
  · exact absurd linked.2.1 linked.1
  · exact absurd linked.2 linked.1
  · exact Eq.symm linked

theorem exists_other (reference : Int32) : ∃ other : Int32, reference ≠ other := by
  by_cases zero : reference = 0
  · exact ⟨1, by simp [zero]⟩
  · exact ⟨0, zero⟩

/-- A name is shown by a breakpoint that has it, no path and another reference. -/
theorem name_eq_of_equals (same : ∀ c, equals a c = equals b c) (some : a.source.name ≠ "") :
    a.source.name = b.source.name := by
  obtain ⟨other, differs⟩ := exists_other b.source.sourceReference
  have linked := same { source := { name := a.source.name, sourceReference := other } }
  have self : equals a { source := { name := a.source.name, sourceReference := other } } = true :=
    (equals_iff _ _).mpr ⟨.name, some, rfl⟩
  rw [self, eq_comm, equals_iff] at linked
  obtain ⟨_ | _ | _, linked⟩ := linked
  · exact absurd linked.2.1 linked.1
  · exact linked.2.symm
  · exact absurd linked differs

theorem location_eq_of_equals (same : ∀ c, equals a c = equals b c) (some : a.source.path ≠ "") :
    a.source.path = b.source.path ∧ a.line = b.line := by
  obtain ⟨other, differs⟩ := exists_other b.source.sourceReference
  have linked := same { source := { path := a.source.path, sourceReference := other }, line := a.line }
  have self : equals a { source := { path := a.source.path, sourceReference := other }, line := a.line } = true :=
    (equals_iff _ _).mpr ⟨.location, some, rfl, rfl⟩
  rw [self, eq_comm, equals_iff] at linked
  obtain ⟨_ | _ | _, linked⟩ := linked
  · exact ⟨linked.2.1.symm, linked.2.2.symm⟩
  · exact absurd linked.2 linked.1
  · exact absurd linked differs

/-- Without a path only the hash can tell the lines apart. -/
theorem sameText_of_equals (same : ∀ c, equals a c = equals b c) (hash : hashKey a = hashKey b) :
    SameText a b := by
  have back : ∀ c, equals b c = equals a c := fun c => (same c).symm
  have name : a.source.name = b.source.name := by
    by_contra differs
    by_cases empty : a.source.name = ""
    · exact differs (name_eq_of_equals back (fun other => differs (empty.trans other.symm))).symm
    · exact differs (name_eq_of_equals same empty)
  by_cases empty : a.source.path = ""
  · have path : a.source.path = b.source.path := by
      by_contra differs
      exact differs (location_eq_of_equals back (fun other => differs (empty.trans other.symm))).1.symm
    rw [hashKey, hashKey, path, name, String.append_right_inj] at hash
    exact ⟨path, name, Int32.toInt_inj.mp (Int.repr_injective hash)⟩
  · obtain ⟨path, line⟩ := location_eq_of_equals same empty
    exact ⟨path, name, line⟩

end

/-- Two breakpoints are lawful keys beside any third one exactly if they agree in no criterion or
in every field that counts. -/
theorem lawfulKeys_iff (a b : Breakpoint) :
    (∀ c, LawfulKeys equals hashKey a b c ∧ LawfulKeys equals hashKey b a c) ↔
      ((∃ criterion, Linked criterion a b) →
        SameText a b ∧ a.source.sourceReference = b.source.sourceReference) := by
  constructor
  · intro lawful linked
    have equal : equals a b = true := (equals_iff a b).mpr linked
    have same : ∀ c, equals a c = equals b c := fun c => Bool.eq_iff_iff.mpr
      ⟨(lawful c).2.trans ((equals_comm a b).symm.trans equal), (lawful c).1.trans equal⟩
    exact ⟨sameText_of_equals same ((lawful a).1.hash equal), reference_eq_of_equals same⟩
  · intro fields c
    have refl (m : Breakpoint) : equals m m = true := (equals_iff m m).mpr ⟨.reference, rfl⟩
    have same (equal : equals a b = true) : ∀ c, equals a c = equals b c := fun c =>
      (fields ((equals_iff a b).mp equal)).1.equals (fields ((equals_iff a b).mp equal)).2
    have hash (equal : equals a b = true) : hashKey a = hashKey b :=
      (fields ((equals_iff a b).mp equal)).1.hashKey_eq
    have swap (equal : equals b a = true) : equals a b = true := equals_comm b a ▸ equal
    constructor
    · exact ⟨refl a, fun equal => equals_comm a b ▸ equal, fun equal right => same equal c ▸ right, hash⟩
    · exact ⟨refl b, swap, fun equal right => same (swap equal) c ▸ right, fun equal => (hash (swap equal)).symm⟩

/-- Breakpoints that are lawful keys among themselves: a shared criterion tells that path, name and
line are shared. -/
def Recognisable (keys : Set Breakpoint) : Prop :=
  ∀ a ∈ keys, ∀ b ∈ keys, (∃ criterion, Linked criterion a b) → SameText a b

theorem Recognisable.lawfulKeys {keys : Set Breakpoint} (recognisable : Recognisable keys) {a b c : Breakpoint}
    (first : a ∈ keys) (second : b ∈ keys) (third : c ∈ keys) : LawfulKeys equals hashKey a b c := by
  have text (equal : equals a b = true) : SameText a b :=
    recognisable a first b second ((equals_iff a b).mp equal)
  refine ⟨(equals_iff a a).mpr ⟨.reference, rfl⟩, fun equal => equals_comm b a ▸ equal, fun left right => ?_,
    fun equal => (text equal).hashKey_eq⟩
  obtain ⟨path, name, line⟩ := text left
  obtain ⟨path', name', line'⟩ := recognisable b second c third ((equals_iff b c).mp right)
  obtain ⟨leading, left⟩ := (equals_iff a b).mp left
  obtain ⟨following, right⟩ := (equals_iff b c).mp right
  rw [equals_iff]
  -- a path or a name that the three share links the ends, and so does a reference that both steps use
  match leading, left, following, right with
  | .location, left, _, _ => exact ⟨.location, left.1, path.trans path', line.trans line'⟩
  | .name, left, _, _ => exact ⟨.name, left.1, name.trans name'⟩
  | .reference, _, .location, right => exact ⟨.location, path ▸ right.1, path.trans path', line.trans line'⟩
  | .reference, _, .name, right => exact ⟨.name, name ▸ right.1, name.trans name'⟩
  | .reference, left, .reference, right => exact ⟨.reference, Eq.trans left right⟩

/-- The three kinds of breakpoints as keys: the equality of `Breakpoint` is lawful for some of them only,
as it mixes three criteria and hashes other fields. -/
theorem lawfulKeys_breakpoints_iff (a b : Breakpoint) :
    ((∀ c, LawfulKeys equals hashKey a b c ∧ LawfulKeys equals hashKey b a c) ↔
        ((∃ criterion, Linked criterion a b) →
          SameText a b ∧ a.source.sourceReference = b.source.sourceReference)) ∧
      (∀ keys, Recognisable keys →
        ∀ a ∈ keys, ∀ b ∈ keys, ∀ c ∈ keys, LawfulKeys equals hashKey a b c) ∧
      (∀ a b c, LawfulKeys SourceBreakpoint.equals SourceBreakpoint.hashKey a b c) ∧
      ∀ a b c, LawfulKeys FunctionBreakpoint.equals FunctionBreakpoint.hashKey a b c := by
  refine ⟨lawfulKeys_iff a b, fun keys recognisable a first b second c third => ?_, fun a b c => ?_, fun a b c => ?_⟩
  · exact recognisable.lawfulKeys first second third
  · exact lawfulKeys_of_field SourceBreakpoint.line (fun line => (line.toInt % 2 ^ 64).toNat) a b c
  · exact lawfulKeys_of_field FunctionBreakpoint.name (fun name => name) a b c

/-- Two places in two files, both without a reference. -/
theorem not_lawfulKeys_default_reference : ¬ ∀ a b c, LawfulKeys equals hashKey a b c := by
  intro always
  let first : Breakpoint := { source := { path := "a.c" }, line := 1 }
  let second : Breakpoint := { source := { path := "b.c" }, line := 2 }
  have same : hashKey first = hashKey second := (always first second second).hash (by decide)
  exact absurd same (by decide)

end Breakpoint

end WxDap
