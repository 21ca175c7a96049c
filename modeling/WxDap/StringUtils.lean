import Mathlib.Data.List.DropRight
import Mathlib.Data.List.TakeWhile

namespace WxDap

/-- The contents of a `std::string`. -/
abbrev Bytes := List UInt8

namespace StringUtils

/-- The set `" \n\r\t"` of the trimming functions. -/
def isBlank (b : UInt8) : Bool :=
  b == 32 || b == 10 || b == 13 || b == 9

def rtrim (str : Bytes) : Bytes := str.rdropWhile isBlank

def trim (str : Bytes) : Bytes :=
  (str.dropWhile isBlank).rdropWhile isBlank

def beforeFirst (str : Bytes) (ch : UInt8) : Bytes :=
  str.takeWhile (· ≠ ch)

/-- Empty when `ch` does not occur. -/
def afterFirst (str : Bytes) (ch : UInt8) : Bytes :=
  (str.dropWhile (· ≠ ch)).drop 1

/-- The part of a buffer that a C string function sees. -/
def cString (str : Bytes) : Bytes :=
  str.takeWhile (· ≠ 0)

/-- The tokens of repeated `strtok_r` calls: nonempty runs of non-delimiters. -/
def strtok (str : Bytes) (delims : Bytes) : List Bytes :=
  ((cString str).splitOnP (· ∈ delims)).filter (· ≠ [])

def split (str : Bytes) (delims : Bytes) : List Bytes :=
  ((strtok str delims).map trim).filter (· ≠ [])

/-- Text that neither starts nor ends with a blank is not trimmed. -/
theorem trim_of_ends {str : Bytes} (first : ∀ b ∈ str.head?, isBlank b = false)
    (last : ∀ b ∈ str.getLast?, isBlank b = false) : trim str = str := by
  have kept : str.dropWhile isBlank = str := by
    cases str with
    | nil => rfl
    | cons b rest => rw [List.dropWhile_cons, first b rfl]; rfl
  rw [trim, kept, List.rdropWhile_eq_self_iff]
  intro nonempty
  rw [last _ (List.getLast?_eq_some_getLast nonempty)]
  exact Bool.false_ne_true

theorem trim_cons_blank {b : UInt8} (blank : isBlank b = true) (str : Bytes) :
    trim (b :: str) = trim str := by
  rw [trim, List.dropWhile_cons, blank]
  rfl

theorem trim_append_blank {b : UInt8} (blank : isBlank b = true) (str : Bytes) :
    trim (str ++ [b]) = trim str := by
  rw [trim, List.dropWhile_append]
  split
  · rename_i empty
    rw [List.isEmpty_iff] at empty
    simp [trim, empty, blank]
  · rw [List.rdropWhile_concat_pos _ _ _ blank]
    rfl

/-- Blanks at either end of a text are not seen by `trim`. -/
theorem trim_padded {left right : Bytes} (blankLeft : ∀ b ∈ left, isBlank b = true)
    (blankRight : ∀ b ∈ right, isBlank b = true) (str : Bytes) :
    trim (left ++ str ++ right) = trim str := by
  induction left with
  | nil =>
    induction right using List.reverseRecOn with
    | nil => rw [List.nil_append, List.append_nil]
    | append_singleton right b ih =>
      rw [← List.append_assoc, trim_append_blank (blankRight b (by simp))]
      exact ih (fun c member => blankRight c (by simp [member]))
  | cons b left ih =>
    rw [List.cons_append, List.cons_append, trim_cons_blank (blankLeft b List.mem_cons_self)]
    exact ih (fun c member => blankLeft c (List.mem_cons_of_mem _ member))

/-- What `trim` takes away is blank. -/
theorem trim_padding (str : Bytes) :
    ∃ left right, str = left ++ trim str ++ right ∧ (∀ b ∈ left, isBlank b = true) ∧
      ∀ b ∈ right, isBlank b = true := by
  refine ⟨str.takeWhile isBlank, (str.dropWhile isBlank).rtakeWhile isBlank, ?_, ?_, ?_⟩
  · rw [trim, List.append_assoc, List.rdropWhile_append_rtakeWhile, List.takeWhile_append_dropWhile]
  · exact fun b member => List.mem_takeWhile_imp member
  · exact fun b member => List.mem_rtakeWhile_imp member

theorem trim_trim (str : Bytes) : trim (trim str) = trim str := by
  obtain ⟨left, right, whole, blankLeft, blankRight⟩ := trim_padding str
  conv_rhs => rw [whole]
  exact (trim_padded blankLeft blankRight _).symm

theorem beforeFirst_of_not_mem {str : Bytes} {ch : UInt8} (absent : ch ∉ str) :
    beforeFirst str ch = str := by
  refine List.takeWhile_eq_self_iff.mpr (fun b member => ?_)
  rw [decide_eq_true_eq]
  rintro rfl
  exact absent member

theorem afterFirst_of_not_mem {str : Bytes} {ch : UInt8} (absent : ch ∉ str) :
    afterFirst str ch = [] := by
  have all : str.dropWhile (· ≠ ch) = [] := by
    refine List.dropWhile_eq_nil_iff.mpr (fun b member => ?_)
    rw [decide_eq_true_eq]
    rintro rfl
    exact absent member
  rw [afterFirst, all]
  rfl

theorem beforeFirst_append {str : Bytes} {ch : UInt8} (absent : ch ∉ str) (rest : Bytes) :
    beforeFirst (str ++ ch :: rest) ch = str := by
  have all : ∀ b ∈ str, decide (b ≠ ch) = true := by
    intro b member
    rw [decide_eq_true_eq]
    rintro rfl
    exact absent member
  rw [beforeFirst, List.takeWhile_append_of_pos all, List.takeWhile_cons]
  simp

theorem afterFirst_append {str : Bytes} {ch : UInt8} (absent : ch ∉ str) (rest : Bytes) :
    afterFirst (str ++ ch :: rest) ch = rest := by
  have all : ∀ b ∈ str, decide (b ≠ ch) = true := by
    intro b member
    rw [decide_eq_true_eq]
    rintro rfl
    exact absent member
  rw [afterFirst, List.dropWhile_append_of_pos all, List.dropWhile_cons]
  simp

theorem cString_of_not_mem {str : Bytes} (absent : 0 ∉ str) : cString str = str := by
  refine List.takeWhile_eq_self_iff.mpr (fun b member => ?_)
  simp only [decide_not, Bool.not_eq_eq_eq_not, Bool.not_true, decide_eq_false_iff_not]
  rintro rfl
  exact absent member

/-- Text without a delimiter is one token. -/
theorem split_single {str delims : Bytes} (noNul : 0 ∉ str) (noDelim : ∀ b ∈ str, b ∉ delims)
    (nonempty : str ≠ []) (trimmed : trim str = str) : split str delims = [str] := by
  have whole : (cString str).splitOnP (· ∈ delims) = [str] := by
    rw [cString_of_not_mem noNul]
    exact List.splitOnP_eq_singleton (fun b member => by simpa using noDelim b member)
  simp [split, strtok, whole, nonempty, trimmed]

end StringUtils

end WxDap
