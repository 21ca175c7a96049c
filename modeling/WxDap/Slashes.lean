import Mathlib.Data.List.Destutter

namespace WxDap.StringUtils

/-- A `wxChar` holds a code point. -/
abbrev WxChar := UInt32

/-- The local variables of `ConvertSlashes`. -/
structure Converter where
  /-- a `char` -/
  last_char : UInt8 := 0
  tmp : List WxChar := []

/-- One turn of the loop of `ConvertSlashes`. -/
def convertChar (source target : UInt8) (converter : Converter) (ch : WxChar) : Converter :=
  let ch := if ch = source.toUInt32 then target.toUInt32 else ch
  { last_char := ch.toUInt8
    tmp :=
      if ch = target.toUInt32 ∧ converter.last_char = target then converter.tmp
      else converter.tmp ++ [ch] }

def convertSlashes (path : List WxChar) (source target : UInt8) : List WxChar :=
  (path.foldl (convertChar source target) {}).tmp

def slash : UInt8 := 47

def backslash : UInt8 := 92

/-- The two separators depend on the macro `__WIN32`. -/
def pathSep (win32 : Bool) : UInt8 := if win32 then backslash else slash

def sourceSep (win32 : Bool) : UInt8 := if win32 then slash else backslash

def toNativePath (win32 : Bool) (path : List WxChar) : List WxChar :=
  convertSlashes path (sourceSep win32) (pathSep win32)

def toUnixPath (path : List WxChar) : List WxChar := convertSlashes path backslash slash

/-- Every source separator becomes a target separator. -/
def replace (source target : UInt8) (path : List WxChar) : List WxChar :=
  path.map (fun ch => if ch = source.toUInt32 then target.toUInt32 else ch)

/-- Not both of them are the separator. -/
def Apart (target : UInt8) (ch next : WxChar) : Prop :=
  ¬(ch = target.toUInt32 ∧ next = target.toUInt32)

instance (target : UInt8) : DecidableRel (Apart target) :=
  fun ch next => inferInstanceAs (Decidable ¬(ch = target.toUInt32 ∧ next = target.toUInt32))

/-- Every run of separators becomes one separator. -/
def collapse (target : UInt8) (path : List WxChar) : List WxChar := path.destutter (Apart target)

/-- What a conversion of slashes is to do with a path. -/
structure Converts (convert : List WxChar → List WxChar) (source target : UInt8) (path : List WxChar) :
    Prop where
  exact : convert path = collapse target (replace source target path)
  idempotent : convert (convert path) = convert path
  noSource : source.toUInt32 ∉ convert path
  single : (convert path).IsChain (Apart target)

/-- A separator is not taken for the second of two because of the low byte of the character before it. -/
def Distinct (target : UInt8) (ch next : WxChar) : Prop :=
  next = target.toUInt32 → ch.toUInt8 = target → ch = target.toUInt32

/-- No separator comes right after a character which is none and has the low byte of one. -/
def Unambiguous (source target : UInt8) (path : List WxChar) : Prop :=
  (replace source target path).IsChain (Distinct target)

/-! ### The loop -/

/-- What the loop appends, when all separators have been replaced. -/
def kept (target : UInt8) : UInt8 → List WxChar → List WxChar
  | _, [] => []
  | last, ch :: path =>
    if ch = target.toUInt32 ∧ last = target then kept target ch.toUInt8 path
    else ch :: kept target ch.toUInt8 path

theorem replace_cons (source target : UInt8) (ch : WxChar) (path : List WxChar) :
    replace source target (ch :: path) =
      (if ch = source.toUInt32 then target.toUInt32 else ch) :: replace source target path := rfl

theorem foldl_convertChar (source target : UInt8) (path : List WxChar) (converter : Converter) :
    (path.foldl (convertChar source target) converter).tmp =
      converter.tmp ++ kept target converter.last_char (replace source target path) := by
  induction path generalizing converter with
  | nil => exact (List.append_nil _).symm
  | cons ch path ih =>
    rw [List.foldl_cons, ih, replace_cons, kept]
    simp only [convertChar]
    generalize (if ch = source.toUInt32 then target.toUInt32 else ch) = replaced
    by_cases skipped : replaced = target.toUInt32 ∧ converter.last_char = target
    · rw [if_pos skipped, if_pos skipped]
    · rw [if_neg skipped, if_neg skipped]
      exact List.append_assoc _ _ _

theorem convertSlashes_eq (path : List WxChar) (source target : UInt8) :
    convertSlashes path source target = kept target 0 (replace source target path) :=
  foldl_convertChar source target path {}

/-! ### The loop and the collapsed path -/

section
variable (target : UInt8)

theorem toUInt8_target : target.toUInt32.toUInt8 = target := by simp

/-- The loop keeps no more than one of every run. -/
theorem length_kept_lt (ch : WxChar) (path : List WxChar) :
    (kept target ch.toUInt8 path).length < (path.destutter' (Apart target) ch).length := by
  induction path generalizing ch with
  | nil => exact Nat.zero_lt_one
  | cons next path ih =>
    rw [kept, List.destutter'_cons]
    by_cases apart : Apart target ch next
    · rw [if_pos apart, List.length_cons]
      split
      · exact Nat.lt_succ_of_lt (ih next)
      · exact Nat.succ_lt_succ (ih next)
    · obtain ⟨rfl, rfl⟩ := not_not.mp apart
      rw [if_neg apart, if_pos ⟨rfl, toUInt8_target target⟩]
      exact ih _

/-- The loop goes wrong at the first separator that it takes for the second of two. -/
theorem cons_kept_eq_iff (ch : WxChar) (path : List WxChar) :
    ch :: kept target ch.toUInt8 path = path.destutter' (Apart target) ch ↔
      (ch :: path).IsChain (Distinct target) := by
  induction path generalizing ch with
  | nil => simp [kept]
  | cons next path ih =>
    rw [kept, List.destutter'_cons, List.isChain_cons_cons]
    by_cases apart : Apart target ch next
    · rw [if_pos apart]
      by_cases skipped : next = target.toUInt32 ∧ ch.toUInt8 = target
      · rw [if_pos skipped]
        refine iff_of_false (fun same => ?_) (fun chain => ?_)
        · have short := length_kept_lt target next path
          rw [← (List.cons.inj same).2] at short
          exact Nat.lt_irrefl _ short
        · exact apart ⟨chain.1 skipped.1 skipped.2, skipped.1⟩
      · rw [if_neg skipped, List.cons_inj_right, ih next]
        exact (and_iff_right (fun separator byte => absurd ⟨separator, byte⟩ skipped)).symm
    · obtain ⟨rfl, rfl⟩ := not_not.mp apart
      rw [if_neg apart, if_pos ⟨rfl, toUInt8_target target⟩, ih]
      exact (and_iff_right (fun _ _ => rfl)).symm

/-- What is not taken for two separators is not so in the collapsed path either. -/
theorem isChain_destutter'_distinct {ch : WxChar} {path : List WxChar}
    (chain : (ch :: path).IsChain (Distinct target)) :
    (path.destutter' (Apart target) ch).IsChain (Distinct target) := by
  induction path generalizing ch with
  | nil => exact chain
  | cons next path ih =>
    obtain ⟨first, rest⟩ := List.isChain_cons_cons.mp chain
    rw [List.destutter'_cons]
    by_cases apart : Apart target ch next
    · have later := ih rest
      rw [if_pos apart, ← (cons_kept_eq_iff target next path).mpr rest]
      rw [← (cons_kept_eq_iff target next path).mpr rest] at later
      exact List.isChain_cons_cons.mpr ⟨first, later⟩
    · obtain ⟨rfl, rfl⟩ := not_not.mp apart
      rw [if_neg apart]
      exact ih rest

end

section
variable {source target : UInt8} (different : source ≠ target) (nonzero : target ≠ 0)

include nonzero in
theorem convertSlashes_eq_iff (path : List WxChar) :
    convertSlashes path source target = collapse target (replace source target path) ↔
      Unambiguous source target path := by
  rw [convertSlashes_eq, collapse, Unambiguous]
  cases replace source target path with
  | nil => simp [kept]
  | cons ch path =>
    rw [kept, if_neg (fun skipped => nonzero skipped.2.symm), List.destutter_cons']
    exact cons_kept_eq_iff target ch path

include different in
theorem source_notMem_replace (path : List WxChar) : source.toUInt32 ∉ replace source target path := by
  intro member
  obtain ⟨ch, _, same⟩ := List.mem_map.mp member
  split at same
  · exact different (UInt8.toUInt32_inj.mp same.symm)
  · rename_i other
    exact other same

/-- A path without source separators is not changed. -/
theorem replace_of_notMem (target : UInt8) {path : List WxChar} (none : source.toUInt32 ∉ path) :
    replace source target path = path := by
  refine List.map_congr_left (fun ch member => if_neg ?_) |>.trans (List.map_id path)
  rintro rfl
  exact none member

theorem collapse_collapse (path : List WxChar) : collapse target (collapse target path) = collapse target path :=
  List.destutter_idem path (Apart target)

include different nonzero in
/-- A path is converted as it should be if and only if no separator follows a character that looks
like one to the loop. -/
theorem converts_iff (path : List WxChar) :
    Converts (convertSlashes · source target) source target path ↔ Unambiguous source target path := by
  refine ⟨fun converts => (convertSlashes_eq_iff nonzero path).mp converts.exact, fun unambiguous => ?_⟩
  have exact := (convertSlashes_eq_iff nonzero path).mpr unambiguous
  have single : (collapse target (replace source target path)).IsChain (Apart target) :=
    List.isChain_destutter _ _
  have noSource : source.toUInt32 ∉ collapse target (replace source target path) :=
    fun member => source_notMem_replace different path ((List.destutter_sublist _ _).subset member)
  have same := replace_of_notMem target noSource
  have again : Unambiguous source target (collapse target (replace source target path)) := by
    rw [Unambiguous, same, collapse]
    rw [Unambiguous] at unambiguous
    cases replaced : replace source target path with
    | nil => exact List.IsChain.nil
    | cons ch rest =>
      rw [replaced] at unambiguous
      rw [List.destutter_cons']
      exact isChain_destutter'_distinct target unambiguous
  have idempotent := (convertSlashes_eq_iff nonzero _).mpr again
  rw [same, collapse_collapse] at idempotent
  exact
    { exact
      idempotent := by simpa only [exact] using idempotent
      noSource := by simpa only [exact] using noSource
      single := by simpa only [exact] using single }

end

/-- Both conversions do what they should, on either platform, for the paths in which no separator
follows a character that has its low byte. -/
theorem converts_toUnixPath_toNativePath_iff (win32 : Bool) (path : List WxChar) :
    (Converts toUnixPath backslash slash path ↔ Unambiguous backslash slash path) ∧
      (Converts (toNativePath win32) (sourceSep win32) (pathSep win32) path ↔
        Unambiguous (sourceSep win32) (pathSep win32) path) := by
  constructor
  · exact converts_iff (by decide) (by decide) path
  · cases win32
    · exact converts_iff (by decide) (by decide) path
    · exact converts_iff (by decide) (by decide) path

/-- A character with the low byte of the slash (U+012F), and a slash. -/
theorem not_converts_low_byte :
    ¬∀ win32 path, Converts toUnixPath backslash slash path ∧
      Converts (toNativePath win32) (sourceSep win32) (pathSep win32) path := by
  intro always
  have exact : toUnixPath [0x12F, 0x2F] = collapse slash (replace backslash slash [0x12F, 0x2F]) :=
    (always false [0x12F, 0x2F]).1.exact
  exact absurd exact (by decide)

end WxDap.StringUtils
