import WxDap.Frames
import Mathlib.Data.List.Find

namespace WxDap.JsonRPC
open StringUtils

variable {J : Type} {parse : Bytes → Option J}

/-- The pieces of a header block between its line feeds. -/
def lines (block : Bytes) : List Bytes := block.splitOn 10

/-- What stands before the first `:`; a line without one is all name. -/
def lineName (line : Bytes) : Bytes := trim (beforeFirst line 58)

def lineValue (line : Bytes) : Bytes := trim (afterFirst line 58)

/-- The first line with a name, in the order of the block. -/
def lineNamed (name block : Bytes) : Option Bytes :=
  (lines block).find? (fun line => lineName line = name)

theorem colon_not_mem {padding : Bytes} (blank : ∀ b ∈ padding, isBlank b = true) : 58 ∉ padding :=
  fun member => Bool.noConfusion (blank 58 member)

/-- Trimming a line first, as `ReadHeaders` does, changes neither its name nor its value. -/
theorem header_eq (line : Bytes) : header line = (lineName line, lineValue line) := by
  obtain ⟨left, right, whole, blankLeft, blankRight⟩ := trim_padding line
  by_cases colon : 58 ∈ trim line
  · obtain ⟨name, value, inner, absent⟩ := List.eq_append_cons_of_mem colon
    have outside : 58 ∉ left ++ name := by simp [absent, colon_not_mem blankLeft]
    have outer : line = (left ++ name) ++ 58 :: (value ++ right) := by
      rw [inner] at whole
      simpa using whole
    have sameName : trim (left ++ name) = trim name := by
      simpa using @trim_padded left [] blankLeft (by simp) name
    have sameValue : trim (value ++ right) = trim value := by
      simpa using @trim_padded [] right (by simp) blankRight value
    rw [header, lineName, lineValue, inner, beforeFirst_append absent, afterFirst_append absent, outer,
      beforeFirst_append outside, afterFirst_append outside, sameName, sameValue]
  · have absent : 58 ∉ line := by
      rw [whole]
      simp [colon, colon_not_mem blankLeft, colon_not_mem blankRight]
    rw [header, lineName, lineValue, beforeFirst_of_not_mem colon, afterFirst_of_not_mem colon,
      beforeFirst_of_not_mem absent, afterFirst_of_not_mem absent, trim_trim]

theorem lineName_trim (line : Bytes) : lineName (trim line) = lineName line := by
  have same : header (trim line) = header line := by simp only [header, trim_trim]
  rw [header_eq, header_eq] at same
  exact congrArg Prod.fst same

theorem lineName_nil : lineName [] = [] := rfl

/-- The lines that `Split` drops have no name. -/
theorem split_lines {block : Bytes} (noNul : 0 ∉ block) {name : Bytes} (nonempty : name ≠ []) :
    (split block [10]).find? (fun line => (header line).1 = name) = (lineNamed name block).map trim := by
  have pieces : (cString block).splitOnP (· ∈ [10]) = lines block := by
    rw [cString_of_not_mem noNul, lines, List.splitOn_eq_splitOnP]
    congr 1
    funext b
    simp only [List.mem_singleton]
    exact (beq_eq_decide b 10).symm
  have kept (line : Bytes) : (decide (line ≠ []) && (decide (trim line ≠ []) &&
      decide ((header (trim line)).1 = name))) = decide (lineName line = name) := by
    rw [header_eq, lineName_trim]
    by_cases named : lineName line = name
    · have some : trim line ≠ [] := by
        intro empty
        rw [← lineName_trim, empty, lineName_nil] at named
        exact nonempty named.symm
      have text : line ≠ [] := by
        rintro rfl
        exact some rfl
      simp [named, some, text]
    · simp [named]
  rw [split, strtok, pieces, List.find?_filter, List.find?_map, List.find?_filter, lineNamed]
  congr 1
  refine List.find?_congr (fun line _ => ?_)
  simpa using kept line

/-- `ReadHeaders` finds the value of the first line with the name. -/
theorem parseHeaders_find {block : Bytes} (noNul : 0 ∉ block) {name : Bytes} (nonempty : name ≠ []) :
    (parseHeaders block).find name = (lineNamed name block).map lineValue := by
  have value (line : Bytes) : (header (trim line)).2 = lineValue line := by
    have same : header (trim line) = header line := by simp only [header, trim_trim]
    rw [same, header_eq]
  rw [parseHeaders, UnorderedMap.find_foldl_insert, UnorderedMap.find_empty, Option.none_or,
    split_lines noNul nonempty, Option.map_map]
  congr 1
  exact funext value

/-- Text that is a decimal numeral for `n`, with leading zeros or without. -/
structure IsNumeral (text : Bytes) (n : Nat) : Prop where
  nonempty : text ≠ []
  digits : ∀ b ∈ text, Decimal.isDigit b = true
  value : Decimal.value text = n

/-- Whatever other lines a header block has, the first one named `Content-Length` decides. -/
theorem doProcessBuffer_lines {block line : Bytes} (noNul : 0 ∉ block) (first : HeaderBlock block)
    (named : lineNamed contentLength block = some line) {payload : Bytes} (positive : 1 ≤ payload.length)
    (numeral : IsNumeral (lineValue line) payload.length) {rest : Bytes}
    (total : (block ++ separator ++ payload ++ rest).length < 2 ^ 31) :
    doProcessBuffer parse (block ++ separator ++ payload ++ rest) = .ok (parse payload, rest) ∧
      ∀ part, part <+: block ++ separator ++ payload → part ≠ block ++ separator ++ payload →
        doProcessBuffer parse part = .ok (none, part) := by
  have found : (parseHeaders block).find contentLength = some (lineValue line) := by
    rw [parseHeaders_find noNul (by decide), named]
    rfl
  have size : (block ++ separator ++ payload ++ rest).length =
      block.length + 4 + payload.length + rest.length := by
    simp only [separator, List.length_append, List.length_cons, List.length_nil]
  have length : Decimal.atol (lineValue line) = payload.length := by
    rw [Decimal.atol_digits numeral.nonempty numeral.digits (by rw [numeral.value]; omega), numeral.value]
  refine ⟨doProcessBuffer_block first found length positive (by omega) (by omega) rest, ?_⟩
  intro part starts strict
  exact doProcessBuffer_short first found length positive (by omega) (by omega) starts strict

/-- A log line, a bare line feed and another header before `Content-Length`. -/
def paddedBlock : Bytes := Decimal.ascii "log: start\n\nX: y\r\n Content-Length :\t02"

theorem doProcessBuffer_paddedBlock :
    doProcessBuffer some (paddedBlock ++ separator ++ [123, 125] ++ [7]) = .ok (some [123, 125], [7]) ∧
      ∀ part, part <+: paddedBlock ++ separator ++ [123, 125] → part ≠ paddedBlock ++ separator ++ [123, 125] →
        doProcessBuffer (some : Bytes → Option Bytes) part = .ok (none, part) :=
  doProcessBuffer_lines (by decide) (by unfold HeaderBlock; decide)
    (show lineNamed contentLength paddedBlock = some (Decimal.ascii " Content-Length :\t02") by decide)
    (by decide) ⟨by decide, List.all_eq_true.mp (by decide), by decide⟩ (by decide)

end WxDap.JsonRPC
