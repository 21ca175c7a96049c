import WxDap.JsonPrint

namespace WxDap.JsonPrint
open Decimal (ascii numeral value)
open JsonParse
open JsonSyntax

/-! ### Numbers -/

/-- The loop over the digits is exact as long as a double holds every integer up to the value. -/
theorem shiftIn_intCast {digits : Bytes} (start : Nat)
    (small : digits.foldl (fun n b => 10 * n + (b.toNat - 48)) start < 2 ^ 53) :
    shiftIn (.finite (start : Int)) digits =
      .finite ((digits.foldl (fun n b => 10 * n + (b.toNat - 48)) start : Nat) : Int) := by
  induction digits generalizing start with
  | nil => rfl
  | cons b digits ih =>
    rw [List.foldl_cons] at small
    have bound := Nat.lt_of_le_of_lt (le_foldl_digits digits _) small
    have shifted : Double.mul (.finite (start : Int)) (.finite (10 : Int)) = .finite ((start * 10 : Int) : Rat) := by
      refine Double.mul_intCast ?_
      rw [abs_of_nonneg (by omega)]
      omega
    have summed : Double.add (.finite ((start * 10 : Int) : Rat)) (.finite ((b.toNat - 48 : Nat) : Int)) =
        .finite ((start * 10 + (b.toNat - 48 : Nat) : Int) : Rat) := by
      refine Double.add_intCast ?_
      rw [abs_of_nonneg (by omega)]
      omega
    have same : (start * 10 + (b.toNat - 48 : Nat) : Int) = ((10 * start + (b.toNat - 48) : Nat) : Int) := by
      push_cast
      omega
    rw [same] at summed
    have step : Double.add (Double.mul (.finite (start : Int)) (.finite 10)) (.finite (b.toNat - 48 : Nat)) =
        .finite ((10 * start + (b.toNat - 48) : Nat) : Int) := by
      rw [← summed, ← shifted]
      rfl
    rw [List.foldl_cons, shiftIn, List.foldl_cons, step]
    exact ih _ small

/-- An integer is read as it is written. -/
theorem readNumber_ofInt (pow : Pow) {n : Int} (small : |n| < 2 ^ 53) :
    readNumber pow (Number.ofInt n) = .finite n := by
  have size : n.natAbs < 2 ^ 53 := by
    rw [Int.abs_eq_natAbs] at small
    exact_mod_cast small
  have digits : shiftIn (.finite 0) (wholeDigits (Number.ofInt n)) = .finite (n.natAbs : Int) := by
    unfold wholeDigits Number.ofInt
    split_ifs with zero
    · dsimp only at zero
      rw [zero]
      rfl
    · have read := @shiftIn_intCast (numeral n.natAbs) 0 (by
        change value (numeral n.natAbs) < _
        rwa [Decimal.value_numeral])
      change shiftIn _ _ = .finite ((value (numeral n.natAbs) : Nat) : Int) at read
      rw [Decimal.value_numeral] at read
      exact read
  have signed : Double.mul (.finite (if (Number.ofInt n).negative then -1 else 1)) (.finite (n.natAbs : Int)) =
      .finite n := by
    have product (sign : Int) (value : sign * n.natAbs = n) :
        Double.mul (.finite sign) (.finite (n.natAbs : Int)) = .finite n := by
      rw [Double.mul_intCast (by rwa [value]), value]
    by_cases negative : n < 0
    · have chosen : (if (Number.ofInt n).negative then -1 else 1 : Rat) = (-1 : Int) := by
        simp [Number.ofInt, negative]
      rw [chosen]
      exact product (-1) (by omega)
    · have chosen : (if (Number.ofInt n).negative then -1 else 1 : Rat) = (1 : Int) := by
        simp [Number.ofInt, negative]
      rw [chosen]
      exact product 1 (by omega)
  have scale : pow.power (-(Number.ofInt n).fraction.length + exponentValue (Number.ofInt n)) = .finite (1 : Int) :=
    pow.zero
  have unchanged : Double.mul (.finite n) (.finite (1 : Int)) = .finite n := by
    rw [Double.mul_intCast (by rwa [mul_one]), mul_one]
  have noFraction : digitBytes (Number.ofInt n).fraction = [] := rfl
  unfold readNumber
  dsimp only
  rw [digits, noFraction, scale]
  change Double.mul (Double.mul _ (.finite (n.natAbs : Int))) _ = _
  rw [signed]
  exact unchanged

/-- An integer within the range where doubles are exact is written with all its digits, by either format. -/
theorem numberOf_intCast (n : Int) : numberOf n = Number.ofInt n := by
  have whole : |((⌊(n : Rat)⌋ : Int) : Rat) - n| ≤ 1 / 2 ^ 52 := by
    rw [Int.floor_intCast, sub_self, abs_zero]
    positivity
  unfold numberOf
  split_ifs with isInt
  · obtain ⟨near, upper, lower⟩ := isInt
    have upperInt : n ≤ 2 ^ 31 - 1 := by exact_mod_cast upper
    have lowerInt : -2 ^ 31 ≤ n := by exact_mod_cast lower
    have same : doubleToInt (n : Rat) = Int32.ofInt n := by
      rw [doubleToInt, Rat.num_intCast, Rat.den_intCast, Nat.cast_one, Int.tdiv_one]
      exact if_pos ⟨lowerInt, by omega⟩
    rw [same, Int32.toInt_ofInt_of_le lowerInt (by omega)]
  · have scaled : Double.roundHalfEven (|(n : Rat)| * 10 ^ 0) = n.natAbs := by
      rw [pow_zero, mul_one, ← Int.cast_abs, Double.roundHalfEven_intCast, Int.abs_eq_natAbs]
    have negative : decide ((n : Rat) < 0) = decide (n < 0) := by simp
    unfold sprintfFixed Number.ofInt
    rw [scaled, Int.toNat_natCast, negative, pow_zero]
    dsimp only
    rw [Nat.div_one]
    rfl

/-- How a number comes back after it was printed. -/
def reread (pow : Pow) (d : Double) : Double := readNumber pow (numberSyntax d)

/-- The integers that a double holds without a gap. -/
def IsSmallInt (d : Double) : Prop := ∃ n : Int, |n| < 2 ^ 53 ∧ d = .finite n

theorem reread_of_isSmallInt (pow : Pow) {d : Double} (isInt : IsSmallInt d) : reread pow d = d := by
  obtain ⟨n, small, rfl⟩ := isInt
  rw [reread, numberSyntax, numberOf_intCast, readNumber_ofInt pow small]

/-! ### Texts -/

/-- What follows the first entry of an array. -/
theorem arrayEntries_cons (fmt : Bool) (entry : Bytes) (rest : List Bytes) :
    arrayEntries fmt (entry :: rest) = entry ++ rest.flatMap (fun entry => comma :: (blanks (gap fmt) ++ entry)) := by
  induction rest generalizing entry with
  | nil => rw [arrayEntries, List.flatMap_nil, List.append_nil]
  | cons second rest ih =>
    have space : (if fmt then [32] else [] : Bytes) = blanks (gap fmt) := by cases fmt <;> rfl
    rw [arrayEntries, ih, List.flatMap_cons, space]
    · simp only [List.cons_append, List.append_assoc]
    · exact List.cons_ne_nil _ _

theorem blanks_newline (fmt : Bool) (depth : Nat) :
    blanks (newline fmt depth) = (if fmt then [10] else []) ++ (if fmt then spaces depth else []) := by
  cases fmt with
  | false => rfl
  | true =>
    rw [newline, if_pos rfl, blanks, List.map_cons, List.map_replicate]
    rfl

/-- The entries of the members of an object, as the grammar writes them. -/
def memberEntries (fmt : Bool) (depth : Nat) (members : List (Bytes × Node)) : List (Bytes × Bytes) :=
  members.map (fun member => (stringBytes (member.1.map itemOf), (layout fmt depth member.2).bytes))

/-- The lines of an object, from the first name to the closing brace. -/
theorem objectEntries_cons (fmt : Bool) (depth : Nat) (name : Bytes) (item : Node) (rest : List (Bytes × Node)) :
    (if fmt then [10] else []) ++ (objectEntries fmt depth (memberEntries fmt depth ((name, item) :: rest)) ++
        (if fmt then spaces (depth - 1) else [])) =
      blanks (newline fmt depth) ++ (stringBytes (name.map itemOf) ++ (colon :: (blanks (gap fmt) ++
        ((layout fmt depth item).bytes ++ (blanks (if rest = [] then newline fmt (depth - 1) else []) ++
          (layoutMembers fmt depth rest).bytes))))) := by
  have space : (if fmt then [32] else [] : Bytes) = blanks (gap fmt) := by cases fmt <;> rfl
  induction rest generalizing name item with
  | nil =>
    simp only [memberEntries, List.map_cons, List.map_nil, objectEntries, if_true, layoutMembers, Members.bytes,
      blanks_newline, space, List.append_assoc, List.cons_append, List.nil_append, List.append_nil]
  | cons member rest ih =>
    obtain ⟨second, value⟩ := member
    have later := ih second value
    have more : memberEntries fmt depth ((second, value) :: rest) ≠ [] := List.cons_ne_nil _ _
    rw [memberEntries, List.map_cons, objectEntries, ← memberEntries, if_neg more, if_neg (List.cons_ne_nil _ _),
      layoutMembers, Members.bytes]
    simp only [List.append_assoc, List.cons_append, List.nil_append]
    rw [later]
    have none : blanks [] = [] := rfl
    simp only [blanks_newline, space, none, List.append_assoc, List.nil_append]

section
variable (fmt : Bool)

theorem elements_bytes (depth : Nat) (rest : List Node) :
    (rest.map (fun item => (layout fmt depth item).bytes)).flatMap (fun entry => comma :: (blanks (gap fmt) ++ entry)) =
      (layoutItems fmt depth rest).bytes := by
  induction rest with
  | nil => rfl
  | cons item rest ih =>
    rw [List.map_cons, List.flatMap_cons, ih, layoutItems, Elements.bytes, List.cons_append, List.append_assoc]
    rfl

/-- A number that is finite and does not run over its buffer. -/
def Printable : Double → Prop
  | .finite d => HasRoom (.finite d)
  | _ => False

mutual

/-- What is printed is a text of the grammar. -/
theorem render_layout : (node : Node) → node.All Printable (fun _ => True) → (depth : Nat) →
    render fmt depth node = (layout fmt depth node).bytes
  | .null, _, _ => rfl
  | .boolean true, _, _ => rfl
  | .boolean false, _, _ => rfl
  | .number (.finite _), _, _ => rfl
  | .number (.infinity _), printable, _ => printable.elim
  | .number .nan, printable, _ => printable.elim
  | .string str, _, _ => stringText_eq str
  | .array [], _, _ => rfl
  | .array (first :: rest), printable, depth => by
    rw [render, renderItems_layout (first :: rest) printable (depth + 1), arrayText, List.map_cons, arrayEntries_cons,
      layout, Text.bytes, ← elements_bytes, List.append_assoc]
    rfl
  | .object [], _, depth => by
    rw [render, renderMembers, objectText, layout, Text.bytes, blanks_newline, List.append_assoc]
    rfl
  | .object ((name, first) :: rest), printable, depth => by
    rw [render, renderMembers_layout ((name, first) :: rest) printable (depth + 1), objectText,
      ← List.append_assoc (objectEntries _ _ _), ← List.append_assoc, objectEntries_cons, layout, Text.bytes]
    simp only [List.append_assoc, List.cons_append]
    rfl

theorem renderItems_layout : (items : List Node) → JsonTree.AllItems Printable (fun _ => True) items →
    (depth : Nat) → renderItems fmt depth items = items.map (fun item => (layout fmt depth item).bytes)
  | [], _, _ => rfl
  | item :: rest, printable, depth => by
    rw [renderItems, render_layout item printable.1 depth, renderItems_layout rest printable.2 depth]
    rfl

theorem renderMembers_layout : (members : List (Bytes × Node)) →
    JsonTree.AllMembers Printable (fun _ => True) members → (depth : Nat) →
    renderMembers fmt depth members = memberEntries fmt depth members
  | [], _, _ => rfl
  | (name, item) :: rest, printable, depth => by
    rw [renderMembers, stringText_eq, render_layout item printable.2.1 depth,
      renderMembers_layout rest printable.2.2 depth]
    rfl

end

end

/-! ### Reading the text again -/

theorem exponentFits_exponential (d : Rat) : ExponentFits (sprintfExponential d) := by
  have small (exponent : Exponent) (size : exponent.rest.length ≤ 2) :
      value (digitBytes (exponent.first :: exponent.rest)) < 2 ^ 31 := by
    have length : (digitBytes (exponent.first :: exponent.rest)).length ≤ 3 := by
      rw [digitBytes, List.length_map, List.length_cons]
      omega
    calc value (digitBytes (exponent.first :: exponent.rest))
        < 10 ^ (digitBytes (exponent.first :: exponent.rest)).length := Decimal.value_lt (fun b => isDigit_digitBytes)
      _ ≤ 10 ^ 3 := Nat.pow_le_pow_right (by decide) length
      _ < 2 ^ 31 := by decide
  unfold ExponentFits exponentValue
  have some : (sprintfExponential d).exponent ≠ none := Option.some_ne_none _
  cases written : (sprintfExponential d).exponent with
  | none => exact absurd written some
  | some exponent =>
    have size : exponent.rest.length ≤ 2 := by
      unfold sprintfExponential at written
      rw [← Option.some.inj written]
      dsimp only
      rw [length_lastDigits]
      split_ifs <;> decide
    have bound := small exponent size
    dsimp only
    split_ifs
    · rw [abs_neg, Nat.abs_cast]
      exact_mod_cast bound
    · rw [Nat.abs_cast]
      exact_mod_cast bound

theorem exponentFits_numberSyntax (d : Double) : ExponentFits (numberSyntax d) := by
  have none (number : Number) (plain : number.exponent = none) : ExponentFits number := by
    rw [ExponentFits, exponentValue, plain]
    decide
  cases d with
  | finite d =>
    rw [numberSyntax, numberOf]
    split_ifs
    · exact none _ rfl
    · exact none _ rfl
    · exact exponentFits_exponential d
    · exact none _ rfl
  | infinity negative => exact none _ rfl
  | nan => exact none _ rfl

/-- The first loop of `parse_string` counts no more than that of `print_string_ptr`. -/
theorem lengthFits_itemOf {str : Bytes} (sized : stringLength str < 2 ^ 31) : LengthFits (str.map itemOf) := by
  have count (token : UInt8) : (pieceOf (itemOf token)).count ≤ tokenLength token := by
    have bytes := length_escapeToken token
    rw [← bytes_itemOf, ← bytes_pieceOf] at bytes
    rw [← bytes]
    cases pieceOf (itemOf token) with
    | plain b solid => exact Nat.le_refl 1
    | escape letter other => exact Nat.le_succ 1
    | unit code => exact Nat.le_succ 5
  have sum : (((str.map itemOf).map pieceOf).map Piece.count).sum ≤ (str.map tokenLength).sum := by
    rw [List.map_map, List.map_map]
    exact List.sum_le_sum (fun token _ => count token)
  rw [stringLength] at sized
  rw [LengthFits]
  omega

section
variable (fmt : Bool)

mutual

theorem layout_fits : (node : Node) → (depth : Nat) → Sized fmt depth node → Fits (layout fmt depth node)
  | .null, _, _ => trivial
  | .boolean _, _, _ => trivial
  | .number d, _, _ => exponentFits_numberSyntax d
  | .string _, _, sized => lengthFits_itemOf sized
  | .array [], _, _ => trivial
  | .array (first :: rest), depth, sized =>
    ⟨layout_fits first (depth + 1) sized.1.1, layoutItems_fits rest (depth + 1) sized.1.2⟩
  | .object [], _, _ => trivial
  | .object ((_, first) :: rest), depth, sized =>
    ⟨lengthFits_itemOf sized.1.1, layout_fits first (depth + 1) sized.1.2.1,
      layoutMembers_fits rest (depth + 1) sized.1.2.2⟩

theorem layoutItems_fits : (items : List Node) → (depth : Nat) → SizedItems fmt depth items →
    JsonTree.AllItems ExponentFits LengthFits ((layoutItems fmt depth items).read id id)
  | [], _, _ => trivial
  | item :: rest, depth, sized => ⟨layout_fits item depth sized.1, layoutItems_fits rest depth sized.2⟩

theorem layoutMembers_fits : (members : List (Bytes × Node)) → (depth : Nat) → SizedMembers fmt depth members →
    JsonTree.AllMembers ExponentFits LengthFits ((layoutMembers fmt depth members).read id id)
  | [], _, _ => trivial
  | (_, item) :: rest, depth, sized =>
    ⟨lengthFits_itemOf sized.1, layout_fits item depth sized.2.1, layoutMembers_fits rest depth sized.2.2⟩

end

section
variable (pow : Pow)

mutual

/-- What the grammar makes of the text. -/
theorem layout_read : (node : Node) → (depth : Nat) → (layout fmt depth node).read (readNumber pow) readString =
    node.map (reread pow) (fun str => readString (str.map itemOf))
  | .null, _ => rfl
  | .boolean _, _ => rfl
  | .number _, _ => rfl
  | .string _, _ => rfl
  | .array [], _ => rfl
  | .array (first :: rest), depth =>
    congrArg JsonTree.array (congrArg₂ List.cons (layout_read first (depth + 1)) (layoutItems_read rest (depth + 1)))
  | .object [], _ => rfl
  | .object ((_, first) :: rest), depth =>
    congrArg JsonTree.object (congrArg₂ List.cons (congrArg _ (layout_read first (depth + 1)))
      (layoutMembers_read rest (depth + 1)))

theorem layoutItems_read : (items : List Node) → (depth : Nat) →
    (layoutItems fmt depth items).read (readNumber pow) readString =
      JsonTree.mapItems (reread pow) (fun str => readString (str.map itemOf)) items
  | [], _ => rfl
  | item :: rest, depth => congrArg₂ List.cons (layout_read item depth) (layoutItems_read rest depth)

theorem layoutMembers_read : (members : List (Bytes × Node)) → (depth : Nat) →
    (layoutMembers fmt depth members).read (readNumber pow) readString =
      JsonTree.mapMembers (reread pow) (fun str => readString (str.map itemOf)) members
  | [], _ => rfl
  | (_, item) :: rest, depth =>
    congrArg₂ List.cons (congrArg _ (layout_read item depth)) (layoutMembers_read rest depth)

end

end

end

theorem hasRoom_of_printable {d : Double} (printable : Printable d) : HasRoom d := by
  cases d with
  | finite d => exact printable
  | infinity negative => exact trivial
  | nan => exact trivial

/-- The text of a tree is read as this tree, with the numbers as they come back, after any white space and whatever
comes behind the text. -/
theorem parse_printValue (pow : Pow) {fmt : Bool} {depth : Nat} {node : Node}
    (printable : node.All Printable (fun str => (0 : UInt8) ∉ str)) (sized : Sized fmt depth node) :
    ∃ text, printValue fmt depth node = .ok text ∧ ∀ before rest, NumberEnds rest →
      parse pow (blanks before ++ (text ++ rest)) = .ok (node.map (reread pow) id) := by
  have strings : node.map (reread pow) (fun str => readString (str.map itemOf)) = node.map (reread pow) id :=
    node.map_congr (JsonTree.All.mono (fun _ _ => rfl) (fun _ => readString_map_itemOf) node printable)
  have numbers := JsonTree.All.mono (fun _ same => same) (fun _ _ => trivial) node printable
  have rooms := JsonTree.All.mono (fun _ => hasRoom_of_printable) (fun _ _ => trivial) node printable
  have run := (printValue_eq_ok_iff fmt node depth _).mpr ⟨⟨rooms, sized⟩, rfl⟩
  refine ⟨_, run, fun before rest ends => ?_⟩
  rw [render_layout fmt node numbers depth, parse_text pow before (layout_fits fmt node depth sized) ends, layout_read,
    strings]

theorem printable_of_isSmallInt {d : Double} (isInt : IsSmallInt d) : Printable d := by
  obtain ⟨n, small, rfl⟩ := isInt
  have bounds := abs_lt.mp small
  intro
  rw [Int.floor_intCast]
  omega

/-- Integers and strings come back as they were. -/
theorem parse_printValue_of_isSmallInt (pow : Pow) {fmt : Bool} {depth : Nat} {node : Node}
    (plain : node.All IsSmallInt (fun str => (0 : UInt8) ∉ str)) (sized : Sized fmt depth node) :
    ∃ text, printValue fmt depth node = .ok text ∧ ∀ before rest, NumberEnds rest →
      parse pow (blanks before ++ (text ++ rest)) = .ok node := by
  have printable := JsonTree.All.mono (fun _ => printable_of_isSmallInt) (fun _ same => same) node plain
  have fixed : node.map (reread pow) id = node :=
    (node.map_congr (JsonTree.All.mono (fun _ => reread_of_isSmallInt pow) (fun _ _ => rfl) node plain)).trans
      node.map_id
  have read := parse_printValue pow printable sized
  rwa [fixed] at read

/-- An event with a control character. -/
def event : Node :=
  .object [(ascii "seq", .number (.finite 3)), (ascii "body", .array [.string [1, 104, 105], .boolean true])]

theorem isSmallInt_event : event.All IsSmallInt (fun str => (0 : UInt8) ∉ str) :=
  ⟨by decide, ⟨3, by decide, rfl⟩, by decide, ⟨(by decide : (0 : UInt8) ∉ [1, 104, 105]), trivial, trivial⟩, trivial⟩

theorem sized_event : Sized true 0 event := by
  have three : numberText (.finite 3) = (Number.ofInt 3).bytes := congrArg Number.bytes (numberOf_intCast 3)
  refine sized_of_length true event 0 ?_
  rw [event]
  simp only [render, renderItems, renderMembers, three]
  decide

theorem parse_printValue_event : ∃ text, printValue true 0 event = .ok text ∧ ∀ before rest, NumberEnds rest →
    parse Pow.rounded (blanks before ++ (text ++ rest)) = .ok event :=
  parse_printValue_of_isSmallInt Pow.rounded isSmallInt_event sized_event

/-- A text that is accepted can be replaced by what is printed for it. -/
theorem parse_print_parse {pow : Pow} {text : Bytes} {node : Node} (accepted : parse pow text = .ok node) {fmt : Bool}
    (printable : node.All Printable (fun _ => True)) (sized : Sized fmt 0 node) :
    ∃ out, printValue fmt 0 node = .ok out ∧ parse pow out = .ok (node.map (reread pow) id) := by
  have both := JsonTree.All.and node printable (notMem_of_parse accepted)
  have each := JsonTree.All.mono (fun _ number => number.1) (fun _ string => string.2) node both
  obtain ⟨out, run, read⟩ := parse_printValue pow each sized
  refine ⟨out, run, ?_⟩
  have whole := read [] [] numberEnds_nil
  rwa [List.append_nil] at whole

/-- `[2.50,-7]` -/
def twoNumbers : Text :=
  .array [] (.number { whole := 2, fraction := lastDigits 2 50 }) []
    (.cons [] (.number { negative := true, whole := 7 }) [] .nil)

def twoValues : Node := .array [.number (.finite (5 / 2)), .number (.finite (-7))]

/-- A bracket too many is not seen, and the numbers come back from `2.500000` and `-7`. -/
theorem parse_print_parse_twoNumbers : parse Pow.rounded (twoNumbers.bytes ++ [rightBracket]) = .ok twoValues ∧
    ∃ out, printValue false 0 twoValues = .ok out ∧ parse Pow.rounded out = .ok twoValues := by
  have accepted : parse Pow.rounded (twoNumbers.bytes ++ [rightBracket]) = .ok twoValues := by
    have fits : Fits twoNumbers :=
      ⟨(by decide : |(0 : Int)| < 2 ^ 31), (by decide : |(0 : Int)| < 2 ^ 31), trivial⟩
    have first : readNumber Pow.rounded { whole := 2, fraction := lastDigits 2 50 } = .finite (5 / 2) := by decide +kernel
    have second : readNumber Pow.rounded { negative := true, whole := 7 } = .finite (-7) := by decide +kernel
    have values : twoNumbers.read (readNumber Pow.rounded) readString = twoValues := by
      simp only [twoNumbers, twoValues, Text.read, Elements.read, first, second]
    rw [← values]
    exact parse_text Pow.rounded [] fits (numberEnds_cons (by decide) [])
  have first : reread Pow.rounded (.finite (5 / 2)) = .finite (5 / 2) := by decide +kernel
  have second : reread Pow.rounded (.finite (-7)) = .finite (-7) := by decide +kernel
  have same : twoValues.map (reread Pow.rounded) id = twoValues := by
    simp only [twoValues, JsonTree.map, JsonTree.mapItems, first, second]
  have room (d : Rat) (small : -10 ^ 62 < ⌊d⌋ ∧ ⌊d⌋ < 10 ^ 63) : Printable (.finite d) := fun _ => small
  have printable : twoValues.All Printable (fun _ => True) :=
    ⟨room (5 / 2) (by decide +kernel), room (-7) (by decide +kernel), trivial⟩
  have read := parse_print_parse accepted printable (sized_of_length false twoValues 0 (by decide +kernel))
  rw [same] at read
  exact ⟨accepted, read⟩

end WxDap.JsonPrint
