import WxDap.JsonParse
import WxDap.Lib.Parsing

namespace WxDap.JsonParse
open Decimal (ascii isDigit)
open JsonSyntax
open Parsing (Keeps)
open StringUtils (cString)

/-- What the parser steps over outside of strings. -/
def Consumable (b : UInt8) : Prop := b.toNat < 128 ∧ b ≠ quote ∧ b ≠ backslash

instance (b : UInt8) : Decidable (Consumable b) :=
  inferInstanceAs (Decidable (_ ∧ _))

def Consumes (text rest : Bytes) : Prop := ∃ taken, text = taken ++ rest ∧ ∀ b ∈ taken, Consumable b

theorem Consumes.refl (text : Bytes) : Consumes text text :=
  ⟨[], rfl, fun _ member => nomatch member⟩

theorem Consumes.trans {text middle rest : Bytes} (first : Consumes text middle) (second : Consumes middle rest) :
    Consumes text rest := by
  obtain ⟨taken, rfl, all⟩ := first
  obtain ⟨more, rfl, others⟩ := second
  refine ⟨taken ++ more, by rw [List.append_assoc], fun b member => ?_⟩
  exact (List.mem_append.mp member).elim (all b) (others b)

theorem Consumes.length_le {text rest : Bytes} (consumes : Consumes text rest) : rest.length ≤ text.length := by
  obtain ⟨taken, rfl, _⟩ := consumes
  rw [List.length_append]
  omega

theorem consumes_dropWhile {p : UInt8 → Bool} (all : ∀ b, p b → Consumable b) (text : Bytes) :
    Consumes text (text.dropWhile p) :=
  ⟨text.takeWhile p, List.takeWhile_append_dropWhile.symm, fun b member => all b (List.mem_takeWhile_imp member)⟩

theorem consumes_drop {p : UInt8 → Bool} (all : ∀ b, p b → Consumable b) (text : Bytes) :
    Consumes text (text.drop (text.takeWhile p).length) := by
  have dropped : text.drop (text.takeWhile p).length = text.dropWhile p := by
    have whole := @List.drop_left _ (text.takeWhile p) (text.dropWhile p)
    rwa [List.takeWhile_append_dropWhile] at whole
  rw [dropped]
  exact consumes_dropWhile all text

theorem consumes_tail {text : Bytes} {b : UInt8} (head : text.head? = some b) (consumable : Consumable b) :
    Consumes text text.tail := by
  cases text with
  | nil => cases head
  | cons c rest =>
    cases head
    exact ⟨[b], rfl, fun c member => List.mem_singleton.mp member ▸ consumable⟩

theorem tail_lt {text : Bytes} {b : UInt8} (head : text.head? = some b) : text.tail.length < text.length := by
  cases text with
  | nil => cases head
  | cons c rest => exact Nat.lt_succ_self _

theorem consumable_digit (b : UInt8) (digit : isDigit b = true) : Consumable b := by
  simp only [isDigit, Bool.and_eq_true, decide_eq_true_eq] at digit
  refine ⟨by omega, ?_, ?_⟩ <;> rintro rfl <;> exact absurd digit (by decide)

theorem consumable_blank (b : UInt8) (blank : decide (b.toNat ≤ 32) = true) : Consumable b := by
  rw [decide_eq_true_eq] at blank
  refine ⟨by omega, ?_, ?_⟩ <;> rintro rfl <;> exact absurd blank (by decide)

theorem consumes_skip (text : Bytes) : Consumes text (skip text) := consumes_dropWhile consumable_blank text

/-! ### Numbers -/

theorem readSigned_consumes {num rest : Bytes} {subscale : Int} (run : readSigned num = .ok (subscale, rest)) :
    Consumes num rest := by
  have signed : Consumes num (if num.head? = some plus ∨ num.head? = some minus then num.tail else num) := by
    split
    · rename_i head
      rcases head with head | head
      · exact consumes_tail head (by decide)
      · exact consumes_tail head (by decide)
    · exact Consumes.refl _
  obtain ⟨read, _, last⟩ := Parsing.of_bind run
  cases last
  exact signed.trans (consumes_dropWhile consumable_digit _)

theorem readExponent_consumes {num rest : Bytes} {subscale : Int} (run : readExponent num = .ok (subscale, rest)) :
    Consumes num rest := by
  unfold readExponent at run
  split at run
  · rename_i marked
    rcases marked with head | head
    · exact (consumes_tail head (by decide)).trans (readSigned_consumes run)
    · exact (consumes_tail head (by decide)).trans (readSigned_consumes run)
  · cases run
    exact Consumes.refl _

/-- An optional character. -/
theorem consumes_optional (text : Bytes) {b : UInt8} (consumable : Consumable b) :
    Consumes text (if text.head? = some b then text.tail else text) := by
  split
  · rename_i head
    exact consumes_tail head consumable
  · exact Consumes.refl text

theorem parseUnsigned_consumes {num rest : Bytes} {n : Double} {scale : Int}
    (run : parseUnsigned num = .ok (n, scale, rest)) :
    Consumes num rest ∧ (∀ b ∈ num.head?, isDigit b → rest.length < num.length) := by
  unfold parseUnsigned at run
  obtain ⟨⟨subscale, last⟩, read, done⟩ := Parsing.of_bind run
  cases done
  set nonzero := if num.head? = some 48 then num.tail else num with nonzero_eq
  set whole := if nonzero.head? = some 48 then [] else nonzero.takeWhile isDigit with whole_eq
  set rational := nonzero.drop whole.length with rational_eq
  set fraction := if rational.head? = some point then rational.tail.takeWhile isDigit else [] with fraction_eq
  have first : Consumes num nonzero := consumes_optional num (by decide)
  have second : Consumes nonzero rational := by
    rw [rational_eq, whole_eq]
    split
    · exact Consumes.refl _
    · exact consumes_drop consumable_digit nonzero
  have third : Consumes rational (if fraction = [] then rational else rational.drop (1 + fraction.length)) := by
    split
    · exact Consumes.refl _
    · rename_i some
      have head : rational.head? = Option.some point := by
        by_contra other
        rw [if_neg other] at fraction_eq
        exact some fraction_eq
      rw [if_pos head] at fraction_eq
      rw [← List.drop_drop, List.drop_one, fraction_eq]
      exact (consumes_tail head (by decide)).trans (consumes_drop consumable_digit _)
  have after := third.trans (readExponent_consumes read)
  refine ⟨first.trans (second.trans after), fun b head digit => ?_⟩
  have fromNonzero := (second.trans after).length_le
  have fromRational := after.length_le
  by_cases zero : num.head? = some 48
  · rw [nonzero_eq, if_pos zero] at fromNonzero
    exact Nat.lt_of_le_of_lt fromNonzero (tail_lt zero)
  · rw [if_neg zero] at nonzero_eq
    rw [nonzero_eq, if_neg zero] at whole_eq
    obtain ⟨more, rfl⟩ := List.head?_eq_some_iff.mp head
    rw [rational_eq, whole_eq, nonzero_eq, List.takeWhile_cons, if_pos digit, List.length_cons, List.drop_succ_cons,
      List.length_drop] at fromRational
    rw [List.length_cons]
    omega

/-- The text of a number. It is not empty at a minus or a digit. -/
theorem parseNumber_consumes {pow : Pow} {num rest : Bytes} {value : Double}
    (run : parseNumber pow num = .ok (value, rest)) :
    Consumes num rest ∧ (∀ b ∈ num.head?, b = minus ∨ isDigit b → rest.length < num.length) := by
  obtain ⟨⟨n, scale, last⟩, read, done⟩ := Parsing.of_bind run
  cases done
  obtain ⟨consumes, shorter⟩ := parseUnsigned_consumes read
  have first : Consumes num (if num.head? = some minus then num.tail else num) := consumes_optional num (by decide)
  refine ⟨first.trans consumes, fun b head start => ?_⟩
  by_cases negative : num.head? = some minus
  · rw [if_pos negative] at consumes
    exact Nat.lt_of_le_of_lt consumes.length_le (tail_lt negative)
  · rw [if_neg negative] at shorter
    exact shorter b head (start.resolve_left (fun same => negative (same ▸ head)))

theorem foldlM_shiftSubscale_error {digits : Bytes} {start : Int} {fault : Fault}
    (run : digits.foldlM shiftSubscale start = .error fault) : fault = .overflow := by
  induction digits generalizing start with
  | nil => cases run
  | cons b digits ih =>
    rw [List.foldlM_cons] at run
    cases shifted : shiftSubscale start b with
    | ok next =>
      rw [shifted] at run
      exact ih run
    | error other =>
      rw [shifted] at run
      cases run
      unfold shiftSubscale at shifted
      split at shifted
      · cases shifted
      · cases shifted
        rfl

theorem readExponent_error {num : Bytes} {fault : Fault} (run : readExponent num = .error fault) :
    fault = .overflow := by
  unfold readExponent at run
  split at run
  · rcases Parsing.of_bind_error run with failed | ⟨subscale, _, last⟩
    · exact foldlM_shiftSubscale_error failed
    · cases last
  · cases run

/-- Nothing but an exponent can go wrong in a number. -/
theorem parseNumber_error {pow : Pow} {num : Bytes} {fault : Fault} (run : parseNumber pow num = .error fault) :
    fault = .overflow := by
  rcases Parsing.of_bind_error run with failed | ⟨n, _, last⟩
  · rcases Parsing.of_bind_error failed with failed | ⟨subscale, _, last⟩
    · exact readExponent_error failed
    · cases last
  · cases last

/-! ### Strings -/

theorem advance_suffix {n : Nat} {ptr rest : Bytes} (run : advance n ptr = .ok rest) : rest <:+ ptr := by
  unfold advance at run
  split at run
  · cases run
    exact List.drop_suffix n ptr
  · cases run

namespace Cursor

theorem secondHalf_suffix {cursor next : Cursor} {uc : UInt32} (run : cursor.secondHalf uc = .ok next) :
    next.ptr <:+ cursor.ptr := by
  unfold secondHalf at run
  split at run
  · cases run
  · split at run
    · cases run
      exact List.suffix_refl _
    · obtain ⟨ptr, advanced, run⟩ := Parsing.of_bind run
      have further := advance_suffix advanced
      split at run
      · cases run
      · split at run
        · cases run
          exact further
        · cases run
          exact further

theorem unicode_suffix {cursor next : Cursor} (run : cursor.unicode = .ok next) : next.ptr <:+ cursor.ptr := by
  unfold unicode at run
  obtain ⟨ptr, advanced, run⟩ := Parsing.of_bind run
  have first := advance_suffix advanced
  split at run
  · cases run
  · dsimp only at run
    split_ifs at run
    · cases run
      exact first
    · exact (secondHalf_suffix run).trans first
    · cases run
      exact first

theorem unescape_suffix {cursor next : Cursor} {letter : UInt8} (run : cursor.unescape letter = .ok next) :
    next.ptr <:+ cursor.ptr := by
  unfold unescape at run
  split_ifs at run
  all_goals first | exact unicode_suffix run | (cases run; exact List.suffix_refl _)

theorem turn_suffix {cursor next : Cursor} {b : UInt8} {rest : Bytes} (run : cursor.turn b rest = .ok next) :
    next.ptr <:+ rest := by
  unfold turn at run
  split at run
  · cases run
    exact List.suffix_refl _
  · split at run
    · cases run
    · obtain ⟨last, escaped, run⟩ := Parsing.of_bind run
      obtain ⟨ptr, advanced, run⟩ := Parsing.of_bind run
      cases run
      exact (advance_suffix advanced).trans (unescape_suffix escaped)

theorem run_suffix {fuel : Nat} {cursor last : Cursor} (run : cursor.run fuel = .ok last) :
    last.ptr <:+ cursor.ptr := by
  induction fuel generalizing cursor with
  | zero =>
    cases run
    exact List.suffix_refl _
  | succ fuel ih =>
    unfold Cursor.run at run
    split at run
    · cases run
      exact List.suffix_refl _
    · rename_i b rest here
      split at run
      · cases run
        exact List.suffix_refl _
      · obtain ⟨next, turned, run⟩ := Parsing.of_bind run
        rw [here]
        exact ((ih run).trans (turn_suffix turned)).trans (List.suffix_cons b rest)

end Cursor

theorem unquote_suffix {ptr rest : Bytes} {out : Bytes} (run : unquote ptr = .ok (out, rest)) : rest <:+ ptr := by
  obtain ⟨len, _, run⟩ := Parsing.of_bind run
  split at run
  · cases run
  · obtain ⟨last, ran, run⟩ := Parsing.of_bind run
    split at run
    · cases run
      exact (List.drop_suffix 1 last.ptr).trans (Cursor.run_suffix ran)
    · cases run

theorem parseString_suffix {str rest : Bytes} {out : Bytes} (run : parseString str = .ok (out, rest)) :
    rest <:+ str ∧ rest.length < str.length := by
  unfold parseString at run
  split at run
  · cases run
  · rename_i b ptr
    split at run
    · cases run
    · cases unquoted : unquote ptr with
      | error fault => rw [unquoted] at run; cases run
      | ok result =>
        rw [unquoted] at run
        cases run
        have suffix := unquote_suffix unquoted
        exact ⟨suffix.trans (List.suffix_cons b ptr), Nat.lt_succ_of_le suffix.length_le⟩

/-! ### Values -/

section
variable {P Q : Bytes → Prop} {F : Fault → Prop} {pow : Pow}

/-- A reason to stop, at a text with `P` or with a fault in `F`. -/
def Stop.Meets (P : Bytes → Prop) (F : Fault → Prop) : Stop → Prop
  | .failed ep => P ep
  | .fault why => F why

/-- `P` of the text that is left stays true wherever the parser goes, and gives `Q` of every string. -/
structure Invariant (P Q : Bytes → Prop) (F : Fault → Prop) : Prop where
  step : ∀ b rest, Consumable b → P (b :: rest) → P rest
  string : ∀ str, P str → Keeps Q P (Stop.Meets P F) (parseString str)
  overflow : F .overflow

theorem Invariant.consumes (inv : Invariant P Q F) {text rest : Bytes} (consumes : Consumes text rest)
    (holds : P text) : P rest := by
  obtain ⟨taken, rfl, all⟩ := consumes
  induction taken with
  | nil => exact holds
  | cons b taken ih =>
    rw [List.forall_mem_cons] at all
    exact ih all.2 (inv.step b _ all.1 holds)

/-- Two invariants at once. -/
theorem Invariant.and {P' Q' : Bytes → Prop} {F' : Fault → Prop} (inv : Invariant P Q F) (other : Invariant P' Q' F') :
    Invariant (fun text => P text ∧ P' text) (fun str => Q str ∧ Q' str) (fun fault => F fault ∧ F' fault) where
  step b rest consumable holds := ⟨inv.step b rest consumable holds.1, other.step b rest consumable holds.2⟩
  string text holds := by
    have first := inv.string text holds.1
    have second := other.string text holds.2
    cases run : parseString text with
    | ok result =>
      rw [run] at first second
      exact ⟨⟨first.1, second.1⟩, first.2, second.2⟩
    | error stop =>
      rw [run] at first second
      cases stop with
      | failed ep => exact ⟨first, second⟩
      | fault why => exact ⟨first, second⟩
  overflow := ⟨inv.overflow, other.overflow⟩

/-- What an outcome satisfies that leaves less than the given text. -/
abbrev Leaves {α : Type} (P : Bytes → Prop) (F : Fault → Prop) (good : α → Prop) (text : Bytes) :
    Except Stop (α × Bytes) → Prop :=
  Keeps good (fun rest => P rest ∧ rest.length < text.length) (Stop.Meets P F)

/-- An outcome that need not have used any of the text. -/
abbrev LeavesLoop {α : Type} (P : Bytes → Prop) (F : Fault → Prop) (good : α → Prop) (text : Bytes) :
    Except Stop (α × Bytes) → Prop :=
  Keeps good (fun rest => P rest ∧ rest.length ≤ text.length) (Stop.Meets P F)

abbrev AllStrings (Q : Bytes → Prop) : Node → Prop := JsonTree.All (fun _ => True) Q

/-- All functions of the parser keep an invariant, with enough fuel for the text that is left. -/
structure KeepsInvariant (pow : Pow) (P Q : Bytes → Prop) (F : Fault → Prop) (fuel : Nat) : Prop where
  value : ∀ text, P text → 2 * text.length < fuel →
    Leaves P F (AllStrings Q) text (parseValue pow fuel text)
  array : ∀ text, P text → text.head? = some leftBracket → 2 * text.length ≤ fuel →
    Leaves P F (AllStrings Q) text (parseArray pow fuel text)
  elements : ∀ text, P text → 2 * text.length < fuel →
    LeavesLoop P F (JsonTree.AllItems (fun _ => True) Q) text (parseElements pow fuel text)
  object : ∀ text, P text → text.head? = some leftBrace → 2 * text.length ≤ fuel →
    Leaves P F (AllStrings Q) text (parseObject pow fuel text)
  member : ∀ text, P text → 2 * text.length < fuel →
    Leaves P F (fun member => Q member.1 ∧ AllStrings Q member.2) text (parseMember pow fuel text)
  members : ∀ text, P text → 2 * text.length < fuel →
    LeavesLoop P F (JsonTree.AllMembers (fun _ => True) Q) text (parseMembers pow fuel text)

/-- White space is stepped over. -/
theorem Invariant.skipped (inv : Invariant P Q F) {text : Bytes} (holds : P text) :
    P (skip text) ∧ (skip text).length ≤ text.length :=
  ⟨inv.consumes (consumes_skip text) holds, (consumes_skip text).length_le⟩

/-- One character is stepped over. -/
theorem Invariant.dropped (inv : Invariant P Q F) {text : Bytes} {b : UInt8} (head : text.head? = some b)
    (consumable : Consumable b) (holds : P text) : P (text.drop 1) ∧ (text.drop 1).length < text.length := by
  rw [List.drop_one]
  exact ⟨inv.consumes (consumes_tail head consumable) holds, tail_lt head⟩

/-- One character and the white space after it are stepped over. -/
theorem Invariant.opened (inv : Invariant P Q F) {text : Bytes} {b : UInt8} (head : text.head? = some b)
    (consumable : Consumable b) (holds : P text) :
    P (skip (text.drop 1)) ∧ (skip (text.drop 1)).length < text.length := by
  have dropped := inv.dropped head consumable holds
  have skipped := inv.skipped dropped.1
  exact ⟨skipped.1, Nat.lt_of_le_of_lt skipped.2 dropped.2⟩

/-- A literal is stepped over. -/
theorem Invariant.literal (inv : Invariant P Q F) {text literal : Bytes} (found : literal.isPrefixOf text = true)
    (consumable : literal.all Consumable = true) (nonempty : 0 < literal.length) (holds : P text) :
    P (text.drop literal.length) ∧ (text.drop literal.length).length < text.length := by
  obtain ⟨rest, rfl⟩ := List.isPrefixOf_iff_prefix.mp found
  have all : ∀ b ∈ literal, Consumable b := fun b member => of_decide_eq_true (List.all_eq_true.mp consumable b member)
  rw [List.drop_left]
  refine ⟨inv.consumes ⟨literal, rfl, all⟩ holds, ?_⟩
  rw [List.length_append]
  omega

theorem Invariant.parsedString (inv : Invariant P Q F) {text : Bytes} (holds : P text) :
    Leaves P F Q text (parseString text) := by
  have keeps := inv.string text holds
  cases run : parseString text with
  | error stop => exact keeps.of_error run
  | ok result =>
    obtain ⟨good, after⟩ := keeps.of_ok run
    exact ⟨good, after, (parseString_suffix run).2⟩

theorem Invariant.parsedNumber (inv : Invariant P Q F) {text : Bytes} {b : UInt8} (head : text.head? = some b)
    (start : b = minus ∨ isDigit b = true) (holds : P text) :
    Leaves P F (fun _ => True) text ((parseNumber pow text).mapError Stop.fault) := by
  refine Keeps.mapError ?_
  cases run : parseNumber pow text with
  | error fault =>
    cases parseNumber_error run
    exact inv.overflow
  | ok result =>
    obtain ⟨consumes, shorter⟩ := parseNumber_consumes run
    exact ⟨trivial, inv.consumes consumes holds, shorter b head start⟩

variable {fuel : Nat}

theorem KeepsInvariant.value_succ (inv : Invariant P Q F) (keeps : KeepsInvariant pow P Q F fuel) {text : Bytes}
    (holds : P text) (enough : 2 * text.length < fuel + 1) :
    Leaves P F (AllStrings Q) text (parseValue pow (fuel + 1) text) := by
  unfold parseValue
  split
  · rename_i found
    rw [ascii_null] at found
    exact ⟨trivial, inv.literal found (by decide) (by decide) holds⟩
  split
  · rename_i found
    rw [ascii_false] at found
    exact ⟨trivial, inv.literal found (by decide) (by decide) holds⟩
  split
  · rename_i found
    rw [ascii_true] at found
    exact ⟨trivial, inv.literal found (by decide) (by decide) holds⟩
  split
  · exact holds
  rename_i b rest
  split
  · exact (inv.parsedString holds).bind (fun _ _ good after => ⟨good, after⟩)
  split
  · rename_i start
    exact (inv.parsedNumber rfl start holds).bind (fun _ _ _ after => ⟨trivial, after⟩)
  split
  · rename_i bracket
    exact keeps.array _ holds (congrArg some bracket) (Nat.le_of_lt_succ enough)
  split
  · rename_i brace
    exact keeps.object _ holds (congrArg some brace) (Nat.le_of_lt_succ enough)
  · exact holds

theorem KeepsInvariant.array_succ (inv : Invariant P Q F) (keeps : KeepsInvariant pow P Q F fuel) {text : Bytes}
    (holds : P text) (head : text.head? = some leftBracket) (enough : 2 * text.length ≤ fuel + 1) :
    Leaves P F (AllStrings Q) text (parseArray pow (fuel + 1) text) := by
  rw [parseArray]
  obtain ⟨opened, shorter⟩ := inv.opened head (by decide) holds
  split
  · rename_i closed
    obtain ⟨last, less⟩ := inv.dropped closed (by decide) opened
    exact ⟨trivial, last, Nat.lt_trans less shorter⟩
  · obtain ⟨start, within⟩ := inv.skipped opened
    refine (keeps.value _ start (by omega)).bind (fun child value childGood => ?_)
    rintro ⟨after, used⟩
    obtain ⟨again, rest⟩ := inv.skipped after
    refine (keeps.elements _ again (by omega)).bind (fun others value othersGood => ?_)
    rintro ⟨last, left⟩
    dsimp only
    split
    · rename_i closed
      obtain ⟨final, less⟩ := inv.dropped closed (by decide) last
      exact ⟨⟨childGood, othersGood⟩, final, by omega⟩
    · exact last

theorem KeepsInvariant.elements_succ (inv : Invariant P Q F) (keeps : KeepsInvariant pow P Q F fuel) {text : Bytes}
    (holds : P text) (enough : 2 * text.length < fuel + 1) :
    LeavesLoop P F (JsonTree.AllItems (fun _ => True) Q) text (parseElements pow (fuel + 1) text) := by
  rw [parseElements]
  split
  · rename_i head
    obtain ⟨start, shorter⟩ := inv.opened head (by decide) holds
    refine (keeps.value _ start (by omega)).bind (fun child value childGood => ?_)
    rintro ⟨after, used⟩
    obtain ⟨again, rest⟩ := inv.skipped after
    refine (keeps.elements _ again (by omega)).bind (fun others value othersGood => ?_)
    rintro ⟨last, left⟩
    exact ⟨⟨childGood, othersGood⟩, last, by omega⟩
  · exact ⟨trivial, holds, Nat.le_refl _⟩

theorem KeepsInvariant.object_succ (inv : Invariant P Q F) (keeps : KeepsInvariant pow P Q F fuel) {text : Bytes}
    (holds : P text) (head : text.head? = some leftBrace) (enough : 2 * text.length ≤ fuel + 1) :
    Leaves P F (AllStrings Q) text (parseObject pow (fuel + 1) text) := by
  rw [parseObject]
  obtain ⟨opened, shorter⟩ := inv.opened head (by decide) holds
  split
  · rename_i closed
    obtain ⟨last, less⟩ := inv.dropped closed (by decide) opened
    exact ⟨trivial, last, Nat.lt_trans less shorter⟩
  · obtain ⟨start, within⟩ := inv.skipped opened
    refine (keeps.member _ start (by omega)).bind (fun child value childGood => ?_)
    rintro ⟨after, used⟩
    refine (keeps.members _ after (by omega)).bind (fun others value othersGood => ?_)
    rintro ⟨last, left⟩
    dsimp only
    split
    · rename_i closed
      obtain ⟨final, less⟩ := inv.dropped closed (by decide) last
      exact ⟨⟨childGood.1, childGood.2, othersGood⟩, final, by omega⟩
    · exact last

theorem KeepsInvariant.member_succ (inv : Invariant P Q F) (keeps : KeepsInvariant pow P Q F fuel) {text : Bytes}
    (holds : P text) (enough : 2 * text.length < fuel + 1) :
    Leaves P F (fun member => Q member.1 ∧ AllStrings Q member.2) text (parseMember pow (fuel + 1) text) := by
  rw [parseMember]
  refine (inv.parsedString holds).bind (fun name value nameGood => ?_)
  rintro ⟨after, used⟩
  obtain ⟨again, rest⟩ := inv.skipped after
  dsimp only
  split
  · exact again
  · rename_i head
    obtain ⟨start, shorter⟩ := inv.opened (not_not.mp head) (by decide) again
    refine (keeps.value _ start (by omega)).bind (fun child value childGood => ?_)
    rintro ⟨last, left⟩
    obtain ⟨final, less⟩ := inv.skipped last
    exact ⟨⟨nameGood, childGood⟩, final, Nat.lt_of_le_of_lt less (by omega)⟩

theorem KeepsInvariant.members_succ (inv : Invariant P Q F) (keeps : KeepsInvariant pow P Q F fuel) {text : Bytes}
    (holds : P text) (enough : 2 * text.length < fuel + 1) :
    LeavesLoop P F (JsonTree.AllMembers (fun _ => True) Q) text (parseMembers pow (fuel + 1) text) := by
  rw [parseMembers]
  split
  · rename_i head
    obtain ⟨start, shorter⟩ := inv.opened head (by decide) holds
    refine (keeps.member _ start (by omega)).bind (fun child value childGood => ?_)
    rintro ⟨after, used⟩
    refine (keeps.members _ after (by omega)).bind (fun others value othersGood => ?_)
    rintro ⟨last, left⟩
    exact ⟨⟨childGood.1, childGood.2, othersGood⟩, last, by omega⟩
  · exact ⟨trivial, holds, Nat.le_refl _⟩

theorem Invariant.keeps (inv : Invariant P Q F) (pow : Pow) (fuel : Nat) : KeepsInvariant pow P Q F fuel := by
  induction fuel with
  | zero =>
    refine ⟨?_, ?_, ?_, ?_, ?_, ?_⟩
    · exact fun text _ enough => absurd enough (Nat.not_lt_zero _)
    · intro text _ head enough
      have shorter := tail_lt head
      omega
    · exact fun text _ enough => absurd enough (Nat.not_lt_zero _)
    · intro text _ head enough
      have shorter := tail_lt head
      omega
    · exact fun text _ enough => absurd enough (Nat.not_lt_zero _)
    · exact fun text _ enough => absurd enough (Nat.not_lt_zero _)
  | succ fuel ih =>
    exact {
      value := fun text => ih.value_succ inv
      array := fun text => ih.array_succ inv
      elements := fun text => ih.elements_succ inv
      object := fun text => ih.object_succ inv
      member := fun text => ih.member_succ inv
      members := fun text => ih.members_succ inv }

/-- What the parser makes of a text with an invariant, from the first character on. -/
theorem Invariant.parse (inv : Invariant P Q F) (pow : Pow) {text : Bytes} (holds : P (cString text)) :
    (∀ node, parse pow text = .ok node → AllStrings Q node) ∧
      ∀ stop, parse pow text = .error stop → stop.Meets P F := by
  have keeps := (inv.keeps pow (2 * (skip (cString text)).length + 1)).value (skip (cString text))
    (inv.skipped holds).1 (Nat.lt_succ_self _)
  constructor
  · intro node run
    obtain ⟨result, parsed, last⟩ := Parsing.of_bind run
    cases last
    exact (keeps.of_ok parsed).1
  · intro stop run
    rcases Parsing.of_bind_error run with failed | ⟨result, _, last⟩
    · exact keeps.of_error failed
    · cases last

end

end WxDap.JsonParse
