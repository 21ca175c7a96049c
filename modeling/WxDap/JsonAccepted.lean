import WxDap.JsonStrings

namespace WxDap.JsonParse
open JsonSyntax
open Parsing (Keeps)
open StringUtils (cString)

/-- No backslash of a text stands before its end, and four digits stand after every `\u`. -/
inductive EscapesComplete : Bytes → Prop
  | nil : EscapesComplete []
  | plain {b : UInt8} {rest : Bytes} : b ≠ backslash → EscapesComplete rest → EscapesComplete (b :: rest)
  | escape {letter : UInt8} {rest : Bytes} : letter ≠ 117 → EscapesComplete rest →
      EscapesComplete (backslash :: letter :: rest)
  | unit (code : CodeUnit) {rest : Bytes} : EscapesComplete rest →
      EscapesComplete (backslash :: 117 :: (code.digits ++ rest))

theorem EscapesComplete.of_cons {b : UInt8} {rest : Bytes} (complete : EscapesComplete (b :: rest))
    (solid : b ≠ backslash) : EscapesComplete rest := by
  cases complete with
  | plain _ later => exact later
  | escape other later => exact absurd rfl solid
  | unit code later => exact absurd rfl solid

/-- The string at the front of such a text comes in pieces. -/
theorem EscapesComplete.pieces {text : Bytes} (complete : EscapesComplete text) :
    ∃ (pieces : List Piece) (tail : Bytes), text = pieces.flatMap Piece.bytes ++ tail ∧ Ended tail ∧
      EscapesComplete tail := by
  induction complete with
  | nil => exact ⟨[], [], rfl, .inl rfl, .nil⟩
  | @plain b rest solid later ih =>
    by_cases closing : b = quote
    · exact ⟨[], b :: rest, rfl, .inr (congrArg some closing), .plain solid later⟩
    · obtain ⟨pieces, tail, rfl, ended, last⟩ := ih
      exact ⟨.plain b ⟨closing, solid⟩ :: pieces, tail, rfl, ended, last⟩
  | @escape letter rest other later ih =>
    obtain ⟨pieces, tail, rfl, ended, last⟩ := ih
    exact ⟨.escape letter other :: pieces, tail, rfl, ended, last⟩
  | @unit code rest later ih =>
    obtain ⟨pieces, tail, rfl, ended, last⟩ := ih
    exact ⟨.unit code :: pieces, tail, rfl, ended, last⟩

/-- What parser and text have in common when no escape is cut short. -/
theorem parseString_complete {text : Bytes} (complete : EscapesComplete text) :
    parseString text = .error (.failed text) ∨ parseString text = .error (.fault .overflow) ∨
      ∃ (pieces : List Piece) (tail : Bytes), text = quote :: (pieces.flatMap Piece.bytes ++ tail) ∧ Ended tail ∧
        EscapesComplete tail ∧ parseString text = .ok (readPieces pieces, tail.drop 1) := by
  cases text with
  | nil => exact .inl rfl
  | cons b rest =>
    by_cases opening : b = quote
    · subst opening
      obtain ⟨pieces, tail, rfl, ended, last⟩ := (complete.of_cons (by decide)).pieces
      have run := parseString_pieces pieces ended
      split_ifs at run
      · exact .inr (.inl run)
      · exact .inr (.inr ⟨pieces, tail, rfl, ended, last, run⟩)
    · exact .inl (if_pos opening)

theorem EscapesComplete.closing {tail : Bytes} (complete : EscapesComplete tail) (ended : Ended tail) :
    EscapesComplete (tail.drop 1) := by
  rcases ended with rfl | closing
  · exact complete
  · obtain ⟨rest, rfl⟩ := List.head?_eq_some_iff.mp closing
    exact complete.of_cons (by decide)

/-- Nothing but an `int` that overflows is undefined behaviour in such a text. -/
theorem escapesComplete_invariant : Invariant EscapesComplete (fun _ => True) (· = .overflow) where
  step _ _ consumable complete := complete.of_cons consumable.2.2
  string text complete := by
    rcases parseString_complete complete with failed | long | ⟨pieces, tail, _, ended, later, run⟩
    · rw [failed]
      exact complete
    · rw [long]
      exact rfl
    · rw [run]
      exact ⟨trivial, later.closing ended⟩
  overflow := rfl

/-- In a UTF-8 text the strings are UTF-8. -/
theorem isUtf8_invariant :
    Invariant (fun text => EscapesComplete text ∧ IsUtf8 text) IsUtf8 (fun _ => True) where
  step _ _ consumable holds := ⟨holds.1.of_cons consumable.2.2, holds.2.of_cons consumable.1⟩
  string text holds := by
    rcases parseString_complete holds.1 with failed | long | ⟨pieces, tail, same, ended, later, run⟩
    · rw [failed]
      exact holds
    · rw [long]
      exact trivial
    · have whole := holds.2
      rw [same] at whole
      obtain ⟨read, last⟩ := isUtf8_readPieces ended (whole.of_cons (by decide))
      rw [run]
      refine ⟨read, later.closing ended, ?_⟩
      rcases ended with rfl | closing
      · exact last
      · obtain ⟨rest, rfl⟩ := List.head?_eq_some_iff.mp closing
        exact last.of_cons (by decide)
  overflow := trivial

/-! ### No string contains a terminator -/

theorem zero_notMem_transcode {uc : UInt32} (some : uc ≠ 0) : (0 : UInt8) ∉ (transcode uc).1 := by
  have marked (b m : UInt8) (nonzero : m.toNat ≠ 0) : b ||| m ≠ 0 := by
    intro zero
    have bits := congrArg UInt8.toNat zero
    rw [UInt8.toNat_or] at bits
    have bound : m.toNat ≤ b.toNat ||| m.toNat := Nat.right_le_or
    rw [bits] at bound
    exact nonzero (Nat.le_zero.mp bound)
  have follows (uc : UInt32) : continuation uc ≠ 0 := by
    rw [continuation_eq]
    exact marked _ _ (by decide)
  unfold transcode
  split_ifs with small
  · intro member
    have zero := congrArg UInt8.toNat (List.mem_singleton.mp member)
    have bound := UInt32.lt_iff_toNat_lt.mp small
    rw [UInt32.toNat_toUInt8, Nat.mod_eq_of_lt (Nat.lt_trans bound (by decide))] at zero
    exact some (UInt32.toNat_inj.mp zero.symm)
  · simp [(marked _ 0xC0 (by decide)).symm, (follows _).symm]
  · simp [(marked _ 0xE0 (by decide)).symm, (follows _).symm]
  · simp [(marked _ 0xF0 (by decide)).symm, (follows _).symm]

theorem surrogates_ne_zero (uc uc2 : UInt32) : surrogates uc uc2 ≠ 0 := by
  intro zero
  have bits := congrArg UInt32.toNat zero
  rw [surrogates, UInt32.toNat_or, UInt32.toNat_or] at bits
  have first : UInt32.toNat 0x10000 ≤ UInt32.toNat 0x10000 ||| ((uc &&& 0x3FF) <<< 10).toNat := Nat.left_le_or
  have second := @Nat.left_le_or (UInt32.toNat 0x10000 ||| ((uc &&& 0x3FF) <<< 10).toNat) (uc2 &&& 0x3FF).toNat
  rw [bits] at second
  exact absurd (Nat.le_trans first second) (by decide)

namespace Cursor

/-- The cursor has no terminator before it or behind it. -/
def Solid (cursor : Cursor) : Prop := (0 : UInt8) ∉ cursor.out ∧ (0 : UInt8) ∉ cursor.ptr

theorem Solid.encode {cursor : Cursor} (solid : cursor.Solid) {uc : UInt32} (nonzero : uc ≠ 0) :
    (cursor.encode uc).Solid := by
  refine ⟨?_, solid.2⟩
  rw [Cursor.encode, List.mem_append, not_or]
  exact ⟨solid.1, zero_notMem_transcode nonzero⟩

theorem Solid.put {cursor : Cursor} (solid : cursor.Solid) {b : UInt8} (nonzero : b ≠ 0) : (cursor.put b).Solid := by
  refine ⟨?_, solid.2⟩
  rw [Cursor.put, List.mem_append, not_or, List.mem_singleton]
  exact ⟨solid.1, nonzero.symm⟩

theorem Solid.move {cursor : Cursor} (solid : cursor.Solid) {rest : Bytes} (suffix : rest <:+ cursor.ptr)
    (uc uc2 : Option UInt32) : Solid ⟨rest, cursor.out, uc, uc2⟩ :=
  ⟨solid.1, fun member => solid.2 (suffix.subset member)⟩

theorem Solid.secondHalf {cursor next : Cursor} {uc : UInt32} (solid : cursor.Solid)
    (run : cursor.secondHalf uc = .ok next) : next.Solid := by
  unfold Cursor.secondHalf at run
  split at run
  · cases run
  · split at run
    · cases run
      exact solid
    · obtain ⟨ptr, advanced, run⟩ := Parsing.of_bind run
      have moved := advance_suffix advanced
      split at run
      · cases run
      · split at run
        · cases run
          exact solid.move moved _ _
        · cases run
          exact (solid.move moved _ _).encode (surrogates_ne_zero _ _)

theorem Solid.unicode {cursor next : Cursor} (solid : cursor.Solid) (run : cursor.unicode = .ok next) :
    next.Solid := by
  unfold Cursor.unicode at run
  obtain ⟨ptr, advanced, run⟩ := Parsing.of_bind run
  have moved := advance_suffix advanced
  split at run
  · cases run
  · dsimp only at run
    split_ifs at run with dropped high
    · cases run
      exact solid.move moved _ _
    · exact (solid.move moved _ _).secondHalf run
    · cases run
      exact (solid.move moved _ _).encode (not_or.mp dropped).2

theorem Solid.unescape {cursor next : Cursor} (solid : cursor.Solid) {letter : UInt8} (nonzero : letter ≠ 0)
    (run : cursor.unescape letter = .ok next) : next.Solid := by
  unfold Cursor.unescape at run
  split_ifs at run
  all_goals first
    | exact solid.unicode run
    | (cases run; exact solid.put (by decide))
    | (cases run; exact solid.put nonzero)

theorem Solid.turn {cursor next : Cursor} (solid : cursor.Solid) {b : UInt8} {rest : Bytes}
    (here : cursor.ptr = b :: rest) (run : cursor.turn b rest = .ok next) : next.Solid := by
  have inside := solid.2
  rw [here, List.mem_cons, not_or] at inside
  have suffix : rest <:+ cursor.ptr := here ▸ List.suffix_cons b rest
  unfold Cursor.turn at run
  split at run
  · cases run
    exact (solid.put (Ne.symm inside.1)).move suffix _ _
  · split at run
    · cases run
    · rename_i letter more
      obtain ⟨last, escaped, run⟩ := Parsing.of_bind run
      obtain ⟨ptr, advanced, run⟩ := Parsing.of_bind run
      cases run
      have letterSolid : letter ≠ 0 := fun zero => inside.2 (zero ▸ List.mem_cons_self)
      have next := (solid.move suffix cursor.uc cursor.uc2).unescape letterSolid escaped
      exact next.move (advance_suffix advanced) _ _

theorem Solid.run {fuel : Nat} {cursor last : Cursor} (solid : cursor.Solid) (run : cursor.run fuel = .ok last) :
    last.Solid := by
  induction fuel generalizing cursor with
  | zero =>
    cases run
    exact solid
  | succ fuel ih =>
    unfold Cursor.run at run
    split at run
    · cases run
      exact solid
    · rename_i b rest here
      split at run
      · cases run
        exact solid
      · obtain ⟨next, turned, run⟩ := Parsing.of_bind run
        exact ih (solid.turn here turned) run

end Cursor

theorem zero_notMem_unquote {ptr rest out : Bytes} (solid : (0 : UInt8) ∉ ptr) (run : unquote ptr = .ok (out, rest)) :
    (0 : UInt8) ∉ out := by
  obtain ⟨len, _, run⟩ := Parsing.of_bind run
  split at run
  · cases run
  · obtain ⟨last, ran, run⟩ := Parsing.of_bind run
    have start : Cursor.Solid { ptr := ptr } := ⟨List.not_mem_nil, solid⟩
    split at run
    · cases run
      exact (start.run ran).1
    · cases run

/-- How `parse_string` can end. -/
theorem parseString_cases (str : Bytes) :
    parseString str = .error (.failed str) ∨
      ∃ ptr, str = quote :: ptr ∧ parseString str = (unquote ptr).mapError .fault := by
  cases str with
  | nil => exact .inl rfl
  | cons b ptr =>
    by_cases opening : b = quote
    · subst opening
      exact .inr ⟨ptr, rfl, rfl⟩
    · exact .inl (if_pos opening)

/-- The error pointer never leaves the text. -/
theorem suffix_invariant (text : Bytes) : Invariant (· <:+ text) (fun _ => True) (fun _ => True) where
  step b rest _ suffix := (List.suffix_cons b rest).trans suffix
  string str suffix := by
    rcases parseString_cases str with failed | ⟨ptr, rfl, run⟩
    · rw [failed]
      exact suffix
    · rw [run]
      refine Keeps.mapError ?_
      cases unquoted : unquote ptr with
      | error fault => exact trivial
      | ok result => exact ⟨trivial, ((unquote_suffix unquoted).trans (List.suffix_cons _ _)).trans suffix⟩
  overflow := trivial

/-- No string of a tree goes on behind its terminator. -/
theorem solid_invariant : Invariant (fun text => (0 : UInt8) ∉ text) (fun str => (0 : UInt8) ∉ str) (fun _ => True) where
  step b rest _ solid member := solid (List.mem_cons_of_mem b member)
  string str solid := by
    rcases parseString_cases str with failed | ⟨ptr, rfl, run⟩
    · rw [failed]
      exact solid
    · rw [run]
      refine Keeps.mapError ?_
      have behind : (0 : UInt8) ∉ ptr := fun member => solid (List.mem_cons_of_mem quote member)
      cases unquoted : unquote ptr with
      | error fault => exact trivial
      | ok result =>
        exact ⟨zero_notMem_unquote behind unquoted, fun member => behind ((unquote_suffix unquoted).subset member)⟩
  overflow := trivial

/-! ### The whole text -/

/-- `cJSON_Parse` reads within the text and writes within its buffers, and its error pointer is in the text; only
the exponent of a number and the length of a string may overflow. -/
def StaysInside (pow : Pow) (text : Bytes) : Prop :=
  match parse pow text with
  | .ok _ => True
  | .error stop => stop.Meets (· <:+ cString text) (· = .overflow)

theorem zero_notMem_cString (text : Bytes) : (0 : UInt8) ∉ cString text := by
  intro member
  have other := List.mem_takeWhile_imp member
  simp at other

theorem staysInside (pow : Pow) {text : Bytes} (complete : EscapesComplete (cString text)) :
    StaysInside pow text := by
  unfold StaysInside
  cases run : parse pow text with
  | ok node => exact trivial
  | error stop =>
    have inside := ((suffix_invariant (cString text)).parse pow List.suffix_rfl).2 stop run
    have defined := (escapesComplete_invariant.parse pow complete).2 stop run
    cases stop with
    | failed ep => exact inside
    | fault why => exact defined

/-- A string that is not closed, after a line feed. -/
def unclosed : Bytes := [34, 92, 110, 120]

theorem escapesComplete_unclosed : EscapesComplete (cString unclosed) :=
  .plain (by decide) (.escape (by decide) (.plain (by decide) .nil))

theorem staysInside_unclosed : StaysInside Pow.rounded unclosed :=
  staysInside Pow.rounded escapesComplete_unclosed

/-- What a C string and a UTF-8 converter can take over whole. -/
def IsCText (str : Bytes) : Prop := IsUtf8 str ∧ (0 : UInt8) ∉ str

theorem notMem_of_parse {pow : Pow} {text : Bytes} {node : Node} (run : parse pow text = .ok node) :
    AllStrings (fun str => (0 : UInt8) ∉ str) node :=
  (solid_invariant.parse pow (zero_notMem_cString text)).1 node run

theorem strings_wellFormed (pow : Pow) {text : Bytes} (complete : EscapesComplete (cString text))
    (utf8 : IsUtf8 (cString text)) {node : Node} (run : parse pow text = .ok node) : AllStrings IsCText node :=
  ((isUtf8_invariant.and solid_invariant).parse pow ⟨⟨complete, utf8⟩, zero_notMem_cString text⟩).1 node run

theorem strings_wellFormed_unclosed : AllStrings IsCText (.string [10, 120]) := by
  have utf8 : IsUtf8 (cString unclosed) := ⟨unclosed.map (fun b => Char.ofNat b.toNat), by decide⟩
  exact strings_wellFormed Pow.rounded escapesComplete_unclosed utf8 rfl

end WxDap.JsonParse
