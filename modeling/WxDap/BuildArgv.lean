import WxDap.Lib.Quoting
import WxDap.StringUtils

namespace WxDap.StringUtils

/-! An ASCII `wxString` is modelled by its bytes. -/

inductive ArgvState
  | NORMAL
  | DQUOTE
  | SQUOTE
  | ESCAPE
  | BACKTICK
  deriving DecidableEq, Repr

/-- The local variables of `BuildArgv`. -/
structure Argv where
  A : List Bytes := []
  state : ArgvState := .NORMAL
  prev_state : ArgvState := .NORMAL
  curstr : Bytes := []
  deriving DecidableEq, Repr

namespace Argv

def pushCurtoken (argv : Argv) : Argv :=
  if argv.curstr ≠ [] then { argv with A := argv.A ++ [argv.curstr], curstr := [] } else argv

def changeState (argv : Argv) (newState : ArgvState) : Argv :=
  { argv with prev_state := argv.state, state := newState }

def restoreState (argv : Argv) : Argv :=
  { argv with state := argv.prev_state, prev_state := .NORMAL }

/-- `curstr << text` -/
def append (argv : Argv) (text : Bytes) : Argv :=
  { argv with curstr := argv.curstr ++ text }

def normal (argv : Argv) (ch : UInt8) : Argv :=
  if ch = 32 ∨ ch = 9 then argv.pushCurtoken
  else if ch = 39 then (argv.changeState .SQUOTE).append [ch]
  else if ch = 34 then (argv.changeState .DQUOTE).append [ch]
  else if ch = 96 then (argv.changeState .BACKTICK).append [ch]
  else argv.append [ch]

/-- The three states inside a quoted region. -/
def quoted (quote : UInt8) (argv : Argv) (ch : UInt8) : Argv :=
  if ch = 92 then argv.changeState .ESCAPE
  else if ch = quote then (argv.append [ch]).restoreState
  else argv.append [ch]

/-- The three branches of the escape state. -/
def escaped (quote : UInt8) (argv : Argv) (ch : UInt8) : Argv :=
  if ch = quote then (argv.append [quote]).restoreState
  else (argv.append [92, ch]).restoreState

def step (argv : Argv) (ch : UInt8) : Argv :=
  match argv.state with
  | .NORMAL => argv.normal ch
  | .ESCAPE =>
    if argv.prev_state = .DQUOTE then argv.escaped 34 ch
    else if argv.prev_state = .BACKTICK then argv.escaped 96 ch
    else argv.escaped 39 ch
  | .DQUOTE => argv.quoted 34 ch
  | .SQUOTE => argv.quoted 39 ch
  | .BACKTICK => argv.quoted 96 ch

/-- The loop over the characters. -/
def scan (argv : Argv) (str : Bytes) : Argv := str.foldl step argv

end Argv

/-- The vector `A` at the end. -/
def tokens (str : Bytes) : List Bytes := (Argv.scan {} str).pushCurtoken.A

/-- `BuildArgv(str, argc)`; `none` is the null pointer. Every token is copied by `strdup`. -/
def buildArgv (str : Bytes) : Option (List Bytes) :=
  if tokens str = [] then none else some ((tokens str).map cString)

/-- The outer double quotes of a token are taken away. -/
def stripQuotes (s : Bytes) : Bytes :=
  if s.length > 1 ∧ s.head? = some 34 ∧ s.getLast? = some 34 then s.dropLast.drop 1 else s

/-- The overload that gives a vector. -/
def argvVector (str : Bytes) : List Bytes := ((buildArgv str).getD []).map stripQuotes

/-! ### Quoted words -/

/-- The convention of `BuildArgv`: spaces and tabs outside of three kinds of quotes. -/
def argvQuoting : Quoting UInt8 where
  blank := fun ch => ch == 32 || ch == 9
  quote := fun ch => ch == 39 || ch == 34 || ch == 96
  escape := 92

/-- The state inside a region that the quote opens. -/
def quoteState (quote : UInt8) : ArgvState :=
  if quote = 34 then .DQUOTE else if quote = 96 then .BACKTICK else .SQUOTE

theorem quote_cases {quote : UInt8} (opens : argvQuoting.quote quote = true) :
    quote = 39 ∨ quote = 34 ∨ quote = 96 := by
  simpa [argvQuoting, or_assoc] using opens

namespace Argv

@[simp] theorem scan_nil (argv : Argv) : argv.scan [] = argv := rfl

@[simp] theorem scan_cons (argv : Argv) (ch : UInt8) (str : Bytes) :
    argv.scan (ch :: str) = (argv.step ch).scan str := rfl

theorem scan_append (argv : Argv) (str more : Bytes) :
    argv.scan (str ++ more) = (argv.scan str).scan more := List.foldl_append

section
variable {quote : UInt8} (opens : argvQuoting.quote quote = true) (A : List Bytes) (curstr : Bytes)
include opens

/-- A quote in the normal state. -/
theorem step_open :
    step ⟨A, .NORMAL, .NORMAL, curstr⟩ quote = ⟨A, quoteState quote, .NORMAL, curstr ++ [quote]⟩ := by
  rcases quote_cases opens with rfl | rfl | rfl <;> rfl

theorem step_close :
    step ⟨A, quoteState quote, .NORMAL, curstr⟩ quote = ⟨A, .NORMAL, .NORMAL, curstr ++ [quote]⟩ := by
  rcases quote_cases opens with rfl | rfl | rfl <;> rfl

theorem step_escape :
    step ⟨A, quoteState quote, .NORMAL, curstr⟩ 92 = ⟨A, .ESCAPE, quoteState quote, curstr⟩ := by
  rcases quote_cases opens with rfl | rfl | rfl <;> rfl

theorem step_plain {ch : UInt8} (other : ch ≠ quote ∧ ch ≠ 92) :
    step ⟨A, quoteState quote, .NORMAL, curstr⟩ ch = ⟨A, quoteState quote, .NORMAL, curstr ++ [ch]⟩ := by
  obtain ⟨notQuote, notEscape⟩ := other
  rcases quote_cases opens with rfl | rfl | rfl <;>
    simp [step, quoteState, quoted, notQuote, notEscape, append]

theorem step_taken (ch : UInt8) :
    step ⟨A, .ESCAPE, quoteState quote, curstr⟩ ch =
      ⟨A, quoteState quote, .NORMAL, curstr ++ if ch = quote then [ch] else [92, ch]⟩ := by
  by_cases own : ch = quote <;> rcases quote_cases opens with rfl | rfl | rfl <;>
    simp [step, quoteState, escaped, append, restoreState, own]

/-- The characters inside a region. -/
theorem scan_body (body : List (argvQuoting.Inner quote)) :
    scan ⟨A, quoteState quote, .NORMAL, curstr⟩ (body.flatMap Quoting.Inner.text) =
      ⟨A, quoteState quote, .NORMAL, curstr ++ body.flatMap Quoting.Inner.shown⟩ := by
  induction body generalizing curstr with
  | nil => simp
  | cons x body ih =>
    rw [List.flatMap_cons, List.flatMap_cons, scan_append]
    cases x with
    | plain ch other =>
      have one : scan ⟨A, quoteState quote, .NORMAL, curstr⟩ [ch] = _ := step_plain opens A curstr other
      rw [Quoting.Inner.text, one, ih, Quoting.Inner.shown, List.append_assoc]
    | taken ch =>
      have two : scan ⟨A, quoteState quote, .NORMAL, curstr⟩ [92, ch] =
          ⟨A, quoteState quote, .NORMAL, curstr ++ if ch = quote then [ch] else [92, ch]⟩ := by
        rw [scan_cons, step_escape opens, scan_cons, step_taken opens, scan_nil]
      have shown : (Quoting.Inner.taken ch : argvQuoting.Inner quote).shown =
          if ch = quote then [ch] else [92, ch] := rfl
      have text : (Quoting.Inner.taken ch : argvQuoting.Inner quote).text = [92, ch] := rfl
      rw [text, two, ih, shown, List.append_assoc]

end

/-- A closed item that is no blank is added to the token. -/
theorem scan_item {i : argvQuoting.Item} (solid : i.isBlank = false) (closed : i.isClosed = true)
    (A : List Bytes) (curstr : Bytes) :
    scan ⟨A, .NORMAL, .NORMAL, curstr⟩ i.text = ⟨A, .NORMAL, .NORMAL, curstr ++ i.shown⟩ := by
  cases i with
  | blank ch white => simp [Quoting.Item.isBlank] at solid
  | plain ch other =>
    obtain ⟨notBlank, notQuote⟩ := other
    simp only [argvQuoting, Bool.or_eq_false_iff, beq_eq_false_iff_ne] at notBlank notQuote
    simp [Quoting.Item.text, Quoting.Item.shown, step, normal, notBlank, notQuote, append]
  | region quote opens body =>
    rw [Quoting.Item.text, List.cons_append, scan_cons, step_open opens, scan_append, scan_body opens,
      scan_cons, step_close opens, scan_nil, Quoting.Item.shown]
    simp
  | unclosed quote opens body pending => simp [Quoting.Item.isClosed] at closed

theorem scan_blank {ch : UInt8} (white : argvQuoting.blank ch = true) (A : List Bytes) (curstr : Bytes) :
    scan ⟨A, .NORMAL, .NORMAL, curstr⟩ [ch] =
      ⟨A ++ [curstr].filter (· ≠ []), .NORMAL, .NORMAL, []⟩ := by
  have either : ch = 32 ∨ ch = 9 := by simpa [argvQuoting] using white
  simp only [scan_cons, scan_nil, step, normal, if_pos either, pushCurtoken]
  by_cases empty : curstr = [] <;> simp [empty]

/-- An unclosed region goes on to the end of the text. -/
theorem scan_unclosed {quote : UInt8} (opens : argvQuoting.quote quote = true)
    (body : List (argvQuoting.Inner quote)) (pending : Bool) (A : List Bytes) (curstr : Bytes) :
    ∃ state prev_state, scan ⟨A, .NORMAL, .NORMAL, curstr⟩ (Quoting.Item.unclosed quote opens body pending).text =
        ⟨A, state, prev_state, curstr ++ (Quoting.Item.unclosed quote opens body pending).shown⟩ ∧
      state ≠ .NORMAL := by
  have inside : quoteState quote ≠ .NORMAL := by
    rcases quote_cases opens with rfl | rfl | rfl <;> decide
  cases pending with
  | false =>
    refine ⟨quoteState quote, .NORMAL, ?_, inside⟩
    rw [Quoting.Item.text, List.cons_append, scan_cons, step_open opens, scan_append, scan_body opens,
      Quoting.Item.shown]
    simp
  | true =>
    refine ⟨.ESCAPE, quoteState quote, ?_, by decide⟩
    have last : argvQuoting.escape = 92 := rfl
    rw [Quoting.Item.text, List.cons_append, scan_cons, step_open opens, scan_append, scan_body opens,
      if_pos rfl, last, scan_cons, step_escape opens, Quoting.Item.shown]
    simp

/-- Closed items: the words that a blank ends have become tokens, and the last one is `curstr`. -/
theorem scan_items {items : List argvQuoting.Item} (closed : ∀ i ∈ items, i.isClosed = true) (A : List Bytes)
    (last : List argvQuoting.Item) :
    scan ⟨A, .NORMAL, .NORMAL, Quoting.shown last⟩ (Quoting.text items) =
      ⟨A ++ ((Quoting.wordsFrom last items).1.map Quoting.shown).filter (· ≠ []), .NORMAL, .NORMAL,
        Quoting.shown (Quoting.wordsFrom last items).2⟩ := by
  induction items generalizing A last with
  | nil => simp [Quoting.wordsFrom]
  | cons i items ih =>
    have rest : ∀ j ∈ items, j.isClosed = true := fun j member => closed j (List.mem_cons_of_mem _ member)
    rw [Quoting.text_cons, scan_append, Quoting.wordsFrom]
    by_cases blank : i.isBlank = true
    · rw [if_pos blank]
      cases i with
      | blank ch white =>
        have start := ih rest (A ++ [Quoting.shown last].filter (· ≠ [])) []
        have empty : Quoting.shown ([] : List argvQuoting.Item) = [] := rfl
        rw [empty] at start
        rw [Quoting.Item.text, scan_blank white, start, List.append_assoc, ← List.filter_append]
        rfl
      | _ => simp [Quoting.Item.isBlank] at blank
    · have solid : i.isBlank = false := by simpa using blank
      have more : Quoting.shown last ++ i.shown = Quoting.shown (last ++ [i]) := by simp [Quoting.shown]
      rw [if_neg blank, scan_item solid (closed i List.mem_cons_self), more]
      exact ih rest A (last ++ [i])

theorem scan_words {items : List argvQuoting.Item} (closed : ∀ i ∈ items, i.isClosed = true) :
    scan {} (Quoting.text items) =
      ⟨((Quoting.words items).1.map Quoting.shown).filter (· ≠ []), .NORMAL, .NORMAL,
        Quoting.shown (Quoting.words items).2⟩ :=
  scan_items closed [] []

/-- Tokens that are there already stay in front. -/
theorem step_prepend (B : List Bytes) (argv : Argv) (ch : UInt8) :
    step { argv with A := B ++ argv.A } ch = { argv.step ch with A := B ++ (argv.step ch).A } := by
  obtain ⟨A, state, prev_state, curstr⟩ := argv
  cases state with
  | NORMAL =>
    simp only [step, normal, pushCurtoken]
    split_ifs <;> simp [changeState, append]
  | ESCAPE =>
    simp only [step, escaped]
    split_ifs <;> simp [restoreState, append]
  | DQUOTE | SQUOTE | BACKTICK =>
    simp only [step, quoted]
    split_ifs <;> simp [changeState, restoreState, append]

theorem scan_prepend (B : List Bytes) (argv : Argv) (str : Bytes) :
    scan { argv with A := B ++ argv.A } str = { argv.scan str with A := B ++ (argv.scan str).A } := by
  induction str generalizing argv with
  | nil => rfl
  | cons ch str ih => rw [scan_cons, step_prepend, ih, scan_cons]

/-- A token that has been pushed stays. -/
theorem scan_A_ne_nil {argv : Argv} (pushed : argv.A ≠ []) (str : Bytes) : (argv.scan str).A ≠ [] := by
  obtain ⟨A, state, prev_state, curstr⟩ := argv
  have split := scan_prepend A ⟨[], state, prev_state, curstr⟩ str
  rw [List.append_nil] at split
  rw [split]
  exact List.append_ne_nil_of_left_ne_nil pushed _

/-- A saved state is kept in the escape state only. -/
theorem step_prev {argv : Argv} (saved : argv.prev_state ≠ .NORMAL → argv.state = .ESCAPE) (ch : UInt8) :
    (argv.step ch).prev_state ≠ .NORMAL → (argv.step ch).state = .ESCAPE := by
  obtain ⟨A, state, prev_state, curstr⟩ := argv
  cases state with
  | NORMAL =>
    have none : prev_state = .NORMAL := by simpa using saved
    simp only [step, normal, pushCurtoken]
    split_ifs <;> simp [changeState, append, none]
  | ESCAPE =>
    simp only [step, escaped]
    split_ifs <;> simp [restoreState, append]
  | DQUOTE | SQUOTE | BACKTICK =>
    have none : prev_state = .NORMAL := by simpa using saved
    simp only [step, quoted]
    split_ifs <;> simp [changeState, restoreState, append, none]

theorem scan_prev (str : Bytes) : (scan {} str).prev_state ≠ .NORMAL → (scan {} str).state = .ESCAPE := by
  induction str using List.reverseRecOn with
  | nil => exact fun saved => absurd rfl saved
  | append_singleton str ch ih =>
    rw [scan_append]
    exact step_prev ih ch

theorem pushCurtoken_A (argv : Argv) : argv.pushCurtoken.A = argv.A ++ [argv.curstr].filter (· ≠ []) := by
  by_cases empty : argv.curstr = [] <;> simp [pushCurtoken, empty]

end Argv

/-- The tokens of closed items are the pieces between the blanks. -/
theorem tokens_closed {items : List argvQuoting.Item} (closed : ∀ i ∈ items, i.isClosed = true) :
    tokens (Quoting.text items) = (Quoting.pieces items).map Quoting.shown := by
  rw [tokens, Argv.scan_words closed, Argv.pushCurtoken_A, Quoting.map_shown_pieces, List.filter_append]

/-- The same for a last region that is not closed. -/
theorem tokens_unclosed {items : List argvQuoting.Item} (closed : ∀ i ∈ items, i.isClosed = true)
    {quote : UInt8} {opens : argvQuoting.quote quote = true} {body : List (argvQuoting.Inner quote)}
    {pending : Bool} :
    tokens (Quoting.text (items ++ [.unclosed quote opens body pending])) =
      (Quoting.pieces (items ++ [.unclosed quote opens body pending])).map Quoting.shown := by
  obtain ⟨state, prev_state, rest, _⟩ := Argv.scan_unclosed opens body pending
    (((Quoting.words items).1.map Quoting.shown).filter (· ≠ [])) (Quoting.shown (Quoting.words items).2)
  have words : Quoting.words (items ++ [.unclosed quote opens body pending]) =
      ((Quoting.words items).1, (Quoting.words items).2 ++ [.unclosed quote opens body pending]) :=
    Quoting.wordsFrom_append [] items rfl
  have text : Quoting.text [Quoting.Item.unclosed quote opens body pending] =
      (Quoting.Item.unclosed quote opens body pending).text := by simp
  have last : Quoting.shown (Quoting.words items).2 ++ (Quoting.Item.unclosed quote opens body pending).shown =
      Quoting.shown ((Quoting.words items).2 ++ [.unclosed quote opens body pending]) := by
    simp [Quoting.shown]
  rw [tokens, Quoting.text_append, Argv.scan_append, Argv.scan_words closed, text, rest, Argv.pushCurtoken_A,
    Quoting.map_shown_pieces, words, List.filter_append, last]

/-- The tokens of any text are the pieces of its items. -/
theorem exists_tokens (str : Bytes) : ∃ items : List argvQuoting.Item,
    Quoting.text items = str ∧ tokens str = (Quoting.pieces items).map Quoting.shown := by
  obtain ⟨items, closed, rfl | ⟨quote, opens, body, pending, rfl⟩⟩ := Quoting.exists_items argvQuoting str
  · exact ⟨items, rfl, tokens_closed closed⟩
  · exact ⟨_, rfl, tokens_unclosed closed⟩

theorem mem_of_mem_tokens {str token : Bytes} (member : token ∈ tokens str) {ch : UInt8} (inside : ch ∈ token) :
    ch ∈ str := by
  obtain ⟨items, rfl, same⟩ := exists_tokens str
  rw [same] at member
  obtain ⟨piece, inPieces, rfl⟩ := List.mem_map.mp member
  exact Quoting.mem_text_of_mem_pieces inPieces inside

/-- `strdup` copies whole tokens, and no tokens are none. -/
theorem buildArgv_eq {str : Bytes} (noNul : 0 ∉ str) : (buildArgv str).getD [] = tokens str := by
  have copies : (tokens str).map cString = tokens str := by
    conv_rhs => rw [← List.map_id (tokens str)]
    exact List.map_congr_left (fun token member =>
      cString_of_not_mem (fun inside => noNul (mem_of_mem_tokens member inside)))
  rw [buildArgv, copies]
  split
  · rename_i none
    rw [none]
    rfl
  · rfl

/-- Tokenizing a text whose regions are all closed loses nothing but the blanks outside of
regions and the escape characters that take the quote of their region. -/
theorem buildArgv_wellQuoted {items : List argvQuoting.Item} (closed : ∀ i ∈ items, i.isClosed = true)
    (noNul : 0 ∉ Quoting.text items) :
    (buildArgv (Quoting.text items)).getD [] = (Quoting.pieces items).map Quoting.shown ∧
      (∀ token ∈ (buildArgv (Quoting.text items)).getD [], token ≠ []) ∧
      (Argv.scan {} (Quoting.text items)).state = .NORMAL ∧
      ∀ part, part <+: Quoting.text items →
        (Argv.scan {} part).prev_state ≠ .NORMAL → (Argv.scan {} part).state = .ESCAPE := by
  have same : (buildArgv (Quoting.text items)).getD [] = (Quoting.pieces items).map Quoting.shown := by
    rw [buildArgv_eq noNul, tokens_closed closed]
  refine ⟨same, ?_, ?_, fun part _ => Argv.scan_prev part⟩
  · intro token member
    rw [same, Quoting.map_shown_pieces] at member
    exact of_decide_eq_true (List.mem_filter.mp member).2
  · exact congrArg Argv.state (Argv.scan_words closed)

/-- A tab between a plain word and a region with two escape characters. -/
def quotedItems : List argvQuoting.Item :=
  [.plain 120 (by decide), .blank 9 (by decide),
    .region 34 (by decide) [.plain 32 (by decide), .taken 34, .taken 92]]

theorem buildArgv_quotedItems :
    (buildArgv (Quoting.text quotedItems)).getD [] = (Quoting.pieces quotedItems).map Quoting.shown ∧
      (∀ token ∈ (buildArgv (Quoting.text quotedItems)).getD [], token ≠ []) ∧
      (Argv.scan {} (Quoting.text quotedItems)).state = .NORMAL ∧
      ∀ part, part <+: Quoting.text quotedItems →
        (Argv.scan {} part).prev_state ≠ .NORMAL → (Argv.scan {} part).state = .ESCAPE :=
  buildArgv_wellQuoted (by decide) (by decide)

end WxDap.StringUtils
