import WxDap.BuildArgv

namespace WxDap.StringUtils

/-- Only spaces make it quote anything. -/
def wrapWithQuotes (str : Bytes) : Bytes :=
  if str = [] then str
  else if 32 ∉ str then str
  else 34 :: str ++ [34]

/-- The command line that `StdoutTransport::Execute` puts together. -/
def commandString (command : List Bytes) : Bytes :=
  command.foldl (fun line cmd => line ++ wrapWithQuotes cmd ++ [32]) []

/-- The argument vector that `ExecuteProcess` starts the process with. -/
def processArgs (command : List Bytes) : List Bytes := argvVector (commandString command)

/-! ### Which arguments pass through -/

/-- A word that the scanner keeps as it is: no blank outside of a region, every region closed,
and no escape character that takes the quote of its region. -/
def Whole (word : Bytes) : Prop :=
  ∃ items : List argvQuoting.Item, items ≠ [] ∧ Quoting.text items = word ∧
    ∀ i ∈ items, i.isBlank = false ∧ i.isClosed = true ∧ i.lost = []

/-- The words from which the outer double quotes are taken. -/
def Enclosed (word : Bytes) : Prop :=
  word.length > 1 ∧ word.head? = some 34 ∧ word.getLast? = some 34

/-- An argument that comes out as it went in. -/
def Plain (cmd : Bytes) : Prop :=
  Whole (wrapWithQuotes cmd) ∧ (32 ∈ cmd ∨ ¬Enclosed cmd)

theorem wrapWithQuotes_eq (str : Bytes) :
    wrapWithQuotes str = if 32 ∈ str then 34 :: (str ++ [34]) else str := by
  cases str with
  | nil => rfl
  | cons b str =>
    rw [wrapWithQuotes, if_neg (List.cons_ne_nil b str)]
    by_cases space : 32 ∈ b :: str <;> simp [space]

@[simp] theorem commandString_nil : commandString [] = [] := rfl

@[simp] theorem commandString_cons (cmd : Bytes) (command : List Bytes) :
    commandString (cmd :: command) = wrapWithQuotes cmd ++ 32 :: commandString command := by
  have from_line (command : List Bytes) (line : Bytes) :
      command.foldl (fun line cmd => line ++ wrapWithQuotes cmd ++ [32]) line =
        line ++ commandString command := by
    induction command generalizing line with
    | nil => simp
    | cons cmd command ih =>
      rw [commandString, List.foldl_cons, List.foldl_cons, ih, ih]
      simp
  rw [commandString, List.foldl_cons, from_line]
  simp

theorem enclosed_quoted (word : Bytes) : Enclosed (34 :: (word ++ [34])) := by
  refine ⟨by simp, rfl, ?_⟩
  rw [← List.cons_append, List.getLast?_concat]

theorem stripQuotes_quoted (word : Bytes) : stripQuotes (34 :: (word ++ [34])) = word := by
  refine (if_pos (enclosed_quoted word)).trans ?_
  rw [← List.cons_append, List.dropLast_concat]
  rfl

/-- A word either keeps its ends or has two quotes around what is left. -/
theorem stripQuotes_cases (word : Bytes) :
    stripQuotes word = word ∧ ¬Enclosed word ∨ word = 34 :: (stripQuotes word ++ [34]) := by
  by_cases enclosed : Enclosed word
  · right
    obtain ⟨long, first, last⟩ := id enclosed
    obtain ⟨rest, rfl⟩ : ∃ rest, word = 34 :: rest := by
      cases word with
      | nil => simp at first
      | cons b rest => exact ⟨rest, by rw [Option.some.inj first]⟩
    have nonempty : rest ≠ [] := by
      rintro rfl
      simp at long
    rw [List.getLast?_cons_of_ne_nil nonempty] at last
    obtain ⟨inner, rfl⟩ := List.getLast?_eq_some_iff.mp last
    rw [stripQuotes_quoted]
  · exact Or.inl ⟨if_neg enclosed, enclosed⟩

/-! ### One word after the other -/

/-- Every word with a space after it. -/
def joined (words : List Bytes) : Bytes := words.flatMap (· ++ [32])

@[simp] theorem joined_cons (word : Bytes) (words : List Bytes) :
    joined (word :: words) = word ++ 32 :: joined words := by simp [joined]

theorem shifted_ne (text more rest : Bytes) : 34 :: (text ++ more) ≠ text ++ 32 :: rest := by
  induction text generalizing more with
  | nil => simp
  | cons b text ih =>
    intro same
    obtain ⟨rfl, tails⟩ := List.cons.inj same
    exact ih more tails

/-- The first word of a command line is the first argument in its quotes. -/
theorem word_eq_wrap {word line rest : Bytes}
    (same : wrapWithQuotes (stripQuotes word) ++ 32 :: line = word ++ 32 :: rest) :
    word = wrapWithQuotes (stripQuotes word) := by
  rcases stripQuotes_cases word with ⟨kept, _⟩ | enclosed
  · rw [kept] at same ⊢
    rw [wrapWithQuotes_eq] at same ⊢
    split at same
    · rw [List.cons_append, List.append_assoc] at same
      exact absurd same (shifted_ne _ _ _)
    · rename_i none
      rw [if_neg none]
  · generalize stripQuotes word = cmd at same enclosed
    subst enclosed
    rw [wrapWithQuotes_eq] at same ⊢
    split at same
    · rename_i space
      rw [if_pos space]
    · rw [List.cons_append, List.append_assoc] at same
      exact absurd same.symm (shifted_ne _ _ _)

/-- As long as words are followed by spaces, they are the arguments in their quotes. -/
theorem commandString_split {words : List Bytes} {more : Bytes} {command rest : List Bytes}
    (line : commandString command = joined words ++ more) (args : (words ++ rest).map stripQuotes = command) :
    ∃ before after, command = before ++ after ∧ words = before.map wrapWithQuotes ∧
      before = words.map stripQuotes ∧ commandString after = more ∧ rest.map stripQuotes = after := by
  induction words generalizing command with
  | nil => exact ⟨[], command, rfl, rfl, rfl, by simpa [joined] using line, by simpa using args⟩
  | cons word words ih =>
    subst args
    rw [List.cons_append, List.map_cons, commandString_cons, joined_cons, List.append_assoc,
      List.cons_append] at line
    have first := word_eq_wrap line
    rw [← first] at line
    obtain ⟨before, after, split, inQuotes, args, text, others⟩ :=
      ih (List.cons.inj (List.append_cancel_left line)).2 rfl
    refine ⟨stripQuotes word :: before, after, ?_, ?_, ?_, text, others⟩
    · rw [List.cons_append, List.map_cons, split, List.cons_append]
    · rw [List.map_cons, ← first, ← inQuotes]
    · rw [List.map_cons, ← args]

theorem first_space {a b x y : Bytes} (inA : 32 ∉ a) (inB : 32 ∉ b) (same : a ++ 32 :: x = b ++ 32 :: y) :
    a = b ∧ x = y := by
  have before := congrArg (beforeFirst · 32) same
  have after := congrArg (afterFirst · 32) same
  simp only [beforeFirst_append inA, beforeFirst_append inB] at before
  simp only [afterFirst_append inA, afterFirst_append inB] at after
  exact ⟨before, after⟩

/-! ### Runs of double quotes -/

/-- A run of double quotes. -/
def quotes (n : Nat) : Bytes := List.replicate n 34

theorem quotes_succ (n : Nat) : quotes (n + 1) = 34 :: quotes n := rfl

theorem quotes_succ' (n : Nat) : quotes (n + 1) = quotes n ++ [34] := List.replicate_succ'

theorem space_not_mem_quotes (n : Nat) : 32 ∉ quotes n := by simp [quotes]

theorem quotes_enclosed {n : Nat} (positive : 0 < n) : Enclosed (quotes (2 * n)) := by
  obtain ⟨k, rfl⟩ : ∃ k, n = k + 1 := ⟨n - 1, by omega⟩
  have around : quotes (2 * (k + 1)) = 34 :: (quotes (2 * k) ++ [34]) := by
    rw [← quotes_succ']
    rfl
  rw [around]
  exact enclosed_quoted _

/-- Pairs of quotes open and close a region, or close and open one. -/
theorem scan_quotes_even (n : Nat) (A : List Bytes) (curstr : Bytes) :
    Argv.scan ⟨A, .NORMAL, .NORMAL, curstr⟩ (quotes (2 * n)) = ⟨A, .NORMAL, .NORMAL, curstr ++ quotes (2 * n)⟩ ∧
      Argv.scan ⟨A, .DQUOTE, .NORMAL, curstr⟩ (quotes (2 * n)) =
        ⟨A, .DQUOTE, .NORMAL, curstr ++ quotes (2 * n)⟩ := by
  induction n generalizing curstr with
  | zero => simp [quotes]
  | succ n ih =>
    obtain ⟨outside, inside⟩ := ih (curstr ++ [34] ++ [34])
    have pair : quotes (2 * (n + 1)) = 34 :: 34 :: quotes (2 * n) := rfl
    rw [pair, Argv.scan_cons, Argv.scan_cons, Argv.scan_cons, Argv.scan_cons]
    constructor
    · refine Eq.trans outside ?_
      simp
    · refine Eq.trans inside ?_
      simp

theorem scan_quotes_odd (n : Nat) :
    Argv.scan {} (quotes (2 * n + 1)) = ⟨[], .DQUOTE, .NORMAL, quotes (2 * n + 1)⟩ := by
  rw [quotes_succ, Argv.scan_cons]
  refine Eq.trans ((scan_quotes_even n [] [34]).2) ?_
  rfl

/-- The space after an even run ends a token. -/
theorem scan_even_space {n : Nat} (positive : 0 < n) (more : Bytes) :
    (Argv.scan {} (quotes (2 * n) ++ 32 :: more)).A ≠ [] := by
  have run : Argv.scan {} (quotes (2 * n)) = ⟨[], .NORMAL, .NORMAL, quotes (2 * n)⟩ :=
    (scan_quotes_even n [] []).1
  have nonempty : quotes (2 * n) ≠ [] := by simp [quotes]; omega
  rw [Argv.scan_append, run, Argv.scan_cons]
  refine Argv.scan_A_ne_nil ?_ more
  simp [Argv.step, Argv.normal, Argv.pushCurtoken, nonempty]

/-- Two odd runs, each with a space after it: the second space ends a token. -/
theorem scan_odd_odd (n : Nat) (more : Bytes) :
    (Argv.scan {} (quotes (2 * n + 1) ++ 32 :: (quotes (2 * n + 1) ++ 32 :: more))).A ≠ [] := by
  have space : Argv.step ⟨[], .DQUOTE, .NORMAL, quotes (2 * n + 1)⟩ 32 =
      ⟨[], .DQUOTE, .NORMAL, quotes (2 * n + 1) ++ [32]⟩ := rfl
  have second : quotes (2 * n + 1) ++ 32 :: more = quotes (2 * n) ++ 34 :: 32 :: more := by
    rw [quotes_succ', List.append_assoc, List.singleton_append]
  have close (curstr : Bytes) : Argv.step ⟨[], .DQUOTE, .NORMAL, curstr⟩ 34 =
      ⟨[], .NORMAL, .NORMAL, curstr ++ [34]⟩ := rfl
  rw [Argv.scan_append, scan_quotes_odd, Argv.scan_cons, space, second, Argv.scan_append,
    (scan_quotes_even n _ _).2, Argv.scan_cons, close, Argv.scan_cons]
  refine Argv.scan_A_ne_nil ?_ more
  simp [Argv.step, Argv.normal, Argv.pushCurtoken]

/-- An odd run, a space and an even run are still inside of a region. -/
theorem scan_odd_even (n : Nat) (m : Nat) :
    (Argv.scan {} (quotes (2 * n + 1) ++ 32 :: quotes (2 * m))).state ≠ .NORMAL := by
  have space : Argv.step ⟨[], .DQUOTE, .NORMAL, quotes (2 * n + 1)⟩ 32 =
      ⟨[], .DQUOTE, .NORMAL, quotes (2 * n + 1) ++ [32]⟩ := rfl
  rw [Argv.scan_append, scan_quotes_odd, Argv.scan_cons, space, (scan_quotes_even m _ _).2]
  simp

/-! ### Words on their own -/

/-- Items without a blank are one word. -/
theorem scan_solid {items : List argvQuoting.Item}
    (solid : ∀ i ∈ items, i.isBlank = false ∧ i.isClosed = true) :
    Argv.scan {} (Quoting.text items) = ⟨[], .NORMAL, .NORMAL, Quoting.shown items⟩ := by
  have words : Quoting.words items = ([], items) :=
    Quoting.wordsFrom_solid [] (fun i member => (solid i member).1)
  rw [Argv.scan_words (fun i member => (solid i member).2), words]
  rfl

theorem Whole.scan {word : Bytes} (whole : Whole word) :
    Argv.scan {} word = ⟨[], .NORMAL, .NORMAL, word⟩ := by
  obtain ⟨items, _, rfl, solid⟩ := whole
  have alone := scan_solid (fun i member => ⟨(solid i member).1, (solid i member).2.1⟩)
  rwa [Quoting.shown_eq_text (fun i member => (solid i member).2.2)] at alone

theorem Whole.ne_nil {word : Bytes} (whole : Whole word) : word ≠ [] := by
  obtain ⟨items, nonempty, rfl, solid⟩ := whole
  rw [← Quoting.shown_eq_text (fun i member => (solid i member).2.2)]
  exact fun empty => nonempty ((Quoting.shown_eq_nil_iff (fun i member => (solid i member).1)).mp empty)

/-- A word with a space after it is the first token. -/
theorem Whole.tokens {word : Bytes} (whole : Whole word) (more : Bytes) :
    tokens (word ++ 32 :: more) = word :: tokens more := by
  have space : Argv.step ⟨[], .NORMAL, .NORMAL, word⟩ 32 = { ({} : Argv) with A := [word] ++ ({} : Argv).A } := by
    simp [Argv.step, Argv.normal, Argv.pushCurtoken, whole.ne_nil]
  rw [StringUtils.tokens, Argv.scan_append, whole.scan, Argv.scan_cons, space, Argv.scan_prepend,
    Argv.pushCurtoken_A, StringUtils.tokens, Argv.pushCurtoken_A]
  rfl

/-- The words between the blanks of a text, whose regions are closed except perhaps the last one. -/
theorem exists_words (str : Bytes) : ∃ items : List argvQuoting.Item,
    Quoting.text items = str ∧ tokens str = (Quoting.pieces items).map Quoting.shown ∧
      (∀ w ∈ (Quoting.words items).1, ∀ i ∈ w, i.isBlank = false ∧ i.isClosed = true) ∧
      (∀ i ∈ (Quoting.words items).2, i.isBlank = false) ∧
      (Argv.scan {} (Quoting.text (Quoting.words items).2)).A = [] := by
  obtain ⟨items, closed, whole⟩ := Quoting.exists_items argvQuoting str
  have solid : ∀ w ∈ (Quoting.words items).1 ++ [(Quoting.words items).2], ∀ i ∈ w,
      i.isBlank = false ∧ i.isClosed = true :=
    Quoting.mem_wordsFrom (by simp) (fun i member blank => ⟨blank, closed i member⟩)
  have done : ∀ w ∈ (Quoting.words items).1, ∀ i ∈ w, i.isBlank = false ∧ i.isClosed = true :=
    fun w member => solid w (List.mem_append_left _ member)
  have last : ∀ i ∈ (Quoting.words items).2, i.isBlank = false ∧ i.isClosed = true :=
    solid _ (List.mem_append_right _ (List.mem_singleton_self _))
  rcases whole with rfl | ⟨quote, opens, body, pending, rfl⟩
  · refine ⟨items, rfl, tokens_closed closed, done, fun i member => (last i member).1, ?_⟩
    rw [scan_solid last]
  · have words : Quoting.words (items ++ [.unclosed quote opens body pending]) =
        ((Quoting.words items).1, (Quoting.words items).2 ++ [.unclosed quote opens body pending]) :=
      Quoting.wordsFrom_append [] items rfl
    obtain ⟨state, prev_state, rest, _⟩ := Argv.scan_unclosed opens body pending []
      (Quoting.shown (Quoting.words items).2)
    have text : Quoting.text [Quoting.Item.unclosed quote opens body pending] =
        (Quoting.Item.unclosed quote opens body pending).text := by simp
    refine ⟨_, rfl, tokens_unclosed closed, ?_, ?_, ?_⟩
    · rwa [words]
    · rw [words]
      intro i member
      rcases List.mem_append.mp member with old | new
      · exact (last i old).1
      · rw [List.mem_singleton.mp new]
        rfl
    · rw [words, Quoting.text_append, Argv.scan_append, scan_solid last, text, rest]

/-- When a text loses nothing but spaces, its words stand between single ones. -/
theorem words_of_lost {str : Bytes} {spaces : Nat}
    (balance : ∀ c, c ≠ 34 → str.count c = (tokens str).flatten.count c + if c = 32 then spaces else 0) :
    ∃ done last, str = joined done ++ last ∧ done.length = spaces ∧
      tokens str = (done ++ [last]).filter (· ≠ []) ∧ (∀ w ∈ done, w ≠ [] → Whole w) ∧
      (Argv.scan {} last).A = [] := by
  obtain ⟨items, rfl, same, closed, solid, pending⟩ := exists_words str
  have count_lost (c : UInt8) (other : c ≠ 34) : (Quoting.lost items).count c = if c = 32 then spaces else 0 := by
    have all := Quoting.count_text items c
    have here := balance c other
    rw [same, Quoting.flatten_shown_pieces] at here
    omega
  have only : ∀ c ∈ Quoting.lost items, c = 32 := by
    intro c member
    by_contra other
    have notQuote : c ≠ 34 := by
      rintro rfl
      exact absurd (Quoting.mem_lost member) (by decide)
    have none := count_lost c notQuote
    rw [if_neg other, List.count_eq_zero] at none
    exact none member
  have length : (Quoting.lost items).length = spaces := by
    have count := count_lost 32 (by decide)
    rwa [if_pos rfl, List.count_eq_length.mpr (fun c member => (only c member).symm)] at count
  have notEscape : (32 : UInt8) ≠ argvQuoting.escape := by decide
  obtain ⟨whole, separators⟩ := Quoting.text_eq_of_lost notEscape only []
  have nothing := Quoting.lost_word notEscape only
  refine ⟨(Quoting.words items).1.map Quoting.shown, Quoting.shown (Quoting.words items).2, ?_, ?_, ?_, ?_, ?_⟩
  · rw [joined, List.flatMap_map]
    exact whole
  · rw [List.length_map, ← length]
    exact separators
  · rw [same, Quoting.map_shown_pieces]
  · intro w member nonempty
    obtain ⟨word, inDone, rfl⟩ := List.mem_map.mp member
    have unchanged := nothing word (List.mem_append_left _ inDone)
    refine ⟨word, ?_, (Quoting.shown_eq_text unchanged).symm, fun i inside =>
      ⟨(closed word inDone i inside).1, (closed word inDone i inside).2, unchanged i inside⟩⟩
    rintro rfl
    exact nonempty rfl
  · rwa [Quoting.shown_eq_text (nothing _ (List.mem_append_right _ (List.mem_singleton_self _)))]

/-! ### Counting -/

section
variable {c : UInt8} (other : c ≠ 34)
include other

theorem count_wrapWithQuotes (str : Bytes) : (wrapWithQuotes str).count c = str.count c := by
  have quote : ¬34 = c := fun same => other same.symm
  rw [wrapWithQuotes_eq]
  split <;> simp [quote]

theorem count_stripQuotes (word : Bytes) : (stripQuotes word).count c = word.count c := by
  have quote : ¬34 = c := fun same => other same.symm
  rcases stripQuotes_cases word with ⟨kept, _⟩ | enclosed
  · rw [kept]
  · conv_rhs => rw [enclosed]
    simp [quote]

theorem count_commandString (command : List Bytes) :
    (commandString command).count c = command.flatten.count c + if c = 32 then command.length else 0 := by
  induction command with
  | nil => simp
  | cons cmd command ih =>
    rw [commandString_cons, List.count_append, count_wrapWithQuotes other, List.count_cons, ih,
      List.flatten_cons, List.count_append]
    by_cases space : c = 32
    · subst space
      simp
      omega
    · have differ : ¬32 = c := fun same => space same.symm
      simp [space, differ]

theorem count_map_stripQuotes (words : List Bytes) :
    (words.map stripQuotes).flatten.count c = words.flatten.count c := by
  induction words with
  | nil => rfl
  | cons word words ih =>
    rw [List.map_cons, List.flatten_cons, List.flatten_cons, List.count_append, List.count_append,
      count_stripQuotes other, ih]

end

theorem filter_of_ne_nil {words : List Bytes} (some : ∀ w ∈ words, w ≠ []) : words.filter (· ≠ []) = words :=
  List.filter_eq_self.mpr (fun w member => decide_eq_true (some w member))

theorem ne_nil_of_length {words : List Bytes} (full : (words.filter (· ≠ [])).length = words.length) :
    ∀ w ∈ words, w ≠ [] :=
  fun w member => of_decide_eq_true (List.length_filter_eq_length_iff.mp full w member)

/-- One of the words is empty, and the others are not. -/
theorem exists_empty_of_filter {l : List Bytes}
    (one : (l.filter (· ≠ [])).length + 1 = l.length) :
    ∃ before after, l = before ++ [] :: after ∧ (∀ x ∈ before, x ≠ []) ∧ ∀ x ∈ after, x ≠ [] := by
  have member : [] ∈ l := by
    by_contra none
    rw [filter_of_ne_nil (fun w inside empty => none (empty ▸ inside))] at one
    omega
  obtain ⟨before, after, rfl⟩ := List.append_of_mem member
  have left := List.length_filter_le (· ≠ []) before
  have right := List.length_filter_le (· ≠ []) after
  rw [List.filter_append, List.filter_cons_of_neg (by simp), List.length_append, List.length_append,
    List.length_cons] at one
  exact ⟨before, after, rfl, ne_nil_of_length (by omega), ne_nil_of_length (by omega)⟩

/-- When the arguments come out as they went in, every word is whole, or there is a space too many
and the end of the line is not closed. -/
theorem words_of_same {command : List Bytes} (same : (tokens (commandString command)).map stripQuotes = command) :
    (∃ done, commandString command = joined done ∧ tokens (commandString command) = done ∧
      ∀ w ∈ done, Whole w) ∨
    ∃ before after last, commandString command = joined before ++ 32 :: (joined after ++ last) ∧
      tokens (commandString command) = before ++ (after ++ [last]) ∧ (∀ w ∈ before, Whole w) ∧
      (∀ w ∈ after, Whole w) ∧ last ≠ [] ∧ (Argv.scan {} last).A = [] := by
  have balance (c : UInt8) (other : c ≠ 34) : (commandString command).count c =
      (tokens (commandString command)).flatten.count c + if c = 32 then command.length else 0 := by
    rw [← count_map_stripQuotes other, same, count_commandString other]
  have number : (tokens (commandString command)).length = command.length := by
    rw [← List.length_map, same]
  obtain ⟨done, last, line, length, words, whole, pending⟩ := words_of_lost balance
  rw [words, List.filter_append, List.length_append] at number
  by_cases empty : last = []
  · subst empty
    left
    have full : (done.filter (· ≠ [])).length = done.length := by
      simpa [length] using number
    have nonempty := ne_nil_of_length full
    refine ⟨done, by rw [line, List.append_nil], ?_, fun w inside => whole w inside (nonempty w inside)⟩
    rw [words, List.filter_append, filter_of_ne_nil nonempty]
    simp
  · right
    have one : (done.filter (· ≠ [])).length + 1 = done.length := by
      simpa [length, empty] using number
    obtain ⟨before, after, rfl, noneBefore, noneAfter⟩ := exists_empty_of_filter one
    refine ⟨before, after, last, ?_, ?_, ?_, ?_, empty, pending⟩
    · rw [line]
      simp [joined]
    · rw [words, List.filter_append, List.filter_append, filter_of_ne_nil noneBefore,
        List.filter_cons_of_neg (by simp), filter_of_ne_nil noneAfter, List.append_assoc]
      simp [empty]
    · exact fun w inside => whole w (List.mem_append_left _ inside) (noneBefore w inside)
    · exact fun w inside => whole w (List.mem_append_right _ (List.mem_cons_of_mem _ inside))
        (noneAfter w inside)

/-! ### Text after a space too many -/

/-- An even run that has lost its ends was longer by two. -/
theorem word_of_even {word : Bytes} {n : Nat} (positive : 0 < n) (stripped : stripQuotes word = quotes (2 * n)) :
    word = quotes (2 * (n + 1)) := by
  rcases stripQuotes_cases word with ⟨kept, bare⟩ | enclosed
  · rw [← kept, stripped] at bare
    exact absurd (quotes_enclosed positive) bare
  · rw [enclosed, stripped, ← quotes_succ']
    rfl

/-- An odd run before a space has not lost its ends, since no token ends inside of a word. -/
theorem word_of_odd {word g : Bytes} {n : Nat} (inside : (Argv.scan {} word).A = [])
    (stripped : stripQuotes word = quotes (2 * n + 1) ++ 32 :: g) : word = quotes (2 * n + 1) ++ 32 :: g := by
  rcases stripQuotes_cases word with ⟨kept, _⟩ | enclosed
  · rw [← kept, stripped]
  · have broken : word = quotes (2 * (n + 1)) ++ 32 :: (g ++ [34]) := by
      have run : quotes (2 * (n + 1)) = 34 :: quotes (2 * n + 1) := rfl
      rw [enclosed, stripped, run]
      simp
    rw [broken] at inside
    exact absurd inside (scan_even_space (Nat.succ_pos n) _)

/-- What follows an odd run and a space in a word, when the same follows the word. -/
theorem odd_space_once {g more tail : Bytes} {n : Nat}
    (inside : (Argv.scan {} (quotes (2 * n + 1) ++ 32 :: g)).A = [])
    (same : g ++ 34 :: 32 :: more = quotes (2 * n + 1) ++ 32 :: (g ++ tail)) :
    g = quotes (2 * n) ∧ more = g ++ tail := by
  by_cases space : 32 ∈ g
  · obtain ⟨front, rest, rfl, none⟩ := List.eq_append_cons_of_mem space
    rw [List.append_assoc, List.cons_append] at same
    obtain ⟨rfl, _⟩ := first_space none (space_not_mem_quotes _) same
    exact absurd inside (scan_odd_odd n rest)
  · have none : 32 ∉ g ++ [34] := by simp [space]
    have line : (g ++ [34]) ++ 32 :: more = quotes (2 * n + 1) ++ 32 :: (g ++ tail) := by
      rw [← same]
      simp
    obtain ⟨run, rest⟩ := first_space none (space_not_mem_quotes _) line
    rw [quotes_succ'] at run
    exact ⟨List.append_cancel_right run, rest⟩

/-- An argument of an odd run and a space, one space too late, is the last one and holds no more. -/
theorem after_odd_run {command after : List Bytes} {g last : Bytes} {n : Nat}
    (line : g ++ 34 :: 32 :: commandString command = joined after ++ last)
    (args : (after ++ [last]).map stripQuotes = (quotes (2 * n + 1) ++ 32 :: g) :: command)
    (whole : ∀ w ∈ after, Whole w) (pending : (Argv.scan {} last).A = []) :
    n = 0 ∧ g = [] ∧ command = [] := by
  cases after with
  | nil =>
    obtain ⟨stripped, rfl⟩ := List.cons.inj args
    obtain rfl := word_of_odd pending stripped
    have same : g ++ 34 :: 32 :: [] = quotes (2 * n + 1) ++ 32 :: (g ++ []) := by
      simpa [joined] using line
    obtain ⟨rfl, nothing⟩ := odd_space_once pending same
    have zero : 0 = 2 * n := by simpa [quotes] using congrArg List.length nothing
    rw [← zero]
    exact ⟨by omega, rfl, rfl⟩
  | cons word after =>
    obtain ⟨stripped, _⟩ := List.cons.inj args
    have here : (Argv.scan {} word).A = [] := by rw [(whole word List.mem_cons_self).scan]
    obtain rfl := word_of_odd here stripped
    rw [joined_cons, List.append_assoc, List.append_assoc] at line
    obtain ⟨rfl, _⟩ := odd_space_once here line
    have closed := (whole _ List.mem_cons_self).scan
    exact absurd (congrArg Argv.state closed) (scan_odd_even n n)

/-- An even run that two quotes and more stand for as an argument grows from word to word, so
that only a word that the end of the line cuts off can follow it. -/
theorem after_even_run {command after : List Bytes} {last : Bytes} {n : Nat} (positive : 0 < n)
    (line : commandString command = quotes (2 * n) ++ 32 :: (joined after ++ last))
    (args : (after ++ [last]).map stripQuotes = command) (whole : ∀ w ∈ after, Whole w) (some : last ≠ [])
    (pending : (Argv.scan {} last).A = []) :
    n = 1 ∧ command = [[34, 32]] := by
  induction command generalizing after n with
  | nil => simp at args
  | cons cmd command ih =>
    rw [commandString_cons, wrapWithQuotes_eq] at line
    by_cases space : 32 ∈ cmd
    · rw [if_pos space] at line
      obtain ⟨front, g, rfl, none⟩ := List.eq_append_cons_of_mem space
      obtain ⟨k, rfl⟩ : ∃ k, n = k + 1 := ⟨n - 1, by omega⟩
      have run : quotes (2 * (k + 1)) = 34 :: quotes (2 * k + 1) := rfl
      rw [run, List.cons_append, List.cons_append, List.append_assoc, List.append_assoc] at line
      obtain ⟨rfl, rest⟩ := first_space none (space_not_mem_quotes _) (List.cons.inj line).2
      obtain ⟨rfl, rfl, rfl⟩ := after_odd_run rest args whole pending
      exact ⟨rfl, rfl⟩
    · -- the argument is the run, and its word has two more quotes
      rw [if_neg space] at line
      obtain ⟨rfl, rest⟩ := first_space space (space_not_mem_quotes _) line
      cases after with
      | nil =>
        obtain ⟨_, rfl⟩ := List.cons.inj args
        exact absurd rest.symm some
      | cons word after =>
        obtain ⟨stripped, others⟩ := List.cons.inj args
        obtain rfl := word_of_even positive stripped
        rw [joined_cons, List.append_assoc, List.cons_append] at rest
        have next := ih (Nat.succ_pos n) rest others (fun w inside => whole w (List.mem_cons_of_mem _ inside))
        omega

/-- Only these two arguments can stand after a space too many. -/
theorem after_space {command after : List Bytes} {last : Bytes}
    (line : commandString command = 32 :: (joined after ++ last))
    (args : (after ++ [last]).map stripQuotes = command) (whole : ∀ w ∈ after, Whole w) (some : last ≠ [])
    (pending : (Argv.scan {} last).A = []) : command = [[], [34, 32]] := by
  cases command with
  | nil => simp at args
  | cons cmd command =>
    rw [commandString_cons, wrapWithQuotes_eq] at line
    have space : 32 ∉ cmd := by
      intro space
      rw [if_pos space] at line
      simp at line
    rw [if_neg space] at line
    obtain ⟨rfl, rest⟩ := first_space space List.not_mem_nil line
    have pair {word : Bytes} (nonempty : word ≠ []) (stripped : stripQuotes word = []) : word = quotes (2 * 1) := by
      rcases stripQuotes_cases word with ⟨kept, _⟩ | enclosed
      · exact absurd (kept ▸ stripped) nonempty
      · rw [enclosed, stripped]
        rfl
    cases after with
    | nil =>
      obtain ⟨_, rfl⟩ := List.cons.inj args
      exact absurd rest.symm some
    | cons word after =>
      obtain ⟨stripped, others⟩ := List.cons.inj args
      obtain rfl := pair (whole word List.mem_cons_self).ne_nil stripped
      rw [joined_cons, List.append_assoc, List.cons_append] at rest
      obtain ⟨_, rfl⟩ := after_even_run Nat.one_pos rest others
        (fun w inside => whole w (List.mem_cons_of_mem _ inside)) some pending
      rfl

/-! ### The arguments that come out as they went in -/

theorem plain_iff (cmd : Bytes) :
    Plain cmd ↔ Whole (wrapWithQuotes cmd) ∧ stripQuotes (wrapWithQuotes cmd) = cmd := by
  rw [Plain, wrapWithQuotes_eq]
  refine and_congr_right (fun _ => ?_)
  by_cases space : 32 ∈ cmd
  · rw [if_pos space, stripQuotes_quoted]
    simp [space]
  · rw [if_neg space]
    rcases stripQuotes_cases cmd with ⟨kept, bare⟩ | enclosed
    · simp [space, kept, bare]
    · have differ : stripQuotes cmd ≠ cmd := by
        intro same
        have shorter := congrArg List.length enclosed
        rw [same] at shorter
        simp only [List.length_cons, List.length_append] at shorter
        omega
      have quoted : Enclosed cmd := by
        rw [enclosed]
        exact enclosed_quoted _
      simp [space, differ, quoted]

/-- Plain arguments in front of others are words of their own. -/
theorem tokens_plain {before : List Bytes} (plain : ∀ cmd ∈ before, Plain cmd) (after : List Bytes) :
    (tokens (commandString (before ++ after))).map stripQuotes =
      before ++ (tokens (commandString after)).map stripQuotes := by
  induction before with
  | nil => rfl
  | cons cmd before ih =>
    obtain ⟨whole, kept⟩ := (plain_iff cmd).mp (plain cmd List.mem_cons_self)
    rw [List.cons_append, commandString_cons, whole.tokens, List.map_cons, kept,
      ih (fun other member => plain other (List.mem_cons_of_mem _ member)), List.cons_append]

/-- Words that are followed by single spaces are plain arguments in their quotes. -/
theorem plain_of_words {before words : List Bytes} (inQuotes : words = before.map wrapWithQuotes)
    (args : before = words.map stripQuotes) (whole : ∀ w ∈ words, Whole w) : ∀ cmd ∈ before, Plain cmd := by
  subst inQuotes
  intro cmd member
  rw [List.map_map] at args
  have kept : stripQuotes (wrapWithQuotes cmd) = cmd :=
    (List.map_inj_left.mp (args.symm.trans (List.map_id before).symm)) cmd member
  exact (plain_iff cmd).mpr ⟨whole _ (List.mem_map_of_mem member), kept⟩

theorem zero_not_mem_commandString {command : List Bytes} (noNul : ∀ cmd ∈ command, 0 ∉ cmd) :
    0 ∉ commandString command := by
  rw [← List.count_eq_zero, count_commandString (by decide), if_neg (by decide), Nat.add_zero,
    List.count_eq_zero, List.mem_flatten]
  rintro ⟨cmd, member, inside⟩
  exact noNul cmd member inside

theorem processArgs_eq {command : List Bytes} (noNul : ∀ cmd ∈ command, 0 ∉ cmd) :
    processArgs command = (tokens (commandString command)).map stripQuotes := by
  rw [processArgs, argvVector, buildArgv_eq (zero_not_mem_commandString noNul)]

/-- The adapter gets its arguments when each of them is plain, and for one more ending, where the
words and the arguments do not belong together. -/
theorem processArgs_iff {command : List Bytes} (noNul : ∀ cmd ∈ command, 0 ∉ cmd) :
    processArgs command = command ↔
      (∀ cmd ∈ command, Plain cmd) ∨
        ∃ before, command = before ++ [[], [34, 32]] ∧ ∀ cmd ∈ before, Plain cmd := by
  rw [processArgs_eq noNul]
  constructor
  · intro same
    rcases words_of_same same with ⟨done, line, words, whole⟩ |
      ⟨words, others, last, line, all, whole, wholeOthers, some, pending⟩
    · left
      have args : (done ++ []).map stripQuotes = command := by
        rw [List.append_nil, ← words, same]
      rw [← List.append_nil (joined done)] at line
      obtain ⟨before, after, rfl, inQuotes, stripped, _, rfl⟩ := commandString_split line args
      rw [List.map_nil, List.append_nil]
      exact plain_of_words inQuotes stripped whole
    · right
      rw [all] at same
      obtain ⟨before, after, rfl, inQuotes, stripped, more, rest⟩ := commandString_split line same
      rw [after_space more rest wholeOthers some pending]
      exact ⟨before, rfl, plain_of_words inQuotes stripped whole⟩
  · rintro (plain | ⟨before, rfl, plain⟩)
    · have alone := tokens_plain plain []
      rw [List.append_nil] at alone
      rw [alone]
      exact List.append_nil command
    · rw [tokens_plain plain]
      rfl

/-- An argument with a space that is quoted, and an empty one that is left out. -/
theorem processArgs_iff_spaced :
    processArgs [[97, 32, 98], []] = [[97, 32, 98], []] ↔
      (∀ cmd ∈ ([[97, 32, 98], []] : List Bytes), Plain cmd) ∨
        ∃ before, [[97, 32, 98], []] = before ++ [[], [34, 32]] ∧ ∀ cmd ∈ before, Plain cmd :=
  processArgs_iff (by decide)

/-- An argument with a tab becomes two. -/
theorem not_processArgs_tab :
    ¬ ∀ command : List Bytes, (∀ cmd ∈ command, ∀ ch ∈ cmd, ch ≠ 0 ∧ ch < 128) →
      processArgs command = command := by
  intro always
  have tab := always [[97, 9, 98]] (by simp)
  exact absurd tab (by decide)

end WxDap.StringUtils
