import Mathlib.Data.List.Induction
import Mathlib.Data.List.Perm.Basic
import Mathlib.Tactic.Common

/-- The characters to which a convention for quoted words gives a meaning. -/
structure Quoting (α : Type) where
  blank : α → Bool
  quote : α → Bool
  escape : α

namespace Quoting

variable {α : Type} (Q : Quoting α)

/-- What a quoted region holds: the escape character always takes the one after it. -/
inductive Inner (q : α)
  | plain (c : α) (other : c ≠ q ∧ c ≠ Q.escape)
  | taken (c : α)

/-- What a text consists of. An unclosed region can only be the last item of a text; when it
is `pending`, its last character is an escape character that has taken nothing yet. -/
inductive Item
  | blank (c : α) (white : Q.blank c = true)
  | plain (c : α) (other : Q.blank c = false ∧ Q.quote c = false)
  | region (q : α) (opens : Q.quote q = true) (body : List (Q.Inner q))
  | unclosed (q : α) (opens : Q.quote q = true) (body : List (Q.Inner q)) (pending : Bool)

variable {Q}

def Inner.text {q : α} : Q.Inner q → List α
  | plain c _ => [c]
  | taken c => [Q.escape, c]

/-- An escape character that takes the quote of its region is dropped. -/
def Inner.shown [DecidableEq α] {q : α} : Q.Inner q → List α
  | plain c _ => [c]
  | taken c => if c = q then [c] else [Q.escape, c]

def Inner.lost [DecidableEq α] {q : α} : Q.Inner q → List α
  | plain _ _ => []
  | taken c => if c = q then [Q.escape] else []

namespace Item

def text : Q.Item → List α
  | blank c _ => [c]
  | plain c _ => [c]
  | region q _ body => q :: body.flatMap Inner.text ++ [q]
  | unclosed q _ body pending => q :: body.flatMap Inner.text ++ if pending then [Q.escape] else []

def isBlank : Q.Item → Bool
  | blank _ _ => true
  | _ => false

def isClosed : Q.Item → Bool
  | unclosed _ _ _ _ => false
  | _ => true

variable [DecidableEq α]

/-- What is left of an item in the word it belongs to. -/
def shown : Q.Item → List α
  | blank _ _ => []
  | plain c _ => [c]
  | region q _ body => q :: body.flatMap Inner.shown ++ [q]
  | unclosed q _ body _ => q :: body.flatMap Inner.shown

/-- What is left out. -/
def lost : Q.Item → List α
  | blank c _ => [c]
  | plain _ _ => []
  | region _ _ body => body.flatMap Inner.lost
  | unclosed _ _ body pending => body.flatMap Inner.lost ++ if pending then [Q.escape] else []

end Item

/-- The text of several items. -/
def text (items : List Q.Item) : List α := items.flatMap Item.text

/-- The pieces between maximal runs of blank items. -/
def pieces (items : List Q.Item) : List (List Q.Item) :=
  (items.splitOnP Item.isBlank).filter (· ≠ [])

/-- The words of a text: those that a blank ends, and what stands after the last blank.
The first word starts with `last`. -/
def wordsFrom (last : List Q.Item) : List Q.Item → List (List Q.Item) × List Q.Item
  | [] => ([], last)
  | i :: items =>
    if i.isBlank then (last :: (wordsFrom [] items).1, (wordsFrom [] items).2)
    else wordsFrom (last ++ [i]) items

def words (items : List Q.Item) : List (List Q.Item) × List Q.Item := wordsFrom [] items

@[simp] theorem text_nil : text ([] : List Q.Item) = [] := rfl

@[simp] theorem text_cons (i : Q.Item) (items : List Q.Item) : text (i :: items) = i.text ++ text items := rfl

@[simp] theorem text_append (items more : List Q.Item) : text (items ++ more) = text items ++ text more :=
  List.flatMap_append

section
variable (last items : List Q.Item)

theorem splitOnP_eq_wordsFrom :
    (items.splitOnP Item.isBlank).modifyHead (last ++ ·) =
      (wordsFrom last items).1 ++ [(wordsFrom last items).2] := by
  induction items generalizing last with
  | nil => simp [wordsFrom]
  | cons i items ih =>
    rw [List.splitOnP_cons_eq_if_modifyHead, wordsFrom]
    by_cases blank : i.isBlank = true
    · have rest := ih []
      simp only [List.nil_append] at rest
      rw [if_pos blank, if_pos blank, List.modifyHead_cons, List.append_nil, List.cons_append, ← rest]
      congr 1
      cases items.splitOnP Item.isBlank <;> rfl
    · rw [if_neg blank, if_neg blank, List.modifyHead_modifyHead, ← ih]
      congr 1
      funext w
      simp

theorem pieces_eq :
    pieces items = ((words items).1 ++ [(words items).2]).filter (· ≠ []) := by
  have same := splitOnP_eq_wordsFrom [] items
  rw [words, ← same, pieces]
  congr 1
  cases items.splitOnP Item.isBlank <;> rfl

/-- A word holds the items of the text, except the blank ones. -/
theorem mem_wordsFrom {P : Q.Item → Prop} {last items : List Q.Item} (start : ∀ i ∈ last, P i)
    (all : ∀ i ∈ items, i.isBlank = false → P i) :
    ∀ w ∈ (wordsFrom last items).1 ++ [(wordsFrom last items).2], ∀ i ∈ w, P i := by
  induction items generalizing last with
  | nil => simpa [wordsFrom] using start
  | cons i items ih =>
    have later : ∀ j ∈ items, j.isBlank = false → P j := fun j member => all j (List.mem_cons_of_mem _ member)
    rw [wordsFrom]
    by_cases blank : i.isBlank = true
    · rw [if_pos blank]
      intro w member
      rcases List.mem_cons.mp member with rfl | member
      · exact start
      · exact ih (by simp) later w member
    · rw [if_neg blank]
      refine ih (fun j member => ?_) later
      rcases List.mem_append.mp member with old | new
      · exact start j old
      · rw [List.mem_singleton.mp new]
        exact all i List.mem_cons_self (by simpa using blank)

theorem mem_of_mem_pieces {items piece : List Q.Item} (member : piece ∈ pieces items) :
    ∀ i ∈ piece, i ∈ items := by
  rw [pieces_eq] at member
  exact mem_wordsFrom (by simp) (fun i inside _ => inside) piece (List.mem_of_mem_filter member)

theorem wordsFrom_solid {more : List Q.Item} (solid : ∀ i ∈ more, i.isBlank = false) :
    wordsFrom last more = ([], last ++ more) := by
  induction more generalizing last with
  | nil => simp [wordsFrom]
  | cons i more ih =>
    rw [wordsFrom, if_neg (by simp [solid i List.mem_cons_self]),
      ih _ (fun j member => solid j (List.mem_cons_of_mem _ member))]
    simp

theorem wordsFrom_append {i : Q.Item} (solid : i.isBlank = false) :
    wordsFrom last (items ++ [i]) = ((wordsFrom last items).1, (wordsFrom last items).2 ++ [i]) := by
  induction items generalizing last with
  | nil => simp [wordsFrom, solid]
  | cons j items ih =>
    rw [List.cons_append, wordsFrom, wordsFrom]
    split <;> simp [ih]

end

/-! ### What is left out -/

section
variable [DecidableEq α]

def shown (items : List Q.Item) : List α := items.flatMap Item.shown

def lost (items : List Q.Item) : List α := items.flatMap Item.lost

theorem count_flatMap_add {β : Type} {f g h : β → List α} {c : α} {l : List β}
    (each : ∀ x ∈ l, (f x).count c = (g x).count c + (h x).count c) :
    (l.flatMap f).count c = (l.flatMap g).count c + (l.flatMap h).count c := by
  induction l with
  | nil => rfl
  | cons x l ih =>
    have first := each x List.mem_cons_self
    have rest := ih (fun y member => each y (List.mem_cons_of_mem _ member))
    simp only [List.flatMap_cons, List.count_append]
    omega

/-- Every character of a text is shown or lost. -/
theorem Item.count_text (i : Q.Item) (c : α) : i.text.count c = i.shown.count c + i.lost.count c := by
  have inner (q : α) (x : Q.Inner q) : x.text.count c = x.shown.count c + x.lost.count c := by
    cases x with
    | plain d other => simp [Inner.text, Inner.shown, Inner.lost]
    | taken d =>
      simp only [Inner.text, Inner.shown, Inner.lost]
      split
      · rw [← List.count_append]
        exact (@List.perm_append_comm _ [Q.escape] [d]).count_eq c
      · simp
  cases i with
  | blank d white => simp [text, shown, lost]
  | plain d other => simp [text, shown, lost]
  | region q opens body =>
    have bodies := @count_flatMap_add _ _ _ _ _ _ c body (fun x _ => inner q x)
    simp only [text, shown, lost, List.count_append, List.cons_append, List.count_cons] at bodies ⊢
    omega
  | unclosed q opens body pending =>
    have bodies := @count_flatMap_add _ _ _ _ _ _ c body (fun x _ => inner q x)
    simp only [text, shown, lost, List.count_append, List.cons_append, List.count_cons] at bodies ⊢
    omega

theorem count_text (items : List Q.Item) (c : α) :
    (text items).count c = (shown items).count c + (lost items).count c :=
  count_flatMap_add (fun i _ => i.count_text c)

theorem Item.lost_eq_escape {i : Q.Item} (solid : i.isBlank = false) {c : α} (member : c ∈ i.lost) :
    c = Q.escape := by
  have inner (q : α) (x : Q.Inner q) (inside : c ∈ x.lost) : c = Q.escape := by
    cases x with
    | plain d other => simp [Inner.lost] at inside
    | taken d =>
      simp only [Inner.lost] at inside
      split at inside <;> simp_all
  cases i with
  | blank d white => simp [isBlank] at solid
  | plain d other => simp [lost] at member
  | region q opens body =>
    obtain ⟨x, _, inside⟩ := List.mem_flatMap.mp member
    exact inner q x inside
  | unclosed q opens body pending =>
    rcases List.mem_append.mp member with inBody | rest
    · obtain ⟨x, _, inside⟩ := List.mem_flatMap.mp inBody
      exact inner q x inside
    · cases pending <;> simp_all

theorem mem_lost {items : List Q.Item} {c : α} (member : c ∈ lost items) :
    Q.blank c = true ∨ c = Q.escape := by
  obtain ⟨i, _, inside⟩ := List.mem_flatMap.mp member
  by_cases blank : i.isBlank = true
  · cases i with
    | blank d white =>
      rw [List.mem_singleton.mp inside]
      exact Or.inl white
    | _ => simp [Item.isBlank] at blank
  · exact Or.inr (Item.lost_eq_escape (by simpa using blank) inside)

/-- An item that loses nothing is shown as it is. -/
theorem Item.shown_eq_text {i : Q.Item} (none : i.lost = []) : i.shown = i.text := by
  have inner (q : α) (x : Q.Inner q) (nothing : x.lost = []) : x.shown = x.text := by
    cases x with
    | plain d other => rfl
    | taken d =>
      simp only [Inner.lost, Inner.shown, Inner.text] at nothing ⊢
      split <;> simp_all
  cases i with
  | blank d white => simp [lost] at none
  | plain d other => rfl
  | region q opens body =>
    have bodies : body.flatMap Inner.shown = body.flatMap Inner.text :=
      List.flatMap_congr (fun x member => inner q x (List.flatMap_eq_nil_iff.mp none x member))
    simp only [shown, text, bodies]
  | unclosed q opens body pending =>
    obtain ⟨inBody, after⟩ := List.append_eq_nil_iff.mp none
    have bodies : body.flatMap Inner.shown = body.flatMap Inner.text :=
      List.flatMap_congr (fun x member => inner q x (List.flatMap_eq_nil_iff.mp inBody x member))
    simp only [shown, text, bodies, after, List.append_nil]

theorem Item.shown_ne_nil {i : Q.Item} (solid : i.isBlank = false) : i.shown ≠ [] := by
  cases i with
  | blank c white => simp [isBlank] at solid
  | _ => simp [shown]

theorem shown_eq_nil_iff {items : List Q.Item} (solid : ∀ i ∈ items, i.isBlank = false) :
    shown items = [] ↔ items = [] := by
  constructor
  · intro empty
    cases items with
    | nil => rfl
    | cons i items =>
      have first := List.flatMap_eq_nil_iff.mp empty i List.mem_cons_self
      exact absurd first (Item.shown_ne_nil (solid i List.mem_cons_self))
  · rintro rfl
    rfl

/-- No piece is shown as the empty text. -/
theorem map_shown_pieces (items : List Q.Item) :
    (pieces items).map shown =
      (((words items).1.map shown) ++ [shown (words items).2]).filter (· ≠ []) := by
  have solid : ∀ w ∈ (words items).1 ++ [(words items).2], ∀ i ∈ w, i.isBlank = false :=
    mem_wordsFrom (by simp) (fun _ _ blank => blank)
  have together : (words items).1.map shown ++ [shown (words items).2] =
      ((words items).1 ++ [(words items).2]).map shown := by simp
  rw [pieces_eq, together, List.filter_map]
  congr 1
  refine List.filter_congr (fun w member => ?_)
  simp [shown_eq_nil_iff (solid w member)]

/-- What the pieces show, one after the other. -/
theorem flatten_shown_pieces (items : List Q.Item) : ((pieces items).map shown).flatten = shown items := by
  have blank_shown {i : Q.Item} (blank : i.isBlank = true) : i.shown = [] := by
    cases i <;> simp_all [Item.isBlank, Item.shown]
  have from_last (last : List Q.Item) : ((wordsFrom last items).1.map shown).flatten ++
      shown (wordsFrom last items).2 = shown last ++ shown items := by
    induction items generalizing last with
    | nil => simp [wordsFrom, shown]
    | cons i items ih =>
      rw [wordsFrom]
      by_cases blank : i.isBlank = true
      · have rest := ih []
        rw [if_pos blank, List.map_cons, List.flatten_cons, List.append_assoc, rest]
        simp [shown, blank_shown blank]
      · rw [if_neg blank, ih]
        simp [shown]
  have same := from_last []
  rw [map_shown_pieces, List.flatten_filter_ne_nil, List.flatten_append]
  simpa [words, shown] using same

theorem mem_text_of_mem_shown {items : List Q.Item} {c : α} (member : c ∈ shown items) : c ∈ text items := by
  rw [← List.count_pos_iff] at member ⊢
  rw [count_text]
  omega

theorem mem_text_of_mem_pieces {items piece : List Q.Item} (member : piece ∈ pieces items) {c : α}
    (inside : c ∈ shown piece) : c ∈ text items := by
  obtain ⟨i, inPiece, here⟩ := List.mem_flatMap.mp inside
  exact mem_text_of_mem_shown (List.mem_flatMap.mpr ⟨i, mem_of_mem_pieces member i inPiece, here⟩)

/-- When only one blank character is lost, an item inside of a word loses nothing. -/
theorem Item.lost_eq_nil {sep : α} (other : sep ≠ Q.escape) {i : Q.Item} (solid : i.isBlank = false)
    (only : ∀ c ∈ i.lost, c = sep) : i.lost = [] := by
  refine List.eq_nil_iff_forall_not_mem.mpr (fun c member => other ?_)
  rw [← only c member]
  exact Item.lost_eq_escape solid member

theorem lost_word {sep : α} (other : sep ≠ Q.escape) {items : List Q.Item}
    (only : ∀ c ∈ lost items, c = sep) :
    ∀ w ∈ (words items).1 ++ [(words items).2], ∀ i ∈ w, i.lost = [] :=
  mem_wordsFrom (by simp) (fun i member solid => Item.lost_eq_nil other solid
    (fun c inside => only c (List.mem_flatMap.mpr ⟨i, member, inside⟩)))

theorem shown_eq_text {items : List Q.Item} (nothing : ∀ i ∈ items, i.lost = []) : shown items = text items :=
  List.flatMap_congr (fun i member => Item.shown_eq_text (nothing i member))

/-- When only one blank character is lost, the words stand between single ones. -/
theorem text_eq_of_lost {sep : α} (other : sep ≠ Q.escape) {items : List Q.Item}
    (only : ∀ c ∈ lost items, c = sep) (last : List Q.Item) :
    shown last ++ text items =
        (wordsFrom last items).1.flatMap (fun w => shown w ++ [sep]) ++ shown (wordsFrom last items).2 ∧
      (wordsFrom last items).1.length = (lost items).length := by
  induction items generalizing last with
  | nil => simp [wordsFrom, lost]
  | cons i items ih =>
    have later : ∀ c ∈ lost items, c = sep := fun c member => only c (List.mem_append_right _ member)
    rw [wordsFrom]
    by_cases blank : i.isBlank = true
    · obtain ⟨whole, length⟩ := ih later []
      rw [if_pos blank]
      cases i with
      | blank c white =>
        have same : c = sep := only c (List.mem_append_left _ (List.mem_singleton_self c))
        have start : shown ([] : List Q.Item) = [] := rfl
        rw [start, List.nil_append] at whole
        constructor
        · rw [text_cons, whole, List.flatMap_cons]
          simp [Item.text, same]
        · rw [List.length_cons, length, lost, lost, List.flatMap_cons]
          simp [Item.lost, Nat.add_comm]
      | _ => simp [Item.isBlank] at blank
    · have solid : i.isBlank = false := by simpa using blank
      have nothing : i.lost = [] :=
        Item.lost_eq_nil other solid (fun c member => only c (List.mem_append_left _ member))
      obtain ⟨whole, length⟩ := ih later (last ++ [i])
      rw [if_neg blank, ← whole, length]
      constructor
      · simp [shown, Item.shown_eq_text nothing]
      · simp [lost, nothing]

end

/-! ### Every text consists of items -/

/-- Closed items, and perhaps an unclosed one at the end. -/
theorem exists_items (Q : Quoting α) [DecidableEq α] (str : List α) :
    ∃ items : List Q.Item, (∀ i ∈ items, i.isClosed = true) ∧
      (text items = str ∨ ∃ q opens body pending, text (items ++ [.unclosed q opens body pending]) = str) := by
  induction str using List.reverseRecOn with
  | nil => exact ⟨[], by simp, Or.inl rfl⟩
  | append_singleton str c ih =>
    obtain ⟨items, closed, whole | ⟨q, opens, body, pending, whole⟩⟩ := ih
    · -- outside of a region
      by_cases white : Q.blank c = true
      · refine ⟨items ++ [.blank c white], ?_, Or.inl (by simp [whole, Item.text])⟩
        simpa [or_imp, forall_and] using ⟨closed, rfl⟩
      · by_cases opens : Q.quote c = true
        · exact ⟨items, closed, Or.inr ⟨c, opens, [], false, by simp [whole, Item.text]⟩⟩
        · refine ⟨items ++ [.plain c ⟨by simpa using white, by simpa using opens⟩], ?_,
            Or.inl (by simp [whole, Item.text])⟩
          simpa [or_imp, forall_and] using ⟨closed, rfl⟩
    · cases pending with
      | true =>
        refine ⟨items, closed, Or.inr ⟨q, opens, body ++ [.taken c], false, ?_⟩⟩
        simp [← whole, Item.text, Inner.text]
      | false =>
        by_cases escapes : c = Q.escape
        · refine ⟨items, closed, Or.inr ⟨q, opens, body, true, ?_⟩⟩
          simp [← whole, Item.text, escapes]
        · by_cases closes : c = q
          · refine ⟨items ++ [.region q opens body], ?_, Or.inl (by simp [← whole, Item.text, closes])⟩
            simpa [or_imp, forall_and] using ⟨closed, rfl⟩
          · refine ⟨items, closed, Or.inr ⟨q, opens, body ++ [.plain c ⟨closes, escapes⟩], false, ?_⟩⟩
            simp [← whole, Item.text, Inner.text]

end Quoting
