import WxDap.JsonMemoryTree

namespace WxDap.JsonMemory
open Decimal (ascii isDigit)
open JsonParse (Fault Node Pow Stop skip)
open JsonSyntax
open LinkedForest (Heap)
open Ownership
open StringUtils (cString)

/-! ### The parser of the tree and the parser with the memory -/

/-- They stop at the same place and for the same reason; `done` is what the memory has become of with a result, and
`left` without one. -/
def Agrees {α : Type} (tree : Except Stop (α × Bytes)) (run : Result) (left : Memory → Prop)
    (done : α → Memory → Prop) : Prop :=
  match tree with
  | .ok (x, rest) => ∃ m, run = .ok (.ok rest, m) ∧ done x m
  | .error (.failed ep) => ∃ m, run = .ok (.error ep, m) ∧ left m
  | .error (.fault why) => run = .error why

section
variable {α β : Type} {tree : Except Stop (α × Bytes)} {run : Result} {left left' : Memory → Prop}
  {done : α → Memory → Prop} {done' : β → Memory → Prop}

theorem Agrees.ok {x : α} {rest : Bytes} {m : Memory} (holds : done x m) :
    Agrees (.ok (x, rest)) (.ok (.ok rest, m)) left done :=
  ⟨m, rfl, holds⟩

theorem Agrees.failed {ep : Bytes} {m : Memory} (holds : left m) :
    Agrees (.error (.failed ep)) (.ok (.error ep, m)) left done :=
  ⟨m, rfl, holds⟩

theorem Agrees.fault {why : Fault} : Agrees (.error (.fault why)) (.error why) left done := rfl

theorem Agrees.bind {f : α × Bytes → Except Stop (β × Bytes)} {g : Bytes → Memory → Result}
    (first : Agrees tree run left done) (more : ∀ x rest m, done x m → Agrees (f (x, rest)) (g rest m) left' done')
    (stop : ∀ m, left m → left' m) : Agrees (tree >>= f) (andThen run g) left' done' := by
  match tree, first with
  | .ok (x, rest), ⟨m, ran, holds⟩ =>
    subst ran
    exact more x rest m holds
  | .error (.failed ep), ⟨m, ran, holds⟩ =>
    subst ran
    exact ⟨m, rfl, stop m holds⟩
  | .error (.fault why), ran =>
    subst ran
    exact rfl

/-- The tree is put together after the last call. -/
theorem Agrees.map {f : α → β} (first : Agrees tree run left done) (more : ∀ x m, done x m → done' (f x) m)
    (stop : ∀ m, left m → left' m) : Agrees (tree >>= fun x => .ok (f x.1, x.2)) run left' done' := by
  match tree, first with
  | .ok (x, rest), ⟨m, ran, holds⟩ => exact ⟨m, ran, more x m holds⟩
  | .error (.failed _), ⟨m, ran, holds⟩ => exact ⟨m, ran, stop m holds⟩
  | .error (.fault _), ran => exact ran

end

/-- A node that has been given a value, or a part of one -/
def IsFilled (m : Memory) (item : Nat) (node : CJsonDap) (m' : Memory) : Prop :=
  ∃ node', Filled m item node m' node'

def HasValue (m : Memory) (item : Nat) (node : CJsonDap) (tree : Node) (m' : Memory) : Prop :=
  ∃ node', Filled m item node m' node' ∧ Shows m' node' tree

/-- A node that has been given a name and a value, or a part of them -/
def IsMade (m : Memory) (item : Nat) (node : CJsonDap) (m' : Memory) : Prop := ∃ node', Made m item node m' node'

def HasMember (m : Memory) (item : Nat) (node : CJsonDap) (member : Bytes × Node) (m' : Memory) : Prop :=
  ∃ node', Made m item node m' node' ∧ Named m' node' member.1 ∧ Shows m' node' member.2

/-- A node that has been given siblings -/
def IsLinked (m : Memory) (child : Nat) (node : CJsonDap) (m' : Memory) : Prop := ∃ next, Linked m child node m' next

/-- A node with no value yet -/
structure Blank (m : Memory) (item : Nat) (node : CJsonDap) : Prop where
  alive : m.cells item = some (.node node)
  child : node.child = none
  valuestring : node.valuestring = none

section
variable {m m₁ m₂ m' : Memory} {item child : Nat} {node node₁ : CJsonDap}

theorem Blank.no_value (blank : Blank m item node) (child : node₁.child = node.child)
    (valuestring : node₁.valuestring = none) : node₁.value = [] := by
  rw [CJsonDap.value, child, valuestring, blank.child]
  rfl

/-- A change of the node that gives it no pointer. -/
theorem Blank.edit (blank : Blank m item node) {change : CJsonDap → CJsonDap} (next : (change node).next = node.next)
    (prev : (change node).prev = node.prev) (child : (change node).child = none)
    (valuestring : (change node).valuestring = none) (string : (change node).string = node.string) :
    Filled m item node (edit m item change) (change node) := by
  refine ⟨edit_node blank.alive, next, prev, string, ?_⟩
  rw [CJsonDap.value, child, valuestring]
  exact grown_edit m item change

theorem Blank.refl (blank : Blank m item node) : IsFilled m item node m := by
  refine ⟨node, blank.alive, rfl, rfl, rfl, ?_⟩
  rw [CJsonDap.value, blank.child, blank.valuestring]
  exact Grown.of_frame (fun _ _ => rfl) rfl

/-- The node after `parse_string` -/
def CJsonDap.withString (node : CJsonDap) (out : Nat) : CJsonDap :=
  { node with valuestring := some out, type := .cJsonDap_String }

theorem grown_chars {text : Bytes} (frame : ∀ q, q < m.fresh → q ≠ item → m'.cells q = m.cells q)
    (one : m'.fresh = m.fresh + 1) (chars : m'.cells m.fresh = some (.chars text)) :
    Grown layout m item m' [(.chars, m.fresh)] :=
  Grown.cell frame one (Grown.of_frame (fun _ _ => rfl) rfl) chars

theorem parseString_agrees (blank : Blank m item node) (str : Bytes) :
    Agrees (JsonParse.parseString str) (parseString m item str) (IsFilled m item node)
      (fun text m' => Filled m item node m' (node.withString m.fresh) ∧ m'.cells m.fresh = some (.chars text)) := by
  rw [parseString]
  match JsonParse.parseString str with
  | .error (.failed _) => exact .failed blank.refl
  | .error (.fault _) => exact rfl
  | .ok (text, rest) =>
    have older := Heap.lt_fresh blank.alive
    have kept : (m.alloc (.chars text)).1.cells item = some (.node node) := by
      rw [Heap.cells_alloc, if_neg (Nat.ne_of_lt older)]
      exact blank.alive
    have chars : (edit (m.alloc (.chars text)).1 item (fun node => node.withString m.fresh)).cells m.fresh =
        some (.chars text) :=
      (edit_other (Nat.ne_of_gt older)).trans ((Heap.cells_alloc m _ _).trans (if_pos rfl))
    refine .ok ⟨⟨edit_node kept, rfl, rfl, rfl, ?_⟩, chars⟩
    have value : (node.withString m.fresh).value = [(.chars, m.fresh)] := by
      rw [CJsonDap.value, CJsonDap.withString, blank.child]
      rfl
    rw [value]
    refine grown_chars (fun q old other => ?_) rfl chars
    exact (edit_other other).trans ((Heap.cells_alloc m _ _).trans (if_neg (Nat.ne_of_lt old)))

theorem HasValue.string {text : Bytes} (filled : Filled m item node m' (node.withString m.fresh))
    (chars : m'.cells m.fresh = some (.chars text)) : HasValue m item node (.string text) m' :=
  ⟨_, filled, rfl, m.fresh, rfl, chars⟩

theorem parseNumber_agrees (pow : Pow) (blank : Blank m item node) (num : Bytes) :
    Agrees ((JsonParse.parseNumber pow num).mapError .fault) (parseNumber pow m item num) (IsFilled m item node)
      (fun n m' => HasValue m item node (.number n) m') := by
  rw [parseNumber]
  match JsonParse.parseNumber pow num with
  | .error _ => exact rfl
  | .ok (n, rest) => exact .ok ⟨_, blank.edit rfl rfl blank.child blank.valuestring rfl, rfl, rfl⟩

/-- The node after the string has been moved into the name -/
def CJsonDap.withName (node : CJsonDap) : CJsonDap :=
  { node with string := node.valuestring, valuestring := none }

theorem Filled.takeName (read : Filled m item node m₁ (node.withString m.fresh)) (blank : Blank m item node) :
    Made m item node (edit m₁ item CJsonDap.withName) (node.withString m.fresh).withName := by
  refine ⟨edit_node read.alive, rfl, rfl, ?_⟩
  have both := read.grown.trans (grown_edit m₁ item CJsonDap.withName) (Heap.lt_fresh blank.alive)
  rw [List.append_nil] at both
  rw [CJsonDap.value, CJsonDap.withString, blank.child] at both
  rw [CJsonDap.value, CJsonDap.withName, CJsonDap.withString, blank.child]
  exact both

/-! ### Containers -/

/-- The type of a container is set before it has children. -/
def setType (m : Memory) (item : Nat) (type : NodeType) : Memory := edit m item (fun node => { node with type })

theorem Blank.typed (blank : Blank m item node) (type : NodeType) :
    Filled m item node (setType m item type) { node with type } :=
  blank.edit rfl rfl blank.child blank.valuestring rfl

/-- The children of a container are its value. -/
theorem Blank.container {type : NodeType} {node' : CJsonDap} {next : Option Nat} (blank : Blank m item node)
    (opened : Opened (setType m item type) item { node with type, child := some m.fresh } m₁ {})
    (made : Made m₁ m.fresh {} m₂ node') (linked : Linked m₂ m.fresh node' m' next) :
    Filled m item node m' { node with type, child := some m.fresh } := by
  obtain ⟨alive, children⟩ := opened.close made linked
  refine ⟨alive, rfl, rfl, rfl, ?_⟩
  have first := (blank.typed type).grown
  rw [@Blank.no_value _ _ _ { node with type } blank rfl blank.valuestring] at first
  rw [CJsonDap.value, blank.valuestring]
  exact first.trans children (Heap.lt_fresh blank.alive)

/-- A name and then a value -/
theorem Made.filled {m₀ : Memory} {node₂ : CJsonDap} (first : Made m item node m₀ node₁) (empty : node₁.value = [])
    (filled : Filled m₀ item node₁ m' node₂) (old : item < m.fresh) : Made m item node m' node₂ := by
  refine ⟨filled.alive, filled.next.trans first.next, filled.prev.trans first.prev, ?_⟩
  have both := first.grown.trans filled.grown old
  rw [empty, List.nil_append, ← filled.string] at both
  exact both.perm List.perm_append_comm

/-- The siblings of a node in an array -/
def HasItems (m : Memory) (child : Nat) (node : CJsonDap) (items : List Node) (m' : Memory) : Prop :=
  ∃ next, Linked m child node m' next ∧ ShowsItems m' (some child) next items

/-- The siblings of a node in an object -/
def HasMembers (m : Memory) (child : Nat) (node : CJsonDap) (members : List (Bytes × Node)) (m' : Memory) : Prop :=
  ∃ next, Linked m child node m' next ∧ ShowsMembers m' (some child) next members

theorem HasItems.isLinked {items : List Node} (has : HasItems m child node items m') : IsLinked m child node m' := by
  obtain ⟨next, linked, _⟩ := has
  exact ⟨next, linked⟩

theorem HasMembers.isLinked {members : List (Bytes × Node)} (has : HasMembers m child node members m') :
    IsLinked m child node m' := by
  obtain ⟨next, linked, _⟩ := has
  exact ⟨next, linked⟩

end

/-! ### The parser -/

/-- With this fuel every function of the parser leaves the tree in the memory. -/
structure Follows (pow : Pow) (fuel : Nat) : Prop where
  value : ∀ {m item node} (text : Bytes), Blank m item node →
    Agrees (JsonParse.parseValue pow fuel text) (parseValue pow fuel m item text) (IsFilled m item node)
      (HasValue m item node)
  array : ∀ {m item node} (text : Bytes), Blank m item node →
    Agrees (JsonParse.parseArray pow fuel text) (parseArray pow fuel m item text) (IsFilled m item node)
      (HasValue m item node)
  elements : ∀ {m child node} (text : Bytes), m.cells child = some (.node node) → node.next = none →
    Agrees (JsonParse.parseElements pow fuel text) (parseElements pow fuel m child text) (IsLinked m child node)
      (HasItems m child node)
  object : ∀ {m item node} (text : Bytes), Blank m item node →
    Agrees (JsonParse.parseObject pow fuel text) (parseObject pow fuel m item text) (IsFilled m item node)
      (HasValue m item node)
  member : ∀ {m child node} (text : Bytes), Blank m child node → node.string = none →
    Agrees (JsonParse.parseMember pow fuel text) (parseMember pow fuel m child text) (IsMade m child node)
      (HasMember m child node)
  members : ∀ {m child node} (text : Bytes), m.cells child = some (.node node) → node.next = none →
    Agrees (JsonParse.parseMembers pow fuel text) (parseMembers pow fuel m child text) (IsLinked m child node)
      (HasMembers m child node)

section
variable {pow : Pow} {fuel : Nat} {m : Memory} {item child : Nat} {node : CJsonDap}

theorem Follows.value_succ (ih : Follows pow fuel) (text : Bytes) (blank : Blank m item node) :
    Agrees (JsonParse.parseValue pow (fuel + 1) text) (parseValue pow (fuel + 1) m item text) (IsFilled m item node)
      (HasValue m item node) := by
  unfold JsonParse.parseValue parseValue
  by_cases isNull : (ascii "null").isPrefixOf text
  · rw [if_pos isNull, if_pos isNull]
    exact .ok ⟨_, blank.edit rfl rfl blank.child blank.valuestring rfl, rfl⟩
  rw [if_neg isNull, if_neg isNull]
  by_cases isFalse : (ascii "false").isPrefixOf text
  · rw [if_pos isFalse, if_pos isFalse]
    exact .ok ⟨_, blank.edit rfl rfl blank.child blank.valuestring rfl, rfl⟩
  rw [if_neg isFalse, if_neg isFalse]
  by_cases isTrue : (ascii "true").isPrefixOf text
  · rw [if_pos isTrue, if_pos isTrue]
    exact .ok ⟨_, blank.edit rfl rfl blank.child blank.valuestring rfl, rfl⟩
  rw [if_neg isTrue, if_neg isTrue]
  cases text with
  | nil => exact .failed blank.refl
  | cons b rest =>
    dsimp only
    by_cases quoted : b = quote
    · rw [if_pos quoted, if_pos quoted]
      exact (parseString_agrees blank _).map (fun x m' done => HasValue.string done.1 done.2) (fun _ left => left)
    rw [if_neg quoted, if_neg quoted]
    by_cases digits : b = minus ∨ isDigit b
    · rw [if_pos digits, if_pos digits]
      exact (parseNumber_agrees pow blank _).map (fun x m' done => done) (fun _ left => left)
    rw [if_neg digits, if_neg digits]
    by_cases bracket : b = leftBracket
    · rw [if_pos bracket, if_pos bracket]
      exact ih.array _ blank
    rw [if_neg bracket, if_neg bracket]
    by_cases brace : b = leftBrace
    · rw [if_pos brace, if_pos brace]
      exact ih.object _ blank
    rw [if_neg brace, if_neg brace]
    exact .failed blank.refl

theorem Follows.array_succ (ih : Follows pow fuel) (text : Bytes) (blank : Blank m item node) :
    Agrees (JsonParse.parseArray pow (fuel + 1) text) (parseArray pow (fuel + 1) m item text) (IsFilled m item node)
      (HasValue m item node) := by
  rw [JsonParse.parseArray, parseArray]
  dsimp only
  have typed := blank.typed .cJsonDap_Array
  by_cases closed : (skip (text.drop 1)).head? = some rightBracket
  · rw [if_pos closed, if_pos closed]
    exact .ok ⟨_, typed, rfl, blank.child⟩
  rw [if_neg closed, if_neg closed]
  obtain ⟨first, opened⟩ := addChild_opened typed.alive
  change Agrees _ (andThen (parseValue pow fuel (addChild (setType m item .cJsonDap_Array) item).1
    (addChild (setType m item .cJsonDap_Array) item).2 _) _) _ _
  rw [first]
  refine Agrees.bind (ih.value _ ⟨opened.blank, rfl, rfl⟩) (fun tree rest m₂ done => ?_) (fun m₂ left => ?_)
  · obtain ⟨node', filled, shows⟩ := done
    have made := filled.made rfl
    refine Agrees.bind (ih.elements _ filled.alive filled.next) (fun items rest m' done => ?_) (fun m' left => ?_)
    · obtain ⟨next, linked, later⟩ := done
      have whole := blank.container opened made linked
      dsimp only
      by_cases closed : rest.head? = some rightBracket
      · rw [if_pos closed, if_pos closed]
        refine .ok ⟨_, whole, rfl, _, _, rfl, linked.alive, filled.prev, ?_, later⟩
        exact made.shows linked opened.newer shows
      · rw [if_neg closed, if_neg closed]
        exact .failed ⟨_, whole⟩
    · obtain ⟨next, linked⟩ := left
      exact ⟨_, blank.container opened made linked⟩
  · obtain ⟨node', filled⟩ := left
    exact ⟨_, blank.container opened (filled.made rfl) (Linked.refl filled.alive filled.next)⟩

theorem Follows.elements_succ (ih : Follows pow fuel) (text : Bytes) (alive : m.cells child = some (.node node))
    (last : node.next = none) :
    Agrees (JsonParse.parseElements pow (fuel + 1) text) (parseElements pow (fuel + 1) m child text)
      (IsLinked m child node) (HasItems m child node) := by
  rw [JsonParse.parseElements, parseElements]
  by_cases more : text.head? = some comma
  · rw [if_pos more, if_pos more]
    obtain ⟨new, opened⟩ := addSibling_opened alive
    change Agrees _ (andThen (parseValue pow fuel (addSibling m child).1 (addSibling m child).2 _) _) _ _
    rw [new]
    refine Agrees.bind (ih.value _ ⟨opened.blank, rfl, rfl⟩) (fun tree rest m₂ done => ?_) (fun m₂ left => ?_)
    · obtain ⟨node', filled, shows⟩ := done
      have made := filled.made rfl
      refine Agrees.map (ih.elements _ filled.alive filled.next) (fun items m' done => ?_) (fun m' left => ?_)
      · obtain ⟨next, linked, later⟩ := done
        obtain ⟨there, grown⟩ := opened.close made linked
        refine ⟨_, ⟨there, grown⟩, _, _, rfl, linked.alive, filled.prev, ?_, later⟩
        exact made.shows linked opened.newer shows
      · obtain ⟨next, linked⟩ := left
        obtain ⟨there, grown⟩ := opened.close made linked
        exact ⟨_, there, grown⟩
    · obtain ⟨node', filled⟩ := left
      obtain ⟨there, grown⟩ := opened.close (filled.made rfl) (Linked.refl filled.alive filled.next)
      exact ⟨_, there, grown⟩
  · rw [if_neg more, if_neg more]
    exact .ok ⟨_, Linked.refl alive last, rfl⟩

theorem Follows.object_succ (ih : Follows pow fuel) (text : Bytes) (blank : Blank m item node) :
    Agrees (JsonParse.parseObject pow (fuel + 1) text) (parseObject pow (fuel + 1) m item text) (IsFilled m item node)
      (HasValue m item node) := by
  rw [JsonParse.parseObject, parseObject]
  dsimp only
  have typed := blank.typed .cJsonDap_Object
  by_cases closed : (skip (text.drop 1)).head? = some rightBrace
  · rw [if_pos closed, if_pos closed]
    exact .ok ⟨_, typed, rfl, blank.child⟩
  rw [if_neg closed, if_neg closed]
  obtain ⟨first, opened⟩ := addChild_opened typed.alive
  change Agrees _ (andThen (parseMember pow fuel (addChild (setType m item .cJsonDap_Object) item).1
    (addChild (setType m item .cJsonDap_Object) item).2 _) _) _ _
  rw [first]
  refine Agrees.bind (ih.member _ ⟨opened.blank, rfl, rfl⟩ rfl) (fun pair rest m₂ done => ?_) (fun m₂ left => ?_)
  · obtain ⟨node', made, named, shows⟩ := done
    refine Agrees.bind (ih.members _ made.alive made.next) (fun pairs rest m' done => ?_) (fun m' left => ?_)
    · obtain ⟨next, linked, later⟩ := done
      have whole := blank.container opened made linked
      dsimp only
      by_cases closed : rest.head? = some rightBrace
      · rw [if_pos closed, if_pos closed]
        refine .ok ⟨_, whole, rfl, _, _, rfl, linked.alive, made.prev, ?_, ?_, later⟩
        · exact made.named linked opened.newer named
        · exact made.shows linked opened.newer shows
      · rw [if_neg closed, if_neg closed]
        exact .failed ⟨_, whole⟩
    · obtain ⟨next, linked⟩ := left
      exact ⟨_, blank.container opened made linked⟩
  · obtain ⟨node', made⟩ := left
    exact ⟨_, blank.container opened made (Linked.refl made.alive made.next)⟩

/-- The string that was read as a value becomes the name. -/
theorem Follows.member_succ (ih : Follows pow fuel) (text : Bytes) (blank : Blank m child node)
    (nameless : node.string = none) :
    Agrees (JsonParse.parseMember pow (fuel + 1) text) (parseMember pow (fuel + 1) m child text) (IsMade m child node)
      (HasMember m child node) := by
  rw [JsonParse.parseMember, parseMember]
  have older := Heap.lt_fresh blank.alive
  refine Agrees.bind (parseString_agrees blank text) (fun name rest m₁ done => ?_) (fun m₁ left => ?_)
  · obtain ⟨read, chars⟩ := done
    have named := read.takeName blank
    dsimp only
    by_cases colons : (skip rest).head? = some colon
    · rw [if_neg (not_not_intro colons), if_neg (not_not_intro colons)]
      refine Agrees.bind (ih.value _ ⟨named.alive, blank.child, rfl⟩) (fun tree rest m' done => ?_) (fun m' left => ?_)
      · obtain ⟨node', filled, shows⟩ := done
        have made := named.filled (blank.no_value rfl rfl) filled older
        refine .ok ⟨node', made, ⟨m.fresh, filled.string, ?_⟩, shows⟩
        have kept := filled.grown.frame m.fresh (Heap.lt_fresh ((edit_other (Nat.ne_of_gt older)).trans chars))
        rw [kept (Nat.ne_of_gt older), edit_other (Nat.ne_of_gt older)]
        exact chars
      · obtain ⟨node', filled⟩ := left
        exact ⟨node', named.filled (blank.no_value rfl rfl) filled older⟩
    · rw [if_pos colons, if_pos colons]
      exact .failed ⟨_, named⟩
  · obtain ⟨node', filled⟩ := left
    exact ⟨node', filled.made nameless⟩

theorem Follows.members_succ (ih : Follows pow fuel) (text : Bytes) (alive : m.cells child = some (.node node))
    (last : node.next = none) :
    Agrees (JsonParse.parseMembers pow (fuel + 1) text) (parseMembers pow (fuel + 1) m child text)
      (IsLinked m child node) (HasMembers m child node) := by
  rw [JsonParse.parseMembers, parseMembers]
  by_cases more : text.head? = some comma
  · rw [if_pos more, if_pos more]
    obtain ⟨new, opened⟩ := addSibling_opened alive
    change Agrees _ (andThen (parseMember pow fuel (addSibling m child).1 (addSibling m child).2 _) _) _ _
    rw [new]
    refine Agrees.bind (ih.member _ ⟨opened.blank, rfl, rfl⟩ rfl) (fun pair rest m₂ done => ?_) (fun m₂ left => ?_)
    · obtain ⟨node', made, named, shows⟩ := done
      refine Agrees.map (ih.members _ made.alive made.next) (fun pairs m' done => ?_) (fun m' left => ?_)
      · obtain ⟨next, linked, later⟩ := done
        obtain ⟨there, grown⟩ := opened.close made linked
        refine ⟨_, ⟨there, grown⟩, _, _, rfl, linked.alive, made.prev, ?_, ?_, later⟩
        · exact made.named linked opened.newer named
        · exact made.shows linked opened.newer shows
      · obtain ⟨next, linked⟩ := left
        obtain ⟨there, grown⟩ := opened.close made linked
        exact ⟨_, there, grown⟩
    · obtain ⟨node', made⟩ := left
      obtain ⟨there, grown⟩ := opened.close made (Linked.refl made.alive made.next)
      exact ⟨_, there, grown⟩
  · rw [if_neg more, if_neg more]
    exact .ok ⟨_, Linked.refl alive last, rfl⟩

end

theorem follows (pow : Pow) : (fuel : Nat) → Follows pow fuel
  | 0 => by
    constructor
    · intros; rw [JsonParse.parseValue, parseValue]; exact .fault
    · intros; rw [JsonParse.parseArray, parseArray]; exact .fault
    · intros; rw [JsonParse.parseElements, parseElements]; exact .fault
    · intros; rw [JsonParse.parseObject, parseObject]; exact .fault
    · intros; rw [JsonParse.parseMember, parseMember]; exact .fault
    · intros; rw [JsonParse.parseMembers, parseMembers]; exact .fault
  | fuel + 1 => {
      value := (follows pow fuel).value_succ
      array := (follows pow fuel).array_succ
      elements := (follows pow fuel).elements_succ
      object := (follows pow fuel).object_succ
      member := (follows pow fuel).member_succ
      members := (follows pow fuel).members_succ }

end WxDap.JsonMemory
