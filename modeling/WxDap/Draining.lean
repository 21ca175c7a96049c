import Mathlib.Algebra.GroupWithZero.Nat
import Mathlib.Data.Prod.Lex
import WxDap.Frames

namespace WxDap.JsonRPC
open Decimal (ascii atol)
open CInt (wrap32 wrap64)

/-- A frame of the stream: its header block names the size of its payload. The whole of
it fits a `std::string`. -/
structure Frame where
  block : Bytes
  payload : Bytes
  first : HeaderBlock block
  named : ∃ value, (parseHeaders block).find contentLength = some value ∧ atol value = payload.length
  positive : 1 ≤ payload.length
  fits : block.length + 4 + payload.length < 2 ^ 63

namespace Frame

def bytes (frame : Frame) : Bytes := frame.block ++ separator ++ frame.payload

/-- The size of the header section is an `int`. -/
def Small (frame : Frame) : Prop := frame.block.length + 4 < 2 ^ 31

theorem bytes_ne_nil (frame : Frame) : frame.bytes ≠ [] := by
  simp [bytes, separator]

end Frame

/-- The bytes of a number of frames. -/
def frameBytes (frames : List Frame) : Bytes := frames.flatMap Frame.bytes

/-- What a user of a `JsonRPC` does: `AppendBuffer` with the next bytes of the stream, or
`ProcessBuffer`. -/
inductive Act
  | append (size : Nat)
  | process
  deriving DecidableEq, Repr

/-- What is under way, the innermost first: a callback or the code that uses the object,
with what it still does, or the loop of `ProcessBuffer` before its `DoProcessBuffer`. -/
inductive Activity
  | user (acts : List Act)
  | loop
  deriving DecidableEq, Repr

/-- A `JsonRPC` in use. -/
structure Draining (J : Type) where
  /-- the bytes of the stream that have not been appended -/
  coming : Bytes
  /-- all that has been appended -/
  appended : Bytes := []
  buffer : Bytes := []
  /-- the values with which callbacks were started -/
  delivered : List J := []
  stack : List Activity

namespace Draining
variable {J : Type} (parse : Bytes → Option J) (respond : List J → List Act)

/-- One step. A callback does what `respond` says for the values delivered so far, the last
of which is its own. There is no step after a fault, nor when everything has returned. -/
def step (state : Draining J) : Option (Draining J) :=
  match state.stack with
  | [] => none
  | .user [] :: below => some { state with stack := below }
  | .user (.append size :: acts) :: below =>
    some { state with
      coming := state.coming.drop size
      appended := state.appended ++ state.coming.take size
      buffer := appendBuffer state.buffer (state.coming.take size)
      stack := .user acts :: below }
  | .user (.process :: acts) :: below => some { state with stack := .loop :: .user acts :: below }
  | .loop :: below =>
    match doProcessBuffer parse state.buffer with
    | .error _ => none
    | .ok (none, rest) => some { state with buffer := rest, stack := below }
    | .ok (some json, rest) =>
      let delivered := state.delivered ++ [json]
      some { state with
        buffer := rest
        delivered := delivered
        stack := .user (respond delivered) :: .loop :: below }

/-- The state after a number of steps. -/
def after (state : Draining J) : Nat → Option (Draining J)
  | 0 => some state
  | n + 1 => (state.step parse respond).bind (fun next => next.after n)

/-- A new object, whose user goes on as `main` says. -/
def start (stream : Bytes) (main : List Act) : Draining J := { coming := stream, stack := [.user main] }

end Draining

theorem Frame.doProcessBuffer_frame {J : Type} {parse : Bytes → Option J} {frame : Frame} (small : frame.Small)
    (rest : Bytes) : doProcessBuffer parse (frame.bytes ++ rest) = .ok (parse frame.payload, rest) := by
  obtain ⟨value, named, length⟩ := frame.named
  exact doProcessBuffer_block frame.first named length frame.positive small frame.fits rest

theorem Frame.doProcessBuffer_part {J : Type} {parse : Bytes → Option J} {frame : Frame} (small : frame.Small)
    {part : Bytes} (starts : part <+: frame.bytes) (strict : part ≠ frame.bytes) :
    doProcessBuffer parse part = .ok (none, part) := by
  obtain ⟨value, named, length⟩ := frame.named
  exact doProcessBuffer_short frame.first named length frame.positive small frame.fits starts strict

/-- A buffer at the beginning of the remaining frames either has the next one at its head or
is left alone. -/
theorem doProcessBuffer_frames {J : Type} (parse : Bytes → Option J) {buffer : Bytes} {todo : List Frame}
    (small : ∀ frame ∈ todo, frame.Small) (starts : buffer <+: frameBytes todo) :
    (∃ frame later rest, todo = frame :: later ∧ buffer = frame.bytes ++ rest ∧
      doProcessBuffer parse buffer = .ok (parse frame.payload, rest)) ∨
    doProcessBuffer parse buffer = .ok (none, buffer) := by
  cases todo with
  | nil =>
    have empty : buffer = [] := List.prefix_nil.mp starts
    rw [empty]
    exact Or.inr doProcessBuffer_nil
  | cons frame later =>
    have first := small frame List.mem_cons_self
    by_cases whole : frame.bytes <+: buffer
    · obtain ⟨rest, rfl⟩ := whole
      exact Or.inl ⟨frame, later, rest, rfl, rfl, Frame.doProcessBuffer_frame first rest⟩
    · have part : buffer <+: frame.bytes :=
        (List.prefix_or_prefix_of_prefix starts (List.prefix_append _ _)).resolve_right whole
      have strict : buffer ≠ frame.bytes := by
        rintro rfl
        exact whole (List.prefix_refl _)
      exact Or.inr (Frame.doProcessBuffer_part first part strict)

theorem doProcessBuffer_le {J : Type} {parse : Bytes → Option J} {buffer rest : Bytes}
    (run : doProcessBuffer parse buffer = .ok (none, rest)) : rest.length ≤ buffer.length := by
  unfold doProcessBuffer at run
  split at run
  · cases run
    exact le_refl _
  dsimp only at run
  split at run
  · cases run
    exact le_refl _
  split at run
  · split at run
    · cases run
      exact List.length_take_le' _ _
    · cases run
  split at run
  · cases run
    exact le_refl _
  split at run
  · cases run
    exact le_refl _
  split at run
  · simp only [Except.ok.injEq, Prod.mk.injEq] at run
    rw [← run.2, List.length_drop]
    omega
  · cases run

namespace Draining
variable {J : Type} {parse : Bytes → Option J} {respond : List J → List Act}

/-- The frames that have been removed are the first ones of the stream, everything that was
appended is these frames and the buffer, and the values delivered are theirs, in order. -/
def Conserves (parse : Bytes → Option J) (frames : List Frame) (state : Draining J) : Prop :=
  ∃ done todo, frames = done ++ todo ∧ state.appended = frameBytes done ++ state.buffer ∧
    state.delivered = done.filterMap (fun frame => parse frame.payload)

/-- The invariant of a run: what has not been appended is still to come. -/
structure Sound (parse : Bytes → Option J) (frames : List Frame) (state : Draining J) : Prop where
  stream : state.appended ++ state.coming = frameBytes frames
  conserves : Conserves parse frames state

theorem frameBytes_append (frames others : List Frame) :
    frameBytes (frames ++ others) = frameBytes frames ++ frameBytes others := List.flatMap_append

theorem Sound.start (frames : List Frame) (main : List Act) :
    Sound parse frames (start (frameBytes frames) main) :=
  ⟨rfl, [], frames, rfl, rfl, rfl⟩

/-- The buffer is a beginning of the frames that have not been removed. -/
theorem Sound.buffer {frames done todo : List Frame} {state : Draining J} (sound : Sound parse frames state)
    (split : frames = done ++ todo) (appended : state.appended = frameBytes done ++ state.buffer) :
    state.buffer <+: frameBytes todo := by
  have whole := sound.stream
  rw [split, frameBytes_append, appended, List.append_assoc, List.append_cancel_left_eq] at whole
  exact ⟨_, whole⟩

variable (respond) in
/-- One turn of the loop. -/
theorem Sound.loop {frames : List Frame} {state : Draining J} (small : ∀ frame ∈ frames, frame.Small)
    (sound : Sound parse frames state) {below : List Activity} (looping : state.stack = .loop :: below) :
    ∃ next, state.step parse respond = some next ∧ Sound parse frames next := by
  obtain ⟨done, todo, rfl, appended, delivered⟩ := sound.conserves
  have later : ∀ frame ∈ todo, frame.Small := fun frame member => small frame (List.mem_append_right _ member)
  rcases doProcessBuffer_frames parse later (sound.buffer rfl appended) with
    ⟨frame, rest, left, rfl, buffer, run⟩ | run
  · -- the next frame is removed, whether or not it is delivered
    have removed : state.appended = frameBytes (done ++ [frame]) ++ left := by
      rw [appended, buffer, frameBytes_append, List.append_assoc]
      simp [frameBytes]
    have frames : done ++ frame :: rest = (done ++ [frame]) ++ rest := by simp
    cases decoded : parse frame.payload with
    | none =>
      refine ⟨{ state with buffer := left, stack := below }, ?_, sound.stream, done ++ [frame], rest, frames, removed, ?_⟩
      · simp only [step, looping, run, decoded]
      · rw [List.filterMap_append, ← delivered]
        simp [decoded]
    | some json =>
      refine ⟨{ state with
        buffer := left
        delivered := state.delivered ++ [json]
        stack := .user (respond (state.delivered ++ [json])) :: .loop :: below }, ?_,
        sound.stream, done ++ [frame], rest, frames, removed, ?_⟩
      · simp only [step, looping, run, decoded]
      · rw [List.filterMap_append, ← delivered]
        simp [decoded]
  · refine ⟨{ state with buffer := state.buffer, stack := below }, ?_, sound.stream, done, todo, rfl, appended, delivered⟩
    simp only [step, looping, run]

variable (respond) in
/-- Every state that has something under way goes on, and stays sound. -/
theorem Sound.step {frames : List Frame} {state : Draining J} (small : ∀ frame ∈ frames, frame.Small)
    (sound : Sound parse frames state) (busy : state.stack ≠ []) :
    ∃ next, state.step parse respond = some next ∧ Sound parse frames next := by
  cases stack : state.stack with
  | nil => exact absurd stack busy
  | cons activity below =>
    cases activity with
    | loop => exact sound.loop respond small stack
    | user acts =>
      cases acts with
      | nil =>
        have run : state.step parse respond = some { state with stack := below } := by
          simp only [Draining.step, stack]
        exact ⟨_, run, sound.stream, sound.conserves⟩
      | cons act acts =>
        cases act with
        | process =>
          have run : state.step parse respond = some { state with stack := .loop :: .user acts :: below } := by
            simp only [Draining.step, stack]
          exact ⟨_, run, sound.stream, sound.conserves⟩
        | append size =>
          have run : state.step parse respond = some { state with
              coming := state.coming.drop size
              appended := state.appended ++ state.coming.take size
              buffer := appendBuffer state.buffer (state.coming.take size)
              stack := .user acts :: below } := by
            simp only [Draining.step, stack]
          obtain ⟨done, todo, split, appended, delivered⟩ := sound.conserves
          refine ⟨_, run, ?_, done, todo, split, ?_, delivered⟩
          · simp only [← sound.stream, List.append_assoc, List.take_append_drop]
          · simp only [appended, appendBuffer, List.append_assoc]

/-- Callbacks that leave the object alone: then the loop is `ProcessBuffer`. -/
theorem after_processBuffer {state : Draining J} {below : List Activity} {values : List J} {rest : Bytes}
    (looping : state.stack = .loop :: below) (run : processBuffer parse state.buffer = .ok (values, rest)) :
    ∃ n, state.after parse (fun _ => []) n =
      some { state with buffer := rest, delivered := state.delivered ++ values, stack := below } := by
  induction size : state.buffer.length using Nat.strong_induction_on generalizing state values with
  | _ bound ih =>
    rw [processBuffer_eq] at run
    cases taken : doProcessBuffer parse state.buffer with
    | error fault => simp [taken, bind, Except.bind] at run
    | ok result =>
      obtain ⟨json, left⟩ := result
      cases json with
      | none =>
        simp only [taken, bind, Except.bind, pure, Except.pure, Except.ok.injEq, Prod.mk.injEq] at run
        obtain ⟨rfl, rfl⟩ := run
        exact ⟨1, by simp [after, step, looping, taken]⟩
      | some json =>
        have shorter := doProcessBuffer_shrinks taken
        cases later : processBuffer parse left with
        | error fault => simp [taken, later, bind, Except.bind] at run
        | ok result =>
          simp only [taken, later, bind, Except.bind, pure, Except.pure, Except.ok.injEq, Prod.mk.injEq] at run
          obtain ⟨rfl, rfl⟩ := run
          let next : Draining J :=
            { state with buffer := left, delivered := state.delivered ++ [json], stack := .loop :: below }
          have again : next.stack = .loop :: below := rfl
          have ran : processBuffer parse next.buffer = .ok result := later
          obtain ⟨n, reached⟩ := ih left.length (size ▸ shorter) again ran rfl
          refine ⟨n + 2, ?_⟩
          simp only [after, step, looping, taken, Option.bind_some]
          exact reached.trans (by simp [next])

/-- What an activity still does without another delivery. -/
def weight : Activity → Nat
  | .user acts => 2 * acts.length + 1
  | .loop => 1

/-- The bytes that have not been removed, and what is left to do until the next delivery. -/
def measure (state : Draining J) : Nat ×ₗ Nat :=
  toLex (state.buffer.length + state.coming.length, (state.stack.map weight).sum)

theorem step_measure {state next : Draining J} (run : state.step parse respond = some next) :
    next.measure < state.measure := by
  rw [measure, measure, Prod.Lex.toLex_lt_toLex]
  cases stack : state.stack with
  | nil => simp [step, stack] at run
  | cons activity below =>
    cases activity with
    | user acts =>
      cases acts with
      | nil =>
        simp only [step, stack, Option.some.injEq] at run
        subst run
        refine Or.inr ⟨rfl, ?_⟩
        simp [weight]
      | cons act acts =>
        cases act with
        | append size =>
          simp only [step, stack, Option.some.injEq] at run
          subst run
          refine Or.inr ⟨?_, ?_⟩
          · simp only [appendBuffer, List.length_append, List.length_take, List.length_drop]
            omega
          · simp [weight]
        | process =>
          simp only [step, stack, Option.some.injEq] at run
          subst run
          refine Or.inr ⟨rfl, ?_⟩
          simp only [weight, List.map_cons, List.sum_cons, List.length_cons]
          omega
    | loop =>
      simp only [step, stack] at run
      split at run
      · cases run
      · rename_i rest taken
        cases run
        have less := doProcessBuffer_le taken
        rcases Nat.lt_or_eq_of_le less with shorter | same
        · exact Or.inl (by simp only; omega)
        · refine Or.inr ⟨by simp only [same], ?_⟩
          simp [weight]
      · rename_i json rest taken
        cases run
        have shorter := doProcessBuffer_shrinks taken
        exact Or.inl (by simp only; omega)

/-- Every state that is reached is sound. -/
theorem Sound.after {frames : List Frame} (small : ∀ frame ∈ frames, frame.Small) {n : Nat}
    {state last : Draining J} (sound : Sound parse frames state) (run : state.after parse respond n = some last) :
    Sound parse frames last := by
  induction n generalizing state with
  | zero =>
    cases run
    exact sound
  | succ n ih =>
    obtain ⟨next, step, later⟩ := Option.bind_eq_some_iff.mp run
    have busy : state.stack ≠ [] := by
      intro empty
      simp [Draining.step, empty] at step
    obtain ⟨other, same, kept⟩ := sound.step respond small busy
    rw [step] at same
    cases same
    exact ih kept later

/-- Everything that is under way returns. -/
theorem Sound.returns {frames : List Frame} (small : ∀ frame ∈ frames, frame.Small) {state : Draining J}
    (sound : Sound parse frames state) :
    ∃ n last, state.after parse respond n = some last ∧ last.stack = [] := by
  induction order : state.measure using WellFoundedLT.induction generalizing state with
  | ind bound ih =>
    by_cases idle : state.stack = []
    · exact ⟨0, state, rfl, idle⟩
    · obtain ⟨next, step, kept⟩ := sound.step respond small idle
      obtain ⟨n, last, run, done⟩ := ih _ (order ▸ step_measure step) kept rfl
      exact ⟨n + 1, last, by simp only [Draining.after, step, Option.bind_some, run], done⟩

end Draining

/-- However the stream is cut, and whatever the callbacks do with the next bytes of it and
with the object itself, every call returns and at every moment the stream is conserved. -/
def Reentrant {J : Type} (parse : Bytes → Option J) (frames : List Frame) : Prop :=
  ∀ (respond : List J → List Act) (main : List Act),
    (∃ n last, (Draining.start (frameBytes frames) main).after parse respond n = some last ∧ last.stack = []) ∧
    ∀ n state, (Draining.start (frameBytes frames) main).after parse respond n = some state →
      Draining.Conserves parse frames state

theorem reentrant_of_small {J : Type} (parse : Bytes → Option J) {frames : List Frame}
    (small : ∀ frame ∈ frames, frame.Small) : Reentrant parse frames := by
  intro respond main
  have start : Draining.Sound parse frames (Draining.start (frameBytes frames) main) := .start frames main
  refine ⟨start.returns small, fun n state run => ?_⟩
  exact (start.after small run).conserves

/-- The frames that `Send` writes are small ones. -/
def Payload.toFrame (p : Payload) : Frame where
  block := sendHeader p.bytes.length
  payload := p.bytes
  first := sendHeader_block _
  named := ⟨_, sendHeader_named _, Decimal.atol_numeral p.bytes_lt⟩
  positive := p.positive
  fits := by
    have room := p.frame_length
    have fits := p.fits
    unfold Payload.frame at room
    omega

theorem Payload.toFrame_small (p : Payload) : p.toFrame.Small := p.header_small

def threeFrames : List Frame :=
  [Payload.toFrame ⟨ascii "1", by decide, by decide⟩, Payload.toFrame ⟨ascii "22", by decide, by decide⟩,
    Payload.toFrame ⟨ascii "333", by decide, by decide⟩]

/-- The first callback appends what is left of the stream and calls `ProcessBuffer`. -/
def firstDrains (delivered : List Bytes) : List Act :=
  if delivered.length = 1 then [.append 100, .process] else []

/-- Within the first callback the other two frames are delivered. -/
theorem reentrant_sent : Reentrant (fun payload => some payload) threeFrames ∧
    ((Draining.start (frameBytes threeFrames) [.append 30, .process]).after (fun payload => some payload)
      firstDrains 13).map (fun last => (last.stack, last.delivered)) = some ([], [ascii "1", ascii "22", ascii "333"]) := by
  refine ⟨reentrant_of_small _ (fun frame member => ?_), by decide +kernel⟩
  simp only [threeFrames, List.mem_cons, List.not_mem_nil, or_false] at member
  rcases member with rfl | rfl | rfl <;> exact Payload.toFrame_small _

/-- A header with many blanks before its value. -/
def blankHeader (size : Nat) : Bytes := contentLength ++ 58 :: (List.replicate size 32 ++ ascii "1")

theorem blankHeader_mem {size : Nat} {b : UInt8} (member : b ∈ blankHeader size) :
    b ∈ contentLength ∨ b = 58 ∨ b = 32 ∨ b = 49 := by
  rcases List.mem_append.mp member with name | value
  · exact Or.inl name
  · rcases List.mem_cons.mp value with colon | rest
    · exact Or.inr (Or.inl colon)
    · rcases List.mem_append.mp rest with blank | digit
      · exact Or.inr (Or.inr (Or.inl (List.eq_of_mem_replicate blank)))
      · exact Or.inr (Or.inr (Or.inr (List.mem_singleton.mp digit)))

theorem blankHeader_not_mem {size : Nat} {b : UInt8} (name : b ∉ contentLength) (colon : b ≠ 58) (blank : b ≠ 32)
    (digit : b ≠ 49) : b ∉ blankHeader size := by
  intro member
  rcases blankHeader_mem member with inName | rfl | rfl | rfl
  · exact name inName
  · exact colon rfl
  · exact blank rfl
  · exact digit rfl

theorem blankHeader_length (size : Nat) : (blankHeader size).length = size + 16 := by
  have name : contentLength.length = 14 := by decide
  have digit : (ascii "1").length = 1 := by decide
  simp only [blankHeader, List.length_append, List.length_cons, List.length_replicate, name, digit]
  omega

theorem blankHeader_block (size : Nat) : HeaderBlock (blankHeader size) := by
  have absent : 13 ∉ blankHeader size :=
    blankHeader_not_mem (by decide) (by decide) (by decide) (by decide)
  have found : Find.find separator (blankHeader size ++ separator ++ []) = some (blankHeader size).length :=
    Find.find_of_head_not_mem absent []
  rwa [List.append_nil] at found

theorem trim_blanks (size : Nat) (str : Bytes) :
    StringUtils.trim (List.replicate size 32 ++ str) = StringUtils.trim str := by
  induction size with
  | zero => rfl
  | succ size ih =>
    rw [List.replicate_succ, List.cons_append, StringUtils.trim_cons_blank (by decide), ih]

theorem trim_blankHeader (size : Nat) : StringUtils.trim (blankHeader size) = blankHeader size := by
  refine StringUtils.trim_of_ends (fun b first => ?_) (fun b last => ?_)
  · have head : (blankHeader size).head? = some 67 := rfl
    rw [head, Option.mem_some_iff] at first
    subst first
    decide
  · have shape : blankHeader size = (contentLength ++ 58 :: List.replicate size 32) ++ [49] := by
      simp only [blankHeader, List.append_assoc, List.cons_append]
      rfl
    rw [shape, List.getLast?_concat, Option.mem_some_iff] at last
    subst last
    decide

theorem blankHeader_named (size : Nat) :
    (parseHeaders (blankHeader size)).find contentLength = some (ascii "1") := by
  have noNul : 0 ∉ blankHeader size := blankHeader_not_mem (by decide) (by decide) (by decide) (by decide)
  have noLine : ∀ b ∈ blankHeader size, b ∉ [10] := by
    intro b member newline
    rw [List.mem_singleton] at newline
    subst newline
    exact blankHeader_not_mem (by decide) (by decide) (by decide) (by decide) member
  have nonempty : blankHeader size ≠ [] := by simp [blankHeader]
  have absent : 58 ∉ contentLength := by decide
  have name : StringUtils.trim contentLength = contentLength := by decide
  have value : StringUtils.trim (ascii "1") = ascii "1" := by decide
  have line : header (blankHeader size) = (contentLength, ascii "1") := by
    simp only [header, trim_blankHeader]
    rw [blankHeader, StringUtils.beforeFirst_append absent, StringUtils.afterFirst_append absent, name, trim_blanks,
      value]
  rw [parseHeaders, StringUtils.split_single noNul noLine nonempty (trim_blankHeader size)]
  simp only [List.foldl_cons, List.foldl_nil, line]
  exact UnorderedMap.find_insert_self (UnorderedMap.find_empty _) _

/-- One byte of payload after a header section of more than two gigabytes. -/
def largeFrame : Frame where
  block := blankHeader (2 ^ 31)
  payload := ascii "1"
  first := blankHeader_block _
  named := ⟨_, blankHeader_named _, by decide⟩
  positive := by decide
  fits := by
    have digit : (ascii "1").length = 1 := by decide
    rw [blankHeader_length, digit]
    omega

theorem largeFrame_faults {J : Type} (parse : Bytes → Option J) :
    doProcessBuffer parse largeFrame.bytes = .error .invalidSlice := by
  have digit : (ascii "1").length = 1 := by decide
  have value : atol (ascii "1") = 1 := by decide
  have nonempty := largeFrame.bytes_ne_nil
  have size : ((blankHeader (2 ^ 31)).length + 4 : Nat) = 2 ^ 31 + 20 := by
    rw [blankHeader_length]
  have wrapped : wrap32 ((2 ^ 31 + 20 : Nat) : Int) = -2 ^ 31 + 20 := by decide
  have headers : readHeaders largeFrame.bytes = (-2 ^ 31 + 20, parseHeaders (blankHeader (2 ^ 31))) := by
    rw [← wrapped, ← size]
    exact readHeaders_block (blankHeader_block _) _
  have sum : wrap64 (-2 ^ 31 + 20 + 1) = -2 ^ 31 + 21 := by decide
  unfold doProcessBuffer
  rw [if_neg nonempty, headers]
  simp only [blankHeader_named, value]
  rw [if_neg (by decide), if_neg (by decide), if_neg (by rw [sum]; omega), if_neg (by omega)]

/-- A call that comes to a fault does not return. -/
theorem Draining.not_returns {J : Type} {parse : Bytes → Option J} {stream : Bytes} {fault : Fault}
    (faults : doProcessBuffer parse stream = .error fault) (respond : List J → List Act) :
    ¬∃ n last, (start stream [.append stream.length, .process]).after parse respond n = some last ∧
      last.stack = [] := by
  rintro ⟨n, last, run, done⟩
  rcases n with _ | _ | _ | n
  · cases run
    cases done
  · cases run
    cases done
  · cases run
    cases done
  · simp [after, step, start, appendBuffer, faults] at run

/-- The size of that header section is negative as an `int`. -/
theorem largeFrame_not_reentrant : ¬ ∀ frames, Reentrant (fun payload => some payload) frames := by
  intro always
  have returns := (always [largeFrame] (fun _ => []) [.append largeFrame.bytes.length, .process]).1
  have whole : frameBytes [largeFrame] = largeFrame.bytes := by
    rw [frameBytes, List.flatMap_cons, List.flatMap_nil, List.append_nil]
  rw [whole] at returns
  exact Draining.not_returns (largeFrame_faults _) _ returns

end WxDap.JsonRPC
