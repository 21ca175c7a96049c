import WxDap.Lib.Machine
import WxDap.StringUtils

namespace WxDap.StdoutTransport

/-- The child process. `kill(pid, 0)` still succeeds for one that has exited, until the
system has removed it. -/
inductive Child
  | running
  | exited
  | gone
  deriving DecidableEq, Repr

/-- Where the thread of `Process::StartThreads` that reads the child's output is. With
what it has read goes, for the record, what `read` returned for it. -/
inductive Reader
  /-- before `shutdown.load()` -/
  | testing
  /-- before the `IsAlive` of `DoRead` -/
  | probing
  /-- in the loop of `ReadAll` for the standard output -/
  | reading (content raw : Bytes)
  /-- `ReadAll` has returned; errors are read meanwhile -/
  | pushing (content raw : Bytes)
  | finished
  deriving DecidableEq, Repr

/-- Where the client's thread is in `StdoutTransport::Read`. -/
inductive Caller
  /-- before `IsAlive` -/
  | calling
  /-- in `ReadStdout` -/
  | popping
  /-- in `wxDELETE(m_process)` -/
  | deleting
  /-- `Read` has returned false -/
  | failed
  deriving DecidableEq, Repr

/-- The transport, its process and the three threads. The standard error of the child is
only logged and is left out. -/
structure Pipeline where
  child : Child := .running
  /-- written by the child and not read -/
  pipe : Bytes := []
  shutdown : Bool := false
  reader : Reader := .testing
  /-- `m_stdoutQueue` -/
  queue : List Bytes := []
  caller : Caller := .calling
  /-- the chunks that were pushed, each with what `read` returned for it -/
  pushed : List (Bytes × Bytes) := []
  /-- the buffers that `Read` has returned -/
  returned : List Bytes := []
  deriving DecidableEq, Repr

inductive Action
  | write (bytes : Bytes)
  | exit
  /-- the system removes the child that has exited -/
  | reap
  /-- the thread that watches `IsAlive` -/
  | watch
  /-- the next step of the reading thread, with the size of a `read` that finds something -/
  | reader (size : Option Nat)
  /-- the next step of `Read` -/
  | caller
  deriving DecidableEq, Repr

def chunkSize : Nat := 1024

def maxBuffSize : Nat := 1024 * 2048

namespace Pipeline

def isAlive (state : Pipeline) : Bool := state.child ≠ .gone

/-- One turn of `ReadAll`: the buffer is appended as a C string. -/
def readAll (state : Pipeline) (content raw : Bytes) (size : Nat) : Option Pipeline :=
  if 0 < size ∧ size ≤ state.pipe.length ∧ size < chunkSize then
    let buff := state.pipe.take size
    let content := content ++ StringUtils.cString buff
    let raw := raw ++ buff
    some { state with
      pipe := state.pipe.drop size
      reader := if content.length ≥ maxBuffSize then .pushing content raw else .reading content raw }
  else none

/-- The reading thread. A `select` that finds nothing, or fails, ends `ReadAll`. -/
def readerStep (state : Pipeline) (size : Option Nat) : Option Pipeline :=
  match state.reader, size with
  | .testing, _ => some { state with reader := if state.shutdown then .finished else .probing }
  | .probing, _ => some { state with reader := if state.isAlive then .reading [] [] else .testing }
  | .reading content raw, some size => state.readAll content raw size
  | .reading content raw, none => some { state with reader := .pushing content raw }
  | .pushing content raw, _ =>
    if content = [] then some { state with reader := .testing }
    else some { state with
      reader := .testing
      queue := state.queue ++ [content]
      pushed := state.pushed ++ [(content, raw)] }
  | .finished, _ => none

/-- `Read`. The destructor of the process ends both threads and waits for them; a `pop`
that times out clears the buffer. -/
def callerStep (state : Pipeline) : Option Pipeline :=
  match state.caller with
  | .calling =>
    if state.isAlive then some { state with caller := .popping }
    else some { state with caller := .deleting, shutdown := true }
  | .popping =>
    match state.queue with
    | [] => some { state with caller := .calling, returned := state.returned ++ [[]] }
    | front :: rest =>
      some { state with caller := .calling, queue := rest, returned := state.returned ++ [front] }
  | .deleting => if state.reader = .finished then some { state with caller := .failed } else none
  | .failed => none

def next (state : Pipeline) : Action → Option Pipeline
  | .write bytes => if state.child = .running then some { state with pipe := state.pipe ++ bytes } else none
  | .exit => if state.child = .running then some { state with child := .exited } else none
  | .reap => if state.child = .exited then some { state with child := .gone } else none
  | .watch => if state.isAlive then none else some { state with shutdown := true }
  | .reader size => state.readerStep size
  | .caller => state.callerStep

def step : Machine Pipeline Action Unit := fun state action => (state.next action).map (fun after => (after, ()))

/-- Every chunk is what was read, and when `Read` gives up it has returned all of them. -/
structure Lossless (state : Pipeline) : Prop where
  raw : ∀ entry ∈ state.pushed, entry.1 = entry.2
  all : state.caller = .failed → state.returned.flatten = (state.pushed.map Prod.fst).flatten

/-- A step that loses nothing: `Read` finds the child gone only when the queue is empty,
and a chunk has no NUL and is not pushed while the process is deleted. -/
def Harmless (transition : Machine.Transition Pipeline Action Unit) : Prop :=
  match transition.action, transition.before.caller, transition.before.reader with
  | .caller, .calling, _ => transition.before.isAlive = false → transition.before.queue = []
  | .reader _, caller, .pushing content raw => content ≠ [] → 0 ∉ raw ∧ caller ≠ .deleting
  | _, _, _ => True

end Pipeline

/-- What `ReadAll` keeps of what was read: all of it, or less if there is a NUL in it. -/
structure Cut (content raw : Bytes) : Prop where
  whole : 0 ∉ raw → content = raw
  short : 0 ∈ raw → content.length < raw.length

theorem cString_length_le (buff : Bytes) : (StringUtils.cString buff).length ≤ buff.length :=
  (List.takeWhile_prefix _).length_le

theorem cString_length_lt {buff : Bytes} (nul : 0 ∈ buff) : (StringUtils.cString buff).length < buff.length := by
  refine lt_of_le_of_ne (cString_length_le buff) (fun same => ?_)
  have whole : StringUtils.cString buff = buff := (List.takeWhile_prefix _).eq_of_length same
  have kept := List.takeWhile_eq_self_iff.mp whole 0 nul
  simp at kept

theorem Cut.nil : Cut [] [] := ⟨fun _ => rfl, by simp⟩

theorem Cut.append {content raw : Bytes} (cut : Cut content raw) (buff : Bytes) :
    Cut (content ++ StringUtils.cString buff) (raw ++ buff) := by
  have length : content.length ≤ raw.length := by
    by_cases nul : 0 ∈ raw
    · exact (cut.short nul).le
    · rw [cut.whole nul]
  have more := cString_length_le buff
  constructor
  · intro absent
    rw [List.mem_append, not_or] at absent
    rw [cut.whole absent.1, StringUtils.cString_of_not_mem absent.2]
  · intro nul
    rw [List.length_append, List.length_append]
    rcases List.mem_append.mp nul with old | new
    · have less := cut.short old
      omega
    · have less := cString_length_lt new
      omega

theorem Cut.eq_iff {content raw : Bytes} (cut : Cut content raw) : content = raw ↔ 0 ∉ raw := by
  refine ⟨fun same nul => ?_, cut.whole⟩
  have less := cut.short nul
  rw [same] at less
  exact lt_irrefl _ less

/-- What the reading thread has in its hands. -/
def Reader.Sound : Reader → Prop
  | .reading content raw | .pushing content raw => Cut content raw
  | _ => True

namespace Pipeline

/-- The queue holds, in order, what was pushed and has not been returned. -/
structure Sound (state : Pipeline) : Prop where
  queue : (state.pushed.map Prod.fst).flatten = state.returned.flatten ++ state.queue.flatten
  chunks : ∀ chunk ∈ state.queue, chunk ≠ []
  reader : state.reader.Sound
  entries : ∀ entry ∈ state.pushed, Cut entry.1 entry.2
  joined : state.caller = .failed → state.reader = .finished

/-- Something has been lost, or will be when `Read` returns. -/
def Broken (state : Pipeline) : Prop :=
  (∃ entry ∈ state.pushed, 0 ∈ entry.2) ∨ (state.caller = .deleting ∨ state.caller = .failed) ∧ state.queue ≠ []

theorem Sound.init : Sound {} := ⟨rfl, by simp, trivial, by simp, by simp⟩

theorem Sound.lossless_of {state : Pipeline} (sound : Sound state) (intact : ¬Broken state) : Lossless state := by
  rw [Broken, not_or] at intact
  refine ⟨fun entry member => ?_, fun failed => ?_⟩
  · exact (sound.entries entry member).whole (fun nul => intact.1 ⟨entry, member, nul⟩)
  · have empty : state.queue = [] := by
      by_contra nonempty
      exact intact.2 ⟨Or.inr failed, nonempty⟩
    rw [sound.queue, empty, List.flatten_nil, List.append_nil]

theorem Sound.broken_of {state : Pipeline} (sound : Sound state) (failed : state.caller = .failed)
    (lossless : Lossless state) : ¬Broken state := by
  rintro (⟨entry, member, nul⟩ | ⟨_, nonempty⟩)
  · exact (sound.entries entry member).eq_iff.mp (lossless.raw entry member) nul
  · have all := lossless.all failed
    rw [sound.queue, List.self_eq_append_right] at all
    obtain ⟨chunk, member⟩ := List.exists_mem_of_ne_nil _ nonempty
    exact sound.chunks chunk member (List.flatten_eq_nil_iff.mp all chunk member)

/-- A step that neither pushes nor pops, and does not change where `Read` is. -/
theorem Sound.of_quiet {state after : Pipeline} (sound : Sound state) (pushed : after.pushed = state.pushed)
    (queue : after.queue = state.queue) (returned : after.returned = state.returned)
    (caller : after.caller = state.caller) (reader : after.reader.Sound)
    (joined : state.reader = .finished → after.reader = .finished) :
    Sound after ∧ (Broken after ↔ Broken state) := by
  refine ⟨⟨?_, ?_, reader, ?_, ?_⟩, ?_⟩
  · rw [pushed, queue, returned, sound.queue]
  · rw [queue]
    exact sound.chunks
  · rw [pushed]
    exact sound.entries
  · rw [caller]
    exact fun failed => joined (sound.joined failed)
  · rw [Broken, Broken, pushed, queue, caller]

theorem Sound.push {state : Pipeline} {content raw : Bytes} (sound : Sound state)
    (pushing : state.reader = .pushing content raw) (nonempty : content ≠ []) :
    Sound { state with
      reader := .testing
      queue := state.queue ++ [content]
      pushed := state.pushed ++ [(content, raw)] } ∧
    (Broken { state with
        reader := .testing
        queue := state.queue ++ [content]
        pushed := state.pushed ++ [(content, raw)] } ↔
      Broken state ∨ ¬(0 ∉ raw ∧ state.caller ≠ .deleting)) := by
  have cut : Cut content raw := by
    have held := sound.reader
    rw [pushing] at held
    exact held
  have running : state.caller ≠ .failed := by
    intro failed
    rw [sound.joined failed] at pushing
    cases pushing
  refine ⟨⟨?_, ?_, trivial, ?_, fun failed => absurd failed running⟩, ?_⟩
  · simp only [List.map_append, List.flatten_append, sound.queue, List.append_assoc, List.map_cons, List.map_nil]
  · intro chunk member
    rcases List.mem_append.mp member with old | new
    · exact sound.chunks chunk old
    · rw [List.mem_singleton.mp new]
      exact nonempty
  · intro entry member
    rcases List.mem_append.mp member with old | new
    · exact sound.entries entry old
    · rw [List.mem_singleton.mp new]
      exact cut
  · rw [not_and_or, not_not, not_not]
    constructor
    · rintro (⟨entry, member, nul⟩ | ⟨deleting | failed, _⟩)
      · rcases List.mem_append.mp member with old | new
        · exact Or.inl (Or.inl ⟨entry, old, nul⟩)
        · rw [List.mem_singleton.mp new] at nul
          exact Or.inr (Or.inl nul)
      · exact Or.inr (Or.inr deleting)
      · exact absurd failed running
    · rintro ((⟨entry, member, nul⟩ | ⟨ending, _⟩) | nul | deleting)
      · exact Or.inl ⟨entry, List.mem_append_left _ member, nul⟩
      · exact Or.inr ⟨ending, by simp⟩
      · exact Or.inl ⟨(content, raw), List.mem_append_right _ (List.mem_singleton_self _), nul⟩
      · exact Or.inr ⟨Or.inl deleting, by simp⟩

theorem broken_of_harmless {state after : Pipeline} {action : Action}
    (quiet : Sound after ∧ (Broken after ↔ Broken state)) (harmless : Harmless ⟨state, action, after, ()⟩) :
    Sound after ∧ (Broken after ↔ Broken state ∨ ¬Harmless ⟨state, action, after, ()⟩) :=
  ⟨quiet.1, by simp only [quiet.2, harmless, not_true, or_false]⟩

/-- The reading thread's part. -/
theorem readerStep_sound {state after : Pipeline} {size : Option Nat} (sound : Sound state)
    (step : state.readerStep size = some after) :
    Sound after ∧ (Broken after ↔ Broken state ∨ ¬Harmless ⟨state, .reader size, after, ()⟩) := by
  cases place : state.reader with
  | testing =>
    simp only [readerStep, place, Option.some.injEq] at step
    subst step
    refine broken_of_harmless (sound.of_quiet rfl rfl rfl rfl ?_ (by simp [place])) (by simp [Harmless, place])
    split <;> trivial
  | probing =>
    simp only [readerStep, place, Option.some.injEq] at step
    subst step
    refine broken_of_harmless (sound.of_quiet rfl rfl rfl rfl ?_ (by simp [place])) (by simp [Harmless, place])
    split
    · exact Cut.nil
    · trivial
  | reading content raw =>
    have cut : Cut content raw := by
      have held := sound.reader
      rw [place] at held
      exact held
    cases size with
    | none =>
      simp only [readerStep, place, Option.some.injEq] at step
      subst step
      exact broken_of_harmless (sound.of_quiet rfl rfl rfl rfl cut (by simp [place])) (by simp [Harmless, place])
    | some size =>
      simp only [readerStep, place, readAll] at step
      split at step
      · cases step
        refine broken_of_harmless (sound.of_quiet rfl rfl rfl rfl ?_ (by simp [place])) (by simp [Harmless, place])
        split <;> exact cut.append _
      · cases step
  | pushing content raw =>
    simp only [readerStep, place] at step
    split at step
    · rename_i empty
      cases step
      exact broken_of_harmless (sound.of_quiet rfl rfl rfl rfl trivial (by simp [place])) (by simp [Harmless, place, empty])
    · rename_i nonempty
      cases step
      obtain ⟨kept, broken⟩ := sound.push place nonempty
      refine ⟨kept, ?_⟩
      rw [broken]
      simp [Harmless, place, nonempty]
  | finished => simp [readerStep, place] at step

/-- The part of `Read`. -/
theorem callerStep_sound {state after : Pipeline} (sound : Sound state) (step : state.callerStep = some after) :
    Sound after ∧ (Broken after ↔ Broken state ∨ ¬Harmless ⟨state, .caller, after, ()⟩) := by
  cases place : state.caller with
  | calling =>
    simp only [callerStep, place] at step
    split at step
    · rename_i alive
      cases step
      refine ⟨⟨sound.queue, sound.chunks, sound.reader, sound.entries, by simp⟩, ?_⟩
      simp [Broken, Harmless, place, alive]
    · rename_i dead
      cases step
      refine ⟨⟨sound.queue, sound.chunks, sound.reader, sound.entries, by simp⟩, ?_⟩
      simp [Broken, Harmless, place, dead]
  | popping =>
    simp only [callerStep, place] at step
    cases front : state.queue with
    | nil =>
      simp only [front, Option.some.injEq] at step
      subst step
      refine ⟨⟨?_, by simp, sound.reader, sound.entries, by simp⟩, ?_⟩
      · simp [sound.queue, front]
      · simp [Broken, Harmless, place]
    | cons chunk rest =>
      simp only [front, Option.some.injEq] at step
      subst step
      refine ⟨⟨?_, ?_, sound.reader, sound.entries, by simp⟩, ?_⟩
      · simp [sound.queue, front]
      · exact fun other member => sound.chunks other (front ▸ List.mem_cons_of_mem _ member)
      · simp [Broken, Harmless, place]
  | deleting =>
    simp only [callerStep, place] at step
    split at step
    · rename_i joined
      cases step
      refine ⟨⟨sound.queue, sound.chunks, sound.reader, sound.entries, fun _ => joined⟩, ?_⟩
      simp [Broken, Harmless, place]
    · cases step
  | failed => simp [callerStep, place] at step

theorem next_sound {state after : Pipeline} {action : Action} (sound : Sound state)
    (step : state.next action = some after) :
    Sound after ∧ (Broken after ↔ Broken state ∨ ¬Harmless ⟨state, action, after, ()⟩) := by
  cases action with
  | reader size => exact readerStep_sound sound step
  | caller => exact callerStep_sound sound step
  | write _ | exit | reap | watch =>
    simp only [next] at step
    split at step
    all_goals cases step
    all_goals exact broken_of_harmless (sound.of_quiet rfl rfl rfl rfl sound.reader id) trivial

theorem step_sound {transition : Machine.Transition Pipeline Action Unit} (sound : Sound transition.before)
    (run : step transition.before transition.action = some (transition.after, transition.shown)) :
    Sound transition.after ∧ (Broken transition.after ↔ Broken transition.before ∨ ¬Harmless transition) := by
  obtain ⟨after, next, same⟩ := Option.map_eq_some_iff.mp run
  obtain rfl := congrArg Prod.fst same
  exact next_sound sound next

/-- A run has lost something exactly if one of its steps did. -/
theorem run_broken {trace : List (Machine.Transition Pipeline Action Unit)} {last : Pipeline}
    (run : Machine.Run step {} trace last) :
    Sound last ∧ (Broken last ↔ ∃ transition ∈ trace, ¬Harmless transition) := by
  induction run with
  | start => exact ⟨.init, by simp [Broken]⟩
  | @next trace state after action shown run step ih =>
    obtain ⟨sound, before⟩ := ih
    obtain ⟨kept, here⟩ := @step_sound ⟨state, action, after, shown⟩ sound step
    refine ⟨kept, here.trans ?_⟩
    rw [before]
    simp [or_and_right, exists_or]

/-- In a run of harmless steps nothing is lost in any state, and a run in which `Read` has
returned false lost nothing only if all of its steps were harmless. -/
theorem lossless_iff {trace : List (Machine.Transition Pipeline Action Unit)} {last : Pipeline}
    (run : Machine.Run step {} trace last) :
    ((∀ transition ∈ trace, Harmless transition) → Lossless last) ∧
    (last.caller = .failed → (Lossless last ↔ ∀ transition ∈ trace, Harmless transition)) := by
  obtain ⟨sound, broken⟩ := run_broken run
  have intact : ¬Broken last ↔ ∀ transition ∈ trace, Harmless transition := by
    simp only [broken, not_exists, not_and, not_not]
  refine ⟨fun harmless => sound.lossless_of (intact.mpr harmless), fun failed => ?_⟩
  exact ⟨fun lossless => intact.mp (sound.broken_of failed lossless),
    fun harmless => sound.lossless_of (intact.mpr harmless)⟩

def runActions (actions : List Action) : Option (List (Machine.Transition Pipeline Action Unit) × Pipeline) :=
  step.runs {} actions

/-- The child writes something that is read and pushed. -/
def output (bytes : Bytes) : List Action :=
  [.write bytes, .reader none, .reader none, .reader (some bytes.length), .reader none, .reader none]

/-- The child exits and is removed, and `Read` finds that. -/
def ending : List Action := [.exit, .reap, .caller, .reader none, .caller]

theorem orderly_enabled : (runActions (output [120] ++ [.caller, .caller] ++ ending)).isSome := by decide +kernel

theorem hasty_enabled : (runActions (output [120] ++ ending)).isSome := by decide +kernel

theorem nul_enabled : (runActions (output [120, 0, 121])).isSome := by decide +kernel

theorem lossless_iff_orderly :
    ∃ (trace : List (Machine.Transition Pipeline Action Unit)) (last : Pipeline), last.caller = .failed ∧
      last.returned = [[120]] ∧
      ((∀ transition ∈ trace, Harmless transition) → Lossless last) ∧
      (last.caller = .failed → (Lossless last ↔ ∀ transition ∈ trace, Harmless transition)) :=
  ⟨_, _, by decide +kernel, by decide +kernel, lossless_iff (Machine.run_get orderly_enabled)⟩

/-- What is in the queue when the child is found gone is lost, and so is what follows a NUL. -/
theorem not_lossless :
    (∃ trace last, Machine.Run step {} trace last ∧ last.caller = .failed ∧ ¬Lossless last) ∧
    ∃ trace last, Machine.Run step {} trace last ∧ ∃ entry ∈ last.pushed, entry.1 ≠ entry.2 := by
  refine ⟨⟨_, _, Machine.run_get hasty_enabled, by decide +kernel, fun lossless => ?_⟩,
    ⟨_, _, Machine.run_get nul_enabled, ([120], [120, 0, 121]), by decide +kernel, by decide +kernel⟩⟩
  exact absurd (lossless.all (by decide +kernel)) (by decide +kernel)

end Pipeline

end WxDap.StdoutTransport
