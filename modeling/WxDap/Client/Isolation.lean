import WxDap.Client.Threads
import WxDap.Client.Session

namespace WxDap

section
variable {κ : Type}

def Purpose.session : Purpose → Option Nat
  | .reset | .setTransport _ => none
  | .onConnectionError session => some session

/-- The session whose data or failure a frame still has to deal with. -/
def Frame.session : Frame → Option Nat
  | .lostConnection session | .logging session _ => some session
  | .handling | .processing => none
  | .joining purpose => purpose.session

/-- The session whose data or failure a step is about. What is in the buffer of the
client belongs to the session that put it there, and that is a step of its own. -/
def World.origin (world : World κ) : Action κ → Option Nat
  | .reader _ => world.reader.map Reader.session
  | .dispatch => world.pending.head?.map Posted.session
  | .proceed | .handlerReturns => world.stack.head?.bind Frame.session
  | .reset | .setTransport _ | .call _ _ | .sendThrows => none

abbrev Trace (κ : Type) := List (Machine.Transition (World κ) (Action κ) (List (Output κ)))

/-- Nothing read from, and no failure of, the transport of an earlier session changes
the client or fires an event. -/
def Isolated (trace : Trace κ) : Prop :=
  ∀ transition ∈ trace, ∀ session, transition.before.origin transition.action = some session →
    session ≠ transition.before.session →
    transition.after.client = transition.before.client ∧ transition.shown = []

/-- If `SetTransport` is about to install a transport, then no posted call is pending and
it was not called inside the handler of a lost connection or of the log event of a
message. -/
def World.unencumbered (world : World κ) : Bool :=
  match world.stack with
  | .joining (.setTransport _) :: below =>
    world.pending.isEmpty && below.all (fun frame => frame.session.isNone)
  | _ => true

def Action.proceeds : Action κ → Bool
  | .proceed => true
  | _ => false

/-- Whenever `SetTransport` installs a transport, nothing of an earlier session is
under way. -/
def Separated (trace : Trace κ) : Prop :=
  ∀ transition ∈ trace, transition.action.proceeds = true → transition.before.unencumbered = true

instance (trace : Trace κ) : Decidable (Separated trace) :=
  inferInstanceAs (Decidable (∀ transition ∈ trace, _ → _))

/-- Everything under way belongs to the current session. -/
structure World.Current (world : World κ) : Prop where
  reader : ∀ reader, world.reader = some reader → reader.session = world.session
  pending : ∀ posted ∈ world.pending, posted.session = world.session
  stack : ∀ frame ∈ world.stack, ∀ session, frame.session = some session → session = world.session

namespace World

theorem Current.origin {world : World κ} (current : world.Current) {action : Action κ} {session : Nat}
    (found : world.origin action = some session) : session = world.session := by
  cases action with
  | reader result =>
    obtain ⟨reader, running, rfl⟩ := Option.map_eq_some_iff.mp found
    exact current.reader reader running
  | dispatch =>
    obtain ⟨posted, first, rfl⟩ := Option.map_eq_some_iff.mp found
    exact current.pending posted (List.mem_of_head? first)
  | proceed | handlerReturns =>
    obtain ⟨frame, top, same⟩ := Option.bind_eq_some_iff.mp found
    exact current.stack frame (List.mem_of_head? top) session same
  | reset | setTransport _ | call _ _ | sendThrows => cases found

theorem Current.readerStep {world world' : World κ} {reader : Reader} {result : ReadResult}
    (current : world.Current) (running : world.reader = some reader)
    (step : world.readerStep reader result = some world') : world'.Current := by
  have same := current.reader reader running
  -- the reader stays the one of its session, and what it posts is marked with it
  have moved (client : Client κ) (state : ReaderState) :
      World.Current { world with client := client, reader := some { reader with state := state } } := by
    refine ⟨?_, current.pending, current.stack⟩
    rintro other ⟨⟩
    exact same
  have posts (state : ReaderState) (call : PostedCall) : World.Current
      { world with
        reader := some { reader with state := state }
        pending := world.pending ++ [⟨reader.session, call⟩] } := by
    refine ⟨(moved world.client state).reader, ?_, current.stack⟩
    intro posted member
    rcases List.mem_append.mp member with old | new
    · exact current.pending posted old
    · rw [List.mem_singleton.mp new]
      exact same
  unfold World.readerStep at step
  split at step
  · cases step
    exact moved _ _
  · cases step
    exact moved _ _
  · cases step
    exact posts _ _
  · cases step
    exact moved _ _
  · cases step
    exact posts _ _
  · cases step

/-- The stack may grow by frames of the current session and shrink. -/
theorem Current.of_stack {world : World κ} (current : world.Current) {client : Client κ}
    {pending : List Posted} {stack : List Frame} (fewer : ∀ posted ∈ pending, posted ∈ world.pending)
    (marked : ∀ frame ∈ stack, frame ∈ world.stack ∨ ∀ session, frame.session = some session →
      session = world.session) :
    World.Current { world with client := client, pending := pending, stack := stack } := by
  refine ⟨current.reader, fun posted member => current.pending posted (fewer posted member), ?_⟩
  intro frame member session same
  rcases marked frame member with old | new
  · exact current.stack frame old session same
  · exact new session same

theorem Current.take {world : World κ} (current : world.Current) {posted : Posted} {rest : List Posted}
    (pending : world.pending = posted :: rest) : (world.take posted rest).1.Current := by
  have fewer : ∀ other ∈ rest, other ∈ world.pending := by
    intro other member
    rw [pending]
    exact List.mem_cons_of_mem _ member
  have same := current.pending posted (by simp [pending])
  have kept : ∀ frame ∈ world.stack, frame ∈ world.stack ∨ ∀ session, frame.session = some session →
      session = world.session := fun _ member => Or.inl member
  unfold World.take
  split
  · split
    · exact current.of_stack fewer kept
    · refine current.of_stack fewer (List.forall_mem_cons.mpr ⟨Or.inr ?_, kept⟩)
      simp [Frame.session]
  · refine current.of_stack fewer (List.forall_mem_cons.mpr ⟨Or.inr ?_, kept⟩)
    rintro session ⟨⟩
    exact same

theorem Current.handle {world : World κ} (current : world.Current) (json : CJson) {below : List Frame}
    (kept : ∀ frame ∈ below, frame ∈ world.stack) : (world.handle json below).1.Current := by
  by_cases thrown : ObjGenerator.initialized.throws (some json) = true
  · simp only [World.handle, if_pos thrown]
    exact current.of_stack (fun _ member => member)
      (fun frame member => Or.inl (kept frame (List.mem_of_mem_tail member)))
  simp only [World.handle, if_neg thrown]
  refine current.of_stack (fun _ member => member) ?_
  split
  · exact fun frame member => Or.inl (kept frame member)
  · refine List.forall_mem_cons.mpr ⟨Or.inr ?_, fun frame member => Or.inl (kept frame member)⟩
    simp [Frame.session]

theorem Current.process {world world' : World κ} {parse : Bytes → Option CJson} {below : List Frame}
    {out : List (Output κ)} (current : world.Current) (stack : world.stack = .processing :: below)
    (step : world.process parse below = some (world', out)) : world'.Current := by
  have kept : ∀ frame ∈ Frame.processing :: below, frame ∈ world.stack := by
    rw [stack]
    exact fun _ member => member
  unfold World.process at step
  split at step
  · cases step
  · cases step
    exact current.of_stack (fun _ member => member)
      (fun frame member => Or.inl (kept frame (List.mem_cons_of_mem _ member)))
  · rename_i json rest _
    -- a message out of the buffer is one of the current session
    have next : World.Current { world with client := { world.client with rpc := rest } } :=
      ⟨current.reader, current.pending, current.stack⟩
    simp only at step
    split at step
    · cases step
      refine next.of_stack (fun _ member => member)
        (List.forall_mem_cons.mpr ⟨Or.inr ?_, fun frame member => Or.inl (kept frame member)⟩)
      rintro session ⟨⟩
      rfl
    · obtain rfl : _ = world' := congrArg Prod.fst (Option.some.inj step)
      exact next.handle json kept

theorem Current.afterJoin {world : World κ} (current : world.Current) {purpose : Purpose}
    {below : List Frame} (kept : ∀ frame ∈ below, frame ∈ world.stack)
    (separated : ∀ transport, purpose = .setTransport transport →
      world.pending = [] ∧ ∀ frame ∈ below, frame.session = none) :
    (world.afterJoin below purpose).Current := by
  cases purpose with
  | setTransport transport =>
    obtain ⟨none, unmarked⟩ := separated transport rfl
    refine ⟨?_, by simp [World.afterJoin, none], ?_⟩
    · intro reader started
      obtain ⟨_, _, rfl⟩ := Option.map_eq_some_iff.mp started
      rfl
    · intro frame member session same
      rw [unmarked frame member] at same
      cases same
  | reset | onConnectionError _ =>
    refine ⟨by simp [World.afterJoin], current.pending, ?_⟩
    exact fun frame member => current.stack frame (kept frame member)

theorem Current.beginReset {world : World κ} (current : world.Current) {purpose : Purpose}
    {below : List Frame} (kept : ∀ frame ∈ below, frame ∈ world.stack)
    (marked : ∀ session, purpose.session = some session → session = world.session) :
    (world.beginReset below purpose).Current := by
  refine current.of_stack (fun _ member => member)
    (List.forall_mem_cons.mpr ⟨Or.inr marked, fun frame member => Or.inl (kept frame member)⟩)

/-- A step keeps everything under way in the current session, if `SetTransport` finds
nothing under way. -/
theorem Current.step {parse : Bytes → Option CJson} {platform : Platform} {world world' : World κ}
    {action : Action κ} {out : List (Output κ)} (current : world.Current)
    (separated : action.proceeds = true → world.unencumbered = true)
    (taken : World.step parse platform world action = some (world', out)) : world'.Current := by
  have tail {frame : Frame} {below : List Frame} (stack : world.stack = frame :: below) :
      ∀ other ∈ below, other ∈ world.stack := by
    rw [stack]
    exact fun _ member => List.mem_cons_of_mem _ member
  cases action with
  | reader result =>
    obtain ⟨reader, running, moved⟩ := Option.bind_eq_some_iff.mp taken
    obtain ⟨next, step, same⟩ := Option.map_eq_some_iff.mp moved
    obtain ⟨rfl, _⟩ := Prod.mk.inj same
    exact current.readerStep running step
  | dispatch =>
    simp only [World.step] at taken
    split at taken
    · cases taken
    · rename_i posted rest pending
      split at taken
      · have first := current.take pending
        rw [Option.some.inj taken] at first
        exact first
      · cases taken
  | proceed =>
    simp only [World.step] at taken
    split at taken
    · rename_i below stack
      exact current.process stack taken
    · rename_i purpose below stack
      split at taken
      · cases taken
        refine current.afterJoin (tail stack) (fun transport same => ?_)
        have clear := separated rfl
        rw [World.unencumbered, stack, same] at clear
        simpa using clear
      · cases taken
    · cases taken
  | handlerReturns =>
    simp only [World.step] at taken
    split at taken
    · rename_i session below stack
      cases taken
      refine current.beginReset (tail stack) ?_
      rintro other ⟨⟩
      exact current.stack (.lostConnection session) (by simp [stack]) session rfl
    · rename_i session json below stack
      have next := current.handle json (tail stack)
      rw [Option.some.inj taken] at next
      exact next
    · rename_i below stack
      cases taken
      exact current.of_stack (fun _ member => member) (fun frame member => Or.inl (tail stack frame member))
    · cases taken
  | reset =>
    simp only [World.step] at taken
    split at taken
    · cases taken
      exact current.beginReset (fun _ member => member) (by simp [Purpose.session])
    · cases taken
  | setTransport transport =>
    simp only [World.step] at taken
    split at taken
    · cases taken
      exact current.beginReset (fun _ member => member) (by simp [Purpose.session])
    · cases taken
  | call call outcome =>
    simp only [World.step] at taken
    split at taken
    · cases taken
      exact ⟨current.reader, current.pending, current.stack⟩
    · cases taken
  | sendThrows =>
    simp only [World.step] at taken
    split at taken
    · cases taken
      refine current.of_stack (fun _ member => member)
        (List.forall_mem_cons.mpr ⟨Or.inr ?_, fun _ member => Or.inl member⟩)
      rintro session ⟨⟩
      rfl
    · cases taken

end World

/-- In every run in which `SetTransport` finds nothing of an earlier session under way,
sessions are isolated in every state. -/
theorem isolated_of_separated {parse : Bytes → Option CJson} {platform : Platform} {start world : World κ}
    {trace : Trace κ} (new : start.reader = none ∧ start.pending = [] ∧ start.stack = [])
    (run : Machine.Run (World.step parse platform) start trace world) (separated : Separated trace) :
    Isolated trace := by
  have initial : start.Current := ⟨by simp [new.1], by simp [new.2.1], by simp [new.2.2]⟩
  have held := run.invariant initial
    (fun transition current allowed step => World.Current.step current allowed step)
    (fun transition member => separated transition member)
  intro transition member session found other
  exact absurd ((held.1 transition member).origin found) other

/-- Two sessions; the first gets a byte and shuts down with nothing pending. -/
def orderlyActions : List (Action Unit) :=
  [.setTransport (some 0), .proceed, .reader .failure, .reader (.content [88]), .reader .failure, .dispatch,
    .proceed, .setTransport (some 1), .reader .failure, .proceed]

/-- The byte is still pending when the second session starts. -/
def staleActions : List (Action Unit) :=
  [.setTransport (some 0), .proceed, .reader .failure, .reader (.content [88]), .reader .failure,
    .setTransport (some 1), .reader .failure, .proceed, .dispatch]

/-- The second session is started by the handler of the lost connection. -/
def reconnectActions : List (Action Unit) :=
  [.setTransport (some 0), .proceed, .reader .failure, .reader .failure, .reader .failure, .reader .failure,
    .dispatch, .setTransport (some 1), .proceed, .handlerReturns, .reader .failure, .proceed]

def runActions (actions : List (Action Unit)) : Option (Trace Unit × World Unit) :=
  Machine.runs (World.step (fun _ => none) .sample) {} actions

theorem orderly_enabled : (runActions orderlyActions).isSome := by decide +kernel

theorem stale_enabled : (runActions staleActions).isSome := by decide +kernel

theorem reconnect_enabled : (runActions reconnectActions).isSome := by decide +kernel

theorem isolated_of_separated_orderly :
    ((runActions orderlyActions).get orderly_enabled).2.session = 2 ∧
      Isolated ((runActions orderlyActions).get orderly_enabled).1 :=
  ⟨by decide +kernel,
    isolated_of_separated ⟨rfl, rfl, rfl⟩ (Machine.run_get orderly_enabled) (by decide +kernel)⟩

/-- A step of an earlier session that writes the buffer or the transport. -/
theorem not_isolated_of_any {trace : Trace κ}
    (found : trace.any (fun transition =>
      (transition.before.origin transition.action).any (· ≠ transition.before.session) &&
        ((transition.after.client.rpc, transition.after.client.transport) ≠
          (transition.before.client.rpc, transition.before.client.transport))) = true) :
    ¬ Isolated trace := by
  intro isolated
  obtain ⟨transition, member, stale⟩ := List.any_eq_true.mp found
  rw [Bool.and_eq_true, decide_eq_true_eq, Option.any_eq_true] at stale
  obtain ⟨⟨session, same, other⟩, changed⟩ := stale
  obtain ⟨kept, _⟩ := isolated transition member session same (by simpa using other)
  rw [kept] at changed
  exact changed rfl

/-- The byte of the first session comes into the buffer of the second, and the reset
after the handler takes the transport of the second session away. -/
theorem not_isolated_stale_reconnect :
    (∃ trace world, Machine.Run (World.step (fun _ => none) .sample) ({} : World Unit) trace world ∧
      world.session = 2 ∧ world.client.rpc = [88] ∧ ¬ Isolated trace) ∧
    (∃ trace world, Machine.Run (World.step (fun _ => none) .sample) ({} : World Unit) trace world ∧
      world.session = 2 ∧ world.client.transport = none ∧ ¬ Isolated trace) := by
  refine ⟨⟨_, _, Machine.run_get stale_enabled, by decide +kernel, by decide +kernel, ?_⟩,
    ⟨_, _, Machine.run_get reconnect_enabled, by decide +kernel, by decide +kernel, ?_⟩⟩
  · exact not_isolated_of_any (by decide +kernel)
  · exact not_isolated_of_any (by decide +kernel)

end

end WxDap
