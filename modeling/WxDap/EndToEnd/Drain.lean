import WxDap.Client.Debuggee
import WxDap.EndToEnd.Agreement

namespace WxDap

section
variable {κ : Type} {parse : Bytes → Option CJson} {platform : Platform}

theorem Client.handle_link (client : Client κ) (json : CJson) : (client.handle json).1.link = client.link := by
  unfold handle
  split
  · exact (onHandshake_unmoved client json).link
  · exact dispatch_link client json

namespace System

/-- The reader goes on reading. -/
structure Alive (system : System κ) : Prop where
  connected : system.world.client.transport.isSome
  shutdown : system.world.client.shutdown = false
  reader : ∃ reader, system.world.reader = some reader ∧ reader.state ≠ .finished

theorem Alive.of_client {system : System κ} (alive : system.Alive) {client : Client κ}
    (link : client.link = system.world.client.link) : client.transport.isSome ∧ client.shutdown = false := by
  have attached : client.transport = system.world.client.transport := congrArg (fun parts => parts.1) link
  have same : client.shutdown = system.world.client.shutdown := congrArg (fun parts => parts.2.1) link
  rw [attached, same]
  exact ⟨alive.connected, alive.shutdown⟩

theorem Alive.handles {system : System κ} (alive : system.Alive) {action : Action κ} {out : List (Output κ)}
    {rest : Bytes} {json : CJson} {below : List Frame} :
    (system.after action (World.handle { system.world with client := { system.world.client with rpc := rest } }
      json below).1 out).Alive := by
  have link := Client.handle_link { system.world.client with rpc := rest } json
  by_cases thrown : ObjGenerator.initialized.throws (some json) = true
  · simp only [World.handle, if_pos thrown]
    exact ⟨alive.connected, alive.shutdown, alive.reader⟩
  · simp only [World.handle, if_neg thrown]
    exact ⟨(alive.of_client link).1, (alive.of_client link).2, alive.reader⟩

theorem Alive.reads {system : System κ} {world : World κ} {reader : Reader} {result : ReadResult}
    (alive : system.Alive) (running : system.world.reader = some reader) (sound : reader.Sound)
    (allowed : system.allows (.reader result) = true)
    (moved : system.world.readerStep reader result = some world) :
    world.client = system.world.client ∧ ∃ next, world.reader = some next ∧ next.state ≠ .finished := by
  have shutdown := alive.shutdown
  obtain ⟨session, state⟩ := reader
  cases state with
  | testing =>
    cases moved
    exact ⟨rfl, _, rfl, by simp [shutdown]⟩
  | reading =>
    cases result with
    | content bytes =>
      cases moved
      refine ⟨rfl, _, rfl, ?_⟩
      cases bytes <;> simp
    | failure => simp [System.allows, running, Reader.isReading] at allowed
  | posting content =>
    cases moved
    exact ⟨rfl, _, rfl, by simp⟩
  | failing => exact absurd rfl sound.1
  | reporting => exact absurd rfl sound.2.1
  | finished => cases moved

theorem Alive.step (transition : Machine.Transition (System κ) (SystemAction κ) (List (Output κ)))
    (exchange : Exchange parse platform transition.before) (alive : transition.before.Alive)
    (taken : System.step parse platform transition.before transition.action =
      some (transition.after, transition.shown)) : transition.after.Alive := by
  obtain ⟨system, action, after, shown⟩ := transition
  simp only at exchange alive taken ⊢
  obtain ⟨handled, logged, waiting, receiving⟩ := exchange.receiving
  have main := receiving.main
  cases action with
  | client action =>
    simp only [System.step] at taken
    split at taken
    swap
    · cases taken
    rename_i allowed
    obtain ⟨⟨world, out⟩, moved, same⟩ := Option.map_eq_some_iff.mp taken
    obtain ⟨rfl, rfl⟩ := Prod.mk.inj same
    cases action with
    | reader result =>
      obtain ⟨reader, running, moved⟩ := Option.bind_eq_some_iff.mp moved
      obtain ⟨next, stepped, same⟩ := Option.map_eq_some_iff.mp moved
      obtain ⟨rfl, rfl⟩ := Prod.mk.inj same
      obtain ⟨same, running⟩ := alive.reads running (receiving.reader reader running) allowed stepped
      exact ⟨same ▸ alive.connected, same ▸ alive.shutdown, running⟩
    | dispatch =>
      simp only [World.step] at moved
      split at moved
      · cases moved
      · rename_i posted rest pending
        obtain ⟨buffer, call, nonempty⟩ := receiving.pending posted (by simp [pending])
        split at moved
        · simp only [World.take, call, if_neg nonempty, Option.some.injEq, Prod.mk.injEq] at moved
          obtain ⟨rfl, rfl⟩ := moved
          exact ⟨alive.connected, alive.shutdown, alive.reader⟩
        · cases moved
    | proceed =>
      generalize stack : system.world.stack = frames at main
      cases main with
      | idle _ | handling | logging session packet => simp [World.step, stack] at moved
      | processing =>
        simp only [World.step, stack, World.process] at moved
        split at moved
        · cases moved
        · cases moved
          exact ⟨alive.connected, alive.shutdown, alive.reader⟩
        · split at moved
          · cases moved
            exact ⟨alive.connected, alive.shutdown, alive.reader⟩
          · obtain rfl : _ = world := congrArg Prod.fst (Option.some.inj moved)
            exact alive.handles
    | handlerReturns =>
      generalize stack : system.world.stack = frames at main
      cases main with
      | idle _ | processing => simp [World.step, stack] at moved
      | handling =>
        simp only [World.step, stack] at moved
        cases moved
        exact ⟨alive.connected, alive.shutdown, alive.reader⟩
      | logging session packet =>
        simp only [World.step, stack] at moved
        obtain rfl : _ = world := congrArg Prod.fst (Option.some.inj moved)
        exact alive.handles
    | call call outcome =>
      simp only [System.allows, Bool.and_eq_true, decide_eq_true_eq] at allowed
      obtain ⟨rfl, _⟩ := allowed
      simp only [World.step] at moved
      split at moved
      · rename_i enabled
        cases moved
        have inside : SendOutcome.all ≠ .throws := by decide
        have called := Client.call_called platform enabled.2.1 inside call
        exact ⟨(alive.of_client called.link).1, (alive.of_client called.link).2, alive.reader⟩
      · cases moved
    | reset | setTransport _ | sendThrows => cases allowed
  | serverReads content | serverChecks content =>
    simp only [System.step] at taken
    split at taken
    swap
    · cases taken
    split at taken
    · cases taken
    · cases taken
      exact ⟨alive.connected, alive.shutdown, alive.reader⟩
  | serverSends message =>
    simp only [System.step] at taken
    split at taken
    · cases taken
      exact ⟨alive.connected, alive.shutdown, alive.reader⟩
    · cases taken

/-- How far the parts of the client are from having nothing to do. -/
def readerWork : Option Reader → Nat
  | some ⟨_, .testing⟩ => 1
  | some ⟨_, .posting _⟩ => 5
  | _ => 0

def stackWork : List Frame → Nat
  | .logging _ _ :: .processing :: below => 1 + stackWork below
  | .processing :: below => 2 + stackWork below
  | .handling :: below => 1 + stackWork below
  | _ => 0

/-- The messages without an event weigh as much as a turn of the loop for each. -/
def work (system : System κ) : Nat :=
  3 * (system.sent.length - system.fired.length) + stackWork system.world.stack +
    3 * system.world.pending.length + readerWork system.world.reader +
    if system.toClient = [] then 0 else 6

theorem work_after (system : System κ) (action : Action κ) (world : World κ) (out : List (Output κ)) :
    (system.after action world out).work =
      3 * (system.sent.length - (system.fired.length + (out.filterMap Output.fired).length)) +
        stackWork world.stack + 3 * world.pending.length + readerWork world.reader +
        if system.toClient.drop (system.taken action).length = [] then 0 else 6 := by
  rw [← List.length_append]
  rfl

/-- A step of the client that brings the delivery nearer. -/
structure Advance (parse : Bytes → Option CJson) (platform : Platform) (system : System κ)
    (action : Action κ) (world : World κ) (out : List (Output κ)) : Prop where
  allowed : system.allows action = true
  moved : World.step parse platform system.world action = some (world, out)
  silent : ∀ request sent, .sendRequest request sent ∉ out
  less : (system.after action world out).work < system.work

/-- The message that is next gets its event. -/
theorem work_handle {system : System κ} {handled rest : List (Packet parse platform)}
    {packet : Packet parse platform} (exchange : Exchange parse platform system) (action : Action κ)
    (world : World κ)
    (sent : system.sent = (handled ++ packet :: rest).map Packet.message)
    (fired : Agreement system.fired (handled.map Packet.message))
    (handshake : world.client.handshakeState = .kCompleted ↔ handled ≠ [])
    (nothing : system.taken action = []) (pending : world.pending = system.world.pending)
    (reader : world.reader = system.world.reader) (below : List Frame)
    (before : 1 + stackWork below ≤ stackWork system.world.stack) :
    (∀ request sent, .sendRequest request sent ∉
      (world.handle packet.message.toJson (.processing :: below)).2) ∧
      (system.after action (world.handle packet.message.toJson (.processing :: below)).1
        (world.handle packet.message.toJson (.processing :: below)).2).work < system.work := by
  obtain ⟨type, object, request, _, shown, _⟩ := (fires_next exchange.served sent handshake).event
  have events : system.fired.length = handled.length := by
    rw [fired.length_eq, List.length_map]
  have total : system.sent.length = handled.length + rest.length + 1 := by
    rw [sent]
    simp
    omega
  have result := World.handle_eq world (returns_next exchange.served sent) (.processing :: below)
  refine ⟨fun request sent => by simp [result, shown], ?_⟩
  have one : ((world.handle packet.message.toJson (.processing :: below)).2.filterMap Output.fired).length = 1 := by
    simp [result, shown, Output.fired]
  have stack : stackWork (world.handle packet.message.toJson (.processing :: below)).1.stack =
      3 + stackWork below := by
    simp [result, shown, stackWork]
    omega
  have others : (world.handle packet.message.toJson (.processing :: below)).1.pending = system.world.pending ∧
      (world.handle packet.message.toJson (.processing :: below)).1.reader = system.world.reader := by
    rw [result]
    exact ⟨pending, reader⟩
  rw [work_after, work, one, stack, others.1, others.2, nothing, List.length_nil, List.drop_zero]
  omega

/-- The main thread goes on until its event loop runs. -/
theorem Exchange.main_advance {system : System κ} (exchange : Exchange parse platform system)
    (busy : system.world.stack ≠ []) :
    ∃ action world out, Advance parse platform system action world out ∧ action ≠ .dispatch := by
  obtain ⟨handled, logged, waiting, receiving⟩ := exchange.receiving
  have main := receiving.main
  generalize stack : system.world.stack = frames at main busy
  cases main with
  | idle _ => exact absurd rfl busy
  | @handling below _ =>
    have moved : World.step parse platform system.world .handlerReturns =
        some ({ system.world with stack := .processing :: below }, []) := by
      simp only [World.step, stack]
    refine ⟨_, _, _, ⟨rfl, moved, by simp, ?_⟩, by simp⟩
    rw [work_after, work, stack]
    simp [stackWork, System.taken]
  | @logging below session packet _ =>
    have moved : World.step parse platform system.world .handlerReturns =
        some (system.world.handle packet.message.toJson (.processing :: below)) := by
      simp only [World.step, stack]
    obtain ⟨silent, less⟩ := work_handle exchange .handlerReturns system.world (by simpa using receiving.sent)
      receiving.fired receiving.handshake rfl rfl rfl below (by rw [stack]; exact le_refl _)
    exact ⟨_, _, _, ⟨rfl, moved, silent, less⟩, by simp⟩
  | @processing below _ =>
    have cut : system.world.client.rpc ++ (system.world.pending.flatMap Posted.bytes ++
        (system.world.reader.map Reader.held).getD [] ++ system.toClient) = packets waiting := by
      rw [← receiving.transit, System.transit, World.received]
      simp
    rcases turn cut with ⟨part, found⟩ | ⟨packet, later, more, rfl, buffer, rest, found⟩
    · have moved : World.step parse platform system.world .proceed =
          some ({ system.world with stack := below }, []) := by
        simp only [World.step, stack, World.process, found]
      refine ⟨_, _, _, ⟨rfl, moved, by simp, ?_⟩, by simp⟩
      rw [work_after, work, stack]
      simp [stackWork, System.taken]
    · have sent : system.sent = (handled ++ packet :: later).map Packet.message := by
        simpa using receiving.sent
      by_cases log : system.world.client.wantsLogEvents = true
      · have moved : World.step parse platform system.world .proceed =
            some ({ system.world with
              client := { system.world.client with rpc := more }
              stack := .logging system.world.session packet.message.toJson :: .processing :: below },
              [.logEvent "<-- " packet.message.toJson]) := by
          simp only [World.step, stack, World.process, found, log, if_true]
        refine ⟨_, _, _, ⟨rfl, moved, by simp, ?_⟩, by simp⟩
        have none : [Output.logEvent "<-- " packet.message.toJson].filterMap (@Output.fired κ) = [] := rfl
        rw [work_after, work, stack, none]
        simp [stackWork, System.taken]
      · have moved : World.step parse platform system.world .proceed =
            some (World.handle { system.world with client := { system.world.client with rpc := more } }
              packet.message.toJson (.processing :: below)) := by
          simp only [World.step, stack, World.process, found]
          rw [if_neg log]
        obtain ⟨silent, less⟩ := work_handle exchange .proceed
          { system.world with client := { system.world.client with rpc := more } } sent receiving.fired
          receiving.handshake rfl rfl rfl below (by rw [stack, stackWork]; omega)
        exact ⟨_, _, _, ⟨rfl, moved, silent, less⟩, by simp⟩

/-- The reader and the event loop go on until everything is read. -/
theorem Exchange.reader_advance {system : System κ} (exchange : Exchange parse platform system)
    (alive : system.Alive) (idle : system.world.stack = [])
    (unread : system.world.pending ≠ [] ∨ system.toClient ≠ [] ∨
      ∃ reader, system.world.reader = some reader ∧ reader.held ≠ []) :
    ∃ action world out, Advance parse platform system action world out := by
  obtain ⟨handled, logged, waiting, receiving⟩ := exchange.receiving
  obtain ⟨⟨session, state⟩, running, unfinished⟩ := alive.reader
  cases pending : system.world.pending with
  | cons posted rest =>
    obtain ⟨buffer, call, nonempty⟩ := receiving.pending posted (by simp [pending])
    have moved : World.step parse platform system.world .dispatch =
        some ({ system.world with
          client := { system.world.client with rpc := system.world.client.rpc ++ buffer }
          pending := rest
          stack := [.processing] }, []) := by
      simp only [World.step, pending, World.inUserCode, idle, World.take, call, if_neg nonempty, if_true]
      rfl
    refine ⟨_, _, _, rfl, moved, by simp, ?_⟩
    rw [work_after, work, idle, pending]
    simp [stackWork, System.taken]
    omega
  | nil =>
    cases state with
    | finished => exact absurd rfl unfinished
    | failing => exact absurd rfl (receiving.reader _ running).1
    | reporting => exact absurd rfl (receiving.reader _ running).2.1
    | testing =>
      have moved : World.step parse platform system.world (.reader .failure) =
          some ({ system.world with reader := some ⟨session, .reading⟩ }, []) := by
        simp [World.step, running, World.readerStep, alive.shutdown]
      refine ⟨_, _, _, by simp [System.allows, running, Reader.isReading], moved, by simp, ?_⟩
      rw [work_after, work, running]
      simp [readerWork, System.taken]
    | posting content =>
      have moved : World.step parse platform system.world (.reader .failure) =
          some ({ system.world with
            reader := some ⟨session, .testing⟩
            pending := [⟨session, .onDataRead content⟩] }, []) := by
        simp [World.step, running, World.readerStep, pending]
      refine ⟨_, _, _, by simp [System.allows, running, Reader.isReading], moved, by simp, ?_⟩
      rw [work_after, work, running, pending]
      simp [readerWork, System.taken]
    | reading =>
      have some_bytes : system.toClient ≠ [] := by
        rcases unread with posted | bytes | ⟨reader, same, held⟩
        · exact absurd pending posted
        · exact bytes
        · rw [running] at same
          cases same
          exact absurd rfl held
      obtain ⟨byte, bytes, content⟩ := List.exists_cons_of_ne_nil some_bytes
      have moved : World.step parse platform system.world (.reader (.content system.toClient)) =
          some ({ system.world with reader := some ⟨session, .posting system.toClient⟩ }, []) := by
        simp [World.step, running, World.readerStep, content]
      refine ⟨_, _, _, by simp [System.allows, running, Reader.isReading], moved, by simp, ?_⟩
      rw [work_after, work, running]
      simp [readerWork, System.taken, running, Reader.isReading, some_bytes]

/-- The exchange is in order and goes on. -/
structure Ongoing (parse : Bytes → Option CJson) (platform : Platform) (system : System κ) : Prop where
  exchange : Exchange parse platform system
  alive : system.Alive

theorem Ongoing.step (transition : Machine.Transition (System κ) (SystemAction κ) (List (Output κ)))
    (readable : ∀ message ∈ handshakeMessages, Readable parse platform message)
    (ongoing : Ongoing parse platform transition.before)
    (ordinary : Sensible parse platform transition ∧ Orderly transition)
    (taken : System.step parse platform transition.before transition.action =
      some (transition.after, transition.shown)) : Ongoing parse platform transition.after :=
  ⟨ongoing.exchange.step readable ordinary.1 ordinary.2 taken,
    Alive.step transition ongoing.exchange ongoing.alive taken⟩

/-- Some orderly run leads from one state to the other. -/
abbrev Reaches (parse : Bytes → Option CJson) (platform : Platform) (start last : System κ) : Prop :=
  Machine.Reaches (System.step parse platform)
    (fun transition => Sensible parse platform transition ∧ Orderly transition) start last

theorem Ongoing.reaches {start last : System κ} (ongoing : Ongoing parse platform start)
    (readable : ∀ message ∈ handshakeMessages, Readable parse platform message)
    (reached : Reaches parse platform start last) : Ongoing parse platform last := by
  obtain ⟨trace, run, ordinary⟩ := reached
  exact (run.invariant ongoing (fun transition kept => Ongoing.step transition readable kept) ordinary).2

theorem connected_ongoing (client : Client κ) (transport session : Nat) :
    Ongoing parse platform (System.connected client transport session) := by
  refine ⟨connected_exchange client transport session, ?_, ?_, ⟨session, .testing⟩, rfl, by simp⟩
  · simp [System.connected, Client.setTransport_eq]
  · simp [System.connected, Client.setTransport_eq]

/-- What goes on in a run that delivers everything. -/
structure Running (parse : Bytes → Option CJson) (platform : Platform) (processed : List AnyMessage)
    (system : System κ) : Prop where
  ongoing : Ongoing parse platform system
  done : system.server.done = true
  processed : system.processed = processed

/-- A step that only passes on what has been sent. -/
structure Passing (transition : Machine.Transition (System κ) (SystemAction κ) (List (Output κ))) : Prop where
  messages : ∀ message, transition.action ≠ .serverSends message
  requests : ∀ request sent, .sendRequest request sent ∉ transition.shown
  prompt : Prompt transition

theorem Passing.ordinary {transition : Machine.Transition (System κ) (SystemAction κ) (List (Output κ))}
    (passing : Passing transition) : Sensible parse platform transition ∧ Orderly transition :=
  ⟨⟨fun message sends => absurd sends (passing.messages message),
    fun request sent shown => absurd shown (passing.requests request sent)⟩,
    passing.prompt, fun message sends => absurd sends (passing.messages message)⟩

/-- What has been sent can be passed on so that the other state is reached. -/
abbrev Passes (parse : Bytes → Option CJson) (platform : Platform) (start last : System κ) : Prop :=
  Machine.Reaches (System.step parse platform) Passing start last

theorem Passes.reaches {start last : System κ} (passes : Passes parse platform start last) :
    Reaches parse platform start last :=
  passes.mono (fun _ passing => passing.ordinary)

/-- Short of the delivery the client can always go on. -/
theorem Running.advance {system : System κ} {processed : List AnyMessage}
    (readable : ∀ message ∈ handshakeMessages, Readable parse platform message)
    (running : Running parse platform processed system) (undelivered : ¬system.Delivered) :
    ∃ action after shown, System.step parse platform system action = some (after, shown) ∧
      Passing ⟨system, action, after, shown⟩ ∧ Running parse platform processed after ∧
      after.work < system.work := by
  have advances : ∃ action world out, Advance parse platform system action world out ∧
      (action = .dispatch → system.world.isLogging = false) := by
    by_cases idle : system.world.stack = []
    · obtain ⟨action, world, out, advance⟩ := running.ongoing.exchange.reader_advance running.ongoing.alive idle (by
        by_contra read
        simp only [not_or, not_not, not_exists, not_and] at read
        exact undelivered ⟨running.done, read.2.1, read.1, read.2.2, idle⟩)
      exact ⟨action, world, out, advance, fun _ => by simp [World.isLogging, idle]⟩
    · obtain ⟨action, world, out, advance⟩ := running.ongoing.exchange.main_advance idle
      refine ⟨action, world, out, advance.1, fun taken => ?_⟩
      rw [taken] at advance
      exact absurd rfl advance.2
  obtain ⟨action, world, out, advance, unlogged⟩ := advances
  have step : System.step parse platform system (.client action) =
      some (system.after action world out, out) := by
    simp only [System.step, advance.allowed, if_true, advance.moved, Option.map_some]
  have passing : Passing ⟨system, .client action, system.after action world out, out⟩ :=
    ⟨by simp, advance.silent, fun same => unlogged (by simpa using same)⟩
  have next := Ongoing.step ⟨system, .client action, _, out⟩ readable running.ongoing passing.ordinary step
  exact ⟨_, _, _, step, passing, ⟨next, running.done, running.processed⟩, advance.less⟩

/-- Once the server has answered, the client can take in all that was sent. -/
theorem Running.drains {system : System κ} {processed : List AnyMessage}
    (readable : ∀ message ∈ handshakeMessages, Readable parse platform message)
    (running : Running parse platform processed system) :
    ∃ last, Passes parse platform system last ∧ Running parse platform processed last ∧ last.Delivered :=
  Machine.reaches_of_measure (Running parse platform processed) System.Delivered System.work
    (fun _ running undelivered => running.advance readable undelivered) system running

/-- Once the request is on its way, the server can read it and answer. -/
theorem Exchange.answered {system : System κ} (exchange : Exchange parse platform system)
    (asked : system.world.client.handshakeState ≠ .kNotPerformed) (unfinished : system.server.done = false) :
    ∃ after, System.step parse platform system (.serverReads system.toServer) = some (after, []) ∧
      after.server.done = true ∧ after.processed = system.processed := by
  rcases exchange.asking unfinished with ⟨new, _, _⟩ | ⟨packet, _, answer, part, whole⟩
  · exact absurd new asked
  · have more : system.toServer ≠ [] := by
      intro empty
      rw [empty, List.append_nil] at whole
      exact part.2 whole
    have cut : system.server.rpc ++ (system.toServer ++ []) = packet.payload.frame := by
      rw [List.append_nil, whole]
    rcases initialized_cut answer cut unfinished with ⟨still, _⟩ | result
    · exact absurd whole still.2
    · have enabled : (!system.server.done && !system.toServer.isEmpty &&
          decide (system.toServer.take system.toServer.length = system.toServer)) = true := by
        simp [unfinished, more]
      simp only [System.step, result]
      rw [if_pos enabled]
      exact ⟨_, rfl, rfl, rfl⟩

end System

end

end WxDap
