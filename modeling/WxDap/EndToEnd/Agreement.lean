import WxDap.Delivery
import WxDap.EndToEnd.System

namespace WxDap

/-- What `Initialize` of the server sends. -/
def handshakeMessages : List AnyMessage :=
  [.response ResponseClass.initializeResponse.new, .event EventClass.initializedEvent.new]

/-- The messages that are handed to `ProcessGdbMessage`. -/
structure AnyMessage.Served (m : AnyMessage) : Prop where
  valid : m.Valid
  meant : m.eventType.isSome
  other : m.eventType ≠ some .INITIALIZE_RESPONSE

/-- An `int` counts the vector of the message, if `From` has one that does. -/
def AnyMessage.Counted (m : AnyMessage) : Prop := m.intCount < 2 ^ 31

/-- A message with its text, which fits a frame and which cJSON reads back. -/
structure Packet (parse : Bytes → Option CJson) (platform : Platform) where
  message : AnyMessage
  payload : JsonRPC.Payload
  text : payload.bytes = Client.toString platform message
  reads : parse payload.bytes = some message.toJson

/-- cJSON reads back the text that it prints for a message. -/
def Readable (parse : Bytes → Option CJson) (platform : Platform) (message : AnyMessage) : Prop :=
  ∃ packet : Packet parse platform, packet.message = message

section
variable {κ : Type} {parse : Bytes → Option CJson} {platform : Platform}

theorem Packet.sent (packet : Packet parse platform) :
    ServerProtocol.processGdbMessage platform packet.message = packet.payload.frame := by
  rw [ServerProtocol.processGdbMessage, ← packet.text]
  rfl

/-- The bytes of packets on their way. -/
def packets (list : List (Packet parse platform)) : Bytes := JsonRPC.stream (list.map Packet.payload)

theorem packets_nil : packets ([] : List (Packet parse platform)) = [] := rfl

theorem packets_cons (packet : Packet parse platform) (list : List (Packet parse platform)) :
    packets (packet :: list) = packet.payload.frame ++ packets list := rfl

theorem packets_append (list rest : List (Packet parse platform)) :
    packets (list ++ rest) = packets list ++ packets rest := by
  simp [packets, JsonRPC.stream]

def Posted.bytes (posted : Posted) : Bytes :=
  match posted.call with
  | .onDataRead buffer => buffer
  | .onConnectionError => []

/-- The main thread is in the handler of a log event. -/
def World.isLogging (world : World κ) : Bool :=
  match world.stack with
  | .logging _ _ :: _ => true
  | _ => false

def Reader.held (reader : Reader) : Bytes :=
  match reader.state with
  | .posting content => content
  | _ => []

/-- A reader of a stream that does not fail. -/
def Reader.Sound (reader : Reader) : Prop :=
  reader.state ≠ .failing ∧ reader.state ≠ .reporting ∧ reader.state ≠ .posting []

/-- What the client has of the stream but has not taken apart. -/
def World.received (world : World κ) : Bytes :=
  world.client.rpc ++ world.pending.flatMap Posted.bytes ++ (world.reader.map Reader.held).getD []

namespace System

def sent (system : System κ) : List AnyMessage :=
  if system.server.done then handshakeMessages ++ system.processed else []

/-- The bytes between the server and the loop of the client. -/
def transit (system : System κ) : Bytes := system.world.received ++ system.toClient

/-- Handlers that run the event loop. -/
inductive Nested : List Frame → Prop
  | bottom : Nested []
  | handling {below : List Frame} : Nested below → Nested (.handling :: .processing :: below)

/-- What the main thread of the client can be in the middle of. -/
inductive Main (rpc : Bytes) (waiting : List (Packet parse platform)) :
    List Frame → List (Packet parse platform) → Prop
  | idle : (JsonRPC.framing parse).Pending rpc (waiting.map Packet.payload) → Main rpc waiting [] []
  | processing {below : List Frame} : Nested below → Main rpc waiting (.processing :: below) []
  | handling {below : List Frame} : Nested below → Main rpc waiting (.handling :: .processing :: below) []
  | logging {below : List Frame} (session : Nat) (packet : Packet parse platform) : Nested below →
      Main rpc waiting (.logging session packet.message.toJson :: .processing :: below) [packet]

/-- Where the main thread is after a loop that found no further frame. -/
theorem Nested.main {rpc : Bytes} {waiting : List (Packet parse platform)} {below : List Frame}
    (nested : Nested below) (part : (JsonRPC.framing parse).Pending rpc (waiting.map Packet.payload)) :
    Main rpc waiting below [] := by
  cases nested with
  | bottom => exact .idle part
  | handling nested => exact .handling nested

/-- The event of the type that is meant for a message, with an equal object. -/
def Announces (event : EventType × AnyMessage) (message : AnyMessage) : Prop :=
  message.eventType = some event.1 ∧ event.2.written = message.written

/-- One event for each message, in the same order. -/
def Agreement (events : List (EventType × AnyMessage)) (messages : List AnyMessage) : Prop :=
  List.Forall₂ Announces events messages

/-- The client has handled a first part of what was sent, and the rest is on its way. -/
structure Receiving (system : System κ) (handled logged waiting : List (Packet parse platform)) : Prop where
  sent : system.sent = (handled ++ logged ++ waiting).map Packet.message
  transit : system.transit = packets waiting
  main : Main system.world.client.rpc waiting system.world.stack logged
  fired : Agreement system.fired (handled.map Packet.message)
  handshake : system.world.client.handshakeState = .kCompleted ↔ handled ≠ []
  pending : ∀ posted ∈ system.world.pending, ∃ buffer, posted.call = .onDataRead buffer ∧ buffer ≠ []
  reader : ∀ reader, system.world.reader = some reader → reader.Sound

/-- Before the server has answered, at most the request is on its way to it. -/
inductive Asking (parse : Bytes → Option CJson) (platform : Platform) (system : System κ) : Prop
  | before : system.world.client.handshakeState = .kNotPerformed → system.server.rpc = [] →
      system.toServer = [] → Asking parse platform system
  | asked (packet : Packet parse platform) : system.world.client.handshakeState ≠ .kNotPerformed →
      ServerProtocol.onInitialize packet.message.toJson = handshakeMessages →
      (JsonRPC.framing parse).Pending system.server.rpc [packet.payload] →
      system.server.rpc ++ system.toServer = packet.payload.frame → Asking parse platform system

structure Exchange (parse : Bytes → Option CJson) (platform : Platform) (system : System κ) : Prop where
  receiving : ∃ handled logged waiting : List (Packet parse platform), system.Receiving handled logged waiting
  asking : system.server.done = false → Asking parse platform system
  waits : system.server.done = false → system.processed = []
  served : ∀ message ∈ system.processed, message.Served ∧ message.Counted

theorem initializeResponse_valid : (AnyMessage.response ResponseClass.initializeResponse.new).Valid where
  listed := by
    rw [AnyMessage.Listed]
    decide
  constructed := ⟨rfl, rfl⟩
  nulFree := by
    intro str member
    rw [List.mem_singleton.mp member]
    decide
  representable := trivial

/-- The events with the defaults, of the classes that the client announces. -/
theorem newEvent_served (c : EventClass) (meant : (AnyMessage.event c.new).eventType.isSome) :
    (AnyMessage.event c.new).Served := by
  have listed : (AnyMessage.event c.new).Listed := by
    cases c <;> first | (rw [AnyMessage.Listed]; decide) | cases meant
  have free : AllNulFree (AnyMessage.event c.new).strings := by
    unfold AllNulFree
    cases c <;> decide
  refine ⟨⟨listed, ?_, free, ?_⟩, meant, ?_⟩
  · cases c <;> exact ⟨rfl, rfl⟩
  · cases c <;> trivial
  · cases c <;> decide

/-- The first message that the client handles is the response to `initialize`. -/
theorem next_message {system : System κ} {handled rest : List (Packet parse platform)}
    {packet : Packet parse platform} (served : ∀ message ∈ system.processed, message.Served ∧ message.Counted)
    (sent : system.sent = (handled ++ packet :: rest).map Packet.message) :
    (handled = [] ∧ packet.message = .response ResponseClass.initializeResponse.new) ∨
      (handled ≠ [] ∧ packet.message.Served ∧ packet.message.Counted) := by
  unfold System.sent at sent
  split at sent
  · rw [List.map_append, List.map_cons] at sent
    cases handled with
    | nil =>
      have first := (List.cons.inj sent).1
      exact Or.inl ⟨rfl, first.symm⟩
    | cons first handled =>
      right
      refine ⟨List.cons_ne_nil _ _, ?_⟩
      have later : [AnyMessage.event EventClass.initializedEvent.new] ++ system.processed =
          handled.map Packet.message ++ packet.message :: rest.map Packet.message := (List.cons.inj sent).2
      have member : packet.message ∈ AnyMessage.event EventClass.initializedEvent.new :: system.processed := by
        rw [List.singleton_append] at later
        rw [later]
        simp
      rcases List.mem_cons.mp member with same | old
      · rw [same]
        exact ⟨newEvent_served .initializedEvent rfl, Nat.two_pow_pos 31⟩
      · exact served _ old
  · have empty := congrArg List.length sent
    simp at empty

/-- `FromJSON` returns for the next message. -/
theorem returns_next {system : System κ} {handled rest : List (Packet parse platform)}
    {packet : Packet parse platform} (served : ∀ message ∈ system.processed, message.Served ∧ message.Counted)
    (sent : system.sent = (handled ++ packet :: rest).map Packet.message) :
    ObjGenerator.initialized.throws (some packet.message.toJson) = false := by
  rcases next_message served sent with ⟨_, message⟩ | ⟨_, message, counted⟩
  · rw [message]
    exact ObjGenerator.throws_toJson initializeResponse_valid (Nat.two_pow_pos 31)
  · exact ObjGenerator.throws_toJson message.valid counted

/-- The client fires the event that is meant for the next message. -/
theorem fires_next {system : System κ} {client : Client κ} {handled rest : List (Packet parse platform)}
    {packet : Packet parse platform} (served : ∀ message ∈ system.processed, message.Served ∧ message.Counted)
    (sent : system.sent = (handled ++ packet :: rest).map Packet.message)
    (handshake : client.handshakeState = .kCompleted ↔ handled ≠ []) :
    Fires client packet.message (client.handle packet.message.toJson).1
      (client.handle packet.message.toJson).2 := by
  rcases next_message served sent with ⟨first, message⟩ | ⟨later, message, counted⟩
  · have unfinished : client.handshakeState ≠ .kCompleted := by
      rw [ne_eq, handshake, first]
      simp
    rw [message]
    exact Client.handle_initialize unfinished initializeResponse_valid
  · exact Client.handle_message (handshake.mpr later) message.valid counted message.meant message.other

theorem handle_rpc (client : Client κ) (json : CJson) : (client.handle json).1.rpc = client.rpc := by
  have same := Client.bufferFree_handle json client client.rpc
  exact congrArg (fun result => result.1.rpc) same

/-- A step of the reader passes on what it has and what it reads. -/
theorem readerStep_moves {world world' : World κ} {reader : Reader} {result : ReadResult} {bytes : Bytes}
    (running : world.reader = some reader) (sound : reader.Sound)
    (moved : world.readerStep reader result = some world')
    (reads : reader.isReading = true → result = .content bytes)
    (nothing : reader.isReading = false → bytes = []) :
    world'.client = world.client ∧ world'.stack = world.stack ∧ world'.received = world.received ++ bytes ∧
      (∀ next, world'.reader = some next → next.Sound) ∧
      ∀ posted ∈ world'.pending, posted ∈ world.pending ∨
        ∃ buffer, posted.call = .onDataRead buffer ∧ buffer ≠ [] := by
  obtain ⟨session, state⟩ := reader
  have kept : ∀ posted ∈ world.pending, posted ∈ world.pending ∨
      ∃ buffer, posted.call = .onDataRead buffer ∧ buffer ≠ [] := fun _ member => Or.inl member
  cases state with
  | testing =>
    rw [nothing rfl]
    cases moved
    refine ⟨rfl, rfl, ?_, ?_, kept⟩
    · simp only [World.received, running, Option.map_some]
      split <;> simp [Reader.held]
    · rintro next ⟨⟩
      split <;> simp [Reader.Sound]
  | reading =>
    rw [reads rfl] at moved
    cases bytes with
    | nil =>
      cases moved
      refine ⟨rfl, rfl, ?_, ?_, kept⟩
      · simp [World.received, running, Reader.held]
      · rintro next ⟨⟩
        simp [Reader.Sound]
    | cons byte bytes =>
      cases moved
      refine ⟨rfl, rfl, ?_, ?_, kept⟩
      · simp [World.received, running, Reader.held]
      · rintro next ⟨⟩
        simp [Reader.Sound]
  | posting content =>
    rw [nothing rfl]
    cases moved
    refine ⟨rfl, rfl, ?_, ?_, ?_⟩
    · simp [World.received, running, Reader.held, Posted.bytes]
    · rintro next ⟨⟩
      simp [Reader.Sound]
    · intro posted member
      rcases List.mem_append.mp member with old | new
      · exact Or.inl old
      · right
        rw [List.mem_singleton.mp new]
        refine ⟨content, rfl, ?_⟩
        rintro rfl
        exact sound.2.2 rfl
  | failing => exact absurd rfl sound.1
  | reporting => exact absurd rfl sound.2.1
  | finished => cases moved

/-- A step of the client that neither fires an event nor sends anything, and only passes
bytes on. -/
theorem Exchange.passes {system : System κ} (exchange : Exchange parse platform system)
    {handled logged waiting : List (Packet parse platform)} (receiving : system.Receiving handled logged waiting)
    {world : World κ} {toClient : Bytes} (transit : world.received ++ toClient = system.transit)
    (handshake : world.client.handshakeState = system.world.client.handshakeState)
    (main : Main world.client.rpc waiting world.stack logged)
    (pending : ∀ posted ∈ world.pending, posted ∈ system.world.pending ∨
      ∃ buffer, posted.call = .onDataRead buffer ∧ buffer ≠ [])
    (reader : ∀ reader, world.reader = some reader → reader.Sound) :
    Exchange parse platform { system with
      world := world
      toServer := system.toServer ++ []
      toClient := toClient
      fired := system.fired ++ [] } := by
  rw [List.append_nil, List.append_nil]
  refine ⟨⟨handled, logged, waiting, receiving.sent, transit.trans receiving.transit, main, receiving.fired,
    ?_, ?_, reader⟩, ?_, exchange.waits, exchange.served⟩
  · rw [← receiving.handshake, handshake]
  · intro posted member
    rcases pending posted member with old | new
    · exact receiving.pending posted old
    · exact new
  · intro unfinished
    rcases exchange.asking unfinished with ⟨new, empty, none⟩ | ⟨packet, called, answer, part, whole⟩
    · exact .before (handshake.trans new) empty none
    · refine .asked packet ?_ answer part whole
      rwa [handshake]

theorem Exchange.reader {system : System κ} (exchange : Exchange parse platform system) {world : World κ}
    {result : ReadResult} {out : List (Output κ)} (allowed : system.allows (.reader result) = true)
    (taken : World.step parse platform system.world (.reader result) = some (world, out)) :
    Exchange parse platform (system.after (.reader result) world out) := by
  obtain ⟨reader, running, moved⟩ := Option.bind_eq_some_iff.mp taken
  obtain ⟨next, stepped, same⟩ := Option.map_eq_some_iff.mp moved
  obtain ⟨rfl, rfl⟩ := Prod.mk.inj same
  obtain ⟨handled, logged, waiting, receiving⟩ := exchange.receiving
  have sound := receiving.reader reader running
  have reads : reader.isReading = true → result = .content (system.taken (.reader result)) := by
    intro reading
    cases result with
    | content bytes => simp [System.taken, running, reading]
    | failure => simp [System.allows, running, reading] at allowed
  have nothing : reader.isReading = false → system.taken (.reader result) = [] := by
    intro other
    cases result with
    | content bytes => simp [System.taken, running, other]
    | failure => rfl
  obtain ⟨client, stack, received, readers, posts⟩ := readerStep_moves running sound stepped reads nothing
  refine exchange.passes receiving ?_ (by rw [client]) (by rw [client, stack]; exact receiving.main) posts readers
  have front : system.toClient.take (system.taken (.reader result)).length =
      system.taken (.reader result) := by
    cases result with
    | content bytes =>
      by_cases reading : reader.isReading = true
      · simpa [System.allows, System.taken, running, reading] using allowed
      · simp [System.taken, running, reading]
    | failure => rfl
  rw [received, List.append_assoc, System.transit]
  congr 1
  conv_rhs => rw [← List.take_append_drop (system.taken (.reader result)).length system.toClient, front]

theorem Exchange.dispatch {system : System κ} (exchange : Exchange parse platform system) {world : World κ}
    {out : List (Output κ)} (unlogged : system.world.isLogging = false)
    (taken : World.step parse platform system.world .dispatch = some (world, out)) :
    Exchange parse platform (system.after .dispatch world out) := by
  obtain ⟨handled, logged, waiting, receiving⟩ := exchange.receiving
  simp only [World.step] at taken
  split at taken
  · cases taken
  · rename_i posted rest pending
    obtain ⟨buffer, call, nonempty⟩ := receiving.pending posted (by simp [pending])
    have bytes : posted.bytes = buffer := by simp [Posted.bytes, call]
    have result : world = { system.world with
        client := { system.world.client with rpc := system.world.client.rpc ++ buffer }
        pending := rest
        stack := .processing :: system.world.stack } ∧ out = [] ∧ system.world.inUserCode = true := by
      split at taken
      · rename_i outside
        simp only [World.take, call, if_neg nonempty, Option.some.injEq, Prod.mk.injEq] at taken
        rw [← taken.1, ← taken.2]
        exact ⟨rfl, rfl, outside⟩
      · cases taken
    obtain ⟨rfl, rfl, outside⟩ := result
    have main := receiving.main
    generalize stack : system.world.stack = frames at main
    have inside : Nested frames ∧ logged = [] := by
      cases main with
      | idle part => exact ⟨.bottom, rfl⟩
      | processing nested => simp [World.inUserCode, stack] at outside
      | handling nested => exact ⟨.handling nested, rfl⟩
      | logging session packet nested => simp [World.isLogging, stack] at unlogged
    obtain ⟨nested, rfl⟩ := inside
    refine exchange.passes receiving ?_ rfl (.processing nested) ?_ receiving.reader
    · simp [World.received, System.transit, pending, bytes, System.taken]
    · intro other member
      left
      rw [pending]
      exact List.mem_cons_of_mem _ member

/-- What a turn of the loop finds: a part of the next frame, or the next message. -/
theorem turn {rpc rest : Bytes} {waiting : List (Packet parse platform)} (cut : rpc ++ rest = packets waiting) :
    ((JsonRPC.framing parse).Pending rpc (waiting.map Packet.payload) ∧
      JsonRPC.doProcessBuffer parse rpc = .ok (none, rpc)) ∨
    ∃ packet later more, waiting = packet :: later ∧ rpc = packet.payload.frame ++ more ∧
      more ++ rest = packets later ∧
      JsonRPC.doProcessBuffer parse rpc = .ok (some packet.message.toJson, more) := by
  cases waiting with
  | nil =>
    have empty : rpc = [] := (List.append_eq_nil_iff.mp cut).1
    subst empty
    exact Or.inl ⟨rfl, rfl⟩
  | cons packet later =>
    rw [packets_cons] at cut
    have starts : rpc <+: packet.payload.frame ++ packets later := ⟨rest, cut⟩
    by_cases whole : packet.payload.frame <+: rpc
    · obtain ⟨more, rfl⟩ := whole
      rw [List.append_assoc, List.append_cancel_left_eq] at cut
      refine Or.inr ⟨packet, later, more, rfl, rfl, cut, ?_⟩
      rw [packet.payload.doProcessBuffer_frame, packet.reads]
    · have part : rpc <+: packet.payload.frame := by
        rcases List.prefix_or_prefix_of_prefix starts (List.prefix_append _ _) with inside | outside
        · exact inside
        · exact absurd outside whole
      have strict : rpc ≠ packet.payload.frame := by
        rintro rfl
        exact whole (List.prefix_refl _)
      exact Or.inl ⟨⟨part, strict⟩, packet.payload.doProcessBuffer_part part strict⟩

theorem done_of_sent {system : System κ} {handled rest : List (Packet parse platform)}
    {packet : Packet parse platform} (sent : system.sent = (handled ++ packet :: rest).map Packet.message) :
    system.server.done = true := by
  by_contra unfinished
  rw [System.sent, if_neg unfinished] at sent
  have length := congrArg List.length sent
  simp at length

/-- The client handles the next message. -/
theorem handles {system : System κ} {world : World κ} {action : Action κ}
    {handled waiting : List (Packet parse platform)} {packet : Packet parse platform}
    (served : ∀ message ∈ system.processed, message.Served ∧ message.Counted)
    (sent : system.sent = (handled ++ packet :: waiting).map Packet.message)
    (transit : world.received ++ system.toClient = packets waiting)
    (nothing : system.taken action = [])
    (fired : Agreement system.fired (handled.map Packet.message))
    (handshake : world.client.handshakeState = .kCompleted ↔ handled ≠ [])
    (pending : ∀ posted ∈ world.pending, ∃ buffer, posted.call = .onDataRead buffer ∧ buffer ≠ [])
    (reader : ∀ reader, world.reader = some reader → reader.Sound) {below : List Frame} (nested : Nested below) :
    Exchange parse platform (system.after action
      (world.handle packet.message.toJson (.processing :: below)).1
      (world.handle packet.message.toJson (.processing :: below)).2) := by
  have fires := fires_next served sent handshake
  obtain ⟨type, object, request, meant, shown, agrees⟩ := fires.event
  have done := done_of_sent sent
  rw [World.handle_eq world (returns_next served sent)]
  refine ⟨⟨handled ++ [packet], [], waiting, ?_, ?_, ?_, ?_, ?_, pending, reader⟩, ?_, ?_, served⟩
  · rw [show System.sent (system.after action _ _) = system.sent from rfl, sent]
    simp
  · simp only [System.transit, System.after, nothing, List.length_nil, List.drop_zero, World.received,
      handle_rpc]
    exact transit
  · simp only [System.after, shown]
    exact .handling nested
  · simp only [System.after, shown, List.map_append]
    exact List.rel_append fired (.cons ⟨meant, agrees⟩ .nil)
  · simp only [System.after, fires.handshake, true_iff]
    simp
  · intro unfinished
    rw [show (system.after action _ _).server = system.server from rfl, done] at unfinished
    cases unfinished
  · intro unfinished
    rw [show (system.after action _ _).server = system.server from rfl, done] at unfinished
    cases unfinished

theorem Exchange.proceed {system : System κ} (exchange : Exchange parse platform system) {world : World κ}
    {out : List (Output κ)}
    (taken : World.step parse platform system.world .proceed = some (world, out)) :
    Exchange parse platform (system.after .proceed world out) := by
  obtain ⟨handled, logged, waiting, receiving⟩ := exchange.receiving
  have main := receiving.main
  generalize stack : system.world.stack = frames at main
  cases main with
  | idle _ => simp [World.step, stack] at taken
  | handling _ => simp [World.step, stack] at taken
  | logging session packet _ => simp [World.step, stack] at taken
  | processing nested =>
    have cut : system.world.client.rpc ++ (system.world.pending.flatMap Posted.bytes ++
        (system.world.reader.map Reader.held).getD [] ++ system.toClient) = packets waiting := by
      rw [← receiving.transit, System.transit, World.received]
      simp
    simp only [World.step, stack, World.process] at taken
    rcases turn cut with ⟨part, found⟩ | ⟨packet, later, more, rfl, buffer, rest, found⟩
    · rw [found] at taken
      cases taken
      exact exchange.passes receiving rfl rfl (nested.main part) (fun _ member => Or.inl member) receiving.reader
    · rw [found] at taken
      simp only at taken
      have transit : World.received { system.world with client := { system.world.client with rpc := more } } ++
          system.toClient = packets later := by
        rw [← rest, World.received]
        simp
      have sent : system.sent = (handled ++ packet :: later).map Packet.message := by
        simpa using receiving.sent
      split at taken
      · cases taken
        refine ⟨⟨handled, [packet], later, ?_, transit, .logging _ packet nested, ?_, receiving.handshake,
          receiving.pending, receiving.reader⟩, fun unfinished => ?_, exchange.waits, exchange.served⟩
        · rw [show System.sent (system.after .proceed _ _) = system.sent from rfl, sent]
          simp
        · have silent (world : World κ) :
              (system.after .proceed world [.logEvent "<-- " packet.message.toJson]).fired = system.fired :=
            List.append_nil _
          rw [silent]
          exact receiving.fired
        · rw [show (system.after .proceed _ _).server = system.server from rfl, done_of_sent sent] at unfinished
          cases unfinished
      · have result := Option.some.inj taken
        obtain rfl : _ = world := congrArg Prod.fst result
        obtain rfl : _ = out := congrArg Prod.snd result
        exact handles exchange.served sent transit rfl receiving.fired receiving.handshake receiving.pending
          receiving.reader nested

theorem Exchange.handlerReturns {system : System κ} (exchange : Exchange parse platform system)
    {world : World κ} {out : List (Output κ)}
    (taken : World.step parse platform system.world .handlerReturns = some (world, out)) :
    Exchange parse platform (system.after .handlerReturns world out) := by
  obtain ⟨handled, logged, waiting, receiving⟩ := exchange.receiving
  have main := receiving.main
  generalize stack : system.world.stack = frames at main
  cases main with
  | idle _ => simp [World.step, stack] at taken
  | processing _ => simp [World.step, stack] at taken
  | handling nested =>
    simp only [World.step, stack] at taken
    cases taken
    exact exchange.passes receiving rfl rfl (.processing nested) (fun _ member => Or.inl member)
      receiving.reader
  | logging session packet nested =>
    simp only [World.step, stack] at taken
    have result := Option.some.inj taken
    obtain rfl : _ = world := congrArg Prod.fst result
    obtain rfl : _ = out := congrArg Prod.snd result
    exact handles exchange.served (by simpa using receiving.sent) receiving.transit rfl receiving.fired
      receiving.handshake receiving.pending receiving.reader nested

theorem sendOutput_fired (client : Client κ) (request : AnyRequest) (outcome : SendOutcome) :
    (sendOutput platform client request outcome).filterMap Output.fired = [] := by
  unfold sendOutput
  split <;> rfl

theorem sendOutput_bytes (client : Client κ) (request : AnyRequest) :
    (sendOutput platform client request .all).flatMap Output.bytes =
      JsonRPC.networkBuffer (Client.toString platform (.request request)) := by
  unfold sendOutput
  split <;> simp [Output.bytes, SendOutcome.accepted]

/-- No call fires an event or touches the buffer. -/
theorem call_quiet (platform : Platform) {client : Client κ} (connected : client.transport.isSome) (call : ApiCall κ) :
    (client.call platform call .all).2.filterMap Output.fired = [] ∧
      (client.call platform call .all).1.rpc = client.rpc ∧
      ((∀ initArgs, call ≠ .sendInitialize initArgs) →
        (client.call platform call .all).1.handshakeState = client.handshakeState) := by
  have inside : SendOutcome.all ≠ .throws := by decide
  rcases client.call_effect connected inside call with ⟨request, made⟩ | other
  · refine ⟨by rw [made.output, sendOutput_fired], made.rpc, fun plain => ?_⟩
    rw [made.handshake]
    cases call <;> first | rfl | exact absurd rfl (plain _)
  · refine ⟨List.filterMap_eq_nil_iff.mpr (fun o member => ?_), other.rpc, fun _ => other.handshake⟩
    cases o with
    | dapEvent type object request => exact absurd member (other.events type object request)
    | _ => rfl

/-- The server answers the request of `Initialize`. -/
theorem onInitialize_request (request : ArgumentsRequest InitializeRequestArguments)
    (constructed : (AnyMessage.request (.initializeRequest request)).Constructed) :
    ServerProtocol.onInitialize (AnyRequest.initializeRequest request).toJson = handshakeMessages := by
  have type : NulFree request.type := by rw [show request.type = "request" from constructed.1]; decide
  have command : NulFree request.command := by
    rw [show request.command = "initialize" from constructed.2]
    decide
  have read := ObjGenerator.read_of_fromJSON
    (ObjGenerator.fromJSON_request constructed (by simp [AnyRequest.dynamicClass]))
  simp only [AnyRequest.dynamicClass, RequestClass.new, AnyRequest.fromJson, AnyRequest.toJson,
    ArgumentsRequest.fromJson_toJson type command] at read
  simp only [ServerProtocol.onInitialize, AnyRequest.toJson, read]
  exact if_pos constructed.1

theorem sendInitialize_output (platform : Platform) {client : Client κ} (connected : client.transport.isSome)
    (initArgs : Option InitializeRequestArguments) : ∃ client' request,
      (AnyMessage.request (.initializeRequest request)).Constructed ∧
      (client.call platform (.sendInitialize initArgs) .all).2 =
        sendOutput platform client' (.initializeRequest request) .all := by
  simp only [Client.call, ApiCall.prepare]
  rw [Client.send_eq (by exact connected) (by decide)]
  exact ⟨_, _, ⟨rfl, rfl⟩, rfl⟩

/-- What is on its way to the client is left alone by a call. -/
theorem Receiving.call {system : System κ} {handled logged waiting : List (Packet parse platform)}
    (receiving : Receiving system handled logged waiting) (connected : system.world.client.transport.isSome)
    {call : ApiCall κ} (handshake : (system.world.client.call platform call .all).1.handshakeState = .kCompleted ↔
      handled ≠ []) :
    Receiving (system.after (.call call .all)
      { system.world with client := (system.world.client.call platform call .all).1 }
      (system.world.client.call platform call .all).2) handled logged waiting := by
  obtain ⟨silent, rpc, _⟩ := call_quiet platform connected call
  refine ⟨receiving.sent, ?_, ?_, ?_, handshake, receiving.pending, receiving.reader⟩
  · rw [← receiving.transit]
    simp [System.transit, System.after, World.received, System.taken, rpc]
  · simp only [System.after, rpc]
    exact receiving.main
  · simp only [System.after, silent, List.append_nil]
    exact receiving.fired

/-- The handshake of the client comes after the server's. -/
theorem Receiving.incomplete {system : System κ} {handled logged waiting : List (Packet parse platform)}
    (receiving : Receiving system handled logged waiting) (unfinished : system.server.done = false) :
    system.world.client.handshakeState ≠ .kCompleted := by
  intro completed
  obtain ⟨packet, rest, rfl⟩ := List.exists_cons_of_ne_nil (receiving.handshake.mp completed)
  have sent : system.sent = ([] ++ packet :: (rest ++ logged ++ waiting)).map Packet.message := receiving.sent
  rw [done_of_sent sent] at unfinished
  cases unfinished

/-- The first call of `Initialize` asks the server. -/
theorem Exchange.asks {system : System κ} (exchange : Exchange parse platform system)
    (connected : system.world.client.transport.isSome) {initArgs : Option InitializeRequestArguments}
    (new : system.world.client.handshakeState = .kNotPerformed)
    (readable : ∀ request sent, .sendRequest request sent ∈
      (system.world.client.call platform (.sendInitialize initArgs) .all).2 →
      Readable parse platform (.request request)) :
    Exchange parse platform (system.after (.call (.sendInitialize initArgs) .all)
      { system.world with client := (system.world.client.call platform (.sendInitialize initArgs) .all).1 }
      (system.world.client.call platform (.sendInitialize initArgs) .all).2) := by
  obtain ⟨handled, logged, waiting, receiving⟩ := exchange.receiving
  have none : handled = [] := by
    by_contra some
    have completed := receiving.handshake.mpr some
    rw [new] at completed
    cases completed
  have progress : (system.world.client.call platform (.sendInitialize initArgs) .all).1.handshakeState =
      .kInProgress := by
    simp [Client.call, ApiCall.prepare, ApiCall.finish]
  refine ⟨⟨handled, logged, waiting, receiving.call connected (by rw [progress, none]; simp)⟩,
    fun unfinished => ?_, exchange.waits, exchange.served⟩
  rcases exchange.asking unfinished with ⟨_, empty, nothing⟩ | ⟨_, called, _⟩
  · obtain ⟨client, request, constructed, shown⟩ := sendInitialize_output platform connected initArgs
    obtain ⟨packet, message⟩ := readable (.initializeRequest request) true (by rw [shown]; simp [sendOutput])
    refine .asked packet ?_ ?_ ?_ ?_
    · simp [System.after, progress]
    · rw [message]
      exact onInitialize_request request constructed
    · rw [show (system.after _ _ _).server = system.server from rfl, empty]
      exact Framing.Pending.nil _
    · have frame := packet.sent
      rw [message] at frame
      rw [← frame]
      simp only [System.after, empty, nothing, List.nil_append, shown, sendOutput_bytes]
      rfl
  · exact absurd new called

theorem Exchange.call {system : System κ} (exchange : Exchange parse platform system) {world : World κ}
    {call : ApiCall κ} {outcome : SendOutcome} {out : List (Output κ)}
    (allowed : system.allows (.call call outcome) = true)
    (taken : World.step parse platform system.world (.call call outcome) = some (world, out))
    (readable : ∀ request sent, .sendRequest request sent ∈ out → Readable parse platform (.request request)) :
    Exchange parse platform (system.after (.call call outcome) world out) := by
  simp only [System.allows, Bool.and_eq_true, decide_eq_true_eq] at allowed
  obtain ⟨rfl, may⟩ := allowed
  simp only [World.step] at taken
  split at taken
  swap
  · cases taken
  rename_i enabled
  obtain ⟨_, connected, inside⟩ := enabled
  obtain ⟨rfl, rfl⟩ := Prod.mk.inj (Option.some.inj taken)
  by_cases initial : ∃ initArgs, call = .sendInitialize initArgs
  · obtain ⟨initArgs, rfl⟩ := initial
    exact exchange.asks connected (by simpa [Client.mayCall] using may) readable
  · have plain : ∀ initArgs, call ≠ .sendInitialize initArgs := fun initArgs equal => initial ⟨initArgs, equal⟩
    have same := (call_quiet platform connected call).2.2 plain
    obtain ⟨handled, logged, waiting, receiving⟩ := exchange.receiving
    refine ⟨⟨handled, logged, waiting, receiving.call connected (by rw [same]; exact receiving.handshake)⟩,
      fun unfinished => ?_, exchange.waits, exchange.served⟩
    have pending := receiving.incomplete unfinished
    have idle : (system.world.client.call platform call .all).2 = [] := by
      cases call with
      | setWantsLogEvents _ | getNextSequence => rfl
      | sendInitialize initArgs => exact absurd rfl (plain initArgs)
      | _ => simp [Client.mayCall, pending] at may
    rcases exchange.asking unfinished with ⟨new, empty, nothing⟩ | ⟨packet, called, answer, part, whole⟩
    · refine .before (same.trans new) empty ?_
      simp [System.after, idle, nothing]
    · refine .asked packet ?_ answer part ?_
      · simp only [System.after, same]
        exact called
      · simpa [System.after, idle] using whole

/-- More packets behind those that are on their way. -/
theorem Main.extend {rpc : Bytes} {waiting logged : List (Packet parse platform)} {stack : List Frame}
    (main : Main rpc waiting stack logged) (more : List (Packet parse platform)) :
    Main rpc (waiting ++ more) stack logged := by
  cases main with
  | idle part =>
    refine .idle ?_
    cases waiting with
    | nil =>
      rw [show rpc = [] from part]
      exact Framing.Pending.nil _
    | cons packet later => exact part
  | processing nested => exact .processing nested
  | handling nested => exact .handling nested
  | logging session packet nested => exact .logging session packet nested

theorem Receiving.extend {system : System κ} {handled logged waiting : List (Packet parse platform)}
    (receiving : system.Receiving handled logged waiting) (more : List (Packet parse platform))
    {server : ServerProtocol} {toServer : Bytes} {processed : List AnyMessage}
    (sent : System.sent { system with server := server, processed := processed } =
      system.sent ++ more.map Packet.message) :
    Receiving { system with
        server := server
        toServer := toServer
        toClient := system.toClient ++ packets more
        processed := processed } handled logged (waiting ++ more) := by
  refine ⟨?_, ?_, receiving.main.extend more, receiving.fired, receiving.handshake, receiving.pending,
    receiving.reader⟩
  · refine Eq.trans sent ?_
    rw [receiving.sent]
    simp
  · rw [packets_append, ← receiving.transit]
    simp [System.transit]

theorem Exchange.serverSends {system : System κ} (exchange : Exchange parse platform system)
    {message : AnyMessage} (done : system.server.done = true) (served : message.Served ∧ message.Counted)
    (readable : Readable parse platform message) :
    Exchange parse platform { system with
      toClient := system.toClient ++ ServerProtocol.processGdbMessage platform message
      processed := system.processed ++ [message] } := by
  obtain ⟨packet, rfl⟩ := readable
  obtain ⟨handled, logged, waiting, receiving⟩ := exchange.receiving
  have bytes : ServerProtocol.processGdbMessage platform packet.message = packets [packet] := by
    rw [packet.sent, packets_cons]
    exact (List.append_nil _).symm
  rw [bytes]
  refine ⟨⟨handled, logged, _, receiving.extend [packet] ?_⟩, ?_, ?_, ?_⟩
  · simp [System.sent, done]
  · intro unfinished
    cases done.symm.trans unfinished
  · intro unfinished
    cases done.symm.trans unfinished
  · intro other member
    rcases List.mem_append.mp member with old | new
    · exact exchange.served other old
    · rw [List.mem_singleton.mp new]
      exact served

theorem Exchange.serverChecks {system : System κ} (exchange : Exchange parse platform system)
    {server : ServerProtocol} {toServer : Bytes} (done : system.server.done = true)
    (still : server.done = true) :
    Exchange parse platform { system with server := server, toServer := toServer } := by
  obtain ⟨handled, logged, waiting, receiving⟩ := exchange.receiving
  refine ⟨⟨handled, logged, waiting, ?_, receiving.transit, receiving.main, receiving.fired,
    receiving.handshake, receiving.pending, receiving.reader⟩, ?_, ?_, exchange.served⟩
  · rw [← receiving.sent]
    simp [System.sent, done, still]
  · intro unfinished
    cases still.symm.trans unfinished
  · intro unfinished
    cases still.symm.trans unfinished

/-- The server reads a part of the request, or all of it and answers. -/
theorem initialized_cut {server : ServerProtocol} {packet : Packet parse platform} {content rest : Bytes}
    (answer : ServerProtocol.onInitialize packet.message.toJson = handshakeMessages)
    (cut : server.rpc ++ (content ++ rest) = packet.payload.frame) (unfinished : server.done = false) :
    ((JsonRPC.framing parse).Pending (server.rpc ++ content) [packet.payload] ∧
      server.initialized parse platform content = .ok ({ rpc := server.rpc ++ content, done := false }, [])) ∨
    server.initialized parse platform content = .ok ({ rpc := [], done := true },
      (handshakeMessages.map (ServerProtocol.processGdbMessage platform)).flatten) := by
  have starts : server.rpc ++ content <+: packet.payload.frame := ⟨rest, by rw [← cut, List.append_assoc]⟩
  have drain (part : Bytes) : JsonRPC.processBuffer parse part = (JsonRPC.framing parse).drain part := rfl
  by_cases whole : server.rpc ++ content = packet.payload.frame
  · right
    have accepted : ∀ p ∈ [packet.payload].dropLast, ((JsonRPC.framing parse).accept p).isSome := by simp
    have all : JsonRPC.processBuffer parse (JsonRPC.appendBuffer server.rpc content) =
        .ok ([packet.message.toJson], []) := by
      rw [JsonRPC.appendBuffer, whole]
      have taken := Framing.drain_frames_dropLast accepted
      have decoded : [packet.payload].filterMap (JsonRPC.framing parse).accept = [packet.message.toJson] := by
        simp [JsonRPC.framing, packet.reads]
      rw [decoded, Framing.frames_cons, Framing.frames_nil, List.append_nil] at taken
      exact taken
    have returns : ObjGenerator.initialized.throws (some packet.message.toJson) = false :=
      ServerProtocol.returns_of_onInitialize (by rw [answer]; exact List.cons_ne_nil _ _)
    have decoded : server.decoded parse content = .ok ([packet.message.toJson], []) := by
      simp [ServerProtocol.decoded, all, bind, Except.bind, pure, Except.pure, returns]
    simp only [ServerProtocol.initialized, decoded, bind, Except.bind, List.flatMap_singleton, answer, unfinished]
    rfl
  · left
    have part : (JsonRPC.framing parse).Pending (server.rpc ++ content) [packet.payload] := ⟨starts, whole⟩
    refine ⟨part, ?_⟩
    have none : JsonRPC.processBuffer parse (JsonRPC.appendBuffer server.rpc content) =
        .ok ([], server.rpc ++ content) := part.drain
    simp only [ServerProtocol.initialized, ServerProtocol.decoded, none, bind, Except.bind, unfinished]
    rfl

theorem Exchange.serverReads {system : System κ} (exchange : Exchange parse platform system)
    {server : ServerProtocol} {content sent : Bytes} (unfinished : system.server.done = false)
    (front : system.toServer.take content.length = content) (nonempty : content ≠ [])
    (readable : ∀ message ∈ handshakeMessages, Readable parse platform message)
    (read : system.server.initialized parse platform content = .ok (server, sent)) :
    Exchange parse platform { system with
      server := server
      toServer := system.toServer.drop content.length
      toClient := system.toClient ++ sent } := by
  obtain ⟨handled, logged, waiting, receiving⟩ := exchange.receiving
  have split := List.take_append_drop content.length system.toServer
  rw [front] at split
  have before : system.sent = [] := by simp [System.sent, unfinished]
  rcases exchange.asking unfinished with ⟨_, _, nothing⟩ | ⟨packet, called, answer, part, whole⟩
  · rw [nothing, List.take_nil] at front
    exact absurd front.symm nonempty
  · rw [← split] at whole
    rcases initialized_cut answer whole unfinished with ⟨still, result⟩ | result
    · rw [result] at read
      cases read
      have passed : Receiving { system with
          server := { rpc := system.server.rpc ++ content, done := false }
          toServer := system.toServer.drop content.length
          toClient := system.toClient ++ [] } handled logged (waiting ++ []) :=
        receiving.extend [] (by simp [System.sent, unfinished])
      refine ⟨⟨handled, logged, _, passed⟩, fun _ => .asked packet called answer still ?_,
        fun _ => exchange.waits unfinished, exchange.served⟩
      simpa using whole
    · rw [result] at read
      cases read
      obtain ⟨first, response⟩ := readable (.response ResponseClass.initializeResponse.new)
        (by simp [handshakeMessages])
      obtain ⟨second, event⟩ := readable (.event EventClass.initializedEvent.new) (by simp [handshakeMessages])
      have messages : [first, second].map Packet.message = handshakeMessages := by
        simp [response, event, handshakeMessages]
      have bytes : (handshakeMessages.map (ServerProtocol.processGdbMessage platform)).flatten =
          packets [first, second] := by
        rw [← messages]
        simp [Packet.sent, packets_cons, packets_nil]
      rw [bytes]
      refine ⟨⟨handled, logged, _, receiving.extend [first, second] ?_⟩, ?_, ?_, exchange.served⟩
      · rw [before, messages, System.sent, if_pos rfl, exchange.waits unfinished]
        simp
      · intro waiting
        cases waiting
      · intro waiting
        cases waiting

/-- What a run may do: `ProcessGdbMessage` gets messages of the classes that the client
announces, and cJSON reads back the texts of these and of the request of `Initialize`. -/
def Sensible (parse : Bytes → Option CJson) (platform : Platform)
    (transition : Machine.Transition (System κ) (SystemAction κ) (List (Output κ))) : Prop :=
  (∀ message, transition.action = .serverSends message →
    message.Served ∧ Readable parse platform message) ∧
  ∀ request sent, .sendRequest request sent ∈ transition.shown → Readable parse platform (.request request)

/-- The handler of a log event returns before the next message is taken. -/
def Prompt (transition : Machine.Transition (System κ) (SystemAction κ) (List (Output κ))) : Prop :=
  transition.action = .client .dispatch → transition.before.world.isLogging = false

/-- Also, no vector outgrows the `int` that counts it. -/
def Orderly (transition : Machine.Transition (System κ) (SystemAction κ) (List (Output κ))) : Prop :=
  Prompt transition ∧ ∀ message, transition.action = .serverSends message → message.Counted

/-- Every step of the two parties keeps the exchange in order. -/
theorem Exchange.step {transition : Machine.Transition (System κ) (SystemAction κ) (List (Output κ))}
    (readable : ∀ message ∈ handshakeMessages, Readable parse platform message)
    (exchange : Exchange parse platform transition.before) (sensible : Sensible parse platform transition)
    (orderly : Orderly transition)
    (taken : System.step parse platform transition.before transition.action =
      some (transition.after, transition.shown)) : Exchange parse platform transition.after := by
  obtain ⟨system, action, after, shown⟩ := transition
  obtain ⟨messages, requests⟩ := sensible
  simp only [Orderly, Prompt] at exchange messages requests orderly taken ⊢
  cases action with
  | client action =>
    simp only [System.step] at taken
    split at taken
    swap
    · cases taken
    rename_i allowed
    obtain ⟨⟨world, out⟩, moved, same⟩ := Option.map_eq_some_iff.mp taken
    obtain ⟨rfl, rfl⟩ := Prod.mk.inj same
    cases action with
    | reader result => exact exchange.reader allowed moved
    | dispatch => exact exchange.dispatch (orderly.1 rfl) moved
    | proceed => exact exchange.proceed moved
    | handlerReturns => exact exchange.handlerReturns moved
    | call call outcome => exact exchange.call allowed moved requests
    | reset | setTransport _ | sendThrows => cases allowed
  | serverReads content =>
    simp only [System.step] at taken
    split at taken
    swap
    · cases taken
    rename_i enabled
    simp only [Bool.and_eq_true, Bool.not_eq_true', decide_eq_true_eq, List.isEmpty_eq_false_iff] at enabled
    obtain ⟨⟨unfinished, nonempty⟩, front⟩ := enabled
    split at taken
    · cases taken
    · rename_i server sent read
      cases taken
      exact exchange.serverReads unfinished front nonempty readable read
  | serverChecks content =>
    simp only [System.step] at taken
    split at taken
    swap
    · cases taken
    rename_i enabled
    simp only [Bool.and_eq_true, decide_eq_true_eq] at enabled
    split at taken
    · cases taken
    · rename_i server messages read
      cases taken
      refine exchange.serverChecks enabled.1 ?_
      simp only [ServerProtocol.check] at read
      cases processed : system.server.decoded parse content with
      | error fault =>
        rw [processed] at read
        cases read
      | ok result =>
        rw [processed] at read
        cases read
        exact enabled.1
  | serverSends message =>
    simp only [System.step] at taken
    split at taken
    · rename_i done
      cases taken
      obtain ⟨served, texts⟩ := messages message rfl
      exact exchange.serverSends done ⟨served, orderly.2 message rfl⟩ texts
    · cases taken

theorem connected_exchange (client : Client κ) (transport session : Nat) :
    Exchange parse platform (System.connected client transport session) := by
  refine ⟨⟨[], [], [], ?_⟩, fun _ => ?_, fun _ => rfl, by simp [System.connected]⟩
  · refine ⟨rfl, ?_, ?_, .nil, ?_, by simp [System.connected], ?_⟩
    · simp [System.transit, System.connected, World.received, Client.setTransport_eq, Reader.held, packets_nil]
    · simp only [System.connected, Client.setTransport_eq]
      exact .idle rfl
    · simp [System.connected, Client.setTransport_eq]
    · rintro reader ⟨⟩
      simp [Reader.Sound]
  · refine .before ?_ rfl rfl
    simp [System.connected, Client.setTransport_eq]

/-- Everything that the server has sent has gone through the client. -/
def Delivered (system : System κ) : Prop :=
  system.server.done = true ∧ system.toClient = [] ∧ system.world.pending = [] ∧
    (∀ reader, system.world.reader = some reader → reader.held = []) ∧ system.world.stack = []

/-- Nothing is left between the server and the client's events. -/
theorem Exchange.settled {system : System κ} (exchange : Exchange parse platform system)
    (delivered : system.Delivered) :
    ∃ handled : List (Packet parse platform), system.Receiving handled [] [] ∧ system.world.client.rpc = [] := by
  obtain ⟨done, empty, none, unheld, idle⟩ := delivered
  obtain ⟨handled, logged, waiting, receiving⟩ := exchange.receiving
  have main := receiving.main
  rw [idle] at main
  cases main with
  | idle part =>
    have whole : system.world.client.rpc = packets waiting := by
      rw [← receiving.transit, System.transit, World.received, none, empty]
      cases running : system.world.reader with
      | none => simp
      | some reader => simp [unheld reader running]
    have nothing : waiting = [] := List.map_eq_nil_iff.mp (part.eq_nil whole).1
    rw [nothing] at receiving whole
    exact ⟨handled, receiving, whole⟩

theorem Exchange.delivered {system : System κ} (exchange : Exchange parse platform system)
    (delivered : system.Delivered) : Agreement system.fired (handshakeMessages ++ system.processed) := by
  obtain ⟨handled, receiving, _⟩ := exchange.settled delivered
  have sent := receiving.sent
  rw [System.sent, if_pos delivered.1, List.append_nil, List.append_nil] at sent
  rw [sent]
  exact receiving.fired

end System

end

end WxDap
