import WxDap.EndToEnd.Drain

namespace WxDap

section
variable {κ : Type} {parse : Bytes → Option CJson} {platform : Platform}

namespace System

/-- What the two parties can do whatever the handlers of log events do. -/
abbrev MayReach (parse : Bytes → Option CJson) (platform : Platform) (start last : System κ) : Prop :=
  Machine.Reaches (System.step parse platform) (Sensible parse platform) start last

/-- A step of the client that reads and sends nothing. -/
theorem MayReach.client {system : System κ} {action : Action κ} {world : World κ} {out : List (Output κ)}
    (allowed : system.allows action = true) (nothing : system.taken action = [])
    (moved : World.step parse platform system.world action = some (world, out))
    (bytes : out.flatMap Output.bytes = []) (silent : ∀ request sent, .sendRequest request sent ∉ out) :
    MayReach parse platform system
      { system with world := world, fired := system.fired ++ out.filterMap Output.fired } := by
  have result : system.after action world out =
      { system with world := world, fired := system.fired ++ out.filterMap Output.fired } := by
    simp [System.after, nothing, bytes]
  have step : System.step parse platform system (.client action) = some (system.after action world out, out) := by
    simp only [System.step, allowed, if_true, moved, Option.map_some]
  rw [← result]
  exact .step step ⟨by simp, fun request sent member => absurd member (silent request sent)⟩

/-- One that shows at most the log event of a message. -/
theorem MayReach.quiet {system : System κ} {action : Action κ} {world : World κ} {out : List (Output κ)}
    (allowed : system.allows action = true) (nothing : system.taken action = [])
    (moved : World.step parse platform system.world action = some (world, out))
    (logs : ∀ o ∈ out, ∃ prefixed json, o = .logEvent prefixed json) :
    MayReach parse platform system { system with world := world } := by
  have bytes : out.flatMap Output.bytes = [] := by
    refine List.flatMap_eq_nil_iff.mpr (fun o member => ?_)
    obtain ⟨prefixed, json, rfl⟩ := logs o member
    rfl
  have events : out.filterMap Output.fired = [] := by
    refine List.filterMap_eq_nil_iff.mpr (fun o member => ?_)
    obtain ⟨prefixed, json, rfl⟩ := logs o member
    rfl
  have silent (request : AnyRequest) (sent : Bool) : .sendRequest request sent ∉ out := by
    intro member
    obtain ⟨prefixed, json, same⟩ := logs _ member
    cases same
  have step := MayReach.client allowed nothing moved bytes silent
  rwa [events, List.append_nil] at step

/-- The reader takes all that is on its way and posts it. -/
theorem MayReach.reads {system : System κ} {reader : Reader} (some_bytes : system.toClient ≠ [])
    (shutdown : system.world.client.shutdown = false) (running : system.world.reader = some reader)
    (free : reader.state = .testing ∨ reader.state = .reading) :
    MayReach parse platform system
      { system with
        toClient := []
        world := { system.world with
          reader := some ⟨reader.session, .testing⟩
          pending := system.world.pending ++ [⟨reader.session, .onDataRead system.toClient⟩] } } := by
  obtain ⟨session, state⟩ := reader
  have waits : MayReach parse platform system
      { system with world := { system.world with reader := some ⟨session, .reading⟩ } } := by
    rcases free with rfl | rfl
    · have moved : World.step parse platform system.world (.reader .failure) =
          some ({ system.world with reader := some ⟨session, .reading⟩ }, []) := by
        simp [World.step, running, World.readerStep, shutdown]
      exact MayReach.quiet (by simp [System.allows, running, Reader.isReading]) rfl moved (by simp)
    · rw [← running]
      exact .refl _
  refine waits.trans ?_
  have read : MayReach parse platform
      { system with world := { system.world with reader := some ⟨session, .reading⟩ } }
      { system with
        toClient := []
        world := { system.world with reader := some ⟨session, .posting system.toClient⟩ } } := by
    obtain ⟨byte, bytes, content⟩ := List.exists_cons_of_ne_nil some_bytes
    have step : System.step parse platform
        { system with world := { system.world with reader := some ⟨session, .reading⟩ } }
        (.client (.reader (.content system.toClient))) = some ({ system with
          toClient := []
          world := { system.world with reader := some ⟨session, .posting system.toClient⟩ } }, []) := by
      simp [System.step, System.allows, World.step, World.readerStep, Reader.isReading, System.after, System.taken,
        content]
    exact .step step ⟨by simp, by simp⟩
  refine read.trans ?_
  have posted : World.step parse platform
      { system.world with reader := some ⟨session, .posting system.toClient⟩ } (.reader .failure) =
      some ({ system.world with
        reader := some ⟨session, .testing⟩
        pending := system.world.pending ++ [⟨session, .onDataRead system.toClient⟩] }, []) := by
    simp [World.step, World.readerStep]
  exact MayReach.quiet (by simp [System.allows, Reader.isReading]) rfl posted (by simp)

/-- The server sends a message while nothing is on its way, and the reader posts all of it. -/
theorem MayReach.posts (system : System κ) {reader : Reader} (packet : Packet parse platform)
    (done : system.server.done = true) (empty : system.toClient = [])
    (shutdown : system.world.client.shutdown = false) (running : system.world.reader = some reader)
    (free : reader.state = .testing ∨ reader.state = .reading) (served : packet.message.Served) :
    MayReach parse platform system
      { system with
        world := { system.world with
          reader := some ⟨reader.session, .testing⟩
          pending := system.world.pending ++ [⟨reader.session, .onDataRead packet.payload.frame⟩] }
        processed := system.processed ++ [packet.message] } := by
  have sends : System.step parse platform system (.serverSends packet.message) =
      some ({ system with
        toClient := packet.payload.frame
        processed := system.processed ++ [packet.message] }, []) := by
    simp only [System.step, done, if_true, empty, List.nil_append, packet.sent]
  have sent : MayReach parse platform system _ := .step sends
    ⟨fun _ same => SystemAction.serverSends.inj same ▸ ⟨served, packet, rfl⟩, by simp⟩
  have nonempty : packet.payload.frame ≠ [] := (JsonRPC.framing parse).frame_ne_nil packet.payload
  have read := @MayReach.reads κ parse platform
    { system with toClient := packet.payload.frame, processed := system.processed ++ [packet.message] } reader
    nonempty shutdown running free
  have result := sent.trans read
  rw [← empty] at result
  exact result

/-- The main thread takes a posted message and comes to the handler of its log event. -/
theorem MayReach.takes {system : System κ} {session : Nat} {packet : Packet parse platform} {rest : List Posted}
    (user : system.world.inUserCode = true) (empty : system.world.client.rpc = [])
    (pending : system.world.pending = ⟨session, .onDataRead packet.payload.frame⟩ :: rest)
    (logs : system.world.client.wantsLogEvents = true) :
    MayReach parse platform system
      { system with
        world := { system.world with
          pending := rest
          stack := .logging system.world.session packet.message.toJson :: .processing :: system.world.stack } } := by
  have nonempty : packet.payload.frame ≠ [] := (JsonRPC.framing parse).frame_ne_nil packet.payload
  let loop : World κ := { system.world with
    client := { system.world.client with rpc := packet.payload.frame }
    pending := rest
    stack := .processing :: system.world.stack }
  have taken : World.step parse platform system.world .dispatch = some (loop, []) := by
    simp [World.step, pending, user, World.take, nonempty, JsonRPC.appendBuffer, empty, loop]
  have first : MayReach parse platform system { system with world := loop } :=
    MayReach.quiet rfl rfl taken (by simp)
  have found : JsonRPC.doProcessBuffer parse loop.client.rpc = .ok (some packet.message.toJson, []) := by
    have whole := @JsonRPC.Payload.doProcessBuffer_frame _ parse packet.payload []
    rwa [packet.reads, List.append_nil] at whole
  have same : ({ loop.client with rpc := [] } : Client κ) = system.world.client := by
    rw [← empty]
  have wants : loop.client.wantsLogEvents = true := logs
  have turn : World.step parse platform loop .proceed =
      some ({ system.world with
        pending := rest
        stack := .logging system.world.session packet.message.toJson :: .processing :: system.world.stack },
        [.logEvent "<-- " packet.message.toJson]) := by
    have step : World.step parse platform loop .proceed = loop.process parse system.world.stack := rfl
    simp only [step, World.process, found, same]
    exact if_pos wants
  exact first.trans (MayReach.quiet rfl rfl turn (by simp))

/-- The handler of a log event returns, and with it the one of the event that follows. -/
theorem MayReach.fires {system : System κ} {session : Nat} {message : AnyMessage} {below : List Frame}
    (stack : system.world.stack = .logging session message.toJson :: .processing :: below)
    (empty : system.world.client.rpc = []) (completed : system.world.client.handshakeState = .kCompleted)
    (served : message.Served ∧ message.Counted) :
    ∃ client event, MayReach parse platform system
        { system with
          world := { system.world with client := client, stack := below }
          fired := system.fired ++ [event] } ∧
      client.rpc = [] ∧ client.handshakeState = .kCompleted ∧ Announces event message := by
  obtain ⟨⟨type, object, request, meant, shown, agrees⟩, handshake⟩ :=
    Client.handle_message completed served.1.valid served.2 served.1.meant served.1.other
  have rpc : (system.world.client.handle message.toJson).1.rpc = [] := (handle_rpc _ _).trans empty
  let client := (system.world.client.handle message.toJson).1
  let fired (stack : List Frame) : World κ := { system.world with client := client, stack := stack }
  have quiet := ObjGenerator.throws_toJson served.1.valid served.2
  have handled : World.step parse platform system.world .handlerReturns =
      some (fired (.handling :: .processing :: below), [.dapEvent type object request]) := by
    simp only [World.step, stack, World.handle_eq system.world quiet, shown]
    rfl
  have first := MayReach.client rfl rfl handled (by simp [Output.bytes]) (by simp)
  have returns : World.step parse platform (fired (.handling :: .processing :: below)) .handlerReturns =
      some (fired (.processing :: below), []) := rfl
  have nothing : JsonRPC.doProcessBuffer parse client.rpc = .ok (none, client.rpc) := by
    rw [rpc]
    exact JsonRPC.doProcessBuffer_nil
  have ends : World.step parse platform (fired (.processing :: below)) .proceed = some (fired below, []) := by
    have step : World.step parse platform (fired (.processing :: below)) .proceed =
      (fired (.processing :: below)).process parse below := rfl
    simp only [step, World.process, fired, nothing]
  let announced : System κ := { system with fired := system.fired ++ [(type, object)] }
  have second : MayReach parse platform { announced with world := fired (.handling :: .processing :: below) }
      { announced with world := fired (.processing :: below) } := MayReach.quiet rfl rfl returns (by simp)
  have third : MayReach parse platform { announced with world := fired (.processing :: below) }
      { announced with world := fired below } := MayReach.quiet rfl rfl ends (by simp)
  exact ⟨client, (type, object), (first.trans second).trans third, rpc, handshake, meant, agrees⟩

/-- Once everything is delivered the handshake is over, no byte is left and the reader can read. -/
theorem Ongoing.ready {system : System κ} (ongoing : Ongoing parse platform system) (delivered : system.Delivered) :
    system.world.client.handshakeState = .kCompleted ∧ system.world.client.rpc = [] ∧
      ∃ reader, system.world.reader = some reader ∧ (reader.state = .testing ∨ reader.state = .reading) := by
  obtain ⟨handled, receiving, empty⟩ := ongoing.exchange.settled delivered
  obtain ⟨done, _, _, unheld, _⟩ := delivered
  obtain ⟨reader, running, unfinished⟩ := ongoing.alive.reader
  refine ⟨receiving.handshake.mpr ?_, empty, reader, running, ?_⟩
  · rintro rfl
    have sent := receiving.sent
    rw [System.sent, if_pos done] at sent
    cases sent
  · have sound := receiving.reader reader running
    have held := unheld reader running
    obtain ⟨session, state⟩ := reader
    cases state with
    | testing | reading => simp
    | posting content => exact absurd (congrArg ReaderState.posting held) sound.2.2
    | failing => exact absurd rfl sound.1
    | reporting => exact absurd rfl sound.2.1
    | finished => exact absurd rfl unfinished

/-- A handler of a log event that runs the event loop lets the next message overtake its own. -/
theorem Ongoing.overtakes {system : System κ} {first second : Packet parse platform}
    (ongoing : Ongoing parse platform system) (delivered : system.Delivered)
    (logs : system.world.client.wantsLogEvents = true)
    (served : ∀ packet ∈ [first, second], packet.message.Served ∧ packet.message.Counted) :
    ∃ last earlier later, MayReach parse platform system last ∧ last.Delivered ∧
      last.processed = system.processed ++ [first.message, second.message] ∧
      last.fired = system.fired ++ [earlier, later] ∧
      Announces earlier second.message ∧ Announces later first.message := by
  obtain ⟨completed, empty, reader, running, free⟩ := ongoing.ready delivered
  obtain ⟨done, nothing, none, _, idle⟩ := delivered
  obtain ⟨⟨serves, counts⟩, later⟩ := List.forall_mem_cons.mp served
  obtain ⟨serves', counts'⟩ := List.forall_mem_singleton.mp later
  let session := reader.session
  let world (client : Client κ) (pending : List Posted) (stack : List Frame) : World κ :=
    ⟨client, system.world.session, some ⟨session, .testing⟩, pending, stack⟩
  let after (processed : List AnyMessage) (fired : List (EventType × AnyMessage)) (world : World κ) : System κ :=
    { system with world := world, processed := processed, fired := fired }
  let client := system.world.client
  let post (packet : Packet parse platform) : Posted := ⟨session, .onDataRead packet.payload.frame⟩
  let waits : List Frame := [.logging system.world.session first.message.toJson, .processing]
  let one := system.processed ++ [first.message]
  let both := system.processed ++ [first.message, second.message]
  have sent : MayReach parse platform system (after one system.fired (world client [post first] [])) := by
    have step := MayReach.posts system first done nothing ongoing.alive.shutdown running free serves
    simp only [none, idle, List.nil_append] at step
    exact step
  have sent' : MayReach parse platform (after one system.fired (world client [post first] []))
      (after both system.fired (world client [post first, post second] [])) := by
    have step := MayReach.posts (after one system.fired (world client [post first] [])) second done nothing
      ongoing.alive.shutdown rfl (Or.inl rfl) serves'
    have joined : one ++ [second.message] = both := List.append_assoc _ _ _
    simp only [after, joined] at step
    exact step
  have taken : MayReach parse platform (after both system.fired (world client [post first, post second] []))
      (after both system.fired (world client [post second] waits)) := MayReach.takes rfl empty rfl logs
  have taken' : MayReach parse platform (after both system.fired (world client [post second] waits))
      (after both system.fired
        (world client [] (.logging system.world.session second.message.toJson :: .processing :: waits))) :=
    MayReach.takes rfl empty rfl logs
  obtain ⟨client₁, earlier, fires, empty₁, completed₁, announced⟩ :=
    @MayReach.fires κ parse platform (after both system.fired
      (world client [] (.logging system.world.session second.message.toJson :: .processing :: waits))) _ _ _
      rfl empty completed ⟨serves', counts'⟩
  obtain ⟨client₂, later, fires', _, _, announced'⟩ :=
    @MayReach.fires κ parse platform (after both (system.fired ++ [earlier]) (world client₁ [] waits)) _ _ _
      rfl empty₁ completed₁ ⟨serves, counts⟩
  simp only [after, List.append_assoc] at fires'
  refine ⟨after both (system.fired ++ [earlier, later]) (world client₂ [] []), earlier, later,
    ((((sent.trans sent').trans taken).trans taken').trans fires).trans fires', ?_, rfl, rfl, announced, announced'⟩
  refine ⟨done, nothing, rfl, ?_, rfl⟩
  rintro reader ⟨⟩
  rfl

end System

end

end WxDap
