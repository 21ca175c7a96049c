import WxDap.EndToEnd.Overtaken
import WxDap.EndToEnd.Parsed

namespace WxDap
open JsonParse (Pow)
open ObjGenerator (threadsReply threadsReply_valid)

section
variable {κ : Type} {parse : Bytes → Option CJson} {platform : Platform}

namespace System

/-- From the request of `Initialize` on everything can be delivered. -/
theorem Ongoing.delivers {system : System κ} (ongoing : Ongoing parse platform system)
    (readable : ∀ message ∈ handshakeMessages, Readable parse platform message)
    (asked : system.server.done = true ∨ system.world.client.handshakeState ≠ .kNotPerformed) :
    ∃ last, Passes parse platform system last ∧ last.processed = system.processed ∧ last.Delivered := by
  by_cases done : system.server.done = true
  · have running : Running parse platform system.processed system := ⟨ongoing, done, rfl⟩
    obtain ⟨last, passes, still, delivered⟩ := running.drains readable
    exact ⟨last, passes, still.processed, delivered⟩
  · have called := asked.resolve_left done
    obtain ⟨after, step, answered, same⟩ := ongoing.exchange.answered called (by simpa using done)
    have first : Passes parse platform system after := .step step ⟨by simp, by simp, by simp [Prompt]⟩
    have running : Running parse platform system.processed after :=
      ⟨ongoing.reaches readable first.reaches, answered, same⟩
    obtain ⟨last, passes, still, delivered⟩ := running.drains readable
    exact ⟨last, first.trans passes, still.processed, delivered⟩

/-! ### With cJSON -/

variable {pow : Pow} {printDouble : Rat → String} {getFullName : String → String}

/-- What a run may do when cJSON is the parser: `ProcessGdbMessage` gets messages of the classes that the client
announces, and no text is longer than cJSON can count. -/
def Moderate (transition : Machine.Transition (System κ) (SystemAction κ) (List (Output κ))) : Prop :=
  (∀ message, transition.action = .serverSends message → message.Served ∧ message.Short) ∧
  ∀ request sent, .sendRequest request sent ∈ transition.shown → (AnyMessage.request request).Short

theorem Moderate.ordinary {transition : Machine.Transition (System κ) (SystemAction κ) (List (Output κ))}
    (moderate : Moderate transition ∧ Prompt transition) :
    Sensible (JsonCodec.parse pow) (Platform.cJson printDouble getFullName) transition ∧ Orderly transition := by
  obtain ⟨⟨messages, requests⟩, prompt⟩ := moderate
  exact ⟨⟨fun message sends => ⟨(messages message sends).1, readable (messages message sends).2⟩,
    fun request sent shown => readable (requests request sent shown)⟩,
    prompt, fun message sends => (messages message sends).2.intCount_lt⟩

theorem Passing.moderate {transition : Machine.Transition (System κ) (SystemAction κ) (List (Output κ))}
    (passing : Passing transition) : Moderate transition ∧ Prompt transition :=
  ⟨⟨fun message sends => absurd sends (passing.messages message),
    fun request sent shown => absurd shown (passing.requests request sent)⟩, passing.prompt⟩

theorem readable_handshake : ∀ message ∈ handshakeMessages,
    Readable (JsonCodec.parse pow) (Platform.cJson printDouble getFullName) message :=
  fun message member => readable (short_first message (List.mem_cons_of_mem _ member))

/-- Some run with short texts leads from one state to the other. -/
abbrev ReachesShort (pow : Pow) (printDouble : Rat → String) (getFullName : String → String)
    (start last : System κ) : Prop :=
  Machine.Reaches (System.step (JsonCodec.parse pow) (Platform.cJson printDouble getFullName))
    (fun transition => Moderate transition ∧ Prompt transition) start last

theorem ReachesShort.reaches {start last : System κ} (reached : ReachesShort pow printDouble getFullName start last) :
    Reaches (JsonCodec.parse pow) (Platform.cJson printDouble getFullName) start last :=
  reached.mono (fun _ moderate => Moderate.ordinary moderate)

/-- Whatever the server is given, a run brings it to the client. -/
theorem Ongoing.sends {system : System κ} {messages : List AnyMessage}
    (ongoing : Ongoing (JsonCodec.parse pow) (Platform.cJson printDouble getFullName) system)
    (delivered : system.Delivered) (served : ∀ message ∈ messages, message.Served ∧ message.Short) :
    ∃ last, ReachesShort pow printDouble getFullName system last ∧
      last.processed = system.processed ++ messages ∧ last.Delivered := by
  induction messages generalizing system with
  | nil => exact ⟨system, .refl system, (List.append_nil _).symm, delivered⟩
  | cons message messages ih =>
    obtain ⟨first, rest⟩ := List.forall_mem_cons.mp served
    have step : System.step (JsonCodec.parse pow) (Platform.cJson printDouble getFullName) system
        (.serverSends message) = some ({ system with
          toClient := system.toClient ++
            ServerProtocol.processGdbMessage (Platform.cJson printDouble getFullName) message
          processed := system.processed ++ [message] }, []) := by
      simp only [System.step, delivered.1, if_true]
    have sends : ReachesShort pow printDouble getFullName system _ := .step step
      ⟨⟨fun _ same => SystemAction.serverSends.inj same ▸ first, by simp⟩, by simp [Prompt]⟩
    have sent := ongoing.reaches readable_handshake sends.reaches
    obtain ⟨middle, passes, same, again⟩ := sent.delivers readable_handshake (.inl delivered.1)
    obtain ⟨last, later, all, finished⟩ := ih (sent.reaches readable_handshake passes.reaches) again rest
    refine ⟨last, (sends.trans (passes.mono (fun _ passing => passing.moderate))).trans later, ?_, finished⟩
    rw [all, same, List.append_assoc, List.singleton_append]

/-- The client of a new connection calls `Initialize`. -/
theorem connected_asks (parse : Bytes → Option CJson) (platform : Platform) :
    ∃ after out, System.step parse platform (System.connected ({} : Client Unit) 0 0)
        (.client (.call (.sendInitialize none) .all)) = some (after, out) ∧
      after.world.client.handshakeState ≠ .kNotPerformed ∧ after.processed = [] ∧
      ∀ request sent, .sendRequest request sent ∈ out → request = initializeRequest := by
  let buffer := JsonRPC.networkBuffer (Client.toString platform (.request initializeRequest))
  refine ⟨_, [.transport buffer buffer, .sendRequest initializeRequest true], rfl, ?_, rfl, ?_⟩
  · change HandshakeState.kInProgress ≠ .kNotPerformed
    decide
  · intro request sent member
    simp only [List.mem_cons, reduceCtorEq, Output.sendRequest.injEq, List.not_mem_nil, or_false, false_or]
      at member
    exact member.1

/-- All of it can go from a new connection to the client. -/
theorem connected_sends (pow : Pow) (printDouble : Rat → String) (getFullName : String → String)
    {messages : List AnyMessage} (served : ∀ message ∈ messages, message.Served ∧ message.Short) :
    ∃ last, ReachesShort pow printDouble getFullName (System.connected ({} : Client Unit) 0 0) last ∧
      last.processed = messages ∧ last.Delivered := by
  obtain ⟨asked, out, call, called, nothing, shown⟩ :=
    connected_asks (JsonCodec.parse pow) (Platform.cJson printDouble getFullName)
  have calls : ReachesShort pow printDouble getFullName (System.connected ({} : Client Unit) 0 0) asked := by
    refine .step call ⟨⟨by simp, fun other sent member => ?_⟩, by simp [Prompt]⟩
    rw [shown other sent member]
    exact short_first _ List.mem_cons_self
  have calling := (connected_ongoing {} 0 0).reaches readable_handshake calls.reaches
  obtain ⟨greeted, passes, empty, delivered⟩ := calling.delivers readable_handshake (.inr called)
  obtain ⟨last, sends, all, finished⟩ :=
    (calling.reaches readable_handshake passes.reaches).sends delivered served
  refine ⟨last, (calls.trans (passes.mono (fun _ passing => passing.moderate))).trans sends, ?_, finished⟩
  rw [all, empty, nothing, List.nil_append]

/-- Where no log event is disturbed and no vector outgrows its counter, the client and the
server agree on everything that was sent, and what was sent can always be delivered. -/
theorem agreement {client : Client κ} {transport session : Nat} {system : System κ}
    (readable : ∀ message ∈ handshakeMessages, Readable parse platform message)
    (reached : Reaches parse platform (System.connected client transport session) system) :
    (system.Delivered → Agreement system.fired (handshakeMessages ++ system.processed)) ∧
    (system.server.done = true ∨ system.world.client.handshakeState ≠ .kNotPerformed →
      ∃ last, Passes parse platform system last ∧ last.processed = system.processed ∧ last.Delivered) := by
  have start : Ongoing parse platform (System.connected client transport session) :=
    connected_ongoing client transport session
  have ongoing := start.reaches readable reached
  exact ⟨ongoing.exchange.delivered, ongoing.delivers readable⟩

/-- A stop with two threads, and the end of the session. -/
def stopMessages : List AnyMessage :=
  [.event EventClass.stoppedEvent.new, threadsReply 2, .event EventClass.terminatedEvent.new]

theorem stopMessages_served : ∀ message ∈ stopMessages, message.Served ∧ message.Short := by
  have short : ∀ message ∈ stopMessages, message.Short := by
    unfold AnyMessage.Short
    decide +kernel
  have threads : (threadsReply 2).Served :=
    ⟨threadsReply_valid 2, rfl, by simp [threadsReply, AnyMessage.eventType]⟩
  intro message member
  refine ⟨?_, short message member⟩
  simp only [stopMessages, List.mem_cons, List.not_mem_nil, or_false] at member
  rcases member with rfl | rfl | rfl
  · exact newEvent_served .stoppedEvent rfl
  · exact threads
  · exact newEvent_served .terminatedEvent rfl

theorem agreement_stop : ∃ last : System Unit,
    Reaches (JsonCodec.parse Pow.rounded) (Platform.cJson (fun _ => "") id) (System.connected {} 0 0) last ∧
      last.Delivered ∧ Agreement last.fired (handshakeMessages ++ stopMessages) := by
  obtain ⟨last, reached, processed, delivered⟩ :=
    connected_sends Pow.rounded (fun _ => "") id stopMessages_served
  refine ⟨last, reached.reaches, delivered, ?_⟩
  rw [← processed]
  exact (agreement readable_handshake reached.reaches).1 delivered

/-- The log event of the stop is handled by an event loop, in which the client takes the end
of the session. -/
theorem overtaken_not_agreement : ¬ ∀ last : System Unit,
    MayReach (JsonCodec.parse Pow.rounded) (Platform.cJson (fun _ => "") id) (System.connected {} 0 0) last →
    last.Delivered → Agreement last.fired (handshakeMessages ++ last.processed) := by
  intro always
  have stop : (AnyMessage.event EventClass.stoppedEvent.new).Served ∧ _ :=
    stopMessages_served _ List.mem_cons_self
  have finish : (AnyMessage.event EventClass.terminatedEvent.new).Served ∧ _ :=
    stopMessages_served _ (by simp [stopMessages])
  obtain ⟨quiet, reached, nothing, delivered⟩ :=
    connected_sends Pow.rounded (fun _ => "") id (List.forall_mem_nil _)
  -- the user asks for log events
  let greeted : System Unit := { quiet with
    world := { quiet.world with client := { quiet.world.client with wantsLogEvents := true } } }
  have before := (connected_ongoing {} 0 0).reaches readable_handshake reached.reaches
  have asks : Reaches (JsonCodec.parse Pow.rounded) (Platform.cJson (fun _ => "") id) quiet greeted := by
    obtain ⟨_, _, _, _, idle⟩ := delivered
    have step : System.step (JsonCodec.parse Pow.rounded) (Platform.cJson (fun _ => "") id) quiet
        (.client (.call (.setWantsLogEvents true) .all)) = some (greeted, []) := by
      simp [System.step, System.allows, Client.mayCall, World.step, World.inUserCode, idle, before.alive.connected,
        Client.call, ApiCall.prepare, ApiCall.direct, Client.setWantsLogEvents, System.after, System.taken, greeted]
    exact .step step ⟨⟨by simp, by simp⟩, by simp [Prompt], by simp⟩
  have ongoing := before.reaches readable_handshake asks
  obtain ⟨first, stops⟩ : Readable (JsonCodec.parse Pow.rounded) (Platform.cJson (fun _ => "") id) _ := readable stop.2
  obtain ⟨second, finishes⟩ : Readable (JsonCodec.parse Pow.rounded) (Platform.cJson (fun _ => "") id) _ :=
    readable finish.2
  have served : ∀ packet ∈ [first, second], packet.message.Served ∧ packet.message.Counted := by
    simp only [List.forall_mem_cons, stops, finishes]
    exact ⟨⟨stop.1, stop.2.intCount_lt⟩, ⟨finish.1, finish.2.intCount_lt⟩, by simp⟩
  obtain ⟨last, earlier, later, overtaken, all, processed, fired, announced, _⟩ :=
    ongoing.overtakes delivered rfl served
  have run := (reached.reaches.trans asks).mono (fun _ ordinary => ordinary.1)
  have agrees := always last (run.trans overtaken) all
  have same := (ongoing.exchange.delivered delivered).length_eq
  rw [processed, fired, ← List.append_assoc] at agrees
  have rest := List.forall₂_drop_append _ _ _ agrees
  rw [← same, List.drop_left] at rest
  cases rest with
  | cons meant _ =>
    rw [stops] at meant
    rw [finishes] at announced
    cases announced.1.trans meant.1.symm

/-- The same with nothing assumed of parser and printer: `JsonCodec.parse` and `Platform.cJson` are those of cJSON. -/
theorem agreement_cJson {client : Client κ} {transport session : Nat} {system : System κ}
    (reached : ReachesShort pow printDouble getFullName (System.connected client transport session) system) :
    (system.Delivered → Agreement system.fired (handshakeMessages ++ system.processed)) ∧
    (system.server.done = true ∨ system.world.client.handshakeState ≠ .kNotPerformed →
      ∃ last, Passes (JsonCodec.parse pow) (Platform.cJson printDouble getFullName) system last ∧
        last.processed = system.processed ∧ last.Delivered) := by
  have ongoing := (connected_ongoing client transport session).reaches readable_handshake reached.reaches
  exact ⟨ongoing.exchange.delivered, ongoing.delivers readable_handshake⟩

theorem agreement_cJson_stop : ∃ last : System Unit,
    ReachesShort Pow.rounded (fun _ => "") id (System.connected {} 0 0) last ∧
      last.Delivered ∧ Agreement last.fired (handshakeMessages ++ stopMessages) := by
  obtain ⟨last, reached, processed, delivered⟩ :=
    connected_sends Pow.rounded (fun _ => "") id stopMessages_served
  refine ⟨last, reached, delivered, ?_⟩
  rw [← processed]
  exact (agreement_cJson reached).1 delivered

end System

end

end WxDap
