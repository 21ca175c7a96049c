import WxDap.Client.MessageEffect
import WxDap.Client.Threads

namespace WxDap

section
variable {κ : Type}

namespace Client

/-- The buffer of the client only matters to `ProcessBuffer`. -/
def BufferFree (handler : Client κ → Client κ × List (Output κ)) : Prop :=
  ∀ (client : Client κ) (rest : Bytes), handler { client with rpc := rest } =
    ({ (handler client).1 with rpc := rest }, (handler client).2)

theorem bufferFree_ite {condition : Client κ → Prop} [DecidablePred condition]
    {first second : Client κ → Client κ × List (Output κ)}
    (same : ∀ (client : Client κ) (rest : Bytes), condition { client with rpc := rest } ↔ condition client)
    (left : BufferFree first) (right : BufferFree second) :
    BufferFree (fun client => if condition client then first client else second client) := by
  intro client rest
  by_cases holds : condition client
  · have also := (same client rest).mpr holds
    simp only [if_pos holds, if_pos also, left client rest]
  · have also := mt (same client rest).mp holds
    simp only [if_neg holds, if_neg also, right client rest]

theorem bufferFree_sendDAPEvent (type : EventType) (message : AnyMessage) (json : CJson)
    (request : Option AnyRequest) :
    BufferFree (fun client : Client κ => client.sendDAPEvent type message json request) := by
  intro client rest
  simp only [sendDAPEvent]
  split <;> rfl

theorem bufferFree_sendDAPResponse (type : EventType) (object : AnyResponse) (json : CJson)
    (response : Response) :
    BufferFree (fun client : Client κ => client.sendDAPResponse type object json response) := by
  intro client rest
  simp only [sendDAPResponse_eq]

theorem bufferFree_onResponse (response : Response) (json : CJson) :
    BufferFree (fun client : Client κ => client.onResponse response json) := by
  have fires := bufferFree_sendDAPResponse (κ := κ)
  have still : BufferFree (fun client : Client κ => (client, [])) := fun _ _ => rfl
  have frames : BufferFree (fun client : Client κ => client.onStackTrace response json) := by
    intro client rest
    simp only [onStackTrace, sendDAPResponse_eq]
    split <;> rfl
  have scopes : BufferFree (fun client : Client κ => client.onScopes response json) := by
    intro client rest
    simp only [onScopes, sendDAPResponse_eq]
    split <;> rfl
  have children : BufferFree (fun client : Client κ => client.onVariables response json) := by
    intro client rest
    simp only [onVariables, sendDAPResponse_eq]
    split <;> rfl
  have locations : BufferFree (fun client : Client κ => client.onBreakpointLocations response json) := by
    intro client rest
    simp only [onBreakpointLocations, sendDAPResponse_eq]
    split <;> rfl
  have breakpoints : BufferFree (fun client : Client κ => client.onSetBreakpoints response json) := by
    intro client rest
    simp only [onSetBreakpoints, sendDAPResponse_eq]
    split <;> rfl
  have source : BufferFree (fun client : Client κ => client.handleSourceResponse json) := by
    intro client rest
    simp only [handleSourceResponse]
    split <;> rfl
  have evaluate : BufferFree (fun client : Client κ => client.handleEvaluateResponse json) := by
    intro client rest
    simp only [handleEvaluateResponse]
    split <;> rfl
  have running : BufferFree (fun client : Client κ => ({ client with canInteract := false }, [])) :=
    fun _ _ => rfl
  have fixed (condition : Prop) (client : Client κ) (rest : Bytes) :
      (fun _ : Client κ => condition) { client with rpc := rest } ↔ condition := Iff.rfl
  unfold onResponse
  refine bufferFree_ite (fixed _) frames (bufferFree_ite (fixed _) scopes (bufferFree_ite (fixed _) children ?_))
  refine bufferFree_ite (fixed _) running (bufferFree_ite (fixed _) locations ?_)
  refine bufferFree_ite (fixed _) (fires _ _ _ _) (bufferFree_ite (fixed _) breakpoints ?_)
  refine bufferFree_ite (fixed _) (fires _ _ _ _) (bufferFree_ite (fixed _) (fires _ _ _ _) ?_)
  refine bufferFree_ite (fixed _) (fires _ _ _ _) (bufferFree_ite (fixed _) source ?_)
  exact bufferFree_ite (fixed _) evaluate still

theorem bufferFree_onEvent (event : AnyEvent) (json : CJson) :
    BufferFree (fun client : Client κ => client.onEvent event json) := by
  have fires := bufferFree_sendDAPEvent (κ := κ)
  have interacts (b : Bool) (type : EventType) (message : AnyMessage) : BufferFree (fun client : Client κ =>
      ({ client with canInteract := b }).sendDAPEvent type message json none) := by
    intro client rest
    exact fires type message json none { client with canInteract := b } rest
  have fixed (condition : Prop) (client : Client κ) (rest : Bytes) :
      (fun _ : Client κ => condition) { client with rpc := rest } ↔ condition := Iff.rfl
  unfold onEvent
  refine bufferFree_ite (fixed _) (interacts _ _ _) ?_
  iterate 6 refine bufferFree_ite (fixed _) (fires _ _ _ _) ?_
  refine bufferFree_ite (fixed _) (interacts _ _ _) (bufferFree_ite (fixed _) (fires _ _ _ _) ?_)
  exact fun _ _ => rfl

theorem bufferFree_dispatch (json : CJson) : BufferFree (fun client : Client κ => client.dispatch json) := by
  have still : BufferFree (fun client : Client κ => (client, [])) := fun _ _ => rfl
  unfold dispatch
  split
  · exact still
  split
  · exact bufferFree_onEvent _ json
  · exact bufferFree_onResponse _ json
  · unfold onRequest
    exact bufferFree_ite (fun _ _ => Iff.rfl) (bufferFree_sendDAPEvent _ _ _ _) still
  · exact still

theorem enableFeatures_rpc (client : Client κ) (rest : Bytes) (body : Json) :
    ({ client with rpc := rest }).enableFeatures body = { client.enableFeatures body with rpc := rest } := by
  unfold enableFeatures
  induction Feature.all generalizing client with
  | nil => rfl
  | cons feature features ih =>
    rw [List.foldl_cons, List.foldl_cons, ← ih]
    split <;> rfl

theorem bufferFree_onHandshake (json : CJson) :
    BufferFree (fun client : Client κ => client.onHandshake json) := by
  have still : BufferFree (fun client : Client κ => (client, [])) := fun _ _ => rfl
  unfold onHandshake
  split
  · refine bufferFree_ite (fun _ _ => Iff.rfl) (fun client rest => ?_) still
    have enabled := enableFeatures_rpc { client with handshakeState := .kCompleted } rest
    simp only at enabled
    simp only [enabled]
    exact bufferFree_sendDAPEvent _ _ _ _ _ rest
  · exact still

theorem bufferFree_handle (json : CJson) : BufferFree (fun client : Client κ => client.handle json) := by
  have same (client : Client κ) (rest : Bytes) :
      (fun client : Client κ => client.handshakeState ≠ .kCompleted) { client with rpc := rest } ↔
        (fun client : Client κ => client.handshakeState ≠ .kCompleted) client := Iff.rfl
  exact bufferFree_ite same (bufferFree_onHandshake json) (bufferFree_dispatch json)

theorem onMessage_eq (client : Client κ) (json : CJson) :
    client.onMessage json = ((client.handle json).1, client.incomingLog json ++ (client.handle json).2) := rfl

theorem bufferFree_onMessage (json : CJson) : BufferFree (fun client : Client κ => client.onMessage json) := by
  intro client rest
  simp only [onMessage_eq, bufferFree_handle json client rest]
  rfl

end Client

namespace World
variable {parse : Bytes → Option CJson} {platform : Platform}

abbrev Runs (parse : Bytes → Option CJson) (platform : Platform) (world last : World κ)
    (out : List (Output κ)) : Prop :=
  ∃ trace, Machine.Run (World.step parse platform) world trace last ∧
    trace.flatMap Machine.Transition.shown = out

theorem Runs.one {world last : World κ} (action : Action κ) {out : List (Output κ)}
    (step : World.step parse platform world action = some (last, out)) : Runs parse platform world last out :=
  ⟨_, Machine.Run.start.next step, by simp⟩

theorem Runs.trans {world middle last : World κ} {first second : List (Output κ)}
    (earlier : Runs parse platform world middle first) (later : Runs parse platform middle last second) :
    Runs parse platform world last (first ++ second) := by
  obtain ⟨trace, run, rfl⟩ := earlier
  obtain ⟨rest, more, rfl⟩ := later
  exact ⟨trace ++ rest, run.trans more, by simp⟩

theorem handle_eq (world : World κ) {json : CJson} (quiet : ObjGenerator.initialized.throws (some json) = false)
    (below : List Frame) : world.handle json below =
      ({ world with
        client := (world.client.handle json).1
        stack := if (world.client.handle json).2.isEmpty then below else .handling :: below },
        (world.client.handle json).2) := by
  rw [handle, quiet]
  rfl

/-- `OnMessage` after the log event, with a handler that does nothing. -/
theorem handle_run (parse : Bytes → Option CJson) (platform : Platform) (world : World κ) {json : CJson}
    (quiet : ObjGenerator.initialized.throws (some json) = false) (below : List Frame) :
    Runs parse platform (world.handle json below).1
      { world with client := (world.client.handle json).1, stack := below } [] := by
  rw [handle_eq world quiet]
  by_cases silent : (world.client.handle json).2.isEmpty
  · simp only [silent, if_true]
    exact ⟨[], .start, rfl⟩
  · simp only [silent, Bool.false_eq_true, if_false]
    exact Runs.one .handlerReturns rfl

/-- One message that does not throw, with handlers that do nothing. -/
theorem message_run {world : World κ} {below : List Frame} {json : CJson} {rest : Bytes}
    (stack : world.stack = .processing :: below)
    (quiet : ObjGenerator.initialized.throws (some json) = false)
    (found : JsonRPC.doProcessBuffer parse world.client.rpc = .ok (some json, rest)) :
    Runs parse platform world
      { world with client := (Client.onMessage { world.client with rpc := rest } json).1 }
      (Client.onMessage { world.client with rpc := rest } json).2 := by
  -- the state in which the message comes to `OnMessage`
  have start (next : World κ × List (Output κ))
      (turn : (if world.client.wantsLogEvents then
        some ({ world with
            client := { world.client with rpc := rest }
            stack := .logging world.session json :: .processing :: below }, [.logEvent "<-- " json])
        else some (World.handle { world with client := { world.client with rpc := rest } } json
          (.processing :: below))) = some next) : Runs parse platform world next.1 next.2 := by
    refine Runs.one .proceed ?_
    simp only [World.step, stack, World.process, found]
    exact turn
  have last : ({ world with
      client := (({ world.client with rpc := rest } : Client κ).handle json).1
      stack := .processing :: below } : World κ) =
      { world with client := (Client.onMessage { world.client with rpc := rest } json).1 } := by
    rw [Client.onMessage_eq, ← stack]
  have handled := handle_run parse platform { world with client := { world.client with rpc := rest } } quiet
    (.processing :: below)
  have output := congrArg Prod.snd
    (handle_eq { world with client := { world.client with rpc := rest } } quiet (.processing :: below))
  rw [last] at handled
  by_cases logs : world.client.wantsLogEvents = true
  · have first := start _ (by rw [if_pos logs])
    have second : Runs parse platform _ _ _ := first.trans (Runs.one .handlerReturns rfl)
    have shown : (Client.onMessage { world.client with rpc := rest } json).2 =
        ([.logEvent "<-- " json] ++ (({ world.client with rpc := rest } : Client κ).handle json).2) ++ [] := by
      rw [Client.onMessage_eq, Client.incomingLog, if_pos logs, List.append_nil]
    rw [shown, ← output]
    exact second.trans handled
  · have first := start _ (by rw [if_neg logs])
    have shown : (Client.onMessage { world.client with rpc := rest } json).2 =
        (({ world.client with rpc := rest } : Client κ).handle json).2 ++ [] := by
      rw [Client.onMessage_eq, Client.incomingLog, if_neg logs, List.append_nil, List.nil_append]
    rw [shown, ← output]
    exact first.trans handled

/-- The loop of `ProcessBuffer`, with handlers that do nothing. -/
theorem process_run {fuel : Nat} {world : World κ} {below : List Frame} {messages : List CJson} {last : Bytes}
    (stack : world.stack = .processing :: below) (enough : world.client.rpc.length < fuel)
    (quiet : ∀ json ∈ messages, ObjGenerator.initialized.throws (some json) = false)
    (found : JsonRPC.processBufferFuel parse fuel world.client.rpc = .ok (messages, last)) :
    Runs parse platform world
      { world with
        client := (Client.onMessages { world.client with rpc := last } messages).1, stack := below }
      (Client.onMessages { world.client with rpc := last } messages).2 := by
  induction fuel generalizing world messages with
  | zero => omega
  | succ fuel ih =>
    simp only [JsonRPC.processBufferFuel] at found
    cases turn : JsonRPC.doProcessBuffer parse world.client.rpc with
    | error fault =>
      rw [turn] at found
      cases found
    | ok result =>
      obtain ⟨json, rest⟩ := result
      rw [turn] at found
      cases json with
      | none =>
        cases found
        refine Runs.one .proceed ?_
        simp only [World.step, stack, World.process, turn]
        rfl
      | some json =>
        have shorter := JsonRPC.doProcessBuffer_shrinks turn
        cases more : JsonRPC.processBufferFuel parse fuel rest with
        | error fault =>
          simp only [bind, Except.bind, more] at found
          cases found
        | ok result =>
          obtain ⟨later, final⟩ := result
          simp only [bind, Except.bind, more, pure, Except.pure, Except.ok.injEq, Prod.mk.injEq] at found
          obtain ⟨rfl, rfl⟩ := found
          have onRest := Client.bufferFree_onMessage json world.client rest
          have onFinal := Client.bufferFree_onMessage json world.client final
          simp only at onRest onFinal
          have first : Runs parse platform world _ _ := message_run stack (quiet json List.mem_cons_self) turn
          rw [onRest] at first
          simp only [Client.onMessages, onFinal]
          have others : ∀ json ∈ later, ObjGenerator.initialized.throws (some json) = false :=
            fun json member => quiet json (List.mem_cons_of_mem _ member)
          exact first.trans (ih stack (by simp only; omega) others more)

/-- A pending `OnDataRead` that the main thread takes runs as the function does, as long
as nothing comes between its steps. -/
theorem onDataRead_run {world : World κ} {session : Nat} {buffer : Bytes} {rest : List Posted}
    {client : Client κ} {out : List (Output κ)} (user : world.inUserCode = true)
    (pending : world.pending = ⟨session, .onDataRead buffer⟩ :: rest)
    (found : world.client.onDataRead parse buffer = .ok (client, out)) :
    Runs parse platform world { world with client := client, pending := rest } out := by
  have taken : World.step parse platform world .dispatch =
      some (world.take ⟨session, .onDataRead buffer⟩ rest) := by
    simp only [World.step, pending, user, if_true]
  unfold Client.onDataRead at found
  by_cases empty : buffer = []
  · rw [if_pos empty] at found
    cases found
    refine Runs.one .dispatch ?_
    rw [taken]
    simp only [World.take, if_pos empty]
  · rw [if_neg empty] at found
    cases processed : JsonRPC.processBuffer parse (JsonRPC.appendBuffer world.client.rpc buffer) with
    | error fault =>
      rw [processed] at found
      cases found
    | ok result =>
      obtain ⟨messages, last⟩ := result
      rw [processed] at found
      have result : world.take ⟨session, .onDataRead buffer⟩ rest =
          ({ world with
            client := { world.client with rpc := JsonRPC.appendBuffer world.client.rpc buffer }
            pending := rest
            stack := .processing :: world.stack }, []) := by
        simp only [World.take, if_neg empty]
      rw [result] at taken
      have quiet : ∀ json ∈ messages, ObjGenerator.initialized.throws (some json) = false := by
        intro json member
        by_contra thrown
        have some : messages.any (fun json => ObjGenerator.initialized.throws (some json)) = true :=
          List.any_eq_true.mpr ⟨json, member, Bool.of_not_eq_false thrown⟩
        simp only [bind, Except.bind, if_pos some] at found
        cases found
      have none : messages.any (fun json => ObjGenerator.initialized.throws (.some json)) = false := by
        simpa using quiet
      have same : Client.onMessages { world.client with rpc := last } messages = (client, out) := by
        simp only [bind, Except.bind, none, Bool.false_eq_true, if_false] at found
        exact Except.ok.inj found
      have loop : Runs parse platform world _ _ :=
        (Runs.one .dispatch taken).trans (process_run rfl (Nat.lt_succ_self _) quiet processed)
      simp only [same] at loop
      exact loop

end World

end

end WxDap
