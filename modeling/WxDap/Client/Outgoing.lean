import WxDap.Client.Session

namespace WxDap

section
variable {κ : Type}

/-- One of the sends did not take its whole buffer. -/
def Cut (out : List (Output κ)) : Prop :=
  ∃ buffer accepted, .transport buffer accepted ∈ out ∧ accepted ≠ buffer

theorem mem_sent_iff {out : List (Output κ)} {send : Bytes × Bytes} :
    send ∈ out.filterMap Output.sent ↔ .transport send.1 send.2 ∈ out := by
  rw [List.mem_filterMap]
  constructor
  · rintro ⟨output, shown, found⟩
    cases output <;> simp only [Output.sent, reduceCtorEq, Option.some.injEq] at found
    subst found
    exact shown
  · intro shown
    exact ⟨_, shown, rfl⟩

namespace History

/-- The buffers handed to the transport, each with what the transport took of it. -/
def sends (history : History κ) : List (Bytes × Bytes) := history.outputs.filterMap Output.sent

/-- The bytes that the transport has taken. -/
def accepted (history : History κ) : Bytes := (history.sends.map Prod.snd).flatten

@[simp] theorem sends_append (history later : History κ) :
    sends (history ++ later) = history.sends ++ later.sends := by
  simp [sends, outputs]

theorem sends_singleton (entry : Step κ × List (Output κ)) :
    sends [entry] = entry.2.filterMap Output.sent := by
  simp [sends, outputs]

theorem mem_sends_iff {history : History κ} {send : Bytes × Bytes} :
    send ∈ history.sends ↔ ∃ entry ∈ history, .transport send.1 send.2 ∈ entry.2 := by
  rw [sends, mem_sent_iff, outputs, List.mem_flatMap]

end History

/-- What a message can lead to: events and callbacks, nothing that goes to the server. -/
def Output.Notifies : Output κ → Prop
  | .logEvent _ _ | .dapEvent _ _ _ | .sourceLoaded _ _ _ _ | .evaluated _ _ _ _ _ => True
  | .transport _ _ | .lostConnection | .sendRequest _ _ => False

namespace Client

theorem sendDAPEvent_notifies (client : Client κ) (type : EventType) (message : AnyMessage) (json : CJson)
    (request : Option AnyRequest) : ∀ o ∈ (client.sendDAPEvent type message json request).2, o.Notifies := by
  obtain ⟨threadId, result⟩ := client.sendDAPEvent_eq type message json request
  intro o member
  rw [result, List.mem_singleton] at member
  subst member
  trivial

theorem sendDAPResponse_notifies (client : Client κ) (type : EventType) (object : AnyResponse) (json : CJson)
    (response : Response) : ∀ o ∈ (client.sendDAPResponse type object json response).2, o.Notifies :=
  sendDAPEvent_notifies _ _ _ _ _

theorem notifies_ite {condition : Prop} [Decidable condition] {first second : Client κ × List (Output κ)}
    (left : ∀ o ∈ first.2, o.Notifies) (right : ∀ o ∈ second.2, o.Notifies) :
    ∀ o ∈ (if condition then first else second).2, o.Notifies := by
  split
  · exact left
  · exact right

theorem onResponse_notifies (client : Client κ) (response : Response) (json : CJson) :
    ∀ o ∈ (client.onResponse response json).2, o.Notifies := by
  have fires := sendDAPResponse_notifies (κ := κ)
  have source : ∀ o ∈ (client.handleSourceResponse json).2, o.Notifies := by
    unfold handleSourceResponse
    split <;> simp [Output.Notifies]
  have evaluate : ∀ o ∈ (client.handleEvaluateResponse json).2, o.Notifies := by
    unfold handleEvaluateResponse
    split <;> simp [Output.Notifies]
  unfold onResponse
  refine notifies_ite (fires _ _ _ _ _) (notifies_ite (fires _ _ _ _ _) (notifies_ite (fires _ _ _ _ _) ?_))
  refine notifies_ite (by simp) (notifies_ite (fires _ _ _ _ _) (notifies_ite (fires _ _ _ _ _) ?_))
  refine notifies_ite (fires _ _ _ _ _) (notifies_ite (fires _ _ _ _ _) (notifies_ite (fires _ _ _ _ _) ?_))
  exact notifies_ite (fires _ _ _ _ _) (notifies_ite source (notifies_ite evaluate (by simp)))

theorem onEvent_notifies (client : Client κ) (event : AnyEvent) (json : CJson) :
    ∀ o ∈ (client.onEvent event json).2, o.Notifies := by
  unfold onEvent
  iterate 9 refine notifies_ite (sendDAPEvent_notifies _ _ _ _ _) ?_
  simp

theorem dispatch_notifies (client : Client κ) (json : CJson) :
    ∀ o ∈ (client.dispatch json).2, o.Notifies := by
  unfold dispatch
  split
  · simp
  split
  · exact client.onEvent_notifies _ json
  · exact client.onResponse_notifies _ json
  · unfold onRequest
    split
    · exact sendDAPEvent_notifies _ _ _ _ _
    · simp
  · simp

theorem onHandshake_notifies (client : Client κ) (json : CJson) :
    ∀ o ∈ (client.onHandshake json).2, o.Notifies := by
  unfold onHandshake
  split
  · split
    · exact sendDAPEvent_notifies _ _ _ _ _
    · simp
  · simp

theorem onMessage_notifies (client : Client κ) (json : CJson) :
    ∀ o ∈ (client.onMessage json).2, o.Notifies := by
  have logged {o : Output κ} (member : o ∈ client.incomingLog json) : o.Notifies := by
    rw [eq_of_mem_incomingLog member]
    trivial
  intro o member
  by_cases completed : client.handshakeState = .kCompleted
  · simp only [onMessage, completed, ne_eq, not_true, if_false] at member
    rcases List.mem_append.mp member with log | rest
    · exact logged log
    · exact client.dispatch_notifies json o rest
  · simp only [onMessage, completed, ne_eq, not_false_eq_true, if_true] at member
    rcases List.mem_append.mp member with log | rest
    · exact logged log
    · exact client.onHandshake_notifies json o rest

end Client

/-- The one place where a step sends, and what became of it. -/
theorem Client.step_sends (platform : Platform) {client : Client κ} {step : Step κ}
    (connected : client.transport.isSome) (inside : step.Inside) :
    ((client.step platform step).2.filterMap Output.sent = [] ∧
      ∀ request sent, .sendRequest request sent ∉ (client.step platform step).2) ∨
    ∃ call outcome payload, step = .call call outcome ∧
      (client.step platform step).2.filterMap Output.sent =
        [(JsonRPC.networkBuffer payload, outcome.accepted (JsonRPC.networkBuffer payload))] ∧
      ((∃ response, call = .sendResponse response ∧
        ∀ request sent, .sendRequest request sent ∉ (client.step platform step).2) ∨
      (∀ response, call ≠ .sendResponse response) ∧
        ∃ request, .sendRequest request true ∈ (client.step platform step).2) := by
  cases step with
  | message json =>
    left
    have notifies := client.onMessage_notifies json
    refine ⟨List.filterMap_eq_nil_iff.mpr (fun o member => ?_), fun request sent member => ?_⟩
    · have shown := notifies o member
      cases o <;> first | rfl | cases shown
    · cases notifies _ member
  | call call outcome =>
    rcases client.call_effect connected inside call with ⟨request, made⟩ | other
    · right
      refine ⟨call, outcome, Client.toString platform (.request request), rfl, ?_, Or.inr ⟨?_, request, ?_⟩⟩
      · rw [step, made.output, sendOutput]
        split <;> rfl
      · rintro response rfl
        have numbered := made.sequence
        simp [Client.call, ApiCall.prepare, ApiCall.direct, sendResponse, rpcSend_eq connected inside] at numbered
      · rw [step, made.output, sendOutput]
        simp
    · have sends := other.sends
      cases call with
      | sendResponse response =>
        exact Or.inr ⟨_, outcome, _, rfl, sends, Or.inl ⟨response, rfl, other.plain⟩⟩
      | _ => exact Or.inl ⟨sends, other.plain⟩

/-- In a session the transport gets frames and takes a part from the start of each. -/
theorem Session.sends_frames {platform : Platform} {start client : Client κ} {history : History κ}
    (session : Session platform start history client) (attached : start.transport.isSome) :
    ∀ send ∈ history.sends, (∃ payload, send.1 = JsonRPC.networkBuffer payload) ∧ send.2 <+: send.1 := by
  have taken (outcome : SendOutcome) (buffer : Bytes) : outcome.accepted buffer <+: buffer := by
    cases outcome with
    | all => exact List.prefix_refl buffer
    | short taken returned => exact List.take_prefix taken buffer
    | throws => exact List.nil_prefix
  induction session with
  | start => simp [History.sends, History.outputs]
  | next session inside ih =>
    intro send member
    rw [History.sends_append, List.mem_append, History.sends_singleton] at member
    rcases member with old | new
    · exact ih send old
    · rcases Client.step_sends platform (session.connected attached) inside with
        ⟨none, _⟩ | ⟨call, outcome, payload, _, single, _⟩
      · simp [none] at new
      · rw [single, List.mem_singleton] at new
        subst new
        exact ⟨⟨payload, rfl⟩, taken outcome _⟩

/-- The stream of a session is framed, and a failed send is the end of it: nothing more
is sent, `SendRequest` returns false, and its request is not in flight. -/
structure Framed (history : History κ) (client : Client κ) : Prop where
  stream : ∃ (payloads : List Bytes) (part : Bytes), history.accepted = (payloads.map JsonRPC.networkBuffer).flatten ++ part ∧
    (part = [] ∨ ∃ payload, part <+: JsonRPC.networkBuffer payload ∧ part ≠ JsonRPC.networkBuffer payload)
  silent : ∀ (earlier : History κ) step out later, history = earlier ++ (step, out) :: later → Cut out →
    History.sends later = []
  refused : ∀ (earlier : History κ) step out later, history = earlier ++ (step, out) :: later → Cut out →
    ∀ entry ∈ (step, out) :: later, ∀ request sent, .sendRequest request sent ∈ entry.2 →
      sent = false ∧ client.inFlightRequests.find request.base.seq ≠ some request

/-- The transport takes every request whole, and after a response that it cut no call comes
to a send. -/
def Uncut (platform : Platform) (start : Client κ) (history : History κ) : Prop :=
  ∀ (earlier : History κ) step out later, history = earlier ++ (step, out) :: later → Cut out →
    (∃ response outcome, step = .call (.sendResponse response) outcome) ∧
      ∀ (made : History κ) call outcome shown rest before, later = made ++ (.call call outcome, shown) :: rest →
        Session platform start (earlier ++ (step, out) :: made) before → ¬call.Sends platform before

/-- The same by what the later calls show. -/
def Unbroken (history : History κ) : Prop :=
  ∀ (earlier : History κ) step out later, history = earlier ++ (step, out) :: later → Cut out →
    (∃ response outcome, step = .call (.sendResponse response) outcome) ∧ History.sends later = []

theorem Unbroken.of_append {history later : History κ} (unbroken : Unbroken (history ++ later)) :
    Unbroken history := by
  intro earlier step out rest place cut
  obtain ⟨response, silent⟩ := unbroken earlier step out (rest ++ later) (by simp [place]) cut
  rw [History.sends_append, List.append_eq_nil_iff] at silent
  exact ⟨response, silent.1⟩

/-- Before a send, everything was taken whole. -/
theorem Unbroken.whole {history : History κ} {entry : Step κ × List (Output κ)}
    (unbroken : Unbroken (history ++ [entry])) (sending : History.sends [entry] ≠ []) :
    ∀ send ∈ history.sends, send.2 = send.1 := by
  intro send member
  by_contra short
  obtain ⟨⟨step, out⟩, inside, shown⟩ := History.mem_sends_iff.mp member
  obtain ⟨earlier, later, place⟩ := List.append_of_mem inside
  have silent := (unbroken earlier step out (later ++ [entry]) (by simp [place]) ⟨_, _, shown, short⟩).2
  rw [History.sends_append, List.append_eq_nil_iff] at silent
  exact sending silent.2

section
variable {platform : Platform} {start client : Client κ} {history : History κ}

theorem Client.sends_call_iff {call : ApiCall κ} {outcome : SendOutcome} (connected : client.transport.isSome)
    (inside : outcome ≠ .throws) :
    (client.call platform call outcome).2.filterMap Output.sent = [] ↔ ¬call.Sends platform client := by
  cases prepared : call.prepare platform client with
  | some entry =>
    obtain ⟨ready, request⟩ := entry
    have attached : ready.transport.isSome := (ApiCall.prepare_prepared prepared).transport ▸ connected
    rw [call_of_prepare prepared, send_eq attached inside, sendOutput]
    refine iff_of_false (by simp [Output.sent]) (not_not.mpr (Or.inl ?_))
    rw [prepared, Option.isSome_some]
  | none =>
    rw [call_of_direct prepared, (ApiCall.direct_unrequested connected inside call).sends]
    simp only [ApiCall.Sends, prepared, Option.isSome_none, Bool.false_eq_true, false_or]
    cases call <;> simp

/-- Nothing is sent in the rest of a session if none of its calls comes to a send. -/
theorem Session.sends_eq_nil_iff {earlier later : History κ} (session : Session platform start (earlier ++ later) client)
    (attached : start.transport.isSome) :
    History.sends later = [] ↔
      ∀ (made : History κ) call outcome shown rest before, later = made ++ (.call call outcome, shown) :: rest →
        Session platform start (earlier ++ made) before → ¬call.Sends platform before := by
  constructor
  · rintro silent made call outcome shown rest before rfl reached
    rw [← List.append_assoc] at session
    obtain ⟨middle, known, inside, rfl, _⟩ := session.split attached rfl
    obtain rfl := reached.unique known
    rw [History.sends_append, ← List.singleton_append, History.sends_append, List.append_eq_nil_iff,
      List.append_eq_nil_iff, History.sends_singleton] at silent
    exact (Client.sends_call_iff (reached.connected attached) inside).mp silent.2.1
  · intro quiet
    by_contra sends
    obtain ⟨send, member⟩ := List.exists_mem_of_ne_nil _ sends
    obtain ⟨⟨step, out⟩, inside, shown⟩ := History.mem_sends_iff.mp member
    obtain ⟨made, rest, rfl⟩ := List.append_of_mem inside
    rw [← List.append_assoc] at session
    obtain ⟨middle, known, proper, rfl, _⟩ := session.split attached rfl
    rcases Client.step_sends platform (known.connected attached) proper with
      ⟨none, _⟩ | ⟨call, outcome, _, rfl, single, _⟩
    · rw [List.filterMap_eq_nil_iff] at none
      cases none _ shown
    · have none := (Client.sends_call_iff (known.connected attached) proper).mpr
        (quiet made call outcome _ rest middle rfl known)
      rw [Client.step] at single
      rw [none] at single
      cases single

theorem uncut_iff (session : Session platform start history client) (attached : start.transport.isSome) :
    Uncut platform start history ↔ Unbroken history := by
  refine forall₄_congr fun earlier step out later => forall₂_congr fun place _ => and_congr_right fun _ => ?_
  have rest := session
  rw [place, ← List.singleton_append, ← List.append_assoc] at rest
  rw [rest.sends_eq_nil_iff attached]
  simp only [List.append_assoc, List.singleton_append]

theorem flatten_accepted {sends : List (Bytes × Bytes)} (frames : ∀ send ∈ sends,
      (∃ payload, send.1 = JsonRPC.networkBuffer payload) ∧ send.2 = send.1) :
    ∃ payloads : List Bytes, (sends.map Prod.snd).flatten = (payloads.map JsonRPC.networkBuffer).flatten := by
  induction sends with
  | nil => exact ⟨[], rfl⟩
  | cons send sends ih =>
    obtain ⟨⟨payload, buffer⟩, whole⟩ := frames send List.mem_cons_self
    obtain ⟨payloads, later⟩ := ih (fun other member => frames other (List.mem_cons_of_mem _ member))
    refine ⟨payload :: payloads, ?_⟩
    rw [List.map_cons, List.flatten_cons, whole, buffer, later, List.map_cons, List.flatten_cons]

theorem Unbroken.stream (unbroken : Unbroken history) (session : Session platform start history client)
    (attached : start.transport.isSome) :
    ∃ (payloads : List Bytes) (part : Bytes), history.accepted = (payloads.map JsonRPC.networkBuffer).flatten ++ part ∧
      (part = [] ∨ ∃ payload, part <+: JsonRPC.networkBuffer payload ∧
        part ≠ JsonRPC.networkBuffer payload) := by
  induction session with
  | start => exact ⟨[], [], rfl, Or.inl rfl⟩
  | @next history client step session inside ih =>
    rcases Client.step_sends platform (session.connected attached) inside with
      ⟨none, _⟩ | ⟨call, outcome, payload, _, single, _⟩
    · obtain ⟨payloads, part, before, incomplete⟩ := ih unbroken.of_append
      refine ⟨payloads, part, ?_, incomplete⟩
      rw [← before]
      simp [History.accepted, History.sends_singleton, none]
    · have whole := unbroken.whole (by simp [History.sends_singleton, single])
      have frames := session.sends_frames attached
      obtain ⟨payloads, before⟩ := flatten_accepted
        (fun send member => ⟨(frames send member).1, whole send member⟩)
      have now : History.accepted (history ++ [(step, (client.step platform step).2)]) =
          (payloads.map JsonRPC.networkBuffer).flatten ++ outcome.accepted (JsonRPC.networkBuffer payload) := by
        rw [← before]
        simp [History.accepted, History.sends_singleton, single]
      have last := (session.next inside).sends_frames attached
        (JsonRPC.networkBuffer payload, outcome.accepted (JsonRPC.networkBuffer payload))
        (by simp [History.sends_singleton, single])
      by_cases complete : outcome.accepted (JsonRPC.networkBuffer payload) = JsonRPC.networkBuffer payload
      · refine ⟨payloads ++ [payload], [], ?_, Or.inl rfl⟩
        rw [now, complete]
        simp
      · exact ⟨payloads, _, now, Or.inr ⟨payload, last.2, complete⟩⟩

end

/-- Nobody looks at what `Transport::Send` returns, so the stream of a session stays
framed exactly when nothing is sent after a send that failed and no request failed. -/
theorem framed_iff {platform : Platform} {before client : Client κ} {transport : Nat} {history : History κ}
    (session : Session platform (before.setTransport (some transport)) history client) :
    Framed history client ↔ Uncut platform (before.setTransport (some transport)) history := by
  rw [Client.setTransport_eq] at session ⊢
  rw [uncut_iff session rfl]
  constructor
  · intro framed earlier step out later place cut
    refine ⟨?_, framed.silent earlier step out later place cut⟩
    obtain ⟨middle, reached, inside, shown, _⟩ := session.split rfl place
    obtain ⟨buffer, accepted, member, short⟩ := cut
    rcases Client.step_sends platform (reached.connected rfl) inside with
      ⟨none, _⟩ | ⟨call, outcome, payload, same, _, ⟨response, answer, _⟩ | ⟨_, request, sent⟩⟩
    · rw [← shown, List.filterMap_eq_nil_iff] at none
      cases none _ member
    · exact ⟨response, outcome, by rw [same, answer]⟩
    · rw [← shown] at sent
      obtain ⟨failed, _⟩ := framed.refused earlier step out later place ⟨buffer, accepted, member, short⟩
        _ List.mem_cons_self request true sent
      cases failed
  · intro unbroken
    refine ⟨unbroken.stream session rfl, fun earlier step out later place cut =>
      (unbroken earlier step out later place cut).2, ?_⟩
    -- the cut send was that of a response, and later steps do not come to `SendRequest`
    intro earlier step out later place cut entry member request sent requested
    obtain ⟨⟨response, outcome, answer⟩, silent⟩ := unbroken earlier step out later place cut
    exfalso
    rcases List.mem_cons.mp member with rfl | after
    · obtain ⟨middle, reached, inside, shown, _⟩ := session.split rfl place
      subst answer
      rcases Client.step_sends platform (reached.connected rfl) inside with
        ⟨_, plain⟩ | ⟨call, _, _, same, _, ⟨_, _, plain⟩ | ⟨different, _⟩⟩
      · exact plain request sent (shown ▸ requested)
      · exact plain request sent (shown ▸ requested)
      · cases same
        exact different response rfl
    · obtain ⟨step', out'⟩ := entry
      obtain ⟨first, rest, split⟩ := List.append_of_mem after
      have whole : history = (earlier ++ (step, out) :: first) ++ (step', out') :: rest := by
        rw [place, split, List.append_assoc, List.cons_append]
      obtain ⟨middle, reached, inside, shown, _⟩ := session.split rfl whole
      have none : (middle.step platform step').2.filterMap Output.sent = [] := by
        rw [split, ← List.singleton_append (l := rest), History.sends_append, History.sends_append,
          List.append_eq_nil_iff, List.append_eq_nil_iff, History.sends_singleton, shown] at silent
        exact silent.2.1
      rcases Client.step_sends platform (reached.connected rfl) inside with
        ⟨_, plain⟩ | ⟨_, _, _, _, single, _⟩
      · exact plain request sent (shown ▸ requested)
      · rw [none] at single
        cases single

/-- The transport takes five bytes of a request and all of the next one. -/
def cutRun : History Unit × Client Unit :=
  (({} : Client Unit).setTransport (some 0)).run .sample
    [.call .getThreads (.short 5 5), .call .getThreads .all]

theorem cutRun_session : Session .sample (({} : Client Unit).setTransport (some 0)) cutRun.1 cutRun.2 :=
  Session.of_run (by simp [Step.Inside])

theorem framed_iff_cutRun :
    cutRun.1.sends.map (fun send => decide (send.2 = send.1)) = [false, true] ∧
      (Framed cutRun.1 cutRun.2 ↔ Uncut .sample (({} : Client Unit).setTransport (some 0)) cutRun.1) :=
  ⟨by decide +kernel, framed_iff cutRun_session⟩

/-- The second frame starts in the middle of the first, and the failed request counts
as sent. -/
theorem cutRun_not_framed :
    cutRun.1.accepted.take 12 = Decimal.ascii "ConteContent" ∧
      cutRun.1.requests.map (·.base.seq) = [1, 2] ∧ (cutRun.2.inFlightRequests.find 1).isSome ∧
      ¬ Framed cutRun.1 cutRun.2 := by
  refine ⟨by decide +kernel, by decide +kernel, by decide +kernel, fun framed => ?_⟩
  have short : ∃ send ∈ ((({} : Client Unit).setTransport (some 0)).step .sample
      (.call .getThreads (.short 5 5))).2.filterMap Output.sent, send.2 ≠ send.1 := by
    decide +kernel
  obtain ⟨send, member, different⟩ := short
  have silent := framed.silent [] _ _ _ rfl ⟨_, _, mem_sent_iff.mp member, different⟩
  revert silent
  decide +kernel

end

end WxDap
