import Mathlib.Data.List.Perm.Subperm
import WxDap.Client.InFlight

namespace WxDap

section
variable {κ : Type}

/-- The data that a call keeps for the response to its request. -/
def ApiCall.registers : ApiCall κ → AnyRequest → Option (Tag κ)
  | .getFrames _ _ _, .stackTraceRequest m => some (.frames m.arguments.threadId)
  | .getScopes frameId, _ => some (.scopes frameId)
  | .getChildrenVariables variablesReference context _ _, _ => some (.children variablesReference context)
  | .setBreakpointsFile file _, _ => some (.breakpoints file)
  | .loadSource _ callback, .sourceRequest _ => some (.source callback)
  | .evaluateExpression _ _ _ callback _, _ => some (.evaluate callback)
  | _, _ => none

/-- The requests of a kind that a step made, with their data. -/
def registeredBy (entry : Step κ × List (Output κ)) (kind : Kind) : List (Int32 × Tag κ) :=
  match entry.1 with
  | .call call _ =>
    (entry.2.filterMap Output.request).flatMap (fun request =>
      ((call.registers request).toList.filter (fun tag => tag.kind = kind)).map
        (fun tag => (request.base.seq, tag)))
  | .message _ => []

namespace History

/-- The requests of a kind in the order in which they were made. -/
def registered (history : History κ) (kind : Kind) : List (Int32 × Tag κ) :=
  history.flatMap (fun entry => registeredBy entry kind)

/-- The numbers that the dispatched responses of a kind answered, in their order. -/
def answered (history : History κ) (kind : Kind) : List Int32 :=
  (history.ledger.dispatched.filter (fun response => response.command = kind.command)).map (·.request_seq)

@[simp] theorem registered_append (history : History κ) (entry : Step κ × List (Output κ)) (kind : Kind) :
    registered (history ++ [entry]) kind = history.registered kind ++ registeredBy entry kind := by
  simp [registered]

theorem answered_response {history : History κ} {json : CJson} {response : Response} {out : List (Output κ)}
    {kind : Kind} (completed : history.ledger.completed = true) (read : readResponse json = some response) :
    answered (history ++ [(.message json, out)]) kind =
      history.answered kind ++ if response.command = kind.command then [response.request_seq] else [] := by
  rw [answered, ledger_append]
  simp only [Ledger.record, read, completed, if_true, List.filter_append, List.map_append, answered,
    List.append_cancel_left_eq]
  split
  · rename_i command
    simp [command]
  · rename_i other
    simp [other]

theorem dispatched_sublist (history : History κ) :
    history.ledger.dispatched.Sublist (history.ledger.answers.map Prod.fst) := by
  induction history using List.reverseRecOn with
  | nil => simp [ledger]
  | append_singleton history entry ih =>
    rw [ledger_append]
    obtain ⟨step, out⟩ := entry
    cases step with
    | call call outcome => cases call <;> exact ih
    | message json =>
      cases read : readResponse json with
      | none => simpa only [Ledger.record, read] using ih
      | some response =>
        simp only [Ledger.record, read, List.map_append, List.map_singleton]
        split
        · exact ih.append (List.Sublist.refl _)
        · exact ih.trans (List.sublist_append_left _ _)

end History

/-- The queues hold the data of the requests after as many as were answered, whichever
these were. -/
structure Queued (history : History κ) (client : Client κ) : Prop where
  queue : ∀ kind, client.queue kind =
    ((history.registered kind).map Prod.snd).drop (history.answered kind).length
  known : ∀ request ∈ history.requests, ∀ kind, request.base.command = Kind.command kind →
    request.base.seq ∈ (history.registered kind).map Prod.fst
  agrees : ∀ kind seq tag, (seq, tag) ∈ history.registered kind →
    ∃ request ∈ history.requests, request.base.seq = seq ∧ tag.Agrees request

section
variable {platform : Platform} {history : History κ} {client : Client κ} {step : Step κ}

/-- A kind has no more answers than requests. -/
theorem Booked.answered_length_le (booked : Booked history client) (kind : Kind)
    (known : ∀ request ∈ history.requests, request.base.command = Kind.command kind →
      request.base.seq ∈ (history.registered kind).map Prod.fst) :
    (history.answered kind).length ≤ (history.registered kind).length := by
  have sublist : (history.answered kind).Sublist (history.ledger.answers.map (·.1.request_seq)) := by
    have mapped : (history.answered kind).Sublist
        ((history.ledger.answers.map Prod.fst).map (·.request_seq)) :=
      (List.filter_sublist.trans history.dispatched_sublist).map _
    rwa [List.map_map] at mapped
  have subset : history.answered kind ⊆ (history.registered kind).map Prod.fst := by
    intro seq member
    obtain ⟨response, found, rfl⟩ := List.mem_map.mp member
    obtain ⟨inside, command⟩ := List.mem_filter.mp found
    obtain ⟨answer, answered, rfl⟩ := List.mem_map.mp (history.dispatched_sublist.subset inside)
    obtain ⟨request, sent, number, same⟩ := booked.asked answer answered
    rw [← number]
    exact known request sent (same.trans (by simpa using command))
  have bound := (List.Nodup.subperm (booked.once.sublist sublist) subset).length_le
  rwa [List.length_map] at bound

theorem Requested.registers {client' : Client κ} {call : ApiCall κ} {outcome : SendOutcome}
    {request : AnyRequest} {out : List (Output κ)}
    (made : Requested platform client call outcome request client' out) :
    call.registers request = call.tag client := by
  cases tagged : call.tag client with
  | some tag =>
    have agrees := made.agrees tag tagged
    cases call <;> simp only [ApiCall.tag, reduceCtorEq] at tagged
    case loadSource source callback =>
      split at tagged
      · cases tagged
        cases request <;> simp_all [Tag.Agrees, ApiCall.registers]
      · cases tagged
    all_goals
      cases tagged
      cases request <;> simp_all [Tag.Agrees, ApiCall.registers]
  | none =>
    -- a call that keeps nothing has made no request of the six kinds
    have plain : request.base.command ≠ "source" := by
      intro command
      have found := (made.kind .source).mp command
      rw [tagged] at found
      cases found
    have named := made.constructed.2
    cases call <;> simp only [ApiCall.tag, reduceCtorEq] at tagged
    case loadSource source callback =>
      cases request <;> first | rfl | exact absurd named plain
    all_goals rfl

/-- What a step does to the queues, from what it adds to the lists. -/
theorem Queued.of_lists {client' : Client κ} {out : List (Output κ)} {sent : List AnyRequest}
    (queued : Queued history client) (made : out.filterMap Output.request = sent)
    (queue : ∀ kind, client'.queue kind =
      ((history.registered kind ++ registeredBy (step, out) kind).map Prod.snd).drop
        (History.answered (history ++ [(step, out)]) kind).length)
    (known : ∀ request ∈ sent, ∀ kind, request.base.command = Kind.command kind →
      request.base.seq ∈ (registeredBy (step, out) kind).map Prod.fst)
    (agrees : ∀ kind seq tag, (seq, tag) ∈ registeredBy (step, out) kind →
      ∃ request ∈ sent, request.base.seq = seq ∧ tag.Agrees request) :
    Queued (history ++ [(step, out)]) client' := by
  have requests : History.requests (history ++ [(step, out)]) = history.requests ++ sent := by
    rw [History.requests_append, History.requests_singleton, made]
  refine ⟨fun kind => by rw [queue, History.registered_append], ?_, ?_⟩
  · intro request member kind command
    rw [requests, List.mem_append] at member
    rw [History.registered_append, List.map_append, List.mem_append]
    rcases member with old | new
    · exact Or.inl (queued.known request old kind command)
    · exact Or.inr (known request new kind command)
  · intro kind seq tag member
    rw [History.registered_append, List.mem_append] at member
    rw [requests]
    rcases member with old | new
    · obtain ⟨request, found, same⟩ := queued.agrees kind seq tag old
      exact ⟨request, List.mem_append_left _ found, same⟩
    · obtain ⟨request, found, same⟩ := agrees kind seq tag new
      exact ⟨request, List.mem_append_right _ found, same⟩

theorem Requested.registeredBy {client' : Client κ} {call : ApiCall κ} {outcome : SendOutcome}
    {request : AnyRequest} {out : List (Output κ)}
    (made : Requested platform client call outcome request client' out) (kind : Kind) :
    WxDap.registeredBy (.call call outcome, out) kind =
      (call.tags client kind).map (fun tag => (request.base.seq, tag)) := by
  simp only [WxDap.registeredBy, made.requests.1, List.flatMap_singleton, made.registers, ApiCall.tags]

/-- A call leaves the list of answers alone, and so does a message that is no response
or comes before the handshake is complete. -/
theorem Ledger.dispatched_record (ledger : Ledger) {step : Step κ}
    (unread : ∀ json response, step = .message json → readResponse json = some response →
      ledger.completed = false) : (ledger.record step).dispatched = ledger.dispatched := by
  cases step with
  | call call outcome => cases call <;> rfl
  | message json =>
    cases read : readResponse json with
    | none => simp only [Ledger.record, read]
    | some response => simp [Ledger.record, read, unread json response rfl read]

theorem Queued.next (queued : Queued history client) (booked : Booked history client)
    (connected : client.transport.isSome) (inside : step.Inside) :
    Queued (history ++ [(step, (client.step platform step).2)]) (client.step platform step).1 := by
  have kept {out : List (Output κ)} (same : (history.ledger.record step).dispatched = history.ledger.dispatched)
      (kind : Kind) : History.answered (history ++ [(step, out)]) kind = history.answered kind := by
    rw [History.answered, History.ledger_append, same, History.answered]
  rcases client.step_effect platform connected inside with
    ⟨call, outcome, request, rfl, made⟩ | ⟨json, response, out, rfl, completed, read, shown, responded⟩ |
    ⟨quiet, unfinished⟩
  · refine queued.of_lists made.requests.1 (fun kind => ?_) ?_ ?_
    · have bound := booked.answered_length_le kind (fun other member => queued.known other member kind)
      rw [kept (Ledger.dispatched_record _ (by simp)), made.registeredBy, made.queue, queued.queue,
        List.map_append, List.drop_append_of_le_length (by simpa using bound), List.map_map]
      simp [Function.comp_def]
    · intro other member kind command
      rw [List.mem_singleton.mp member] at command ⊢
      obtain ⟨tag, found, same⟩ := Option.map_eq_some_iff.mp ((made.kind kind).mp command)
      rw [made.registeredBy]
      simp [ApiCall.tags, found, same]
    · intro kind seq tag member
      rw [made.registeredBy, ApiCall.tags] at member
      obtain ⟨found, inside, same⟩ := List.mem_map.mp member
      obtain ⟨rfl, rfl⟩ := Prod.mk.inj same
      have tagged := Option.mem_toList.mp (List.mem_filter.mp inside).1
      exact ⟨request, List.mem_singleton_self _, rfl, made.agrees found tagged⟩
  · have marked := booked.handshake.mp completed
    have silent : (client.step platform (.message json)).2.filterMap Output.request = [] := by
      rw [shown]
      exact responded.no_requests json
    refine queued.of_lists silent (fun kind => ?_) (by simp) (by simp [WxDap.registeredBy])
    rw [History.answered_response marked read, responded.queue, queued.queue]
    split <;> simp [WxDap.registeredBy]
  · have same : (history.ledger.record step).dispatched = history.ledger.dispatched := by
      refine Ledger.dispatched_record _ (fun json response message read => ?_)
      rw [← Bool.not_eq_true]
      exact fun marked => unfinished json response message read (booked.handshake.mpr marked)
    have nothing (kind : Kind) : WxDap.registeredBy (step, (client.step platform step).2) kind = [] := by
      cases step with
      | call call outcome => simp only [WxDap.registeredBy, quiet.silent.1, List.flatMap_nil]
      | message json => rfl
    refine queued.of_lists quiet.silent.1 (fun kind => ?_) (by simp) (by simp [nothing])
    rw [kept same, nothing, List.append_nil, quiet.queue, queued.queue]

theorem Session.queued {start : Client κ} (session : Session platform start history client)
    (attached : start.transport.isSome) (new : start.inFlightRequests = .empty)
    (unfinished : start.handshakeState ≠ .kCompleted) (idle : ∀ kind, start.queue kind = [])
    (few : client.requestSequence < 2 ^ 31) (answering : Answering history) : Queued history client := by
  induction session with
  | start =>
    refine ⟨?_, by simp [History.requests, History.outputs], by simp [History.registered]⟩
    simp [History.registered, idle]
  | next session inside ih =>
    have connected := session.connected attached
    have grows := Client.step_sequence platform connected inside
    exact (ih (by omega) answering.of_append).next
      (session.booked attached new unfinished (by omega) answering.of_append) connected inside

end

/-- A response of one of the kinds, processed after the handshake was complete. -/
def Dispatches (history earlier : History κ) (response : Response) (kind : Kind) (out : List (Output κ)) : Prop :=
  ∃ json later, history = earlier ++ (.message json, out) :: later ∧ readResponse json = some response ∧
    earlier.ledger.completed = true ∧ response.command = Kind.command kind

/-- Each response is dispatched with the data of the call whose request has the number
that it answers; the event carries that request, and the two agree. -/
def Matched (history : History κ) : Prop :=
  ∀ (earlier : History κ) response kind out, Dispatches history earlier response kind out →
    ∃ tag, ∃ request ∈ earlier.requests, out.filterMap Output.tag = [tag] ∧
      (response.request_seq, tag) ∈ earlier.registered kind ∧
      request.base.seq = response.request_seq ∧ tag.Agrees request ∧
      out.filterMap Output.originating = if response.command ∈ attachingCommands then [request] else []

/-- The response that comes after `n` others of its kind answers a request with the
data of the request that was made after `n` others of the kind. -/
def InOrder (history : History κ) : Prop :=
  ∀ (earlier : History κ) response kind out, Dispatches history earlier response kind out →
    ∃ number tag, (earlier.registered kind)[(earlier.answered kind).length]? = some (number, tag) ∧
      (response.request_seq, tag) ∈ earlier.registered kind

section
variable {platform : Platform} {history : History κ} {client : Client κ}

/-- The request that a response answers is still in the map. -/
theorem Booked.find_answered (booked : Booked history client) {request : AnyRequest}
    (sent : request ∈ history.requests)
    (unanswered : ∀ answer ∈ history.ledger.answers, answer.1.request_seq ≠ request.base.seq) :
    client.inFlightRequests.find request.base.seq = some request := by
  refine (booked.inFlight _ _).mpr ⟨sent, rfl, fun answer member same => ?_⟩
  exact absurd same (unanswered answer member)

/-- A dispatched response gets the data at the front of the queue of its kind. -/
theorem Queued.front (queued : Queued history client) (booked : Booked history client) {json : CJson}
    {response : Response} {kind : Kind} (completed : history.ledger.completed = true)
    (read : readResponse json = some response) (command : response.command = Kind.command kind)
    (bound : (history.answered kind).length < (history.registered kind).length) :
    ∃ number tag, (history.registered kind)[(history.answered kind).length]? = some (number, tag) ∧
      (client.onMessage json).2.filterMap Output.tag = [tag] := by
  obtain ⟨out, shown, responded⟩ := client.onMessage_response (booked.handshake.mpr completed) read
  have found := List.getElem?_eq_getElem bound
  have queue : client.queue kind = (history.registered kind)[(history.answered kind).length].2 ::
      ((history.registered kind).map Prod.snd).drop ((history.answered kind).length + 1) := by
    rw [queued.queue, List.drop_eq_getElem_cons (by simpa using bound), List.getElem_map]
  refine ⟨_, _, found, ?_⟩
  rw [shown, List.filterMap_append, (client.incomingLog_silent json).2.2, List.nil_append]
  exact responded.tags kind _ _ command queue

/-- What is known where a response is dispatched. -/
theorem Session.dispatched {before : Client κ} {transport : Nat}
    (session : Session platform (before.setTransport (some transport)) history client)
    (few : client.requestSequence < 2 ^ 31) (answering : Answering history) {earlier : History κ}
    {response : Response} {kind : Kind} {out : List (Output κ)}
    (dispatches : Dispatches history earlier response kind out) :
    (∃ number tag, (earlier.registered kind)[(earlier.answered kind).length]? = some (number, tag) ∧
      out.filterMap Output.tag = [tag]) ∧
    ∀ tag, (response.request_seq, tag) ∈ earlier.registered kind → ∃ request ∈ earlier.requests,
      request.base.seq = response.request_seq ∧ tag.Agrees request ∧
      out.filterMap Output.originating = if response.command ∈ attachingCommands then [request] else [] := by
  rw [Client.setTransport_eq] at session
  obtain ⟨json, later, place, read, completed, command⟩ := dispatches
  obtain ⟨middle, reached, inside, shown, bound⟩ := session.split rfl place
  have connected := reached.connected rfl
  have grows := Client.step_sequence platform connected inside
  have now : Answering (earlier ++ [(.message json, out)]) := by
    rw [place, List.append_cons] at answering
    exact answering.of_append
  have booked := reached.booked rfl rfl (by simp) (by omega) now.of_append
  have queued := reached.queued rfl rfl (by simp) (fun kind => by cases kind <;> rfl) (by omega) now.of_append
  -- one more answer of the kind is still not more than its requests
  have room : (earlier.answered kind).length < (earlier.registered kind).length := by
    rw [shown] at now
    have after := (reached.next inside).booked rfl rfl (by simp) (by omega) now
    have known := ((reached.next inside).queued rfl rfl (by simp) (fun kind => by cases kind <;> rfl)
      (by omega) now).known
    have total := after.answered_length_le kind (fun request member => known request member kind)
    rw [History.answered_response completed read, if_pos command, History.registered_append] at total
    simp only [registeredBy, List.append_nil, List.length_append, List.length_singleton] at total
    omega
  refine ⟨?_, fun tag member => ?_⟩
  · rw [shown]
    exact queued.front booked completed read command room
  · obtain ⟨request, sent, number, agrees⟩ := queued.agrees kind _ tag member
    refine ⟨request, sent, number, agrees, ?_⟩
    have unanswered := (now.last read).2
    rw [← number] at unanswered
    obtain ⟨events, result, responded⟩ := middle.onMessage_response (booked.handshake.mpr completed) read
    have attached := responded.originating json
    rw [← number, booked.find_answered sent unanswered] at attached
    rw [shown]
    exact (congrArg (List.filterMap Output.originating) result).trans attached

end

/-- The queues match responses with requests exactly when the server answers each kind
in the order of its requests, up to requests with equal data. -/
theorem matched_iff {platform : Platform} {before client : Client κ} {transport : Nat} {history : History κ}
    (session : Session platform (before.setTransport (some transport)) history client)
    (few : client.requestSequence < 2 ^ 31) (answering : Answering history) :
    Matched history ↔ InOrder history := by
  constructor
  · intro matched earlier response kind out dispatches
    obtain ⟨tag, _, _, shown, member, _⟩ := matched earlier response kind out dispatches
    obtain ⟨number, front, found, same⟩ := (session.dispatched few answering dispatches).1
    rw [shown] at same
    rw [(List.cons.inj same).1] at member
    exact ⟨number, front, found, member⟩
  · intro order earlier response kind out dispatches
    obtain ⟨number, tag, found, member⟩ := order earlier response kind out dispatches
    obtain ⟨⟨_, front, first, shown⟩, known⟩ := session.dispatched few answering dispatches
    rw [found] at first
    cases first
    obtain ⟨request, sent, same, agrees, attached⟩ := known tag member
    exact ⟨tag, request, sent, shown, member, same, agrees, attached⟩

/-- The frames of two threads are asked for. -/
def framesCalls : List (Step Unit) :=
  handshake CJson.createObject ++ [.call (.getFrames 1 0 20) .all, .call (.getFrames 2 0 20) .all]

def framesOpening : History Unit × Client Unit :=
  (({} : Client Unit).setTransport (some 0)).run .sample framesCalls

def framesRun (replies : List Int32) : History Unit × Client Unit :=
  (({} : Client Unit).setTransport (some 0)).run .sample
    (framesCalls ++ replies.map (fun seq => .message (reply "stackTrace" seq CJson.createObject)))

theorem framesRun_session (replies : List Int32) :
    Session .sample (({} : Client Unit).setTransport (some 0)) (framesRun replies).1 (framesRun replies).2 :=
  Session.of_run (by simp [framesCalls, handshake, Step.Inside])

theorem matched_iff_framesRun :
    (framesRun [2, 3]).1.outputs.filterMap Output.tag = [.frames 1, .frames 2] ∧
      (Matched (framesRun [2, 3]).1 ↔ InOrder (framesRun [2, 3]).1) :=
  ⟨by decide +kernel, matched_iff (framesRun_session _) (by decide +kernel)
    (answering_of_answersAll (by decide +kernel))⟩

/-- The answer about thread 2 comes first and gets the number of thread 1. -/
theorem framesRun_not_matched :
    Answering (framesRun [3, 2]).1 ∧
      (framesRun [3, 2]).1.outputs.filterMap Output.tag = [.frames 1, .frames 2] ∧
      (framesRun [3, 2]).1.attached.map (·.base.seq) = [3, 2] ∧ ¬ Matched (framesRun [3, 2]).1 := by
  refine ⟨answering_of_answersAll (by decide +kernel), by decide +kernel, by decide +kernel, fun matched => ?_⟩
  have place : ∃ later, (framesRun [3, 2]).1 = framesOpening.1 ++
      (.message (reply "stackTrace" 3 CJson.createObject),
        (framesOpening.2.onMessage (reply "stackTrace" 3 CJson.createObject)).2) :: later := by
    have cut (opening : Client Unit) (step : Step Unit) (steps : List (Step Unit)) :
        ∃ later, (opening.run .sample (step :: steps)).1 = (step, (opening.step .sample step).2) :: later :=
      ⟨_, rfl⟩
    obtain ⟨later, first⟩ := cut framesOpening.2 (.message (reply "stackTrace" 3 CJson.createObject))
      [.message (reply "stackTrace" 2 CJson.createObject)]
    refine ⟨later, ?_⟩
    rw [framesRun, Client.run_append]
    exact congrArg (framesOpening.1 ++ ·) first
  obtain ⟨later, place⟩ := place
  have read : readResponse (reply "stackTrace" 3 CJson.createObject) =
      some { seq := -1, type := "response", request_seq := 3, success := true, command := "stackTrace" } := by
    decide +kernel
  obtain ⟨tag, _, _, shown, member, _⟩ := matched framesOpening.1 _ .frames _
    ⟨_, _, place, read, by decide +kernel, rfl⟩
  have first : (framesOpening.2.onMessage (reply "stackTrace" 3 CJson.createObject)).2.filterMap Output.tag =
      [.frames 1] := by
    decide +kernel
  have registered : framesOpening.1.registered .frames = [(2, .frames 1), (3, .frames 2)] := by decide +kernel
  rw [first] at shown
  rw [← (List.cons.inj shown).1, registered] at member
  revert member
  decide

end

end WxDap
