import WxDap.Client.MessageEffect
import WxDap.JsonText

namespace WxDap

theorem Int32.ofNat_injective {n m : Nat} (small : n < 2 ^ 31) (other : m < 2 ^ 31)
    (same : Int32.ofNat n = Int32.ofNat m) : n = m := by
  have left := Int32.toInt_ofNat_of_lt small
  have right := Int32.toInt_ofNat_of_lt other
  rw [same, right] at left
  omega

/-- What happens to a client between two resets. -/
inductive Step (κ : Type)
  | call (call : ApiCall κ) (outcome : SendOutcome)
  | message (json : CJson)

section
variable {κ : Type}

/-- An exception out of `Transport::Send` resets the client and so ends the session. -/
def Step.Inside : Step κ → Prop
  | .call _ outcome => outcome ≠ .throws
  | .message _ => True

def Client.step (platform : Platform) (client : Client κ) : Step κ → Client κ × List (Output κ)
  | .call call outcome => client.call platform call outcome
  | .message json => client.onMessage json

/-- The steps of a session with what each of them showed. -/
abbrev History (κ : Type) := List (Step κ × List (Output κ))

/-- The runs of one session, with any interleaving of calls and messages. -/
inductive Session (platform : Platform) (start : Client κ) : History κ → Client κ → Prop
  | start : Session platform start [] start
  | next {history : History κ} {client : Client κ} {step : Step κ} :
      Session platform start history client → step.Inside →
      Session platform start (history ++ [(step, (client.step platform step).2)])
        (client.step platform step).1

/-- The run of a list of steps. -/
def Client.run (platform : Platform) (client : Client κ) : List (Step κ) → History κ × Client κ
  | [] => ([], client)
  | step :: steps =>
    let (next, out) := client.step platform step
    let (later, last) := next.run platform steps
    ((step, out) :: later, last)

theorem Client.run_append (platform : Platform) (client : Client κ) (earlier later : List (Step κ)) :
    client.run platform (earlier ++ later) =
      ((client.run platform earlier).1 ++ ((client.run platform earlier).2.run platform later).1,
        ((client.run platform earlier).2.run platform later).2) := by
  induction earlier generalizing client with
  | nil => rfl
  | cons step earlier ih => simp [run, ih]

/-- The text of cJSON for trees without fractions, and the part of a path after its
last slash: what the small runs need of the platform. -/
def Platform.sample : Platform where
  print := JsonText.toStdString (fun _ => "")
  getFullName file := String.ofList (file.toList.reverse.takeWhile (· ≠ '/')).reverse

/-- A response to the request with number `seq`. -/
def reply (command : String) (seq : Int32) (body : CJson) : CJson :=
  (AnyResponse.emptyAckResponse { command := command, request_seq := seq }).toJson.add "body" body

/-- The handshake of a session: the request, and the answer with some features. -/
def handshake (features : CJson) : List (Step κ) :=
  [.call (.sendInitialize none) .all, .message (reply "initialize" 1 features)]

theorem Session.trans {platform : Platform} {start middle last : Client κ} {earlier later : History κ}
    (first : Session platform start earlier middle) (second : Session platform middle later last) :
    Session platform start (earlier ++ later) last := by
  induction second with
  | start => simpa using first
  | next _ inside ih =>
    rw [← List.append_assoc]
    exact ih.next inside

theorem Session.of_run {platform : Platform} {client : Client κ} {steps : List (Step κ)}
    (inside : ∀ step ∈ steps, step.Inside) :
    Session platform client (client.run platform steps).1 (client.run platform steps).2 := by
  induction steps generalizing client with
  | nil => exact .start
  | cons step steps ih =>
    have first : Session platform client [(step, (client.step platform step).2)] _ :=
      Session.start.next (inside step List.mem_cons_self)
    exact first.trans (ih (fun other member => inside other (List.mem_cons_of_mem _ member)))

namespace History

def outputs (history : History κ) : List (Output κ) := history.flatMap Prod.snd

/-- The requests sent so far. -/
def requests (history : History κ) : List AnyRequest := history.outputs.filterMap Output.request

/-- The requests attached to the events so far. -/
def attached (history : History κ) : List AnyRequest := history.outputs.filterMap Output.originating

@[simp] theorem requests_append (history later : History κ) :
    requests (history ++ later) = history.requests ++ later.requests := by
  simp [requests, outputs]

@[simp] theorem attached_append (history later : History κ) :
    attached (history ++ later) = history.attached ++ later.attached := by
  simp [attached, outputs]

theorem requests_singleton (entry : Step κ × List (Output κ)) :
    requests [entry] = entry.2.filterMap Output.request := by
  simp [requests, outputs]

theorem attached_singleton (entry : Step κ × List (Output κ)) :
    attached [entry] = entry.2.filterMap Output.originating := by
  simp [attached, outputs]

end History

/-- A step that neither makes a request nor dispatches a response. -/
structure Quiet (client client' : Client κ) (out : List (Output κ)) : Prop where
  sequence : client.requestSequence ≤ client'.requestSequence
  transport : client'.transport = client.transport
  inFlight : client'.inFlightRequests = client.inFlightRequests
  filepaths : client'.requestIdToFilepath = client.requestIdToFilepath
  queue : ∀ kind, client'.queue kind = client.queue kind
  output : ∀ o ∈ out, o.request = none ∧ o.originating = none ∧ o.tag = none
  unlocated : ∀ type object request filepath, .dapEvent type (.response object) request ∈ out →
    object.filepath ≠ some filepath

/-- Everything that a step of a session can do. -/
theorem Client.step_effect (platform : Platform) {client : Client κ} {step : Step κ}
    (connected : client.transport.isSome) (inside : step.Inside) :
    (∃ call outcome request, step = .call call outcome ∧
      Requested platform client call outcome request (client.step platform step).1
        (client.step platform step).2) ∨
    (∃ json response out, step = .message json ∧ client.handshakeState = .kCompleted ∧
      readResponse json = some response ∧
      (client.step platform step).2 = client.incomingLog json ++ out ∧
      Responded client response (client.step platform step).1 out) ∨
    (Quiet client (client.step platform step).1 (client.step platform step).2 ∧
      ∀ json response, step = .message json → readResponse json = some response →
        client.handshakeState ≠ .kCompleted) := by
  cases step with
  | call call outcome =>
    rcases client.call_effect connected inside call with ⟨request, made⟩ | other
    · exact Or.inl ⟨call, outcome, request, rfl, made⟩
    · refine Or.inr (Or.inr ⟨⟨other.sequence, other.transport, other.inFlight, other.filepaths,
        other.queue, other.output, ?_⟩, by simp⟩)
      exact other.unlocated
  | message json =>
    by_cases completed : client.handshakeState = .kCompleted
    · cases read : readResponse json with
      | some response =>
        obtain ⟨out, shown, responded⟩ := client.onMessage_response completed read
        exact Or.inr (Or.inl ⟨json, response, out, rfl, completed, read, shown, responded⟩)
      | none =>
        have ignored := client.onMessage_ignored (Or.inr read)
        refine Or.inr (Or.inr ⟨⟨ignored.sequence.ge, ignored.transport, ignored.inFlight,
          ignored.filepaths, ignored.queue, ignored.output, ignored.unlocated⟩, ?_⟩)
        intro other response same found
        cases same
        rw [read] at found
        cases found
    · have ignored : Ignored client (client.onMessage json).1 _ := client.onMessage_ignored (Or.inl completed)
      exact Or.inr (Or.inr ⟨⟨ignored.sequence.ge, ignored.transport, ignored.inFlight,
        ignored.filepaths, ignored.queue, ignored.output, ignored.unlocated⟩,
        fun _ _ _ _ => completed⟩)

theorem Client.step_sequence (platform : Platform) {client : Client κ} {step : Step κ}
    (connected : client.transport.isSome) (inside : step.Inside) :
    client.requestSequence ≤ (client.step platform step).1.requestSequence := by
  rcases client.step_effect platform connected inside with ⟨_, _, _, _, made⟩ | ⟨_, _, _, _, _, _, _, responded⟩ | quiet
  · rw [made.sequence]
    omega
  · rw [responded.sequence]
  · exact quiet.1.sequence

theorem Client.step_transport {platform : Platform} {client : Client κ} {step : Step κ}
    (connected : client.transport.isSome) (inside : step.Inside) :
    (client.step platform step).1.transport = client.transport := by
  rcases client.step_effect platform connected inside with ⟨_, _, _, _, made⟩ | ⟨_, _, _, _, _, _, _, responded⟩ | quiet
  · exact made.transport
  · exact responded.transport
  · exact quiet.1.transport

section
variable {platform : Platform} {start client : Client κ} {history : History κ}

theorem Session.connected (session : Session platform start history client)
    (attached : start.transport.isSome) : client.transport.isSome := by
  induction session with
  | start => exact attached
  | next _ inside ih => rwa [Client.step_transport ih inside]

/-- The state in which any step of the session was taken. -/
theorem Session.split (session : Session platform start history client)
    (attached : start.transport.isSome) {earlier later : History κ} {step : Step κ}
    {out : List (Output κ)} (place : history = earlier ++ (step, out) :: later) :
    ∃ middle, Session platform start earlier middle ∧ step.Inside ∧
      out = (middle.step platform step).2 ∧
      (middle.step platform step).1.requestSequence ≤ client.requestSequence := by
  induction session generalizing later with
  | start => simp at place
  | @next before middle taken session inside ih =>
    rcases List.eq_nil_or_concat later with rfl | ⟨rest, last, rfl⟩
    · obtain ⟨same, entry⟩ := List.append_inj' place rfl
      obtain ⟨rfl, rfl⟩ := Prod.mk.inj (List.cons.inj entry).1
      subst same
      exact ⟨middle, session, inside, rfl, le_refl _⟩
    · rw [List.concat_eq_append, ← List.cons_append, ← List.append_assoc] at place
      obtain ⟨same, _⟩ := List.append_inj' place rfl
      obtain ⟨state, reached, stepInside, shown, bound⟩ := ih same
      exact ⟨state, reached, stepInside, shown,
        bound.trans (Client.step_sequence platform (session.connected attached) inside)⟩

/-- What happened determines the client. -/
theorem Session.unique {client' : Client κ} (session : Session platform start history client)
    (other : Session platform start history client') : client' = client := by
  have replayed {history : History κ} {client : Client κ} (session : Session platform start history client) :
      (start.run platform (history.map Prod.fst)).2 = client := by
    induction session with
    | start => rfl
    | next _ _ ih =>
      rw [List.map_append, Client.run_append, ih]
      rfl
  exact (replayed other).symm.trans (replayed session)

end

/-- The sequence numbers of the requests are those that were handed out. -/
structure Numbered (history : History κ) (client : Client κ) : Prop where
  range : ∀ request ∈ history.requests, ∃ n, n ≤ client.requestSequence ∧
    request.base.seq = Int32.ofNat n
  distinct : (history.requests.map (·.base.seq)).Nodup

theorem Requested.requests {platform : Platform} {client client' : Client κ} {call : ApiCall κ}
    {outcome : SendOutcome} {request : AnyRequest} {out : List (Output κ)}
    (made : Requested platform client call outcome request client' out) :
    out.filterMap Output.request = [request] ∧ out.filterMap Output.originating = [] ∧
      out.filterMap Output.tag = [] := by
  rw [made.output, sendOutput]
  split <;> exact ⟨rfl, rfl, rfl⟩

theorem Client.incomingLog_silent (client : Client κ) (json : CJson) :
    (client.incomingLog json).filterMap Output.request = [] ∧
      (client.incomingLog json).filterMap Output.originating = [] ∧
      (client.incomingLog json).filterMap Output.tag = [] := by
  unfold incomingLog
  split <;> simp [Output.request, Output.originating, Output.tag]

theorem Responded.no_requests {client client' : Client κ} {response : Response} {out : List (Output κ)}
    (responded : Responded client response client' out) (json : CJson) :
    (client.incomingLog json ++ out).filterMap Output.request = [] := by
  rw [List.filterMap_append, (client.incomingLog_silent json).1, List.nil_append,
    List.filterMap_eq_nil_iff]
  exact responded.requests

/-- Only the branches that look the request up attach one. -/
theorem Responded.originating {client client' : Client κ} {response : Response} {out : List (Output κ)}
    (responded : Responded client response client' out) (json : CJson) :
    (client.incomingLog json ++ out).filterMap Output.originating =
      if response.command ∈ attachingCommands then
        (client.inFlightRequests.find response.request_seq).toList else [] := by
  rw [List.filterMap_append, (client.incomingLog_silent json).2.1, List.nil_append]
  split
  · rename_i attaching
    obtain ⟨type, object, shown, _⟩ := responded.attached attaching
    rw [shown]
    cases client.inFlightRequests.find response.request_seq <;> rfl
  · rename_i other
    rw [List.filterMap_eq_nil_iff]
    intro o member
    cases o with
    | dapEvent type object request => exact absurd rfl (responded.unattached other _ member type object request)
    | _ => rfl

theorem Quiet.silent {client client' : Client κ} {out : List (Output κ)} (quiet : Quiet client client' out) :
    out.filterMap Output.request = [] ∧ out.filterMap Output.originating = [] ∧
      out.filterMap Output.tag = [] := by
  simp only [List.filterMap_eq_nil_iff]
  exact ⟨fun o member => (quiet.output o member).1, fun o member => (quiet.output o member).2.1,
    fun o member => (quiet.output o member).2.2⟩

/-- The next number is not that of an earlier request. -/
theorem Numbered.fresh {history : History κ} {client : Client κ} (numbered : Numbered history client)
    (few : client.requestSequence + 1 < 2 ^ 31) {request : AnyRequest} (member : request ∈ history.requests) :
    request.base.seq ≠ Int32.ofNat (client.requestSequence + 1) := by
  intro same
  obtain ⟨n, bound, seq⟩ := numbered.range request member
  have clash := Int32.ofNat_injective (by omega) few (seq.symm.trans same)
  omega

theorem Numbered.next {platform : Platform} {history : History κ} {client : Client κ} {step : Step κ}
    (numbered : Numbered history client) (connected : client.transport.isSome) (inside : step.Inside)
    (few : (client.step platform step).1.requestSequence < 2 ^ 31) :
    Numbered (history ++ [(step, (client.step platform step).2)]) (client.step platform step).1 := by
  have grows : client.requestSequence ≤ (client.step platform step).1.requestSequence :=
    Client.step_sequence platform connected inside
  have same (silent : (client.step platform step).2.filterMap Output.request = []) :
      Numbered (history ++ [(step, (client.step platform step).2)]) (client.step platform step).1 := by
    constructor
    · intro request member
      rw [History.requests_append, History.requests_singleton, silent, List.append_nil] at member
      obtain ⟨n, bound, seq⟩ := numbered.range request member
      exact ⟨n, bound.trans grows, seq⟩
    · rw [History.requests_append, History.requests_singleton, silent, List.append_nil]
      exact numbered.distinct
  rcases client.step_effect platform connected inside with
    ⟨call, outcome, request, _, made⟩ | ⟨json, response, out, _, _, _, shown, responded⟩ | quiet
  · have sent : History.requests (history ++ [(step, (client.step platform step).2)]) =
        history.requests ++ [request] := by
      rw [History.requests_append, History.requests_singleton, made.requests.1]
    constructor
    · intro other member
      rw [sent, List.mem_append, List.mem_singleton] at member
      rcases member with old | rfl
      · obtain ⟨n, bound, seq⟩ := numbered.range other old
        exact ⟨n, bound.trans grows, seq⟩
      · exact ⟨client.requestSequence + 1, made.sequence.ge, made.seq⟩
    · rw [sent, List.map_append, List.map_singleton]
      refine List.Nodup.append numbered.distinct (List.nodup_singleton _) ?_
      rw [List.disjoint_singleton]
      intro member
      obtain ⟨other, old, equal⟩ := List.mem_map.mp member
      rw [made.sequence] at few
      exact numbered.fresh few old (equal.trans made.seq)
  · exact same (by rw [shown]; exact responded.no_requests json)
  · exact same quiet.1.silent.1

theorem Session.numbered {platform : Platform} {start client : Client κ} {history : History κ}
    (session : Session platform start history client) (attached : start.transport.isSome)
    (few : client.requestSequence < 2 ^ 31) : Numbered history client := by
  induction session with
  | start => exact ⟨by simp [History.requests, History.outputs], by simp [History.requests, History.outputs]⟩
  | next session inside ih =>
    have connected := session.connected attached
    have grows := Client.step_sequence platform connected inside
    exact (ih (by omega)).next connected inside few

end

end WxDap
