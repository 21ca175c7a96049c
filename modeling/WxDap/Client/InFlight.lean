import WxDap.Client.Session

namespace WxDap

/-- What the messages of a session add up to: whether the handshake is complete,
each response processed so far with a flag that its branch took the request out of
the map, and the responses that came after the handshake. -/
structure Ledger where
  completed : Bool := false
  answers : List (Response × Bool) := []
  dispatched : List Response := []

section
variable {κ : Type}

/-- A response takes its request out when it comes after the handshake and has one of
the commands that are dispatched with their request. -/
def Ledger.record (ledger : Ledger) : Step κ → Ledger
  | .call (.sendInitialize _) _ => { ledger with completed := false }
  | .call _ _ => ledger
  | .message json =>
    match readResponse json with
    | none => ledger
    | some response =>
      { completed := ledger.completed || response.command = "initialize"
        answers := ledger.answers ++
          [(response, ledger.completed && (attachingCommands.contains response.command))]
        dispatched := if ledger.completed then ledger.dispatched ++ [response] else ledger.dispatched }

def History.ledger (history : History κ) : Ledger :=
  history.foldl (fun ledger entry => ledger.record entry.1) {}

theorem History.ledger_append (history : History κ) (entry : Step κ × List (Output κ)) :
    ledger (history ++ [entry]) = history.ledger.record entry.1 := by
  simp [ledger]

/-- A response that the server may send now: it answers an earlier request with its
command, and that request was not answered before. -/
def Answers (earlier : History κ) : Step κ → Prop
  | .call _ _ => True
  | .message json =>
    match readResponse json with
    | none => True
    | some response =>
      (∃ request ∈ earlier.requests, request.base.seq = response.request_seq ∧
        request.base.command = response.command) ∧
      ∀ answer ∈ earlier.ledger.answers, answer.1.request_seq ≠ response.request_seq

instance (earlier : History κ) (step : Step κ) : Decidable (Answers earlier step) :=
  match step with
  | .call _ _ => .isTrue trivial
  | .message json =>
    match read : readResponse json with
    | none => .isTrue (by simp [Answers, read])
    | some response => decidable_of_iff
        ((∃ request ∈ earlier.requests, request.base.seq = response.request_seq ∧
          request.base.command = response.command) ∧
        ∀ answer ∈ earlier.ledger.answers, answer.1.request_seq ≠ response.request_seq)
        (by simp [Answers, read])

/-- The server answers each request at most once, in any order. -/
def Answering (history : History κ) : Prop :=
  ∀ (earlier : History κ) step out later, history = earlier ++ (step, out) :: later → Answers earlier step

theorem Answering.of_append {history rest : History κ} (answering : Answering (history ++ rest)) :
    Answering history := by
  intro earlier step out later place
  exact answering earlier step out (later ++ rest) (by simp [place])

theorem Answering.last {history : History κ} {json : CJson} {out : List (Output κ)} {response : Response}
    (answering : Answering (history ++ [(.message json, out)])) (read : readResponse json = some response) :
    (∃ request ∈ history.requests, request.base.seq = response.request_seq ∧
      request.base.command = response.command) ∧
    ∀ answer ∈ history.ledger.answers, answer.1.request_seq ≠ response.request_seq := by
  have now := answering history (.message json) out [] rfl
  simpa only [Answers, read] using now

/-- `Answering`, one step after the other. -/
def answersAll (earlier : History κ) : History κ → Bool
  | [] => true
  | entry :: later => decide (Answers earlier entry.1) && answersAll (earlier ++ [entry]) later

theorem answering_of_answersAll {history : History κ} (all : answersAll [] history = true) :
    Answering history := by
  have scan (start history : History κ) (all : answersAll start history = true) :
      ∀ (earlier : History κ) step out later, history = earlier ++ (step, out) :: later →
        Answers (start ++ earlier) step := by
    induction history generalizing start with
    | nil => simp
    | cons entry rest ih =>
      simp only [answersAll, Bool.and_eq_true, decide_eq_true_eq] at all
      intro earlier step out later place
      cases earlier with
      | nil =>
        cases place
        simpa using all.1
      | cons first earlier =>
        obtain ⟨rfl, same⟩ := List.cons.inj place
        have found := ih (start ++ [entry]) all.2 earlier step out later same
        simpa using found
  exact fun earlier step out later place => scan [] history all earlier step out later place

/-- The map holds exactly the requests whose response has not been processed. -/
def Exact (history : History κ) (client : Client κ) : Prop :=
  ∀ seq request, client.inFlightRequests.find seq = some request ↔
    request ∈ history.requests ∧ request.base.seq = seq ∧
      ∀ answer ∈ history.ledger.answers, answer.1.request_seq ≠ seq

/-- What the map really holds: a request leaves it with a response that is dispatched with it, and
stays with any other response. -/
structure Booked (history : History κ) (client : Client κ) : Prop where
  handshake : client.handshakeState = .kCompleted ↔ history.ledger.completed = true
  inFlight : ∀ seq request, client.inFlightRequests.find seq = some request ↔
    request ∈ history.requests ∧ request.base.seq = seq ∧
      ∀ answer ∈ history.ledger.answers, answer.1.request_seq = seq → answer.2 = false
  asked : ∀ answer ∈ history.ledger.answers, ∃ request ∈ history.requests,
    request.base.seq = answer.1.request_seq ∧ request.base.command = answer.1.command
  once : (history.ledger.answers.map (·.1.request_seq)).Nodup

section
variable {platform : Platform} {history : History κ} {client : Client κ} {step : Step κ}

theorem Client.step_handshake (platform : Platform) (connected : client.transport.isSome) (inside : step.Inside)
    {ledger : Ledger} (agree : client.handshakeState = .kCompleted ↔ ledger.completed = true) :
    (client.step platform step).1.handshakeState = .kCompleted ↔ (ledger.record step).completed = true := by
  cases step with
  | call call outcome =>
    have kept (plain : ∀ initArgs, call ≠ .sendInitialize initArgs) :
        (client.call platform call outcome).1.handshakeState = client.handshakeState := by
      rcases client.call_effect connected inside call with ⟨request, made⟩ | other
      · rw [made.handshake]
        cases call <;> first | rfl | exact absurd rfl (plain _)
      · exact other.handshake
    by_cases initial : ∃ initArgs, call = .sendInitialize initArgs
    · obtain ⟨initArgs, rfl⟩ := initial
      simp [step, Client.call, ApiCall.prepare, ApiCall.finish, Ledger.record]
    · have plain : ∀ initArgs, call ≠ .sendInitialize initArgs := fun initArgs same => initial ⟨initArgs, same⟩
      simp only [step, kept plain, agree]
      cases call <;> first | rfl | exact absurd rfl (plain _)
  | message json =>
    by_cases completed : client.handshakeState = .kCompleted
    · have marked := agree.mp completed
      cases read : readResponse json with
      | some response =>
        obtain ⟨out, _, responded⟩ := client.onMessage_response completed read
        simp [step, responded.handshake, completed, Ledger.record, read, marked]
      | none =>
        have ignored := client.onMessage_ignored (Or.inr read)
        simp [step, ignored.handshake completed, Ledger.record, read, marked]
    · have unmarked : ledger.completed = false := by
        rw [← Bool.not_eq_true]
        exact fun marked => completed (agree.mpr marked)
      rw [show client.step platform (.message json) = client.onMessage json from rfl,
        client.onMessage_handshake completed]
      cases read : readResponse json with
      | some response => simp [Ledger.record, read, unmarked]
      | none => simp [Ledger.record, read, unmarked]

/-- What a step does to the book, from what it adds to the two lists. -/
theorem Booked.of_ledger {client' : Client κ} {out : List (Output κ)} {sent : List AnyRequest}
    {added : List (Response × Bool)} (booked : Booked history client)
    (handshake : client'.handshakeState = .kCompleted ↔ (history.ledger.record step).completed = true)
    (made : out.filterMap Output.request = sent)
    (recorded : (history.ledger.record step).answers = history.ledger.answers ++ added)
    (inFlight : ∀ seq request, client'.inFlightRequests.find seq = some request ↔
      (request ∈ history.requests ∨ request ∈ sent) ∧ request.base.seq = seq ∧
        (∀ answer ∈ history.ledger.answers, answer.1.request_seq = seq → answer.2 = false) ∧
        ∀ answer ∈ added, answer.1.request_seq = seq → answer.2 = false)
    (asked : ∀ answer ∈ added, ∃ request ∈ history.requests,
      request.base.seq = answer.1.request_seq ∧ request.base.command = answer.1.command)
    (once : ((history.ledger.answers ++ added).map (·.1.request_seq)).Nodup) :
    Booked (history ++ [(step, out)]) client' := by
  have requests : History.requests (history ++ [(step, out)]) = history.requests ++ sent := by
    rw [History.requests_append, History.requests_singleton, made]
  have answers : (History.ledger (history ++ [(step, out)])).answers = history.ledger.answers ++ added := by
    rw [History.ledger_append, recorded]
  refine ⟨by rw [History.ledger_append, handshake], ?_, ?_, by rw [answers]; exact once⟩
  · intro seq request
    rw [requests, answers, inFlight seq request, List.mem_append]
    simp only [List.forall_mem_append]
  · intro answer member
    rw [answers, List.mem_append] at member
    rw [requests]
    have found : ∃ request ∈ history.requests, request.base.seq = answer.1.request_seq ∧
        request.base.command = answer.1.command := by
      rcases member with old | new
      · exact booked.asked answer old
      · exact asked answer new
    obtain ⟨request, known, same⟩ := found
    exact ⟨request, List.mem_append_left _ known, same⟩

/-- The response to a request that has none answers it once. -/
theorem Booked.answer {json : CJson} {response : Response} {out : List (Output κ)} (booked : Booked history client)
    (answering : Answering (history ++ [(.message json, out)])) (read : readResponse json = some response)
    (flag : Bool) :
    (∀ answer ∈ [(response, flag)], ∃ request ∈ history.requests,
      request.base.seq = answer.1.request_seq ∧ request.base.command = answer.1.command) ∧
    ((history.ledger.answers ++ [(response, flag)]).map (·.1.request_seq)).Nodup := by
  obtain ⟨asked, new⟩ := answering.last read
  constructor
  · intro answer member
    rw [List.mem_singleton.mp member]
    exact asked
  · rw [List.map_append, List.map_singleton]
    refine List.Nodup.append booked.once (List.nodup_singleton _) (List.disjoint_singleton.mpr ?_)
    intro member
    obtain ⟨answer, old, equal⟩ := List.mem_map.mp member
    exact new answer old equal

/-- A request has a new number, so that nothing is in flight under it and no answer is for it. -/
theorem Booked.requested {call : ApiCall κ} {outcome : SendOutcome} {request : AnyRequest} {client' : Client κ}
    {out : List (Output κ)} (booked : Booked history client) (numbered : Numbered history client)
    (made : Requested platform client call outcome request client' out)
    (few : client.requestSequence + 1 < 2 ^ 31) (seq : Int32) (other : AnyRequest) :
    client'.inFlightRequests.find seq = some other ↔
      (other ∈ history.requests ∨ other ∈ [request]) ∧ other.base.seq = seq ∧
        ∀ answer ∈ history.ledger.answers, answer.1.request_seq = seq → answer.2 = false := by
  have absent : client.inFlightRequests.find request.base.seq = none := by
    rw [Option.eq_none_iff_forall_ne_some]
    intro other found
    obtain ⟨old, number, _⟩ := (booked.inFlight _ _).mp found
    exact numbered.fresh few old (number.trans made.seq)
  rw [made.inFlight]
  by_cases same : seq = request.base.seq
  · subst same
    rw [UnorderedMap.find_insert_self absent]
    constructor
    · rintro ⟨⟩
      refine ⟨Or.inr (List.mem_singleton_self _), rfl, fun answer member equal => ?_⟩
      obtain ⟨old, known, number, _⟩ := booked.asked answer member
      exact absurd ((number.trans equal).trans made.seq) (numbered.fresh few known)
    · rintro ⟨old | new, number, _⟩
      · exact absurd (number.trans made.seq) (numbered.fresh few old)
      · rw [List.mem_singleton.mp new]
  · rw [UnorderedMap.find_insert_of_ne same, booked.inFlight seq other]
    constructor
    · rintro ⟨known, number, unanswered⟩
      exact ⟨Or.inl known, number, unanswered⟩
    · rintro ⟨old | new, number, unanswered⟩
      · exact ⟨old, number, unanswered⟩
      · rw [List.mem_singleton.mp new] at number
        exact absurd number.symm same

/-- A response that is dispatched takes its request out of the book, if its handler does so. -/
theorem Booked.responded {response : Response} {client' : Client κ} {out : List (Output κ)}
    (booked : Booked history client) (responded : Responded client response client' out) (seq : Int32)
    (request : AnyRequest) :
    client'.inFlightRequests.find seq = some request ↔
      request ∈ history.requests ∧ request.base.seq = seq ∧
        (∀ answer ∈ history.ledger.answers, answer.1.request_seq = seq → answer.2 = false) ∧
        (response.request_seq = seq → response.command ∉ attachingCommands) := by
  rw [responded.inFlight]
  by_cases attaching : response.command ∈ attachingCommands
  · rw [if_pos attaching]
    by_cases same : seq = response.request_seq
    · subst same
      simp [attaching]
    · rw [UnorderedMap.find_erase_of_ne same, booked.inFlight seq request]
      simp [Ne.symm same]
  · rw [if_neg attaching, booked.inFlight seq request]
    simp [attaching]

theorem Ledger.record_response (ledger : Ledger) {json : CJson} {response : Response}
    (read : readResponse json = some response) :
    (ledger.record (.message json : Step κ)).answers =
      ledger.answers ++ [(response, ledger.completed && attachingCommands.contains response.command)] := by
  simp [record, read]

theorem Ledger.record_other (ledger : Ledger)
    (other : ∀ json response, step = .message json → readResponse json ≠ some response) :
    (ledger.record step).answers = ledger.answers ++ [] := by
  rw [List.append_nil]
  cases step with
  | call call _ => cases call <;> rfl
  | message json =>
    cases read : readResponse json with
    | some response => exact absurd read (other json response rfl)
    | none => simp [record, read]

theorem Booked.next (booked : Booked history client) (numbered : Numbered history client)
    (connected : client.transport.isSome) (inside : step.Inside)
    (few : (client.step platform step).1.requestSequence < 2 ^ 31)
    (answering : Answering (history ++ [(step, (client.step platform step).2)])) :
    Booked (history ++ [(step, (client.step platform step).2)]) (client.step platform step).1 := by
  have handshake := Client.step_handshake platform connected inside booked.handshake
  rcases client.step_effect platform connected inside with
    ⟨call, outcome, request, rfl, made⟩ | ⟨json, response, out, rfl, completed, read, shown, responded⟩ |
    ⟨quiet, unfinished⟩
  · rw [made.sequence] at few
    refine booked.of_ledger handshake made.requests.1 (Ledger.record_other _ (by simp)) ?_ (by simp)
      (by simpa using booked.once)
    intro seq other
    simpa using booked.requested numbered made few seq other
  · obtain ⟨asked, once⟩ := booked.answer answering read _
    rw [shown]
    refine booked.of_ledger handshake (responded.no_requests json) (Ledger.record_response _ read) ?_ asked once
    intro seq request
    rw [booked.responded responded seq request, booked.handshake.mp completed]
    simp
  · by_cases message : ∃ json response, step = .message json ∧ readResponse json = some response
    · obtain ⟨json, response, rfl, read⟩ := message
      have unmarked : history.ledger.completed = false := by
        rw [← Bool.not_eq_true]
        exact fun marked => unfinished json response rfl read (booked.handshake.mpr marked)
      obtain ⟨asked, once⟩ := booked.answer answering read _
      refine booked.of_ledger handshake quiet.silent.1 (Ledger.record_response _ read) ?_ asked once
      intro seq request
      rw [quiet.inFlight, booked.inFlight seq request, unmarked]
      simp
    · have other : ∀ json response, step = .message json → readResponse json ≠ some response :=
        fun json response called read => message ⟨json, response, called, read⟩
      refine booked.of_ledger handshake quiet.silent.1 (Ledger.record_other _ other) ?_ (by simp)
        (by simpa using booked.once)
      intro seq request
      rw [quiet.inFlight, booked.inFlight seq request]
      simp

/-- Which requests have left the map, and which stay in it, at any time of a session. -/
theorem Session.booked {start : Client κ} (session : Session platform start history client)
    (attached : start.transport.isSome) (new : start.inFlightRequests = .empty)
    (unfinished : start.handshakeState ≠ .kCompleted) (few : client.requestSequence < 2 ^ 31)
    (answering : Answering history) : Booked history client := by
  induction session with
  | start =>
    refine ⟨by simp [unfinished, History.ledger], ?_, by simp [History.ledger], by simp [History.ledger]⟩
    simp [new, History.requests, History.outputs]
  | next session inside ih =>
    have connected := session.connected attached
    have grows := Client.step_sequence platform connected inside
    exact (ih (by omega) answering.of_append).next (session.numbered attached (by omega)) connected inside few
      answering

end

/-- A handshake is completed by a response. -/
theorem History.answered_of_completed {history : History κ} (completed : history.ledger.completed = true) :
    history.ledger.answers ≠ [] := by
  induction history using List.reverseRecOn with
  | nil => simp [ledger] at completed
  | append_singleton history entry ih =>
    rw [ledger_append] at completed ⊢
    obtain ⟨step, out⟩ := entry
    cases step with
    | call call outcome =>
      cases call with
      | sendInitialize _ => simp [Ledger.record] at completed
      | _ => exact ih completed
    | message json =>
      cases read : readResponse json with
      | none =>
        simp only [Ledger.record, read] at completed ⊢
        exact ih completed
      | some response => simp [Ledger.record, read]

/-- The first response of a session is not dispatched with its request. -/
theorem History.dispatched_iff (history : History κ) :
    (∀ answer ∈ history.ledger.answers, answer.2 = true) ↔ history.ledger.answers = [] := by
  refine ⟨fun dispatched => ?_, fun none => by simp [none]⟩
  induction history using List.reverseRecOn with
  | nil => rfl
  | append_singleton history entry ih =>
    rw [ledger_append] at dispatched ⊢
    obtain ⟨step, out⟩ := entry
    cases step with
    | call call outcome => cases call <;> exact ih dispatched
    | message json =>
      cases read : readResponse json with
      | none =>
        simp only [Ledger.record, read] at dispatched ⊢
        exact ih dispatched
      | some response =>
        rw [Ledger.record_response _ read, List.forall_mem_append] at dispatched
        have none := ih dispatched.1
        have marked := dispatched.2 _ (List.mem_singleton_self _)
        simp only [Bool.and_eq_true] at marked
        exact absurd none (answered_of_completed marked.1)

theorem Booked.exact_iff_dispatched {history : History κ} {client : Client κ} (booked : Booked history client) :
    Exact history client ↔ ∀ answer ∈ history.ledger.answers, answer.2 = true := by
  constructor
  · intro exact answer member
    by_contra swallowed
    rw [Bool.not_eq_true] at swallowed
    obtain ⟨request, known, number, _⟩ := booked.asked answer member
    have only : ∀ other ∈ history.ledger.answers, other.1.request_seq = answer.1.request_seq →
        other.2 = false := by
      intro other second same
      rw [List.inj_on_of_nodup_map booked.once second member same]
      exact swallowed
    have held := (booked.inFlight _ _).mpr ⟨known, number, only⟩
    exact ((exact _ _).mp held).2.2 answer member rfl
  · intro dispatched seq request
    rw [booked.inFlight seq request]
    refine and_congr_right (fun _ => and_congr_right (fun _ => ?_))
    constructor
    · intro swallowed answer member same
      have flag := swallowed answer member same
      rw [dispatched answer member] at flag
      cases flag
    · exact fun unanswered answer member same => absurd same (unanswered answer member)

/-- The map is exact as long as every response so far was dispatched with its request. That is as
long as there was none (`History.dispatched_iff`), so never once a handshake is complete; which
requests stay in the map is `Session.booked`. -/
theorem exact_iff {platform : Platform} {before client : Client κ} {transport : Nat} {history : History κ}
    (session : Session platform (before.setTransport (some transport)) history client)
    (few : client.requestSequence < 2 ^ 31) (answering : Answering history) :
    (Exact history client ↔ ∀ answer ∈ history.ledger.answers, answer.2 = true) ∧
      (client.handshakeState = .kCompleted → ¬ Exact history client) := by
  rw [Client.setTransport_eq] at session
  have booked := session.booked rfl rfl (by simp) few answering
  refine ⟨booked.exact_iff_dispatched, fun completed exact => ?_⟩
  have none := history.dispatched_iff.mp (booked.exact_iff_dispatched.mp exact)
  exact History.answered_of_completed (booked.handshake.mp completed) none

/-- A step over after the handshake, with its answer. -/
def nextRun : History Unit × Client Unit :=
  (({} : Client Unit).setTransport (some 0)).run .sample
    (handshake CJson.createObject ++
      [.call (.next 1 true .LINE) .all, .message (reply "next" 2 CJson.createObject)])

theorem nextRun_session : Session .sample (({} : Client Unit).setTransport (some 0)) nextRun.1 nextRun.2 :=
  Session.of_run (by simp [handshake, Step.Inside])

theorem nextRun_answering : Answering nextRun.1 :=
  answering_of_answersAll (by decide +kernel)

theorem exact_iff_nextRun :
    nextRun.2.requestSequence = 2 ∧
      (Exact nextRun.1 nextRun.2 ↔ ∀ answer ∈ nextRun.1.ledger.answers, answer.2 = true) :=
  ⟨by decide +kernel, (exact_iff nextRun_session (by decide +kernel) nextRun_answering).1⟩

/-- Both requests of the run are answered and both stay in the map. -/
theorem nextRun_not_exact :
    Answering nextRun.1 ∧ nextRun.2.handshakeState = .kCompleted ∧
      nextRun.1.ledger.answers.map (·.1.request_seq) = [1, 2] ∧
      (nextRun.2.inFlightRequests.find 1).isSome ∧ (nextRun.2.inFlightRequests.find 2).isSome ∧
      ¬ Exact nextRun.1 nextRun.2 := by
  have answers : nextRun.1.ledger.answers.map (·.1.request_seq) = [1, 2] := by decide +kernel
  have held : (nextRun.2.inFlightRequests.find 2).isSome := by decide +kernel
  refine ⟨nextRun_answering, by decide +kernel, answers, by decide +kernel, held, fun exact => ?_⟩
  obtain ⟨request, found⟩ := Option.isSome_iff_exists.mp held
  have unanswered := ((exact 2 request).mp found).2.2
  have second : (2 : Int32) ∈ nextRun.1.ledger.answers.map (·.1.request_seq) := by simp [answers]
  obtain ⟨answer, member, same⟩ := List.mem_map.mp second
  exact unanswered answer member same

end

end WxDap
