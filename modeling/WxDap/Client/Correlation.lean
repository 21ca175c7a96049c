import WxDap.Client.Session

namespace WxDap

section
variable {κ : Type}

/-- What is in flight was sent in this session and has not been attached yet. -/
structure Pending (history : History κ) (client : Client κ) : Prop where
  sent : ∀ seq request, client.inFlightRequests.find seq = some request →
    request ∈ history.requests ∧ request.base.seq = seq
  fresh : ∀ seq request, client.inFlightRequests.find seq = some request →
    seq ∉ history.attached.map (·.base.seq)
  made : ∀ request ∈ history.attached, request ∈ history.requests
  once : (history.attached.map (·.base.seq)).Nodup

/-- A response to a breakpoint locations request. -/
def Locates (out : List (Output κ)) (seq : Int32) : Prop :=
  ∃ type object originating filepath, .dapEvent type (.response object) originating ∈ out ∧
    object.base.request_seq = seq ∧ object.filepath = some filepath

/-- A `BreakpointLocations(filepath, ..)` call whose request got the number `seq`, with no
breakpoint locations response to that number since. -/
def Awaits (history : History κ) (seq : Int32) (filepath : String) : Prop :=
  ∃ earlier later startLine endLine outcome out request,
    history = earlier ++ (.call (.breakpointLocations filepath startLine endLine) outcome, out) :: later ∧
    .sendRequest request true ∈ out ∧ request.base.seq = seq ∧ ∀ entry ∈ later, ¬ Locates entry.2 seq

theorem Awaits.requested {history : History κ} {seq : Int32} {filepath : String}
    (awaits : Awaits history seq filepath) : ∃ request ∈ history.requests, request.base.seq = seq := by
  obtain ⟨earlier, later, _, _, _, out, request, place, sent, number, _⟩ := awaits
  refine ⟨request, ?_, number⟩
  rw [place, History.requests_append, List.mem_append]
  right
  exact List.mem_filterMap.mpr ⟨_, List.mem_flatMap.mpr ⟨_, List.mem_cons_self, sent⟩, rfl⟩

/-- One more step either is the call itself or must not answer it. -/
theorem awaits_append_iff {history : History κ} {entry : Step κ × List (Output κ)} {seq : Int32}
    {filepath : String} :
    Awaits (history ++ [entry]) seq filepath ↔
      (∃ startLine endLine outcome request,
        entry.1 = .call (.breakpointLocations filepath startLine endLine) outcome ∧
        .sendRequest request true ∈ entry.2 ∧ request.base.seq = seq) ∨
      (Awaits history seq filepath ∧ ¬ Locates entry.2 seq) := by
  constructor
  · rintro ⟨earlier, later, startLine, endLine, outcome, out, request, place, sent, number, silent⟩
    rcases List.eq_nil_or_concat later with rfl | ⟨rest, last, rfl⟩
    · obtain ⟨_, same⟩ := List.append_inj' place rfl
      left
      rw [(List.cons.inj same).1]
      exact ⟨startLine, endLine, outcome, request, rfl, sent, number⟩
    · rw [List.concat_eq_append, ← List.cons_append, ← List.append_assoc] at place
      obtain ⟨same, final⟩ := List.append_inj' place rfl
      have equal := (List.cons.inj final).1
      subst equal
      right
      refine ⟨⟨earlier, rest, startLine, endLine, outcome, out, request, same, sent, number, ?_⟩, ?_⟩
      · exact fun other member => silent other (by simp [member])
      · exact silent entry (by simp)
  · rintro (⟨startLine, endLine, outcome, request, call, sent, number⟩ | ⟨awaits, silent⟩)
    · obtain ⟨step, out⟩ := entry
      simp only at call
      subst call
      exact ⟨history, [], startLine, endLine, outcome, out, request, rfl, sent, number, by simp⟩
    · obtain ⟨earlier, later, startLine, endLine, outcome, out, request, place, sent, number, quiet⟩ := awaits
      refine ⟨earlier, later ++ [entry], startLine, endLine, outcome, out, request, by simp [place], sent,
        number, ?_⟩
      intro other member
      rcases List.mem_append.mp member with old | new
      · exact quiet other old
      · rw [List.mem_singleton.mp new]
        exact silent

/-- The map of file paths holds exactly the awaited ones. -/
def Located (history : History κ) (client : Client κ) : Prop :=
  ∀ seq filepath, client.requestIdToFilepath.find seq = some filepath ↔ Awaits history seq filepath

section
variable {platform : Platform} {history : History κ} {client : Client κ} {step : Step κ}

/-- What a step adds to the requests sent and to those attached decides `Pending`. -/
theorem Pending.of_outputs {client' : Client κ} {out : List (Output κ)} {sent attached : List AnyRequest}
    (pending : Pending history client) (made : out.filterMap Output.request = sent)
    (shown : out.filterMap Output.originating = attached)
    (kept : ∀ seq request, client'.inFlightRequests.find seq = some request →
      client.inFlightRequests.find seq = some request ∧ seq ∉ attached.map (·.base.seq) ∨
        request ∈ sent ∧ request.base.seq = seq ∧ attached = [] ∧ seq ∉ history.attached.map (·.base.seq))
    (taken : attached = [] ∨ ∃ request, attached = [request] ∧
      client.inFlightRequests.find request.base.seq = some request) :
    Pending (history ++ [(step, out)]) client' := by
  have requests : History.requests (history ++ [(step, out)]) = history.requests ++ sent := by
    rw [History.requests_append, History.requests_singleton, made]
  have events : History.attached (history ++ [(step, out)]) = history.attached ++ attached := by
    rw [History.attached_append, History.attached_singleton, shown]
  refine ⟨?_, ?_, ?_, ?_⟩
  · intro seq request found
    rw [requests, List.mem_append]
    rcases kept seq request found with ⟨old, _⟩ | ⟨new, number, _⟩
    · exact ⟨Or.inl (pending.sent seq request old).1, (pending.sent seq request old).2⟩
    · exact ⟨Or.inr new, number⟩
  · intro seq request found
    rw [events, List.map_append, List.mem_append, not_or]
    rcases kept seq request found with ⟨old, other⟩ | ⟨_, _, none, other⟩
    · exact ⟨pending.fresh seq request old, other⟩
    · exact ⟨other, by simp [none]⟩
  · intro request member
    rw [events, List.mem_append] at member
    rw [requests, List.mem_append]
    rcases member with old | new
    · exact Or.inl (pending.made request old)
    · rcases taken with none | ⟨other, single, found⟩
      · simp [none] at new
      · rw [single, List.mem_singleton] at new
        subst new
        exact Or.inl (pending.sent _ _ found).1
  · rw [events, List.map_append]
    rcases taken with none | ⟨request, single, found⟩
    · simpa [none] using pending.once
    · rw [single, List.map_singleton]
      exact List.Nodup.append pending.once (List.nodup_singleton _)
        (List.disjoint_singleton.mpr (pending.fresh _ _ found))

theorem Pending.next (pending : Pending history client) (numbered : Numbered history client)
    (connected : client.transport.isSome) (inside : step.Inside)
    (few : (client.step platform step).1.requestSequence < 2 ^ 31) :
    Pending (history ++ [(step, (client.step platform step).2)]) (client.step platform step).1 := by
  rcases client.step_effect platform connected inside with
    ⟨call, outcome, request, _, made⟩ | ⟨json, response, out, _, _, _, shown, responded⟩ | ⟨quiet, _⟩
  · rw [made.sequence] at few
    have absent : client.inFlightRequests.find request.base.seq = none := by
      rw [Option.eq_none_iff_forall_ne_some]
      intro other found
      obtain ⟨old, number⟩ := pending.sent _ _ found
      exact numbered.fresh few old (number.trans made.seq)
    refine pending.of_outputs made.requests.1 made.requests.2.1 ?_ (Or.inl rfl)
    intro seq other found
    rw [made.inFlight] at found
    by_cases same : seq = request.base.seq
    · rw [same, UnorderedMap.find_insert_self absent] at found
      cases found
      refine Or.inr ⟨List.mem_singleton_self _, same.symm, rfl, ?_⟩
      intro member
      obtain ⟨old, attached, number⟩ := List.mem_map.mp member
      exact numbered.fresh few (pending.made old attached) (number.trans (same.trans made.seq))
    · rw [UnorderedMap.find_insert_of_ne same] at found
      exact Or.inl ⟨found, by simp⟩
  · rw [shown]
    refine pending.of_outputs (responded.no_requests json) (responded.originating json) ?_ ?_
    · intro seq request found
      rw [responded.inFlight] at found
      split at found
      · rename_i attaching
        rw [if_pos attaching]
        by_cases same : seq = response.request_seq
        · rw [same, UnorderedMap.find_erase_self] at found
          cases found
        · rw [UnorderedMap.find_erase_of_ne same] at found
          refine Or.inl ⟨found, ?_⟩
          intro member
          obtain ⟨other, inside, number⟩ := List.mem_map.mp member
          rw [Option.mem_toList] at inside
          exact same (number.symm.trans (pending.sent _ _ inside).2)
      · rename_i other
        rw [if_neg other]
        exact Or.inl ⟨found, by simp⟩
    · split
      · cases found : client.inFlightRequests.find response.request_seq with
        | none => exact Or.inl rfl
        | some request =>
          refine Or.inr ⟨request, rfl, ?_⟩
          rw [(pending.sent _ _ found).2, found]
      · exact Or.inl rfl
  · refine pending.of_outputs quiet.silent.1 quiet.silent.2.1 ?_ (Or.inl rfl)
    intro seq request found
    rw [quiet.inFlight] at found
    exact Or.inl ⟨found, by simp⟩

theorem Requested.sent_iff {client' : Client κ} {call : ApiCall κ} {outcome : SendOutcome}
    {request other : AnyRequest} {out : List (Output κ)}
    (made : Requested platform client call outcome request client' out) :
    .sendRequest other true ∈ out ↔ other = request := by
  have single := made.requests.1
  constructor
  · intro member
    have inside : other ∈ out.filterMap Output.request := List.mem_filterMap.mpr ⟨_, member, rfl⟩
    rwa [single, List.mem_singleton] at inside
  · rintro rfl
    rw [made.output, sendOutput]
    simp

theorem Requested.not_locates {client' : Client κ} {call : ApiCall κ} {outcome : SendOutcome}
    {request : AnyRequest} {out : List (Output κ)}
    (made : Requested platform client call outcome request client' out) (seq : Int32) : ¬ Locates out seq := by
  rintro ⟨type, object, originating, filepath, member, _⟩
  rw [made.output, sendOutput] at member
  split at member <;> simp at member

theorem Responded.locates_iff {client' : Client κ} {response : Response} {out : List (Output κ)}
    (responded : Responded client response client' out) (json : CJson) (seq : Int32) :
    Locates (client.incomingLog json ++ out) seq ↔
      response.command = "breakpointLocations" ∧ response.request_seq = seq := by
  constructor
  · rintro ⟨type, object, originating, filepath, member, number, path⟩
    have shown := (List.mem_append.mp member).resolve_left (fun logged => by
      cases Client.eq_of_mem_incomingLog logged)
    have attaching : response.command ∈ attachingCommands := by
      by_contra other
      exact responded.unattached other _ shown _ _ _ rfl
    obtain ⟨_, start, single, base, located⟩ := responded.attached attaching
    rw [single, List.mem_singleton, Output.dapEvent.injEq, AnyMessage.response.injEq] at shown
    rw [shown.2.1] at number path
    rw [base] at number
    refine ⟨?_, number⟩
    by_contra other
    rw [located, if_neg other] at path
    cases path
  · rintro ⟨command, number⟩
    obtain ⟨type, object, single, base, located⟩ :=
      responded.attached (by simp [command, attachingCommands])
    rw [if_pos command] at located
    have last : .dapEvent type (.response object) (client.inFlightRequests.find response.request_seq) ∈ out := by
      rw [single]
      exact List.mem_singleton_self _
    exact ⟨type, object, _, _, List.mem_append_right _ last, by rw [base, number], located⟩

theorem Located.next (located : Located history client) (numbered : Numbered history client)
    (connected : client.transport.isSome) (inside : step.Inside)
    (few : (client.step platform step).1.requestSequence < 2 ^ 31) :
    Located (history ++ [(step, (client.step platform step).2)]) (client.step platform step).1 := by
  intro seq filepath
  rw [awaits_append_iff]
  rcases client.step_effect platform connected inside with
    ⟨call, outcome, request, rfl, made⟩ | ⟨json, response, out, rfl, _, _, shown, responded⟩ | ⟨quiet, _⟩
  · rw [made.sequence] at few
    have fresh (path : String) : ¬ Awaits history request.base.seq path := by
      intro awaits
      obtain ⟨old, member, number⟩ := awaits.requested
      exact numbered.fresh few member (number.trans made.seq)
    have absent : client.requestIdToFilepath.find request.base.seq = none := by
      rw [Option.eq_none_iff_forall_ne_some]
      exact fun path found => fresh path ((located _ _).mp found)
    simp only [made.sent_iff, made.not_locates seq, not_false_eq_true, and_true, Step.call.injEq]
    by_cases locations : ∃ path startLine endLine, call = .breakpointLocations path startLine endLine
    · obtain ⟨path, startLine, endLine, rfl⟩ := locations
      have stored := made.filepaths
      simp only at stored
      rw [stored]
      by_cases same : seq = request.base.seq
      · subst same
        rw [UnorderedMap.find_insert_self absent]
        simp [fresh, eq_comm]
      · rw [UnorderedMap.find_insert_of_ne same, located seq filepath]
        constructor
        · exact Or.inr
        · rintro (⟨_, _, _, other, _, rfl, number⟩ | awaits)
          · exact absurd number.symm same
          · exact awaits
    · have stored : (client.step platform (.call call outcome)).1.requestIdToFilepath =
          client.requestIdToFilepath := by
        have paths := made.filepaths
        cases call <;> first | exact paths | exact absurd ⟨_, _, _, rfl⟩ locations
      rw [stored, located seq filepath]
      constructor
      · exact Or.inr
      · rintro (⟨startLine, endLine, _, _, ⟨same, _⟩, _⟩ | awaits)
        · exact absurd ⟨_, _, _, same⟩ locations
        · exact awaits
  · have stored := responded.filepaths
    simp only [shown, responded.locates_iff, reduceCtorEq, false_and, exists_false, false_or]
    rw [stored]
    by_cases command : response.command = "breakpointLocations"
    · rw [if_pos command]
      by_cases same : seq = response.request_seq
      · subst same
        simp [command]
      · rw [UnorderedMap.find_erase_of_ne same, located seq filepath]
        simp [Ne.symm same]
    · rw [if_neg command, located seq filepath]
      simp [command]
  · have silent : ¬ Locates (client.step platform step).2 seq := by
      rintro ⟨type, object, originating, path, member, _, found⟩
      exact quiet.unlocated _ _ _ _ member found
    rw [quiet.filepaths, located seq filepath]
    constructor
    · exact fun awaits => Or.inr ⟨awaits, silent⟩
    · rintro (⟨_, _, _, request, _, sent, _⟩ | awaits)
      · cases (quiet.output _ sent).1
      · exact awaits.1

end

section
variable {platform : Platform} {start client : Client κ} {history : History κ}

theorem Session.pending (session : Session platform start history client)
    (attached : start.transport.isSome) (new : start.inFlightRequests = .empty)
    (few : client.requestSequence < 2 ^ 31) : Pending history client := by
  induction session with
  | start => constructor <;> simp [new, History.attached, History.outputs]
  | next session inside ih =>
    have connected := session.connected attached
    have grows := Client.step_sequence platform connected inside
    exact (ih (by omega)).next (session.numbered attached (by omega)) connected inside few

theorem Session.located (session : Session platform start history client)
    (attached : start.transport.isSome) (new : start.requestIdToFilepath = .empty)
    (few : client.requestSequence < 2 ^ 31) : Located history client := by
  induction session with
  | start =>
    intro seq filepath
    simp [new, Awaits]
  | next session inside ih =>
    have connected := session.connected attached
    have grows := Client.step_sequence platform connected inside
    exact (ih (by omega)).next (session.numbered attached (by omega)) connected inside few

/-- The call that awaits a response made a request for its own file path. -/
theorem Session.awaited (session : Session platform start history client)
    (attached : start.transport.isSome) {seq : Int32} {filepath : String}
    (awaits : Awaits history seq filepath) :
    ∃ m, .breakpointLocationsRequest m ∈ history.requests ∧ m.seq = seq ∧
      m.arguments.source.path = filepath := by
  obtain ⟨earlier, later, startLine, endLine, outcome, out, request, place, sent, number, _⟩ := awaits
  obtain ⟨middle, reached, inside, shown, _⟩ := session.split attached place
  have connected := reached.connected attached
  rw [shown] at sent
  rcases middle.step_effect platform connected inside with
    ⟨call, _, made, same, requested⟩ | ⟨_, _, _, same, _⟩ | ⟨quiet, _⟩
  · cases same
    obtain ⟨m, kind, path⟩ := requested.locations _ _ _ rfl
    have equal := requested.sent_iff.mp sent
    subst equal kind
    refine ⟨m, ?_, number, path⟩
    rw [place, shown, History.requests_append, List.mem_append]
    right
    exact List.mem_filterMap.mpr ⟨_, List.mem_flatMap.mpr ⟨_, List.mem_cons_self, sent⟩, rfl⟩
  · cases same
  · cases (quiet.output _ sent).1

end

/-- What a session shows about the origin of its responses. -/
structure Correlated (history : History κ) : Prop where
  /-- no two requests have the same number -/
  distinct : (history.requests.map (·.base.seq)).Nodup
  /-- an attached request is the one request with the number that the response names -/
  originating : ∀ (earlier : History κ) step out later, history = earlier ++ (step, out) :: later →
    ∀ type object request, .dapEvent type object (some request) ∈ out →
      ∃ response, object = .response response ∧ request.base.seq = response.base.request_seq ∧
        request ∈ earlier.requests ∧
        ∀ other ∈ history.requests, other.base.seq = response.base.request_seq → other = request
  /-- no request is attached twice -/
  once : (history.attached.map (·.base.seq)).Nodup
  /-- the first response to an awaited number carries the file path of the call -/
  awaited : ∀ earlier step out later, history = earlier ++ (step, out) :: later →
    ∀ type m originating, .dapEvent type (.response (.breakpointLocationsResponse m)) originating ∈ out →
      ∀ filepath, Awaits earlier m.request_seq filepath → m.filepath = filepath ∧
        ∀ request, originating = some request →
          ∃ q, request = .breakpointLocationsRequest q ∧ q.arguments.source.path = filepath
  /-- every other one carries none -/
  unawaited : ∀ earlier step out later, history = earlier ++ (step, out) :: later →
    ∀ type m originating, .dapEvent type (.response (.breakpointLocationsResponse m)) originating ∈ out →
      (∀ filepath, ¬ Awaits earlier m.request_seq filepath) → m.filepath = ""

/-- An event with a response shows what the two maps held for its number. -/
theorem Client.step_event {platform : Platform} {client : Client κ} {step : Step κ}
    (connected : client.transport.isSome) (inside : step.Inside) {type : EventType} {object : AnyMessage}
    {originating : Option AnyRequest} (shown : .dapEvent type object originating ∈ (client.step platform step).2) :
    originating = none ∧ (∀ response, object = .response response → response.filepath = none) ∨
      ∃ response, object = .response response ∧
        originating = client.inFlightRequests.find response.base.request_seq ∧
        ∀ m, response = .breakpointLocationsResponse m →
          m.filepath = (client.requestIdToFilepath.find m.request_seq).getD "" := by
  rcases client.step_effect platform connected inside with
    ⟨_, _, _, _, made⟩ | ⟨json, response, out, _, _, _, output, responded⟩ | ⟨quiet, _⟩
  · rw [made.output, sendOutput] at shown
    split at shown <;> simp at shown
  · rw [output, List.mem_append] at shown
    have event : .dapEvent type object originating ∈ out := by
      refine shown.resolve_left (fun logged => ?_)
      cases eq_of_mem_incomingLog logged
    have attaching : response.command ∈ attachingCommands := by
      by_contra other
      exact responded.unattached other _ event _ _ _ rfl
    obtain ⟨_, found, single, base, located⟩ := responded.attached attaching
    rw [single, List.mem_singleton, Output.dapEvent.injEq] at event
    refine Or.inr ⟨found, event.2.1, by rw [base, event.2.2], ?_⟩
    rintro m rfl
    have number : m.request_seq = response.request_seq := congrArg Response.request_seq base
    simp only [AnyResponse.filepath] at located
    split at located
    · rw [number, Option.some.inj located]
    · cases located
  · refine Or.inl ⟨(quiet.output _ shown).2.1, ?_⟩
    rintro response rfl
    rw [Option.eq_none_iff_forall_ne_some]
    exact fun filepath => quiet.unlocated _ _ _ _ shown

/-- Correlation by sequence number is exact in every run of a session. -/
theorem correlation {platform : Platform} {before client : Client κ} {transport : Nat}
    {history : History κ}
    (session : Session platform (before.setTransport (some transport)) history client)
    (few : client.requestSequence < 2 ^ 31) : Correlated history := by
  have attached : (before.setTransport (some transport)).transport.isSome := by
    rw [Client.setTransport_eq]
    rfl
  have pending := session.pending attached (by rw [Client.setTransport_eq]) few
  have numbered := session.numbered attached few
  -- the invariants in the state in which the step was taken
  have place {earlier later : History κ} {step : Step κ} {out : List (Output κ)}
      (split : history = earlier ++ (step, out) :: later) :
      ∃ middle : Client κ, Pending earlier middle ∧ Located earlier middle ∧
        middle.transport.isSome ∧ step.Inside ∧ out = (middle.step platform step).2 ∧
        Session platform (before.setTransport (some transport)) earlier middle := by
    obtain ⟨middle, reached, inside, shown, bound⟩ := session.split attached split
    have connected := reached.connected attached
    have grows := Client.step_sequence platform connected inside
    exact ⟨middle, reached.pending attached (by rw [Client.setTransport_eq]) (by omega),
      reached.located attached (by rw [Client.setTransport_eq]) (by omega), connected, inside, shown, reached⟩
  have unique {request other : AnyRequest} (member : request ∈ history.requests)
      (second : other ∈ history.requests) (same : other.base.seq = request.base.seq) : other = request :=
    List.inj_on_of_nodup_map numbered.distinct second member same
  refine ⟨numbered.distinct, ?_, pending.once, ?_, ?_⟩
  · intro earlier step out later split type object request event
    obtain ⟨middle, held, _, connected, inside, shown, _⟩ := place split
    rw [shown] at event
    rcases Client.step_event connected inside event with ⟨none, _⟩ | ⟨response, same, found, _⟩
    · cases none
    · obtain ⟨sent, number⟩ := held.sent _ _ found.symm
      refine ⟨response, same, number, sent, fun other member equal => ?_⟩
      have inHistory : request ∈ history.requests := by
        rw [split, History.requests_append, List.mem_append]
        exact Or.inl sent
      exact unique inHistory member (equal.trans number.symm)
  · intro earlier step out later split type m originating event filepath awaits
    obtain ⟨middle, held, located, connected, inside, shown, reached⟩ := place split
    rw [shown] at event
    have found := (located _ _).mpr awaits
    rcases Client.step_event connected inside event with ⟨_, unlocated⟩ | ⟨response, same, kept, path⟩
    · have absent := unlocated _ rfl
      cases absent
    · cases same
      refine ⟨by rw [path m rfl, found, Option.getD_some], fun request equal => ?_⟩
      rw [kept] at equal
      obtain ⟨sent, number⟩ := held.sent _ _ equal
      obtain ⟨q, asked, numbered', stored⟩ := reached.awaited attached awaits
      refine ⟨q, ?_, stored⟩
      have whole {r : AnyRequest} (member : r ∈ History.requests earlier) : r ∈ history.requests := by
        rw [split, History.requests_append, List.mem_append]
        exact Or.inl member
      exact unique (whole asked) (whole sent) (number.trans numbered'.symm)
  · intro earlier step out later split type m originating event unawaited
    obtain ⟨middle, _, located, connected, inside, shown, _⟩ := place split
    rw [shown] at event
    have absent : middle.requestIdToFilepath.find m.request_seq = none := by
      rw [Option.eq_none_iff_forall_ne_some]
      exact fun filepath found => unawaited filepath ((located _ _).mp found)
    rcases Client.step_event connected inside event with ⟨_, unlocated⟩ | ⟨response, same, _, path⟩
    · have missing := unlocated _ rfl
      cases missing
    · cases same
      rw [path m rfl, absent, Option.getD_none]

/-- A file is asked for and answered after a handshake. -/
def locationsRun : History Unit × Client Unit :=
  (({} : Client Unit).setTransport (some 0)).run .sample
    (handshake (CJson.createObject.addBool "supportsBreakpointLocationsRequest" true) ++
      [.call (.breakpointLocations "/src/main.c" 1 9) .all,
        .message (reply "breakpointLocations" 2 CJson.createObject)])

theorem correlation_locationsRun :
    locationsRun.1.attached.map (·.base.seq) = [2] ∧ Correlated locationsRun.1 :=
  ⟨by decide +kernel, correlation (Session.of_run (by simp [handshake, Step.Inside])) (by decide +kernel)⟩

end

end WxDap
