import WxDap.Client.Debuggee
import WxDap.Client.InFlight

namespace WxDap

/-- The event that a message is, if it is one. -/
def readEvent (json : CJson) : Option Event :=
  ((ObjGenerator.initialized.read (some json)).bind AnyMessage.asEvent).map AnyEvent.base

/-- What a message tells about the debuggee: a stop, or that it runs again. -/
def verdict (json : CJson) : Option Bool :=
  match readEvent json, readResponse json with
  | some event, _ =>
    if event.event = "stopped" then some true else if event.event = "continued" then some false else none
  | none, some response =>
    if response.command ∈ resumingCommands ∧ response.success = true then some false else none
  | none, none => none

/-- The debugger did not accept a step or continue request. -/
def refused (json : CJson) : Bool :=
  match readEvent json, readResponse json with
  | none, some response => resumingCommands.contains response.command && !response.success
  | _, _ => false

section
variable {κ : Type}

namespace Client

/-- A refused request is taken for one that was accepted. -/
theorem dispatch_interact (client : Client κ) (json : CJson) :
    (client.dispatch json).1.canInteract =
      (verdict json).getD (!refused json && client.canInteract) := by
  unfold dispatch verdict refused readEvent readResponse
  cases ObjGenerator.initialized.read (some json) with
  | none => simp
  | some msg =>
    simp only [Option.bind_some]
    cases msg.asEvent with
    | some event =>
      simp only [Option.map_some, (onEvent_notified client event json).interact]
      by_cases stopped : event.base.event = "stopped"
      · simp [stopped]
      · by_cases continued : event.base.event = "continued" <;> simp [stopped, continued]
    | none =>
      simp only [Option.map_none]
      cases msg.asResponse with
      | some response =>
        simp only [Option.map_some, (onResponse_resumed client response.base json).interact]
        by_cases resuming : response.base.command ∈ resumingCommands
        · cases response.base.success <;> simp [resuming]
        · simp [resuming]
      | none =>
        cases msg.asRequest with
        | none => simp
        | some request => simp [(onRequest_unmoved client request json).interact]

theorem onMessage_interact (client : Client κ) (json : CJson) :
    (client.onMessage json).1.canInteract =
      if client.handshakeState = .kCompleted then
        (verdict json).getD (!refused json && client.canInteract)
      else client.canInteract := by
  by_cases completed : client.handshakeState = .kCompleted
  · rw [if_pos completed, ← dispatch_interact]
    simp [onMessage, completed]
  · rw [if_neg completed]
    simp only [onMessage, ne_eq, completed, not_false_eq_true, if_true]
    exact (onHandshake_unmoved client json).interact

end Client

/-- The messages of a step that are processed after the handshake. -/
def Ledger.hears (ledger : Ledger) : Step κ → List CJson
  | .message json => if ledger.completed then [json] else []
  | .call _ _ => []

namespace History

/-- The messages that have been processed after the handshake. -/
def handled (history : History κ) : List CJson :=
  (history.foldl (fun (past : Ledger × List CJson) entry =>
    (past.1.record entry.1, past.2 ++ past.1.hears entry.1)) ({}, [])).2

theorem handled_append (history : History κ) (entry : Step κ × List (Output κ)) :
    handled (history ++ [entry]) = history.handled ++ history.ledger.hears entry.1 := by
  have ledgers (past : Ledger × List CJson) (history : History κ) :
      (history.foldl (fun (past : Ledger × List CJson) entry =>
        (past.1.record entry.1, past.2 ++ past.1.hears entry.1)) past).1 =
        history.foldl (fun ledger entry => ledger.record entry.1) past.1 := by
    induction history generalizing past with
    | nil => rfl
    | cons first rest ih => exact ih _
  rw [handled, List.foldl_append, List.foldl_cons, List.foldl_nil, ledgers]
  rfl

/-- The most recent message about the debuggee told of a stop. -/
def stopped (history : History κ) : Bool := (history.handled.filterMap verdict).getLast? = some true

theorem stopped_append (history : History κ) (entry : Step κ × List (Output κ)) :
    stopped (history ++ [entry]) =
      (((history.ledger.hears entry.1).filterMap verdict).getLast?).getD history.stopped := by
  unfold stopped
  rw [handled_append, List.filterMap_append, List.getLast?_append]
  cases ((history.ledger.hears entry.1).filterMap verdict).getLast? with
  | none => simp
  | some b => cases b <;> simp

end History

/-- `CanInteract` follows the debuggee in every state of a session, and a refused request
does not change it. -/
def Tracks (platform : Platform) (start : Client κ) (history : History κ) : Prop :=
  (∀ (earlier later : History κ) client, history = earlier ++ later → Session platform start earlier client →
    client.canInteract = earlier.stopped) ∧
  ∀ (earlier : History κ) json out later client, history = earlier ++ (.message json, out) :: later →
    Session platform start earlier client → refused json = true →
    (client.onMessage json).1.canInteract = client.canInteract

/-- No step or continue request is refused while the debuggee is stopped. -/
def Accepted (history : History κ) : Prop :=
  ∀ (earlier : History κ) json out later, history = earlier ++ (.message json, out) :: later →
    earlier.ledger.completed = true → refused json = true → earlier.stopped = false

theorem Accepted.of_append {history rest : History κ} (accepted : Accepted (history ++ rest)) :
    Accepted history := by
  intro earlier json out later place
  exact accepted earlier json out (later ++ rest) (by simp [place])

theorem verdict_refused {json : CJson} (refuses : refused json = true) : verdict json = none := by
  unfold refused at refuses
  unfold verdict
  split at refuses
  · rename_i response event read
    simp only [Bool.and_eq_true, List.contains_eq_mem, decide_eq_true_eq, Bool.not_eq_true'] at refuses
    simp [event, read, refuses.2]
  · cases refuses

/-- What a step does to the flag. -/
theorem Client.step_interact (platform : Platform) {client : Client κ} {step : Step κ} {ledger : Ledger}
    (connected : client.transport.isSome) (inside : step.Inside)
    (handshake : client.handshakeState = .kCompleted ↔ ledger.completed = true) :
    (client.step platform step).1.canInteract =
      (((ledger.hears step).filterMap verdict).getLast?).getD
        (!((ledger.hears step).any refused) && client.canInteract) := by
  cases step with
  | call call outcome =>
    rw [Client.step, (call_called platform connected inside call).interact]
    simp [Ledger.hears]
  | message json =>
    rw [Client.step, onMessage_interact]
    by_cases completed : client.handshakeState = .kCompleted
    · rw [if_pos completed, Ledger.hears, if_pos (handshake.mp completed)]
      cases said : verdict json <;> simp [said]
    · rw [if_neg completed, Ledger.hears, if_neg (mt handshake.mpr completed)]
      simp

theorem Session.handshake {platform : Platform} {start client : Client κ} {history : History κ}
    (session : Session platform start history client) (attached : start.transport.isSome)
    (new : start.handshakeState ≠ .kCompleted) :
    client.handshakeState = .kCompleted ↔ history.ledger.completed = true := by
  induction session with
  | start => exact iff_of_false new (by simp [History.ledger])
  | next session inside ih =>
    rw [History.ledger_append]
    exact Client.step_handshake platform (session.connected attached) inside ih

/-- The flag in any state of a session whose requests are accepted. -/
theorem Session.interact {platform : Platform} {start client : Client κ} {history : History κ}
    (session : Session platform start history client) (attached : start.transport.isSome)
    (new : start.handshakeState ≠ .kCompleted) (still : start.canInteract = false)
    (accepted : Accepted history) : client.canInteract = history.stopped := by
  induction session with
  | start => rw [still]; rfl
  | @next history client step session inside ih =>
    have before := ih accepted.of_append
    have handshake := session.handshake attached new
    rw [Client.step_interact platform (session.connected attached) inside handshake, History.stopped_append]
    by_cases refuses : (history.ledger.hears step).any refused = true
    · -- a refused request: the flag is off already
      cases step with
      | call call outcome => simp [Ledger.hears] at refuses
      | message json =>
        by_cases completed : history.ledger.completed = true
        · simp only [Ledger.hears, completed, if_true, List.any_cons, List.any_nil, Bool.or_false] at refuses
          have off := accepted history json _ [] rfl completed refuses
          simp [Ledger.hears, completed, refuses, verdict_refused refuses, off]
        · simp [Ledger.hears, completed] at refuses
    · rw [Bool.not_eq_true] at refuses
      rw [refuses, before]
      rfl

/-- `CanInteract` follows the debuggee exactly if no step or continue request is refused
while it is stopped. -/
theorem tracks_iff {platform : Platform} {client last : Client κ} {transport : Nat} {history : History κ}
    (session : Session platform (client.setTransport (some transport)) history last) :
    Tracks platform (client.setTransport (some transport)) history ↔ Accepted history := by
  have attached : (client.setTransport (some transport)).transport.isSome := by simp [Client.setTransport_eq]
  have new : (client.setTransport (some transport)).handshakeState ≠ .kCompleted := by
    simp [Client.setTransport_eq]
  have still : (client.setTransport (some transport)).canInteract = false := by simp [Client.setTransport_eq]
  constructor
  · rintro ⟨tracks, unchanged⟩ earlier json out later place completed refuses
    obtain ⟨middle, reached, _, _, _⟩ := session.split attached place
    have same := unchanged earlier json out later middle place reached refuses
    have after := (reached.handshake attached new).mpr completed
    rw [Client.onMessage_interact, if_pos after, verdict_refused refuses, refuses] at same
    rw [← tracks earlier _ middle place reached, ← same]
    rfl
  · intro accepted
    refine ⟨fun earlier later middle place reached => ?_, ?_⟩
    · rw [place] at accepted
      exact reached.interact attached new still accepted.of_append
    · intro earlier json out later middle place reached refuses
      rw [place] at accepted
      have before := reached.interact attached new still accepted.of_append
      rw [Client.onMessage_interact, verdict_refused refuses]
      by_cases completed : middle.handshakeState = .kCompleted
      · have off := accepted earlier json out later rfl ((reached.handshake attached new).mp completed) refuses
        simp [refuses, before, off]
      · rw [if_neg completed]

/-- A stop and a step request, which the debugger accepts or refuses. -/
def stepRun (success : Bool) : History Unit × Client Unit :=
  (({} : Client Unit).setTransport (some 0)).run .sample
    (handshake (.object []) ++
      [.message (AnyEvent.stoppedEvent { threadId := 7 }).toJson, .call (.next 7 true .LINE) .all,
        .message (AnyResponse.nextResponse { request_seq := 2, success := success, command := "next" }).toJson])

theorem stepRun_session (success : Bool) : Session .sample (({} : Client Unit).setTransport (some 0))
    (stepRun success).1 (stepRun success).2 :=
  Session.of_run (by simp [handshake, Step.Inside])

theorem tracks_iff_stepRun : (stepRun true).1.stopped = false ∧
    (Tracks .sample (({} : Client Unit).setTransport (some 0)) (stepRun true).1 ↔ Accepted (stepRun true).1) :=
  ⟨by decide +kernel, tracks_iff (stepRun_session true)⟩

/-- The step was refused, so the debuggee is still stopped, but the flag is off. -/
theorem stepRun_not_tracks : (stepRun false).1.stopped = true ∧ (stepRun false).2.canInteract = false ∧
    ¬ Tracks .sample (({} : Client Unit).setTransport (some 0)) (stepRun false).1 := by
  have stopped : (stepRun false).1.stopped = true := by decide +kernel
  have off : (stepRun false).2.canInteract = false := by decide +kernel
  refine ⟨stopped, off, fun tracks => ?_⟩
  have same := tracks.1 (stepRun false).1 [] _ (List.append_nil _).symm (stepRun_session false)
  rw [stopped, off] at same
  cases same

end

end WxDap
