import WxDap.Client.Api
import WxDap.Client.Threads

namespace WxDap

/-- A handler of the user that the client is waiting for, with what it does next. -/
inductive Handler (κ : Type)
  /-- the log event of a message; the rest of `OnMessage` comes next -/
  | received (json : CJson)
  /-- the event or the callback with which `OnMessage` ends -/
  | fired
  /-- the log event of a request; then it is in flight and its method goes on -/
  | sent (call : ApiCall κ) (request : AnyRequest)
  /-- the log event of a response of the user -/
  | responded
  /-- the lost connection; `Reset` comes next, and then the method whose send failed -/
  | lost (failed : Option (ApiCall κ × AnyRequest))

/-- The main thread: the client and the handlers that run inside it, innermost first.
Whatever runs, be it the event loop or a handler, can use the client. -/
structure MainThread (κ : Type) where
  client : Client κ := {}
  handlers : List (Handler κ) := []

inductive Turn (κ : Type)
  /-- `OnMessage`, from any loop of `ProcessBuffer` -/
  | message (json : CJson)
  | call (call : ApiCall κ) (outcome : SendOutcome)
  | reset
  | setTransport (transport : Option Nat)
  | connectionError
  /-- the innermost handler returns -/
  | returns

namespace MainThread
variable {κ : Type} (platform : Platform)

/-- `OnMessage` after the log event. -/
def handle (main : MainThread κ) (json : CJson) (below : List (Handler κ)) :
    MainThread κ × List (Output κ) :=
  let (client, out) := main.client.handle json
  ({ client := client, handlers := if out.isEmpty then below else .fired :: below }, out)

def message (main : MainThread κ) (json : CJson) : MainThread κ × List (Output κ) :=
  if main.client.wantsLogEvents then
    ({ main with handlers := .received json :: main.handlers }, [.logEvent "<-- " json])
  else main.handle json main.handlers

/-- The end of `SendRequest` and of the method that called it. -/
def complete (call : ApiCall κ) (request : AnyRequest) (client : Client κ) : Client κ :=
  call.finish request.base.seq
    { client with inFlightRequests := client.inFlightRequests.insert request.base.seq request }

/-- `SendRequest` up to the handler that it runs, if it runs one. -/
def send (main : MainThread κ) (call : ApiCall κ) (ready : Client κ) (request : AnyRequest)
    (outcome : SendOutcome) : MainThread κ × List (Output κ) :=
  match ready.rpcSend platform (.request request) outcome with
  | some sent =>
    if ready.wantsLogEvents then
      ({ client := ready, handlers := .sent call request :: main.handlers },
        sent ++ [.logEvent "--> " request.toJson])
    else ({ main with client := complete call request ready }, sent ++ [.sendRequest request true])
  | none => ({ client := ready, handlers := .lost (some (call, request)) :: main.handlers }, [.lostConnection])

/-- `SendResponse` in the same way. -/
def respond (main : MainThread κ) (response : AnyResponse) (outcome : SendOutcome) :
    MainThread κ × List (Output κ) :=
  match main.client.rpcSend platform (.response response) outcome with
  | some sent =>
    if main.client.wantsLogEvents then
      ({ main with handlers := .responded :: main.handlers }, sent ++ [.logEvent "--> " response.toJson])
    else (main, sent)
  | none => ({ main with handlers := .lost none :: main.handlers }, [.lostConnection])

def call (main : MainThread κ) (call : ApiCall κ) (outcome : SendOutcome) : MainThread κ × List (Output κ) :=
  match call.prepare platform main.client, call with
  | some (ready, request), call => main.send platform call ready request outcome
  | none, .sendResponse response => main.respond platform response outcome
  | none, call => ({ main with client := (call.direct platform main.client outcome).1 }, [])

/-- What follows a handler. -/
def resume (main : MainThread κ) (below : List (Handler κ)) : Handler κ → MainThread κ × List (Output κ)
  | .received json => main.handle json below
  | .fired | .responded => ({ main with handlers := below }, [])
  | .sent call request =>
    ({ client := complete call request main.client, handlers := below }, [.sendRequest request true])
  | .lost none => ({ client := main.client.reset, handlers := below }, [])
  | .lost (some (call, request)) =>
    ({ client := call.finish request.base.seq main.client.reset, handlers := below },
      [.sendRequest request false])

def step : Machine (MainThread κ) (Turn κ) (List (Output κ)) := fun main turn =>
  match turn with
  | .message json => some (main.message json)
  | .call call outcome => some (main.call platform call outcome)
  | .reset => some ({ main with client := main.client.reset }, [])
  | .setTransport transport => some ({ main with client := main.client.setTransport transport }, [])
  | .connectionError =>
    some ({ main with handlers := .lost none :: main.handlers }, [.lostConnection])
  | .returns =>
    match main.handlers with
    | [] => none
    | handler :: below => some (main.resume below handler)

/-- The message whose processing goes on after the log event in a step. -/
def processed (transition : Machine.Transition (MainThread κ) (Turn κ) (List (Output κ))) : Option CJson :=
  match transition.action, transition.before.handlers with
  | .message json, _ => if transition.before.client.wantsLogEvents then none else some json
  | .returns, .received json :: _ => some json
  | _, _ => none

/-- The innermost handlers return one after the other until `last` is reached. -/
inductive Settles (last : MainThread κ) : MainThread κ → List (Output κ) → Prop
  | done : Settles last last []
  | returns {client : Client κ} {handler : Handler κ} {below : List (Handler κ)} {out : List (Output κ)} :
      Settles last (resume ⟨client, handler :: below⟩ below handler).1 out →
      Settles last ⟨client, handler :: below⟩ ((resume ⟨client, handler :: below⟩ below handler).2 ++ out)

theorem Settles.of_resume {client : Client κ} {handler : Handler κ} {below : List (Handler κ)}
    {last : MainThread κ} {out : List (Output κ)}
    (resumed : resume ⟨client, handler :: below⟩ below handler = (last, out)) :
    Settles last ⟨client, handler :: below⟩ out := by
  have returned : Settles last (resume ⟨client, handler :: below⟩ below handler).1 [] := by
    rw [resumed]
    exact .done
  simpa only [resumed, List.append_nil] using returned.returns

theorem handle_settles (main : MainThread κ) (json : CJson) (below : List (Handler κ)) :
    Settles ⟨(main.client.handle json).1, below⟩ (main.handle json below).1 [] := by
  simp only [handle]
  split
  · exact .done
  · exact .of_resume rfl

/-- Where no handler calls back, `OnMessage` does what it does in one go. -/
theorem message_settles (main : MainThread κ) (json : CJson) :
    ∃ out, Settles { main with client := (main.client.onMessage json).1 } (main.message json).1 out ∧
      (main.message json).2 ++ out = (main.client.onMessage json).2 := by
  unfold message
  split
  · rename_i wants
    refine ⟨(main.client.handle json).2 ++ [], .returns ?_, ?_⟩
    · exact handle_settles _ json main.handlers
    · simp [Client.onMessage, Client.handle, wants]
  · rename_i quiet
    refine ⟨[], handle_settles main json main.handlers, ?_⟩
    simp [Client.onMessage, Client.handle, handle, quiet]

/-- The same for a call. -/
theorem call_settles (main : MainThread κ) (call : ApiCall κ) (outcome : SendOutcome) :
    ∃ out, Settles { main with client := (main.client.call platform call outcome).1 }
        (main.call platform call outcome).1 out ∧
      (main.call platform call outcome).2 ++ out = (main.client.call platform call outcome).2 := by
  cases prepared : call.prepare platform main.client with
  | some entry =>
    obtain ⟨ready, request⟩ := entry
    rw [Client.call_of_prepare prepared]
    simp only [MainThread.call, prepared, send, Client.send, Client.sendRequest]
    cases ready.rpcSend platform (.request request) outcome with
    | none =>
      refine ⟨[.sendRequest request false], .of_resume rfl, rfl⟩
    | some sent =>
      by_cases wants : ready.wantsLogEvents = true
      · simp only [if_pos wants]
        exact ⟨[.sendRequest request true], .of_resume rfl, rfl⟩
      · simp only [if_neg wants, List.append_nil]
        exact ⟨[], .done, List.append_nil _⟩
  | none =>
    rw [Client.call_of_direct prepared]
    cases call with
    | sendResponse response =>
      simp only [MainThread.call, prepared, respond, ApiCall.direct, Client.sendResponse]
      cases main.client.rpcSend platform (.response response) outcome with
      | none => exact ⟨[], .of_resume rfl, rfl⟩
      | some sent =>
        by_cases wants : main.client.wantsLogEvents = true
        · simp only [if_pos wants]
          exact ⟨[], .of_resume rfl, List.append_nil _⟩
        · simp only [if_neg wants, List.append_nil]
          exact ⟨[], .done, List.append_nil _⟩
    | _ =>
      simp only [MainThread.call, prepared]
      exact ⟨[], .done, rfl⟩

end MainThread

end WxDap
