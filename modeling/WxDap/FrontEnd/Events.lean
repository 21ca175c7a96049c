import WxDap.Client.Callbacks
import WxDap.Client.Debuggee
import WxDap.EndToEnd.Dispatch
import WxDap.FrontEnd.MainFrame

namespace WxDap

/-- An object of the class that an event of this type is fired with. -/
def EventType.Carries (type : EventType) (object : AnyMessage) : Prop :=
  object.eventType = some type ∨
  match type with
  | .PROCESS_EVENT => ∃ event, object = .event event
  | .BREAKPOINT_LOCATIONS_RESPONSE => ∃ response, object = .response response
  | .RUN_IN_TERMINAL_REQUEST => ∃ request, object = .request request
  | _ => False

/-- An event of this type is among the outputs. -/
def Fired {κ : Type} (out : List (Output κ)) (type : EventType) : Prop :=
  ∃ object request, .dapEvent type object request ∈ out

section
variable {κ : Type}

/-- What a message can do to a client: at most one event or callback comes of it, and before
the handshake is completed only the event that completes it. -/
inductive Handled (client : Client κ) : Client κ × List (Output κ) → Prop
  | silent {client' : Client κ} : client'.handshakeState = client.handshakeState →
      (client'.canInteract = true → client.canInteract = true) → Handled client (client', [])
  | callback {client' : Client κ} {o : Output κ} : o.isCallback = true →
      client'.handshakeState = client.handshakeState → client'.canInteract = client.canInteract →
      Handled client (client', [o])
  | fires {client' : Client κ} {type : EventType} {object : AnyMessage} {request : Option AnyRequest} :
      type.Carries object → client'.handshakeState = .kCompleted →
      (client.handshakeState = .kCompleted ∨ type = .INITIALIZE_RESPONSE) →
      (client'.canInteract = true → client.canInteract = true ∨
        (client.handshakeState = .kCompleted ∧ type = .STOPPED_EVENT)) →
      Handled client (client', [.dapEvent type object request])

theorem Handled.ite {client : Client κ} {condition : Prop} [Decidable condition]
    {first second : Client κ × List (Output κ)} (left : Handled client first) (right : Handled client second) :
    Handled client (if condition then first else second) := by
  split
  · exact left
  · exact right

theorem Handled.refl (client : Client κ) : Handled client (client, []) := .silent rfl id

namespace Client
variable {client ready : Client κ} {response : Response} {json : CJson}

theorem sendDAPResponse_handled (completed : client.handshakeState = .kCompleted)
    (same : ready.handshakeState = client.handshakeState ∧ ready.canInteract = client.canInteract)
    {type : EventType} {object : AnyResponse} (carries : type.Carries (.response (object.fromJson (some json)))) :
    Handled client (ready.sendDAPResponse type object json response) := by
  rw [sendDAPResponse_eq]
  exact .fires carries (same.1.trans completed) (Or.inl completed)
    (fun interacts => Or.inl (same.2 ▸ interacts))

theorem onResponse_handled (completed : client.handshakeState = .kCompleted) :
    Handled client (client.onResponse response json) := by
  have fires {type : EventType} {object : AnyResponse}
      (carries : type.Carries (.response (object.fromJson (some json)))) :
      Handled client (client.sendDAPResponse type object json response) :=
    sendDAPResponse_handled completed ⟨rfl, rfl⟩ carries
  refine .ite ?_ (.ite ?_ (.ite ?_ (.ite (.silent rfl (by simp)) (.ite ?_ (.ite (fires (Or.inl rfl)) (.ite ?_ ?_))))))
  · simp only [onStackTrace]
    refine sendDAPResponse_handled completed ?_ ?_
    · split <;> exact ⟨rfl, rfl⟩
    · split <;> exact Or.inl rfl
  · simp only [onScopes]
    refine sendDAPResponse_handled completed ?_ ?_
    · split <;> exact ⟨rfl, rfl⟩
    · split <;> exact Or.inl rfl
  · simp only [onVariables]
    refine sendDAPResponse_handled completed ?_ ?_
    · split <;> exact ⟨rfl, rfl⟩
    · split <;> exact Or.inl rfl
  · simp only [onBreakpointLocations]
    refine sendDAPResponse_handled completed ?_ ?_
    · split <;> exact ⟨rfl, rfl⟩
    · split <;> exact Or.inr ⟨_, rfl⟩
  · simp only [onSetBreakpoints]
    refine sendDAPResponse_handled completed ?_ ?_
    · split <;> exact ⟨rfl, rfl⟩
    · split <;> exact Or.inl rfl
  refine .ite (fires (Or.inl rfl)) (.ite (fires (Or.inl rfl)) (.ite (fires (Or.inl rfl)) ?_))
  refine .ite ?_ (.ite ?_ (.refl client))
  · simp only [handleSourceResponse]
    split
    · exact .refl client
    · exact .callback rfl rfl rfl
  · simp only [handleEvaluateResponse]
    split
    · exact .refl client
    · exact .callback rfl rfl rfl

theorem sendDAPEvent_handled (completed : client.handshakeState = .kCompleted)
    (handshake : ready.handshakeState = client.handshakeState) {type : EventType}
    (interact : ready.canInteract = true → client.canInteract = true ∨ type = .STOPPED_EVENT) {object : AnyMessage}
    (carries : type.Carries (object.fromJson (some json))) :
    Handled client (ready.sendDAPEvent type object json none) := by
  obtain ⟨threadId, result⟩ := ready.sendDAPEvent_eq type object json none
  rw [result]
  exact .fires carries (handshake.trans completed) (Or.inl completed)
    (fun interacts => (interact interacts).imp_right (fun stopped => ⟨completed, stopped⟩))

theorem onEvent_handled (completed : client.handshakeState = .kCompleted) (event : AnyEvent) :
    Handled client (client.onEvent event json) := by
  have fires {type : EventType} {object : AnyMessage} (carries : type.Carries (object.fromJson (some json))) :
      Handled client (client.sendDAPEvent type object json none) :=
    sendDAPEvent_handled completed rfl Or.inl carries
  unfold onEvent
  refine .ite ?_ (.ite (fires (Or.inr ⟨_, rfl⟩)) ?_)
  · exact @sendDAPEvent_handled _ _ { client with canInteract := true } _ completed rfl _ (fun _ => Or.inr rfl) _
      (Or.inl rfl)
  iterate 5 refine .ite (fires (Or.inl rfl)) ?_
  refine .ite ?_ (.ite (fires (Or.inl rfl)) (.refl client))
  exact @sendDAPEvent_handled _ _ { client with canInteract := false } _ completed rfl _ (by simp) _ (Or.inl rfl)

theorem handle_handled (client : Client κ) (json : CJson) : Handled client (client.handle json) := by
  unfold handle
  split
  · unfold onHandshake
    split
    · refine .ite ?_ (.refl client)
      obtain ⟨threadId, result⟩ := Client.sendDAPEvent_eq
        (enableFeatures { client with handshakeState := .kCompleted } (Json.get (some json) "body"))
        .INITIALIZE_RESPONSE (.response ResponseClass.initializeResponse.new) json none
      dsimp only
      rw [result]
      have unmoved := enableFeatures_unmoved { client with handshakeState := .kCompleted } (Json.get (some json) "body")
      refine .fires (Or.inl rfl) ?_ (Or.inr rfl) (fun interacts => Or.inl (unmoved.interact ▸ interacts))
      exact enableFeatures_handshake _ _
    · exact .refl client
  · rename_i completed
    have completed := not_not.mp completed
    unfold dispatch
    split
    · exact .refl client
    split
    · exact onEvent_handled completed _
    · exact onResponse_handled completed
    · unfold onRequest
      exact .ite (sendDAPEvent_handled completed rfl Or.inl (Or.inr ⟨_, rfl⟩)) (.refl client)
    · exact .refl client

end Client

end

end WxDap
