import WxDap.Codec.Written
import WxDap.EndToEnd.Agreement

namespace WxDap
open JsonParse (Pow)

/-! ### The length of a text -/

namespace JsonText
variable (printDouble : Rat → String)

theorem size_le_commas {entries : List String} {entry : String} (member : entry ∈ entries) :
    entry.utf8ByteSize ≤ (commas entries).utf8ByteSize := by
  fun_induction commas entries with
  | case1 => cases member
  | case2 first => rw [List.mem_singleton.mp member]
  | case3 first rest _ ih =>
    rw [String.utf8ByteSize_append, String.utf8ByteSize_append]
    rcases List.mem_cons.mp member with rfl | later
    · omega
    · have inside := ih later
      omega

theorem length_le_commas (entries : List String) : entries.length ≤ (commas entries).utf8ByteSize + 1 := by
  have comma : ",".utf8ByteSize = 1 := by decide
  fun_induction commas entries with
  | case1 => exact Nat.zero_le _
  | case2 entry => exact Nat.le_add_left 1 _
  | case3 entry rest _ ih =>
    rw [String.utf8ByteSize_append, String.utf8ByteSize_append, comma, List.length_cons]
    omega

/-- The text of a member is part of the text of the object. -/
theorem size_get {json item : CJson} {index : String} (found : Json.get (some json) index = some item) :
    (printValue printDouble item).utf8ByteSize ≤ (printValue printDouble json).utf8ByteSize := by
  cases json with
  | object child =>
    have inside (members : List (String × CJson)) (found : members.lookup index = some item) :
        ∃ entry ∈ printMembers printDouble members,
          (printValue printDouble item).utf8ByteSize ≤ entry.utf8ByteSize := by
      induction members with
      | nil => cases found
      | cons member members ih =>
        obtain ⟨name, value⟩ := member
        rw [printMembers]
        rw [List.lookup_cons] at found
        split at found
        · obtain rfl := Option.some.inj found
          refine ⟨_, List.mem_cons_self, ?_⟩
          rw [String.utf8ByteSize_append]
          omega
        · obtain ⟨entry, member, size⟩ := ih found
          exact ⟨entry, List.mem_cons_of_mem _ member, size⟩
    obtain ⟨entry, member, size⟩ := inside child found
    have part := size_le_commas member
    rw [printValue, String.utf8ByteSize_append, String.utf8ByteSize_append]
    omega
  | _ => cases found

theorem length_le_size (child : List CJson) : child.length ≤ (printValue printDouble (.array child)).utf8ByteSize := by
  have entries : (printItems printDouble child).length = child.length := by
    induction child with
    | nil => rfl
    | cons item child ih => rw [printItems, List.length_cons, ih, List.length_cons]
  have part := length_le_commas (printItems printDouble child)
  have bracket : "[".utf8ByteSize = 1 := by decide
  rw [printValue, String.utf8ByteSize_append, String.utf8ByteSize_append, bracket]
  omega

end JsonText

/-- The vector that `From` counts with an `int` is part of the text. -/
theorem AnyMessage.intCount_le (printDouble : Rat → String) (message : AnyMessage) :
    message.intCount ≤ (JsonText.printValue printDouble message.toJson).utf8ByteSize := by
  have listed {α : Type} {json : CJson} {encode : α → CJson} {value : List α} (outer inner : String)
      (found : Json.get (Json.get (some json) outer) inner = some (CJson.arrayOf encode value)) :
      value.length ≤ (JsonText.printValue printDouble json).utf8ByteSize := by
    cases body : Json.get (some json) outer with
    | none => rw [body] at found; cases found
    | some body' =>
      rw [body] at found
      have part := JsonText.length_le_size printDouble (value.map encode)
      rw [List.length_map, ← CJson.arrayOf_eq] at part
      exact (part.trans (JsonText.size_get printDouble found)).trans (JsonText.size_get printDouble body)
  cases message with
  | request m =>
    cases m with
    | setBreakpointsRequest m =>
      refine @listed _ _ SourceBreakpoint.toJson _ "arguments" "breakpoints" ?_
      simp only [toJson, AnyRequest.toJson, ArgumentsRequest.toJson, SetBreakpointsArguments.toJson]
      rfl
    | setFunctionBreakpointsRequest m =>
      refine @listed _ _ FunctionBreakpoint.toJson _ "arguments" "breakpoints" ?_
      simp only [toJson, AnyRequest.toJson, ArgumentsRequest.toJson, SetFunctionBreakpointsArguments.toJson]
      rfl
    | _ => exact Nat.zero_le _
  | response m =>
    cases m with
    | setBreakpointsResponse m => exact listed "body" "breakpoints" (m.toResponse.get_listBody _ _ _)
    | setFunctionBreakpointsResponse m => exact listed "body" "breakpoints" (m.toResponse.get_listBody _ _ _)
    | threadsResponse m => exact listed "body" "threads" (m.toResponse.get_listBody _ _ _)
    | _ => exact Nat.zero_le _
  | event m => exact Nat.zero_le _

/-! ### The system with cJSON -/

/-- The text of cJSON, and any part of a path for its name. -/
def Platform.cJson (printDouble : Rat → String) (getFullName : String → String) : Platform where
  print := JsonText.toStdString printDouble
  getFullName := getFullName

/-- The length of the text of a message, however its doubles are printed. -/
def AnyMessage.textLength (message : AnyMessage) : Nat := (Client.toString Platform.sample message).length

/-- A message for whose text cJSON can count the bytes of every buffer. -/
def AnyMessage.Short (message : AnyMessage) : Prop := message.textLength < 2 ^ 29

/-- No message depends on how a double with a fraction is printed. -/
theorem toString_cJson (printDouble : Rat → String) (getFullName : String → String) (message : AnyMessage) :
    Client.toString (Platform.cJson printDouble getFullName) message = Client.toString Platform.sample message := by
  have first := JsonCodec.render_node printDouble message.toJson message.written_toJson 0
  have second := JsonCodec.render_node (fun _ => "") message.toJson message.written_toJson 0
  rw [first] at second
  change JsonText.toStdString printDouble message.toJson = JsonText.toStdString (fun _ => "") message.toJson
  rw [JsonText.toStdString, JsonText.toStdString, JsonCodec.toUTF8_toList, JsonCodec.toUTF8_toList]
  exact second

theorem AnyMessage.Short.intCount_lt {message : AnyMessage} (short : message.Short) : message.intCount < 2 ^ 31 := by
  have count := message.intCount_le (fun _ => "")
  rw [AnyMessage.Short, AnyMessage.textLength, Client.toString, Platform.sample, JsonText.length_toStdString] at short
  omega

section
variable {κ : Type} {pow : Pow} {printDouble : Rat → String} {getFullName : String → String}

theorem parse_nil : JsonParse.parse pow [] = .error (.failed []) := rfl

/-- cJSON reads back the text that it prints for any message. -/
theorem readable {message : AnyMessage} (short : message.Short) :
    Readable (JsonCodec.parse pow) (Platform.cJson printDouble getFullName) message := by
  have same := toString_cJson printDouble getFullName message
  have length : (Client.toString Platform.sample message).length < 2 ^ 29 := short
  have read := JsonCodec.parse_toStdString_written printDouble pow message.written_toJson (by rwa [← same] at length)
  have nonempty : Client.toString (Platform.cJson printDouble getFullName) message ≠ [] := by
    intro empty
    change JsonText.toStdString printDouble message.toJson = [] at empty
    rw [empty, JsonCodec.parse, parse_nil] at read
    cases JsonCodec.ofUtf8 [] <;> cases read
  refine ⟨⟨message, ⟨_, List.length_pos_iff.mpr nonempty, ?_⟩, rfl, read⟩, rfl⟩
  have digits : (Decimal.numeral (Client.toString Platform.sample message).length).length ≤ 19 :=
    Decimal.numeral_length_le (by decide) (length.trans (by decide))
  have header : (Decimal.ascii "Content-Length: ").length = 16 := by decide
  rw [same, JsonRPC.networkBuffer_eq, List.length_append, List.length_append, JsonRPC.sendHeader,
    List.length_append, header, JsonRPC.separator]
  simp only [List.length_cons, List.length_nil]
  omega

/-- The request of a client that calls `Initialize` without arguments. -/
def initializeRequest : AnyRequest :=
  .initializeRequest
    { seq := 1, command := "initialize", arguments := { clientID := "wxdap", clientName := "wxdap" } }

theorem short_first : ∀ message ∈ AnyMessage.request initializeRequest :: handshakeMessages, message.Short := by
  unfold AnyMessage.Short
  decide +kernel

end

end WxDap
