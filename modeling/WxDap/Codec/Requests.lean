import WxDap.Codec.Values

namespace WxDap

theorem Environment.insertVar_entry {vars : UnorderedMap String String} {name value : String}
    (plain : '=' ∉ name.toList) :
    Environment.insertVar vars (name ++ "=" ++ value) = vars.insert name value := by
  have start : ∀ c ∈ name.toList, decide (c ≠ '=') = true := fun c member =>
    decide_eq_true (fun same => plain (same ▸ member))
  have chars : (name ++ "=" ++ value).toList = name.toList ++ '=' :: value.toList := by simp
  have before : (name ++ "=" ++ value).toList.takeWhile (· ≠ '=') = name.toList := by
    rw [chars, List.takeWhile_append_of_pos start, List.takeWhile_cons_of_neg (by simp), List.append_nil]
  have after : (name ++ "=" ++ value).toList.dropWhile (· ≠ '=') = '=' :: value.toList := by
    rw [chars, List.dropWhile_append_of_pos start, List.dropWhile_cons_of_neg (by simp)]
  rw [insertVar, if_pos (by simp), before, after, List.drop_one, List.tail_cons, String.ofList_toList,
    String.ofList_toList]

/-- Names are distinct, so no insertion meets an entry that is already there. -/
theorem Environment.foldl_insertVar {vars : UnorderedMap String String} {rest : List (String × String)}
    (plain : ∀ var ∈ rest, '=' ∉ var.1.toList)
    (distinct : ((vars.entries ++ rest).map Prod.fst).Nodup) :
    ((rest.map (fun var => var.1 ++ "=" ++ var.2)).foldl insertVar vars).entries =
      vars.entries ++ rest := by
  induction rest generalizing vars with
  | nil => simp
  | cons var rest ih =>
    obtain ⟨name, value⟩ := var
    have fresh : name ∉ vars.entries.map Prod.fst := by
      rw [List.map_append, List.map_cons] at distinct
      exact fun inside => (List.nodup_append.mp distinct).2.2 name inside name List.mem_cons_self rfl
    have inserted : (vars.insert name value).entries = vars.entries ++ [(name, value)] := by
      simp [UnorderedMap.insert, fresh]
    rw [List.map_cons, List.foldl_cons, insertVar_entry (plain _ List.mem_cons_self),
      ih (fun var member => plain var (List.mem_cons_of_mem _ member)) (by simpa [inserted] using distinct),
      inserted, List.append_assoc, List.singleton_append]

theorem Environment.fromJson_toJson {m start : Environment} (list : m.format = .LIST)
    (free : AllNulFree m.strings) (plain : ∀ var ∈ m.vars.entries, '=' ∉ var.1.toList) :
    (start.fromJson m.toJson).vars = m.vars := by
  have freeTexts : AllNulFree (m.vars.entries.map (fun var => var.1 ++ "=" ++ var.2)) := by
    intro str member
    obtain ⟨var, inside, rfl⟩ := List.mem_map.mp member
    have freeVar := AllNulFree.of_flatMap free var inside
    simp only [AllNulFree, List.forall_mem_cons] at freeVar
    simpa [NulFree] using And.intro freeVar.1 freeVar.2.1
  have written : m.toJson = some (CJson.arrayOf CJson.createString
      (m.vars.entries.map (fun var => var.1 ++ "=" ++ var.2))) := by
    simp [toJson, list, CJson.arrayOf_eq]
  have texts : Json.readSize Json.getString (some (CJson.arrayOf CJson.createString _)) = _ :=
    Json.readSize_arrayOf (fun str member => Json.getString_createString (freeTexts str member) "")
  have array : Json.isArray m.toJson = true := by simp [toJson, list, CJson.arrayOf_eq, Json.isArray]
  rw [fromJson, if_pos array, written, texts]
  apply UnorderedMap.ext_entries
  rw [foldl_insertVar plain (by simpa [UnorderedMap.empty] using m.vars.nodup)]
  rfl

theorem Environment.toJson_dictionary {vars : UnorderedMap String String}
    (free : ∀ var ∈ vars.entries, NulFree var.1 ∧ NulFree var.2) :
    (Environment.mk .DICTIONARY vars).toJson =
      some (.object (vars.entries.map (fun var => (var.1, CJson.string var.2)))) := by
  have step (rest : List (String × String)) (freeRest : ∀ var ∈ rest, NulFree var.1 ∧ NulFree var.2)
      (child : List (String × CJson)) :
      rest.foldl (fun dict var => dict.addString (cStr var.1) var.2) (CJson.object child) =
        .object (child ++ rest.map (fun var => (var.1, CJson.string var.2))) := by
    induction rest generalizing child with
    | nil => simp
    | cons var rest ih =>
      obtain ⟨freeName, freeValue⟩ := freeRest var List.mem_cons_self
      rw [List.foldl_cons, CJson.addString, CJson.add_object, CJson.createString, cStr_of_nulFree freeName,
        cStr_of_nulFree freeValue, ih (fun var member => freeRest var (List.mem_cons_of_mem _ member))]
      simp
  simp only [toJson, CJson.createObject, step vars.entries free [], List.nil_append]

/-- Both formats stand for the map of the variables: one is read by name, the other
by `From`. `operator[]` sees a name up to its first NUL. -/
theorem Environment.formats_agree {vars : UnorderedMap String String}
    (free : ∀ var ∈ vars.entries, NulFree var.1 ∧ NulFree var.2)
    (plain : ∀ var ∈ vars.entries, '=' ∉ var.1.toList) :
    (∃ child, (Environment.mk .DICTIONARY vars).toJson = some (.object child) ∧
        child.map Prod.fst = vars.entries.map Prod.fst) ∧
      (∀ name, NulFree name →
        Json.get (Environment.mk .DICTIONARY vars).toJson name = (vars.find name).map CJson.string) ∧
      ∀ (start : Environment) (name : String),
        (start.fromJson (Environment.mk .LIST vars).toJson).vars.find name = vars.find name := by
  have dictionary := toJson_dictionary free
  have allFree : AllNulFree (Environment.mk .LIST vars).strings := by
    intro str member
    obtain ⟨var, inside, either⟩ := List.mem_flatMap.mp member
    rcases List.mem_pair.mp either with rfl | rfl
    · exact (free var inside).1
    · exact (free var inside).2
  refine ⟨⟨_, dictionary, ?_⟩, ?_, ?_⟩
  · rw [List.map_map]
    rfl
  · intro name _
    rw [dictionary, Json.get_object, UnorderedMap.find, UnorderedMap.lookup_map_value]
  · intro start name
    rw [fromJson_toJson rfl allFree plain]

/-- An equals sign in a value, an empty value and an empty name. -/
def oddVariables : UnorderedMap String String :=
  ⟨[("FLAGS", "-x=1"), ("EMPTY", ""), ("", "none")], by decide⟩

theorem Environment.formats_agree_oddVariables :
    (∃ child, (Environment.mk .DICTIONARY oddVariables).toJson = some (.object child) ∧
        child.map Prod.fst = oddVariables.entries.map Prod.fst) ∧
      (∀ name, NulFree name → Json.get (Environment.mk .DICTIONARY oddVariables).toJson name =
        (oddVariables.find name).map CJson.string) ∧
      ∀ (start : Environment) (name : String),
        (start.fromJson (Environment.mk .LIST oddVariables).toJson).vars.find name =
          oddVariables.find name :=
  formats_agree (by decide) (by decide)

theorem Request.fromJson_object {m start : Request} (type : NulFree m.type) (command : NulFree m.command)
    (rest : List (String × CJson)) :
    start.fromJson (some (.object ([("seq", CJson.createInt m.seq), ("type", CJson.createString m.type),
      ("command", CJson.createString m.command)] ++ rest))) = m := by
  simp [fromJson, ProtocolMessage.fromJson, List.lookup_cons, Json.getString_createString, type, command]

theorem ArgumentsRequest.fromJson_toJson {α : Type} {m start : ArgumentsRequest α} {encode : α → CJson}
    {decode : α → Json → α} (type : NulFree m.type) (command : NulFree m.command) :
    start.fromJson decode (some (m.toJson encode)) =
      ⟨m.toRequest, decode start.arguments (some (encode m.arguments))⟩ := by
  have base : start.toRequest.fromJson _ = _ :=
    Request.fromJson_object type command [("arguments", encode m.arguments)]
  simp only [List.cons_append, List.nil_append] at base
  simp [fromJson, toJson, Request.toJson, ProtocolMessage.toJson, base, List.lookup_cons]

namespace AnyRequest

/-- Forgets the members that `To` does not write. A launch request is compared on the
variables of its environment. -/
def written : AnyRequest → AnyRequest
  | launchRequest m => launchRequest
      { m with arguments := { m.arguments with env := { m.arguments.env with format := .LIST } } }
  | stackTraceRequest m => stackTraceRequest
      { m with arguments := { threadId := m.arguments.threadId } }
  | sourceRequest m =>
    if m.arguments.sourceReference > 0 then sourceRequest m
    else sourceRequest { m with arguments := { m.arguments with sourceReference := 0 } }
  | m => m

/-- The values that the text of the protocol can carry. -/
def Representable : AnyRequest → Prop
  | launchRequest m => m.arguments.env.format = .LIST ∧
      ∀ var ∈ m.arguments.env.vars.entries, '=' ∉ var.1.toList
  | setBreakpointsRequest m => 0 ≤ m.arguments.source.sourceReference
  | sourceRequest m => 0 ≤ m.arguments.source.sourceReference
  | evaluateRequest m => 0 < m.arguments.frameId ∨ m.arguments.frameId = wxNotFound
  | _ => True

/-- The length of the vector that `From` reads with an `int` counter. -/
def intCount : AnyRequest → Nat
  | setBreakpointsRequest m => m.arguments.breakpoints.length
  | setFunctionBreakpointsRequest m => m.arguments.breakpoints.length
  | _ => 0

end AnyRequest

def roundTripRequests : List RequestClass :=
  [.initializeRequest, .configurationDoneRequest, .launchRequest, .attachRequest,
    .setBreakpointsRequest, .setFunctionBreakpointsRequest, .continueRequest, .nextRequest,
    .threadsRequest, .scopesRequest, .stackTraceRequest, .pauseRequest, .runInTerminalRequest,
    .sourceRequest, .evaluateRequest]

theorem Request.fromJson_toJson {m start : Request} (type : NulFree m.type) (command : NulFree m.command) :
    start.fromJson (some m.toJson) = m := by
  simpa [toJson, ProtocolMessage.toJson] using fromJson_object type command []

/-- The format of the environment is not written. -/
theorem LaunchRequestArguments.fromJson_toJson {m start : LaunchRequestArguments}
    (list : m.env.format = .LIST) (free : AllNulFree m.strings)
    (plain : ∀ var ∈ m.env.vars.entries, '=' ∉ var.1.toList) :
    start.fromJson (some m.toJson) = { m with env := ⟨start.env.format, m.env.vars⟩ } := by
  simp only [AllNulFree, strings, List.cons_append, List.forall_mem_cons, List.forall_mem_append] at free
  obtain ⟨program, cwd, args, env⟩ := free
  have read : start.env.fromJson m.env.toJson = ⟨start.env.format, m.env.vars⟩ := by
    have vars : (start.env.fromJson m.env.toJson).vars = m.env.vars :=
      Environment.fromJson_toJson list env plain
    have format : (start.env.fromJson m.env.toJson).format = start.env.format := by
      unfold Environment.fromJson
      split <;> rfl
    rw [← vars, ← format]
  obtain ⟨node, encoded⟩ : ∃ node, m.env.toJson = some node := by simp [Environment.toJson, list]
  rw [encoded] at read
  simp [fromJson, toJson, encoded, read, List.lookup_cons, CJson.addStrings_eq, Json.getString_createString,
    Json.getStringArray_strings args, program, cwd]

theorem AttachRequestArguments.fromJson_toJson {m start : AttachRequestArguments}
    (free : AllNulFree m.arguments) : start.fromJson (some m.toJson) = m := by
  simp [fromJson, toJson, List.lookup_cons, CJson.addStrings_eq, Json.getStringArray_strings free]

theorem SetBreakpointsArguments.fromJson_toJson_iff {m start : SetBreakpointsArguments}
    (free : AllNulFree (m.source.strings ++ m.breakpoints.map (·.condition)))
    (nonneg : 0 ≤ m.source.sourceReference) :
    start.fromJson (some m.toJson) = m ↔ m.breakpoints.length < 2 ^ 31 := by
  simp only [AllNulFree, List.forall_mem_append, List.forall_mem_map] at free
  have inverse : ∀ x ∈ m.breakpoints, SourceBreakpoint.fromJson {} (some x.toJson) = x :=
    fun x member => SourceBreakpoint.fromJson_toJson (free.2 x member)
  rw [← Json.readInt_arrayOf_iff inverse]
  obtain ⟨source, breakpoints⟩ := m
  simp [fromJson, toJson, List.lookup_cons, Source.fromJson_toJson free.1 nonneg]

theorem SetFunctionBreakpointsArguments.fromJson_toJson_iff {m start : SetFunctionBreakpointsArguments}
    (free : AllNulFree (m.breakpoints.flatMap (fun breakpoint => [breakpoint.name, breakpoint.condition]))) :
    start.fromJson (some m.toJson) = m ↔ m.breakpoints.length < 2 ^ 31 := by
  have inverse : ∀ x ∈ m.breakpoints, FunctionBreakpoint.fromJson {} (some x.toJson) = x :=
    fun x member => FunctionBreakpoint.fromJson_toJson (free.of_flatMap x member)
  rw [← Json.readInt_arrayOf_iff inverse]
  obtain ⟨breakpoints⟩ := m
  simp [fromJson, toJson]

theorem ContinueArguments.fromJson_toJson {m start : ContinueArguments} :
    start.fromJson (some m.toJson) = m := by
  simp [fromJson, toJson, List.lookup_cons]

theorem NextArguments.fromJson_toJson {m start : NextArguments} (free : NulFree m.granularity) :
    start.fromJson (some m.toJson) = m := by
  simp [fromJson, toJson, List.lookup_cons, Json.getString_createString free]

theorem ScopesArguments.fromJson_toJson {m start : ScopesArguments} :
    start.fromJson (some m.toJson) = m := by
  simp [fromJson, toJson]

theorem StackTraceArguments.fromJson_toJson {m start : StackTraceArguments} :
    start.fromJson (some m.toJson) = { start with threadId := m.threadId } := by
  simp [fromJson, toJson]

theorem PauseArguments.fromJson_toJson {m start : PauseArguments} :
    start.fromJson (some m.toJson) = m := by
  simp [fromJson, toJson]

theorem RunInTerminalRequestArguments.fromJson_toJson {m start : RunInTerminalRequestArguments}
    (free : AllNulFree (m.kind :: m.title :: m.args)) : start.fromJson (some m.toJson) = m := by
  simp only [AllNulFree, List.forall_mem_cons] at free
  obtain ⟨kind, title, args⟩ := free
  simp [fromJson, toJson, List.lookup_cons, CJson.addStrings_eq, Json.getString_createString,
    Json.getStringArray_strings args, kind, title]

theorem SourceArguments.fromJson_toJson {m start : SourceArguments} (free : AllNulFree m.source.strings)
    (nonneg : 0 ≤ m.source.sourceReference) :
    start.fromJson (some m.toJson) =
      { m with sourceReference := if m.sourceReference > 0 then m.sourceReference else 0 } := by
  simp only [fromJson, toJson]
  split <;> simp [List.lookup_cons, Source.fromJson_toJson free nonneg]

theorem EvaluateArguments.fromJson_toJson {m start : EvaluateArguments}
    (free : AllNulFree [m.expression, m.context]) (frame : 0 < m.frameId ∨ m.frameId = wxNotFound) :
    start.fromJson (some m.toJson) = m := by
  simp only [AllNulFree, List.forall_mem_cons] at free
  obtain ⟨expression, context, _⟩ := free
  obtain ⟨text, frameId, kind, format⟩ := m
  simp only [fromJson, toJson, ValueFormat.fromJson, ValueFormat.toJson]
  rcases frame with positive | absent
  · simp_all [List.lookup_cons, Json.getString_createString]
  · have unwritten : ¬ (wxNotFound > 0) := by decide
    simp only at absent
    subst absent
    rw [if_neg unwritten]
    simp_all [List.lookup_cons, Json.getString_createString]

theorem AnyRequest.fromJson_toJson_iff {m : AnyRequest} (listed : m.dynamicClass ∈ roundTripRequests)
    (type : NulFree m.base.type) (command : NulFree m.base.command)
    (free : AllNulFree m.strings) (representable : m.Representable) :
    (m.dynamicClass.new.fromJson (some m.toJson)).written = m.written ↔ m.intCount < 2 ^ 31 := by
  cases m with
  | configurationDoneRequest m | threadsRequest m =>
    have read (start : Request) : start.fromJson (some m.toJson) = m :=
      Request.fromJson_toJson type command
    simp [dynamicClass, RequestClass.new, fromJson, toJson, read, intCount]
  | initializeRequest m =>
    simp only [dynamicClass, RequestClass.new, fromJson, toJson]
    rw [ArgumentsRequest.fromJson_toJson type command, InitializeRequestArguments.fromJson_toJson free]
    simp [intCount]
  | launchRequest m =>
    simp only [dynamicClass, RequestClass.new, fromJson, toJson]
    rw [ArgumentsRequest.fromJson_toJson type command,
      LaunchRequestArguments.fromJson_toJson representable.1 free representable.2]
    simp [intCount, written]
  | attachRequest m =>
    simp only [dynamicClass, RequestClass.new, fromJson, toJson]
    rw [ArgumentsRequest.fromJson_toJson type command, AttachRequestArguments.fromJson_toJson free]
    simp [intCount]
  | setBreakpointsRequest m =>
    have read : SetBreakpointsArguments.fromJson {} (some m.arguments.toJson) = m.arguments ↔ _ :=
      SetBreakpointsArguments.fromJson_toJson_iff free representable
    simp only [dynamicClass, RequestClass.new, fromJson, toJson, intCount, written]
    rw [ArgumentsRequest.fromJson_toJson type command, ← read]
    obtain ⟨request, arguments⟩ := m
    simp
  | setFunctionBreakpointsRequest m =>
    have read : SetFunctionBreakpointsArguments.fromJson {} (some m.arguments.toJson) = m.arguments ↔ _ :=
      SetFunctionBreakpointsArguments.fromJson_toJson_iff free
    simp only [dynamicClass, RequestClass.new, fromJson, toJson, intCount, written]
    rw [ArgumentsRequest.fromJson_toJson type command, ← read]
    obtain ⟨request, arguments⟩ := m
    simp
  | continueRequest m =>
    simp only [dynamicClass, RequestClass.new, fromJson, toJson]
    rw [ArgumentsRequest.fromJson_toJson type command, ContinueArguments.fromJson_toJson]
    simp [intCount]
  | nextRequest m =>
    simp only [dynamicClass, RequestClass.new, fromJson, toJson]
    rw [ArgumentsRequest.fromJson_toJson type command,
      NextArguments.fromJson_toJson (free _ List.mem_cons_self)]
    simp [intCount]
  | scopesRequest m =>
    simp only [dynamicClass, RequestClass.new, fromJson, toJson]
    rw [ArgumentsRequest.fromJson_toJson type command, ScopesArguments.fromJson_toJson]
    simp [intCount]
  | stackTraceRequest m =>
    simp only [dynamicClass, RequestClass.new, fromJson, toJson]
    rw [ArgumentsRequest.fromJson_toJson type command, StackTraceArguments.fromJson_toJson]
    simp [intCount, written]
  | pauseRequest m =>
    simp only [dynamicClass, RequestClass.new, fromJson, toJson]
    rw [ArgumentsRequest.fromJson_toJson type command, PauseArguments.fromJson_toJson]
    simp [intCount]
  | runInTerminalRequest m =>
    simp only [dynamicClass, RequestClass.new, fromJson, toJson]
    rw [ArgumentsRequest.fromJson_toJson type command, RunInTerminalRequestArguments.fromJson_toJson free]
    simp [intCount]
  | sourceRequest m =>
    simp only [dynamicClass, RequestClass.new, fromJson, toJson]
    rw [ArgumentsRequest.fromJson_toJson type command, SourceArguments.fromJson_toJson free representable]
    by_cases positive : m.arguments.sourceReference > 0
    · simp [intCount, written, positive]
    · simp [intCount, written, positive]
  | evaluateRequest m =>
    simp only [dynamicClass, RequestClass.new, fromJson, toJson]
    rw [ArgumentsRequest.fromJson_toJson type command, EvaluateArguments.fromJson_toJson free representable]
    simp [intCount]
  | cancelRequest _ | breakpointLocationsRequest _ | disconnectRequest _ | stepRequest _
  | stepInRequest _ | stepOutRequest _ | variablesRequest _ =>
    exact absurd listed (by simp [dynamicClass, roundTripRequests])

end WxDap
