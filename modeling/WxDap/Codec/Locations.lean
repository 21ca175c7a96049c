import WxDap.Codec.Responses
import WxDap.Codec.Requests

namespace WxDap

theorem Source.fromJson_toJson_iff {m start : Source} (nonneg : 0 ≤ m.sourceReference) :
    start.fromJson (some m.toJson) = m ↔ NulFree m.name ∧ NulFree m.path := by
  constructor
  · intro same
    constructor
    · have name : (Json.get (some m.toJson) "name").getString = cStr m.name := by
        simp only [toJson]
        split <;> split <;> simp [CJson.createString]
      rw [← cStr_eq_self_iff, ← name]
      exact congrArg Source.name same
    · by_cases empty : m.path = ""
      · rw [empty]
        decide
      have path : (Json.get (some m.toJson) "path").getString = cStr m.path := by
        simp only [toJson, if_pos empty]
        split <;> simp [List.lookup_cons, CJson.createString]
      rw [← cStr_eq_self_iff, ← path]
      exact congrArg Source.path same
  · rintro ⟨name, path⟩
    exact fromJson_toJson (by simp [AllNulFree, strings, name, path]) nonneg

/-- The two lines of the range are those of the object decoded into. -/
theorem BreakpointLocationsArguments.fromJson_toJson_eq (m start : BreakpointLocationsArguments) :
    start.fromJson (some m.toJson) =
      { m with source := start.source.fromJson (some m.source.toJson)
               line := start.line, endLine := start.endLine } := by
  simp [fromJson, toJson, List.lookup_cons]

theorem BreakpointLocation.fromJson_toJson_eq (m start : BreakpointLocation) :
    start.fromJson (some m.toJson) = { m with line := start.line, endLine := start.endLine } := by
  simp [fromJson, toJson, List.lookup_cons]

theorem BreakpointLocationsArguments.survives_iff {m start : BreakpointLocationsArguments}
    (nonneg : 0 ≤ m.source.sourceReference) :
    start.fromJson (some m.toJson) = m ↔
      NulFree m.source.name ∧ NulFree m.source.path ∧ m.line = start.line ∧ m.endLine = start.endLine := by
  rw [fromJson_toJson_eq, ← and_assoc, ← @Source.fromJson_toJson_iff m.source start.source nonneg]
  obtain ⟨source, line, column, endLine, endColumn⟩ := m
  simp [eq_comm]

theorem BreakpointLocationsResponse.survives_iff {m start : BreakpointLocationsResponse} :
    (start.fromJson (some m.toJson)).breakpoints = m.breakpoints ↔
      ∀ location ∈ m.breakpoints, location.line = -1 ∧ location.endLine = -1 := by
  have decoded : (start.fromJson (some m.toJson)).breakpoints =
      m.breakpoints.map (fun x => { x with line := -1, endLine := -1 }) := by
    simp only [fromJson, toJson, Response.get_listBody, Json.readSize_arrayOf_map,
      BreakpointLocation.fromJson_toJson_eq]
  rw [decoded]
  conv_lhs => rhs; rw [← List.map_id m.breakpoints]
  rw [List.map_inj_left]
  refine forall₂_congr (fun location _ => ?_)
  obtain ⟨line, column, endLine, endColumn⟩ := location
  simp [eq_comm]

/-- The arguments object is not a number, so its id is always the default. -/
theorem CancelRequest.survives_iff {m start : CancelRequest} :
    (start.fromJson (some m.toJson)).requestId = m.requestId ↔ m.requestId = -1 := by
  simp [fromJson, toJson, Request.toJson, ProtocolMessage.toJson, List.lookup_cons, Json.getInteger, eq_comm]

/-- What a client asks for and what a server answers survives exactly if the lines are those
of the object decoded into, and a cancellation exactly if it names no request. -/
theorem locationsSurvive_iff (request requestStart : ArgumentsRequest BreakpointLocationsArguments)
    (response responseStart : BreakpointLocationsResponse) (cancel cancelStart : CancelRequest) :
    (0 ≤ request.arguments.source.sourceReference →
      ((requestStart.fromJson BreakpointLocationsArguments.fromJson
          (some (request.toJson BreakpointLocationsArguments.toJson))).arguments = request.arguments ↔
        NulFree request.arguments.source.name ∧ NulFree request.arguments.source.path ∧
          request.arguments.line = requestStart.arguments.line ∧
          request.arguments.endLine = requestStart.arguments.endLine)) ∧
    ((responseStart.fromJson (some response.toJson)).breakpoints = response.breakpoints ↔
      ∀ location ∈ response.breakpoints, location.line = -1 ∧ location.endLine = -1) ∧
    ((cancelStart.fromJson (some cancel.toJson)).requestId = cancel.requestId ↔ cancel.requestId = -1) := by
  refine ⟨fun nonneg => ?_, BreakpointLocationsResponse.survives_iff, CancelRequest.survives_iff⟩
  have read : Json.get (some (request.toJson BreakpointLocationsArguments.toJson)) "arguments" =
      some request.arguments.toJson := by
    simp [ArgumentsRequest.toJson, Request.toJson, ProtocolMessage.toJson, List.lookup_cons]
  rw [ArgumentsRequest.fromJson, read, BreakpointLocationsArguments.survives_iff nonneg]

/-- The locations of line 3, decoded into a new object. -/
theorem not_locationsSurvive_line :
    ¬ ∀ m : ArgumentsRequest BreakpointLocationsArguments, 0 ≤ m.arguments.source.sourceReference →
      (ArgumentsRequest.fromJson BreakpointLocationsArguments.fromJson
          { command := "breakpointLocations", arguments := {} }
          (some (m.toJson BreakpointLocationsArguments.toJson))).arguments = m.arguments := by
  intro survives
  have same := survives { command := "breakpointLocations", arguments := { line := 3 } } (by decide)
  have line := congrArg BreakpointLocationsArguments.line same
  simp [ArgumentsRequest.fromJson, ArgumentsRequest.toJson, Request.toJson, ProtocolMessage.toJson,
    List.lookup_cons, BreakpointLocationsArguments.fromJson_toJson_eq] at line

end WxDap
