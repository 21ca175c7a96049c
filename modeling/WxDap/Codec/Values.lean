import WxDap.ObjGenerator

namespace WxDap

def AllNulFree (strings : List String) : Prop :=
  ∀ str ∈ strings, NulFree str

theorem AllNulFree.of_flatMap {α : Type} {strings : α → List String} {value : List α}
    (free : AllNulFree (value.flatMap strings)) : ∀ x ∈ value, AllNulFree (strings x) :=
  fun _ member str inside => free str (List.mem_flatMap.mpr ⟨_, member, inside⟩)

theorem Source.fromJson_toJson {m start : Source} (free : AllNulFree m.strings)
    (nonneg : 0 ≤ m.sourceReference) : start.fromJson (some m.toJson) = m := by
  simp only [AllNulFree, strings, List.forall_mem_cons] at free
  obtain ⟨freeName, freePath, _⟩ := free
  have zero : ¬ m.sourceReference > 0 → m.sourceReference = 0 := fun le =>
    Int32.le_antisymm (Int32.not_lt.mp le) nonneg
  obtain ⟨name, path, sourceReference⟩ := m
  simp only [fromJson, toJson]
  -- An empty path and a zero reference are left out and come back as the defaults.
  split <;> split <;> simp_all [List.lookup_cons, Json.getString_createString]

theorem Breakpoint.fromJson_toJson {m start : Breakpoint} (free : AllNulFree m.strings)
    (nonneg : 0 ≤ m.source.sourceReference) : start.fromJson (some m.toJson) = m := by
  simp only [AllNulFree, strings, List.forall_mem_cons] at free
  simp [fromJson, toJson, List.lookup_cons, Json.getString_createString free.1,
    Source.fromJson_toJson free.2 nonneg]

theorem Module.fromJson_toJson {m start : Module} (free : AllNulFree m.strings) :
    start.fromJson (some m.toJson) = m := by
  simp only [AllNulFree, strings, List.forall_mem_cons] at free
  obtain ⟨id, name, path, version, symbolStatus, symbolFilePath, dateTimeStamp, addressRange, _⟩ := free
  have text : doubleToInt (Json.getNumber (some (CJson.createString m.id)) (wxNotFound.toInt : Rat)) =
      wxNotFound := doubleToInt_wxNotFound
  simp only [fromJson, toJson]
  simp [List.lookup_cons, Json.getString_createString, *]

theorem InitializeRequestArguments.fromJson_toJson {m start : InitializeRequestArguments}
    (free : AllNulFree m.strings) : start.fromJson (some m.toJson) = m := by
  simp only [AllNulFree, strings, List.forall_mem_cons] at free
  obtain ⟨clientID, clientName, adapterID, locale, pathFormat, _⟩ := free
  simp [fromJson, toJson, List.lookup_cons, Json.getString_createString, *]

theorem SourceBreakpoint.fromJson_toJson {m start : SourceBreakpoint} (free : NulFree m.condition) :
    start.fromJson (some m.toJson) = m := by
  simp [fromJson, toJson, List.lookup_cons, Json.getString_createString free]

theorem FunctionBreakpoint.fromJson_toJson {m start : FunctionBreakpoint}
    (free : AllNulFree [m.name, m.condition]) : start.fromJson (some m.toJson) = m := by
  simp only [AllNulFree, List.forall_mem_cons] at free
  simp [fromJson, toJson, List.lookup_cons, Json.getString_createString free.1,
    Json.getString_createString free.2.1]

theorem Thread.fromJson_toJson {m start : Thread} (free : NulFree m.name) :
    start.fromJson (some m.toJson) = m := by
  simp [fromJson, toJson, List.lookup_cons, Json.getString_createString free]

theorem Scope.fromJson_toJson {m start : Scope} (free : NulFree m.name) :
    start.fromJson (some m.toJson) = m := by
  simp [fromJson, toJson, List.lookup_cons, Json.getString_createString free]

theorem StackFrame.fromJson_toJson {m start : StackFrame} (free : AllNulFree m.strings)
    (nonneg : 0 ≤ m.source.sourceReference) : start.fromJson (some m.toJson) = m := by
  simp only [AllNulFree, strings, List.forall_mem_cons] at free
  simp [fromJson, toJson, List.lookup_cons, Json.getString_createString free.1,
    Source.fromJson_toJson free.2 nonneg]

theorem Variable.fromJson_toJson {m start : Variable} (free : AllNulFree m.strings) :
    start.fromJson (some m.toJson) = m := by
  simp only [AllNulFree, strings, List.cons_append, List.nil_append, List.forall_mem_cons] at free
  obtain ⟨name, value, type, kind, visibility, attributes⟩ := free
  simp [fromJson, toJson, List.lookup_cons, Json.getString_createString, CJson.addStrings_eq,
    VariablePresentationHint.fromJson, VariablePresentationHint.toJson,
    Json.getStringArray_strings attributes, *]

end WxDap
