import WxDap.EndToEnd.Parsed

namespace WxDap
open JsonParse (Pow)

section
variable {parse : Bytes → Option CJson} {platform : Platform}

namespace ServerProtocol

/-- `Initialize` reads until it is done, and then `Check` reads; the result has the
messages that the network callback got. A timeout of the socket is an empty read. -/
def serve (parse : Bytes → Option CJson) (platform : Platform) (server : ServerProtocol) :
    List Bytes → Except JsonRPC.Fault (ServerProtocol × List AnyMessage)
  | [] => .ok (server, [])
  | content :: rest =>
    if server.done then do
      let (server, messages) ← server.check parse content
      let (server, later) ← server.serve parse platform rest
      return (server, messages ++ later)
    else if content = [] then server.serve parse platform rest
    else do
      let (server, _) ← server.initialized parse platform content
      server.serve parse platform rest

end ServerProtocol

/-- How many bytes there are when the first `n` have been read. -/
def bytesRead (n : Nat) : List Bytes → Nat
  | [] => 0
  | chunk :: chunks => if n ≤ chunk.length then chunk.length else chunk.length + bytesRead (n - chunk.length) chunks

/-- The object that `FromJSON` makes of a packet. -/
def Packet.object (packet : Packet parse platform) : Option AnyMessage :=
  ObjGenerator.initialized.read (some packet.message.toJson)

/-- A request of a class that `dap::Initialize()` has put into the pools. -/
def Packet.Registered (packet : Packet parse platform) : Prop :=
  ∃ request, packet.message = .request request ∧ (AnyMessage.request request).Constructed ∧
    ObjGenerator.initialized.requests.find request.dynamicClass.command = some request.dynamicClass

/-- No exception leaves `FromJSON`. -/
def Packet.Returns (packet : Packet parse platform) : Prop :=
  ObjGenerator.initialized.throws (some packet.message.toJson) = false

theorem Packet.Registered.reads {packet : Packet parse platform} (registered : packet.Registered) :
    packet.object.isSome ∧ packet.Returns := by
  obtain ⟨request, message, constructed, found⟩ := registered
  have other : request.dynamicClass ≠ .variablesRequest := by
    intro same
    have none : ObjGenerator.initialized.requests.find RequestClass.variablesRequest.command = none := by
      decide +kernel
    rw [same, none] at found
    cases found
  have returned := ObjGenerator.fromJSON_request constructed other
  rw [Packet.object, Packet.Returns, message]
  refine ⟨?_, ObjGenerator.throws_of_fromJSON returned⟩
  rw [AnyMessage.toJson, ObjGenerator.read_of_fromJSON returned]
  rfl

theorem filterMap_packets (list : List (Packet parse platform)) :
    (list.map Packet.payload).filterMap (JsonRPC.framing parse).accept =
      list.map (fun packet => packet.message.toJson) := by
  induction list with
  | nil => rfl
  | cons packet list ih =>
    have reads : (JsonRPC.framing parse).accept packet.payload = some packet.message.toJson := packet.reads
    simp [reads, ih]

theorem accepted_packets (list : List (Packet parse platform)) :
    ∀ p ∈ list.map Packet.payload, ((JsonRPC.framing parse).accept p).isSome := by
  intro p member
  obtain ⟨packet, _, rfl⟩ := List.mem_map.mp member
  have reads : (JsonRPC.framing parse).accept packet.payload = some packet.message.toJson := packet.reads
  simp [reads]

/-- A strict part of a frame is shorter. -/
theorem Packet.part_lt {packet : Packet parse platform} {rest : List (Packet parse platform)} {part : Bytes}
    (pending : (JsonRPC.framing parse).Pending part ((packet :: rest).map Packet.payload)) :
    part.length < packet.payload.frame.length := by
  rcases Nat.lt_or_ge part.length packet.payload.frame.length with less | enough
  · exact less
  · exact absurd (pending.1.eq_of_length_le enough) pending.2

/-- Short of the end of the first frame the stream is a strict part of it. -/
theorem Packet.pending_of_short {first : Packet parse platform} {requests : List (Packet parse platform)}
    {bytes : Bytes} (starts : bytes <+: packets (first :: requests))
    (short : bytes.length < first.payload.frame.length) :
    (JsonRPC.framing parse).Pending bytes ((first :: requests).map Packet.payload) := by
  refine ⟨List.prefix_of_prefix_length_le starts (List.prefix_append _ _) short.le, fun same => ?_⟩
  have length := congrArg List.length same
  exact absurd length short.ne

/-- From there on it is the first frame, further ones, and a part of the next one. -/
theorem Packet.split_of_long {first : Packet parse platform} {requests : List (Packet parse platform)}
    {bytes : Bytes} (starts : bytes <+: packets (first :: requests))
    (long : first.payload.frame.length ≤ bytes.length) :
    ∃ taken left next, requests = taken ++ left ∧ bytes = packets (first :: taken) ++ next ∧
      (JsonRPC.framing parse).Pending next (left.map Packet.payload) := by
  have framed : bytes <+: (JsonRPC.framing parse).frames ((first :: requests).map Packet.payload) := starts
  obtain ⟨done, rest, next, split, front, pending⟩ := Framing.split_start framed
  obtain ⟨took, left, both, rfl, rfl⟩ := List.map_eq_append_iff.mp split
  cases took with
  | nil =>
    rw [List.nil_append] at both
    subst both
    have strict := Packet.part_lt pending
    have same : bytes = next := front
    rw [same] at long
    omega
  | cons packet taken =>
    obtain ⟨rfl, same⟩ := List.cons.inj both
    exact ⟨taken, left, next, same, front, pending⟩

/-- No further frame is there exactly if the second one does not end in time. -/
theorem Packet.taken_eq_nil_iff {first : Packet parse platform} {taken left : List (Packet parse platform)}
    {bytes next : Bytes} (front : bytes = packets (first :: taken) ++ next)
    (pending : (JsonRPC.framing parse).Pending next (left.map Packet.payload)) :
    taken = [] ↔ ∀ second ∈ (taken ++ left).head?,
      bytes.length < first.payload.frame.length + second.payload.frame.length := by
  have total : bytes.length = first.payload.frame.length + (packets taken).length + next.length := by
    rw [front, packets_cons, List.length_append, List.length_append]
  cases taken with
  | nil =>
    rw [packets_nil, List.length_nil] at total
    refine iff_of_true rfl (fun second head => ?_)
    cases left with
    | nil => cases head
    | cons packet rest =>
      cases head
      have strict := Packet.part_lt pending
      omega
  | cons packet taken =>
    rw [packets_cons, List.length_append] at total
    refine iff_of_false (List.cons_ne_nil _ _) (fun apart => ?_)
    have bound := apart packet rfl
    omega

namespace ServerProtocol

theorem decoded_packets {took : List (Packet parse platform)} {part content next : Bytes} {done : Bool}
    (returns : ∀ packet ∈ took, packet.Returns)
    (drained : JsonRPC.processBuffer parse (part ++ content) =
      .ok (took.map (fun packet => packet.message.toJson), next)) :
    decoded parse ⟨part, done⟩ content = .ok (took.map (fun packet => packet.message.toJson), next) := by
  have quiet : (took.map (fun packet => packet.message.toJson)).any
      (fun json => ObjGenerator.initialized.throws (some json)) = false := by
    rw [List.any_map, List.any_eq_false]
    intro packet member thrown
    exact Bool.false_ne_true ((returns packet member).symm.trans thrown)
  simp only [decoded, JsonRPC.appendBuffer, drained, bind, Except.bind, quiet, Bool.false_eq_true, if_false]
  rfl

/-- After the handshake every request gets to the callback. -/
theorem serve_checks {todo : List (Packet parse platform)} {part : Bytes} {chunks : List Bytes}
    (returns : ∀ packet ∈ todo, packet.Returns)
    (pending : (JsonRPC.framing parse).Pending part (todo.map Packet.payload))
    (cut : part ++ chunks.flatten = packets todo) :
    serve parse platform ⟨part, true⟩ chunks = .ok (⟨[], true⟩, todo.filterMap Packet.object) := by
  induction chunks generalizing part todo with
  | nil =>
    rw [List.flatten_nil, List.append_nil] at cut
    obtain ⟨none, rfl⟩ := pending.eq_nil cut
    rw [List.map_eq_nil_iff.mp none]
    rfl
  | cons chunk chunks ih =>
    rw [List.flatten_cons, ← List.append_assoc] at cut
    have starts : part ++ chunk <+: (JsonRPC.framing parse).frames (todo.map Packet.payload) :=
      ⟨chunks.flatten, cut⟩
    obtain ⟨done, rest, next, split, front, part'⟩ := Framing.split_start starts
    obtain ⟨took, left, rfl, rfl, rfl⟩ := List.map_eq_append_iff.mp split
    have drained : JsonRPC.processBuffer parse (part ++ chunk) =
        .ok (took.map (fun packet => packet.message.toJson), next) := by
      rw [front, ← filterMap_packets]
      exact Framing.drain_frames (accepted_packets took) part'
    have later : next ++ chunks.flatten = packets left := by
      rw [front, packets_append, List.append_assoc] at cut
      exact List.append_cancel_left cut
    obtain ⟨first, others⟩ := List.forall_mem_append.mp returns
    simp only [serve, if_true, check, decoded_packets first drained, bind, Except.bind, pure, Except.pure,
      ih others part' later, List.filterMap_map, List.filterMap_append]
    rfl

/-- What the turn of the loop does that completes the request. -/
theorem initialized_completes {first : Packet parse platform} {lost left : List (Packet parse platform)}
    {part content next : Bytes} (answer : onInitialize first.message.toJson = handshakeMessages)
    (returns : ∀ packet ∈ lost, packet.Returns)
    (front : part ++ content = packets (first :: lost) ++ next)
    (pending : (JsonRPC.framing parse).Pending next (left.map Packet.payload)) :
    ∃ sent, initialized parse platform ⟨part, false⟩ content = .ok (⟨next, true⟩, sent) := by
  have drained : JsonRPC.processBuffer parse (part ++ content) =
      .ok ((first :: lost).map (fun packet => packet.message.toJson), next) := by
    rw [front, ← filterMap_packets]
    exact Framing.drain_frames (accepted_packets (first :: lost)) pending
  have asks : first.Returns := returns_of_onInitialize (by rw [answer]; exact List.cons_ne_nil _ _)
  have all := List.forall_mem_cons.mpr ⟨asks, returns⟩
  simp only [initialized, decoded_packets all drained, bind, Except.bind, List.map_cons, List.flatMap_cons, answer]
  exact ⟨_, rfl⟩

/-- A read that does not complete the request leaves the loop where it is. -/
theorem serve_incomplete {first : Packet parse platform} {requests : List (Packet parse platform)}
    {part chunk : Bytes} (chunks : List Bytes)
    (still : (JsonRPC.framing parse).Pending (part ++ chunk) ((first :: requests).map Packet.payload)) :
    serve parse platform ⟨part, false⟩ (chunk :: chunks) =
      serve parse platform ⟨part ++ chunk, false⟩ chunks := by
  by_cases empty : chunk = []
  · simp [serve, empty]
  · have idle : JsonRPC.processBuffer parse (part ++ chunk) = .ok ([], part ++ chunk) := still.drain
    have none := @decoded_packets parse platform [] part chunk (part ++ chunk) false (by simp) idle
    simp only [serve, Bool.false_eq_true, if_false, if_neg empty, initialized, none, bind, Except.bind]
    rfl

/-- The read that completes the initialize request takes further requests with it, and
those are lost. -/
theorem serve_lost {first : Packet parse platform} {requests : List (Packet parse platform)} {part : Bytes}
    {chunks : List Bytes} (answer : onInitialize first.message.toJson = handshakeMessages)
    (returns : ∀ packet ∈ requests, packet.Returns)
    (pending : (JsonRPC.framing parse).Pending part ((first :: requests).map Packet.payload))
    (cut : part ++ chunks.flatten = packets (first :: requests)) :
    ∃ lost todo, requests = lost ++ todo ∧
      serve parse platform ⟨part, false⟩ chunks = .ok (⟨[], true⟩, todo.filterMap Packet.object) ∧
      (lost = [] ↔ ∀ next ∈ requests.head?,
        part.length + bytesRead (first.payload.frame.length - part.length) chunks <
          first.payload.frame.length + next.payload.frame.length) := by
  induction chunks generalizing part with
  | nil =>
    rw [List.flatten_nil, List.append_nil] at cut
    exact absurd (pending.eq_nil cut).1 (by simp)
  | cons chunk chunks ih =>
    rw [List.flatten_cons, ← List.append_assoc] at cut
    have short := Packet.part_lt pending
    have starts : part ++ chunk <+: packets (first :: requests) := ⟨chunks.flatten, cut⟩
    have length : (part ++ chunk).length = part.length + chunk.length := List.length_append
    by_cases inside : first.payload.frame.length - part.length ≤ chunk.length
    · -- this read completes the request
      obtain ⟨lost, left, next, rfl, front, rest⟩ := Packet.split_of_long starts (by omega)
      obtain ⟨early, late⟩ := List.forall_mem_append.mp returns
      obtain ⟨sent, turn⟩ := initialized_completes answer early front rest
      have nonempty : chunk ≠ [] := by
        rintro rfl
        simp only [List.length_nil] at inside
        omega
      have later : next ++ chunks.flatten = packets left := by
        rw [front, ← List.cons_append, packets_append, List.append_assoc] at cut
        exact List.append_cancel_left cut
      refine ⟨lost, left, rfl, ?_, ?_⟩
      · simp only [serve, Bool.false_eq_true, if_false, if_neg nonempty, turn, bind, Except.bind,
          serve_checks late rest later]
      · rw [bytesRead, if_pos inside, ← length]
        exact Packet.taken_eq_nil_iff front rest
    · -- the request is still incomplete, so that the loop goes on
      have still := Packet.pending_of_short starts (by omega)
      obtain ⟨lost, todo, split, run, apart⟩ := ih still cut
      refine ⟨lost, todo, split, (serve_incomplete chunks still).trans run, apart.trans ?_⟩
      rw [bytesRead, if_neg inside, length, Nat.sub_add_eq, Nat.add_assoc]

theorem onInitialize_asks {first : Packet parse platform}
    (asks : ∃ request, first.message = .request (.initializeRequest request) ∧ first.message.Constructed) :
    onInitialize first.message.toJson = handshakeMessages := by
  obtain ⟨request, message, constructed⟩ := asks
  rw [message] at constructed ⊢
  exact System.onInitialize_request request constructed

/-- The callback gets every request after the initialize request exactly if the read that
completes the latter ends before the next request does. -/
theorem received_iff {first : Packet parse platform} {requests : List (Packet parse platform)}
    {chunks : List Bytes}
    (asks : ∃ request, first.message = .request (.initializeRequest request) ∧ first.message.Constructed)
    (registered : ∀ packet ∈ requests, packet.Registered)
    (cut : chunks.flatten = packets (first :: requests)) :
    ∃ delivered, serve parse platform {} chunks = .ok (⟨[], true⟩, delivered) ∧
      (delivered.map some = requests.map Packet.object ↔ ∀ next ∈ requests.head?,
        bytesRead first.payload.frame.length chunks <
          first.payload.frame.length + next.payload.frame.length) := by
  have start : (JsonRPC.framing parse).Pending [] ((first :: requests).map Packet.payload) :=
    Framing.Pending.nil _
  obtain ⟨lost, todo, rfl, run, apart⟩ := serve_lost (onInitialize_asks asks)
    (fun packet member => (registered packet member).reads.2) start cut
  refine ⟨todo.filterMap Packet.object, run, Iff.trans ?_ (apart.trans ?_)⟩
  · rw [JsonRPC.map_some_filterMap (fun packet member =>
      (registered packet (List.mem_append_right _ member)).reads.1)]
    constructor
    · intro same
      have length := congrArg List.length same
      rw [List.length_map, List.length_map, List.length_append] at length
      exact List.eq_nil_of_length_eq_zero (by omega)
    · rintro rfl
      rw [List.nil_append]
  · simp only [List.length_nil, Nat.zero_add, Nat.sub_zero]

end ServerProtocol

/-- A client that asks for the threads right after the handshake. -/
def eagerRequests : List AnyMessage :=
  [.request initializeRequest, .request (.threadsRequest { seq := 2, command := "threads" })]

/-- cJSON between the two, with a printer that no message needs for a double. -/
def eagerParse : Bytes → Option CJson := JsonCodec.parse Pow.rounded

def eagerPlatform : Platform := Platform.cJson (fun _ => "") id

theorem eagerRequests_readable : ∀ message ∈ eagerRequests, Readable eagerParse eagerPlatform message := by
  have short : ∀ message ∈ eagerRequests, message.Short := by
    unfold AnyMessage.Short
    decide +kernel
  exact fun message member => readable (short message member)

/-- The two requests as packets, with what the server asks of them. -/
theorem eagerRequests_packets : ∃ first next : Packet eagerParse eagerPlatform,
    (∃ request, first.message = .request (.initializeRequest request) ∧ first.message.Constructed) ∧
      ∀ packet ∈ [next], packet.Registered := by
  obtain ⟨first, asks⟩ := eagerRequests_readable (.request initializeRequest) (by simp [eagerRequests])
  obtain ⟨next, threads⟩ := eagerRequests_readable (.request (.threadsRequest { seq := 2, command := "threads" }))
    (by simp [eagerRequests])
  refine ⟨first, next, ⟨_, asks, ?_⟩, ?_⟩
  · rw [asks]
    exact ⟨rfl, rfl⟩
  · intro packet member
    rw [List.mem_singleton.mp member]
    exact ⟨_, threads, ⟨rfl, rfl⟩, ObjGenerator.find_request (by decide)⟩

namespace ServerProtocol

theorem received_iff_eager : ∃ (first next : Packet eagerParse eagerPlatform)
    (delivered : List AnyMessage),
    serve eagerParse eagerPlatform {} [first.payload.frame, next.payload.frame] =
      .ok (⟨[], true⟩, delivered) ∧ delivered.map some = [next.object] := by
  obtain ⟨first, next, asks, registered⟩ := eagerRequests_packets
  have cut : [first.payload.frame, next.payload.frame].flatten = packets [first, next] := rfl
  obtain ⟨delivered, run, all⟩ := received_iff asks registered cut
  refine ⟨first, next, delivered, run, all.mpr (fun packet head => ?_)⟩
  cases head
  have positive := List.length_pos_of_ne_nil ((JsonRPC.framing eagerParse).frame_ne_nil
    next.payload)
  rw [bytesRead, if_pos (le_refl _)]
  exact Nat.lt_add_of_pos_right positive

/-- Both requests in one read: the second one never gets to the callback. -/
theorem eager_request_lost : ¬ ∀ (parse : Bytes → Option CJson) (platform : Platform)
    (first : Packet parse platform) (requests : List (Packet parse platform)) (chunks : List Bytes),
    (∃ request, first.message = .request (.initializeRequest request) ∧ first.message.Constructed) →
    (∀ packet ∈ requests, packet.Registered) → chunks.flatten = packets (first :: requests) →
    ∃ server delivered, serve parse platform {} chunks = .ok (server, delivered) ∧
      delivered.map some = requests.map Packet.object := by
  intro always
  obtain ⟨first, next, asks, registered⟩ := eagerRequests_packets
  have cut : [first.payload.frame ++ next.payload.frame].flatten = packets [first, next] := by
    simp [packets_cons, packets_nil]
  have whole : [] ++ [first.payload.frame ++ next.payload.frame].flatten = packets [first, next] := cut
  obtain ⟨server, delivered, run, all⟩ := always _ _ first [next] _ asks registered cut
  have start : (JsonRPC.framing eagerParse).Pending [] ([first, next].map Packet.payload) :=
    Framing.Pending.nil _
  obtain ⟨lost, todo, split, served, apart⟩ := serve_lost (onInitialize_asks asks)
    (fun packet member => (registered packet member).reads.2) start whole
  rw [served] at run
  obtain ⟨_, rfl⟩ := Prod.mk.inj (Except.ok.inj run)
  have kept : 1 ≤ todo.length := by
    have length := congrArg List.length all
    have fewer := List.length_filterMap_le Packet.object todo
    rw [List.length_map, List.length_map, List.length_singleton] at length
    omega
  have none : lost = [] := by
    have length := congrArg List.length split
    rw [List.length_singleton, List.length_append] at length
    exact List.eq_nil_of_length_eq_zero (by omega)
  have bound := apart.mp none next rfl
  rw [bytesRead, if_pos (by simp)] at bound
  simp at bound

end ServerProtocol

end

end WxDap
