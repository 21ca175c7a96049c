import WxDap.Frames
import WxDap.Json

namespace WxDap.JsonRPC
open Decimal (ascii)

variable {J : Type}

/-- The bytes of consecutive frames. -/
def stream (payloads : List Payload) : Bytes :=
  payloads.flatMap Payload.frame

/-- What `Send` hands to the transport for a message whose text is `toString msg`. -/
def send {μ : Type} (toString : μ → Bytes) (msg : μ) : Bytes :=
  networkBuffer (toString msg)

/-- Below `2 ^ 31` bytes a nonempty payload can always be framed. -/
def Payload.ofSmall (bytes : Bytes) (nonempty : bytes ≠ []) (small : bytes.length < 2 ^ 31) : Payload where
  bytes := bytes
  positive := List.length_pos_of_ne_nil nonempty
  fits := by
    have digits : (Decimal.numeral bytes.length).length ≤ 10 :=
      Decimal.numeral_length_le (by decide) (small.trans (by decide))
    have text : (ascii "Content-Length: ").length = 16 := by decide
    simp only [networkBuffer, separator, List.length_append, List.length_cons, List.length_nil, text]
    omega

theorem receive_stream {parse : Bytes → Option J} {payloads : List Payload} {chunks : List Bytes}
    (accepted : ∀ p ∈ payloads.dropLast, (parse p.bytes).isSome)
    (whole : chunks.flatten = stream payloads) :
    receive parse [] chunks = .ok (payloads.filterMap (fun p => parse p.bytes), []) := by
  rw [receive_eq_feed]
  exact Framing.feed_frames accepted whole

theorem map_some_filterMap {α : Type} {f : α → Option J} {xs : List α}
    (all : ∀ x ∈ xs, (f x).isSome) : (xs.filterMap f).map some = xs.map f := by
  induction xs with
  | nil => rfl
  | cons x xs ih =>
    obtain ⟨y, value⟩ := Option.isSome_iff_exists.mp (all x (List.mem_cons_self ..))
    have rest := ih (fun z member => all z (List.mem_cons_of_mem _ member))
    simp [value, rest]

/-- Whatever the cuts, the messages of a sent stream come out once each and in order. -/
theorem receive_send {μ : Type} (parse : Bytes → Option J) (toString : μ → Bytes)
    (messages : List μ) (chunks : List Bytes)
    (nonempty : ∀ msg ∈ messages, toString msg ≠ [])
    (small : ∀ msg ∈ messages, (toString msg).length < 2 ^ 31)
    (accepted : ∀ msg ∈ messages, (parse (toString msg)).isSome)
    (cut : chunks.flatten = (messages.map (send toString)).flatten) :
    ∃ delivered, receive parse [] chunks = .ok (delivered, []) ∧
      delivered.map some = messages.map (fun msg => parse (toString msg)) := by
  let payload : {msg // msg ∈ messages} → Payload := fun msg =>
    Payload.ofSmall (toString msg.1) (nonempty msg.1 msg.2) (small msg.1 msg.2)
  have whole : chunks.flatten = stream (messages.attach.map payload) := by
    rw [cut, stream, List.flatMap_map]
    have each : messages.map (send toString) = messages.attach.map (fun msg => (payload msg).frame) := by
      rw [← List.attach_map_val (f := send toString)]
      rfl
    rw [each, List.flatMap]
  have all : ∀ p ∈ messages.attach.map payload, (parse p.bytes).isSome := by
    intro p member
    obtain ⟨msg, _, rfl⟩ := List.mem_map.mp member
    exact accepted msg.1 msg.2
  refine ⟨_, receive_stream (fun p member => all p (List.mem_of_mem_dropLast member)) whole, ?_⟩
  rw [map_some_filterMap all, List.map_map]
  exact List.attach_map_val (f := fun msg => parse (toString msg))

/-- `Json::Parse` on the two texts of the small runs below: `{}` is an object and
`x` is refused. -/
def parseSample (text : Bytes) : Option CJson :=
  if text = ascii "\x7b\x7d" then some CJson.createObject else none

/-- Two messages, cut inside the first header and inside the first payload. -/
theorem receive_send_cut :
    ∃ delivered,
      receive parseSample [] [ascii "Content-Le", [], ascii "ngth: 2\r\n\r\n\x7b", ascii "\x7dContent-Length: 2\r\n\r\n\x7b\x7d"] =
        .ok (delivered, []) ∧
      delivered.map some = [some CJson.createObject, some CJson.createObject] :=
  receive_send parseSample ascii ["\x7b\x7d", "\x7b\x7d"] _ (by decide) (by decide) (by decide) (by decide)

/-- All cuts of a stream have the same outcome, and no call leaves a complete
frame at the head of the buffer. -/
def SegmentationFree (parse : Bytes → Option J) (payloads : List Payload) : Prop :=
  (∀ chunks chunks' : List Bytes, chunks.flatten = stream payloads → chunks'.flatten = stream payloads →
      receive parse [] chunks = receive parse [] chunks') ∧
    ∀ chunks : List Bytes, chunks.flatten <+: stream payloads →
      ∃ out, receive parse [] chunks = .ok out ∧ ∀ p : Payload, ¬ p.frame <+: out.2

/-- The loop stops at a frame that `Json::Parse` refuses, so the cuts are
immaterial exactly when such a frame can only be the last one. -/
theorem segmentationFree_iff (parse : Bytes → Option J) (payloads : List Payload) :
    SegmentationFree parse payloads ↔ ∀ p ∈ payloads.dropLast, (parse p.bytes).isSome := by
  constructor
  · intro free
    refine Framing.feed_independent_iff (F := framing parse).mp (fun chunks chunks' whole whole' => ?_)
    rw [← receive_eq_feed, ← receive_eq_feed]
    exact free.1 chunks chunks' whole whole'
  · intro accepted
    refine ⟨fun chunks chunks' whole whole' => ?_, fun chunks starts => ?_⟩
    · rw [receive_stream accepted whole, receive_stream accepted whole']
    · obtain ⟨done, todo, last, _, _, pending, run⟩ :=
        Framing.feed_part (F := framing parse) accepted starts (Framing.Pending.nil payloads)
      exact ⟨_, (receive_eq_feed ..).trans run, fun p => pending.no_frame p⟩

def refusedPayload : Payload := .ofSmall (ascii "x") (by decide) (by decide)

def objectPayload : Payload := .ofSmall (ascii "\x7b\x7d") (by decide) (by decide)

/-- In one chunk the object after a refused frame stays in the buffer; frame by
frame it is delivered. -/
theorem segmentation_changes_delivery :
    receive parseSample [] [stream [refusedPayload, objectPayload]] = .ok ([], objectPayload.frame) ∧
      receive parseSample [] [refusedPayload.frame, objectPayload.frame] = .ok ([CJson.createObject], []) ∧
      ¬ SegmentationFree parseSample [refusedPayload, objectPayload] := by
  have together : receive parseSample [] [stream [refusedPayload, objectPayload]] =
      .ok ([], objectPayload.frame) := rfl
  have apart : receive parseSample [] [refusedPayload.frame, objectPayload.frame] =
      .ok ([CJson.createObject], []) := rfl
  refine ⟨together, apart, fun free => ?_⟩
  have same := free.1 [stream [refusedPayload, objectPayload]] [refusedPayload.frame, objectPayload.frame]
    (by decide) (by decide)
  rw [together, apart] at same
  simp at same

end WxDap.JsonRPC
