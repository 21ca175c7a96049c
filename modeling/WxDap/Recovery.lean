import WxDap.Delivery

namespace WxDap.JsonRPC
open Decimal (ascii)
open CInt (wrap32)

variable {J : Type} {parse : Bytes → Option J}

/-- A complete header section none of whose lines is named `Content-Length`. -/
structure HeaderWithoutLength (block : Bytes) : Prop where
  first : HeaderBlock block
  unnamed : (parseHeaders block).find contentLength = none

/-- The decoder drops the section in front of the queued frames and nothing else,
and the calls that follow deliver all of the frames in order. -/
def Recovers (parse : Bytes → Option J) (block : Bytes) (queued more : List Payload)
    (later : List Bytes) : Prop :=
  ∃ out, processBuffer parse (block ++ separator ++ stream queued) = .ok out ∧
    (∃ taken, out.1.map some = (queued.take taken).map (fun p => parse p.bytes) ∧
      out.2 = stream (queued.drop taken)) ∧
    (later ≠ [] → ∃ rest, receive parse out.2 later = .ok (rest, []) ∧
      (out.1 ++ rest).map some = (queued ++ more).map (fun p => parse p.bytes))

/-- A stream of frames announces a `Content-Length` as soon as it has headers at all. -/
theorem stream_named {payloads : List Payload} (nonempty : payloads ≠ []) :
    ∃ start, Find.find separator (stream payloads) = some start ∧
      ((parseHeaders ((stream payloads).take start)).find contentLength).isSome := by
  obtain ⟨p, rest, rfl⟩ := List.exists_cons_of_ne_nil nonempty
  have shape : stream (p :: rest) =
      sendHeader p.bytes.length ++ separator ++ (p.bytes ++ stream rest) := by
    rw [stream, List.flatMap_cons, Payload.frame, networkBuffer_eq, ← List.append_assoc]
    rfl
  refine ⟨(sendHeader p.bytes.length).length, ?_, ?_⟩
  · rw [shape]
    exact (sendHeader_block _).find _
  · rw [shape, List.append_assoc, List.take_left, sendHeader_named]
    rfl

/-- No frame stream is a prefix of a header section without `Content-Length`. -/
theorem HeaderWithoutLength.stream_eq_nil {block : Bytes} (header : HeaderWithoutLength block)
    {payloads : List Payload} (starts : stream payloads <+: block ++ separator) : payloads = [] := by
  by_contra nonempty
  obtain ⟨start, found, named⟩ := stream_named nonempty
  obtain ⟨rest, whole⟩ := starts
  have again := Find.find_append found rest
  rw [whole, header.first] at again
  cases Option.some.inj again
  have bound := Find.find_bound found
  have same : (stream payloads).take block.length = block := by
    have longer : (stream payloads ++ rest).take block.length = (stream payloads).take block.length :=
      List.take_append_of_le_length (by omega)
    rw [← longer, whole, List.take_left]
  rw [same, header.unnamed] at named
  exact Bool.noConfusion named

/-- The branch for a missing `Content-Length` stops the loop and keeps the front
of the buffer: it never delivers. -/
theorem HeaderWithoutLength.processBuffer {block : Bytes} (header : HeaderWithoutLength block)
    (rest : Bytes) {out : List J × Bytes}
    (run : processBuffer parse (block ++ separator ++ rest) = .ok out) :
    out = ([], block ++ separator ++ rest) ∨
      0 ≤ wrap32 (block.length + 4 : Nat) ∧
        out = ([], (block ++ separator).take (wrap32 (block.length + 4 : Nat)).toNat) := by
  have size : (block ++ separator).length = block.length + 4 := by simp [separator]
  have nonempty : block ++ separator ++ rest ≠ [] := by simp [separator]
  have bound := CInt.wrap32_le_natCast (block.length + 4)
  rw [processBuffer_eq] at run
  unfold doProcessBuffer at run
  rw [if_neg nonempty, readHeaders_block header.first] at run
  simp only [header.unnamed] at run
  split at run
  · exact Or.inl (Except.ok.inj run).symm
  · split at run
    · rename_i range
      refine Or.inr ⟨range.1, (Except.ok.inj run).symm.trans ?_⟩
      rw [List.take_append_of_le_length (by omega)]
    · exact absurd run (by simp [bind, Except.bind])

theorem HeaderWithoutLength.processBuffer_wrapped {block : Bytes} (header : HeaderWithoutLength block)
    (wraps : 2 ^ 32 ∣ block.length + 4) (rest : Bytes) :
    JsonRPC.processBuffer parse (block ++ separator ++ rest) = .ok ([], []) := by
  have nonempty : block ++ separator ++ rest ≠ [] := by simp [separator]
  rw [processBuffer_eq]
  unfold doProcessBuffer
  rw [if_neg nonempty, readHeaders_block header.first, CInt.wrap32_eq_zero_iff.mpr wraps]
  simp only [header.unnamed]
  rw [if_neg (by decide), if_pos ⟨le_rfl, Int.natCast_nonneg _⟩]
  rfl

/-- `erase(headerSize)` keeps the offending section and drops what follows it.
Only a section whose size wraps to 0 as an `int`, with nothing behind it, is
really removed. -/
theorem recovers_iff (parse : Bytes → Option J) (block : Bytes) (queued more : List Payload)
    (later : List Bytes) (header : HeaderWithoutLength block)
    (accepted : ∀ p ∈ queued ++ more, (parse p.bytes).isSome)
    (supplied : later.flatten = stream more) :
    Recovers parse block queued more later ↔ 2 ^ 32 ∣ block.length + 4 ∧ queued = [] := by
  constructor
  · rintro ⟨out, run, ⟨taken, delivered, kept⟩, _⟩
    have none : out.1 = [] := by
      rcases header.processBuffer _ run with rfl | ⟨_, rfl⟩ <;> rfl
    have still : queued.drop taken = queued := by
      have empty : queued.take taken = [] := by
        rw [none] at delivered
        exact List.map_eq_nil_iff.mp delivered.symm
      have split := List.take_append_drop taken queued
      rwa [empty, List.nil_append] at split
    rw [still] at kept
    rcases header.processBuffer _ run with rfl | ⟨lower, rfl⟩
    · have length := congrArg List.length kept
      simp only [separator, List.length_append, List.length_cons, List.length_nil] at length
      omega
    · dsimp only at kept
      have starts : stream queued <+: block ++ separator := by
        rw [← kept]
        exact List.take_prefix _ _
      have empty := header.stream_eq_nil starts
      refine ⟨?_, empty⟩
      rw [empty] at kept
      have length := congrArg List.length kept
      have bound := CInt.wrap32_le_natCast (block.length + 4)
      simp only [separator, stream, List.length_take, List.length_append, List.length_cons,
        List.length_nil, List.flatMap_nil] at length
      exact CInt.wrap32_eq_zero_iff.mp (by omega)
  · rintro ⟨wraps, rfl⟩
    refine ⟨([], []), header.processBuffer_wrapped wraps _, ⟨0, rfl, rfl⟩, fun _ => ?_⟩
    have all : ∀ p ∈ more, (parse p.bytes).isSome := by simpa using accepted
    refine ⟨_, receive_stream (fun p member => all p (List.mem_of_mem_dropLast member)) supplied, ?_⟩
    exact map_some_filterMap all

theorem headerWithoutLength_sample : HeaderWithoutLength (ascii "X: 1") where
  first := by unfold HeaderBlock; decide
  unnamed := by decide

theorem not_recovers_sample :
    ¬ Recovers parseSample (ascii "X: 1") [objectPayload] [objectPayload] [objectPayload.frame] := by
  rw [recovers_iff parseSample (ascii "X: 1") [objectPayload] [objectPayload] [objectPayload.frame]
    headerWithoutLength_sample (by decide) (by decide)]
  decide

/-- The section stays, both frames are lost, and so is every later one. -/
theorem header_without_length_sticks :
    processBuffer parseSample (ascii "X: 1\r\n\r\n" ++ objectPayload.frame) =
        .ok ([], ascii "X: 1\r\n\r\n") ∧
      receive parseSample (ascii "X: 1\r\n\r\n") [objectPayload.frame] =
        .ok ([], ascii "X: 1\r\n\r\n") ∧
      ¬ Recovers parseSample (ascii "X: 1") [objectPayload] [objectPayload] [objectPayload.frame] := by
  have stuck : processBuffer parseSample (ascii "X: 1" ++ separator ++ stream [objectPayload]) =
      .ok ([], ascii "X: 1\r\n\r\n") := rfl
  refine ⟨rfl, rfl, ?_⟩
  rintro ⟨out, run, _, delivered⟩
  rw [stuck] at run
  cases run
  obtain ⟨rest, later, _⟩ := delivered (by decide)
  have same : receive parseSample (ascii "X: 1\r\n\r\n") [objectPayload.frame] =
      .ok ([], ascii "X: 1\r\n\r\n") := rfl
  rw [same] at later
  have kept : ascii "X: 1\r\n\r\n" = [] := congrArg Prod.snd (Except.ok.inj later)
  exact absurd kept (by decide)

end WxDap.JsonRPC
