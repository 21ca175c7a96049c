import WxDap.Lib.CInt
import WxDap.Lib.Decimal
import WxDap.Lib.Find
import WxDap.Lib.UnorderedMap
import WxDap.StringUtils

namespace WxDap.JsonRPC
open Decimal (ascii atol numeral)
open CInt (wrap32 wrap64)

/-- How `ProcessBuffer` can end without returning: `std::string::erase` throws, the payload
iterators leave `m_buffer`, or the callback throws. -/
inductive Fault
  | outOfRange
  | invalidSlice
  | callback
  deriving DecidableEq, Repr

/-- The header separator `"\r\n\r\n"`. -/
def separator : Bytes := [13, 10, 13, 10]

def contentLength : Bytes := ascii "Content-Length"

/-- The name and the value of one header line. -/
def header (line : Bytes) : Bytes × Bytes :=
  (StringUtils.trim (StringUtils.beforeFirst (StringUtils.trim line) 58),
    StringUtils.trim (StringUtils.afterFirst (StringUtils.trim line) 58))

def parseHeaders (headerSection : Bytes) : UnorderedMap Bytes Bytes :=
  (StringUtils.split headerSection [10]).foldl
    (fun headers line => headers.insert (header line).1 (header line).2) .empty

/-- The size of the header section with its separator, as an `int`, and the headers. -/
def readHeaders (buffer : Bytes) : Int × UnorderedMap Bytes Bytes :=
  match Find.find separator buffer with
  | none => (-1, .empty)
  | some start => (wrap32 (start + 4 : Nat), parseHeaders (buffer.take start))

section
variable {J : Type} (parse : Bytes → Option J)

/-- `none` is the Json that is not OK; `parse` stands for `Json::Parse`. The second
component is `m_buffer` afterwards. -/
def doProcessBuffer (buffer : Bytes) : Except Fault (Option J × Bytes) :=
  if buffer = [] then .ok (none, buffer)
  else
    let (headerSize, headers) := readHeaders buffer
    if headerSize = -1 then .ok (none, buffer)
    else
      match headers.find contentLength with
      | none =>
        -- `erase(headerSize)` drops everything from that position on
        if 0 ≤ headerSize ∧ headerSize ≤ buffer.length then
          .ok (none, buffer.take headerSize.toNat)
        else .error .outOfRange
      | some value =>
        let msglen := atol value
        if msglen ≤ 0 then .ok (none, buffer)
        else if wrap64 (headerSize + msglen) > buffer.length then .ok (none, buffer)
        else if 0 ≤ headerSize ∧ headerSize + msglen ≤ buffer.length then
          .ok (parse ((buffer.drop headerSize.toNat).take msglen.toNat),
            buffer.drop (headerSize + msglen).toNat)
        else .error .invalidSlice

/-- Every successful turn of the loop removes at least one byte of the buffer. -/
def processBufferFuel : Nat → Bytes → Except Fault (List J × Bytes)
  | 0, buffer => .ok ([], buffer)
  | fuel + 1, buffer => do
    let (json, rest) ← doProcessBuffer parse buffer
    match json with
    | none => return ([], rest)
    | some json =>
      let (later, last) ← processBufferFuel fuel rest
      return (json :: later, last)

/-- The values handed to the callback, in order, and `m_buffer` afterwards. -/
def processBuffer (buffer : Bytes) : Except Fault (List J × Bytes) :=
  processBufferFuel parse (buffer.length + 1) buffer

def appendBuffer (buffer chunk : Bytes) : Bytes :=
  buffer ++ chunk

/-- `AppendBuffer` followed by `ProcessBuffer`, once for each chunk. -/
def receive (buffer : Bytes) : List Bytes → Except Fault (List J × Bytes)
  | [] => .ok ([], buffer)
  | chunk :: chunks => do
    let out ← processBuffer parse (appendBuffer buffer chunk)
    let later ← receive out.2 chunks
    return (out.1 ++ later.1, later.2)

end

/-- The buffer that `Send` hands to the transport for a payload. -/
def networkBuffer (payload : Bytes) : Bytes :=
  ascii "Content-Length: " ++ numeral payload.length ++ separator ++ payload

section
variable {J : Type} {parse : Bytes → Option J}

theorem doProcessBuffer_nil : doProcessBuffer parse [] = .ok (none, []) := rfl

theorem doProcessBuffer_shrinks {buffer rest : Bytes} {json : J}
    (run : doProcessBuffer parse buffer = .ok (some json, rest)) : rest.length < buffer.length := by
  unfold doProcessBuffer at run
  split at run
  · simp at run
  · dsimp only at run
    split at run
    · simp at run
    · split at run
      · split at run <;> simp at run
      · split at run
        · simp at run
        · split at run
          · simp at run
          · split at run
            · rename_i positive _ bounds
              simp only [Except.ok.injEq, Prod.mk.injEq] at run
              rw [← run.2, List.length_drop]
              omega
            · simp at run

theorem processBufferFuel_enough {fuel : Nat} {buffer : Bytes} (enough : buffer.length < fuel) :
    processBufferFuel parse fuel buffer = processBuffer parse buffer := by
  unfold processBuffer
  induction fuel using Nat.strong_induction_on generalizing buffer with
  | _ fuel ih =>
    obtain ⟨fuel, rfl⟩ : ∃ f, fuel = f + 1 := ⟨fuel - 1, by omega⟩
    simp only [processBufferFuel]
    cases run : doProcessBuffer parse buffer with
    | error e => rfl
    | ok out =>
      obtain ⟨json, rest⟩ := out
      cases json with
      | none => rfl
      | some json =>
        have shrinks := doProcessBuffer_shrinks run
        have large := ih fuel (by omega) (show rest.length < fuel by omega)
        by_cases same : buffer.length = fuel
        · simp only [same]
        · have small := ih buffer.length (by omega) shrinks
          simp only [bind, Except.bind, large, small]

/-- The loop of `ProcessBuffer` without the bound on its turns. -/
theorem processBuffer_eq (buffer : Bytes) :
    processBuffer parse buffer =
      (do
        let (json, rest) ← doProcessBuffer parse buffer
        match json with
        | none => return ([], rest)
        | some json =>
          let (later, last) ← processBuffer parse rest
          return (json :: later, last)) := by
  conv_lhs => unfold processBuffer processBufferFuel
  cases run : doProcessBuffer parse buffer with
  | error e => rfl
  | ok out =>
    obtain ⟨json, rest⟩ := out
    cases json with
    | none => rfl
    | some json =>
      have large : processBufferFuel parse buffer.length rest = processBuffer parse rest :=
        processBufferFuel_enough (doProcessBuffer_shrinks run)
      simp only [bind, Except.bind, large]

end

end WxDap.JsonRPC
