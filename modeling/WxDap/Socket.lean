import WxDap.Lib.CInt
import WxDap.Lib.Loop
import WxDap.StringUtils

namespace WxDap.Socket

open CInt

/-- The return codes of the socket's methods. -/
inductive Code
  | kSuccess
  | kTimeout
  deriving DecidableEq, Repr

/-- What `select` finds out about the only descriptor it is given. -/
inductive Select
  | ready
  | timeout
  | failed
  deriving DecidableEq, Repr

/-- The two methods that wait for the socket differ in the text of their last error. `valid`
says that the descriptor is not `INVALID_SOCKET`, and `error` is the text of the last system error. -/
def selectMS (failure : String) (valid : Bool) (milliSeconds : Int) (rc : Select) (error : String) :
    Except String Code :=
  if milliSeconds < 0 then .error "Invalid timeout"
  else if ¬valid then .error "Invalid socket!"
  else
    match rc with
    | .timeout => .ok .kTimeout
    | .failed => .error (failure ++ error)
    | .ready => .ok .kSuccess

def SelectWriteMS := selectMS "SelectWriteMS failed: "

def SelectReadMS := selectMS "SelectRead failed: "

/-- The `buffer` of `Read` has 16 KiB. -/
def bufferSize : Nat := 16 <<< 10

/-- What `recv` has received: some bytes, and not more than its buffer holds. -/
def Received := { bytes : Bytes // bytes ≠ [] ∧ bytes.length ≤ bufferSize }

inductive RecvResult
  | data (bytes : Received)
  /-- the other side has closed the connection -/
  | closed
  /-- `eWouldBlock` -/
  | wouldBlock
  | failed

/-- The `Read` that fills a buffer. -/
def readBuffer (res : RecvResult) (error : String) : Except String (Code × Bytes) :=
  match res with
  | .wouldBlock => .ok (.kTimeout, [])
  | .failed => .error ("Read failed: " ++ error)
  | .closed => .error ("Read failed: " ++ error)
  | .data bytes => .ok (.kSuccess, bytes.val)

/-- The `Read` that changes a string, and leaves it alone unless it has read something. -/
def Read (content : Bytes) (res : RecvResult) (error : String) : Except String (Code × Bytes) :=
  (readBuffer res error).map (fun (rc, buffer) => (rc, if rc = .kSuccess then buffer else content))

/-- What `::send` does: it takes what there is room for, or it fails. -/
inductive SendResult
  | room (bytes : Nat)
  | failed
  deriving DecidableEq, Repr

/-- What one turn of the loop of `Send` meets. -/
structure Turn where
  select : Select := .ready
  send : SendResult
  error : String := ""
  deriving DecidableEq, Repr

/-- A call of `::send`, with where its buffer is in the message. -/
structure Call where
  offset : Nat
  length : Nat
  /-- how many bytes of the buffer are accepted -/
  bytes : Nat
  deriving DecidableEq, Repr

/-- The local variables of `Send`, and the calls it has made. -/
structure Sender where
  pdata : Nat := 0
  /-- an `int` -/
  bytesLeft : Int
  calls : List Call := []
  deriving DecidableEq, Repr

/-- Conversion of an `int` to a `size_t`. -/
def sizeT (n : Int) : Nat := (n % 2 ^ 64).toNat

/-- The value of `::send`, as an `int`. -/
def SendResult.bytesSent (result : SendResult) (length : Nat) : Int :=
  match result with
  | .room bytes => wrap32 (min bytes length : Nat)
  | .failed => -1

/-- The loop of `Send`. With its result go the calls it has made. -/
def sendLoop : Loop Sender Turn (Except String Unit × List Call) := fun sender turn =>
  if sender.bytesLeft ≠ 0 then
    match SelectWriteMS true 1000 turn.select turn.error with
    | .error text => .inr (.error text, sender.calls)
    | .ok .kTimeout => .inl sender
    | .ok .kSuccess =>
      let length := sizeT sender.bytesLeft
      let bytesSent := turn.send.bytesSent length
      let calls := sender.calls ++ [⟨sender.pdata, length, bytesSent.toNat⟩]
      if bytesSent ≤ 0 then .inr (.error ("Send error: " ++ turn.error), calls)
      else
        .inl
          { pdata := sender.pdata + bytesSent.toNat
            bytesLeft := sender.bytesLeft - bytesSent
            calls }
  else .inr (.ok (), sender.calls)

/-- `Send`, after some turns of its loop. -/
def Send (valid : Bool) (msg : Bytes) (schedule : Nat → Turn) (turns : Nat) :
    Sender ⊕ (Except String Unit × List Call) :=
  if ¬valid then .inr (.error "Invalid socket!", [])
  else if msg = [] then .inr (.ok (), [])
  else sendLoop.after { bytesLeft := wrap32 msg.length } schedule turns

/-- The calls made so far. -/
def callsOf : Sender ⊕ (Except String Unit × List Call) → List Call :=
  Sum.elim Sender.calls Prod.snd

/-- The bytes that a call is given. -/
def Call.buffer (msg : Bytes) (call : Call) : Bytes := (msg.drop call.offset).take call.length

/-- The bytes that some calls have accepted, one after the other. -/
def accepted (msg : Bytes) (calls : List Call) : Bytes :=
  calls.flatMap (fun call => (call.buffer msg).take call.bytes)

/-- Every call is given all of the message that the calls before it have not accepted, and nothing else. -/
def InStep (msg : Bytes) (calls : List Call) : Prop :=
  ∀ before call rest, calls = before ++ call :: rest →
    call.offset = (accepted msg before).length ∧ call.offset + call.length = msg.length ∧
      accepted msg before ++ call.buffer msg = msg

/-! ### The invariant of the loop -/

section
variable {msg : Bytes}

theorem accepted_concat (calls : List Call) (call : Call) :
    accepted msg (calls ++ [call]) = accepted msg calls ++ (call.buffer msg).take call.bytes := by
  rw [accepted, List.flatMap_append, List.flatMap_singleton]
  rfl

theorem inStep_nil : InStep msg [] := by
  intro before call rest same
  cases before <;> cases same

theorem InStep.concat {calls : List Call} {call : Call} (inStep : InStep msg calls)
    (offset : call.offset = (accepted msg calls).length) (length : call.offset + call.length = msg.length)
    (whole : accepted msg calls ++ call.buffer msg = msg) : InStep msg (calls ++ [call]) := by
  intro before other rest same
  rcases List.eq_nil_or_concat rest with rfl | ⟨rest, last, rfl⟩
  · obtain ⟨rfl, single⟩ := List.append_inj' same rfl
    obtain rfl := List.singleton_inj.mp single
    exact ⟨offset, length, whole⟩
  · rw [List.concat_eq_append, ← List.cons_append, ← List.append_assoc] at same
    exact inStep before other rest (List.append_inj' same rfl).1

/-- The pointer is at what has been accepted, and the counter says what is left. -/
structure Sender.Good (msg : Bytes) (sender : Sender) : Prop where
  accepted : accepted msg sender.calls = msg.take sender.pdata
  left : sender.bytesLeft = msg.length - sender.pdata
  within : sender.pdata ≤ msg.length
  inStep : InStep msg sender.calls

/-- What is good about a result of `Send`. -/
structure Delivered (msg : Bytes) (result : Except String Unit × List Call) : Prop where
  inStep : InStep msg result.2
  returned : result.1 = .ok () → accepted msg result.2 = msg
  thrown : ∀ text, result.1 = .error text → accepted msg result.2 <+: msg ∧ accepted msg result.2 ≠ msg

theorem bytesSent_cases (result : SendResult) {length : Nat} (small : length < 2 ^ 31) :
    result.bytesSent length ≤ 0 ∨ ∃ n : Nat, 0 < n ∧ n ≤ length ∧ result.bytesSent length = n := by
  cases result with
  | room bytes =>
    have value : SendResult.bytesSent (.room bytes) length = (min bytes length : Nat) :=
      wrap32_of_range (by omega) (by omega)
    rcases Nat.eq_zero_or_pos (min bytes length) with none | some
    · exact Or.inl (by omega)
    · exact Or.inr ⟨_, some, Nat.min_le_right _ _, value⟩
  | failed => exact Or.inl (by rw [SendResult.bytesSent]; decide)

section
variable {sender : Sender} (good : sender.Good msg)
include good

theorem Sender.Good.length_accepted : (Socket.accepted msg sender.calls).length = sender.pdata := by
  rw [good.accepted, List.length_take_of_le good.within]

theorem Sender.Good.sizeT (small : msg.length < 2 ^ 31) :
    Socket.sizeT sender.bytesLeft = msg.length - sender.pdata := by
  have left := good.left
  have within := good.within
  rw [Socket.sizeT]
  omega

/-- The call that a good sender makes is in step with those before it. -/
theorem Sender.Good.call (small : msg.length < 2 ^ 31) (n : Nat) :
    let calls := sender.calls ++ [⟨sender.pdata, Socket.sizeT sender.bytesLeft, n⟩]
    InStep msg calls ∧ Socket.accepted msg calls = msg.take (sender.pdata + n) := by
  have within := good.within
  have buffer : Call.buffer msg ⟨sender.pdata, Socket.sizeT sender.bytesLeft, n⟩ = msg.drop sender.pdata := by
    rw [Call.buffer, good.sizeT small, ← List.length_drop, List.take_length]
  constructor
  · refine good.inStep.concat good.length_accepted.symm ?_ ?_
    · exact (congrArg (sender.pdata + ·) (good.sizeT small)).trans (Nat.add_sub_of_le within)
    · rw [buffer, good.accepted, List.take_append_drop]
  · rw [accepted_concat, buffer, good.accepted, List.take_add]

/-- A sender that stops before the end has delivered a proper prefix. -/
theorem Sender.Good.stopped {calls : List Call} {text : String} (inStep : InStep msg calls)
    (left : sender.bytesLeft ≠ 0) (same : Socket.accepted msg calls = msg.take sender.pdata) :
    Delivered msg (.error text, calls) := by
  refine ⟨inStep, (fun returned => nomatch returned), fun _ _ => ?_⟩
  rw [same]
  refine ⟨List.take_prefix _ _, fun whole => left ?_⟩
  have long := congrArg List.length whole
  rw [List.length_take_of_le good.within] at long
  rw [good.left, long]
  exact Int.sub_self _

/-- What a turn does to a good sender: the loop is left with the message delivered as far as
the result says, or it goes on with a good sender. -/
theorem Sender.Good.turn (small : msg.length < 2 ^ 31) (turn : Turn) :
    (∃ next : Sender, sendLoop sender turn = .inl next ∧ next.Good msg) ∨
      ∃ result, sendLoop sender turn = .inr result ∧ Delivered msg result := by
  rw [sendLoop]
  split
  · rename_i left
    split
    · exact Or.inr ⟨_, rfl, good.stopped good.inStep left good.accepted⟩
    · exact Or.inl ⟨_, rfl, good⟩
    · have length := good.sizeT small
      rcases @bytesSent_cases turn.send (Socket.sizeT sender.bytesLeft) (by omega) with
        none | ⟨n, positive, few, value⟩
      · obtain ⟨inStep, same⟩ := good.call small (turn.send.bytesSent (Socket.sizeT sender.bytesLeft)).toNat
        rw [Int.toNat_eq_zero.mpr none, Nat.add_zero] at same
        refine Or.inr ⟨_, if_pos none, good.stopped ?_ left ?_⟩
        · exact inStep
        · rw [Int.toNat_eq_zero.mpr none]
          exact same
      · obtain ⟨inStep, same⟩ := good.call small n
        refine Or.inl ⟨_, if_neg (by omega), ?_, ?_, ?_, ?_⟩
        · rw [value]
          exact same
        · have := good.left
          rw [value]
          simp only [Int.toNat_natCast]
          omega
        · have := good.within
          rw [value]
          simp only [Int.toNat_natCast]
          omega
        · rw [value]
          exact inStep
  · rename_i done
    refine Or.inr ⟨_, rfl, good.inStep, fun _ => ?_, (fun _ thrown => nomatch thrown)⟩
    have left := good.left
    rw [good.accepted, List.take_of_length_le (by omega)]

end

end

/-! ### Whole runs -/

section
variable {msg : Bytes} (schedule : Nat → Turn)

theorem good_start (small : msg.length < 2 ^ 31) : Sender.Good msg { bytesLeft := wrap32 msg.length } :=
  ⟨rfl, by rw [wrap32_of_range (by omega) (by omega)]; exact (Int.sub_zero _).symm, Nat.zero_le _, inStep_nil⟩

/-- After any number of turns the loop has a good sender, or it has delivered what it says. -/
theorem sendLoop_good (small : msg.length < 2 ^ 31) (turns : Nat) :
    (∃ sender, sendLoop.after { bytesLeft := wrap32 msg.length } schedule turns = .inl sender ∧
        sender.Good msg) ∨
      ∃ result, sendLoop.after { bytesLeft := wrap32 msg.length } schedule turns = .inr result ∧
        Delivered msg result := by
  induction turns with
  | zero => exact Or.inl ⟨_, rfl, good_start small⟩
  | succ turns ih =>
    rcases ih with ⟨sender, here, good⟩ | ⟨result, here, delivered⟩
    · rw [Loop.after_succ here]
      exact good.turn small (schedule turns)
    · exact Or.inr ⟨result, Loop.after_add here 1, delivered⟩

/-- Every result of `Send` on a valid socket is delivered, and an unfinished `Send` has a good sender. -/
theorem send_good (small : msg.length < 2 ^ 31) (turns : Nat) :
    (∃ sender, Send true msg schedule turns = .inl sender ∧ sender.Good msg ∧
        Send true msg schedule (turns + 1) = sendLoop sender (schedule turns)) ∨
      ∃ result, Send true msg schedule turns = .inr result ∧
        Send true msg schedule (turns + 1) = .inr result ∧ Delivered msg result := by
  by_cases empty : msg = []
  · refine Or.inr ⟨(.ok (), []), if_pos empty, if_pos empty, inStep_nil, fun _ => empty.symm, ?_⟩
    exact fun _ thrown => nomatch thrown
  · have enters (n : Nat) : Send true msg schedule n =
        sendLoop.after { bytesLeft := wrap32 msg.length } schedule n := if_neg empty
    simp only [enters]
    rcases sendLoop_good schedule small turns with ⟨sender, here, good⟩ | ⟨result, here, delivered⟩
    · exact Or.inl ⟨sender, here, good, Loop.after_succ here⟩
    · exact Or.inr ⟨result, here, Loop.after_add here 1, delivered⟩

/-- At every point of a `Send` on a valid socket, each call has been given all that was left of
the message. A normal return leaves the whole message accepted and an exception a proper prefix of it,
and `Send` returns at the next test of its loop when all is accepted. -/
theorem send_exact (msg : Bytes) (schedule : Nat → Turn) (small : msg.length < 2 ^ 31) (turns : Nat) :
    let now := Send true msg schedule turns
    InStep msg (callsOf now) ∧
      (∀ calls, now = .inr (.ok (), calls) → accepted msg calls = msg) ∧
      (∀ text calls, now = .inr (.error text, calls) →
        accepted msg calls <+: msg ∧ accepted msg calls ≠ msg) ∧
      (accepted msg (callsOf now) = msg →
        Send true msg schedule (turns + 1) = .inr (.ok (), callsOf now)) := by
  rcases send_good schedule small turns with ⟨sender, here, good, next⟩ | ⟨⟨result, calls⟩, here, next, delivered⟩
  · simp only [here, next]
    refine ⟨good.inStep, (fun _ same => nomatch same), (fun _ _ same => nomatch same), fun whole => ?_⟩
    have long := congrArg List.length whole
    have left := good.left
    rw [callsOf, Sum.elim_inl, good.length_accepted] at long
    rw [sendLoop, if_neg (by omega)]
    rfl
  · simp only [here, next]
    refine ⟨delivered.inStep, ?_, ?_, fun whole => ?_⟩
    · rintro calls same
      cases same
      exact delivered.returned rfl
    · rintro text calls same
      cases same
      exact delivered.thrown text rfl
    · cases result with
      | ok => rfl
      | error text => exact absurd whole (delivered.thrown text rfl).2

end

/-- Three bytes of which one is accepted at a time, after a timeout. -/
theorem send_exact_three :
    let schedule (n : Nat) : Turn := if n = 0 then { select := .timeout, send := .room 1 } else { send := .room 1 }
    [1, 2, 3].length < 2 ^ 31 ∧
      Send true [1, 2, 3] schedule 5 = .inr (.ok (), [⟨0, 3, 1⟩, ⟨1, 2, 1⟩, ⟨2, 1, 1⟩]) ∧
      accepted [1, 2, 3] [⟨0, 3, 1⟩, ⟨1, 2, 1⟩, ⟨2, 1, 1⟩] = [1, 2, 3] := by
  intro schedule
  have small : [(1 : UInt8), 2, 3].length < 2 ^ 31 := by decide
  have run : Send true [1, 2, 3] schedule 5 = .inr (.ok (), [⟨0, 3, 1⟩, ⟨1, 2, 1⟩, ⟨2, 1, 1⟩]) := by decide
  exact ⟨small, run, (send_exact _ schedule small 5).2.1 _ run⟩

end WxDap.Socket
