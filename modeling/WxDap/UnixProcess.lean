import WxDap.Lib.Encoding
import WxDap.Lib.Loop
import WxDap.StringUtils

namespace WxDap.UnixProcess

/-- What `::write` does. `EWOULDBLOCK` is `EAGAIN`, and `failed` is any other error. -/
inductive WriteResult
  /-- the pipe has room for some bytes, or for none, and takes what fits -/
  | room (bytes : Nat)
  | EAGAIN
  | EINTR
  | failed
  deriving DecidableEq, Repr

/-- What one turn of the loop meets: the flag it tests and the call it makes. -/
structure Turn where
  shutdown : Bool := false
  write : WriteResult
  deriving DecidableEq, Repr

/-- The local string of `Write`, a `wxString` of code points, and what the pipe has accepted. -/
structure Writer where
  tmp : List Char
  pipe : Bytes := []
  deriving DecidableEq, Repr

/-- `wxString::c_str` under a UTF-8 locale. -/
def cStr (str : List Char) : Bytes := str.flatMap String.utf8EncodeChar

def chunkSize : Nat := 4096

/-- The third argument of `::write`. -/
def count (tmp : List Char) : Nat :=
  if tmp.length > chunkSize then chunkSize else tmp.length

/-- The loop of `Write`. With its result goes what the pipe has accepted. -/
def writeLoop : Loop Writer Turn (Bool × Bytes) := fun writer turn =>
  if writer.tmp ≠ [] ∧ turn.shutdown = false then
    match turn.write with
    | .room room =>
      let bytes := min room (count writer.tmp)
      .inl { tmp := writer.tmp.drop bytes, pipe := writer.pipe ++ (cStr writer.tmp).take bytes }
    | .EAGAIN => .inl writer
    | .EINTR => .inl writer
    | .failed => .inr (writer.tmp = [], writer.pipe)
  else .inr (writer.tmp = [], writer.pipe)

/-- `Write` gives this result, and the pipe has accepted these bytes by then. A `std::string`
of valid UTF-8 is a `String`, and its code points are the `wxString` it is converted to. -/
def Write (message : String) (schedule : Nat → Turn) (result : Bool) (pipe : Bytes) : Prop :=
  writeLoop.Returns { tmp := message.toList } schedule (result, pipe)

/-- The bytes of a `std::string`. -/
def bytes (message : String) : Bytes := message.toByteArray.data.toList

/-- `StdoutTransport::Send`: a message that `Write` has written counts with all its bytes. -/
def send (isAlive : Bool) (message : String) (written : Bool) : Nat :=
  if ¬isAlive then 0
  else if ¬written then 0
  else (bytes message).length

/-- Nothing but the message goes to the pipe, and all of it when `Write` says so. -/
def ByteExact (message : String) (schedule : Nat → Turn) : Prop :=
  ∀ result pipe, Write message schedule result pipe →
    if result then pipe = bytes message else pipe <+: bytes message

def IsAscii (message : String) : Prop := ∀ c ∈ message.toList, c.toNat < 128

/-! ### One turn -/

theorem bytes_eq (message : String) : bytes message = cStr message.toList := by
  rw [bytes, ← String.utf8Encode_toList, List.utf8Encode, List.toList_data_toByteArray]
  rfl

theorem utf8EncodeChar_ne_nil (c : Char) : String.utf8EncodeChar c ≠ [] := String.utf8EncodeChar_ne_nil

theorem length_utf8EncodeChar_eq_one (c : Char) : (String.utf8EncodeChar c).length = 1 ↔ c.toNat < 128 := by
  rw [String.length_utf8EncodeChar, Char.utf8Size_eq_one_iff, UInt32.le_iff_toNat_le]
  exact Nat.lt_succ_iff.symm

theorem count_le (tmp : List Char) : count tmp ≤ tmp.length := by
  rw [count]
  split <;> omega

/-- What a turn does: it takes some bytes from the encoded text and as many code points from
the text, or it leaves the loop. -/
theorem writeLoop_cases (writer : Writer) (turn : Turn) :
    (∃ n, n ≤ writer.tmp.length ∧ writeLoop writer turn =
      .inl { tmp := writer.tmp.drop n, pipe := writer.pipe ++ (cStr writer.tmp).take n }) ∨
    writeLoop writer turn = .inr (writer.tmp = [], writer.pipe) := by
  obtain ⟨shutdown, write⟩ := turn
  rw [writeLoop]
  split
  · cases write with
    | room room => exact Or.inl ⟨_, Nat.le_trans (Nat.min_le_right _ _) (count_le _), rfl⟩
    | EAGAIN => exact Or.inl ⟨0, Nat.zero_le _, by simp⟩
    | EINTR => exact Or.inl ⟨0, Nat.zero_le _, by simp⟩
    | failed => exact Or.inr rfl
  · exact Or.inr rfl

/-! ### Whole runs -/

section
variable {message : String} {schedule : Nat → Turn} {result : Bool} {pipe : Bytes}

/-- `Write` returns from a writer that has gone on by steps of equally many bytes and code points. -/
theorem Write.last (run : Write message schedule result pipe) (holds : Writer → Prop)
    (initial : holds { tmp := message.toList })
    (kept : ∀ writer n, n ≤ writer.tmp.length → holds writer →
      holds { tmp := writer.tmp.drop n, pipe := writer.pipe ++ (cStr writer.tmp).take n }) :
    ∃ writer, holds writer ∧ result = decide (writer.tmp = []) ∧ pipe = writer.pipe := by
  refine run.of_invariant holds
    (fun result => ∃ writer, holds writer ∧ result.1 = decide (writer.tmp = []) ∧ result.2 = writer.pipe)
    initial (fun writer n next good turn => ?_) (fun writer n result good turn => ?_)
  · rcases writeLoop_cases writer (schedule n) with ⟨taken, within, goes⟩ | leaves
    · rw [goes] at turn
      obtain rfl := Sum.inl.inj turn
      exact kept writer taken within good
    · rw [leaves] at turn
      cases turn
  · rcases writeLoop_cases writer (schedule n) with ⟨taken, within, goes⟩ | leaves
    · rw [goes] at turn
      cases turn
    · rw [leaves] at turn
      obtain rfl := Sum.inr.inj turn
      exact ⟨writer, good, rfl, rfl⟩

/-- The bytes in the pipe are as many as the code points that are gone. -/
theorem Write.length (run : Write message schedule true pipe) : pipe.length = message.toList.length := by
  let balanced (writer : Writer) : Prop := writer.pipe.length + writer.tmp.length = message.toList.length
  have kept (writer : Writer) (n : Nat) (within : n ≤ writer.tmp.length) (gone : balanced writer) :
      balanced { tmp := writer.tmp.drop n, pipe := writer.pipe ++ (cStr writer.tmp).take n } := by
    simp only [balanced, List.length_append, List.length_drop, cStr,
      Encoding.length_take utf8EncodeChar_ne_nil within] at gone ⊢
    omega
  obtain ⟨writer, gone, empty, rfl⟩ := run.last balanced (Nat.zero_add _) kept
  simp only [balanced] at gone
  rw [of_decide_eq_true empty.symm] at gone
  exact gone

theorem length_bytes_eq_iff (message : String) :
    (bytes message).length = message.toList.length ↔ IsAscii message := by
  rw [bytes_eq, cStr, Encoding.length_eq_iff utf8EncodeChar_ne_nil, IsAscii]
  exact forall₂_congr (fun c _ => length_utf8EncodeChar_eq_one c)

/-- For ASCII text, what is in the pipe and what is left make up the message. -/
theorem Write.rest (run : Write message schedule result pipe) (ascii : IsAscii message) :
    ∃ tmp, pipe ++ cStr tmp = bytes message ∧ result = decide (tmp = []) := by
  let complete (writer : Writer) : Prop :=
    (∀ c ∈ writer.tmp, c.toNat < 128) ∧ writer.pipe ++ cStr writer.tmp = bytes message
  have kept (writer : Writer) (n : Nat) (_ : n ≤ writer.tmp.length) (now : complete writer) :
      complete { tmp := writer.tmp.drop n, pipe := writer.pipe ++ (cStr writer.tmp).take n } := by
    obtain ⟨small, whole⟩ := now
    have single : ∀ c ∈ writer.tmp, (String.utf8EncodeChar c).length = 1 :=
      fun c member => (length_utf8EncodeChar_eq_one c).mpr (small c member)
    refine ⟨fun c member => small c (List.mem_of_mem_drop member), ?_⟩
    rw [List.append_assoc, cStr, cStr, Encoding.take_append_drop single]
    exact whole
  obtain ⟨writer, ⟨_, whole⟩, empty, rfl⟩ := run.last complete ⟨ascii, (bytes_eq message).symm⟩ kept
  exact ⟨writer.tmp, whole, empty⟩

end

/-- A pipe with room for a byte each time. -/
theorem exists_write (message : String) :
    ∃ pipe, Write message (fun _ => ⟨false, .room 1⟩) true pipe := by
  have goes {writer : Writer} (some : writer.tmp ≠ []) :
      ∃ next, writeLoop writer ⟨false, .room 1⟩ = .inl next ∧ next.tmp.length < writer.tmp.length := by
    have long := List.length_pos_iff.mpr some
    refine ⟨_, if_pos ⟨some, rfl⟩, ?_⟩
    rw [List.length_drop, count, chunkSize]
    split <;> omega
  have shrinks (writer : Writer) (n : Nat) (next : Writer) (_ : True)
      (turn : writeLoop writer ⟨false, .room 1⟩ = .inl next) :
      True ∧ next.tmp.length < writer.tmp.length := by
    by_cases empty : writer.tmp = []
    · rw [writeLoop, if_neg (fun more => more.1 empty)] at turn
      cases turn
    · obtain ⟨other, step, less⟩ := goes empty
      rw [step] at turn
      rw [← Sum.inl.inj turn]
      exact ⟨trivial, less⟩
  obtain ⟨⟨result, pipe⟩, run⟩ := @Loop.returns_of_measure _ _ _ writeLoop { tmp := message.toList }
    (fun _ => ⟨false, .room 1⟩) (fun _ => True) (fun writer => writer.tmp.length) trivial shrinks
  obtain ⟨n, writer, _, leaves⟩ := run.last
  by_cases empty : writer.tmp = []
  · rw [writeLoop, if_neg (fun more => more.1 empty)] at leaves
    obtain ⟨rfl, rfl⟩ := Prod.mk.inj (Sum.inr.inj leaves)
    rw [decide_eq_true empty] at run
    exact ⟨_, run⟩
  · obtain ⟨other, step, _⟩ := goes empty
    rw [step] at leaves
    cases leaves

/-- `Write` is byte exact for the messages of ASCII characters only: it takes code points from
its text as if they were the bytes that the pipe has accepted. -/
theorem byteExact_iff (message : String) : (∀ schedule, ByteExact message schedule) ↔ IsAscii message := by
  constructor
  · intro exact
    obtain ⟨pipe, run⟩ := exists_write message
    have same : pipe = bytes message := exact _ true pipe run
    rw [← length_bytes_eq_iff, ← same, run.length]
  · intro ascii schedule result pipe run
    obtain ⟨tmp, whole, empty⟩ := run.rest ascii
    split
    · rename_i returned
      rw [returned] at empty
      rw [← whole, of_decide_eq_true empty.symm]
      exact (List.append_nil pipe).symm
    · exact ⟨cStr tmp, whole⟩

/-- One code point of two bytes: the pipe accepts the first of them, and the whole text is gone. -/
theorem not_byteExact_accent : ¬ ∀ message schedule, ByteExact message schedule := by
  intro always
  have text : (String.ofList ['é']).toList = ['é'] := String.toList_ofList
  have run : Write (String.ofList ['é']) (fun _ => ⟨false, .room 4096⟩) true [0xC3] := by
    refine ⟨2, ?_⟩
    rw [text]
    decide
  have same : [0xC3] = bytes (String.ofList ['é']) := always _ _ true _ run
  rw [bytes_eq, text] at same
  exact absurd same (by decide)

/-- The number that `Send` gives for a message that has been written is the number of bytes in the
pipe for ASCII messages only. -/
theorem send_eq_iff {message : String} {schedule : Nat → Turn} {pipe : Bytes}
    (run : Write message schedule true pipe) : send true message true = pipe.length ↔ IsAscii message := by
  rw [run.length, ← length_bytes_eq_iff]
  rfl

end WxDap.UnixProcess
