import WxDap.JsonRPC
import WxDap.Lib.Framing

namespace WxDap.JsonRPC
open Decimal (ascii atol numeral)
open CInt (wrap32 wrap64)

variable {J : Type} {parse : Bytes → Option J}

/-- A header block: the separator that ends it is the first one of the stream. -/
def HeaderBlock (block : Bytes) : Prop :=
  Find.find separator (block ++ separator) = some block.length

theorem HeaderBlock.find {block : Bytes} (first : HeaderBlock block) (rest : Bytes) :
    Find.find separator (block ++ separator ++ rest) = some block.length :=
  Find.find_append first rest

theorem readHeaders_block {block : Bytes} (first : HeaderBlock block) (rest : Bytes) :
    readHeaders (block ++ separator ++ rest) = (wrap32 (block.length + 4 : Nat), parseHeaders block) := by
  have taken : (block ++ separator ++ rest).take block.length = block := by
    rw [List.append_assoc, List.take_left]
  simp only [readHeaders, first.find, taken]

/-- Before the separator is complete there are no headers. -/
theorem readHeaders_short {block part : Bytes} (first : HeaderBlock block)
    (starts : part <+: block ++ separator) (short : part.length < block.length + 4) :
    readHeaders part = (-1, .empty) := by
  simp only [readHeaders, Find.find_before first starts short]

theorem doProcessBuffer_incomplete {buffer : Bytes} (headers : readHeaders buffer = (-1, .empty)) :
    doProcessBuffer parse buffer = .ok (none, buffer) := by
  unfold doProcessBuffer
  rw [headers]
  split <;> rfl

section
variable {block payload value : Bytes} (first : HeaderBlock block)
  (named : (parseHeaders block).find contentLength = some value)
  (length : atol value = payload.length) (positive : 1 ≤ payload.length)
  (small : block.length + 4 < 2 ^ 31) (fits : block.length + 4 + payload.length < 2 ^ 63)
include first named length positive small fits

/-- The general step: a header block whose `Content-Length` names the size of
what follows is removed together with its payload, whatever comes after. -/
theorem doProcessBuffer_block (rest : Bytes) :
    doProcessBuffer parse (block ++ separator ++ payload ++ rest) = .ok (parse payload, rest) := by
  have size : (block ++ separator).length = block.length + 4 := by simp [separator]
  have total : (block ++ separator ++ payload ++ rest).length =
      block.length + 4 + payload.length + rest.length := by
    rw [List.length_append, List.length_append, size]
  have nonempty : block ++ separator ++ payload ++ rest ≠ [] := by
    intro empty
    rw [empty, List.length_nil] at total
    omega
  have headers := readHeaders_block first (payload ++ rest)
  rw [CInt.wrap32_of_range (by omega) (by omega), ← List.append_assoc] at headers
  have sum : wrap64 ((block.length + 4 : Nat) + (payload.length : Int)) =
      (block.length + 4 + payload.length : Nat) := by
    rw [CInt.wrap64_of_range (by omega) (by omega)]
    omega
  have start : ((block.length + 4 : Nat) : Int).toNat = (block ++ separator).length := by omega
  have stop : ((block.length + 4 : Nat) + (payload.length : Int)).toNat =
      (block ++ separator ++ payload).length := by
    rw [List.length_append, size]
    omega
  unfold doProcessBuffer
  rw [if_neg nonempty, headers]
  simp only [named, length]
  rw [if_neg (by omega), if_neg (by omega), if_neg (by rw [sum, total]; omega),
    if_pos (by rw [total]; omega), start, stop, List.drop_left, List.append_assoc _ payload rest,
    List.drop_left, Int.toNat_natCast, List.take_left]

/-- A strict part of such a frame is left alone. -/
theorem doProcessBuffer_short {part : Bytes} (starts : part <+: block ++ separator ++ payload)
    (strict : part ≠ block ++ separator ++ payload) :
    doProcessBuffer parse part = .ok (none, part) := by
  have size : (block ++ separator).length = block.length + 4 := by simp [separator]
  by_cases short : part.length < block.length + 4
  · have within := List.prefix_of_prefix_length_le starts (List.prefix_append _ payload) (by omega)
    exact doProcessBuffer_incomplete (readHeaders_short first within short)
  · obtain ⟨more, rfl⟩ := List.prefix_of_prefix_length_le (List.prefix_append _ payload) starts (by omega)
    have inPayload : more <+: payload := (List.prefix_append_right_inj _).mp starts
    have less : more.length < payload.length := by
      rcases Nat.lt_or_ge more.length payload.length with less | enough
      · exact less
      · exact absurd (by rw [inPayload.eq_of_length_le enough]) strict
    have total : (block ++ separator ++ more).length = block.length + 4 + more.length := by
      rw [List.length_append, size]
    have nonempty : block ++ separator ++ more ≠ [] := by
      intro empty
      rw [empty, List.length_nil] at total
      omega
    have headers := readHeaders_block first more
    rw [CInt.wrap32_of_range (by omega) (by omega)] at headers
    have sum : wrap64 ((block.length + 4 : Nat) + (payload.length : Int)) =
        (block.length + 4 + payload.length : Nat) := by
      rw [CInt.wrap64_of_range (by omega) (by omega)]
      omega
    unfold doProcessBuffer
    rw [if_neg nonempty, headers]
    simp only [named, length]
    rw [if_neg (by omega), if_neg (by omega), if_pos (by rw [sum, total]; omega)]

end

/-- The header block that `Send` writes. -/
def sendHeader (size : Nat) : Bytes :=
  ascii "Content-Length: " ++ numeral size

theorem networkBuffer_eq (payload : Bytes) :
    networkBuffer payload = sendHeader payload.length ++ separator ++ payload := rfl

theorem sendHeader_mem {size : Nat} {b : UInt8} (member : b ∈ sendHeader size) :
    b ∈ ascii "Content-Length: " ∨ Decimal.isDigit b = true := by
  rcases List.mem_append.mp member with text | digit
  · exact Or.inl text
  · exact Or.inr (Decimal.isDigit_of_mem_numeral digit)

theorem sendHeader_not_mem {size : Nat} {b : UInt8} (absent : b ∉ ascii "Content-Length: ")
    (notDigit : Decimal.isDigit b = false) : b ∉ sendHeader size := by
  intro member
  rcases sendHeader_mem member with text | digit
  · exact absent text
  · rw [notDigit] at digit
    exact Bool.noConfusion digit

theorem sendHeader_block (size : Nat) : HeaderBlock (sendHeader size) := by
  have absent : 13 ∉ sendHeader size := sendHeader_not_mem (by decide) (by decide)
  have found : Find.find separator (sendHeader size ++ separator ++ []) = some (sendHeader size).length :=
    Find.find_of_head_not_mem absent []
  rwa [List.append_nil] at found

theorem isBlank_of_isDigit {b : UInt8} (digit : Decimal.isDigit b = true) :
    StringUtils.isBlank b = false := by
  have other : ∀ c : UInt8, Decimal.isDigit c = false → b ≠ c := by
    intro c notDigit same
    rw [same, notDigit] at digit
    exact Bool.noConfusion digit
  simp only [StringUtils.isBlank, Bool.or_eq_false_iff, beq_eq_false_iff_ne]
  exact ⟨⟨⟨other 32 (by decide), other 10 (by decide)⟩, other 13 (by decide)⟩, other 9 (by decide)⟩

theorem trim_numeral (size : Nat) : StringUtils.trim (numeral size) = numeral size := by
  refine StringUtils.trim_of_ends (fun b first => ?_) (fun b last => ?_)
  · exact isBlank_of_isDigit (Decimal.isDigit_of_mem_numeral (List.mem_of_mem_head? first))
  · exact isBlank_of_isDigit (Decimal.isDigit_of_mem_numeral (List.mem_of_mem_getLast? last))

theorem sendHeader_eq (size : Nat) : sendHeader size = contentLength ++ 58 :: 32 :: numeral size := by
  have text : ascii "Content-Length: " = contentLength ++ [58, 32] := by decide
  rw [sendHeader, text, List.append_assoc]
  rfl

theorem trim_sendHeader (size : Nat) : StringUtils.trim (sendHeader size) = sendHeader size := by
  refine StringUtils.trim_of_ends (fun b first => ?_) (fun b last => ?_)
  · have head : (sendHeader size).head? = some 67 := rfl
    rw [head, Option.mem_some_iff] at first
    subst first
    decide
  · rw [sendHeader, List.getLast?_append_of_ne_nil _ (Decimal.numeral_ne_nil size)] at last
    exact isBlank_of_isDigit (Decimal.isDigit_of_mem_numeral (List.mem_of_mem_getLast? last))

theorem header_sendHeader (size : Nat) : header (sendHeader size) = (contentLength, numeral size) := by
  have absent : 58 ∉ contentLength := by decide
  have trimmed : StringUtils.trim contentLength = contentLength := by decide
  simp only [header, trim_sendHeader]
  rw [sendHeader_eq, StringUtils.beforeFirst_append absent, StringUtils.afterFirst_append absent,
    trimmed, StringUtils.trim_cons_blank (by decide), trim_numeral]

theorem sendHeader_named (size : Nat) :
    (parseHeaders (sendHeader size)).find contentLength = some (numeral size) := by
  have noNul : 0 ∉ sendHeader size := sendHeader_not_mem (by decide) (by decide)
  have noLine : ∀ b ∈ sendHeader size, b ∉ [10] := by
    intro b member newline
    rw [List.mem_singleton] at newline
    subst newline
    exact sendHeader_not_mem (by decide) (by decide) member
  have nonempty : sendHeader size ≠ [] := by
    rw [sendHeader_eq]
    simp
  rw [parseHeaders, StringUtils.split_single noNul noLine nonempty (trim_sendHeader size)]
  simp only [List.foldl_cons, List.foldl_nil, header_sendHeader]
  exact UnorderedMap.find_insert_self (UnorderedMap.find_empty _) _

/-- A payload that `Send` can frame: not empty, and the whole frame fits a `std::string`. -/
structure Payload where
  bytes : Bytes
  positive : 1 ≤ bytes.length
  fits : (networkBuffer bytes).length < 2 ^ 63
  deriving DecidableEq

namespace Payload
variable (p : Payload)

def frame : Bytes := networkBuffer p.bytes

theorem frame_length : p.frame.length = (sendHeader p.bytes.length).length + 4 + p.bytes.length := by
  simp only [frame, networkBuffer_eq, separator, List.length_append, List.length_cons, List.length_nil]

theorem bytes_lt : p.bytes.length < 2 ^ 63 := by
  have bound := p.fits
  have length := p.frame_length
  unfold frame at length
  omega

theorem header_small : (sendHeader p.bytes.length).length + 4 < 2 ^ 31 := by
  have digits : (numeral p.bytes.length).length ≤ 19 :=
    Decimal.numeral_length_le (by decide) (p.bytes_lt.trans_le (by decide))
  have text : (ascii "Content-Length: ").length = 16 := by decide
  rw [sendHeader, List.length_append, text]
  omega

theorem doProcessBuffer_frame (rest : Bytes) :
    doProcessBuffer parse (p.frame ++ rest) = .ok (parse p.bytes, rest) := by
  have room := p.frame_length
  have fits := p.fits
  exact doProcessBuffer_block (sendHeader_block _) (sendHeader_named _)
    (Decimal.atol_numeral p.bytes_lt) p.positive p.header_small (by unfold frame at room; omega) rest

theorem doProcessBuffer_part {part : Bytes} (starts : part <+: p.frame) (strict : part ≠ p.frame) :
    doProcessBuffer parse part = .ok (none, part) := by
  have room := p.frame_length
  have fits := p.fits
  exact doProcessBuffer_short (sendHeader_block _) (sendHeader_named _)
    (Decimal.atol_numeral p.bytes_lt) p.positive p.header_small (by unfold frame at room; omega)
    starts strict

end Payload

/-- `ProcessBuffer` is a drain of the frames that `Send` writes. -/
def framing (parse : Bytes → Option J) : Framing UInt8 Payload J Fault where
  frame := Payload.frame
  accept := fun p => parse p.bytes
  drain := processBuffer parse
  frame_ne_nil := by
    intro p empty
    have length := p.frame_length
    rw [empty, List.length_nil] at length
    omega
  drain_nil := rfl
  drain_accept := by
    intro p json decoded rest
    rw [processBuffer_eq, p.doProcessBuffer_frame, decoded]
    cases run : processBuffer parse rest <;> simp [run, bind, Except.bind, Except.map, pure, Except.pure]
  drain_reject := by
    intro p decoded rest
    rw [processBuffer_eq, p.doProcessBuffer_frame, decoded]
    rfl
  drain_short := by
    intro p part starts strict
    rw [processBuffer_eq, p.doProcessBuffer_part starts strict]
    rfl

theorem receive_eq_feed (parse : Bytes → Option J) (buffer : Bytes) (chunks : List Bytes) :
    receive parse buffer chunks = (framing parse).feed buffer chunks := by
  induction chunks generalizing buffer with
  | nil => rfl
  | cons chunk chunks ih => simp only [receive, Framing.feed, ih]; rfl

end WxDap.JsonRPC
