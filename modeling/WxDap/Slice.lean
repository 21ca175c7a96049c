import WxDap.JsonRPC

namespace WxDap.JsonRPC
open Decimal (ascii atol)
open CInt (wrap32 wrap64)

/-- `DoProcessBuffer` comes to the line that slices the payload: there are headers with a
positive `Content-Length`, and the test for enough buffer has passed. -/
structure Slices (buffer : Bytes) (headerSize msglen : Int) : Prop where
  nonempty : buffer ≠ []
  headers : (readHeaders buffer).1 = headerSize
  found : headerSize ≠ -1
  named : ∃ value, (readHeaders buffer).2.find contentLength = some value ∧ atol value = msglen
  positive : 0 < msglen
  enough : wrap64 (headerSize + msglen) ≤ buffer.length

structure InBounds (buffer : Bytes) (headerSize msglen : Int) : Prop where
  header : 0 < headerSize
  length : 0 < msglen
  sum : headerSize + msglen ≤ buffer.length

variable {J : Type} {parse : Bytes → Option J} {buffer : Bytes} {headerSize msglen : Int}

/-- The slice is the one that `DoProcessBuffer` takes. -/
theorem Slices.doProcessBuffer (slices : Slices buffer headerSize msglen) :
    doProcessBuffer parse buffer =
      if 0 ≤ headerSize ∧ headerSize + msglen ≤ buffer.length then
        .ok (parse ((buffer.drop headerSize.toNat).take msglen.toNat),
          buffer.drop (headerSize + msglen).toNat)
      else .error .invalidSlice := by
  obtain ⟨value, named, rfl⟩ := slices.named
  have positive := slices.positive
  have enough := slices.enough
  unfold JsonRPC.doProcessBuffer
  simp only [if_neg slices.nonempty, slices.headers, if_neg slices.found, named]
  rw [if_neg (by omega), if_neg (by omega)]

/-- Only a slice hands bytes to the parser. -/
theorem slices_of_parsed {json : J} {rest : Bytes} (run : doProcessBuffer parse buffer = .ok (some json, rest)) :
    ∃ headerSize msglen, Slices buffer headerSize msglen := by
  unfold doProcessBuffer at run
  split at run
  · cases run
  rename_i nonempty
  dsimp only at run
  split at run
  · cases run
  rename_i found
  split at run
  · split at run <;> cases run
  rename_i value named
  split at run
  · cases run
  rename_i positive
  split at run
  · cases run
  rename_i enough
  exact ⟨_, _, nonempty, rfl, found, ⟨value, named, rfl⟩, by omega, by omega⟩

theorem Slices.start (slices : Slices buffer headerSize msglen) :
    ∃ start, Find.find separator buffer = some start ∧ headerSize = wrap32 (start + 4 : Nat) := by
  have headers := slices.headers
  unfold readHeaders at headers
  split at headers
  · exact absurd headers.symm slices.found
  · rename_i start found
    dsimp only at headers
    exact ⟨start, found, by rw [headers]⟩

/-- The slice stays inside the buffer exactly if the size of the header section is positive
as an `int` and its sum with the `Content-Length` is a `long`. -/
theorem inBounds_iff (fits : buffer.length < 2 ^ 63) (slices : Slices buffer headerSize msglen) :
    InBounds buffer headerSize msglen ↔ ∃ start, Find.find separator buffer = some start ∧
      0 < (start + 4) % 2 ^ 32 ∧ (start + 4) % 2 ^ 32 < 2 ^ 31 ∧
      ((start + 4) % 2 ^ 32 : Nat) + msglen < 2 ^ 63 := by
  obtain ⟨start, found, header⟩ := slices.start
  have positive := slices.positive
  have enough := slices.enough
  constructor
  · intro inside
    have sum := inside.sum
    have above := inside.header
    rw [header] at above sum
    obtain ⟨lower, upper⟩ := (CInt.wrap32_pos_iff _).mp above
    rw [CInt.wrap32_of_pos above] at sum
    exact ⟨start, found, lower, upper, by omega⟩
  · rintro ⟨other, same, lower, upper, bound⟩
    rw [found] at same
    cases same
    have above : 0 < wrap32 (start + 4 : Nat) := (CInt.wrap32_pos_iff _).mpr ⟨lower, upper⟩
    have exact_size := CInt.wrap32_of_pos above
    rw [header, exact_size] at enough ⊢
    rw [CInt.wrap64_of_range (by omega) (by omega)] at enough
    exact ⟨by omega, positive, enough⟩

/-- A frame of two bytes. -/
theorem inBounds_small : ∃ headerSize msglen,
    Slices (ascii "Content-Length: 2\r\n\r\n\x7b\x7d") headerSize msglen ∧
      InBounds (ascii "Content-Length: 2\r\n\r\n\x7b\x7d") headerSize msglen := by
  have slices : Slices (ascii "Content-Length: 2\r\n\r\n\x7b\x7d") 21 2 :=
    ⟨by decide, by decide, by decide, ⟨ascii "2", by decide, by decide⟩, by decide, by decide⟩
  exact ⟨21, 2, slices, (inBounds_iff (by decide) slices).mpr ⟨17, by decide, by decide, by decide, by decide⟩⟩

/-- The largest `long` as `Content-Length`: the sum wraps around and passes the test. -/
theorem slice_leaves_buffer : ¬ ∀ (buffer : Bytes) (headerSize msglen : Int), buffer.length < 2 ^ 63 →
    Slices buffer headerSize msglen → InBounds buffer headerSize msglen := by
  intro always
  have slices : Slices (ascii "Content-Length: 9223372036854775807\r\n\r\n") 39 (2 ^ 63 - 1) :=
    ⟨by decide, by decide, by decide, ⟨ascii "9223372036854775807", by decide, by decide⟩, by decide, by decide⟩
  have sum := (always _ _ _ (by decide) slices).sum
  exact absurd sum (by decide)

end WxDap.JsonRPC
