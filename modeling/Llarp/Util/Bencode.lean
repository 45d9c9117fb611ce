import Llarp.Foundation.Bytes

/-!
# Writing bencoded values

A writer appends to a buffer of a fixed capacity and fails when the buffer is full.
Nothing is ever taken back, so a whole value is written exactly when all its bytes fit.
-/

namespace Llarp.Bencode

open Foundation

/-- The bytes of an ASCII text. -/
def ascii (text : String) : List UInt8 := text.toList.map fun c => UInt8.ofNat c.toNat

/-- The decimal digits of a number. -/
def decimal (n : ℕ) : List UInt8 := (Nat.toDigits 10 n).map fun c => UInt8.ofNat c.toNat

def bytestring (data : List UInt8) : List UInt8 := decimal data.length ++ ascii ":" ++ data

def uint64 (n : ℕ) : List UInt8 := ascii "i" ++ decimal n ++ ascii "e"

/-- A dictionary of entries that are written in the given order. -/
def dict (entries : List (String × List UInt8)) : List UInt8 :=
  ascii "d" ++ entries.flatMap (fun entry => bytestring (ascii entry.1) ++ entry.2) ++ ascii "e"

/-- A list of encoded elements. -/
def list (items : List (List UInt8)) : List UInt8 := ascii "l" ++ items.flatten ++ ascii "e"

/-- What a buffer of this capacity holds after writing, unless writing fails. -/
def fit (capacity : ℕ) (bytes : List UInt8) : Option (List UInt8) :=
  if bytes.length ≤ capacity then some bytes else none

example : bytestring (ascii "spam") = ascii "4:spam" := by decide

/-! ### Sizes -/

theorem length_bytestring (data : List UInt8) :
    (bytestring data).length = (decimal data.length).length + 1 + data.length := by
  rw [bytestring, List.length_append, List.length_append]
  rfl

theorem length_uint64 (n : ℕ) : (uint64 n).length = (decimal n).length + 2 := by
  rw [uint64, List.length_append, List.length_append, Nat.add_comm (ascii "i").length]
  rfl

theorem length_bytestring_aligned {size : ℕ} (buffer : AlignedBuffer size) :
    (bytestring buffer.bytes).length = (decimal size).length + 1 + size := by
  rw [length_bytestring, buffer.length_eq]

end Llarp.Bencode
