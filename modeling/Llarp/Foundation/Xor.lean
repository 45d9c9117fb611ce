import Llarp.Foundation.Bytes

/-!
# Exclusive or, and buffers as numbers

The exclusive or of buffers is used in two ways: as a cipher with a key stream, which undoes
itself, and as a distance between keys. Distances are compared byte by byte from the front,
which is the order of the numbers that the bytes spell in base 256.
-/

namespace Foundation

/-- The exclusive or of two byte strings, as long as the shorter one. -/
def xorBytes (a b : List UInt8) : List UInt8 := List.zipWith (· ^^^ ·) a b

@[simp] theorem length_xorBytes (a b : List UInt8) :
    (xorBytes a b).length = min a.length b.length := by simp [xorBytes]

/-- Applying the same key twice gives back what was there. -/
theorem xorBytes_xorBytes_cancel {bytes key : List UInt8} (covers : bytes.length ≤ key.length) :
    xorBytes (xorBytes bytes key) key = bytes := by
  induction bytes generalizing key with
  | nil => rfl
  | cons byte bytes ih =>
    cases key with
    | nil => simp at covers
    | cons k key =>
      have rest : xorBytes (xorBytes bytes key) key = bytes :=
        ih (Nat.le_of_succ_le_succ covers)
      simp only [xorBytes, List.zipWith_cons_cons, List.cons.injEq]
      exact ⟨by rw [UInt8.xor_assoc, UInt8.xor_self, UInt8.xor_zero], rest⟩

theorem xorBytes_comm (a b : List UInt8) : xorBytes a b = xorBytes b a :=
  List.zipWith_comm_of_comm (fun x y => UInt8.xor_comm x y)

namespace AlignedBuffer

variable {size : ℕ}

/-- The exclusive or of two buffers of one size. -/
def xor (a b : AlignedBuffer size) : AlignedBuffer size :=
  ⟨xorBytes a.bytes b.bytes, by rw [length_xorBytes, a.length_eq, b.length_eq, Nat.min_self]⟩

theorem xor_comm (a b : AlignedBuffer size) : a.xor b = b.xor a := by
  rw [xor, xor, mk.injEq]
  exact xorBytes_comm ..

theorem xor_xor_cancel (a b : AlignedBuffer size) : (a.xor b).xor b = a := by
  have covers : a.bytes.length ≤ b.bytes.length := by rw [a.length_eq, b.length_eq]
  obtain ⟨bytes, length⟩ := a
  rw [xor, mk.injEq]
  exact xorBytes_xorBytes_cancel covers

theorem xor_left_injective (location : AlignedBuffer size) :
    Function.Injective fun a : AlignedBuffer size => a.xor location := by
  intro a b same
  calc a = (a.xor location).xor location := (xor_xor_cancel a location).symm
    _ = (b.xor location).xor location := by rw [show a.xor location = b.xor location from same]
    _ = b := xor_xor_cancel b location

/-- The number that a buffer spells. -/
def toNat (a : AlignedBuffer size) : ℕ := ofBigEndian a.bytes

end AlignedBuffer

theorem ofBigEndian_xorBytes_self (bytes : List UInt8) : ofBigEndian (xorBytes bytes bytes) = 0 := by
  induction bytes with
  | nil => rfl
  | cons byte bytes ih =>
    have rest : ofBigEndian (List.zipWith (· ^^^ ·) bytes bytes) = 0 := ih
    rw [xorBytes, List.zipWith_cons_cons, ofBigEndian_cons, UInt8.xor_self, rest]
    simp

/-- Strings of one length are compared as the numbers that they spell. -/
theorem compare_eq_lt_iff_ofBigEndian {a b : List UInt8} (same : a.length = b.length) :
    compare a b = .lt ↔ ofBigEndian a < ofBigEndian b := by
  induction a generalizing b with
  | nil =>
    obtain rfl := List.length_eq_zero_iff.mp same.symm
    simp [Std.ReflCmp.compare_self]
  | cons x xs ih =>
    cases b with
    | nil => simp at same
    | cons y ys =>
      have sameRest : xs.length = ys.length := Nat.succ.inj same
      have lower := ofBigEndian_lt xs
      have upper := ofBigEndian_lt ys
      have split : compare (x :: xs) (y :: ys) = (compare x y).then (compare xs ys) :=
        List.compareLex_cons_cons
      rw [split, ofBigEndian_cons, ofBigEndian_cons, sameRest]
      rw [sameRest] at lower
      -- the first bytes decide, and the rest only when they are the same
      rcases lt_trichotomy x.toNat y.toNat with less | equal | more
      · have first : compare x y = .lt := Std.compare_eq_lt.mpr (UInt8.lt_iff_toNat_lt.mpr less)
        rw [first]
        exact iff_of_true rfl (by nlinarith)
      · obtain rfl := UInt8.toNat_inj.mp equal
        have first : compare x x = .eq := Std.ReflCmp.compare_self
        rw [first, Ordering.eq_then, ih sameRest]
        omega
      · have first : compare x y = .gt := Std.compare_eq_gt.mpr (UInt8.lt_iff_toNat_lt.mpr more)
        rw [first]
        refine iff_of_false nofun ?_
        nlinarith

theorem AlignedBuffer.compare_eq_lt_iff {size : ℕ} {a b : AlignedBuffer size} :
    compare a b = .lt ↔ a.toNat < b.toNat :=
  compare_eq_lt_iff_ofBigEndian (a.length_eq.trans b.length_eq.symm)

end Foundation
