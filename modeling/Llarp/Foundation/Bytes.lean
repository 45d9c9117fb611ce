import Mathlib

/-!
# Byte strings

Buffers are lists of bytes. This module has the operations that packet code is
made of: big-endian integers, fixed-size buffers, copying into the middle of a
buffer, and the offsets at which a loop with a fixed stride stops.
-/

namespace Foundation

open List

/-! ### Big-endian integers -/

/-- The `width` low bytes of `value`, most significant byte first. -/
def bigEndian : (width value : ℕ) → List UInt8
  | 0, _ => []
  | width + 1, value => UInt8.ofNat (value / 256 ^ width) :: bigEndian width value

/-- The number whose big-endian digits are the given bytes. -/
def ofBigEndian (bytes : List UInt8) : ℕ :=
  bytes.foldl (fun acc byte => acc * 256 + byte.toNat) 0

@[simp] theorem length_bigEndian (width value : ℕ) : (bigEndian width value).length = width := by
  induction width with
  | zero => rfl
  | succ width ih => simp [bigEndian, ih]

theorem foldl_bigEndian (width value acc : ℕ) :
    (bigEndian width value).foldl (fun acc byte => acc * 256 + byte.toNat) acc =
      acc * 256 ^ width + value % 256 ^ width := by
  induction width generalizing acc with
  | zero => simp [bigEndian, Nat.mod_one]
  | succ width ih =>
    have digit : (UInt8.ofNat (value / 256 ^ width)).toNat = value / 256 ^ width % 256 := by
      simp
    rw [bigEndian, foldl_cons, ih, digit, Nat.pow_succ, Nat.mod_mul]
    ring

theorem ofBigEndian_bigEndian (width value : ℕ) :
    ofBigEndian (bigEndian width value) = value % 256 ^ width := by
  rw [ofBigEndian, foldl_bigEndian, Nat.zero_mul, Nat.zero_add]

theorem ofBigEndian_cons (byte : UInt8) (bytes : List UInt8) :
    ofBigEndian (byte :: bytes) = byte.toNat * 256 ^ bytes.length + ofBigEndian bytes := by
  have fold : ∀ (bytes : List UInt8) (acc : ℕ),
      bytes.foldl (fun acc byte => acc * 256 + byte.toNat) acc =
        acc * 256 ^ bytes.length + ofBigEndian bytes := by
    intro bytes
    induction bytes with
    | nil => simp [ofBigEndian]
    | cons b bytes ih =>
      intro acc
      rw [ofBigEndian, foldl_cons, foldl_cons, ih, ih, length_cons]
      ring
  rw [ofBigEndian, foldl_cons, fold]
  ring

theorem ofBigEndian_lt (bytes : List UInt8) : ofBigEndian bytes < 256 ^ bytes.length := by
  induction bytes with
  | nil => simp [ofBigEndian]
  | cons byte bytes ih =>
    have digit : byte.toNat < 256 := byte.toNat_lt
    rw [ofBigEndian_cons, length_cons, pow_succ]
    nlinarith

theorem bigEndian_add_mul (width value high : ℕ) :
    bigEndian width (high * 256 ^ width + value) = bigEndian width value := by
  induction width generalizing high with
  | zero => rfl
  | succ width ih =>
    have split : high * 256 ^ (width + 1) + value = high * 256 * 256 ^ width + value := by ring
    have digit : (high * 256 * 256 ^ width + value) / 256 ^ width =
        high * 256 + value / 256 ^ width := by
      rw [mul_comm, Nat.mul_add_div (by positivity)]
    rw [bigEndian, split, ih, digit]
    congr 1
    exact UInt8.toNat_inj.mp (by simp)

/-- Bytes are the digits of the number that they spell. -/
theorem bigEndian_ofBigEndian (bytes : List UInt8) :
    bigEndian bytes.length (ofBigEndian bytes) = bytes := by
  induction bytes with
  | nil => rfl
  | cons byte bytes ih =>
    have less := ofBigEndian_lt bytes
    rw [ofBigEndian_cons, length_cons, bigEndian, bigEndian_add_mul, ih, mul_comm,
      Nat.mul_add_div (by positivity), Nat.div_eq_of_lt less, Nat.add_zero, UInt8.ofNat_toNat]

/-- Read a 16-bit integer from the front of a buffer. -/
def load16 (bytes : List UInt8) : UInt16 := UInt16.ofNat (ofBigEndian (bytes.take 2))

/-- Read a 32-bit integer from the front of a buffer. -/
def load32 (bytes : List UInt8) : UInt32 := UInt32.ofNat (ofBigEndian (bytes.take 4))

/-- Read a 64-bit integer from the front of a buffer. -/
def load64 (bytes : List UInt8) : UInt64 := UInt64.ofNat (ofBigEndian (bytes.take 8))

/-- The two bytes of a 16-bit integer. -/
def store16 (value : UInt16) : List UInt8 := bigEndian 2 value.toNat

/-- The four bytes of a 32-bit integer. -/
def store32 (value : UInt32) : List UInt8 := bigEndian 4 value.toNat

/-- The eight bytes of a 64-bit integer. -/
def store64 (value : UInt64) : List UInt8 := bigEndian 8 value.toNat

@[simp] theorem length_store16 (value : UInt16) : (store16 value).length = 2 :=
  length_bigEndian ..

@[simp] theorem length_store32 (value : UInt32) : (store32 value).length = 4 :=
  length_bigEndian ..

@[simp] theorem length_store64 (value : UInt64) : (store64 value).length = 8 :=
  length_bigEndian ..

@[simp] theorem load16_store16 (value : UInt16) (rest : List UInt8) :
    load16 (store16 value ++ rest) = value := by
  have bound : value.toNat < 256 ^ 2 := value.toNat_lt
  rw [load16, take_left' (length_store16 value), store16, ofBigEndian_bigEndian,
    Nat.mod_eq_of_lt bound, UInt16.ofNat_toNat]

@[simp] theorem load32_store32 (value : UInt32) (rest : List UInt8) :
    load32 (store32 value ++ rest) = value := by
  have bound : value.toNat < 256 ^ 4 := value.toNat_lt
  rw [load32, take_left' (length_store32 value), store32, ofBigEndian_bigEndian,
    Nat.mod_eq_of_lt bound, UInt32.ofNat_toNat]

@[simp] theorem load64_store64 (value : UInt64) (rest : List UInt8) :
    load64 (store64 value ++ rest) = value := by
  have bound : value.toNat < 256 ^ 8 := value.toNat_lt
  rw [load64, take_left' (length_store64 value), store64, ofBigEndian_bigEndian,
    Nat.mod_eq_of_lt bound, UInt64.ofNat_toNat]

theorem store16_load16 {bytes : List UInt8} (large : 2 ≤ bytes.length) :
    store16 (load16 bytes) = bytes.take 2 := by
  have size : (bytes.take 2).length = 2 := length_take_of_le large
  have digits := bigEndian_ofBigEndian (bytes.take 2)
  have less := ofBigEndian_lt (bytes.take 2)
  rw [size] at digits less
  rw [store16, load16, UInt16.toNat_ofNat_of_lt' less, digits]

theorem store32_load32 {bytes : List UInt8} (large : 4 ≤ bytes.length) :
    store32 (load32 bytes) = bytes.take 4 := by
  have size : (bytes.take 4).length = 4 := length_take_of_le large
  have digits := bigEndian_ofBigEndian (bytes.take 4)
  have less := ofBigEndian_lt (bytes.take 4)
  rw [size] at digits less
  rw [store32, load32, UInt32.toNat_ofNat_of_lt' less, digits]

/-! ### Fixed-size buffers -/

/-- A buffer of exactly `size` bytes. -/
structure AlignedBuffer (size : ℕ) where
  bytes : List UInt8
  length_eq : bytes.length = size
  deriving DecidableEq, Repr

namespace AlignedBuffer

variable {size : ℕ}

/-- The buffer that a default-constructed object holds. -/
def zero (size : ℕ) : AlignedBuffer size := ⟨List.replicate size 0, List.length_replicate⟩

/-- Copy the first `size` bytes of a buffer; missing bytes stay zero. -/
def copy (size : ℕ) (bytes : List UInt8) : AlignedBuffer size :=
  ⟨bytes.takeD size 0, List.takeD_length size bytes 0⟩

/-- Whether every byte is zero. -/
def isZero (buffer : AlignedBuffer size) : Bool := buffer.bytes.all (· == 0)

@[simp] theorem copy_append (buffer : AlignedBuffer size) (rest : List UInt8) :
    copy size (buffer.bytes ++ rest) = buffer := by
  obtain ⟨bytes, rfl⟩ := buffer
  simp [copy, takeD_eq_take]

theorem copy_bytes (buffer : AlignedBuffer size) : copy size buffer.bytes = buffer := by
  have copied := copy_append buffer []
  rwa [append_nil] at copied

/-- Buffers are ordered as their bytes are. -/
instance : Ord (AlignedBuffer size) := ⟨compareOn bytes⟩

instance : Std.TransOrd (AlignedBuffer size) :=
  inferInstanceAs (Std.TransCmp (compareOn AlignedBuffer.bytes))

instance : Std.LawfulEqOrd (AlignedBuffer size) where
  eq_of_compare same := by
    rw [AlignedBuffer.mk.injEq]
    exact Std.LawfulEqOrd.eq_of_compare same

theorem eq_zero_of_isZero {buffer : AlignedBuffer size} (h : buffer.isZero = true) :
    buffer = zero size := by
  obtain ⟨bytes, rfl⟩ := buffer
  rw [isZero, all_eq_true] at h
  rw [zero, mk.injEq, eq_replicate_iff]
  exact ⟨rfl, fun byte hbyte => eq_of_beq (h byte hbyte)⟩

theorem isZero_zero : (zero size).isZero = true := by simp [isZero, zero]

end AlignedBuffer

/-! ### Copying into a buffer -/

section Splice

variable {α : Type*}

/-- Overwrite the part of `dst` that starts at `offset` with `src`. -/
def splice (dst : List α) (offset : ℕ) (src : List α) : List α :=
  dst.take offset ++ src ++ dst.drop (offset + src.length)

variable {dst src : List α} {offset : ℕ}

section

variable (fits : offset + src.length ≤ dst.length)

include fits

theorem length_splice :
    (splice dst offset src).length = dst.length := by
  simp only [splice, length_append, length_take, length_drop]
  omega

theorem getElem?_splice (i : ℕ) :
    (splice dst offset src)[i]? =
      if offset ≤ i ∧ i < offset + src.length then src[i - offset]? else dst[i]? := by
  have front : (dst.take offset).length = offset := by
    rw [length_take]
    omega
  unfold splice
  rcases lt_or_ge i offset with before | after
  · rw [append_assoc, getElem?_append_left (by omega), getElem?_take_of_lt before,
      if_neg (by omega)]
  · rcases lt_or_ge i (offset + src.length) with inside | beyond
    · rw [append_assoc, getElem?_append_right (by omega), front,
        getElem?_append_left (by omega), if_pos ⟨after, inside⟩]
    · rw [getElem?_append_right (by simp; omega), getElem?_drop, if_neg (by omega)]
      congr 1
      simp
      omega

/-- Writing bytes that are already there changes nothing. -/
theorem splice_eq_self
    (same : (dst.drop offset).take src.length = src) : splice dst offset src = dst := by
  apply ext_getElem?
  intro i
  rw [getElem?_splice fits]
  split_ifs
  · rw [← same, getElem?_take_of_lt (by omega), getElem?_drop]
    congr 1
    omega
  · rfl

end

/-- The part of a buffer that starts at `offset`. -/
def window (bytes : List α) (offset count : ℕ) : List α := (bytes.drop offset).take count

theorem length_window {bytes : List α} {count : ℕ} (fits : offset + count ≤ bytes.length) :
    (window bytes offset count).length = count := by
  rw [window, length_take, length_drop]
  omega

theorem getElem?_window {bytes : List α} {count : ℕ} (i : ℕ) :
    (window bytes offset count)[i]? = if i < count then bytes[offset + i]? else none := by
  rw [window, getElem?_take, getElem?_drop]

/-- What has been written is read. -/
theorem window_splice_self (fits : offset + src.length ≤ dst.length) :
    window (splice dst offset src) offset src.length = src := by
  apply ext_getElem?
  intro i
  rw [getElem?_window]
  split_ifs
  · rw [getElem?_splice fits, if_pos (by omega), Nat.add_sub_cancel_left]
  · exact (getElem?_eq_none (by omega)).symm

/-- What lies elsewhere is not overwritten. -/
theorem window_splice_of_disjoint {start count : ℕ} (fits : offset + src.length ≤ dst.length)
    (apart : start + count ≤ offset ∨ offset + src.length ≤ start) :
    window (splice dst offset src) start count = window dst start count := by
  apply ext_getElem?
  intro i
  rw [getElem?_window, getElem?_window]
  split_ifs
  · rw [getElem?_splice fits, if_neg (by omega)]
  · rfl

variable {front back : List α}

theorem splice_append_left (fits : offset + src.length ≤ front.length) :
    splice (front ++ back) offset src = splice front offset src ++ back := by
  simp only [splice, take_append_of_le_length (show offset ≤ front.length by omega),
    drop_append_of_le_length fits, append_assoc]

theorem splice_append_right (beyond : front.length ≤ offset) :
    splice (front ++ back) offset src = front ++ splice back (offset - front.length) src := by
  have shift : offset + src.length - front.length = offset - front.length + src.length := by omega
  simp only [splice, take_append, drop_append, take_of_length_le beyond, shift,
    drop_eq_nil_of_le (show front.length ≤ offset + src.length by omega), append_assoc,
    nil_append]

theorem take_splice {count : ℕ} (fits : offset + src.length ≤ count) (le : count ≤ dst.length) :
    (splice dst offset src).take count = splice (dst.take count) offset src := by
  have length : (dst.take count).length = count := length_take_of_le le
  have inside : offset + src.length ≤ (dst.take count).length := length.symm ▸ fits
  conv_lhs => rw [← take_append_drop count dst, splice_append_left inside]
  exact take_left' (by rw [length_splice inside, length])

theorem window_append_left {count : ℕ} (fits : offset + count ≤ front.length) :
    window (front ++ back) offset count = window front offset count := by
  rw [window, window, drop_append_of_le_length (by omega),
    take_append_of_le_length (by rw [length_drop]; omega)]

theorem window_append_right {count : ℕ} (beyond : front.length ≤ offset) :
    window (front ++ back) offset count = window back (offset - front.length) count := by
  rw [window, window, drop_append, drop_eq_nil_of_le beyond, nil_append]

variable {middle new : List α} {count : ℕ}

theorem splice_middle (at_front : front.length = offset) (fits : new.length = middle.length) :
    splice (front ++ (middle ++ back)) offset new = front ++ (new ++ back) := by
  subst at_front
  rw [splice_append_right le_rfl, Nat.sub_self, splice, take_zero, nil_append,
    Nat.zero_add, fits, drop_left]

theorem window_middle (at_front : front.length = offset) (whole : middle.length = count) :
    window (front ++ (middle ++ back)) offset count = middle := by
  subst at_front whole
  rw [window, drop_left, take_left]

theorem splice_whole {old : List α} (same : old.length = new.length) : splice old 0 new = new := by
  rw [splice, take_zero, nil_append, Nat.zero_add, ← same, drop_length,
    append_nil]

end Splice

/-! ### Strided loops -/

/-- The values that `i` takes in `for (i = 0; i < size; i += stride)`. -/
def offsets (stride size : ℕ) : List ℕ := List.range' 0 ((size + stride - 1) / stride) stride

theorem mem_offsets {stride size i : ℕ} (hstride : 0 < stride) :
    i ∈ offsets stride size ↔ stride ∣ i ∧ i < size := by
  rw [offsets, mem_range']
  constructor
  · rintro ⟨k, hk, rfl⟩
    have := (Nat.lt_div_iff_mul_lt hstride).mp hk
    refine ⟨by simp, ?_⟩
    have : k * stride = stride * k := Nat.mul_comm ..
    omega
  · rintro ⟨⟨k, rfl⟩, hlt⟩
    refine ⟨k, (Nat.lt_div_iff_mul_lt hstride).mpr ?_, by simp⟩
    have : k * stride = stride * k := Nat.mul_comm ..
    omega

/-- The strides of the loop are numbered from zero. -/
theorem map_div_offsets {stride : ℕ} (size : ℕ) (hstride : 0 < stride) :
    (offsets stride size).map (· / stride) = range ((size + stride - 1) / stride) := by
  apply ext_getElem
  · simp [offsets]
  · intro k _ _
    simp [offsets, hstride]

end Foundation
