import Llarp.Util.Bencode
import Llarp.Util.BencodeBounds

/-!
# Readers and the memory behind the buffer

For every reader that can be built from the basic ones: it returns, and if the value is not cut
off at the end of the buffer, it decodes the same whatever stands behind the buffer.
-/

namespace Llarp

open LlarpBuffer

namespace Reader

theorem consumes_entrySink {value : List (List UInt8 × Value) → List UInt8 → LlarpBuffer →
      Reading Value} (onward : ∀ entries key b, Onward b (value entries key b).2.2) :
    Consumes (readDict (entrySink value)) :=
  consumes_readContainer (consumes_readEntry fun key entries => onward entries key)
    fun _ => Onward.refl

theorem consumes_elementSink {value : List Value → LlarpBuffer → Reading Value}
    (consumes : Consumes value) : Consumes (readList (elementSink value)) :=
  consumes_readContainer ⟨consumes.onward, consumes.progress⟩ fun _ => Onward.refl

/-- An accepted value takes at least a byte, unless nothing was left. -/
theorem consumes_read (reader : Reader) : Consumes fun (_ : Unit) b => reader.read b := by
  induction reader with
  | abort => exact ⟨fun _ => Onward.refl, fun _ _ _ accepted => absurd accepted Ending.noConfusion⟩
  | integer =>
    have integer := consumes_endingOf onward_readInteger fun _ => readInteger_progress
    exact ⟨integer.onward, integer.progress⟩
  | string =>
    have string := consumes_endingOf onward_readString fun _ => readString_progress
    exact ⟨string.onward, string.progress⟩
  | discard => exact ⟨consumes_discard.onward, consumes_discard.progress⟩
  | dict sink ih =>
    have entries := consumes_entrySink fun entries key => (ih entries key).onward ()
    exact ⟨fun _ => entries.onward [], fun _ => entries.progress []⟩
  | list sink ih =>
    have elements : Consumes (readList (elementSink fun elements => (sink elements).read)) :=
      consumes_elementSink ⟨fun elements => (ih elements).onward (),
        fun elements => (ih elements).progress ()⟩
    exact ⟨fun _ => elements.onward [], fun _ => elements.progress []⟩
  | check reader test ih => exact ih.next fun _ => Onward.refl
  | andThen first next first_ih next_ih =>
    exact first_ih.next fun value => (next_ih value).onward ()

theorem ofBool_ne_endless (result : Bool) : Ending.ofBool result ≠ .endless := by
  cases result <;> exact Ending.noConfusion

/-- Every reader returns, whatever the memory holds. -/
theorem read_ne_endless (reader : Reader) (b : LlarpBuffer) : (reader.read b).1 ≠ .endless := by
  induction reader generalizing b with
  | abort => exact Ending.noConfusion
  | integer => exact ofBool_ne_endless _
  | string => exact ofBool_ne_endless _
  | discard => exact discard_ne_endless b
  | dict sink ih =>
    exact returnsWithin_readContainer
      (consumes_readEntry fun key entries => (consumes_read (sink entries key)).onward ())
      (returnsWithin_readEntry fun key entries b _ => ih entries key b)
      (fun _ _ _ => Ending.noConfusion) [] b le_rfl
  | list sink ih =>
    exact returnsWithin_readContainer
      ⟨fun elements => (consumes_read (sink elements)).onward (),
        fun elements => (consumes_read (sink elements)).progress ()⟩
      (fun elements b _ => ih elements b) (fun _ _ _ => Ending.noConfusion) [] b le_rfl
  | check reader test ih =>
    exact Reading.next_ne_endless (ih b) fun value _ => ofBool_ne_endless (test value)
  | andThen first next first_ih next_ih =>
    exact Reading.next_ne_endless (first_ih b) next_ih

/-- What was skipped is known from how much is left. -/
theorem follows_discard_raw {b : LlarpBuffer} (inside : b.cur ≤ b.sz) :
    Follows b (discard.read b) (discard.scan b.rest) := by
  have follows := follows_discard inside
  have onward := consumes_discard.onward () b
  rw [read, scan]
  generalize Llarp.discard b = skipped at follows onward
  obtain ⟨ending, u, after⟩ := skipped
  cases scanned : scanDiscard b.rest with
  | ended ending' u' rest =>
    rw [scanned] at follows
    obtain ⟨same, -, bound, rfl⟩ := follows
    have taken : b.sizeLeft - after.sizeLeft = after.cur - b.cur := by
      have size : after.sz = b.sz := onward.sz
      have cur : b.cur ≤ after.cur := onward.cur
      have limit : after.cur ≤ b.sz := bound
      rw [sizeLeft, sizeLeft]
      omega
    have fits : after.cur - b.cur ≤ b.sizeLeft := taken ▸ Nat.sub_le ..
    refine ⟨same, ?_, bound, rfl⟩
    dsimp only
    rw [length_rest, length_rest, taken, slice_eq_take fits]
  | cutOff wanted u' =>
    rw [scanned] at follows
    refine ⟨follows.1, fun differ => ?_⟩
    obtain ⟨refused, -, atEnd⟩ := follows.2 differ
    refine ⟨refused, ?_, atEnd⟩
    have limit : after.cur = b.sz := atEnd
    dsimp only
    rw [limit]
    rfl

/-- A reader of a buffer follows the reader of the list of its bytes. -/
theorem refines_read (reader : Reader) :
    Refines (fun (_ : Unit) b => reader.read b) fun _ => reader.scan := by
  induction reader with
  | abort => exact fun _ b inside => ⟨rfl, rfl, inside, rfl⟩
  | integer => exact fun _ b inside => (follows_readInteger inside).map _
  | string => exact fun _ b inside => (follows_readString inside).map _
  | discard => exact fun _ b => follows_discard_raw
  | dict sink ih =>
    intro u b inside
    refine Follows.map (refines_readContainer ?_ (fun _ => Onward.refl) ?_ ?_ [] b inside) _
    · exact consumes_readEntry fun key entries => (consumes_read (sink entries key)).onward ()
    · exact refines_readEntry fun key entries b inside => (ih entries key () b inside).map _
    · exact fun _ b inside => ⟨rfl, rfl, inside, rfl⟩
  | list sink ih =>
    intro u b inside
    refine Follows.map (refines_readContainer ?_ (fun _ => Onward.refl) ?_ ?_ [] b inside) _
    · exact ⟨fun elements => (consumes_read (sink elements)).onward (),
        fun elements => (consumes_read (sink elements)).progress ()⟩
    · exact fun elements b inside => (ih elements () b inside).map _
    · exact fun _ b inside => ⟨rfl, rfl, inside, rfl⟩
  | check reader test ih =>
    intro u b inside
    exact (ih u b inside).next ((consumes_read reader).onward u b) (fun _ => Onward.refl)
      fun _ _ _ inside => ⟨rfl, rfl, inside, rfl⟩
  | andThen first next first_ih next_ih =>
    intro u b inside
    exact (first_ih u b inside).next ((consumes_read first).onward u b)
      (fun value => (consumes_read (next value)).onward ())
      fun value b _ inside => (next_ih value () b inside).map _

/-- Two readings that return the same, deliver the same and leave the cursor at the same place
in the buffer. -/
def Alike (size : ℕ) (read read' : Reading Value) : Prop :=
  read.1 = read'.1 ∧ read.1 ≠ .endless ∧ read.2.1 = read'.2.1 ∧
    read.2.2.cur = read'.2.2.cur ∧ read.2.2.cur ≤ size

/-- In two memories that agree on the bytes of a buffer, a reader returns and decodes the same
and stays in the buffer, unless the value is cut off at the end of the buffer and in one of the
memories the byte behind the buffer is the one that lets the reader go on. -/
theorem alike_iff_not_cutOff (reader : Reader) (b b' : LlarpBuffer) (inside : b.cur ≤ b.sz)
    (size : b'.sz = b.sz) (cursor : b'.cur = b.cur) (agree : ∀ i < b.sz, b'.mem i = b.mem i) :
    Alike b.sz (reader.read b) (reader.read b') ↔
      ∀ wanted value, reader.scan b.rest = .cutOff wanted value →
        b.mem b.sz ≠ wanted ∧ b'.mem b.sz ≠ wanted := by
  have same : b'.rest = b.rest := by
    rw [LlarpBuffer.rest, sizeLeft, size, cursor]
    exact slice_congr fun i _ high => agree i (by omega)
  have follows : Follows b (reader.read b) (reader.scan b.rest) := reader.refines_read () b inside
  have follows' : Follows b' (reader.read b') (reader.scan b'.rest) :=
    reader.refines_read () b' (by rwa [cursor, size])
  have returns := reader.read_ne_endless b
  have sz : (reader.read b).2.2.sz = b.sz := (reader.consumes_read.onward () b).sz
  have sz' : (reader.read b').2.2.sz = b'.sz := (reader.consumes_read.onward () b').sz
  rw [same] at follows'
  generalize reader.read b = read at *
  generalize reader.read b' = read' at *
  generalize reader.scan b.rest = out at *
  cases out with
  | ended ending value rest =>
    refine iff_of_true ?_ (by rintro _ _ ⟨⟩)
    obtain ⟨ended, delivered, bound, remaining⟩ := follows
    obtain ⟨ended', delivered', bound', remaining'⟩ := follows'
    have left : read.2.2.sizeLeft = read'.2.2.sizeLeft := by
      rw [← length_rest, ← length_rest, remaining, remaining']
    refine ⟨ended.trans ended'.symm, returns, delivered.trans delivered'.symm, ?_, bound⟩
    rw [sizeLeft, sizeLeft, sz, sz'] at left
    omega
  | cutOff wanted value =>
    rw [Follows, size] at follows'
    constructor
    · rintro ⟨-, -, -, cur, bound⟩ w v cut
      obtain ⟨rfl, rfl⟩ := Outcome.cutOff.inj cut
      refine ⟨fun here => ?_, fun here => ?_⟩
      · exact absurd bound (not_le.mpr (follows.1 here))
      · exact absurd (cur ▸ bound) (not_le.mpr (follows'.1 here))
    · intro differ
      obtain ⟨here, there⟩ := differ wanted value rfl
      obtain ⟨ended, delivered, atEnd⟩ := follows.2 here
      obtain ⟨ended', delivered', atEnd'⟩ := follows'.2 there
      exact ⟨ended.trans ended'.symm, returns, delivered.trans delivered'.symm,
        atEnd.trans atEnd'.symm, atEnd.le⟩

/-- The memory that holds these bytes and then one byte over and over. -/
def memory (bytes : List UInt8) (behind : UInt8) (i : ℕ) : UInt8 := bytes.getD i behind

/-- A list of two numbers is read alike, whatever stands behind it. -/
theorem alike_iff_not_cutOff_list :
    Alike 8 ((Reader.list fun _ => .integer).read ⟨memory (Bencode.ascii "li1ei2ee") 0, 8, 0⟩)
      ((Reader.list fun _ => .integer).read ⟨memory (Bencode.ascii "li1ei2ee") 101, 8, 0⟩) :=
  (alike_iff_not_cutOff (.list fun _ => .integer) ⟨memory (Bencode.ascii "li1ei2ee") 0, 8, 0⟩
    ⟨memory (Bencode.ascii "li1ei2ee") 101, 8, 0⟩ (by decide) rfl rfl (by decide)).mpr nofun

/-- A list is cut off before its end, and an integer is asked for at the end of a buffer. If the
byte behind the buffer is the right one, the list is accepted and the cursor leaves the
buffer. -/
theorem cutOff_reads_behind :
    ((discard.read ⟨memory (Bencode.ascii "li1e") 0, 4, 0⟩).1 = .refused ∧
      (discard.read ⟨memory (Bencode.ascii "li1e") 101, 4, 0⟩).1 = .accepted ∧
      (discard.read ⟨memory (Bencode.ascii "li1e") 101, 4, 0⟩).2.2.cur = 5) ∧
    (integer.read ⟨memory [] 0, 0, 0⟩).2.2.cur = 0 ∧
      (integer.read ⟨memory [] 105, 0, 0⟩).2.2.cur = 32 := by
  decide +kernel

end Reader

end Llarp
