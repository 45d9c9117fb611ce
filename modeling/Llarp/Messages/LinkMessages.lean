import Llarp.Contact.Reused

/-!
# Link messages

A parser has one object for each kind of link message, and decodes all messages of a kind into it.
Between two messages the object is cleared. Not every member is cleared, and a frame that has been
cleared is not a new frame.
-/

namespace Llarp.Messages

open Foundation Contact Decoder

/-! ### Values -/

/-- Only version 0 is accepted, but any version is stored. -/
def decodeVersion : Decoder UInt64 := fun version b =>
  match b.readInteger with
  | (none, b) => (.refused, version, b)
  | (some i, b) => (.ofBool (i = 0), i, b)

/-- The type of a message once more. -/
def decodeType (letter : Char) : Decoder Unit :=
  .string fun bytes _ => if bytes = [letter.toUInt8] then some () else none

/-- `Encrypted::BDecode`. -/
def decodeEncrypted (bufsz : ℕ) : Decoder (List UInt8) :=
  .string fun bytes _ => if bytes.length > bufsz then none else some bytes

def encryptedFrameSize : ℕ := 32 + 32 + 32 + 128 * 6

abbrev Frames := Fin 8 → List UInt8

/-- A frame of full size that holds zeros. -/
def freshFrames : Frames := fun _ => List.replicate encryptedFrameSize 0

/-- A frame of an array, and how many there have been. -/
def decodeFrame : Decoder (ℕ × Frames) := fun (idx, frames) b =>
  if inside : idx < 8 then
    let (ending, frame, b) := decodeEncrypted encryptedFrameSize (frames ⟨idx, inside⟩) b
    (ending, (idx + 1, Function.update frames ⟨idx, inside⟩ frame), b)
  else (.refused, (idx, frames), b)

/-- `BEncodeReadArray`. -/
def decodeFrames : Decoder Frames := fun frames b =>
  let (ending, (_, frames), b) := Decoder.each decodeFrame (0, frames) b
  (ending, frames, b)

theorem decodeVersion_accepted {x : UInt64} {v : LlarpBuffer}
    (accepted : (decodeVersion x v).1 = .accepted) :
    after decodeVersion x v = integerAt v := by
  rw [after, decodeVersion, integerAt] at *
  generalize v.readInteger = read at *
  obtain ⟨result, b⟩ := read
  cases result with
  | none => cases accepted
  | some i => rfl

theorem oblivious_decodeVersion : Decoder.Oblivious decodeVersion := by
  intro x y b _
  rw [decodeVersion, decodeVersion]
  split
  · exact ⟨rfl, rfl, fun _ => trivial⟩
  · exact ⟨rfl, rfl, fun _ => trivial⟩

theorem decodeEncrypted_accepted {bufsz : ℕ} {x : List UInt8} {v : LlarpBuffer}
    (accepted : (decodeEncrypted bufsz x v).1 = .accepted) :
    after (decodeEncrypted bufsz) x v = stringAt v := by
  have stored := string_accepted accepted
  split_ifs at stored
  exact (Option.some.inj stored).symm

theorem oblivious_decodeEncrypted (bufsz : ℕ) : Decoder.Oblivious (decodeEncrypted bufsz) :=
  oblivious_string fun _ _ _ => rfl

/-- Two arrays into which the same frames have been decoded agree on them, and still differ on the
others as they did at first. -/
def FramesAgree (x y : Frames) (s t : ℕ × Frames) : Prop :=
  s.1 = t.1 ∧ ∀ i : Fin 8, (i.val < s.1 → s.2 i = t.2 i) ∧ (s.1 ≤ i.val → s.2 i = x i ∧ t.2 i = y i)

theorem simulates_decodeFrame (x y : Frames) :
    Decoder.Simulates (FramesAgree x y) decodeFrame decodeFrame := by
  rintro ⟨n, f⟩ ⟨_, g⟩ b ⟨rfl, agree⟩
  rw [decodeFrame, decodeFrame]
  by_cases inside : n < 8
  · rw [dif_pos inside, dif_pos inside]
    have oblivious := oblivious_decodeEncrypted encryptedFrameSize
    refine ⟨oblivious.ending _ _ b, oblivious.place _ _ b, fun accepted => ⟨rfl, fun i => ?_⟩⟩
    have accepted' := (oblivious.ending (g ⟨n, inside⟩) (f ⟨n, inside⟩) b).trans accepted
    by_cases here : i = ⟨n, inside⟩
    · subst here
      refine ⟨fun _ => ?_, fun behind => absurd behind (Nat.not_succ_le_self n)⟩
      dsimp only
      rw [Function.update_self, Function.update_self]
      exact (decodeEncrypted_accepted accepted).trans (decodeEncrypted_accepted accepted').symm
    · have other : i.val ≠ n := fun same => here (Fin.ext same)
      dsimp only
      rw [Function.update_of_ne here, Function.update_of_ne here]
      exact ⟨fun before => (agree i).1 (by omega), fun behind => (agree i).2 (by omega)⟩
  · rw [dif_neg inside, dif_neg inside]
    exact ⟨rfl, rfl, nofun⟩

theorem paired_decodeFrames (x y : Frames) (b : LlarpBuffer) :
    Decoder.Paired (FramesAgree x y) (each decodeFrame (0, x) b)
      (each decodeFrame (0, y) b) := by
  have start : FramesAgree x y (0, x) (0, y) :=
    ⟨rfl, fun i => ⟨fun before => absurd before (Nat.not_lt_zero _), fun _ => ⟨rfl, rfl⟩⟩⟩
  exact simulates_each (simulates_decodeFrame x y) _ _ b start

theorem oblivious_decodeFrames : Decoder.Oblivious decodeFrames := fun x y b _ =>
  have paired := paired_decodeFrames x y b
  ⟨paired.1, paired.2.1, fun _ => trivial⟩

/-- How many frames the list at a place holds. -/
def frameCount (v : LlarpBuffer) : ℕ := (Decoder.each decodeFrame (0, fun _ => []) v).2.1.1

/-- The frames that a list holds are overwritten, and the others stay. -/
theorem decodeFrames_accepted {x : Frames} {v : LlarpBuffer}
    (accepted : (decodeFrames x v).1 = .accepted) (y : Frames) (i : Fin 8) :
    (i.val < frameCount v →
      after decodeFrames x v i = after decodeFrames y v i) ∧
      (¬i.val < frameCount v → after decodeFrames x v i = x i) := by
  have blank := (paired_decodeFrames x (fun _ => []) v).2.2 accepted
  have other := (paired_decodeFrames x y v).2.2 accepted
  have count : (each decodeFrame (0, x) v).2.1.1 = frameCount v := blank.1
  refine ⟨fun before => (other.2 i).1 (count ▸ before), fun behind => ?_⟩
  exact ((other.2 i).2 (count ▸ not_lt.mp behind)).1

/-! ### Messages -/

structure LinkIntroMessage where
  rc : Contact.RouterContact
  N : KeyExchangeNonce
  Z : Signature
  P : UInt64
  version : UInt64

/-- Upstream and downstream messages have the same members. -/
structure RelayMessage where
  pathid : PathID
  X : List UInt8
  Y : TunnelNonce
  version : UInt64
  deriving DecidableEq

structure DHTImmediateMessage (Msg : Type) where
  msgs : List Msg
  version : UInt64

structure LRCommitMessage where
  frames : Frames
  pathid : PathID
  version : UInt64

structure LRStatusMessage where
  frames : Frames
  pathid : PathID
  status : UInt64
  version : UInt64

structure DiscardMessage where
  version : UInt64
  deriving DecidableEq

inductive Kind where
  | intro
  | downstream
  | upstream
  | dht
  | commit
  | status
  | discard
  deriving DecidableEq

/-- The object for each kind of message. -/
abbrev Message (Msg : Type) : Kind → Type
  | .intro => LinkIntroMessage
  | .downstream => RelayMessage
  | .upstream => RelayMessage
  | .dht => DHTImmediateMessage Msg
  | .commit => LRCommitMessage
  | .status => LRStatusMessage
  | .discard => DiscardMessage

/-- The objects of a new parser. -/
def fresh (Msg : Type) (defaultID : NetID) : (kind : Kind) → Message Msg kind
  | .intro => ⟨.fresh defaultID, .zero 32, .zero 64, 0, 0⟩
  | .downstream => ⟨.zero 16, [], .zero 32, 0⟩
  | .upstream => ⟨.zero 16, [], .zero 32, 0⟩
  | .dht => ⟨[], 0⟩
  | .commit => ⟨freshFrames, .zero 16, 0⟩
  | .status => ⟨freshFrames, .zero 16, 0, 0⟩
  | .discard => ⟨0⟩

/-- The path id of a commit message and of a status message stays. -/
def clear (Msg : Type) : (kind : Kind) → Message Msg kind → Message Msg kind
  | .intro, msg => ⟨msg.rc.clear, .zero 32, .zero 64, 0, 0⟩
  | .downstream, _ => ⟨.zero 16, [], .zero 32, 0⟩
  | .upstream, _ => ⟨.zero 16, [], .zero 32, 0⟩
  | .dht, _ => ⟨[], 0⟩
  | .commit, msg => ⟨fun _ => [], msg.pathid, 0⟩
  | .status, msg => ⟨fun _ => [], msg.pathid, 0, 0⟩
  | .discard, _ => ⟨0⟩

/-! ### How they are decoded -/

/-- What the messages use of the rest of the router. A DHT message is decoded into a new object,
and knows the router that sent it. -/
structure Environment (Session Msg : Type) where
  lib : ContactLibraries
  defaultID : NetID
  pubkey : Session → RouterID
  dht : RouterID → LlarpBuffer → Reading Msg

section Tables

variable {Session Msg : Type}

def introTable (lib : ContactLibraries) : Table LinkIntroMessage where
  members :=
    [⟨"a", Unit, fun _ => (), fun _ msg => msg, decodeType 'i'⟩,
      ⟨"n", KeyExchangeNonce, (·.N), fun N msg => { msg with N }, .aligned 32⟩,
      ⟨"p", UInt64, (·.P), fun P msg => { msg with P }, .integer fun i _ => i⟩,
      ⟨"r", Contact.RouterContact, (·.rc), fun rc msg => { msg with rc }, RouterContact.bDecode lib⟩,
      ⟨"v", UInt64, (·.version), fun version msg => { msg with version }, decodeVersion⟩,
      ⟨"z", Signature, (·.Z), fun Z msg => { msg with Z }, .aligned 64⟩]
  otherwise := .refuse
  letters := by
    show Decoder.Letters ["a", "n", "p", "r", "v", "z"]
    decide
  get_put := by simp
  apart := by simp
  oblivious := by
    simp only [List.forall_mem_cons]
    exact ⟨Decoder.oblivious_string fun _ _ _ => rfl, Decoder.oblivious_aligned 32,
      Decoder.oblivious_integer _, RouterContact.oblivious_bDecode, oblivious_decodeVersion,
      Decoder.oblivious_aligned 64, nofun⟩
  oblivious_otherwise := Decoder.oblivious_refuse
  otherwise_eq _ _ := rfl

def relayTable : Table RelayMessage where
  members :=
    [⟨"p", PathID, (·.pathid), fun pathid msg => { msg with pathid }, .aligned 16⟩,
      ⟨"v", UInt64, (·.version), fun version msg => { msg with version }, decodeVersion⟩,
      ⟨"x", List UInt8, (·.X), fun X msg => { msg with X }, decodeEncrypted (8192 - 128)⟩,
      ⟨"y", TunnelNonce, (·.Y), fun Y msg => { msg with Y }, .aligned 32⟩]
  otherwise := .refuse
  letters := by
    show Decoder.Letters ["p", "v", "x", "y"]
    decide
  get_put := by simp
  apart := by simp
  oblivious := by
    simp only [List.forall_mem_cons]
    exact ⟨Decoder.oblivious_aligned 16, oblivious_decodeVersion, oblivious_decodeEncrypted _,
      Decoder.oblivious_aligned 32, nofun⟩
  oblivious_otherwise := Decoder.oblivious_refuse
  otherwise_eq _ _ := rfl

variable (dht : LlarpBuffer → Reading Msg)

/-- Messages that could not be decoded are not added. -/
def decodeDHT : Decoder (List Msg) := fun msgs b =>
  match dht b with
  | (.accepted, msg, b) => (.accepted, msgs ++ [msg], b)
  | (ending, _, b) => (ending, msgs, b)

theorem oblivious_decodeDHT : Decoder.Oblivious (decodeDHT dht) := by
  intro x y b _
  rw [decodeDHT, decodeDHT]
  split
  · exact ⟨rfl, rfl, fun _ => trivial⟩
  · exact ⟨rfl, rfl, fun _ => trivial⟩

def dhtTable : Table (DHTImmediateMessage Msg) where
  members :=
    [⟨"m", List Msg, (·.msgs), fun msgs msg => { msg with msgs }, .each (decodeDHT dht)⟩,
      ⟨"v", UInt64, (·.version), fun version msg => { msg with version }, decodeVersion⟩]
  otherwise := .refuse
  letters := by
    show Decoder.Letters ["m", "v"]
    decide
  get_put := by simp
  apart := by simp
  oblivious := by
    simp only [List.forall_mem_cons]
    exact ⟨Decoder.oblivious_each (oblivious_decodeDHT dht), oblivious_decodeVersion, nofun⟩
  oblivious_otherwise := Decoder.oblivious_refuse
  otherwise_eq _ _ := rfl

/-- The frames of a commit message. Its path id is filled so that it is not queued with others. -/
def decodeCommitFrames : Decoder (Frames × PathID) := fun (frames, _) b =>
  let (ending, frames, b) := decodeFrames frames b
  (ending, (frames, ⟨List.replicate 16 'c'.toUInt8, List.length_replicate⟩), b)

theorem oblivious_decodeCommitFrames : Decoder.Oblivious decodeCommitFrames := fun x y b _ =>
  ⟨oblivious_decodeFrames.ending x.1 y.1 b, oblivious_decodeFrames.place x.1 y.1 b,
    fun _ => trivial⟩

def commitTable : Table LRCommitMessage where
  members :=
    [⟨"c", Frames × PathID, fun msg => (msg.frames, msg.pathid),
        fun (frames, pathid) msg => { msg with frames, pathid }, decodeCommitFrames⟩,
      ⟨"v", UInt64, (·.version), fun version msg => { msg with version }, decodeVersion⟩]
  otherwise := .refuse
  letters := by
    show Decoder.Letters ["c", "v"]
    decide
  get_put := by simp
  apart := by simp
  oblivious := by
    simp only [List.forall_mem_cons]
    exact ⟨oblivious_decodeCommitFrames, oblivious_decodeVersion, nofun⟩
  oblivious_otherwise := Decoder.oblivious_refuse
  otherwise_eq _ _ := rfl

def statusTable : Table LRStatusMessage where
  members :=
    [⟨"c", Frames, (·.frames), fun frames msg => { msg with frames }, decodeFrames⟩,
      ⟨"p", PathID, (·.pathid), fun pathid msg => { msg with pathid }, .aligned 16⟩,
      ⟨"s", UInt64, (·.status), fun status msg => { msg with status }, .integer fun i _ => i⟩,
      ⟨"v", UInt64, (·.version), fun version msg => { msg with version }, decodeVersion⟩]
  otherwise := .refuse
  letters := by
    show Decoder.Letters ["c", "p", "s", "v"]
    decide
  get_put := by simp
  apart := by simp
  oblivious := by
    simp only [List.forall_mem_cons]
    exact ⟨oblivious_decodeFrames, Decoder.oblivious_aligned 16, Decoder.oblivious_integer _,
      oblivious_decodeVersion, nofun⟩
  oblivious_otherwise := Decoder.oblivious_refuse
  otherwise_eq _ _ := rfl

def discardTable : Table DiscardMessage where
  members := [⟨"a", Unit, fun _ => (), fun _ msg => msg, decodeType 'x'⟩]
  otherwise := .refuse
  letters := by
    show Decoder.Letters ["a"]
    decide
  get_put := by simp
  apart := by simp
  oblivious := by
    simp only [List.forall_mem_cons]
    exact ⟨Decoder.oblivious_string fun _ _ _ => rfl, nofun⟩
  oblivious_otherwise := Decoder.oblivious_refuse
  otherwise_eq _ _ := rfl

/-- `DecodeKey` for each kind of message. -/
def table (env : Environment Session Msg) (src : Session) :
    (kind : Kind) → Table (Message Msg kind)
  | .intro => introTable env.lib
  | .downstream => relayTable
  | .upstream => relayTable
  | .dht => dhtTable (env.dht (env.pubkey src))
  | .commit => commitTable
  | .status => statusTable
  | .discard => discardTable

end Tables

end Llarp.Messages
