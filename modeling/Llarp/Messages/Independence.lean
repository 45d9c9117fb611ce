import Llarp.Messages.LinkMessageParser

/-!
# What earlier messages leave in a message

The objects of the parser are used for one message after the other. A message that does not name
all its members shows what an earlier message has left: in the members that are not cleared, and,
if the earlier message could not be decoded to its end, in all of them.
-/

namespace Llarp.Messages

open Foundation Contact Decoder RouterContact

variable {Session Msg : Type} {env : Environment Session Msg} {src : Session}

namespace Parser

/-- The parser has read the part of a message that the script says, with objects that were there
before. -/
def Reads (env : Environment Session Msg) (src : Session)
    (held : (kind : Kind) → Message Msg kind) (p : Parser Msg) (s : Script) : Prop :=
  p.handled = none ∧
    match s.kind with
    | none => p.firstkey = true ∧ p.holder = held
    | some kind => p.firstkey = false ∧ p.msg = some kind ∧
        p.holder kind = s.listed.foldl (apply (table env src kind).decodeKey) (held kind) ∧
          ∀ entry ∈ s.listed, ∀ o, ((table env src kind).decodeKey entry.1 o entry.2).1 = .accepted

theorem simulates_logKey (held : (kind : Kind) → Message Msg kind) (key : List UInt8) :
    Simulates (Reads env src held) (onKey env src key) (logKey env src key) := by
  rintro ⟨holder, firstkey, msg, handled⟩ ⟨kind, listed⟩ b ⟨unhandled, reads⟩
  obtain rfl : handled = none := unhandled
  cases kind with
  | none =>
    obtain ⟨rfl, rfl⟩ : firstkey = true ∧ holder = held := reads
    rw [onKey, logKey]
    cases readKind key b with
    | mk kind after =>
      cases kind with
      | none => exact ⟨rfl, rfl, nofun⟩
      | some kind =>
        exact ⟨rfl, rfl, fun _ => ⟨rfl, rfl, rfl, rfl, nofun⟩⟩
  | some kind =>
    obtain ⟨rfl, rfl, made, all⟩ : firstkey = false ∧ msg = some kind ∧ _ := reads
    have oblivious := (table env src kind).oblivious_decodeKey key
    rw [logKey]
    refine ⟨oblivious.ending _ _ b, oblivious.place _ _ b, fun accepted => ?_⟩
    refine ⟨rfl, rfl, rfl, ?_, fun entry member o => ?_⟩
    · rw [List.foldl_append, ← made]
      exact Function.update_self kind _ holder
    · rcases List.mem_append.mp member with old | new
      · exact all entry old o
      · rw [List.mem_singleton.mp new]
        exact (oblivious.ending o (holder kind) b).trans accepted

/-- Nothing is handled before the end. -/
theorem keeps_handled (env : Environment Session Msg) (src : Session) :
    Keeps handled (dict (onKey env src)) := by
  refine keeps_dict fun key p b => ?_
  rw [onKey]
  split_ifs
  · split
    · rfl
    · rfl
  · split
    · rfl
    · rfl

/-- What is passed on is made from the entries and from the object that was there. -/
theorem passed_eq (p : Parser Msg) (call : Call Session Msg) :
    passed env p call =
      match script env call.src call.buf with
      | (.accepted, ⟨some kind, listed⟩, _) =>
        some ⟨kind, listed.foldl (apply (table env call.src kind).decodeKey) (p.holder kind)⟩
      | _ => none := by
  have start : Reads env call.src p.holder { p with
      firstkey := true
      handled := none } ⟨none, []⟩ := ⟨rfl, rfl, rfl⟩
  obtain ⟨ending, -, reads⟩ := simulates_dict (simulates_logKey p.holder) _ _ call.buf start
  rw [passed, processFrom, readDict, readContainer_next]
  change (Reading.next (dict (onKey env call.src) _ call.buf) (onEnd call.handle)).2.1.handled = _
  have unhandled := keeps_handled env call.src { p with
      firstkey := true
      handled := none } call.buf
  rw [script]
  generalize dict (onKey env call.src) _ call.buf = read at *
  generalize dict (logKey env call.src) _ call.buf = logged at *
  obtain ⟨result, q, after⟩ := read
  obtain ⟨result', ⟨kind, listed⟩, after'⟩ := logged
  obtain rfl : result = result' := ending
  cases result with
  | accepted =>
    obtain ⟨-, reads⟩ := reads rfl
    cases kind with
    | none =>
      obtain ⟨first, -⟩ := reads
      rw [Reading.next, onEnd, if_pos first]
      exact unhandled
    | some kind =>
      obtain ⟨notFirst, named, made, -⟩ := reads
      rw [Reading.next, onEnd, if_neg (by rw [notFirst]; exact Bool.false_ne_true), messageDone,
        named]
      dsimp only
      rw [made]
  | _ => exact unhandled

end Parser

/-! ### What the entries overwrite -/

/-- A member is overwritten, or it is that of a new object. -/
def Settled {α : Type*} (values : List LlarpBuffer) (held new : α) : Prop :=
  values ≠ [] ∨ held = new

/-- The contact in an object is overwritten. A contact that does not name its network leaves the
network of the old one, and a contact that is not a list leaves its signed dictionary. -/
def ContactSettled (lib : ContactLibraries) (values : List LlarpBuffer)
    (held new : Contact.RouterContact) : Prop :=
  Settled values held.core new.core ∧
    ((∃ v ∈ values, RouterContact.NamesNetwork lib v) ∨ held.netID = new.netID) ∧
    ((∃ v ∈ values, RouterContact.IsList v) ∨ held.signedBtDict = new.signedBtDict)

/-- Every frame is overwritten, or it is that of a new object. -/
def FramesSettled (values : List LlarpBuffer) (held new : Frames) : Prop :=
  ∀ i, (∃ v ∈ values, i.val < frameCount v) ∨ held i = new i

/-- All members of the object are overwritten by the entries, or are those of a new object. DHT
messages are never overwritten. -/
def Determined (env : Environment Session Msg) (listed : List (List UInt8 × LlarpBuffer)) :
    (kind : Kind) → Message Msg kind → Message Msg kind → Prop
  | .intro, held, new =>
    ContactSettled env.lib (valuesOf "r" listed) held.rc new.rc ∧
      Settled (valuesOf "n" listed) held.N new.N ∧ Settled (valuesOf "z" listed) held.Z new.Z ∧
      Settled (valuesOf "p" listed) held.P new.P ∧
      Settled (valuesOf "v" listed) held.version new.version
  | .downstream, held, new | .upstream, held, new =>
    Settled (valuesOf "p" listed) held.pathid new.pathid ∧
      Settled (valuesOf "x" listed) held.X new.X ∧ Settled (valuesOf "y" listed) held.Y new.Y ∧
      Settled (valuesOf "v" listed) held.version new.version
  | .dht, held, new =>
    held.msgs = new.msgs ∧ Settled (valuesOf "v" listed) held.version new.version
  | .commit, held, new =>
    FramesSettled (valuesOf "c" listed) held.frames new.frames ∧
      Settled (valuesOf "c" listed) held.pathid new.pathid ∧
      Settled (valuesOf "v" listed) held.version new.version
  | .status, held, new =>
    FramesSettled (valuesOf "c" listed) held.frames new.frames ∧
      Settled (valuesOf "p" listed) held.pathid new.pathid ∧
      Settled (valuesOf "s" listed) held.status new.status ∧
      Settled (valuesOf "v" listed) held.version new.version
  | .discard, held, new => held.version = new.version

section Members

variable {values : List LlarpBuffer}

theorem exists_true_iff_ne_nil : (∃ v ∈ values, True) ↔ values ≠ [] := by
  simp only [and_true]
  exact ⟨fun ⟨_, member⟩ => List.ne_nil_of_mem member, List.exists_mem_of_ne_nil values⟩

theorem aligned_settled_iff {size : ℕ} (accepts : AcceptsAll (aligned size) values)
    (x y : AlignedBuffer size) :
    values.foldl (after (aligned size)) x = values.foldl (after (aligned size)) y ↔
      Settled values x y :=
  foldl_after_eq_iff accepts (fun _ _ => aligned_accepted) x y

theorem integer_settled_iff (accepts : AcceptsAll (integer fun i _ => i) values) (x y : UInt64) :
    values.foldl (after (integer fun i _ => i)) x =
        values.foldl (after (integer fun i _ => i)) y ↔ Settled values x y :=
  foldl_after_eq_iff accepts (fun _ _ => integer_accepted) x y

theorem version_settled_iff (accepts : AcceptsAll decodeVersion values) (x y : UInt64) :
    values.foldl (after decodeVersion) x = values.foldl (after decodeVersion) y ↔
      Settled values x y :=
  foldl_after_eq_iff accepts (fun _ _ => decodeVersion_accepted) x y

theorem encrypted_settled_iff {bufsz : ℕ} (accepts : AcceptsAll (decodeEncrypted bufsz) values)
    (x y : List UInt8) :
    values.foldl (after (decodeEncrypted bufsz)) x =
        values.foldl (after (decodeEncrypted bufsz)) y ↔ Settled values x y :=
  foldl_after_eq_iff accepts (fun _ _ => decodeEncrypted_accepted) x y

theorem frames_settled_iff (accepts : AcceptsAll decodeFrames values) (x y : Frames) :
    values.foldl (after decodeFrames) x = values.foldl (after decodeFrames) y ↔
      FramesSettled values x y := by
  rw [funext_iff]
  refine forall_congr' fun i => ?_
  let get (frames : Frames) : List UInt8 := frames i
  have iff : get (values.foldl (after decodeFrames) x) = get (values.foldl (after decodeFrames) y) ↔
      (∃ v ∈ values, i.val < frameCount v) ∨ get x = get y :=
    get_foldl_after_eq_iff accepts
      (fun x y v accepted => (decodeFrames_accepted accepted y i).1)
      (fun x v accepted => (decodeFrames_accepted accepted x i).2) x y
  exact iff

theorem contact_settled_iff {lib : ContactLibraries}
    (accepts : AcceptsAll (bDecode lib) values) (x y : Contact.RouterContact) :
    values.foldl (after (bDecode lib)) x =
        values.foldl (after (bDecode lib)) y ↔ ContactSettled lib values x y := by
  have core : (values.foldl (after (bDecode lib)) x).core =
      (values.foldl (after (bDecode lib)) y).core ↔
        (∃ v ∈ values, True) ∨ x.core = y.core :=
    get_foldl_after_eq_iff accepts
      (fun x y v accepted _ => core_after_bDecode accepted y)
      (fun x v accepted => absurd trivial) x y
  have netID := get_foldl_after_eq_iff accepts
    (fun x y v accepted => netID_after_bDecode_named accepted y)
    (fun x v => netID_after_bDecode) x y
  have kept := get_foldl_after_eq_iff accepts
    (fun x y v accepted => signedBtDict_after_bDecode_list accepted y)
    (fun x v => signedBtDict_after_bDecode) x y
  rw [eq_iff_core, core, netID, kept, ContactSettled, Settled, exists_true_iff_ne_nil]

/-- Messages are added to those that are there. -/
theorem dht_accepted {dht : LlarpBuffer → Reading Msg} {x : List Msg} {v : LlarpBuffer}
    (accepted : (each (decodeDHT dht) x v).1 = .accepted) :
    after (each (decodeDHT dht)) x v = x ++ after (each (decodeDHT dht)) [] v := by
  have element : Simulates (fun made new => made = x ++ new) (decodeDHT dht) (decodeDHT dht) := by
    rintro - - - rfl
    rw [decodeDHT, decodeDHT]
    split
    · exact ⟨rfl, rfl, fun _ => List.append_assoc ..⟩
    · exact ⟨rfl, rfl, fun _ => rfl⟩
  exact (simulates_each element x [] v (List.append_nil x).symm).2.2 accepted

theorem dht_settled_iff {dht : LlarpBuffer → Reading Msg}
    (accepts : AcceptsAll (each (decodeDHT dht)) values) (x y : List Msg) :
    values.foldl (after (each (decodeDHT dht))) x = values.foldl (after (each (decodeDHT dht))) y ↔
      x = y := by
  rw [foldl_after_append accepts (fun _ _ => dht_accepted),
    foldl_after_append accepts (fun _ _ => dht_accepted), List.append_cancel_right_eq]

/-- The path id of a commit message is the same after every list of frames. -/
theorem commitFrames_settled_iff (accepts : AcceptsAll decodeCommitFrames values)
    (x y : Frames × PathID) :
    values.foldl (after decodeCommitFrames) x = values.foldl (after decodeCommitFrames) y ↔
      FramesSettled values x.1 y.1 ∧ Settled values x.2 y.2 := by
  let frame i (made : Frames × PathID) : List UInt8 := made.1 i
  have frames (i : Fin 8) : frame i (values.foldl (after decodeCommitFrames) x) =
      frame i (values.foldl (after decodeCommitFrames) y) ↔
        (∃ v ∈ values, i.val < frameCount v) ∨ frame i x = frame i y :=
    get_foldl_after_eq_iff accepts
      (fun x y v accepted => (decodeFrames_accepted accepted y.1 i).1)
      (fun x v accepted => (decodeFrames_accepted accepted x.1 i).2) x y
  have pathid : (values.foldl (after decodeCommitFrames) x).2 =
      (values.foldl (after decodeCommitFrames) y).2 ↔ (∃ v ∈ values, True) ∨ x.2 = y.2 :=
    get_foldl_after_eq_iff accepts (fun _ _ _ _ _ => rfl)
      (fun _ _ _ => absurd trivial) x y
  rw [Prod.ext_iff, pathid, exists_true_iff_ne_nil, funext_iff]
  exact and_congr_left' (forall_congr' frames)

end Members

section Objects

variable {listed : List (List UInt8 × LlarpBuffer)}

/-- All entries are accepted, whatever the object held. -/
def AllAccepted {σ : Type} (table : Table σ) (listed : List (List UInt8 × LlarpBuffer)) : Prop :=
  ∀ entry ∈ listed, ∀ o, (table.decodeKey entry.1 o entry.2).1 = .accepted

theorem AllAccepted.acceptsAll {σ : Type} {table : Table σ} (all : AllAccepted table listed)
    (o : σ) : ∀ m ∈ table.members, AcceptsAll m.decode (valuesOf m.letter listed) :=
  fun _ member => Table.acceptsAll_of_entries member all o

theorem intro_eq_iff (all : AllAccepted (introTable env.lib) listed)
    (held new : LinkIntroMessage) :
    listed.foldl (apply (introTable env.lib).decodeKey) held =
        listed.foldl (apply (introTable env.lib).decodeKey) new ↔
      Determined env listed .intro held new := by
  have accepts := all.acceptsAll held
  rw [Table.foldl_apply_eq_iff ?determines]
  case determines =>
    rintro ⟨⟩ ⟨⟩ same
    simp only [introTable, List.forall_mem_cons] at same
    obtain ⟨-, rfl, rfl, rfl, rfl, rfl, -⟩ := same
    rfl
  simp only [introTable, List.forall_mem_cons] at accepts ⊢
  obtain ⟨-, N, P, rc, version, Z, -⟩ := accepts
  rw [aligned_settled_iff N, integer_settled_iff P, contact_settled_iff rc,
    version_settled_iff version, aligned_settled_iff Z]
  constructor
  · rintro ⟨-, N, P, rc, version, Z, -⟩
    exact ⟨rc, N, Z, P, version⟩
  · rintro ⟨rc, N, Z, P, version⟩
    exact ⟨trivial, N, P, rc, version, Z, nofun⟩

variable (env) in
theorem relay_eq_iff (all : AllAccepted relayTable listed) (held new : RelayMessage) :
    listed.foldl (apply relayTable.decodeKey) held =
        listed.foldl (apply relayTable.decodeKey) new ↔
      Determined env listed .upstream held new := by
  have accepts := all.acceptsAll held
  rw [Table.foldl_apply_eq_iff ?determines]
  case determines =>
    rintro ⟨⟩ ⟨⟩ same
    simp only [relayTable, List.forall_mem_cons] at same
    obtain ⟨rfl, rfl, rfl, rfl, -⟩ := same
    rfl
  simp only [relayTable, List.forall_mem_cons] at accepts ⊢
  obtain ⟨pathid, version, X, Y, -⟩ := accepts
  rw [aligned_settled_iff pathid, version_settled_iff version, encrypted_settled_iff X,
    aligned_settled_iff Y]
  constructor
  · rintro ⟨pathid, version, X, Y, -⟩
    exact ⟨pathid, X, Y, version⟩
  · rintro ⟨pathid, X, Y, version⟩
    exact ⟨pathid, version, X, Y, nofun⟩

theorem dht_eq_iff {dht : LlarpBuffer → Reading Msg} (all : AllAccepted (dhtTable dht) listed)
    (held new : DHTImmediateMessage Msg) :
    listed.foldl (apply (dhtTable dht).decodeKey) held =
        listed.foldl (apply (dhtTable dht).decodeKey) new ↔
      Determined env listed .dht held new := by
  have accepts := all.acceptsAll held
  rw [Table.foldl_apply_eq_iff ?determines]
  case determines =>
    rintro ⟨⟩ ⟨⟩ same
    simp only [dhtTable, List.forall_mem_cons] at same
    obtain ⟨rfl, rfl, -⟩ := same
    rfl
  simp only [dhtTable, List.forall_mem_cons] at accepts ⊢
  obtain ⟨msgs, version, -⟩ := accepts
  rw [dht_settled_iff msgs, version_settled_iff version]
  exact and_congr_right' (and_iff_left nofun)

theorem commit_eq_iff (all : AllAccepted commitTable listed) (held new : LRCommitMessage) :
    listed.foldl (apply commitTable.decodeKey) held =
        listed.foldl (apply commitTable.decodeKey) new ↔
      Determined env listed .commit held new := by
  have accepts := all.acceptsAll held
  rw [Table.foldl_apply_eq_iff ?determines]
  case determines =>
    rintro ⟨⟩ ⟨⟩ same
    simp only [commitTable, List.forall_mem_cons, Prod.mk.injEq] at same
    obtain ⟨⟨rfl, rfl⟩, rfl, -⟩ := same
    rfl
  simp only [commitTable, List.forall_mem_cons] at accepts ⊢
  obtain ⟨frames, version, -⟩ := accepts
  rw [commitFrames_settled_iff frames, version_settled_iff version, and_assoc]
  exact and_congr_right' (and_congr_right' (and_iff_left nofun))

theorem status_eq_iff (all : AllAccepted statusTable listed) (held new : LRStatusMessage) :
    listed.foldl (apply statusTable.decodeKey) held =
        listed.foldl (apply statusTable.decodeKey) new ↔
      Determined env listed .status held new := by
  have accepts := all.acceptsAll held
  rw [Table.foldl_apply_eq_iff ?determines]
  case determines =>
    rintro ⟨⟩ ⟨⟩ same
    simp only [statusTable, List.forall_mem_cons] at same
    obtain ⟨rfl, rfl, rfl, rfl, -⟩ := same
    rfl
  simp only [statusTable, List.forall_mem_cons] at accepts ⊢
  obtain ⟨frames, pathid, status, version, -⟩ := accepts
  rw [frames_settled_iff frames, aligned_settled_iff pathid, integer_settled_iff status,
    version_settled_iff version]
  exact and_congr_right' (and_congr_right' (and_congr_right' (and_iff_left nofun)))

/-- A discard message has no member that is decoded. -/
theorem discard_eq_iff (held new : DiscardMessage) :
    listed.foldl (apply discardTable.decodeKey) held =
        listed.foldl (apply discardTable.decodeKey) new ↔ held.version = new.version := by
  have puts : ∀ m ∈ discardTable.members, ∀ x msg, id (m.put x msg) = id msg := by
    simp only [discardTable, List.forall_mem_cons]
    exact ⟨fun _ _ => trivial, nofun⟩
  have keeps (msg : DiscardMessage) : listed.foldl (apply discardTable.decodeKey) msg = msg :=
    Table.keeps_foldl_apply puts listed msg
  rw [keeps, keeps, DiscardMessage.mk.injEq]

/-- Entries make the same of two objects exactly if they overwrite what differs. -/
theorem foldl_eq_iff_determined {kind : Kind} (all : AllAccepted (table env src kind) listed)
    (held new : Message Msg kind) :
    listed.foldl (apply (table env src kind).decodeKey) held =
        listed.foldl (apply (table env src kind).decodeKey) new ↔
      Determined env listed kind held new := by
  cases kind with
  | intro => exact intro_eq_iff all held new
  | downstream => exact relay_eq_iff env all held new
  | upstream => exact relay_eq_iff env all held new
  | dht => exact dht_eq_iff all held new
  | commit => exact commit_eq_iff all held new
  | status => exact status_eq_iff all held new
  | discard => exact discard_eq_iff held new

end Objects

/-! ### The whole parser -/

namespace Parser

theorem script_accepted {b after : LlarpBuffer} {kind : Kind}
    {listed : List (List UInt8 × LlarpBuffer)}
    (read : script env src b = (.accepted, ⟨some kind, listed⟩, after)) :
    AllAccepted (table env src kind) listed := by
  have start : Reads env src (Messages.fresh Msg env.defaultID) (fresh env) ⟨none, []⟩ :=
    ⟨rfl, rfl, rfl⟩
  obtain ⟨ending, -, reads⟩ := simulates_dict (simulates_logKey _) _ _ b start
  rw [script] at read
  rw [read] at ending reads
  obtain ⟨-, -, -, -, all⟩ := reads ending
  exact all

/-- What is handled does not depend on earlier calls exactly if the message overwrites everything
that they have left and that is not as in a new object. -/
theorem passed_eq_fresh_iff (calls : List (Call Session Msg)) (call : Call Session Msg) :
    passed env (afterCalls env calls) call = passed env (fresh env) call ↔
      ∀ kind listed after, script env call.src call.buf = (.accepted, ⟨some kind, listed⟩, after) →
        Determined env listed kind ((afterCalls env calls).holder kind)
          (Messages.fresh Msg env.defaultID kind) := by
  rw [passed_eq, passed_eq]
  generalize read : script env call.src call.buf = message
  obtain ⟨ending, ⟨kind, listed⟩, after⟩ := message
  constructor
  · rintro same kind listed after ⟨⟩
    have made := eq_of_heq (Sigma.mk.inj (Option.some.inj same)).2
    exact (foldl_eq_iff_determined (script_accepted read) _ _).mp made
  · intro determined
    cases ending with
    | accepted =>
      cases kind with
      | none => rfl
      | some kind =>
        have settled := determined kind listed after rfl
        have made := (foldl_eq_iff_determined (script_accepted read) _ _).mpr settled
        exact congrArg (fun made => some (Sigma.mk kind made)) made
    | _ => rfl

/-- A router without DHT messages. -/
def quietEnvironment : Environment Unit Unit where
  lib := RouterContact.hexLibraries
  defaultID := .zero 8
  pubkey _ := .zero 32
  dht _ b := (.refused, (), b)

def callOf (text : String) : Call Unit Unit :=
  ⟨(), Contact.bufferOf (Bencode.ascii text), fun _ => true⟩

/-- The path id of a status message that was passed on. -/
def pathidPassed : Option ((kind : Kind) × Message Unit kind) → Option PathID
  | some ⟨.status, msg⟩ => some msg.pathid
  | _ => none

/-- A status message without a path id is handled with that of the status message before it. -/
theorem status_keeps_pathid :
    passed quietEnvironment
        (afterCalls quietEnvironment [callOf "d1:a1:s1:p16:0123456789abcdefe"])
        (callOf "d1:a1:se") ≠
      passed quietEnvironment (fresh quietEnvironment) (callOf "d1:a1:se") := by
  intro same
  have kept : pathidPassed (passed quietEnvironment
      (afterCalls quietEnvironment [callOf "d1:a1:s1:p16:0123456789abcdefe"])
      (callOf "d1:a1:se")) = some ⟨Bencode.ascii "0123456789abcdef", by decide⟩ := by
    decide +kernel
  rw [same] at kept
  exact absurd kept (by decide)

end Parser

end Llarp.Messages
