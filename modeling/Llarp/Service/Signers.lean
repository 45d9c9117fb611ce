import Llarp.Service.Entries

/-!
# Who signs and who is named

A frame is verified under one key. The messages in it name a sender and a tag each, and
what they lead to is done under these names. A frame of a handshake is verified under the
sender of its first message only; a frame of a session under the identity that its tag
had when the frame came in, and the senders of its messages are not looked at. So what is
done in the name of an identity is done by it exactly as long as the peers name
themselves, and as long as no two identities use one tag.
-/

namespace Llarp.Service

open Foundation Option

/-- The identity that verifies with this key and is known by it. -/
def ServiceInfo.Is (info : ServiceInfo) (key : PubKey) : Prop :=
  info.signkey = key ∧ info.addr = key

instance (info : ServiceInfo) (key : PubKey) : Decidable (info.Is key) :=
  inferInstanceAs (Decidable (_ ∧ _))

/-- An identity that is known by the zero address verifies with the zero key, and so does
a default-constructed one. -/
theorem ServiceInfo.Is.empty_of_isZero {info : ServiceInfo} {key : PubKey} (h : info.Is key)
    (zero : info.addr.isZero = true) : ServiceInfo.empty.Is key := by
  rw [h.2] at zero
  have same : key = .zero 32 := AlignedBuffer.eq_zero_of_isZero zero
  rw [same]
  exact ⟨rfl, rfl⟩

/-- Every entry that was changed, made or removed was and is that of the signer. -/
def Change.Honest (change : Change) : Prop :=
  ∀ tag : ConvoTag, change.before[tag]? ≠ change.after[tag]? →
    ∃ key, change.signer = some key ∧
      (∀ s : Session, change.before[tag]? = some s → s.remote.Is key) ∧
      ∀ s : Session, change.after[tag]? = some s → s.remote.Is key

namespace Conversations

variable {host : Host} {c d e : Conversations} {tag : ConvoTag} {key : PubKey}

/-- Every message that was handled has as its sender the identity that signed its frame,
and frames changed only entries of the identity that signed them. -/
def Honest (c : Conversations) : Prop :=
  (∀ handled ∈ c.handled, handled.1.sender.Is handled.2) ∧ ∀ change ∈ c.changes, change.Honest

/-- The condition on one step. -/
def Sincere (host : Host) (c : Conversations) : Event → Prop
  | .receive _ frame => ∀ s, c.sessions[frame.T]? = some s →
    if frame.R ≠ 0 then frame.verify host s.remote = true → s.remote.Is s.remote.signkey
    else frame.T.isZero = true ∨ s.sharedKey.isZero = false ∧ s.remote.addr.isZero = false
  | .work job => ∀ entry, c.decrypting[job]? = some entry →
    ∀ K, host.pqeDecrypt entry.2.C = some K → entry.2.decryptPayload host K ≠ some []
  | .authResult index verdict => ∀ auth, c.auths[index]? = some auth →
    c.isAccepted auth verdict = true →
      auth.msg.sender.Is auth.handshake.remote.signkey ∧
        ∀ s, c.sessions[auth.msg.tag]? = some s → s.remote.Is auth.handshake.remote.signkey
  | .flushRecvData => ∀ ev, c.recvQueue.head? = some ev →
    ev.msg.sender.Is ev.signer ∧
      ∀ s, c.sessions[ev.msg.tag]? = some s → s.remote.Is ev.signer
  | .resetConvoTag index => ∀ reset, c.resets[index]? = some reset →
    ∀ s, c.sessions[reset.tag]? = some s → ∃ key, reset.signer = some key ∧ s.remote.Is key
  | .handleInboundPacket index delivered => ∀ entry, c.inboundTraffic[index]? = some entry →
    delivered = true → ∀ s, c.sessions[entry.1.tag]? = some s → s.remote.Is entry.2
  | _ => True

/-! ### Changes of one entry -/

/-- A change of one entry is honest if that entry is honest, before and after. -/
theorem Writes.honest_iff {after : Option Session} {signer : Option PubKey}
    (h : Writes c d tag after) :
    (⟨signer, c.sessions, d.sessions⟩ : Change).Honest ↔
      (c.sessions[tag]? ≠ after → ∃ key, signer = some key ∧
        (∀ s, c.sessions[tag]? = some s → s.remote.Is key) ∧
        ∀ s, after = some s → s.remote.Is key) := by
  constructor
  · intro honest changed
    have here := honest tag
    rw [h.eq] at here
    exact here changed
  · intro honest k changed
    rw [h k] at changed ⊢
    by_cases same : k = tag
    · subst same
      rw [if_pos rfl] at changed ⊢
      exact honest changed
    · rw [if_neg same] at changed
      exact absurd rfl changed

/-- An entry that is there is changed and keeps its remote, and a new one is that of the
signer. Then the change is honest exactly if the old entry was that of the signer. -/
theorem Writes.honest_update_iff {after : Option Session} (h : Writes c d tag after)
    (updates : ∀ s, c.sessions[tag]? = some s →
      ∃ s', after = some s' ∧ s'.remote = s.remote ∧ s' ≠ s)
    (creates : c.sessions[tag]? = none → ∀ s, after = some s → s.remote.Is key) :
    (⟨some key, c.sessions, d.sessions⟩ : Change).Honest ↔
      ∀ s, c.sessions[tag]? = some s → s.remote.Is key := by
  rw [h.honest_iff]
  cases before : c.sessions[tag]? with
  | none =>
    have none_ : ∀ s : Session, none = some s → s.remote.Is key := nofun
    exact iff_of_true (fun _ => ⟨key, rfl, none_, creates before⟩) none_
  | some s =>
    obtain ⟨s', becomes, sameRemote, differs⟩ := updates s before
    subst becomes
    simp only [ne_eq, some.injEq, forall_eq', exists_eq_left']
    rw [sameRemote, and_self]
    exact ⟨fun honest => honest differs.symm, fun is _ => is⟩

/-- Removing an entry is honest exactly if its own identity signed. -/
theorem Writes.honest_remove_iff {signer : Option PubKey} (h : Writes c d tag none) :
    (⟨signer, c.sessions, d.sessions⟩ : Change).Honest ↔
      ∀ s, c.sessions[tag]? = some s → ∃ key, signer = some key ∧ s.remote.Is key := by
  rw [h.honest_iff]
  cases c.sessions[tag]? with
  | none => simp
  | some s => simp

/-! ### Steps -/

theorem honest_congr (handled : d.handled = c.handled) (changes : d.changes = c.changes) :
    d.Honest ↔ c.Honest := by
  rw [Honest, Honest, handled, changes]

theorem honest_because_iff (signer : Option PubKey) (c d : Conversations) :
    (because signer c d).Honest ↔
      d.Honest ∧ (⟨signer, c.sessions, d.sessions⟩ : Change).Honest := by
  unfold because Honest
  simp only [List.mem_append, List.mem_singleton, or_imp, forall_and, forall_eq, and_assoc]

/-- Entries are written and no message is handled. -/
theorem honest_because_iff_change (signer : Option PubKey) (honest : c.Honest)
    (handled : d.handled = c.handled) (changes : d.changes = c.changes) :
    (because signer c d).Honest ↔ (⟨signer, c.sessions, d.sessions⟩ : Change).Honest := by
  rw [honest_because_iff]
  exact and_iff_right ((honest_congr handled changes).mpr honest)

/-- A message is handled and nothing else is recorded. -/
theorem honest_handled_iff {msg : ProtocolMessage} (honest : c.Honest)
    (handled : d.handled = c.handled ++ [(msg, key)]) (changes : d.changes = c.changes) :
    d.Honest ↔ msg.sender.Is key := by
  rw [Honest, handled, changes]
  simp only [List.mem_append, List.mem_singleton, or_imp, forall_and, forall_eq]
  exact ⟨fun h => h.1.2, fun is => ⟨⟨honest.1, is⟩, honest.2⟩⟩

theorem ne_of_messagesRecv {s s' : Session} (count : s'.messagesRecv = s.messagesRecv + 1) :
    s' ≠ s := by
  rintro rfl
  have : (1 : UInt64) = 0 := by simpa only [left_eq_add] using count
  exact absurd this (by decide)

theorem honest_flushRecvData_iff (honest : c.Honest) :
    c.flushRecvData.Honest ↔ c.Sincere host .flushRecvData := by
  unfold flushRecvData Sincere
  cases c.recvQueue with
  | nil => exact iff_of_true honest nofun
  | cons ev rest =>
    let popped : Conversations := { c with recvQueue := rest }
    obtain ⟨sessions, traffic, frame⟩ := frame_handleDataMessage popped ev.fromPath ev.pathid
      ev.msg ev.signer
    obtain ⟨after, writes, receives⟩ := receives_handleDataMessage popped ev.fromPath ev.pathid
      ev.msg ev.signer
    have record : (popped.handleDataMessage ev.fromPath ev.pathid ev.msg ev.signer).Honest ↔
        ev.msg.sender.Is ev.signer :=
      honest_handled_iff honest (by rw [frame]) (by rw [frame])
    rw [honest_because_iff]
    simp only [List.head?_cons, some.injEq, forall_eq']
    rw [record]
    refine and_congr_right fun is => ?_
    apply writes.honest_update_iff
    · intro s known
      obtain ⟨s', becomes, remote, _, count⟩ := receives.updates s known
      exact ⟨s', becomes, remote, ne_of_messagesRecv count⟩
    · intro unknown s made
      rw [(receives.creates unknown s made).1]
      exact is

theorem honest_authResult_iff (honest : c.Honest) (index : ℕ) (verdict : Bool) :
    (c.authResult host index verdict).Honest ↔ c.Sincere host (.authResult index verdict) := by
  unfold authResult Sincere
  cases waiting : c.auths[index]? with
  | none =>
    simp only [waiting]
    exact iff_of_true honest nofun
  | some auth =>
    simp only [waiting, some.injEq, forall_eq']
    by_cases accepted : c.isAccepted auth verdict = true
    · rw [if_pos accepted, forall_prop_of_true accepted, honest_because_iff]
      obtain ⟨sessions, traffic, frame⟩ := frame_acceptAuth host (c.authDone index auth) auth
      obtain ⟨after, writes, keys⟩ := keys_acceptAuth host (c.authDone index auth) auth
      have record : ((c.authDone index auth).acceptAuth host auth).Honest ↔
          auth.msg.sender.Is auth.handshake.remote.signkey :=
        honest_handled_iff honest (by rw [frame]; rfl) (by rw [frame]; rfl)
      rw [record]
      refine and_congr_right fun is => ?_
      have here : Writes c ((c.authDone index auth).acceptAuth host auth) auth.msg.tag after :=
        writes.congr rfl rfl
      apply here.honest_update_iff
      · intro s known
        obtain ⟨s', becomes, remote, _, count⟩ := keys.updates s known
        exact ⟨s', becomes, remote, ne_of_messagesRecv count⟩
      · intro unknown s made
        obtain ⟨s', becomes, _, zero, valid⟩ := keys.creates unknown
        cases becomes.symm.trans made
        cases address : auth.msg.sender.addr.isZero with
        | true =>
          rw [zero address]
          exact is.empty_of_isZero address
        | false =>
          rw [valid address]
          exact is
    · rw [if_neg accepted]
      exact iff_of_true honest fun contradiction => absurd contradiction accepted

theorem honest_handleInboundPacket_iff (honest : c.Honest) (index : ℕ) (delivered : Bool) :
    (c.handleInboundPacket index delivered).Honest ↔
      c.Sincere host (.handleInboundPacket index delivered) := by
  unfold handleInboundPacket Sincere
  cases waiting : c.inboundTraffic[index]? with
  | none =>
    simp only [waiting]
    exact iff_of_true honest nofun
  | some entry =>
    obtain ⟨msg, signer⟩ := entry
    simp only [waiting, some.injEq, forall_eq']
    cases delivered with
    | false => exact iff_of_true honest nofun
    | true =>
      rw [if_pos rfl, forall_prop_of_true rfl,
        honest_because_iff_change _ honest (by rfl) (by rfl)]
      apply (writes_convoTagRX
        { c with inboundTraffic := c.inboundTraffic.eraseIdx index } msg.tag).honest_update_iff
      · intro s known
        exact ⟨s.rx c.now, congrArg _ known, rfl, ne_of_messagesRecv rfl⟩
      · intro unknown s made
        rw [unknown] at made
        cases made

theorem honest_resetConvoTag_iff (honest : c.Honest) (index : ℕ) :
    (c.resetConvoTag index).Honest ↔ c.Sincere host (.resetConvoTag index) := by
  unfold resetConvoTag Sincere
  cases waiting : c.resets[index]? with
  | none =>
    simp only [waiting]
    exact iff_of_true honest nofun
  | some reset =>
    simp only [waiting, some.injEq, forall_eq']
    rw [honest_because_iff_change _ honest (by rfl) (by rfl)]
    exact (writes_removeConvoTag
      { c with resets := c.resets.eraseIdx index } reset.tag).honest_remove_iff

/-- A frame comes in and may remove an entry. -/
theorem honest_receive_iff (honest : c.Honest) (path : Path) (frame : ProtocolFrame) :
    (c.receive host path frame).Honest ↔ c.Sincere host (.receive path frame) := by
  have removes : ∀ signer,
      (because signer c (c.removeConvoTag frame.T)).Honest ↔
        ∀ s, c.sessions[frame.T]? = some s → ∃ key, signer = some key ∧ s.remote.Is key := by
    intro signer
    rw [honest_because_iff_change signer honest (by rfl) (by rfl)]
    exact (writes_removeConvoTag c frame.T).honest_remove_iff
  unfold receive Sincere
  by_cases discards : frame.R ≠ 0
  · simp only [if_pos discards]
    cases known : c.sessions[frame.T]? with
    | none => exact iff_of_true honest nofun
    | some s =>
      simp only [some.injEq, forall_eq']
      by_cases verified : frame.verify host s.remote = true
      · rw [if_pos verified, removes, known, forall_prop_of_true verified]
        simp
      · rw [if_neg verified]
        exact iff_of_true honest fun contradiction => absurd contradiction verified
  · simp only [if_neg discards]
    by_cases fresh : frame.T.isZero = true
    · rw [if_pos fresh]
      exact iff_of_true honest fun s _ => Or.inl fresh
    · rw [if_neg fresh]
      cases known : c.sessions[frame.T]? with
      | none =>
        refine iff_of_true ((removes none).mpr ?_) nofun
        rw [known]
        exact nofun
      | some s =>
        simp only [some.injEq, forall_eq']
        by_cases unusable : (s.sharedKey.isZero || s.remote.addr.isZero) = true
        · rw [if_pos unusable, removes, known]
          simp only [some.injEq, forall_eq', reduceCtorEq, false_and, exists_false,
            false_iff, fresh, false_or, not_and]
          intro keyed
          rw [keyed] at unusable
          exact Bool.eq_false_iff.not.mpr (not_not.mpr unusable)
        · rw [if_neg unusable]
          refine iff_of_true honest (Or.inr ?_)
          rw [Bool.or_eq_true, not_or] at unusable
          exact ⟨Bool.eq_false_iff.mpr unusable.1, Bool.eq_false_iff.mpr unusable.2⟩

/-! ### Steps that record nothing -/

/-- No message is handled and no frame changes an entry. -/
def Silent (c d : Conversations) : Prop :=
  d.handled = c.handled ∧ d.changes = c.changes

theorem silent_putSenderFor (c : Conversations) (tag : ConvoTag) (info : ServiceInfo)
    (inbound : Bool) : Silent c (c.putSenderFor tag info inbound) := by
  obtain ⟨sessions, frame⟩ := exists_putSenderFor_eq c tag info inbound
  rw [frame]
  exact ⟨rfl, rfl⟩

theorem silent_work {path : Path} {frame : ProtocolFrame}
    (done : c.work host path frame = some d) : Silent c d := by
  obtain rfl | ⟨-, -, -, rfl, _⟩ := work_cases done
  · exact ⟨rfl, rfl⟩
  · exact ⟨rfl, rfl⟩

/-- A worker that takes a handshake frame is only undefined on an empty list of messages. -/
theorem exists_work_eq_some_iff (path : Path) (frame : ProtocolFrame) :
    (∃ d, c.work host path frame = some d) ↔
      ∀ K, host.pqeDecrypt frame.C = some K → frame.decryptPayload host K ≠ some [] := by
  unfold work
  cases host.pqeDecrypt frame.C with
  | none => simp
  | some K =>
    simp only [some.injEq, forall_eq']
    cases frame.decryptPayload host K with
    | none => simp
    | some msgs =>
      cases msgs with
      | nil => simp
      | cons first others =>
        refine iff_of_true ?_ (by simp)
        dsimp only
        split_ifs <;> exact ⟨_, rfl⟩

theorem silent_verifyFrame (c : Conversations) (v : AsyncDecrypt) :
    Silent c (c.verifyFrame host v) := by
  obtain ⟨queue, resets, frame⟩ := frame_verifyFrame host c v
  rw [frame]
  exact ⟨rfl, rfl⟩

theorem silent_encrypt (c : Conversations) (index : ℕ) (pqKey : SharedSecret)
    (nonce : KeyExchangeNonce) (fits : Bool) : Silent c (c.encrypt index pqKey nonce fits) := by
  unfold encrypt
  split
  · exact ⟨rfl, rfl⟩
  · dsimp only
    split_ifs <;> exact ⟨rfl, rfl⟩

theorem silent_exchangeResult (c : Conversations) (index : ℕ) :
    Silent c (c.exchangeResult host index) := by
  unfold exchangeResult
  split
  · exact ⟨rfl, rfl⟩
  · exact silent_putSenderFor { c with results := c.results.eraseIdx index } _ _ _

theorem silent_encryptAndSendTo (c : Conversations) (tag : ConvoTag)
    (remoteIntro introReply : Introduction) (count : UInt64) :
    Silent c (c.encryptAndSendTo tag remoteIntro introReply count) := by
  unfold encryptAndSendTo
  split_ifs <;> exact ⟨rfl, rfl⟩

/-! ### Runs -/

/-- The records stay honest over one step exactly if the step is sincere. -/
theorem exists_step_honest_iff (honest : c.Honest) (event : Event) :
    (∃ d, step host c event = some d ∧ d.Honest) ↔ c.Sincere host event := by
  -- a step that records nothing is always fine
  have quiet : ∀ {d : Conversations}, Silent c d → ((∃ d', some d = some d' ∧ d'.Honest) ↔ True) :=
    fun silent => iff_true_intro ⟨_, rfl, (honest_congr silent.1 silent.2).mpr honest⟩
  have always : ∀ {d : Conversations}, (∃ d', some d = some d' ∧ d'.Honest) ↔ d.Honest := by
    simp
  cases event with
  | receive path frame => exact always.trans (honest_receive_iff honest path frame)
  | authResult index verdict => exact always.trans (honest_authResult_iff honest index verdict)
  | flushRecvData => exact always.trans (honest_flushRecvData_iff honest)
  | resetConvoTag index => exact always.trans (honest_resetConvoTag_iff honest index)
  | handleInboundPacket index delivered =>
    exact always.trans (honest_handleInboundPacket_iff honest index delivered)
  | work job =>
    unfold step Sincere
    cases waiting : c.decrypting[job]? with
    | none =>
      simp only [waiting]
      exact iff_of_true ⟨c, rfl, honest⟩ nofun
    | some entry =>
      simp only [waiting, some.injEq, forall_eq']
      rw [← exists_work_eq_some_iff entry.1 entry.2]
      refine exists_congr fun d => and_iff_left_of_imp fun done => ?_
      have silent := silent_work done
      exact (honest_congr silent.1 silent.2).mpr honest
  | verifyFrame job =>
    cases waiting : c.verifying[job]? with
    | none =>
      simp only [step, waiting]
      exact quiet ⟨rfl, rfl⟩
    | some v =>
      simp only [step, waiting]
      exact quiet (silent_verifyFrame { c with verifying := c.verifying.eraseIdx job } v)
  | asyncGenIntro addressKeys exchange =>
    exact quiet (silent_putSenderFor c exchange.tag addressKeys false)
  | encrypt index pqKey nonce fits => exact quiet (silent_encrypt c index pqKey nonce fits)
  | exchangeResult index => exact quiet (silent_exchangeResult c index)
  | swapIntros tag addressKeys intro => exact quiet (silent_putSenderFor c tag addressKeys false)
  | encryptAndSendTo tag remoteIntro introReply count =>
    exact quiet (silent_encryptAndSendTo c tag remoteIntro introReply count)
  | ensurePathToSelf tag => exact quiet (silent_putSenderFor c tag c.identity true)
  | wait duration => exact quiet ⟨rfl, rfl⟩
  | markAddressOutbound addr => exact quiet ⟨rfl, rfl⟩
  | convoTagTX tag => exact quiet ⟨rfl, rfl⟩
  | convoTagRX tag => exact quiet ⟨rfl, rfl⟩
  | removeConvoTag tag => exact quiet ⟨rfl, rfl⟩
  | expireConvoSessions => exact quiet ⟨rfl, rfl⟩

theorem honest_start (now : ℕ) (identity : ServiceInfo) (authPolicy exitEnabled : Bool)
    (exitMap : List Address) : (start now identity authPolicy exitEnabled exitMap).Honest :=
  ⟨nofun, nofun⟩

/-- A run is defined throughout and all that is done in it is done by the identity that it
is done for, exactly if each of its steps is sincere in the state that it is taken in. -/
theorem honest_iff_sincere (host : Host) (now : ℕ) (identity : ServiceInfo)
    (authPolicy exitEnabled : Bool) (exitMap : List Address) (events : List Event) :
    ((run (step host) (start now identity authPolicy exitEnabled exitMap) events).isSome ∧
      Always (step host) Honest (start now identity authPolicy exitEnabled exitMap) events) ↔
      Along (step host) (Sincere host) (start now identity authPolicy exitEnabled exitMap)
        events :=
  run_isSome_and_always_iff_along (fun _ event honest => exists_step_honest_iff honest event)
    (honest_start now identity authPolicy exitEnabled exitMap)

/-- The second message of a handshake frame names another service. It is handled as a
message of that service, and an entry is made and keyed for that service. -/
theorem foreign_message_handled :
    ∃ c, run (step plainHost) (start 0 .empty false false [])
        [.receive ⟨.zero 32⟩ (plainHandshake (.copy 32 [1]) [1, 1, 2, 2]), .work 0, .authResult 0 true,
          .authResult 0 true] = some c ∧
      (plainMessage (plainService (.copy 32 [2])) (.copy 16 [2]), .copy 32 [1]) ∈ c.handled ∧
      (c.sessions[AlignedBuffer.copy 16 [2]]?).map Session.remote =
        some (plainService (.copy 32 [2])) ∧
      ¬ c.Honest := by
  have reached : ∃ c, run (step plainHost) (start 0 .empty false false [])
      [.receive ⟨.zero 32⟩ (plainHandshake (.copy 32 [1]) [1, 1, 2, 2]), .work 0, .authResult 0 true,
        .authResult 0 true] = some c ∧
      (plainMessage (plainService (.copy 32 [2])) (.copy 16 [2]), .copy 32 [1]) ∈ c.handled ∧
      (c.sessions[AlignedBuffer.copy 16 [2]]?).map Session.remote =
        some (plainService (.copy 32 [2])) := by
    decide +kernel
  obtain ⟨c, runs, handled, entry⟩ := reached
  refine ⟨c, runs, handled, entry, fun honest => ?_⟩
  exact absurd (honest.1 _ handled) (by decide)

end Conversations

end Llarp.Service
