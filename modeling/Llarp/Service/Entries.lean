import Llarp.Service.Conversations

/-!
# What is written into session entries

Everything that happens to a conversation writes the entry of one tag. For each of the
functions that the event loop runs this module says what becomes of that entry: its
remote, its key and its counter of received messages.
-/

namespace Llarp.Service.Conversations

open Foundation

variable {host : Host} {c d e : Conversations} {tag : ConvoTag}

/-! ### One entry -/

/-- From `c` to `d` at most the entry of one tag changes, and it becomes `after`. -/
def Writes (c d : Conversations) (tag : ConvoTag) (after : Option Session) : Prop :=
  ∀ k, d.sessions[k]? = if k = tag then after else c.sessions[k]?

theorem writes_alter (c : Conversations) (tag : ConvoTag) (f : Option Session → Option Session) :
    Writes c (c.alter tag f) tag (f c.sessions[tag]?) :=
  fun _ => getElem?_alter

theorem writes_self (c : Conversations) (tag : ConvoTag) : Writes c c tag c.sessions[tag]? := by
  intro k
  split_ifs with same
  · rw [same]
  · rfl

variable {inbound : Bool} {s : Session} {after : Option Session} {info : ServiceInfo}

theorem Writes.eq (h : Writes c d tag after) : d.sessions[tag]? = after :=
  (h tag).trans (if_pos rfl)

theorem Writes.trans {after after' : Option Session} (first : Writes c d tag after)
    (second : Writes d e tag after') : Writes c e tag after' := by
  intro k
  rw [second k]
  split_ifs with same
  · rfl
  · rw [first k, if_neg same]

theorem Writes.congr {c' d' : Conversations} (h : Writes c d tag after)
    (before : c'.sessions = c.sessions) (same : d'.sessions = d.sessions) :
    Writes c' d' tag after := by
  intro k
  rw [same, before]
  exact h k

theorem writes_putReplyIntroFor (c : Conversations) (tag : ConvoTag) (intro : Introduction) :
    Writes c (c.putReplyIntroFor tag intro) tag
      (c.sessions[tag]?.map fun s => { s with replyIntro := intro }) :=
  writes_alter c tag _

theorem writes_putIntroFor (c : Conversations) (tag : ConvoTag) (intro : Introduction) :
    Writes c (c.putIntroFor tag intro) tag
      (some { c.sessions[tag]?.getD .empty with intro := intro }) :=
  writes_alter c tag _

theorem writes_putCachedSessionKeyFor (c : Conversations) (tag : ConvoTag) (k : SharedSecret) :
    Writes c (c.putCachedSessionKeyFor tag k) tag
      (some { c.sessions[tag]?.getD .empty with sharedKey := k }) :=
  writes_alter c tag _

theorem writes_convoTagRX (c : Conversations) (tag : ConvoTag) :
    Writes c (c.convoTagRX tag) tag (c.sessions[tag]?.map (Session.rx c.now)) :=
  writes_alter c tag _

theorem writes_removeConvoTag (c : Conversations) (tag : ConvoTag) :
    Writes c (c.removeConvoTag tag) tag none :=
  writes_alter c tag _

/-! ### Senders -/

theorem writes_putSenderFor (c : Conversations) (tag : ConvoTag) (info : ServiceInfo)
    (inbound : Bool) :
    Writes c (c.putSenderFor tag info inbound) tag
      (if info.addr.isZero then c.sessions[tag]?
      else
        match c.sessions[tag]? with
        | some s => some s
        | none =>
          if c.wantsOutboundSession info.addr && inbound then none
          else some { Session.empty with inbound := inbound, remote := info }) := by
  unfold putSenderFor
  by_cases zero : info.addr.isZero = true
  · rw [if_pos zero, if_pos zero]
    exact writes_self c tag
  · rw [if_neg zero, if_neg zero]
    exact writes_alter c tag _

theorem putSenderFor_of_some (known : c.sessions[tag]? = some s) (info : ServiceInfo)
    (inbound : Bool) : (c.putSenderFor tag info inbound).sessions[tag]? = some s := by
  rw [(writes_putSenderFor c tag info inbound).eq, known]
  exact ite_self _

/-- A new entry has the given remote and no key. -/
theorem putSenderFor_of_none (unknown : c.sessions[tag]? = none)
    (made : (c.putSenderFor tag info inbound).sessions[tag]? = some s) :
    s.remote = info ∧ s.sharedKey = .zero 32 := by
  rw [(writes_putSenderFor c tag info inbound).eq, unknown] at made
  split_ifs at made
  · cases made
    exact ⟨rfl, rfl⟩

/-- A new entry is made unless the address is zero, or the session is inbound and we want
to be the ones who open it. -/
theorem putSenderFor_makes (unknown : c.sessions[tag]? = none) (valid : info.addr.isZero = false)
    (allowed : (c.wantsOutboundSession info.addr && inbound) = false) :
    ∃ s, (c.putSenderFor tag info inbound).sessions[tag]? = some s := by
  rw [(writes_putSenderFor c tag info inbound).eq, unknown, if_neg (Bool.eq_false_iff.mp valid)]
  rw [if_neg (Bool.eq_false_iff.mp allowed)]
  exact ⟨_, rfl⟩

theorem putSenderFor_of_isZero (zero : info.addr.isZero = true) (inbound : Bool) :
    c.putSenderFor tag info inbound = c :=
  if_pos zero

theorem exists_putSenderFor_eq (c : Conversations) (tag : ConvoTag) (info : ServiceInfo)
    (inbound : Bool) :
    ∃ sessions, c.putSenderFor tag info inbound = { c with sessions := sessions } := by
  by_cases zero : info.addr.isZero = true
  · exact ⟨c.sessions, if_pos zero⟩
  · exact ⟨_, if_neg zero⟩

/-! ### Data messages -/

theorem exists_processDataMessage_eq (c : Conversations) (msg : ProtocolMessage) (signer : PubKey) :
    ∃ traffic, c.processDataMessage msg signer = { c with inboundTraffic := traffic } := by
  unfold processDataMessage
  dsimp only
  split_ifs
  · exact ⟨_, rfl⟩
  · exact ⟨c.inboundTraffic, rfl⟩

/-- The sender is put, the reply introduction and the counter are set, and the message goes
to the queue of the next pump and into the record. -/
theorem exists_handleDataMessage_eq (c : Conversations) (path : Path) (replyPath : PathID)
    (msg : ProtocolMessage) (signer : PubKey) :
    ∃ intro traffic, c.handleDataMessage path replyPath msg signer =
      { ((c.putSenderFor msg.tag msg.sender true).putReplyIntroFor msg.tag intro).convoTagRX
          msg.tag with
        inboundTraffic := traffic
        handled := c.handled ++ [(msg, signer)] } := by
  unfold handleDataMessage
  dsimp only
  obtain ⟨traffic, same⟩ := exists_processDataMessage_eq _ msg signer
  rw [same]
  exact ⟨_, traffic, rfl⟩

/-- Besides the entries, a data message changes the queue of the next pump and the record. -/
theorem frame_handleDataMessage (c : Conversations) (path : Path) (replyPath : PathID)
    (msg : ProtocolMessage) (signer : PubKey) :
    ∃ sessions traffic, c.handleDataMessage path replyPath msg signer =
      { c with
        sessions := sessions
        inboundTraffic := traffic
        handled := c.handled ++ [(msg, signer)] } := by
  obtain ⟨intro, traffic, same⟩ := exists_handleDataMessage_eq c path replyPath msg signer
  obtain ⟨sessions, put⟩ := exists_putSenderFor_eq c msg.tag msg.sender true
  rw [put] at same
  exact ⟨_, traffic, same⟩

theorem writes_handleDataMessage (c : Conversations) (path : Path) (replyPath : PathID)
    (msg : ProtocolMessage) (signer : PubKey) :
    ∃ intro, Writes c (c.handleDataMessage path replyPath msg signer) msg.tag
      ((c.putSenderFor msg.tag msg.sender true).sessions[msg.tag]?.map fun s =>
        { s with replyIntro := intro }.rx c.now) := by
  obtain ⟨intro, traffic, same⟩ := exists_handleDataMessage_eq c path replyPath msg signer
  obtain ⟨sessions, put⟩ := exists_putSenderFor_eq c msg.tag msg.sender true
  have reply := writes_putReplyIntroFor (c.putSenderFor msg.tag msg.sender true) msg.tag intro
  have received := writes_convoTagRX
    ((c.putSenderFor msg.tag msg.sender true).putReplyIntroFor msg.tag intro) msg.tag
  have clock : ((c.putSenderFor msg.tag msg.sender true).putReplyIntroFor msg.tag intro).now =
      c.now := by
    rw [put]
    rfl
  rw [reply.eq, Option.map_map, clock] at received
  refine ⟨intro, ?_⟩
  rw [same]
  exact ((writes_putSenderFor c msg.tag msg.sender true).trans (reply.trans received)).congr rfl rfl

/-- What a data message does to the entry of its tag. -/
structure Receives (before after : Option Session) (sender : ServiceInfo) : Prop where
  updates : ∀ s, before = some s → ∃ s', after = some s' ∧ s'.remote = s.remote ∧
    s'.sharedKey = s.sharedKey ∧ s'.messagesRecv = s.messagesRecv + 1
  creates : before = none → ∀ s', after = some s' → s'.remote = sender ∧ s'.sharedKey = .zero 32

theorem receives_handleDataMessage (c : Conversations) (path : Path) (replyPath : PathID)
    (msg : ProtocolMessage) (signer : PubKey) :
    ∃ after, Writes c (c.handleDataMessage path replyPath msg signer) msg.tag after ∧
      Receives c.sessions[msg.tag]? after msg.sender := by
  obtain ⟨intro, writes⟩ := writes_handleDataMessage c path replyPath msg signer
  refine ⟨_, writes, fun s known => ?_, fun unknown s' made => ?_⟩
  · rw [putSenderFor_of_some known]
    exact ⟨_, rfl, rfl, rfl, rfl⟩
  · obtain ⟨s, put, rfl⟩ := Option.map_eq_some_iff.mp made
    have fresh := putSenderFor_of_none unknown put
    exact fresh

/-! ### Accepted handshakes -/

/-- What an accepted message of a handshake does to the entry of its tag. -/
structure Keys (before after : Option Session) (sender : ServiceInfo) (k : SharedSecret) :
    Prop where
  updates : ∀ s, before = some s → ∃ s', after = some s' ∧ s'.remote = s.remote ∧
    s'.sharedKey = k ∧ s'.messagesRecv = s.messagesRecv + 1
  creates : before = none → ∃ s', after = some s' ∧ s'.sharedKey = k ∧
    (sender.addr.isZero = true → s'.remote = .empty) ∧
    (sender.addr.isZero = false → s'.remote = sender)

theorem keys_acceptAuth (host : Host) (c : Conversations) (auth : PendingAuth) :
    ∃ after, Writes c (c.acceptAuth host auth) auth.msg.tag after ∧
      Keys c.sessions[auth.msg.tag]? after auth.msg.sender (auth.handshake.sharedKey host) := by
  obtain ⟨msg, path, replyPath, handshake⟩ := auth
  let inbound := !c.wantsOutboundSession msg.sender.addr
  let put := c.putSenderFor msg.tag msg.sender inbound
  let reply := put.putReplyIntroFor msg.tag msg.introReply
  let keyed := reply.putCachedSessionKeyFor msg.tag (handshake.sharedKey host)
  have hreply := writes_putReplyIntroFor put msg.tag msg.introReply
  have hkeyed := writes_putCachedSessionKeyFor reply msg.tag (handshake.sharedKey host)
  obtain ⟨after, writes, receives⟩ := receives_handleDataMessage keyed path replyPath msg
    handshake.remote.signkey
  refine ⟨after, ((writes_putSenderFor c msg.tag msg.sender inbound).trans
    (hreply.trans hkeyed)).trans writes, ?_⟩
  rw [hreply.eq] at hkeyed
  obtain ⟨s', becomes, remote, key, count⟩ := receives.updates _ hkeyed.eq
  constructor
  · intro s known
    have here : put.sessions[msg.tag]? = some s := putSenderFor_of_some known msg.sender inbound
    rw [here] at remote count
    exact ⟨s', becomes, remote, key, count⟩
  · intro unknown
    refine ⟨s', becomes, key, fun zero => ?_, fun valid => ?_⟩
    · have here : put.sessions[msg.tag]? = none := by
        rw [show put = c from putSenderFor_of_isZero zero inbound, unknown]
      rw [here] at remote
      exact remote
    · -- whoever we want to reach ourselves is put as outbound, so nobody is refused
      have allowed : (c.wantsOutboundSession msg.sender.addr && inbound) = false := by
        simp [inbound]
      obtain ⟨s, here⟩ := putSenderFor_makes unknown valid allowed
      have fresh := putSenderFor_of_none unknown here
      rw [show put.sessions[msg.tag]? = some s from here] at remote
      exact remote.trans fresh.1

theorem frame_acceptAuth (host : Host) (c : Conversations) (auth : PendingAuth) :
    ∃ sessions traffic, c.acceptAuth host auth =
      { c with
        sessions := sessions
        inboundTraffic := traffic
        handled := c.handled ++ [(auth.msg, auth.handshake.remote.signkey)] } := by
  unfold acceptAuth
  dsimp only
  obtain ⟨sessions, put⟩ := exists_putSenderFor_eq c auth.msg.tag auth.msg.sender
    (!c.wantsOutboundSession auth.msg.sender.addr)
  rw [put]
  exact frame_handleDataMessage _ auth.path auth.replyPath auth.msg auth.handshake.remote.signkey

/-! ### Workers -/

/-- All messages of a handshake frame wait with the handshake of their frame. -/
theorem frame_asyncProcessAuthMessage (path : Path) (replyPath : PathID) (handshake : Handshake)
    (msgs : List ProtocolMessage) (c : Conversations) :
    ∃ pending auths, msgs.foldl (asyncProcessAuthMessage path replyPath handshake) c =
        { c with authPending := pending, auths := auths } ∧
      ∀ auth ∈ auths, auth ∈ c.auths ∨ auth.handshake = handshake := by
  induction msgs generalizing c with
  | nil => exact ⟨c.authPending, c.auths, rfl, fun _ => Or.inl⟩
  | cons msg msgs ih =>
    have one : ∃ pending auths, asyncProcessAuthMessage path replyPath handshake c msg =
        { c with authPending := pending, auths := auths } ∧
        ∀ auth ∈ auths, auth ∈ c.auths ∨ auth.handshake = handshake := by
      have added : ∀ auth ∈ c.auths ++ [⟨msg, path, replyPath, handshake⟩],
          auth ∈ c.auths ∨ auth.handshake = handshake := by
        intro auth mem
        rw [List.mem_append, List.mem_singleton] at mem
        exact mem.imp_right (congrArg _)
      unfold asyncProcessAuthMessage
      split_ifs
      · exact ⟨c.authPending, c.auths, rfl, fun _ => Or.inl⟩
      · exact ⟨_, _, rfl, added⟩
      · exact ⟨c.authPending, _, rfl, added⟩
    obtain ⟨pending, auths, first, old⟩ := one
    obtain ⟨pending', auths', others, older⟩ := ih { c with authPending := pending, auths := auths }
    refine ⟨pending', auths', ?_, fun auth mem => ?_⟩
    · rw [List.foldl_cons, first, others]
    · exact (older auth mem).elim (old auth) Or.inr

/-- A worker derives the key of a handshake, or the frame is dropped. -/
theorem work_cases {host : Host} {path : Path} {frame : ProtocolFrame}
    (done : c.work host path frame = some d) :
    d = c ∨ ∃ handshake pending auths,
      d = { c with
        authPending := pending, auths := auths, handshakes := c.handshakes ++ [handshake] } ∧
      ∀ auth ∈ auths, auth ∈ c.auths ∨ auth.handshake = handshake := by
  unfold work at done
  split at done
  · exact Or.inl (Option.some.inj done).symm
  · split at done
    · exact Or.inl (Option.some.inj done).symm
    · cases done
    · dsimp only at done
      split_ifs at done
      iterate 3 exact Or.inl (Option.some.inj done).symm
      cases done
      obtain ⟨pending, auths, folded, old⟩ := frame_asyncProcessAuthMessage path frame.F _ _
        { c with handshakes := c.handshakes ++ [_] }
      exact Or.inr ⟨_, pending, auths, folded, old⟩

theorem frame_queueRecvData (v : AsyncDecrypt) (msgs : List ProtocolMessage) (c : Conversations) :
    ∃ queue, msgs.foldl (queueRecvData v) c = { c with recvQueue := queue } := by
  induction msgs generalizing c with
  | nil => exact ⟨c.recvQueue, rfl⟩
  | cons msg msgs ih =>
    have one : ∃ queue, queueRecvData v c msg = { c with recvQueue := queue } := by
      unfold queueRecvData
      split_ifs
      · exact ⟨_, rfl⟩
      · exact ⟨c.recvQueue, rfl⟩
    obtain ⟨queue, first⟩ := one
    obtain ⟨queue', others⟩ := ih { c with recvQueue := queue }
    exact ⟨queue', by rw [List.foldl_cons, first, others]⟩

theorem frame_verifyFrame (host : Host) (c : Conversations) (v : AsyncDecrypt) :
    ∃ queue resets, c.verifyFrame host v = { c with recvQueue := queue, resets := resets } := by
  unfold verifyFrame
  split_ifs
  · split
    · exact ⟨c.recvQueue, _, rfl⟩
    · obtain ⟨queue, folded⟩ := frame_queueRecvData v _ c
      exact ⟨queue, c.resets, folded⟩
  · exact ⟨c.recvQueue, _, rfl⟩

end Llarp.Service.Conversations
