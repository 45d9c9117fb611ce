import Llarp.Service.Entries

/-!
# Where the key of a session comes from

The remote of an entry and its key are written by different calls. An entry that is there
keeps its remote, but its key is overwritten. So remote and key of an entry stem from one
handshake as long as no handshake ends on the tag of another identity, and as long as
every handshake ends for an identity that can be entered.
-/

namespace Llarp.Service.Conversations

open Foundation Option

variable {host : Host} {c d e : Conversations} {tag : ConvoTag}

/-- The key of this entry is the one that some handshake derived with the keys of its
remote. -/
def Derived (host : Host) (c : Conversations) (s : Session) : Prop :=
  ∃ h ∈ c.handshakes, h.remote = s.remote ∧ s.sharedKey = h.sharedKey host

instance (host : Host) (c : Conversations) (s : Session) : Decidable (c.Derived host s) :=
  inferInstanceAs (Decidable (∃ h ∈ c.handshakes, _))

/-- Every entry that has a key has one that was derived with the keys of its remote. -/
def Keyed (host : Host) (c : Conversations) : Prop :=
  ∀ tag : ConvoTag, ∀ s : Session, c.sessions[tag]? = some s → s.sharedKey.isZero = false →
    c.Derived host s

/-- The entry of this tag, if there is one, and the one that would be made otherwise are
those of the peer of the handshake. -/
def Belongs (c : Conversations) (tag : ConvoTag) (sender : ServiceInfo) (handshake : Handshake) :
    Prop :=
  match c.sessions[tag]? with
  | some s => s.remote = handshake.remote
  | none => sender = handshake.remote ∧ sender.addr.isZero = false

instance (c : Conversations) (tag : ConvoTag) (sender : ServiceInfo) (handshake : Handshake) :
    Decidable (c.Belongs tag sender handshake) :=
  match entry : c.sessions[tag]? with
  | some s => decidable_of_iff (s.remote = handshake.remote) (by rw [Belongs, entry])
  | none =>
    decidable_of_iff (sender = handshake.remote ∧ sender.addr.isZero = false)
      (by rw [Belongs, entry])

/-- The handshake that a step ends, with the tag and the sender that it is entered for. -/
def ending (c : Conversations) : Event → Option (ConvoTag × ServiceInfo × Handshake)
  | .authResult index verdict => (c.auths[index]?).bind fun auth =>
    if c.isAccepted auth verdict then some (auth.msg.tag, auth.msg.sender, auth.handshake)
    else none
  | .exchangeResult index => (c.results[index]?).map fun result =>
    (result.1.tag, result.1.remote, result.2)
  | _ => none

/-- The condition on one step: a handshake ends on a tag that belongs to its peer. -/
def EndsAtPeer (c : Conversations) (event : Event) : Prop :=
  ∀ ends, c.ending event = some ends → c.Belongs ends.1 ends.2.1 ends.2.2

instance (c : Conversations) (event : Event) : Decidable (c.EndsAtPeer event) :=
  inferInstanceAs (Decidable (∀ ends, c.ending event = some ends → _))

/-! ### Steps that write no key -/

/-- Every entry with a key had this key and this remote before, and what waits for the end of a
handshake waited before, or the key of its handshake is derived. -/
structure Follows (c d : Conversations) : Prop where
  keeps : ∀ tag : ConvoTag, ∀ s : Session, d.sessions[tag]? = some s → s.sharedKey.isZero = false →
    ∃ s₀, c.sessions[tag]? = some s₀ ∧ s₀.remote = s.remote ∧ s₀.sharedKey = s.sharedKey
  handshakes : c.handshakes ⊆ d.handshakes
  auths : ∀ auth ∈ d.auths, auth ∈ c.auths ∨ auth.handshake ∈ d.handshakes
  results : ∀ result ∈ d.results, result ∈ c.results ∨ result.2 ∈ d.handshakes

namespace Follows

theorem refl (c : Conversations) : Follows c c where
  keeps _ s entry _ := ⟨s, entry, rfl, rfl⟩
  handshakes := List.Subset.refl _
  auths _ := .inl
  results _ := .inl

theorem trans (first : Follows c d) (second : Follows d e) : Follows c e where
  keeps tag s entry keyed := by
    obtain ⟨s₁, entry₁, remote₁, key₁⟩ := second.keeps tag s entry keyed
    obtain ⟨s₀, entry₀, remote₀, key₀⟩ := first.keeps tag s₁ entry₁ (key₁.symm ▸ keyed)
    exact ⟨s₀, entry₀, remote₀.trans remote₁, key₀.trans key₁⟩
  handshakes := List.Subset.trans first.handshakes second.handshakes
  auths auth mem := (second.auths auth mem).elim
    (fun old => (first.auths auth old).imp_right fun new => second.handshakes new) .inr
  results result mem := (second.results result mem).elim
    (fun old => (first.results result old).imp_right fun new => second.handshakes new) .inr

theorem alter {f : Option Session → Option Session}
    (written : ∀ s, f c.sessions[tag]? = some s → s.sharedKey.isZero = false →
      ∃ s₀, c.sessions[tag]? = some s₀ ∧ s₀.remote = s.remote ∧ s₀.sharedKey = s.sharedKey) :
    Follows c (c.alter tag f) := by
  refine { refl c with keeps := fun k s entry keyed => ?_ }
  rw [writes_alter c tag f k] at entry
  by_cases here : k = tag
  · rw [if_pos here] at entry
    rw [here]
    exact written s entry keyed
  · rw [if_neg here] at entry
    exact ⟨s, entry, rfl, rfl⟩

/-- A setter that does not touch remote and key, and does not make an entry. -/
theorem alter_map {f : Session → Session} (remote : ∀ s, (f s).remote = s.remote)
    (key : ∀ s, (f s).sharedKey = s.sharedKey) : Follows c (c.alter tag (Option.map f)) := by
  refine alter fun s written _ => ?_
  obtain ⟨s₀, before, rfl⟩ := Option.map_eq_some_iff.mp written
  exact ⟨s₀, before, (remote s₀).symm, (key s₀).symm⟩

/-- A setter that does not touch remote and key, and makes an entry if there is none. -/
theorem alter_getD (f : Session → Session) (remote : ∀ s, (f s).remote = s.remote)
    (key : ∀ s, (f s).sharedKey = s.sharedKey) :
    Follows c (c.alter tag fun s => some (f (s.getD .empty))) := by
  refine alter fun s written keyed => ?_
  cases written
  cases before : c.sessions[tag]? with
  | some s₀ =>
    rw [remote, key]
    exact ⟨s₀, rfl, rfl, rfl⟩
  | none =>
    rw [before, key] at keyed
    exact absurd keyed (by decide)

end Follows

theorem follows_putSenderFor (c : Conversations) (tag : ConvoTag) (info : ServiceInfo)
    (inbound : Bool) : Follows c (c.putSenderFor tag info inbound) := by
  unfold putSenderFor
  by_cases zero : info.addr.isZero = true
  · rw [if_pos zero]
    exact .refl c
  · rw [if_neg zero]
    refine .alter fun s written keyed => ?_
    cases before : c.sessions[tag]? with
    | some s₀ =>
      rw [before] at written
      exact ⟨s, written, rfl, rfl⟩
    | none =>
      rw [before] at written
      split_ifs at written
      cases written
      exact absurd keyed (show ¬Session.empty.sharedKey.isZero = false by decide)

theorem follows_putIntroFor (c : Conversations) (tag : ConvoTag) (intro : Introduction) :
    Follows c (c.putIntroFor tag intro) :=
  .alter_getD (fun s => { s with intro := intro }) (fun _ => rfl) fun _ => rfl

theorem follows_removeConvoTag (c : Conversations) (tag : ConvoTag) :
    Follows c (c.removeConvoTag tag) :=
  .alter nofun

theorem follows_handleDataMessage (c : Conversations) (path : Path) (replyPath : PathID)
    (msg : ProtocolMessage) (signer : PubKey) :
    Follows c (c.handleDataMessage path replyPath msg signer) := by
  obtain ⟨intro, traffic, same⟩ := exists_handleDataMessage_eq c path replyPath msg signer
  let put := c.putSenderFor msg.tag msg.sender true
  have reply : Follows put (put.putReplyIntroFor msg.tag intro) :=
    .alter_map (fun _ => rfl) fun _ => rfl
  have received : Follows (put.putReplyIntroFor msg.tag intro)
      ((put.putReplyIntroFor msg.tag intro).convoTagRX msg.tag) :=
    .alter_map (fun _ => rfl) fun _ => rfl
  rw [same]
  exact { ((follows_putSenderFor c msg.tag msg.sender true).trans reply).trans received with }

theorem follows_receive (path : Path) (frame : ProtocolFrame) :
    Follows c (c.receive host path frame) := by
  have removes (signer : Option PubKey) :
      Follows c (because signer c (c.removeConvoTag frame.T)) :=
    { follows_removeConvoTag c frame.T with }
  unfold receive
  split_ifs
  · split
    · exact .refl c
    · split_ifs
      · exact removes _
      · exact .refl c
  · exact { Follows.refl c with }
  · split
    · exact removes _
    · split_ifs
      · exact removes _
      · exact { Follows.refl c with }

theorem follows_work {path : Path} {frame : ProtocolFrame}
    (done : c.work host path frame = some d) : Follows c d := by
  obtain rfl | ⟨handshake, -, auths, rfl, old⟩ := work_cases done
  · exact .refl _
  · refine { Follows.refl c with
      handshakes := List.subset_append_left _ _
      auths := fun auth mem => (old auth mem).imp_right fun new => ?_
      results := fun _ => .inl }
    rw [new]
    exact List.mem_append_right _ (List.mem_singleton_self _)

theorem follows_encrypt (index : ℕ) (pqKey : SharedSecret) (nonce : KeyExchangeNonce)
    (fits : Bool) : Follows c (c.encrypt index pqKey nonce fits) := by
  unfold encrypt
  split
  · exact .refl c
  · dsimp only
    split_ifs
    · refine { Follows.refl c with
        handshakes := List.subset_append_left _ _
        auths := fun _ => .inl
        results := fun result mem => (List.mem_append.mp mem).imp_right fun new => ?_ }
      rw [List.mem_singleton.mp new]
      exact List.mem_append_right _ (List.mem_singleton_self _)
    · exact { Follows.refl c with }

theorem follows_encryptAndSendTo (remoteIntro introReply : Introduction) (count : UInt64) :
    Follows c (c.encryptAndSendTo tag remoteIntro introReply count) := by
  unfold encryptAndSendTo
  split_ifs
  · let put := c.putIntroFor tag remoteIntro
    have reply : Follows put (put.putReplyIntroFor tag introReply) :=
      .alter_map (fun _ => rfl) fun _ => rfl
    exact ((follows_putIntroFor c tag remoteIntro).trans reply).trans
      (.alter_map (fun _ => rfl) fun _ => rfl)
  · exact .refl c

theorem follows_ensurePathToSelf (c : Conversations) (tag : ConvoTag) :
    Follows c (c.ensurePathToSelf tag) := by
  let put := c.putSenderFor tag c.identity true
  have sends : Follows put (put.convoTagTX tag) := .alter_map (fun _ => rfl) fun _ => rfl
  exact ((follows_putSenderFor c tag c.identity true).trans sends).trans
    (.alter_getD (fun s => { s with forever := true }) (fun _ => rfl) fun _ => rfl)

theorem follows_expireConvoSessions (c : Conversations) :
    Follows c { c with sessions := c.sessions.filter fun _ s => !s.isExpired c.now } := by
  refine { Follows.refl c with keeps := fun tag s entry _ => ?_ }
  rw [Std.ExtTreeMap.getElem?_filter', filter_eq_some_iff] at entry
  exact ⟨s, entry.1, rfl, rfl⟩

/-- What is left of the authentications when one is over. -/
theorem follows_authDone (c : Conversations) (index : ℕ) (auth : PendingAuth) :
    Follows c (c.authDone index auth) :=
  { Follows.refl c with auths := fun _ mem => .inl (List.eraseIdx_subset mem) }

/-- A step that ends no handshake. -/
theorem follows_step {event : Event} (none : c.ending event = none)
    (next : step host c event = some d) : Follows c d := by
  cases event with
  | receive path frame => exact some.inj next ▸ follows_receive path frame
  | work job =>
    rw [step] at next
    split at next
    · exact some.inj next ▸ .refl c
    · exact { follows_work next with }
  | authResult index verdict =>
    cases next
    unfold authResult
    split
    · exact .refl c
    · next auth waiting =>
      rw [if_neg ?_]
      · exact follows_authDone c index auth
      · intro accepted
        rw [ending, waiting, bind_some, if_pos accepted] at none
        cases none
  | verifyFrame job =>
    rw [step] at next
    split at next
    · exact some.inj next ▸ .refl c
    · next v _ =>
      cases next
      obtain ⟨queue, resets, frame⟩ := frame_verifyFrame host
        { c with verifying := c.verifying.eraseIdx job } v
      rw [frame]
      exact { Follows.refl c with }
  | resetConvoTag index =>
    cases next
    unfold resetConvoTag
    split
    · exact .refl c
    · next reset _ => exact { follows_removeConvoTag c reset.tag with }
  | flushRecvData =>
    cases next
    unfold flushRecvData
    split
    · exact .refl c
    · next ev rest _ =>
      exact { follows_handleDataMessage { c with recvQueue := rest } ev.fromPath ev.pathid ev.msg
        ev.signer with }
  | handleInboundPacket index delivered =>
    cases next
    unfold handleInboundPacket
    split
    · exact .refl c
    · next msg signer _ =>
      have received : Follows c (c.convoTagRX msg.tag) := .alter_map (fun _ => rfl) fun _ => rfl
      split_ifs
      · exact { received with }
      · exact { Follows.refl c with }
  | asyncGenIntro addressKeys exchange =>
    exact some.inj next ▸ { follows_putSenderFor c exchange.tag addressKeys false with }
  | encrypt index pqKey nonce fits =>
    exact some.inj next ▸ follows_encrypt index pqKey nonce fits
  | exchangeResult index =>
    cases next
    unfold exchangeResult
    rw [map_eq_none_iff.mp none]
    exact .refl c
  | swapIntros tag addressKeys intro =>
    exact some.inj next ▸
      (follows_putSenderFor c tag addressKeys false).trans (follows_putIntroFor _ tag intro)
  | encryptAndSendTo tag remoteIntro introReply count =>
    exact some.inj next ▸ follows_encryptAndSendTo remoteIntro introReply count
  | ensurePathToSelf tag => exact some.inj next ▸ follows_ensurePathToSelf c tag
  | removeConvoTag tag => exact some.inj next ▸ follows_removeConvoTag c tag
  | expireConvoSessions => exact some.inj next ▸ follows_expireConvoSessions c
  | convoTagTX tag => exact some.inj next ▸ .alter_map (fun _ => rfl) fun _ => rfl
  | convoTagRX tag => exact some.inj next ▸ .alter_map (fun _ => rfl) fun _ => rfl
  | wait duration => exact some.inj next ▸ { Follows.refl c with }
  | markAddressOutbound addr => exact some.inj next ▸ { Follows.refl c with }

/-! ### Ends of handshakes -/

/-- A handshake with this key is entered: a remote that is there stays, and a sender that
has an address becomes the remote where there is none. -/
structure Settles (before after : Option Session) (sender : ServiceInfo) (k : SharedSecret) :
    Prop where
  key : ∀ s, after = some s → s.sharedKey = k
  keeps : ∀ s₀, before = some s₀ → ∀ s, after = some s → s.remote = s₀.remote
  enters : before = none → sender.addr.isZero = false → ∀ s, after = some s → s.remote = sender

theorem settles_acceptAuth (host : Host) (c : Conversations) (auth : PendingAuth) :
    ∃ after, Writes c (c.acceptAuth host auth) auth.msg.tag after ∧
      Settles c.sessions[auth.msg.tag]? after auth.msg.sender (auth.handshake.sharedKey host) := by
  obtain ⟨after, writes, keys⟩ := keys_acceptAuth host c auth
  refine ⟨after, writes, ?_, ?_, ?_⟩
  · intro s written
    cases before : c.sessions[auth.msg.tag]? with
    | some s₀ =>
      obtain ⟨s', becomes, _, key, _⟩ := keys.updates s₀ before
      exact some.inj (written.symm.trans becomes) ▸ key
    | none =>
      obtain ⟨s', becomes, key, _⟩ := keys.creates before
      exact some.inj (written.symm.trans becomes) ▸ key
  · intro s₀ before s written
    obtain ⟨s', becomes, remote, _⟩ := keys.updates s₀ before
    exact some.inj (written.symm.trans becomes) ▸ remote
  · intro before valid s written
    obtain ⟨s', becomes, _, _, enters⟩ := keys.creates before
    exact some.inj (written.symm.trans becomes) ▸ enters valid

/-- What `AsyncKeyExchange::Result` does to the entry. -/
theorem settles_exchange (c : Conversations) (exchange : AsyncKeyExchange) (k : SharedSecret) :
    ∃ after, Writes c
        ((((c.putSenderFor exchange.tag exchange.remote false).putCachedSessionKeyFor exchange.tag
          k).putIntroFor exchange.tag exchange.remoteIntro).putReplyIntroFor exchange.tag
            exchange.introReply) exchange.tag after ∧
      Settles c.sessions[exchange.tag]? after exchange.remote k := by
  let put := c.putSenderFor exchange.tag exchange.remote false
  have key := writes_putCachedSessionKeyFor put exchange.tag k
  have intro := writes_putIntroFor (put.putCachedSessionKeyFor exchange.tag k) exchange.tag
    exchange.remoteIntro
  refine ⟨_, (((writes_putSenderFor c exchange.tag exchange.remote false).trans key).trans
    intro).trans (writes_putReplyIntroFor _ exchange.tag exchange.introReply), ?_⟩
  rw [intro.eq, key.eq]
  refine ⟨?_, ?_, ?_⟩
  · rintro _ ⟨⟩
    rfl
  · rintro s₀ before _ ⟨⟩
    rw [putSenderFor_of_some before]
    rfl
  · rintro before valid _ ⟨⟩
    obtain ⟨s, made⟩ := putSenderFor_makes before valid (Bool.and_false _)
    rw [made]
    exact (putSenderFor_of_none before made).1

/-- A handshake that ends at its peer leaves all keys derived. -/
theorem Writes.keyed {after : Option Session} {sender : ServiceInfo} {handshake : Handshake}
    (h : Writes c d tag after) (keyed : c.Keyed host) (same : d.handshakes = c.handshakes)
    (settles : Settles c.sessions[tag]? after sender (handshake.sharedKey host))
    (derived : handshake ∈ c.handshakes) (belongs : c.Belongs tag sender handshake) :
    d.Keyed host := by
  intro k s entry nonzero
  rw [h k] at entry
  rw [Derived, same]
  by_cases here : k = tag
  · rw [if_pos here] at entry
    refine ⟨handshake, derived, ?_, settles.key s entry⟩
    unfold Belongs at belongs
    cases before : c.sessions[tag]? with
    | some s₀ =>
      rw [before] at belongs
      exact belongs.symm.trans
        (settles.keeps s₀ before s entry).symm
    | none =>
      rw [before] at belongs
      obtain ⟨names, valid⟩ : sender = handshake.remote ∧ sender.addr.isZero = false := belongs
      exact names.symm.trans (settles.enters before valid s entry).symm
  · rw [if_neg here] at entry
    exact keyed k s entry nonzero

/-! ### Runs -/

/-- All keys that are in use or on their way stem from handshakes that were derived. -/
structure KeysInv (host : Host) (c : Conversations) : Prop where
  keyed : c.Keyed host
  auths : ∀ auth ∈ c.auths, auth.handshake ∈ c.handshakes
  results : ∀ result ∈ c.results, result.2 ∈ c.handshakes

theorem keysInv_start (now : ℕ) (identity : ServiceInfo) (authPolicy exitEnabled : Bool)
    (exitMap : List Address) : KeysInv host (start now identity authPolicy exitEnabled exitMap) where
  keyed := fun tag s entry _ => by
    rw [start] at entry
    cases entry
  auths := nofun
  results := nofun

section

variable (inv : KeysInv host c)

include inv

theorem KeysInv.of_follows (follows : Follows c d) : KeysInv host d where
  keyed tag s entry nonzero := by
    obtain ⟨s₀, entry₀, remote, key⟩ := follows.keeps tag s entry nonzero
    obtain ⟨h, derived, peer, same⟩ := inv.keyed tag s₀ entry₀ (key.symm ▸ nonzero)
    exact ⟨h, follows.handshakes derived, peer.trans remote, key.symm.trans same⟩
  auths auth mem := (follows.auths auth mem).elim
    (fun old => follows.handshakes (inv.auths auth old)) id
  results result mem := (follows.results result mem).elim
    (fun old => follows.handshakes (inv.results result old)) id

theorem KeysInv.acceptAuth {index : ℕ} {auth : PendingAuth} (waiting : c.auths[index]? = some auth)
    (belongs : c.Belongs auth.msg.tag auth.msg.sender auth.handshake) :
    KeysInv host ((c.authDone index auth).acceptAuth host auth) := by
  have rest := inv.of_follows (follows_authDone c index auth)
  have derived : auth.handshake ∈ c.handshakes := inv.auths auth (List.mem_of_getElem? waiting)
  obtain ⟨sessions, traffic, frame⟩ := frame_acceptAuth host (c.authDone index auth) auth
  obtain ⟨after, writes, settles⟩ := settles_acceptAuth host (c.authDone index auth) auth
  have keyed := writes.keyed rest.keyed (by rw [frame]) settles derived belongs
  rw [frame] at keyed ⊢
  exact { rest with keyed }

theorem KeysInv.exchange {index : ℕ} {exchange : AsyncKeyExchange} {handshake : Handshake}
    (waiting : c.results[index]? = some (exchange, handshake))
    (belongs : c.Belongs exchange.tag exchange.remote handshake) :
    KeysInv host (c.exchangeResult host index) := by
  have derived : handshake ∈ c.handshakes := inv.results _ (List.mem_of_getElem? waiting)
  let rest : Conversations := { c with results := c.results.eraseIdx index }
  obtain ⟨sessions, frame⟩ := exists_putSenderFor_eq rest exchange.tag exchange.remote false
  obtain ⟨after, writes, settles⟩ := settles_exchange rest exchange (handshake.sharedKey host)
  unfold exchangeResult
  rw [waiting]
  dsimp only
  rw [frame] at writes ⊢
  have here : Writes c _ exchange.tag after := writes.congr rfl rfl
  exact ⟨here.keyed inv.keyed rfl settles derived belongs, inv.auths,
    fun result mem => inv.results result (List.eraseIdx_subset mem)⟩

/-- One step whose handshake, if it ends one, ends at its peer. -/
theorem KeysInv.step {event : Event} (ends : c.EndsAtPeer event)
    (next : step host c event = some d) : KeysInv host d := by
  cases ended : c.ending event with
  | none => exact inv.of_follows (follows_step ended next)
  | some handshake =>
    have belongs := ends handshake ended
    cases event with
    | authResult index verdict =>
      obtain ⟨auth, waiting, ended⟩ := bind_eq_some_iff.mp ended
      split_ifs at ended with accepted
      cases ended
      cases next
      unfold authResult
      rw [waiting]
      dsimp only
      rw [if_pos accepted]
      exact { inv.acceptAuth waiting belongs with }
    | exchangeResult index =>
      obtain ⟨⟨exchange, handshake⟩, waiting, rfl⟩ := map_eq_some_iff.mp ended
      exact some.inj next ▸ inv.exchange waiting belongs
    | _ => cases ended

end

/-- In a run in which every handshake ends at its peer, every key that an entry has at any
time was derived with the keys of the remote of that entry. -/
theorem keyed_of_endsAtPeer (host : Host) (now : ℕ) (identity : ServiceInfo)
    (authPolicy exitEnabled : Bool) (exitMap : List Address) (events : List Event)
    (ends : Along (step host) EndsAtPeer (start now identity authPolicy exitEnabled exitMap)
      events) :
    Always (step host) (Keyed host) (start now identity authPolicy exitEnabled exitMap)
      events := by
  intro _ c isPrefix reached
  have inv : KeysInv host c :=
    run_invariant (KeysInv host) (fun _ _ _ inv => inv.step)
      (keysInv_start now identity authPolicy exitEnabled exitMap) (ends.of_prefix isPrefix) reached
  exact inv.keyed

/-- Two services begin a handshake with these tags, and both are accepted. -/
def twoHandshakes (tag₁ tag₂ : UInt8) : List Event :=
  [.receive ⟨.zero 32⟩ (plainHandshake (.copy 32 [1]) [1, tag₁]),
    .receive ⟨.zero 32⟩ (plainHandshake (.copy 32 [2]) [2, tag₂]), .work 0, .work 0,
    .authResult 0 true, .authResult 0 true]

/-- With two tags each service gets an entry and its own key. -/
theorem keyed_twoHandshakes :
    (∃ c, run (step plainHost) (start 0 .empty false false []) (twoHandshakes 7 8) = some c ∧
      (c.sessions[AlignedBuffer.copy 16 [8]]?).map (fun s => (s.remote, s.sharedKey)) =
        some (plainService (.copy 32 [2]), .copy 32 [2])) ∧
      Always (step plainHost) (Keyed plainHost) (start 0 .empty false false [])
        (twoHandshakes 7 8) :=
  ⟨by decide +kernel,
    keyed_of_endsAtPeer plainHost 0 .empty false false [] (twoHandshakes 7 8) (by decide +kernel)⟩

/-- With one tag neither worker sees the entry of the other handshake. The entry keeps the
remote of the first handshake and gets the key of the second one. -/
theorem key_of_other_remote :
    ∃ c, run (step plainHost) (start 0 .empty false false []) (twoHandshakes 7 7) = some c ∧
      (c.sessions[AlignedBuffer.copy 16 [7]]?).map (fun s => (s.remote, s.sharedKey)) =
        some (plainService (.copy 32 [1]), .copy 32 [2]) ∧
      ¬ c.Keyed plainHost := by
  have reached : ∃ c,
      run (step plainHost) (start 0 .empty false false []) (twoHandshakes 7 7) = some c ∧
      (c.sessions[AlignedBuffer.copy 16 [7]]?).map (fun s => (s.remote, s.sharedKey)) =
        some (plainService (.copy 32 [1]), .copy 32 [2]) ∧
      ∃ s, c.sessions[AlignedBuffer.copy 16 [7]]? = some s ∧ s.sharedKey.isZero = false ∧
        ¬ c.Derived plainHost s := by
    decide +kernel
  obtain ⟨c, runs, mixed, s, entry, nonzero, underived⟩ := reached
  exact ⟨c, runs, mixed, fun keyed => underived (keyed _ s entry nonzero)⟩

end Llarp.Service.Conversations
