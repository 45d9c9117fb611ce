import Llarp.Net.EchoReply

/-!
# Traffic policies

A policy lists protocols, with or without a port, and ranges of destinations. What it allows is said
in terms of the transport protocol of a packet. What is compared with the list is the byte of an IPv4
header that tells the protocol, and the port behind an IPv4 header, in packets of IPv6 as well.
-/

namespace Llarp

open Foundation IPPacket

namespace ProtocolInfo

def matchesPacket (info : ProtocolInfo) (pkt : IPPacket) : Access Bool := do
  if (← pkt.byte 9) ≠ info.protocol then return false
  match info.port with
  | none => return true
  | some port =>
    match ← pkt.dstPort with
    | some dstPort => return decide (port = dstPort)
    -- the port is not known, but the protocol matches
    | none => return true

end ProtocolInfo

namespace TrafficPolicy

/-- The loop over the protocols. -/
def matchesAny : List ProtocolInfo → IPPacket → Access Bool
  | [], _ => return false
  | info :: protocols, pkt => do
    if ← info.matchesPacket pkt then return true
    matchesAny protocols pkt

def hostAddr (addr : IPv6Addr) : BitVec 128 := BitVec.ofNat 128 (ofBigEndian addr.bytes)

/-- The loop over the ranges. -/
def containsAny : List IPRange → IPPacket → Access Bool
  | [], _ => return false
  | range :: ranges, pkt => do
    if ← pkt.isV6 then
      if range.contains (hostAddr (← pkt.dstv6)) then return true else containsAny ranges pkt
    else if ← pkt.isV4 then
      if range.contains (hostAddr (← pkt.dst4to6)) then return true else containsAny ranges pkt
    else return false

variable (policy : TrafficPolicy) (pkt : IPPacket)

def allowsTraffic : Access Bool := do
  if policy.protocols.isEmpty && policy.ranges.isEmpty then return true
  if ← matchesAny policy.protocols pkt then return true
  containsAny policy.ranges pkt

/-! ### What a policy allows -/

/-- The protocols with ports: TCP, UDP, DCCP, PGM, SCTP and UDP-Lite. The destination port is in the
third and fourth byte of their headers. -/
def HasPorts (proto : UInt8) : Prop :=
  proto = 6 ∨ proto = 17 ∨ proto = 33 ∨ proto = 113 ∨ proto = 132 ∨ proto = 136

/-- The transport protocol of a packet, its destination port if the packet has one, and its
destination. -/
structure Reading where
  proto : UInt8
  port : Option UInt16
  dst : BitVec 128

/-- A listed protocol is that of the packet. -/
def Lists (info : ProtocolInfo) (reading : Reading) : Prop :=
  info.protocol = reading.proto ∧
    ∀ port, info.port = some port → HasPorts reading.proto → reading.port = some port

/-- The policy is empty, or lists the protocol or the destination. -/
def Allows (reading : Reading) : Prop :=
  policy.protocols = [] ∧ policy.ranges = [] ∨ (∃ info ∈ policy.protocols, Lists info reading) ∨
    ∃ range ∈ policy.ranges, range.contains reading.dst = true

/-- The destination port in a transport header. -/
def portOf (header : List UInt8) : Option UInt16 :=
  if 4 ≤ header.length then some (load16 (window header 2 2)) else none

/-- A well-formed packet and what it says. Ports are known only in first fragments, which have them
if there are ports. -/
inductive Reads : IPPacket → Reading → Prop where
  | v4 {pkt : IPPacket} {src dst : IPv4Addr} {proto : UInt8} (isIPv4 : pkt.IsIPv4 src dst proto)
      (whole : HasPorts proto → pkt.fragmentOffset = 0 → 4 ≤ pkt.payload.length) :
      Reads pkt ⟨proto, if pkt.fragmentOffset = 0 then portOf pkt.payload else none,
        hostAddr (IPPacket.expandV4 dst)⟩
  | v6 (p : IPv6Packet) (version : (p.front.bytes.getD 0 0).toNat / 16 = 6)
      (ends : ¬IPPacket.IsOptions p.final ∧ p.final ≠ 44)
      (whole : HasPorts p.final → (∀ e ∈ p.chain, e.offset = 0) → 4 ≤ p.body.length) :
      Reads p.encode ⟨p.final, if p.chain.all fun e => e.offset = 0 then portOf p.body else none,
        hostAddr p.dst⟩

/-! ### What is compared -/

/-- The byte that is compared with listed protocols. -/
def protoByte : UInt8 := pkt.buf.getD 9 0

/-- The place of the two bytes that are compared with listed ports. -/
def portPlace : ℕ := (pkt.buf.getD 0 0).toNat % 16 * 4 + 2

/-- A listed protocol is taken for that of the packet. -/
def Matches (info : ProtocolInfo) (pkt : IPPacket) : Prop :=
  info.protocol = protoByte pkt ∧
    ∀ port, info.port = some port → protoByte pkt = 6 ∨ protoByte pkt = 17 →
      port = load16 (window pkt.buf (portPlace pkt) 2)

/-- The first listed protocol that has the number in question lists a port. -/
def PortListed (protocols : List ProtocolInfo) (pkt : IPPacket) : Prop :=
  ∃ info port, protocols.find? (fun info => info.protocol = protoByte pkt) = some info ∧
    info.port = some port

/-- A port is looked at that is not in the packet. -/
def PortMissing : Prop :=
  PortListed policy.protocols pkt ∧ (protoByte pkt = 6 ∨ protoByte pkt = 17) ∧
    pkt.size < portPlace pkt + 2

section Listed

variable {pkt : IPPacket} {info : ProtocolInfo} {protocols : List ProtocolInfo}

theorem portListed_cons_same (same : info.protocol = protoByte pkt) :
    PortListed (info :: protocols) pkt ↔ ∃ port, info.port = some port := by
  have found : (info :: protocols).find? (fun info => info.protocol = protoByte pkt) = some info := by
    simp [same]
  rw [PortListed, found]
  simp

theorem portListed_cons_other (other : info.protocol ≠ protoByte pkt) :
    PortListed (info :: protocols) pkt ↔ PortListed protocols pkt := by
  have found : (info :: protocols).find? (fun info => info.protocol = protoByte pkt) =
      protocols.find? (fun info => info.protocol = protoByte pkt) := by
    simp [other]
  rw [PortListed, found, PortListed]

end Listed

section Comparison

variable {pkt : IPPacket} (large : 20 ≤ pkt.size)

include large

theorem dstPort_eq (inside : protoByte pkt = 6 ∨ protoByte pkt = 17 → portPlace pkt + 2 ≤ pkt.size) :
    pkt.dstPort = .ok (if protoByte pkt = 6 ∨ protoByte pkt = 17 then
      some (load16 (window pkt.buf (portPlace pkt) 2)) else none) := by
  rw [dstPort, portAt, byte_eq (by omega)]
  show (if protoByte pkt = 6 ∨ protoByte pkt = 17 then _ else _) = _
  split_ifs with ports
  · have fits := inside ports
    have checked : pkt.boundsCheck (portPlace pkt) 1 = .ok () := if_neg (by omega)
    rw [ihl_eq large]
    show (pkt.boundsCheck (portPlace pkt) 1 >>= fun _ => pkt.read (portPlace pkt) 2 >>= _) = _
    rw [checked]
    rw [read_eq fits]
    rfl
  · rfl

theorem exists_dstPort_error (ports : protoByte pkt = 6 ∨ protoByte pkt = 17)
    (outside : pkt.size < portPlace pkt + 2) : ∃ fault, pkt.dstPort = .error fault := by
  rw [dstPort, portAt, byte_eq (by omega)]
  show ∃ fault, (if protoByte pkt = 6 ∨ protoByte pkt = 17 then _ else _) = _
  rw [if_pos ports, ihl_eq large]
  show ∃ fault, (pkt.boundsCheck (portPlace pkt) 1 >>= fun _ => pkt.read (portPlace pkt) 2 >>= _) = _
  by_cases rejected : portPlace pkt > pkt.size ∨ 1 > pkt.size - portPlace pkt
  · rw [boundsCheck, if_pos rejected]
    exact ⟨_, rfl⟩
  · rw [boundsCheck, if_neg rejected]
    show ∃ fault, (pkt.read (portPlace pkt) 2 >>= _) = _
    rw [IPPacket.read, if_neg (by omega)]
    exact ⟨_, rfl⟩

/-- A protocol with another number. -/
theorem matchesPacket_other {info : ProtocolInfo} (other : info.protocol ≠ protoByte pkt) :
    info.matchesPacket pkt = .ok false := by
  rw [ProtocolInfo.matchesPacket, byte_eq (by omega)]
  exact if_pos other.symm

theorem matchesPacket_portless {info : ProtocolInfo} (same : info.protocol = protoByte pkt)
    (portless : info.port = none) : info.matchesPacket pkt = .ok true := by
  rw [ProtocolInfo.matchesPacket, byte_eq (by omega), portless]
  exact if_neg (not_not.mpr same.symm)

theorem matchesPacket_port {info : ProtocolInfo} {port : UInt16}
    (same : info.protocol = protoByte pkt) (isPort : info.port = some port) :
    info.matchesPacket pkt = (pkt.dstPort >>= fun found => match found with
      | some dstPort => return decide (port = dstPort)
      | none => return true) := by
  rw [ProtocolInfo.matchesPacket, byte_eq (by omega), isPort]
  exact if_neg (not_not.mpr same.symm)

/-- One protocol is compared. -/
theorem matchesPacket_ends (inside : protoByte pkt = 6 ∨ protoByte pkt = 17 →
    portPlace pkt + 2 ≤ pkt.size) (info : ProtocolInfo) :
    IPPacket.Ends (info.matchesPacket pkt) fun found => found = true ↔ Matches info pkt := by
  by_cases same : info.protocol = protoByte pkt
  · cases isPort : info.port with
    | none =>
      refine ⟨true, matchesPacket_portless large same isPort, iff_of_true rfl ⟨same, ?_⟩⟩
      intro _ listed
      cases isPort.symm.trans listed
    | some port =>
      rw [matchesPacket_port large same isPort, dstPort_eq large inside]
      by_cases ports : protoByte pkt = 6 ∨ protoByte pkt = 17
      · rw [if_pos ports]
        refine ⟨_, rfl, decide_eq_true_iff.trans ?_⟩
        constructor
        · rintro rfl
          refine ⟨same, fun port listed _ => ?_⟩
          exact (Option.some.inj (isPort.symm.trans listed)).symm
        · exact fun found => found.2 port isPort ports
      · rw [if_neg ports]
        exact ⟨true, rfl, iff_of_true rfl ⟨same, fun _ _ found => absurd found ports⟩⟩
  · exact ⟨false, matchesPacket_other large same, by simp [Matches, same]⟩

/-- All protocols are compared if the port is in the packet. -/
theorem matchesAny_ends (inside : protoByte pkt = 6 ∨ protoByte pkt = 17 →
    portPlace pkt + 2 ≤ pkt.size) (protocols : List ProtocolInfo) :
    IPPacket.Ends (matchesAny protocols pkt) fun found =>
      found = true ↔ ∃ info ∈ protocols, Matches info pkt := by
  induction protocols with
  | nil => exact ⟨false, rfl, by simp⟩
  | cons info protocols ih =>
    obtain ⟨first, isFirst, firstMatches⟩ := matchesPacket_ends large inside info
    rw [matchesAny, isFirst]
    cases first with
    | true => exact ⟨true, rfl, iff_of_true rfl ⟨info, List.mem_cons_self, firstMatches.mp rfl⟩⟩
    | false =>
      obtain ⟨found, isFound, holds⟩ := ih
      have differs : ¬Matches info pkt := fun same => nomatch firstMatches.mpr same
      refine ⟨found, isFound, holds.trans ?_⟩
      rw [List.exists_mem_cons_iff, or_iff_right differs]

/-- The port is not in the packet. The first protocol with this number decides whether it is looked
at. -/
theorem matchesAny_cut (ports : protoByte pkt = 6 ∨ protoByte pkt = 17)
    (outside : pkt.size < portPlace pkt + 2) (protocols : List ProtocolInfo) :
    PortListed protocols pkt ∧ (∃ fault, matchesAny protocols pkt = .error fault) ∨
      ¬PortListed protocols pkt ∧ IPPacket.Ends (matchesAny protocols pkt) fun found =>
        found = true ↔ ∃ info ∈ protocols, Matches info pkt := by
  induction protocols with
  | nil => exact .inr ⟨fun ⟨_, _, found, _⟩ => (nomatch found), false, rfl, by simp⟩
  | cons info protocols ih =>
    by_cases same : info.protocol = protoByte pkt
    · rw [portListed_cons_same same, matchesAny]
      cases isPort : info.port with
      | none =>
        have first : Matches info pkt :=
          ⟨same, fun port listed => nomatch isPort.symm.trans listed⟩
        rw [matchesPacket_portless large same isPort]
        exact .inr ⟨by simp, true, rfl, iff_of_true rfl ⟨info, List.mem_cons_self, first⟩⟩
      | some port =>
        obtain ⟨fault, isFault⟩ := exists_dstPort_error large ports outside
        rw [matchesPacket_port large same isPort, isFault]
        exact .inl ⟨⟨port, rfl⟩, fault, rfl⟩
    · have next : matchesAny (info :: protocols) pkt = matchesAny protocols pkt := by
        rw [matchesAny, matchesPacket_other large same]
        rfl
      have differs : ¬Matches info pkt := fun found => same found.1
      rw [portListed_cons_other same, next]
      simp only [List.exists_mem_cons_iff, differs, false_or]
      exact ih

/-- The comparison with the protocols ends unless a port is missing. -/
theorem matchesAny_cases (policy : TrafficPolicy) :
    policy.PortMissing pkt ∧ (∃ fault, matchesAny policy.protocols pkt = .error fault) ∨
      ¬policy.PortMissing pkt ∧ IPPacket.Ends (matchesAny policy.protocols pkt) fun found =>
        found = true ↔ ∃ info ∈ policy.protocols, Matches info pkt := by
  by_cases ports : protoByte pkt = 6 ∨ protoByte pkt = 17
  · by_cases outside : pkt.size < portPlace pkt + 2
    · simp only [PortMissing, ports, outside, and_true]
      exact matchesAny_cut large ports outside policy.protocols
    · exact .inr ⟨fun missing => outside missing.2.2,
        matchesAny_ends large (fun _ => Nat.le_of_not_lt outside) policy.protocols⟩
  · exact .inr ⟨fun missing => ports missing.2.1,
      matchesAny_ends large (fun found => absurd found ports) policy.protocols⟩

end Comparison

/-! ### Destinations -/

section Destination

variable {pkt : IPPacket} {reading : Reading}

theorem Reads.large (reads : Reads pkt reading) : 20 ≤ pkt.size := by
  cases reads with
  | v4 isIPv4 _ => exact isIPv4.complete.trans isIPv4.within
  | v6 p _ _ _ =>
    rw [p.size_encode]
    omega

/-- The destination is read as the version says. -/
theorem containsAny_eq (reads : Reads pkt reading) (ranges : List IPRange) :
    containsAny ranges pkt = .ok (ranges.any (·.contains reading.dst)) := by
  have large := reads.large
  induction ranges with
  | nil => rfl
  | cons range ranges ih =>
    cases reads with
    | @v4 pkt src dst proto isIPv4 whole =>
      have isV6 : pkt.isV6 = .ok false := by
        rw [isV6_eq large, isIPv4.version]
        rfl
      have isV4 : pkt.isV4 = .ok true := by rw [isV4_eq large, isIPv4.version]; rfl
      have isDst : pkt.dst4to6 = .ok (expandV4 dst) := by
        rw [dst4to6, dstv4_eq large, isIPv4.dst_eq]
        rfl
      rw [containsAny, isV6]
      rw [isV4]
      rw [isDst, ih]
      show (if range.contains (hostAddr (expandV4 dst)) = true then _ else _) = _
      rw [List.any_cons]
      cases range.contains (hostAddr (expandV4 dst)) with
      | true => rfl
      | false => rfl
    | v6 p version ends whole =>
      have first : p.encode.buf.getD 0 0 = p.front.bytes.getD 0 0 := by
        rw [IPv6Packet.encode, IPv6Packet.start, List.append_assoc,
          List.getD_append _ _ _ _ (by rw [p.front.length_eq]; decide)]
      have isV6 : p.encode.isV6 = .ok true := by
        rw [isV6_eq large, first, version]
        rfl
      have isDst : p.encode.dstv6 = .ok p.dst := by
        rw [dstv6, isV6]
        rw [p.read_dst]
        show Except.ok (AlignedBuffer.copy 16 p.dst.bytes) = _
        rw [AlignedBuffer.copy_bytes]
      rw [containsAny, isV6]
      rw [isDst, ih]
      show (if range.contains (hostAddr p.dst) = true then _ else _) = _
      rw [List.any_cons]
      cases range.contains (hostAddr p.dst) with
      | true => rfl
      | false => rfl

end Destination

/-! ### Decisions -/

/-- The policy comes to the decision that it says. -/
def Decides (reading : Reading) : Prop :=
  IPPacket.Ends (policy.allowsTraffic pkt) fun allowed => allowed = true ↔ policy.Allows reading

/-- The policy comes to the right decision exactly if it is empty, or no port is missing and the
destination is in a range, or as many protocols are matched by the bytes that are compared as by the
transport protocol, some or none. -/
theorem decides_iff {pkt : IPPacket} {reading : Reading} (reads : Reads pkt reading)
    (policy : TrafficPolicy) :
    policy.Decides pkt reading ↔
      policy.protocols = [] ∧ policy.ranges = [] ∨
      ¬policy.PortMissing pkt ∧
        ((∃ range ∈ policy.ranges, range.contains reading.dst = true) ∨
          ((∃ info ∈ policy.protocols, Matches info pkt) ↔
            ∃ info ∈ policy.protocols, Lists info reading)) := by
  by_cases empty : policy.protocols = [] ∧ policy.ranges = []
  · refine iff_of_true ⟨true, ?_, iff_of_true rfl (.inl empty)⟩ (.inl empty)
    rw [allowsTraffic, empty.1, empty.2]
    rfl
  have next : policy.allowsTraffic pkt = (matchesAny policy.protocols pkt >>= fun found =>
      if found = true then return true else containsAny policy.ranges pkt) := by
    rw [allowsTraffic, if_neg (by simpa using empty)]
  rw [Decides, next, containsAny_eq reads, or_iff_right empty, Allows, or_iff_right empty]
  obtain ⟨missing, fault, isFault⟩ | ⟨inside, found, isFound, holds⟩ :=
    matchesAny_cases reads.large policy
  · rw [isFault]
    exact iff_of_false (fun ⟨_, ended, _⟩ => nomatch ended) (fun right => right.1 missing)
  · rw [isFound, and_iff_right inside]
    cases found with
    | true =>
      have matched := holds.mp rfl
      constructor
      · rintro ⟨_, ⟨⟩, decision⟩
        exact (decision.mp rfl).symm.imp_right (iff_of_true matched)
      · rintro (inRange | same)
        · exact ⟨true, rfl, iff_of_true rfl (.inr inRange)⟩
        · exact ⟨true, rfl, iff_of_true rfl (.inl (same.mp matched))⟩
    | false =>
      have unmatched : ¬∃ info ∈ policy.protocols, Matches info pkt := fun same =>
        nomatch holds.mpr same
      have ranged : policy.ranges.any (·.contains reading.dst) = true ↔
          ∃ range ∈ policy.ranges, range.contains reading.dst = true := List.any_eq_true
      rw [iff_false_left unmatched]
      constructor
      · rintro ⟨_, ⟨⟩, decision⟩
        by_cases inRange : ∃ range ∈ policy.ranges, range.contains reading.dst = true
        · exact .inl inRange
        · exact .inr fun listed => inRange (ranged.mp (decision.mpr (.inl listed)))
      · rintro (inRange | unlisted)
        · exact ⟨_, rfl, iff_of_true (ranged.mpr inRange) (.inr inRange)⟩
        · exact ⟨_, rfl, ranged.trans (or_iff_right unlisted).symm⟩

/-- UDP with port 53. -/
def examplePolicy : TrafficPolicy := { protocols := [⟨17, some 53⟩] }

def exampleReading : Reading :=
  ⟨17, some 53, hostAddr (IPPacket.expandV4 ⟨[10, 0, 0, 2], rfl⟩)⟩

theorem decides_exampleDatagram : Reads IPPacket.HeaderCall.exampleDatagram exampleReading ∧
    examplePolicy.Decides IPPacket.HeaderCall.exampleDatagram exampleReading := by
  have isIPv4 : IPPacket.HeaderCall.exampleDatagram.IsIPv4 ⟨[10, 0, 0, 1], rfl⟩
      ⟨[10, 0, 0, 2], rfl⟩ 17 := by
    constructor
    all_goals decide
  have reads : Reads IPPacket.HeaderCall.exampleDatagram exampleReading :=
    .v4 isIPv4 fun _ _ => by decide
  refine ⟨reads, (decides_iff reads examplePolicy).mpr (.inr ⟨?_, .inr (iff_of_true ?_ ?_)⟩)⟩
  · rintro ⟨-, -, outside⟩
    revert outside
    decide
  · refine ⟨⟨17, some 53⟩, List.mem_singleton_self _, rfl, fun port listed _ => ?_⟩
    rw [← Option.some.inj listed]
    decide
  · refine ⟨⟨17, some 53⟩, List.mem_singleton_self _, rfl, fun port listed _ => ?_⟩
    exact listed

/-- The first bytes of TCP to port 80 of `fd00::2`. -/
def exampleTCP : IPv6Packet :=
  { front := ⟨[0x60, 0, 0, 0, 0, 16], rfl⟩
    hoplimit := 64
    src := ⟨0xFD :: List.replicate 14 0 ++ [1], rfl⟩
    dst := ⟨0xFD :: List.replicate 14 0 ++ [2], rfl⟩
    chain := []
    final := 6
    body := [4, 210, 0, 80, 0, 0, 0, 1, 0, 0, 0, 0, 80, 2, 32, 0] }

/-- A policy that lists TCP refuses TCP over IPv6. -/
theorem tcp_over_ipv6_refused :
    Reads exampleTCP.encode ⟨6, some 80, hostAddr exampleTCP.dst⟩ ∧
    ¬Decides { protocols := [⟨6, none⟩] } exampleTCP.encode
      ⟨6, some 80, hostAddr exampleTCP.dst⟩ := by
  refine ⟨.v6 exampleTCP rfl ⟨by decide, by decide⟩ fun _ _ => by decide, ?_⟩
  rintro ⟨allowed, isAllowed, decision⟩
  have refused : allowsTraffic { protocols := [⟨6, none⟩] } exampleTCP.encode = .ok false := by
    decide +kernel
  rw [← Except.ok.inj (refused.symm.trans isAllowed)] at decision
  refine Bool.false_ne_true (decision.mpr (.inr (.inl ⟨_, List.mem_singleton_self _, rfl, ?_⟩)))
  exact nofun

end TrafficPolicy

end Llarp
