import Llarp.Crypto.Types
import Llarp.Net.IPRange
import Llarp.Util.BencodeMembers
import Llarp.Util.BencodeWrite

/-!
# Addresses of routers

An address has a rank and a port, which must not be 0 where they are decoded. But an address does
not have to name them, and 65536 is let through and cut to 0. Such an address is encoded in a way
that is not decoded again.
-/

namespace Llarp.Contact

open Foundation Bencode WriteBuffer Decoder

/-- A text that was copied through a buffer of 128 bytes, up to the first zero. -/
structure ShortText where
  text : List UInt8
  short : text.length < 128
  zero_notMem : 0 ∉ text
  deriving DecidableEq

namespace ShortText

def empty : ShortText := ⟨[], by decide, List.not_mem_nil⟩

theorem zero_notMem_takeWhile (bytes : List UInt8) : 0 ∉ bytes.takeWhile (· ≠ 0) := by
  intro member
  have passes := List.mem_takeWhile_imp member
  exact of_decide_eq_true passes rfl

def read (bytes : List UInt8) : Option ShortText :=
  if short : bytes.length < 128 then
    some ⟨bytes.takeWhile (· ≠ 0), (List.takeWhile_sublist _).length_le.trans_lt short,
      zero_notMem_takeWhile bytes⟩
  else none

theorem read_text (s : ShortText) : read s.text = some s := by
  have whole : s.text.takeWhile (· ≠ 0) = s.text := by
    rw [List.takeWhile_eq_self_iff]
    intro c member
    exact decide_eq_true fun zero => s.zero_notMem (zero ▸ member)
  obtain ⟨text, short, zero_notMem⟩ := s
  rw [read, dif_pos short]
  simp only [whole]

end ShortText

/-- What an outer list in the new format holds. A consumer throws where something else stands. -/
structure ContactList where
  version : Option UInt64
  signature : Option (List UInt8)
  dictData : Option (List UInt8)
  isFinished : Bool

/-- What router contacts use of other libraries. Texts of addresses are read back. -/
structure ContactLibraries where
  inetPton6 : List UInt8 → Option (BitVec 128)
  inetNtop6 : BitVec 128 → ShortText
  inetPton6_inetNtop6 : ∀ ip, inetPton6 (inetNtop6 ip).text = some ip
  /-- decode an SRV record that stands alone, or throw -/
  btSRV : List UInt8 → Option SRVTuple
  btSerializeSRV : SRVTuple → List UInt8
  btList : List UInt8 → ContactList

structure AddressInfo where
  rank : UInt16
  dialect : ShortText
  pubkey : PubKey
  ip : BitVec 128
  port : UInt16
  deriving DecidableEq

namespace AddressInfo

/-- A default-constructed address. -/
def empty : AddressInfo := ⟨0, .empty, .zero 32, 0, 0⟩

/-- A number of 16 bits, except that 65536 is not refused. -/
def decodeNumber : Decoder UInt16 :=
  .number fun i _ => if i > 65536 ∨ i ≤ 0 then none else some i.toUInt16

def rankMember : Member AddressInfo :=
  ⟨"c", UInt16, rank, fun rank info => { info with rank }, decodeNumber⟩

def dialectMember : Member AddressInfo :=
  ⟨"d", ShortText, dialect, fun dialect info => { info with dialect },
    .string fun bytes _ => ShortText.read bytes⟩

def pubkeyMember : Member AddressInfo :=
  ⟨"e", PubKey, pubkey, fun pubkey info => { info with pubkey }, .aligned 32⟩

variable (lib : ContactLibraries) (info : AddressInfo)

def ipMember : Member AddressInfo :=
  ⟨"i", BitVec 128, ip, fun ip info => { info with ip },
    .string fun bytes _ => (ShortText.read bytes).bind fun tmp => lib.inetPton6 tmp.text⟩

def portMember : Member AddressInfo :=
  ⟨"p", UInt16, port, fun port info => { info with port }, decodeNumber⟩

/-- The version is not kept. -/
def versionMember : Member AddressInfo :=
  ⟨"v", Unit, fun _ => (), fun _ info => info,
    .number fun i _ => if i = 0 then some () else none⟩

/-- `AddressInfo::DecodeKey`. -/
def table : Table AddressInfo where
  members := [rankMember, dialectMember, pubkeyMember, ipMember lib, portMember, versionMember]
  otherwise := .refuse
  letters := by
    show Decoder.Letters ["c", "d", "e", "i", "p", "v"]
    decide
  get_put := by
    simp only [List.forall_mem_cons]
    exact ⟨fun _ _ => rfl, fun _ _ => rfl, fun _ _ => rfl, fun _ _ => rfl, fun _ _ => rfl,
      fun _ _ => rfl, nofun⟩
  apart := by
    intro m member other another
    simp only [List.mem_cons, List.not_mem_nil, or_false] at member another
    rcases member with rfl | rfl | rfl | rfl | rfl | rfl <;>
      rcases another with rfl | rfl | rfl | rfl | rfl | rfl <;>
        first | exact .inl rfl | exact .inr fun _ _ => rfl
  oblivious := by
    simp only [List.forall_mem_cons]
    exact ⟨Decoder.oblivious_number fun _ _ _ => rfl, Decoder.oblivious_string fun _ _ _ => rfl,
      Decoder.oblivious_aligned 32, Decoder.oblivious_string fun _ _ _ => rfl,
      Decoder.oblivious_number fun _ _ _ => rfl, Decoder.oblivious_number fun _ _ _ => rfl,
      nofun⟩
  oblivious_otherwise := Decoder.oblivious_refuse
  otherwise_eq _ _ := rfl

def bDecode : Decoder AddressInfo := .dict (table lib).decodeKey

/-- `AddressInfo::BEncode`. -/
def bEncode : WriteBuffer → Option WriteBuffer :=
  writeDict
    [("c", writeUint64 info.rank.toNat),
      ("d", writeBytestring info.dialect.text),
      ("e", writeBytestring info.pubkey.bytes),
      ("i", writeBytestring (lib.inetNtop6 info.ip).text),
      ("p", writeUint64 info.port.toNat),
      ("v", writeUint64 0)]

/-- The bytes that are written. -/
def encoding : List UInt8 :=
  Bencode.dict
    [("c", uint64 info.rank.toNat),
      ("d", bytestring info.dialect.text),
      ("e", bytestring info.pubkey.bytes),
      ("i", bytestring (lib.inetNtop6 info.ip).text),
      ("p", uint64 info.port.toNat),
      ("v", uint64 0)]

theorem writesAll_bEncode : WritesAll (info.bEncode lib) (info.encoding lib) := by
  apply writesAll_writeDict
  exact .cons ⟨rfl, writes_writeUint64 _⟩ <| .cons ⟨rfl, writes_writeBytestring _⟩ <|
    .cons ⟨rfl, writes_writeBytestring _⟩ <| .cons ⟨rfl, writes_writeBytestring _⟩ <|
    .cons ⟨rfl, writes_writeUint64 _⟩ <| .cons ⟨rfl, writes_writeUint64 _⟩ .nil

theorem starts_encoding : Starts (info.encoding lib) :=
  ⟨_, _, rfl, by decide⟩

/-! ### Decoding what was encoded -/

section Numbers

variable {before n : UInt16}

theorem toNat_toUInt64 (n : UInt16) : n.toUInt64.toNat = n.toNat := UInt16.toNat_toUInt64 n

theorem takes_decodeNumber (positive : n ≠ 0) :
    Decoder.Takes decodeNumber before (uint64 n.toNat) n := by
  have some : 0 < n.toNat := by
    rw [Nat.pos_iff_ne_zero]
    exact fun zero => positive (UInt16.toNat_inj.mp zero)
  have bound : n.toNat < 2 ^ 16 := n.toNat_lt
  rw [← toNat_toUInt64]
  refine takes_number ?_
  have suits : ¬(n.toUInt64 > 65536 ∨ n.toUInt64 ≤ 0) := by
    rw [gt_iff_lt, UInt64.lt_iff_toNat_lt, UInt64.le_iff_toNat_le, toNat_toUInt64]
    show ¬(65536 < n.toNat ∨ n.toNat ≤ 0)
    omega
  rw [if_neg suits, UInt16.toUInt16_toUInt64]

theorem refuses_decodeNumber (zero : n = 0) :
    Decoder.Refuses decodeNumber before (uint64 n.toNat) := by
  subst zero
  exact refuses_number (n := 0) rfl

end Numbers

/-- An address without a rank or a port. -/
def Unnumbered : Bool := info.rank = 0 || info.port = 0

variable (lib : ContactLibraries) (info : AddressInfo)

theorem takes_rank (positive : info.rank ≠ 0) (s : AddressInfo) :
    Decoder.Takes ((table lib).decodeKey (ascii "c")) s (uint64 info.rank.toNat)
      { s with rank := info.rank } :=
  Table.takes_decodeKey (m := rankMember) (by simp [table]) (takes_decodeNumber positive)

theorem takes_text (s : AddressInfo) :
    Decoder.TakesMembers (table lib).decodeKey s
      [("d", bytestring info.dialect.text), ("e", bytestring info.pubkey.bytes),
        ("i", bytestring (lib.inetNtop6 info.ip).text)]
      { s with
        dialect := info.dialect
        pubkey := info.pubkey
        ip := info.ip } := by
  have known : (ShortText.read (lib.inetNtop6 info.ip).text).bind
      (fun tmp => lib.inetPton6 tmp.text) = some info.ip := by
    rw [ShortText.read_text, Option.bind_some, lib.inetPton6_inetNtop6]
  have dialect : ∀ x, Decoder.Takes dialectMember.decode x (bytestring info.dialect.text)
      info.dialect := fun _ =>
    takes_string (info.dialect.short.trans (by decide)) info.dialect.read_text
  have pubkey : ∀ x, Decoder.Takes pubkeyMember.decode x (bytestring info.pubkey.bytes)
      info.pubkey := fun x => takes_aligned (by decide) x info.pubkey
  have ip : ∀ x, Decoder.Takes (ipMember lib).decode x (bytestring (lib.inetNtop6 info.ip).text)
      info.ip := fun _ =>
    takes_string ((lib.inetNtop6 info.ip).short.trans (by decide)) known
  exact ⟨by decide, _, Table.takes_decodeKey (m := dialectMember) (by simp [table]) (dialect _), by decide, _,
    Table.takes_decodeKey (m := pubkeyMember) (by simp [table]) (pubkey _), by decide, _,
    Table.takes_decodeKey (m := ipMember lib) (by simp [table]) (ip _), rfl⟩

theorem takes_port (positive : info.port ≠ 0) (s : AddressInfo) :
    Decoder.Takes ((table lib).decodeKey (ascii "p")) s (uint64 info.port.toNat)
      { s with port := info.port } :=
  Table.takes_decodeKey (m := portMember) (by simp [table]) (takes_decodeNumber positive)

theorem takes_version (s : AddressInfo) :
    Decoder.Takes ((table lib).decodeKey (ascii "v")) s (uint64 0) s :=
  Table.takes_decodeKey (m := versionMember) (by simp [table]) (takes_number (n := 0) rfl)

theorem takes_bDecode (numbered : info.Unnumbered = false) :
    Decoder.Takes (bDecode lib) empty (info.encoding lib) info := by
  obtain ⟨rank, port⟩ : info.rank ≠ 0 ∧ info.port ≠ 0 := by
    simpa [Unnumbered] using numbered
  have first : Decoder.TakesMembers (table lib).decodeKey empty [("c", uint64 info.rank.toNat)]
      { empty with rank := info.rank } := ⟨by decide, _, takes_rank lib info rank _, rfl⟩
  have last : ∀ s, Decoder.TakesMembers (table lib).decodeKey s
      [("p", uint64 info.port.toNat), ("v", uint64 0)] { s with port := info.port } := fun s =>
    ⟨by decide, _, takes_port lib info port s, by decide, _, takes_version lib _, rfl⟩
  exact takes_dict (first.append ((takes_text lib info _).append (last _)))

/-- Where the rank is 0 the first entry is refused, and otherwise the port is. -/
theorem refuses_bDecode (unnumbered : info.Unnumbered = true) :
    Decoder.Refuses (bDecode lib) empty (info.encoding lib) := by
  have number : ∀ s, info.port = 0 →
      Decoder.Refuses ((table lib).decodeKey (ascii "p")) s (uint64 info.port.toNat) := fun s zero =>
    Table.refuses_decodeKey (m := portMember) (by simp [table]) (refuses_decodeNumber zero)
  by_cases rank : info.rank = 0
  · have refused : Decoder.Refuses ((table lib).decodeKey (ascii "c")) empty (uint64 info.rank.toNat) :=
      Table.refuses_decodeKey (m := rankMember) (by simp [table]) (refuses_decodeNumber rank)
    have none : Decoder.TakesMembers (table lib).decodeKey empty [] empty := rfl
    exact refuses_dict none (by decide) refused _
  · have port : info.port = 0 := by simpa [Unnumbered, rank] using unnumbered
    have first : Decoder.TakesMembers (table lib).decodeKey empty [("c", uint64 info.rank.toNat)]
        { empty with rank := info.rank } := ⟨by decide, _, takes_rank lib info rank _, rfl⟩
    exact refuses_dict (first.append (takes_text lib info _)) (by decide)
      (number _ port) _

end AddressInfo

end Llarp.Contact
