import Mathlib.Data.List.Basic
import Mathlib.Data.List.TakeWhile
import TransferServer.Base.ConvertProperties

/-! `muduo::InetAddress` (InetAddress.h, InetAddress.cpp) with `toHostPort` and `fromHostPort`
(SocketsOps.cpp): the text by which the server knows a peer. -/

set_option autoImplicit false

namespace TransferServer.Net

open Base Lib

/-- `struct in_addr`: the bytes of the address in their order on the network. -/
structure InAddr where
  first : Byte
  second : Byte
  third : Byte
  fourth : Byte
  deriving DecidableEq, Repr

/-- `struct sockaddr_in`, with its port as the two bytes that it is in memory. -/
structure InetAddress where
  sinAddr : InAddr
  sinPort : Byte × Byte
  deriving DecidableEq, Repr

def InAddr.octets (addr : InAddr) : List Byte := [addr.first, addr.second, addr.third, addr.fourth]

/-- `htons` -/
def hostToNetwork16 (host16 : UInt16) : Byte × Byte :=
  (.ofNat (host16.toNat / 256), .ofNat (host16.toNat % 256))

/-- `ntohs` -/
def networkToHost16 (net16 : Byte × Byte) : UInt16 := .ofNat (256 * net16.1.toNat + net16.2.toNat)

/-- `inet_ntop` of `AF_INET` -/
def inet_ntop (addr : InAddr) : Bytes :=
  [46].intercalate (addr.octets.map fun octet => decimalGlyphs.write octet.toNat)

/-- One to three decimal digits for a number below 256, without a leading zero. -/
def octet? (text : Bytes) : Option Byte :=
  if text.length ≤ 3 ∧ (text.head? = some 48 → text.length = 1) then
    (decimalGlyphs.read text).bind fun value => if value < 256 then some (.ofNat value) else none
  else none

/-- `inet_pton` of `AF_INET`, where it returns 1. -/
def inet_pton (text : Bytes) : Option InAddr :=
  match text.splitOn 46 with
  | [first, second, third, fourth] => do
      return ⟨← octet? first, ← octet? second, ← octet? third, ← octet? fourth⟩
  | _ => none

namespace InetAddress

/-- The constructor that takes an ip as text. One that cannot be read leaves the address at zero. -/
def ofHostPort (ip : Bytes) (port : UInt16) : InetAddress :=
  ⟨(inet_pton (ip.takeWhile (· ≠ 0))).getD ⟨0, 0, 0, 0⟩, hostToNetwork16 port⟩

/-- `sockets::toHostPort`, into a buffer of that size. -/
def intoBuffer (addr : InetAddress) (size : Nat) : Bytes :=
  let port := networkToHost16 addr.sinPort
  (inet_ntop addr.sinAddr ++ [58] ++ decimalGlyphs.write port.toNat).take (size - 1)

def toHostPort (addr : InetAddress) : Bytes := addr.intoBuffer 32

end InetAddress

section Texts

variable {octet : Byte} {addr : InAddr}

theorem length_octet (octet : Byte) : (decimalGlyphs.write octet.toNat).length ≤ 3 := by
  rw [Glyphs.write, List.length_map]
  exact length_numeral_le (by decide) (by decide) (Nat.lt_trans octet.toNat_lt (by decide))

theorem symbol_of_octet {symbol : Byte} {value : Nat} (present : symbol ∈ decimalGlyphs.write value) :
    48 ≤ symbol ∧ symbol ≤ 57 := by
  obtain ⟨digits, text, _, range, _⟩ := decimal_canonical (value : Int)
  rw [decimal_eq] at text
  have same := List.append_cancel_left text
  rw [Int.natAbs_natCast] at same
  exact range symbol (same ▸ present)

theorem leading_octet {value : Nat} (begins : (decimalGlyphs.write value).head? = some 48) :
    (decimalGlyphs.write value).length = 1 := by
  obtain ⟨digits, text, _, _, zero⟩ := decimal_canonical (value : Int)
  rw [decimal_eq] at text
  have same := List.append_cancel_left text
  rw [Int.natAbs_natCast] at same
  rw [same] at begins ⊢
  rw [zero begins, List.length_singleton]

theorem octet?_write (octet : Byte) : octet? (decimalGlyphs.write octet.toNat) = some octet := by
  rw [octet?, if_pos ⟨length_octet octet, leading_octet⟩, decimalGlyphs.read_write, Option.bind_some,
    if_pos octet.toNat_lt, UInt8.ofNat_toNat]

theorem splitOn_inet_ntop (addr : InAddr) : (inet_ntop addr).splitOn 46 =
    addr.octets.map fun octet => decimalGlyphs.write octet.toNat := by
  apply List.splitOn_intercalate
  · intro text there dot
    obtain ⟨octet, _, rfl⟩ := List.mem_map.mp there
    exact absurd (symbol_of_octet dot).1 (by decide)
  · exact List.cons_ne_nil _ _

theorem inet_pton_inet_ntop (addr : InAddr) : inet_pton (inet_ntop addr) = some addr := by
  rw [inet_pton, splitOn_inet_ntop]
  simp only [InAddr.octets, List.map_cons, List.map_nil, octet?_write]
  rfl

theorem colon_notMem_decimal {value : Nat} : 58 ∉ decimalGlyphs.write value := by
  intro there
  exact absurd (symbol_of_octet there).2 (by decide)

theorem colon_notMem_inet_ntop : 58 ∉ inet_ntop addr := by
  simp [inet_ntop, InAddr.octets, colon_notMem_decimal]

theorem nul_notMem_inet_ntop : 0 ∉ inet_ntop addr := by
  have apart (octet : Byte) : 0 ∉ decimalGlyphs.write octet.toNat := by
    intro there
    exact absurd (symbol_of_octet there).1 (by decide)
  simp [inet_ntop, InAddr.octets, apart]

theorem length_inet_ntop (addr : InAddr) : (inet_ntop addr).length ≤ 15 := by
  have first := length_octet addr.first
  have second := length_octet addr.second
  have third := length_octet addr.third
  have fourth := length_octet addr.fourth
  simp only [inet_ntop, InAddr.octets, List.map_cons, List.map_nil, List.intercalate_cons_cons,
    List.intercalate_singleton, List.length_append, List.length_singleton]
  omega

theorem networkToHost16_hostToNetwork16 (port : UInt16) :
    networkToHost16 (hostToNetwork16 port) = port := by
  have small := port.toNat_lt
  have high : (UInt8.ofNat (port.toNat / 256)).toNat = port.toNat / 256 :=
    UInt8.toNat_ofNat_of_lt' (Nat.div_lt_of_lt_mul small)
  have low : (UInt8.ofNat (port.toNat % 256)).toNat = port.toNat % 256 :=
    UInt8.toNat_ofNat_of_lt' (Nat.mod_lt _ (by decide))
  rw [networkToHost16, hostToNetwork16, high, low, Nat.div_add_mod, UInt16.ofNat_toNat]

theorem hostToNetwork16_networkToHost16 (port : Byte × Byte) :
    hostToNetwork16 (networkToHost16 port) = port := by
  have high := port.1.toNat_lt
  have low := port.2.toNat_lt
  have whole : (UInt16.ofNat (256 * port.1.toNat + port.2.toNat)).toNat =
      256 * port.1.toNat + port.2.toNat := by
    apply UInt16.toNat_ofNat_of_lt'
    change _ < 65536
    omega
  have quotient : (256 * port.1.toNat + port.2.toNat) / 256 = port.1.toNat := by omega
  have remainder : (256 * port.1.toNat + port.2.toNat) % 256 = port.2.toNat := by omega
  rw [hostToNetwork16, networkToHost16, whole, quotient, remainder, UInt8.ofNat_toNat,
    UInt8.ofNat_toNat]

end Texts

namespace InetAddress

/-- No text is cut: the longest has 21 bytes. -/
theorem intoBuffer_eq (addr : InetAddress) {size : Nat} (large : 32 ≤ size) :
    addr.intoBuffer size = inet_ntop addr.sinAddr ++
      58 :: decimalGlyphs.write (networkToHost16 addr.sinPort).toNat := by
  have host := length_inet_ntop addr.sinAddr
  have port : (decimalGlyphs.write (networkToHost16 addr.sinPort).toNat).length ≤ 5 := by
    rw [Glyphs.write, List.length_map]
    exact length_numeral_le (by decide) (by decide)
      (Nat.lt_trans (networkToHost16 addr.sinPort).toNat_lt (by decide))
  rw [intoBuffer, List.take_of_length_le, List.append_assoc, List.singleton_append]
  simp only [List.length_append, List.length_singleton]
  omega

theorem toHostPort_eq (addr : InetAddress) : addr.toHostPort = inet_ntop addr.sinAddr ++
    58 :: decimalGlyphs.write (networkToHost16 addr.sinPort).toNat :=
  addr.intoBuffer_eq (Nat.le_refl 32)

theorem ofHostPort_inet_ntop (addr : InetAddress) :
    ofHostPort (inet_ntop addr.sinAddr) (networkToHost16 addr.sinPort) = addr := by
  have unended : ∀ symbol ∈ inet_ntop addr.sinAddr, decide (symbol ≠ 0) = true := by
    intro symbol there
    apply decide_eq_true
    rintro rfl
    exact nul_notMem_inet_ntop there
  rw [ofHostPort, List.takeWhile_eq_self_iff.mpr unended, inet_pton_inet_ntop, Option.getD_some,
    hostToNetwork16_networkToHost16]

/-- An address that is built from an ip and a port shows both. -/
theorem toHostPort_ofHostPort (ip : InAddr) (port : UInt16) :
    (ofHostPort (inet_ntop ip) port).toHostPort =
      inet_ntop ip ++ 58 :: decimalGlyphs.write port.toNat := by
  have built : ofHostPort (inet_ntop ip) port = ⟨ip, hostToNetwork16 port⟩ := by
    have read := ofHostPort_inet_ntop ⟨ip, hostToNetwork16 port⟩
    simpa only [networkToHost16_hostToNetwork16] using read
  rw [built, toHostPort_eq, networkToHost16_hostToNetwork16]

/-- The text of an address says which it is: read as ip and port it gives the address back, so no
two peers have one text. -/
theorem toHostPort_faithful (addr : InetAddress) :
    (∃ ip port, addr.toHostPort = ip ++ 58 :: decimalGlyphs.write port.toNat ∧
      ofHostPort ip port = addr) ∧
    (∀ size, 32 ≤ size → addr.intoBuffer size = addr.toHostPort) ∧
      ∀ other : InetAddress, addr.toHostPort = other.toHostPort → addr = other := by
  refine ⟨⟨_, _, addr.toHostPort_eq, addr.ofHostPort_inet_ntop⟩, fun size large => ?_,
    fun other same => ?_⟩
  · rw [addr.intoBuffer_eq large, toHostPort_eq]
  · rw [toHostPort_eq, toHostPort_eq,
      List.append_cons_inj_of_notMem colon_notMem_inet_ntop colon_notMem_decimal] at same
    obtain ⟨ips, _, ports⟩ := same
    have read := congrArg decimalGlyphs.read ports
    rw [decimalGlyphs.read_write, decimalGlyphs.read_write, Option.some.injEq, UInt16.toNat_inj] at read
    rw [← addr.ofHostPort_inet_ntop, ips, read, ofHostPort_inet_ntop]

end InetAddress

end TransferServer.Net
