import TransferServer.Base.CerPacket
import TransferServer.Net.TcpServer

/-! What `onMessage` of test_multithreads.cc computes from the first two packets of a client, and
when it stays within the bounds of its arrays and strings: those of the standard, by which it runs,
or the stricter ones by which every index is below `size()`. -/

set_option autoImplicit false

namespace TransferServer.Net

open Base Lib

namespace Handshake

/-- `serPacket`, as `main` sets it. -/
def serPacket : CerPacket :=
  (CerPacket.init.setRand
    [99, 100, 101, 102, 103, 104, 105, 106, 107, 108, 109, 110, 111, 112, 113, 114, 115, 116, 117,
      118]).setCer [49]

example : serPacket.getPacketAsString = Net.serPacket := rfl

/-- The branch for the first packet: what is sent back. -/
def firstPacket (indexing : Indexing) (dataFromClient : Bytes) : Except Fault Bytes := do
  let tmpRand ← copy dataFromClient (charArray 20) 20 0
  let tmpCer ← copy dataFromClient (charArray 20) (sizeSub dataFromClient.length 20) 20
  let rand ← fromArray tmpRand
  let cer ← fromArray tmpCer
  let cliPacket1 := (CerPacket.init.setRand rand).setCer cer
  cliPacket1.encry indexing

/-- The branch for the second packet: whether the client is identified. -/
def secondPacket (indexing : Indexing) (dataFromClient : Bytes) : Except Fault Bool := do
  let tmpRand ← memcpy (charArray 21) (cStr dataFromClient) 20
  let rand ← fromArray tmpRand
  let cliPacket2 := (CerPacket.init.setRand rand).setCer serPacket.cer
  let getInfo ← cliPacket2.decry indexing
  return sameCStr getInfo serPacket.rand

/-- The handshake of the program, where it stays within bounds. -/
def ofPackets : Handshake where
  firstReply := fun data => (firstPacket .standard data).toOption
  accepts := fun data => (secondPacket .standard data).toOption = some true

/-- A first packet that is handled: the peer's two strings are empty. -/
def firstMessage : Bytes := charArray 20

variable {data : Bytes} {indexing : Indexing}

/-- Behind the end of the empty string nothing may be written. -/
theorem foldlM_shiftOne {shift : Byte → Byte} {cnt : Nat} {rand : Bytes} {state : Bytes × Nat} :
    rand.foldlM (CerPacket.shiftOne indexing shift) ([], cnt + 1) = .ok state ↔
      rand.filter (· ≠ 0) = [] ∧ state = ([], cnt + 1) := by
  induction rand with
  | nil => simp [eq_comm]
  | cons i rand ih =>
      rw [List.foldlM_cons]
      by_cases zero : i = 0
      · simpa [CerPacket.shiftOne, zero] using ih
      · simp [CerPacket.shiftOne, zero, assign]

/-- The first assignment is out of bounds already, unless it stores a 0 over the terminator; the
second one is in any case. -/
theorem shifted_eq_ok {packet : CerPacket} {shift : Byte → Byte} {result : Bytes} :
    packet.shifted indexing shift = .ok result ↔ result = [] ∧
      (packet.rand.filter (· ≠ 0) = [] ∨ indexing = .standard ∧
        ∃ i, packet.rand.filter (· ≠ 0) = [i] ∧ shift i = 0) := by
  unfold CerPacket.shifted
  generalize packet.rand = rand
  induction rand with
  | nil => simp [eq_comm]
  | cons i rand ih =>
      rw [List.foldlM_cons]
      by_cases zero : i = 0
      · simpa [CerPacket.shiftOne, zero] using ih
      · have kept : (i :: rand).filter (· ≠ 0) = i :: rand.filter (· ≠ 0) :=
          List.filter_cons_of_pos (by simpa using zero)
        rw [kept]
        by_cases spared : indexing = .standard ∧ shift i = 0
        · have stored : CerPacket.shiftOne indexing shift ([], 0) i = .ok ([], 0 + 1) := by
            simp [CerPacket.shiftOne, zero, assign, spared]
          rw [stored, ok_bind, bind_eq_ok]
          simp only [foldlM_shiftOne]
          constructor
          · rintro ⟨_, ⟨none, rfl⟩, returned⟩
            cases returned
            exact ⟨rfl, .inr ⟨spared.1, i, by rw [none], spared.2⟩⟩
          · rintro ⟨rfl, none | ⟨_, other, single, _⟩⟩
            · cases none
            · exact ⟨_, ⟨(List.cons.inj single).2, rfl⟩, rfl⟩
        · have refused : CerPacket.shiftOne indexing shift ([], 0) i = .error .outOfBounds := by
            simp [CerPacket.shiftOne, zero, assign, spared]
          rw [refused, error_bind, error_bind]
          simp only [reduceCtorEq, false_iff]
          rintro ⟨_, none | ⟨standard, other, single, overwritten⟩⟩
          · exact none.elim
          · obtain rfl := (List.cons.inj single).1
            exact spared ⟨standard, overwritten⟩

theorem fromArray_eq_ok {array text : Bytes} :
    fromArray array = .ok text ↔ 0 ∈ array ∧ text = array.takeWhile (· ≠ 0) := by
  unfold fromArray
  split <;> simp_all [eq_comm]

/-- A string out of an array has no NUL in it, so within the size only the empty one can be shifted. -/
theorem shifted_fromArray {array text result : Bytes} {shift : Byte → Byte} {packet : CerPacket}
    (read : fromArray array = .ok text) (rand : packet.rand = text) :
    packet.shifted .within shift = .ok result ↔ array.head? = some 0 ∧ result = [] := by
  obtain ⟨terminated, rfl⟩ := fromArray_eq_ok.mp read
  rw [shifted_eq_ok, rand, and_comm]
  refine and_congr_left fun _ => ?_
  cases array with
  | nil => cases terminated
  | cons byte array =>
      by_cases zero : byte = 0
      · simp [zero]
      · simp [zero]

theorem copy_rand (long : 20 ≤ data.length) :
    copy data (charArray 20) 20 0 = .ok (data.take 20) := by
  simp [copy, charArray, Nat.min_eq_left long]

theorem copy_cer {tmpCer : Bytes} :
    copy data (charArray 20) (sizeSub data.length 20) 20 = .ok tmpCer ↔
      20 ≤ data.length ∧ data.length ≤ 40 ∧ tmpCer = data.drop 20 ++ charArray (40 - data.length) := by
  unfold copy
  by_cases short : data.length < 20
  · rw [if_pos short]
    simp only [throw_eq_error, reduceCtorEq, false_iff]
    omega
  · rw [if_neg short]
    have size : sizeSub data.length 20 = data.length - 20 := if_pos (Nat.le_of_not_lt short)
    rw [size, Nat.min_self]
    by_cases long : 40 < data.length
    · rw [if_pos (by simp only [charArray, List.length_replicate]; omega)]
      simp only [throw_eq_error, reduceCtorEq, false_iff]
      omega
    · rw [if_neg (by simp only [charArray, List.length_replicate]; omega)]
      have whole : (data.drop 20).take (data.length - 20) = data.drop 20 :=
        List.take_of_length_le (by simp)
      have rest : 20 - (data.length - 20) = 40 - data.length := by omega
      simp only [whole, charArray, List.drop_replicate, rest, pure_eq_ok, Except.ok.injEq]
      constructor
      · rintro rfl
        exact ⟨by omega, by omega, rfl⟩
      · rintro ⟨-, -, rfl⟩
        rfl

theorem mem_tmpCer (fits : data.length ≤ 40) :
    0 ∈ data.drop 20 ++ charArray (40 - data.length) ↔ data.length < 40 ∨ 0 ∈ data.drop 20 := by
  rw [List.mem_append, charArray, List.mem_replicate, or_comm]
  exact or_congr_left ⟨fun room => by omega, fun short => ⟨by omega, rfl⟩⟩

theorem head?_take_twenty (long : 0 < data.length) : (data.take 20).head? = data.head? := by
  cases data with
  | nil => cases long
  | cons byte data => rfl

/-- The first packet is handled within bounds iff it is at least 20 bytes long and begins with a NUL,
and the rest of it fits `tmpCer` and leaves room for, or contains, a terminator. -/
theorem firstPacket_ok_iff : (∃ sendInfo, firstPacket .within data = .ok sendInfo) ↔
    20 ≤ data.length ∧ data.length ≤ 40 ∧ data.head? = some 0 ∧
      (data.length < 40 ∨ 0 ∈ data.drop 20) := by
  constructor
  · rintro ⟨sendInfo, handled⟩
    obtain ⟨tmpRand, copiedRand, handled⟩ := bind_eq_ok.mp handled
    obtain ⟨tmpCer, copiedCer, handled⟩ := bind_eq_ok.mp handled
    obtain ⟨rand, readRand, handled⟩ := bind_eq_ok.mp handled
    obtain ⟨cer, readCer, encrypted⟩ := bind_eq_ok.mp handled
    obtain ⟨long, fits, rfl⟩ := copy_cer.mp copiedCer
    obtain rfl : data.take 20 = tmpRand := Except.ok.inj ((copy_rand long).symm.trans copiedRand)
    have begins := ((shifted_fromArray readRand rfl).mp encrypted).1
    rw [head?_take_twenty (by omega)] at begins
    exact ⟨long, fits, begins, (mem_tmpCer fits).mp (fromArray_eq_ok.mp readCer).1⟩
  · rintro ⟨long, fits, begins, terminated⟩
    have head : (data.take 20).head? = some 0 := (head?_take_twenty (by omega)).trans begins
    have readRand := fromArray_eq_ok.mpr ⟨List.mem_of_head? head, rfl⟩
    have readCer := fromArray_eq_ok.mpr ⟨(mem_tmpCer fits).mpr terminated, rfl⟩
    refine ⟨[], bind_eq_ok.mpr ⟨_, copy_rand long, bind_eq_ok.mpr ⟨_, copy_cer.mpr ⟨long, fits, rfl⟩,
      bind_eq_ok.mpr ⟨_, readRand, bind_eq_ok.mpr ⟨_, readCer, ?_⟩⟩⟩⟩⟩
    exact (shifted_fromArray readRand rfl).mpr ⟨head, rfl⟩

theorem memcpy_tmpRand {tmpRand : Bytes} :
    memcpy (charArray 21) (cStr data) 20 = .ok tmpRand ↔
      19 ≤ data.length ∧ tmpRand = (cStr data).take 20 ++ [0] := by
  have size : (cStr data).length = data.length + 1 := by simp [cStr]
  have room : ¬ (charArray 21).length < 20 := by simp [charArray]
  unfold memcpy
  by_cases short : data.length < 19
  · rw [if_pos (.inr (by omega))]
    simp only [throw_eq_error, reduceCtorEq, false_iff]
    omega
  · rw [if_neg (not_or.mpr ⟨room, by omega⟩)]
    simp only [pure_eq_ok, Except.ok.injEq, charArray, List.drop_replicate]
    constructor
    · rintro rfl
      exact ⟨by omega, rfl⟩
    · rintro ⟨-, rfl⟩
      rfl

theorem secondPacket_eq_ok {accepted : Bool} : secondPacket .within data = .ok accepted ↔
    19 ≤ data.length ∧ data.head? = some 0 ∧ accepted = false := by
  have head (long : 19 ≤ data.length) : ((cStr data).take 20 ++ [0]).head? = data.head? := by
    cases data with
    | nil => cases long
    | cons byte data => rfl
  constructor
  · intro handled
    obtain ⟨tmpRand, copied, handled⟩ := bind_eq_ok.mp handled
    obtain ⟨rand, read, handled⟩ := bind_eq_ok.mp handled
    obtain ⟨getInfo, decrypted, compared⟩ := bind_eq_ok.mp handled
    obtain ⟨long, rfl⟩ := memcpy_tmpRand.mp copied
    obtain ⟨begins, rfl⟩ := (shifted_fromArray read rfl).mp decrypted
    cases compared
    exact ⟨long, head long ▸ begins, rfl⟩
  · rintro ⟨long, begins, rfl⟩
    have begins := (head long).trans begins
    have read := fromArray_eq_ok.mpr ⟨List.mem_of_head? begins, rfl⟩
    exact bind_eq_ok.mpr ⟨_, memcpy_tmpRand.mpr ⟨long, rfl⟩, bind_eq_ok.mpr ⟨_, read,
      bind_eq_ok.mpr ⟨[], (shifted_fromArray read rfl).mpr ⟨begins, rfl⟩, rfl⟩⟩⟩

/-- The two branches throw nothing and stay in bounds, the `memcpy` within the received bytes,
for these packets and no others. -/
theorem packets_in_bounds (data : Bytes) :
    ((∃ sendInfo, firstPacket .within data = .ok sendInfo) ↔
      20 ≤ data.length ∧ data.length ≤ 40 ∧ data.head? = some 0 ∧
        (data.length < 40 ∨ 0 ∈ data.drop 20)) ∧
    (((∃ accepted, secondPacket .within data = .ok accepted) ∧ 20 ≤ data.length) ↔
      20 ≤ data.length ∧ data.head? = some 0) := by
  refine ⟨firstPacket_ok_iff, ?_⟩
  constructor
  · rintro ⟨⟨accepted, handled⟩, long⟩
    exact ⟨long, (secondPacket_eq_ok.mp handled).2.1⟩
  · rintro ⟨long, begins⟩
    exact ⟨⟨false, secondPacket_eq_ok.mpr ⟨by omega, begins, rfl⟩⟩, long⟩

/-- The server's own packet, sent back to it as the first or the second one, and a short one. The
standard allows these accesses no more than the sizes do. -/
theorem packets_out_of_bounds :
    (firstPacket .within Net.serPacket = .error .outOfBounds ∧
      secondPacket .within Net.serPacket = .error .outOfBounds ∧
      firstPacket .within [97] = .error .outOfRange) ∧
    firstPacket .standard Net.serPacket = .error .outOfBounds ∧
      secondPacket .standard Net.serPacket = .error .outOfBounds ∧
      firstPacket .standard [97] = .error .outOfRange := by
  decide

/-- Nobody is identified by what the server runs: the string that `decry` returns is empty. -/
theorem ofPackets_accepts : ofPackets.accepts data = false := by
  cases handled : secondPacket .standard data with
  | error fault => simp [ofPackets, handled, Except.toOption]
  | ok accepted =>
      obtain ⟨tmpRand, _, handled'⟩ := bind_eq_ok.mp handled
      obtain ⟨rand, _, handled'⟩ := bind_eq_ok.mp handled'
      obtain ⟨getInfo, decrypted, compared⟩ := bind_eq_ok.mp handled'
      obtain ⟨rfl, _⟩ := shifted_eq_ok.mp decrypted
      cases compared
      simp [ofPackets, handled, Except.toOption, sameCStr, serPacket, CerPacket.setCer, CerPacket.setRand]

end Handshake

end TransferServer.Net
