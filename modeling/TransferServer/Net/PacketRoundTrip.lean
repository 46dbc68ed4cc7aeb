import TransferServer.Net.Handshake

/-! What becomes of a `CerPacket` that is encrypted and decrypted again, or sent as a
first packet and taken apart by `onMessage`. -/

set_option autoImplicit false

namespace TransferServer.Net.Handshake

open Base Lib

section Encryption

/-- Encrypting keeps the length, and decrypting undoes it. The other members of the packets have no
part in it. -/
def RoundTrips (random : Bytes) : Prop :=
  ∃ encrypted, (∀ packet : CerPacket, (packet.setRand random).encry .standard = .ok encrypted) ∧
    encrypted.length = random.length ∧
    ∀ packet : CerPacket, (packet.setRand encrypted).decry .standard = .ok random

/-- No other random of its kind encrypts to the same string. -/
def Distinguished (random : Bytes) : Prop :=
  ∃ encrypted, (∀ packet : CerPacket, (packet.setRand random).encry .standard = .ok encrypted) ∧
    ∀ other, 0 ∉ other → other ≠ random →
      ∀ packet : CerPacket, (packet.setRand other).encry .standard ≠ .ok encrypted

/-- What comes out is empty: nothing was to be stored, or the one byte that wraps around to 0. -/
theorem encry_eq_ok {packet : CerPacket} {encrypted : Bytes} :
    packet.encry .standard = .ok encrypted ↔ encrypted = [] ∧
      (packet.rand.filter (· ≠ 0) = [] ∨ packet.rand.filter (· ≠ 0) = [255]) := by
  have wraps (i : Byte) : i + 1 = 0 ↔ i = 255 := by
    constructor
    · intro wrapped
      calc i = i + 1 - 1 := (UInt8.add_sub_cancel i 1).symm
        _ = 255 := by rw [wrapped]; rfl
    · rintro rfl
      rfl
  rw [CerPacket.encry, shifted_eq_ok]
  simp [wraps]

/-- The empty random alone comes back: another one is not stored, or it is the byte 255, which wraps
to the terminator of the string that stays empty. That byte takes the distinction from the empty
random too. -/
theorem roundTrips_iff (random : Bytes) :
    (RoundTrips random ↔ random = []) ∧ ¬ Distinguished random := by
  refine ⟨⟨?_, ?_⟩, ?_⟩
  · rintro ⟨encrypted, encrypts, length, _⟩
    obtain ⟨rfl, _⟩ := encry_eq_ok.mp (encrypts .init)
    exact List.length_eq_zero_iff.mp length.symm
  · rintro rfl
    exact ⟨[], fun _ => rfl, rfl, fun _ => rfl⟩
  · rintro ⟨encrypted, encrypts, apart⟩
    obtain ⟨rfl, _⟩ := encry_eq_ok.mp (encrypts .init)
    by_cases empty : random = []
    · subst empty
      exact apart [255] (by decide) (by decide) .init (by decide)
    · exact apart [] (by decide) (Ne.symm empty) .init rfl

theorem encry_out_of_bounds :
    (CerPacket.init.setRand [97]).encry .standard = .error .outOfBounds ∧ ¬ RoundTrips [97] ∧
      (CerPacket.init.setRand [255]).encry .standard = (CerPacket.init.setRand []).encry .standard := by
  refine ⟨by decide, fun roundTrips => ?_, by decide⟩
  obtain ⟨encrypted, encrypts, _⟩ := roundTrips
  have assigned := encrypts .init
  rw [show (CerPacket.init.setRand [97]).encry .standard = .error .outOfBounds by decide] at assigned
  cases assigned

end Encryption

section FirstPacket

/-- The first-packet branch up to the two setters. -/
def cliPacket1 (dataFromClient : Bytes) : Except Fault CerPacket := do
  let tmpRand ← copy dataFromClient (charArray 20) 20 0
  let tmpCer ← copy dataFromClient (charArray 20) (sizeSub dataFromClient.length 20) 20
  let rand ← fromArray tmpRand
  let cer ← fromArray tmpCer
  return (CerPacket.init.setRand rand).setCer cer

theorem firstPacket_eq (indexing : Indexing) (data : Bytes) :
    firstPacket indexing data = cliPacket1 data >>= fun packet => packet.encry indexing := by
  unfold firstPacket cliPacket1
  cases copy data (charArray 20) 20 0 with
  | error fault => rfl
  | ok tmpRand =>
      cases copy data (charArray 20) (sizeSub data.length 20) 20 with
      | error fault => rfl
      | ok tmpCer =>
          cases readRand : fromArray tmpRand with
          | error fault => simp only [ok_bind, readRand]; rfl
          | ok rand =>
              cases readCer : fromArray tmpCer with
              | error fault => simp only [ok_bind, readRand, readCer]; rfl
              | ok cer => simp only [ok_bind, readRand, readCer, pure_eq_ok]

/-- `tmpRand` is as long as the random, so a terminator has to be one of its bytes. -/
theorem cliPacket1_terminated {data : Bytes} {packet : CerPacket}
    (decoded : cliPacket1 data = .ok packet) : 0 ∈ data.take 20 := by
  obtain ⟨tmpRand, copiedRand, decoded⟩ := bind_eq_ok.mp decoded
  obtain ⟨tmpCer, copiedCer, decoded⟩ := bind_eq_ok.mp decoded
  obtain ⟨rand, readRand, _⟩ := bind_eq_ok.mp decoded
  obtain ⟨long, _⟩ := copy_cer.mp copiedCer
  obtain rfl : data.take 20 = tmpRand := Except.ok.inj ((copy_rand long).symm.trans copiedRand)
  exact (fromArray_eq_ok.mp readRand).1

/-- No packet is reconstructed from what it is sent as. -/
theorem cliPacket1_not_inverse {packet : CerPacket} (size : packet.rand.length = 20)
    (nulFree : 0 ∉ packet.rand) :
    ¬ ∃ decoded, cliPacket1 packet.getPacketAsString = .ok decoded ∧
      decoded.rand = packet.rand ∧ decoded.cer = packet.cer := by
  rintro ⟨decoded, read, _⟩
  have terminated := cliPacket1_terminated read
  rw [CerPacket.getPacketAsString, ← size, List.take_left] at terminated
  exact nulFree terminated

theorem cliPacket1_not_inverse_serPacket :
    ¬ ∃ decoded, cliPacket1 serPacket.getPacketAsString = .ok decoded ∧
      decoded.rand = serPacket.rand ∧ decoded.cer = serPacket.cer :=
  cliPacket1_not_inverse (by decide) (by decide)

theorem cliPacket1_out_of_bounds :
    serPacket.rand.length = 20 ∧ 0 ∉ serPacket.rand ∧ 0 ∉ serPacket.cer ∧
      cliPacket1 serPacket.getPacketAsString = .error .outOfBounds := by
  decide

end FirstPacket

end TransferServer.Net.Handshake
