import DistributedMonitor.Wire
import Mathlib.Algebra.Order.Ring.Nat
import Mathlib.Tactic.Ring

/-! The packed buffer as it is written and read in place, at offsets into a string that was
resized first. -/

namespace DistributedMonitor.Wire

variable {n : ℕ}

/-- `std::string::resize` fills what it adds with zero bytes. -/
def resize (buffer : ByteString) (size : ℕ) : ByteString :=
  buffer.take size ++ List.replicate (size - buffer.length) 0

def store (buffer : ByteString) (offset : ℕ) (bytes : ByteString) : ByteString :=
  buffer.take offset ++ bytes ++ buffer.drop (offset + bytes.length)

def load (buffer : ByteString) (offset size : ℕ) : ByteString := (buffer.drop offset).take size

def sizeofEncodedLamportTime : ℕ := 8

def sizeofEncodedMessageType : ℕ := 1

namespace InPlace

def encode (lamportTime : UInt64) (messageType : UInt8) (message : ByteString) : ByteString :=
  let finalMessage :=
    resize [] (sizeofEncodedLamportTime + sizeofEncodedMessageType + message.length)
  let finalMessage := store finalMessage 0 (lamportTimeBytes lamportTime)
  let finalMessage := store finalMessage sizeofEncodedLamportTime [messageType]
  store finalMessage (sizeofEncodedLamportTime + sizeofEncodedMessageType) message

/-- `substr` throws when it starts past the end of the buffer. -/
def getPacket (encodedMessage : ByteString) (source : ProcessId n) : Option (Packet n) :=
  let lamportTime := lamportTimeOf (load encodedMessage 0 sizeofEncodedLamportTime)
  let messageType :=
    (load encodedMessage sizeofEncodedLamportTime sizeofEncodedMessageType).headD 0
  let headerSize := sizeofEncodedLamportTime + sizeofEncodedMessageType
  if headerSize ≤ encodedMessage.length then
    some ⟨lamportTime, source, messageType, encodedMessage.drop headerSize⟩
  else none

end InPlace

@[simp] theorem resize_nil (size : ℕ) : resize [] size = List.replicate size 0 := by
  simp [resize]

theorem store_behind (written bytes : ByteString) (rest : ℕ) :
    store (written ++ List.replicate (bytes.length + rest) 0) written.length bytes =
      (written ++ bytes) ++ List.replicate rest 0 := by
  have behind : (written ++ List.replicate (bytes.length + rest) (0 : UInt8)).drop
      (written.length + bytes.length) = List.replicate rest 0 := by
    rw [List.drop_length_add_append, List.drop_replicate, Nat.add_sub_cancel_left]
  rw [store, List.take_left, behind]

theorem encode_inPlace (lamportTime : UInt64) (messageType : UInt8) (message : ByteString) :
    InPlace.encode lamportTime messageType message = encode lamportTime messageType message := by
  have stamped := store_behind [] (lamportTimeBytes lamportTime) (1 + message.length)
  have typed := store_behind (lamportTimeBytes lamportTime) [messageType] message.length
  have filled := store_behind (lamportTimeBytes lamportTime ++ [messageType]) message 0
  simp only [List.nil_append, List.length_nil, List.length_cons, length_lamportTimeBytes,
    List.length_append, Nat.add_zero, List.replicate_zero, List.append_nil] at stamped typed filled
  simp only [InPlace.encode, sizeofEncodedLamportTime, sizeofEncodedMessageType, resize_nil,
    Nat.add_assoc, stamped, typed, filled]
  simp [encode]

theorem getPacket_inPlace (encodedMessage : ByteString) (source : ProcessId n) :
    InPlace.getPacket encodedMessage source = getPacket encodedMessage source := by
  simp only [InPlace.getPacket, getPacket, load, sizeofEncodedLamportTime,
    sizeofEncodedMessageType, List.drop_zero]
  cases rest : encodedMessage.drop 8 with
  | nil =>
    have short := List.drop_eq_nil_iff.1 rest
    rw [if_neg (by omega)]
  | cons messageType message =>
    have long := congrArg List.length rest
    rw [List.length_drop, List.length_cons] at long
    have behind : encodedMessage.drop (8 + 1) = message := by
      rw [← List.drop_drop, rest, List.drop_one, List.tail_cons]
    rw [if_pos (by omega), behind]
    rfl

theorem digits_of_bytes (bytes : ByteString) :
    ((List.range bytes.length).map fun i =>
      UInt8.ofNat (bytes.foldr (fun byte value => byte.toNat + 256 * value) 0 / 256 ^ i)) =
        bytes := by
  induction bytes with
  | nil => rfl
  | cons byte bytes ih =>
    have fits := byte.toNat_lt
    rw [List.length_cons, List.range_succ_eq_map, List.map_cons, List.map_map, List.foldr_cons]
    congr 1
    · apply UInt8.toNat_inj.1
      rw [UInt8.toNat_ofNat', pow_zero, Nat.div_one]
      omega
    · calc
        _ = (List.range bytes.length).map fun i =>
            UInt8.ofNat (bytes.foldr (fun byte value => byte.toNat + 256 * value) 0 / 256 ^ i) := by
          apply List.map_congr_left
          intro i _
          rw [Function.comp_apply, pow_succ', ← Nat.div_div_eq_div_mul]
          congr 2
          omega
        _ = bytes := ih

theorem value_lt (bytes : ByteString) :
    bytes.foldr (fun byte value => byte.toNat + 256 * value) 0 < 256 ^ bytes.length := by
  induction bytes with
  | nil => exact Nat.zero_lt_one
  | cons byte bytes ih =>
    have fits := byte.toNat_lt
    rw [List.foldr_cons, List.length_cons, pow_succ]
    omega

theorem lamportTimeBytes_of (bytes : ByteString) (size : bytes.length = 8) :
    lamportTimeBytes (lamportTimeOf bytes) = bytes := by
  have fits := value_lt bytes
  rw [size] at fits
  have value : (lamportTimeOf bytes).toNat =
      bytes.foldr (fun byte value => byte.toNat + 256 * value) 0 := by
    rw [lamportTimeOf, UInt64.toNat_ofNat']
    exact Nat.mod_eq_of_lt (by simpa using fits)
  have digits := digits_of_bytes bytes
  rw [size] at digits
  rw [lamportTimeBytes, value]
  exact digits

theorem encode_getPacket (encodedMessage : ByteString) (source : ProcessId n)
    (long : 9 ≤ encodedMessage.length) : ∃ packet, getPacket encodedMessage source = some packet ∧
      packet.source = source ∧
      encode packet.lamportTime packet.messageType packet.message = encodedMessage := by
  cases rest : encodedMessage.drop 8 with
  | nil =>
    have short := List.drop_eq_nil_iff.1 rest
    omega
  | cons messageType message =>
    have size : (encodedMessage.take 8).length = 8 := by
      rw [List.length_take]
      omega
    exists ⟨lamportTimeOf (encodedMessage.take 8), source, messageType, message⟩
    constructor
    · rw [getPacket, rest]
    · constructor
      · rfl
      · rw [encode, lamportTimeBytes_of _ size, ← rest]
        exact List.take_append_drop 8 encodedMessage

/-- The packed format is a bijection between packets and the strings of nine bytes or more. -/
theorem packed_bijection (source : ProcessId n) :
    (∀ lamportTime messageType message,
      InPlace.getPacket (InPlace.encode lamportTime messageType message) source =
        some ⟨lamportTime, source, messageType, message⟩) ∧
    (∀ encodedMessage : ByteString, 9 ≤ encodedMessage.length →
      ∃ packet, InPlace.getPacket encodedMessage source = some packet ∧
        packet.source = source ∧
        InPlace.encode packet.lamportTime packet.messageType packet.message = encodedMessage) ∧
    (∀ lamportTime messageType message lamportTime' messageType' message',
      InPlace.encode lamportTime messageType message =
        InPlace.encode lamportTime' messageType' message' →
      lamportTime = lamportTime' ∧ messageType = messageType' ∧ message = message') ∧
    ∀ encodedMessage : ByteString,
      (∃ lamportTime messageType message,
        InPlace.encode lamportTime messageType message = encodedMessage) ↔
          9 ≤ encodedMessage.length := by
  simp only [encode_inPlace, getPacket_inPlace]
  refine ⟨fun _ _ _ => getPacket_encode _ _ _ _, fun _ => encode_getPacket _ source, ?_, ?_⟩
  · intro lamportTime messageType message lamportTime' messageType' message' same
    have read := congrArg (getPacket · source) same
    simp only [getPacket_encode, Option.some.injEq, Packet.mk.injEq] at read
    exact ⟨read.1, read.2.2⟩
  · intro encodedMessage
    constructor
    · intro ⟨lamportTime, messageType, message, encoded⟩
      rw [← encoded, length_encode]
      omega
    · intro long
      obtain ⟨packet, -, -, encoded⟩ := encode_getPacket encodedMessage source long
      exact ⟨_, _, _, encoded⟩

end DistributedMonitor.Wire
