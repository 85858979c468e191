import DistributedMonitor.Packet
import Mathlib.Algebra.Group.Nat.Defs

/-! The two wire formats: a header followed by its payload, and one packed buffer. Here the
stamps have their 64 bits, and a message type is the byte it is encoded in. -/

namespace DistributedMonitor.Wire

variable {n : ℕ}

abbrev MpiTag := ℕ

/-- The header of the simple communicator, `mpiRawPacketType`. -/
structure RawPacket where
  lamportTime : UInt64
  messageType : UInt8
  nextPacketLength : UInt32
  deriving DecidableEq

structure Packet (n : ℕ) where
  lamportTime : UInt64
  source : ProcessId n
  messageType : UInt8
  message : ByteString
  deriving DecidableEq

def toPacket (rawPacket : RawPacket) (source : ProcessId n) (message : ByteString) : Packet n :=
  ⟨rawPacket.lamportTime, source, rawPacket.messageType, message⟩

/-- The bytes of a stamp in memory, the least significant first. -/
def lamportTimeBytes (lamportTime : UInt64) : ByteString :=
  (List.range 8).map fun i => UInt8.ofNat (lamportTime.toNat / 256 ^ i)

def lamportTimeOf (bytes : ByteString) : UInt64 :=
  UInt64.ofNat (bytes.foldr (fun byte value => byte.toNat + 256 * value) 0)

def encode (lamportTime : UInt64) (messageType : UInt8) (message : ByteString) : ByteString :=
  lamportTimeBytes lamportTime ++ messageType :: message

def getPacket (encodedMessage : ByteString) (source : ProcessId n) : Option (Packet n) :=
  match encodedMessage.drop 8 with
  | messageType :: message =>
      some ⟨lamportTimeOf (encodedMessage.take 8), source, messageType, message⟩
  | [] => none

@[simp] theorem length_lamportTimeBytes (lamportTime : UInt64) :
    (lamportTimeBytes lamportTime).length = 8 := by
  simp [lamportTimeBytes]

theorem lamportTimeOf_bytes (lamportTime : UInt64) :
    lamportTimeOf (lamportTimeBytes lamportTime) = lamportTime := by
  have fits := lamportTime.toNat_lt
  have value : (lamportTimeBytes lamportTime).foldr (fun byte value => byte.toNat + 256 * value) 0 =
      lamportTime.toNat := by
    simp only [lamportTimeBytes, List.range, List.range.loop, List.map_cons, List.map_nil,
      List.foldr_cons, List.foldr_nil, UInt8.toNat_ofNat']
    omega
  rw [lamportTimeOf, value, UInt64.ofNat_toNat]

@[simp] theorem length_encode (lamportTime : UInt64) (messageType : UInt8) (message : ByteString) :
    (encode lamportTime messageType message).length = message.length + 9 := by
  simp [encode]
  omega

theorem getPacket_encode (lamportTime : UInt64) (messageType : UInt8) (message : ByteString)
    (source : ProcessId n) : getPacket (encode lamportTime messageType message) source =
      some ⟨lamportTime, source, messageType, message⟩ := by
  have front := length_lamportTimeBytes lamportTime
  rw [getPacket, encode, List.drop_left' front, List.take_left' front, lamportTimeOf_bytes]

end DistributedMonitor.Wire
