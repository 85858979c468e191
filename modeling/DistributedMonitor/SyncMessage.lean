import DistributedMonitor.Packet

/-! The bytes of a SYNC message. The length of the monitor's name travels in one
`char`, which is signed, and is widened to a `size_type` on the way out. -/

namespace DistributedMonitor

/-- The constructor of a monitor asserts that the length of its name fits a byte. -/
abbrev MonitorName := { name : MutexName // name.length ≤ 255 }

/-- A `char` widened to `std::string_view::size_type`, with its sign. -/
def charToSize (byte : UInt8) : ℕ :=
  if byte.toNat < 128 then byte.toNat else UInt64.size - 256 + byte.toNat

/-- `substr` clamps its count and throws when it starts past the end. -/
def substr (text : ByteString) (position count : ℕ) : Option ByteString :=
  if position ≤ text.length then some ((text.drop position).take count) else none

def packSyncMessage (monitorMutexName : MutexName) (serializedState : ByteString) : ByteString :=
  UInt8.ofNat monitorMutexName.length :: (monitorMutexName ++ serializedState)

/-- The first character of an empty string is its terminating zero. -/
def extractMutexName (message : ByteString) : Option ByteString :=
  substr message 1 (charToSize (message.headD 0))

def extractSerializedData (message : ByteString) : Option ByteString :=
  let dataOffset := (charToSize (message.headD 0) + 1) % UInt64.size
  substr message dataOffset message.length

theorem charToSize_ofNat (length : ℕ) (fits : length ≤ 255) :
    charToSize (UInt8.ofNat length) =
      if length < 128 then length else UInt64.size - 256 + length := by
  have value : (UInt8.ofNat length).toNat = length := by
    rw [UInt8.toNat_ofNat']
    omega
  simp only [charToSize, value]

theorem extractMutexName_pack (name state : ByteString) (short : name.length < 128) :
    extractMutexName (packSyncMessage name state) = some name := by
  simp [extractMutexName, packSyncMessage, substr, charToSize_ofNat name.length (by omega), short]

theorem extractSerializedData_pack (name state : ByteString) (short : name.length < 128) :
    extractSerializedData (packSyncMessage name state) = some state := by
  have offset : (name.length + 1) % UInt64.size = name.length + 1 :=
    Nat.mod_eq_of_lt (by simp only [UInt64.size]; omega)
  simp only [extractSerializedData, packSyncMessage, List.headD_cons,
    charToSize_ofNat name.length (by omega), if_pos short, offset, substr, List.length_cons,
    List.length_append]
  rw [if_pos (by omega), List.drop_succ_cons, List.drop_left, List.take_of_length_le (by omega)]

theorem monitor_of_packed {first second : MonitorName} {state other : ByteString}
    (same : packSyncMessage first.1 state = packSyncMessage second.1 other) : first = second := by
  obtain ⟨lengths, rest⟩ := List.cons.inj same
  have equal : first.1.length = second.1.length := by
    have bytes := congrArg UInt8.toNat lengths
    rw [UInt8.toNat_ofNat', UInt8.toNat_ofNat'] at bytes
    have firstFits := first.2
    have secondFits := second.2
    omega
  exact Subtype.ext (List.append_inj rest equal).1

/-- The sign of the length stretches the name to all that follows the length. -/
theorem name_of_long {name state accepted : ByteString} (long : ¬name.length < 128)
    (fits : name.length ≤ 255) (short : accepted.length ≤ 255)
    (extracted : extractMutexName (packSyncMessage name state) = some accepted) :
    accepted = name ++ state := by
  simp only [extractMutexName, packSyncMessage, List.headD_cons, substr, List.length_cons,
    charToSize_ofNat name.length fits, if_neg long, UInt64.size, Nat.le_add_left, if_true,
    List.drop_succ_cons, List.drop_zero, Option.some.injEq] at extracted
  have clamped : (name ++ state).length ≤ 255 := by
    have length := congrArg List.length extracted
    rw [List.length_take] at length
    omega
  rw [List.take_of_length_le (by omega)] at extracted
  exact extracted.symm

theorem data_of_long {name state data : ByteString} (long : ¬name.length < 128)
    (fits : name.length ≤ 255) (short : (name ++ state).length ≤ 255)
    (extracted : extractSerializedData (packSyncMessage name state) = some data) :
    name.length = 255 := by
  by_contra partly
  have offset : (UInt64.size - 256 + name.length + 1) % UInt64.size =
      UInt64.size - 256 + name.length + 1 :=
    Nat.mod_eq_of_lt (by simp only [UInt64.size]; omega)
  rw [List.length_append] at short
  simp only [extractSerializedData, packSyncMessage, List.headD_cons, substr,
    charToSize_ofNat name.length fits, if_neg long, offset, List.length_cons,
    List.length_append] at extracted
  rw [if_neg (by simp only [UInt64.size]; omega)] at extracted
  cases extracted

/-- Whatever the lengths, a message that a monitor accepts and can read is its own. -/
theorem packed_for_another (sender receiver : MonitorName) (state data : ByteString)
    (accepted : extractMutexName (packSyncMessage sender.1 state) = some receiver.1)
    (read : extractSerializedData (packSyncMessage sender.1 state) = some data) :
    sender = receiver := by
  by_cases short : sender.1.length < 128
  · rw [extractMutexName_pack sender.1 state short] at accepted
    exact Subtype.ext (Option.some.inj accepted)
  · have whole := name_of_long short sender.2 receiver.2 accepted
    have fits : (sender.1 ++ state).length ≤ 255 := whole ▸ receiver.2
    have full := data_of_long short sender.2 fits read
    have nothing : state = [] := by
      rw [List.length_append] at fits
      exact List.eq_nil_of_length_eq_zero (by omega)
    exact Subtype.ext (by rw [whole, nothing, List.append_nil])

theorem read_own (monitor : MonitorName) (state data : ByteString)
    (accepted : extractMutexName (packSyncMessage monitor.1 state) = some monitor.1)
    (read : extractSerializedData (packSyncMessage monitor.1 state) = some data) :
    data = state ∨ monitor.1.length = 255 ∧ state = [] := by
  by_cases short : monitor.1.length < 128
  · rw [extractSerializedData_pack monitor.1 state short] at read
    exact .inl (Option.some.inj read).symm
  · have whole := name_of_long short monitor.2 monitor.2 accepted
    have fits : (monitor.1 ++ state).length ≤ 255 := whole ▸ monitor.2
    exact .inr ⟨data_of_long short monitor.2 fits read,
      List.append_right_eq_self.1 whole.symm⟩

end DistributedMonitor
