import DistributedMonitor.SyncMessage

/-! Which monitor takes a SYNC message, and what it reads from it. -/

namespace DistributedMonitor

/-- The message one monitor packs is taken by the monitors of its name, which read the state
that was packed, and no monitor throws on it. -/
structure RoutesExactly (sender receiver : MonitorName) (serializedState : ByteString) : Prop where
  accepted : extractMutexName (packSyncMessage sender.1 serializedState) = some receiver.1 ↔
    sender = receiver
  read : sender = receiver →
    extractSerializedData (packSyncMessage sender.1 serializedState) = some serializedState
  nameRead : extractMutexName (packSyncMessage sender.1 serializedState) ≠ none
  dataRead : extractSerializedData (packSyncMessage sender.1 serializedState) ≠ none

instance (sender receiver : MonitorName) (serializedState : ByteString) :
    Decidable (RoutesExactly sender receiver serializedState) :=
  decidable_of_iff (_ ∧ _ ∧ _ ∧ _)
    ⟨fun ⟨accepted, read, nameRead, dataRead⟩ => ⟨accepted, read, nameRead, dataRead⟩,
      fun routes => ⟨routes.accepted, routes.read, routes.nameRead, routes.dataRead⟩⟩

theorem extractMutexName_reads (name state : ByteString) :
    extractMutexName (packSyncMessage name state) ≠ none := by
  simp [extractMutexName, packSyncMessage, substr]

/-- A length with its sign puts the data past the end of all but the longest messages, and
wraps to the front of the message behind a full byte. -/
theorem extractSerializedData_long {name state : ByteString} (long : ¬name.length < 128)
    (fits : name.length ≤ 255) :
    extractSerializedData (packSyncMessage name state) =
      if name.length = 255 then some (packSyncMessage name state)
      else substr (packSyncMessage name state) (UInt64.size - 255 + name.length)
        (packSyncMessage name state).length := by
  have offset : (UInt64.size - 256 + name.length + 1) % UInt64.size =
      if name.length = 255 then 0 else UInt64.size - 255 + name.length := by
    simp only [UInt64.size]
    split <;> omega
  simp only [extractSerializedData, packSyncMessage, List.headD_cons,
    charToSize_ofNat name.length fits, if_neg long, offset]
  split
  · simp [substr]
  · rfl

theorem data_read_iff {name state : ByteString} (long : ¬name.length < 128)
    (fits : name.length ≤ 255) : extractSerializedData (packSyncMessage name state) ≠ none ↔
      name.length = 255 ∨ UInt64.size ≤ state.length + 256 := by
  rw [extractSerializedData_long long fits]
  by_cases full : name.length = 255
  · simp [full]
  · have size : (packSyncMessage name state).length = name.length + state.length + 1 := by
      simp [packSyncMessage]
    rw [if_neg full, substr, size]
    simp only [UInt64.size]
    split <;> simp <;> omega

theorem accepted_long {sender receiver : MonitorName} {state : ByteString}
    (long : ¬sender.1.length < 128)
    (accepted : extractMutexName (packSyncMessage sender.1 state) = some receiver.1) :
    receiver.1 = sender.1 ++ state ∧ sender.1.length + state.length ≤ 255 := by
  have whole := name_of_long long sender.2 receiver.2 accepted
  have fits := receiver.2
  rw [whole, List.length_append] at fits
  exact ⟨whole, fits⟩

theorem RoutesExactly.of_short {sender receiver : MonitorName} {state : ByteString}
    (short : sender.1.length < 128) : RoutesExactly sender receiver state where
  accepted := by
    rw [extractMutexName_pack sender.1 state short, Option.some.injEq]
    exact Subtype.ext_iff.symm
  read _ := extractSerializedData_pack sender.1 state short
  nameRead := extractMutexName_reads sender.1 state
  dataRead := by
    rw [extractSerializedData_pack sender.1 state short]
    exact Option.some_ne_none state

theorem RoutesExactly.of_stray {sender receiver : MonitorName} {state : ByteString}
    (long : ¬sender.1.length < 128) (apart : sender ≠ receiver)
    (stray : sender.1.length = 255 ∨ UInt64.size ≤ state.length + 256) :
    RoutesExactly sender receiver state where
  accepted := by
    apply iff_of_false _ apart
    intro accepted
    obtain ⟨whole, fits⟩ := accepted_long long accepted
    have nothing : state.length = 0 := by
      simp only [UInt64.size] at stray
      omega
    rw [List.eq_nil_of_length_eq_zero nothing, List.append_nil] at whole
    exact apart (Subtype.ext whole.symm)
  read same := (apart same).elim
  nameRead := extractMutexName_reads sender.1 state
  dataRead := (data_read_iff long sender.2).2 stray

theorem RoutesExactly.apart {sender receiver : MonitorName} {state : ByteString}
    (long : ¬sender.1.length < 128) (routes : RoutesExactly sender receiver state) :
    sender ≠ receiver := by
  intro same
  obtain ⟨whole, fits⟩ := accepted_long long (routes.accepted.2 same)
  have stray := (data_read_iff long sender.2).1 routes.dataRead
  have full : sender.1.length = 255 := by
    simp only [UInt64.size] at stray
    omega
  have data : extractSerializedData (packSyncMessage sender.1 state) = _ :=
    extractSerializedData_long long sender.2
  rw [routes.read same, if_pos full, Option.some.injEq] at data
  have length := congrArg List.length data
  rw [packSyncMessage, List.length_cons, List.length_append] at length
  omega

/-- The messages that are routed exactly: those of a name whose length a signed byte holds, and
those that nobody takes but everybody can read. -/
theorem routes_exactly_iff (sender receiver : MonitorName) (state : ByteString) :
    RoutesExactly sender receiver state ↔
      sender.1.length < 128 ∨
      sender ≠ receiver ∧ (sender.1.length = 255 ∨ UInt64.size ≤ state.length + 256) := by
  by_cases short : sender.1.length < 128
  · exact iff_of_true (.of_short short) (.inl short)
  · rw [or_iff_right short]
    constructor
    · intro routes
      exact ⟨routes.apart short, (data_read_iff short sender.2).1 routes.dataRead⟩
    · intro ⟨apart, stray⟩
      exact .of_stray short apart stray

def longName : MonitorName := ⟨List.replicate 128 97, by rw [List.length_replicate]; decide⟩

theorem longName_not_routed : ¬RoutesExactly longName longName [1] := by
  decide +kernel

end DistributedMonitor
