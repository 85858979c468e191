import Mathlib.Data.Fintype.Card

/-! Packets and the two kinds of packet set the algorithms keep. A byte string is
a `std::string`, and a Lamport time is counted without the wrap of its 64 bits. -/

namespace DistributedMonitor

abbrev ByteString := List UInt8
abbrev ProcessId (n : ℕ) := Fin n
abbrev LamportTime := ℕ
abbrev SubscriptionId := ℕ
abbrev MutexName := ByteString
abbrev CondName := ByteString

inductive MessageType where
  | mutexRequest
  | mutexAgreement
  | condWait
  | condWaitEnd
  | condWaitEndConfirm
  | condNotify
  | sync
  deriving DecidableEq

structure Packet (n : ℕ) where
  lamportTime : LamportTime
  source : ProcessId n
  messageType : MessageType
  message : ByteString
  deriving DecidableEq

/-- What travels on a channel: the header of a send with its payload. The source is
not sent; the receiver learns it from the status of the receive. -/
structure RawPacket where
  lamportTime : LamportTime
  messageType : MessageType
  message : ByteString
  deriving DecidableEq

variable {n : ℕ}

def toPacket (raw : RawPacket) (source : ProcessId n) : Packet n :=
  ⟨raw.lamportTime, source, raw.messageType, raw.message⟩

def Packet.raw (packet : Packet n) : RawPacket :=
  ⟨packet.lamportTime, packet.messageType, packet.message⟩

@[simp] theorem raw_toPacket (raw : RawPacket) (source : ProcessId n) :
    (toPacket raw source).raw = raw := rfl

@[simp] theorem toPacket_raw (packet : Packet n) : toPacket packet.raw packet.source = packet := rfl

@[simp] theorem source_toPacket (raw : RawPacket) (source : ProcessId n) :
    (toPacket raw source).source = source := rfl

/-- `Packet::operator==` ignores the stamp. -/
def Packet.same (first second : Packet n) : Bool :=
  first.source = second.source ∧ first.messageType = second.messageType ∧
    first.message = second.message

/-- `Packet::operator<` sees nothing but the stamp. -/
def Packet.before (first second : Packet n) : Bool := first.lamportTime < second.lamportTime

theorem Packet.same_iff {first second : Packet n} : first.same second = true ↔
    first.source = second.source ∧ first.messageType = second.messageType ∧
      first.message = second.message := by
  simp [Packet.same]

/-- A `std::unordered_set<Packet>`: no two members are equal up to their stamps. -/
structure PacketSet (n : ℕ) where
  packets : List (Packet n)
  distinct : packets.Pairwise (fun first second => first.same second = false)

namespace PacketSet

def empty : PacketSet n := ⟨[], .nil⟩

/-- An equal member stays, and the new packet is dropped. -/
def insert (set : PacketSet n) (packet : Packet n) : PacketSet n :=
  if fresh : ∀ other ∈ set.packets, other.same packet = false then
    ⟨set.packets ++ [packet], List.pairwise_append.2 ⟨set.distinct, List.pairwise_singleton _ _,
      fun other member _ last => by rw [List.mem_singleton.1 last]; exact fresh other member⟩⟩
  else set

def remove (set : PacketSet n) (packet : Packet n) : PacketSet n :=
  ⟨set.packets.filter (fun other => !other.same packet), set.distinct.filter _⟩

def size (set : PacketSet n) : ℕ := set.packets.length

def senders (set : PacketSet n) : List (ProcessId n) := set.packets.map (·.source)

def About (set : PacketSet n) (messageType : MessageType) (name : ByteString) : Prop :=
  ∀ packet ∈ set.packets, packet.messageType = messageType ∧ packet.message = name

@[simp] theorem senders_empty : (empty : PacketSet n).senders = [] := rfl

theorem about_empty (messageType : MessageType) (name : ByteString) :
    (empty : PacketSet n).About messageType name := by
  intro packet member
  cases member

theorem mem_insert_senders {set : PacketSet n} {packet : Packet n} {p : ProcessId n} :
    p ∈ (set.insert packet).senders ↔ p ∈ set.senders ∨ p = packet.source := by
  unfold insert
  split
  next fresh => simp [senders]
  next present =>
    push Not at present
    obtain ⟨other, member, same⟩ := present
    have sender := (Packet.same_iff.1 (Bool.eq_true_of_not_eq_false same)).1
    constructor
    · exact .inl
    · rintro (known | rfl)
      · exact known
      · exact sender ▸ List.mem_map_of_mem member

theorem about_insert {set : PacketSet n} {packet : Packet n} {name : ByteString}
    (about : set.About packet.messageType name) (named : packet.message = name) :
    (set.insert packet).About packet.messageType name := by
  unfold insert
  split
  · intro other member
    rcases List.mem_append.1 member with old | last
    · exact about other old
    · rw [List.mem_singleton.1 last]
      exact ⟨rfl, named⟩
  · exact about

theorem about_remove {set : PacketSet n} {messageType : MessageType} {name : ByteString}
    (about : set.About messageType name) (packet : Packet n) :
    (set.remove packet).About messageType name :=
  fun other member => about other (List.mem_filter.1 member).1

theorem mem_remove_senders {set : PacketSet n} {messageType : MessageType} {name : ByteString}
    (about : set.About messageType name) {packet : Packet n} (member : packet ∈ set.packets)
    {p : ProcessId n} :
    p ∈ (set.remove packet).senders ↔ p ∈ set.senders ∧ p ≠ packet.source := by
  simp only [senders, remove, List.mem_map, List.mem_filter, Bool.not_eq_true',
    Bool.eq_false_iff, ne_eq, Packet.same_iff]
  constructor
  · rintro ⟨other, ⟨old, different⟩, rfl⟩
    refine ⟨⟨other, old, rfl⟩, fun sender => different ⟨sender, ?_, ?_⟩⟩
    · exact (about other old).1.trans (about packet member).1.symm
    · exact (about other old).2.trans (about packet member).2.symm
  · rintro ⟨⟨other, old, rfl⟩, different⟩
    exact ⟨other, ⟨old, fun same => different same.1⟩, rfl⟩

theorem senders_nodup {set : PacketSet n} {messageType : MessageType} {name : ByteString}
    (about : set.About messageType name) : set.senders.Nodup := by
  refine List.pairwise_map.2 (set.distinct.imp_of_mem ?_)
  intro first second here there differ sender
  have same := Packet.same_iff.2 ⟨sender, (about first here).1.trans (about second there).1.symm,
    (about first here).2.trans (about second there).2.symm⟩
  rw [differ] at same
  cases same

theorem size_eq_iff {set : PacketSet n} {messageType : MessageType} {name : ByteString}
    (about : set.About messageType name) {self : ProcessId n} (others : self ∉ set.senders) :
    set.size = n - 1 ↔ ∀ q, q ≠ self → q ∈ set.senders := by
  have card : set.senders.toFinset.card = set.size := by
    rw [List.toFinset_card_of_nodup (senders_nodup about)]
    simp [senders, size]
  have included : set.senders.toFinset ⊆ Finset.univ.erase self := by
    intro q member
    have sender := List.mem_toFinset.1 member
    exact Finset.mem_erase.2 ⟨fun same => others (same ▸ sender), Finset.mem_univ q⟩
  have total : (Finset.univ.erase self : Finset (ProcessId n)).card = n - 1 := by simp
  constructor
  · intro full q other
    have all := Finset.eq_of_subset_of_card_le included (by omega)
    exact List.mem_toFinset.1 (all ▸ Finset.mem_erase.2 ⟨other, Finset.mem_univ q⟩)
  · intro all
    rw [← card, ← total]
    exact congrArg _ (Finset.Subset.antisymm included fun q member =>
      List.mem_toFinset.2 (all q (Finset.mem_erase.1 member).1))

end PacketSet

/-- A `std::set<Packet>`: sorted by stamp, and no two members share one. -/
structure StampedSet (n : ℕ) where
  packets : List (Packet n)
  sorted : packets.Pairwise (fun first second => first.lamportTime < second.lamportTime)

namespace StampedSet

def empty : StampedSet n := ⟨[], .nil⟩

def place (packet : Packet n) : List (Packet n) → List (Packet n)
  | [] => [packet]
  | other :: rest =>
      if packet.before other then packet :: other :: rest
      else if other.before packet then other :: place packet rest
      else other :: rest

theorem mem_place {packet member : Packet n} {packets : List (Packet n)}
    (placed : member ∈ place packet packets) : member = packet ∨ member ∈ packets := by
  induction packets with
  | nil => exact .inl (List.mem_singleton.1 placed)
  | cons other rest ih =>
    simp only [place] at placed
    split_ifs at placed with less greater
    · exact List.mem_cons.1 placed
    · rcases List.mem_cons.1 placed with rfl | later
      · exact .inr (List.mem_cons_self ..)
      · exact (ih later).imp_right (List.mem_cons_of_mem _)
    · exact .inr placed

theorem place_sorted (packet : Packet n) {packets : List (Packet n)}
    (sorted : packets.Pairwise (fun first second => first.lamportTime < second.lamportTime)) :
    (place packet packets).Pairwise
      (fun first second => first.lamportTime < second.lamportTime) := by
  induction packets with
  | nil => exact List.pairwise_singleton _ _
  | cons other rest ih =>
    obtain ⟨first, tail⟩ := List.pairwise_cons.1 sorted
    simp only [place]
    split_ifs with less greater
    · simp only [Packet.before, decide_eq_true_eq] at less
      refine List.pairwise_cons.2 ⟨fun member here => ?_, sorted⟩
      rcases List.mem_cons.1 here with rfl | later
      · exact less
      · exact less.trans (first member later)
    · simp only [Packet.before, decide_eq_true_eq] at greater
      refine List.pairwise_cons.2 ⟨fun member here => ?_, ih tail⟩
      rcases mem_place here with rfl | later
      · exact greater
      · exact first member later
    · exact sorted

/-- A packet whose stamp is already present is dropped. -/
def insert (set : StampedSet n) (packet : Packet n) : StampedSet n :=
  ⟨place packet set.packets, place_sorted packet set.sorted⟩

def senders (set : StampedSet n) : List (ProcessId n) := set.packets.map (·.source)

theorem mem_place_of_mem (packet : Packet n) {member : Packet n} {packets : List (Packet n)}
    (old : member ∈ packets) : member ∈ place packet packets := by
  induction packets with
  | nil => cases old
  | cons other rest ih =>
    simp only [place]
    split_ifs with less greater
    · exact List.mem_cons_of_mem _ old
    · rcases List.mem_cons.1 old with rfl | later
      · exact List.mem_cons_self ..
      · exact List.mem_cons_of_mem _ (ih later)
    · exact old

theorem mem_insert_senders {set : StampedSet n} {packet : Packet n} {p : ProcessId n}
    (listed : p ∈ (set.insert packet).senders) : p = packet.source ∨ p ∈ set.senders := by
  obtain ⟨member, placed, rfl⟩ := List.mem_map.1 listed
  rcases mem_place placed with rfl | old
  · exact .inl rfl
  · exact .inr (List.mem_map_of_mem old)

theorem mem_insert_of_mem {set : StampedSet n} (packet : Packet n) {p : ProcessId n}
    (listed : p ∈ set.senders) : p ∈ (set.insert packet).senders := by
  obtain ⟨member, old, rfl⟩ := List.mem_map.1 listed
  exact List.mem_map_of_mem (mem_place_of_mem packet old)

end StampedSet

end DistributedMonitor
