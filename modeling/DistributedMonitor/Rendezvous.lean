import DistributedMonitor.Library.WaitsFor
import DistributedMonitor.LockInversion
import DistributedMonitor.ScopedLock

/-! The system over an MPI that buffers nothing: each `MPI_Send` blocks until its recipient is in
the matching `MPI_Recv`, and `send` keeps `communicationMutex` through its whole loop. Whoever
sends, updates the clock or logs waits for that mutex: `Logger::log` reads the clock. -/

namespace DistributedMonitor
open Library

variable {n : ℕ} {σ : Type} {serialization : Serialization σ} {setup : Setup n σ}
  {self p q : ProcessId n} {process process' : Process n σ} {action : Action n σ}
  {sent : List (Envelope n)} {packet : Packet n} {raw : RawPacket}

/-- A thread inside `send`. Its present `MPI_Send` is that of the header, or that of the payload
once the header is taken. -/
structure Sending (n : ℕ) where
  thread : Thread
  raw : RawPacket
  recipient : ProcessId n
  rest : List (ProcessId n)
  headerTaken : Bool
  distinct : (recipient :: rest).Nodup
  deriving DecidableEq

def Sending.start (thread : Thread) (raw : RawPacket) :
    (order : List (ProcessId n)) → order.Nodup → Option (Sending n)
  | [], _ => none
  | recipient :: rest, distinct => some ⟨thread, raw, recipient, rest, false, distinct⟩

def Sending.next (send : Sending n) : Option (Sending n) :=
  Sending.start send.thread send.raw send.rest send.distinct.of_cons

/-- The receiving thread is in the `MPI_Recv` for a header or in that for a payload, or done with
both and about to update the clock, or past `receive` and about to log the packet, or past that. -/
inductive Receiver (n : ℕ) where
  | header
  | payload (source : ProcessId n) (raw : RawPacket)
  | arrived (source : ProcessId n) (raw : RawPacket)
  | logging
  | dispatching
  deriving DecidableEq

def Receiver.receives : Receiver n → Bool
  | .logging | .dispatching => false
  | _ => true

/-- What a thread does after a send is recorded when the send begins, since it takes no other step
until the send is over. `logging` is about the main thread: it logs before its next step. -/
structure UnbufferedSystem (n : ℕ) (σ : Type) where
  process : ProcessId n → Process n σ
  sending : ProcessId n → Option (Sending n)
  receiver : ProcessId n → Receiver n
  logging : ProcessId n → Bool
  terminated : Bool

/-- A step that sends names the order in which the loop comes to the recipients. -/
inductive UnbufferedAction (n : ℕ) (σ : Type) where
  | act (action : Action n σ) (order : List (ProcessId n))
  | deliver
  | updateClock
  | log (thread : Thread)
  | throw

abbrev UnbufferedEvent (n : ℕ) (σ : Type) := ProcessId n × UnbufferedAction n σ

def Action.thread : Action n σ → Thread
  | .receive _ | .updateTimestamp | .dispatch => .receiving
  | _ => .main

/-- The calls that take `subscriptionMutex`, which a dispatch keeps. `wait` logs that it has stopped
waiting on its way to the second `subscribe`. -/
def Action.subscribes : Action n σ → Bool
  | .lock _ | .wait _ _ _ | .wake | .subscribeConfirmations | .acquired | .waitReturns => true
  | _ => false

/-- `processRequest` and `addAgreement` take `queuedMutexesMutex`, which `queue` and `releaseMutex`
keep when they send. They log before they give it up, so that no send of the main thread lets them
through. -/
def Process.handlesQueue (process : Process n σ) : Bool :=
  match process.receiving with
  | .received packet => packet.messageType = .mutexRequest ∨ packet.messageType = .mutexAgreement
  | _ => false

/-- A step that logs under the locks of its call: a release at its start, a notification when
nobody waits. -/
def Action.logs (process' : Process n σ) : Action n σ → Bool
  | .notifyOne _ | .notifyAll _ => match process'.main with
      | .notifying _ _ => false
      | _ => true
  | _ => process'.main.releasing?.isSome

/-- `acquireMutex` logs when it has unsubscribed, and `wait` when it has announced itself. -/
def Action.logsAfter : Action n σ → Bool
  | .acquired | .announce => true
  | _ => false

/-- The exceptions of the library log what they say; that of `substr` does not. -/
def DispatchError.isLogged : DispatchError → Bool
  | .noCallbackInvoked | .notInterested => true
  | .outOfRange => false

/-- While one thread sends, the other takes no step that logs or needs another lock which the first
one keeps. -/
def Sending.admits (send : Sending n) (process : Process n σ) (action : Action n σ)
    (process' : Process n σ) : Bool :=
  match send.thread with
  | .main => action.thread = .receiving ∧ ¬process.handlesQueue
  | .receiving => action.thread = .main ∧ ¬action.subscribes ∧ ¬action.logs process'

namespace UnbufferedSystem

def ready (s : UnbufferedSystem n σ) (self : ProcessId n) : Thread → Bool
  | .main => !s.logging self
  | .receiving => s.receiver self = .dispatching

/-- A send needs `communicationMutex` to itself. -/
def allows (s : UnbufferedSystem n σ) (self : ProcessId n) (action : Action n σ)
    (outcome : Outcome n σ) : Bool :=
  s.ready self action.thread && (s.sending self).all fun send =>
    outcome.2.isEmpty && send.admits (s.process self) action outcome.1

/-- A dispatch that does not send goes back to the `MPI_Recv` for the next header. -/
def acted (s : UnbufferedSystem n σ) (self : ProcessId n) (action : Action n σ)
    (process' : Process n σ) (send : Option (Sending n)) : UnbufferedSystem n σ :=
  { s with
    process := Function.update s.process self process'
    sending := if send.isSome then Function.update s.sending self send else s.sending
    receiver := if action.thread = .receiving ∧ send.isNone then
        Function.update s.receiver self .header
      else s.receiver
    logging := Function.update s.logging self (s.logging self || action.logsAfter) }

def act (serialization : Serialization σ) (s : UnbufferedSystem n σ) (self : ProcessId n)
    (action : Action n σ) (order : List (ProcessId n)) : Option (UnbufferedSystem n σ) :=
  ((s.process self).act serialization self action).bind fun outcome =>
    if s.allows self action outcome then
      match outcome.2 with
      | [] => if order = [] then some (s.acted self action outcome.1 none) else none
      | [envelope] =>
          if chosen : order.Nodup ∧ order.toFinset = envelope.recipients then
            some (s.acted self action outcome.1
              (Sending.start action.thread envelope.packet.raw order chosen.1))
          else none
      | _ => none
    else none

/-- The recipient has all of the packet. A callback whose loop is through goes back to the
`MPI_Recv` for the next header. -/
def delivered (s : UnbufferedSystem n σ) (self : ProcessId n) (send : Sending n) :
    UnbufferedSystem n σ :=
  let receiver := Function.update s.receiver send.recipient (.arrived self send.raw)
  { s with
    sending := Function.update s.sending self send.next
    receiver := if send.thread = .receiving ∧ send.next.isNone then
        Function.update receiver self .header
      else receiver }

/-- An `MPI_Send` meets its `MPI_Recv`. That of a header takes any source, that of a payload the
source of the header. -/
def deliver (s : UnbufferedSystem n σ) (self : ProcessId n) : Option (UnbufferedSystem n σ) :=
  (s.sending self).bind fun send =>
    match s.receiver send.recipient, send.headerTaken with
    | .header, false =>
        if send.raw.message = [] then some (s.delivered self send)
        else some { s with
          sending := Function.update s.sending self (some { send with headerTaken := true })
          receiver := Function.update s.receiver send.recipient (.payload self send.raw) }
    | .payload source _, true => if source = self then some (s.delivered self send) else none
    | _, _ => none

/-- The end of `receive` takes `communicationMutex`. -/
def updateClock (s : UnbufferedSystem n σ) (self : ProcessId n) : Option (UnbufferedSystem n σ) :=
  match s.receiver self, s.sending self with
  | .arrived source raw, none => some { s with
      process := Function.update s.process self
        ((s.process self).receive .simple source raw)
      receiver := Function.update s.receiver self .logging }
  | _, _ => none

/-- `Logger::log` takes `communicationMutex` to read the clock. -/
def log (s : UnbufferedSystem n σ) (self : ProcessId n) (thread : Thread) :
    Option (UnbufferedSystem n σ) :=
  match thread, s.sending self with
  | .main, none =>
      if s.logging self then some { s with logging := Function.update s.logging self false }
      else none
  | .receiving, none =>
      if s.receiver self = .logging then
        some { s with receiver := Function.update s.receiver self .dispatching }
      else none
  | _, some _ => none

/-- An exception on the receiving thread terminates its process, and with it the job. -/
def throw (serialization : Serialization σ) (s : UnbufferedSystem n σ) (self : ProcessId n) :
    Option (UnbufferedSystem n σ) :=
  match (s.process self).receiving with
  | .received packet =>
      match (s.process self).dispatch serialization self packet with
      | .error error =>
          if s.receiver self = .dispatching ∧ (s.process self).mustWait packet = false ∧
              (error.isLogged → s.sending self = none) then
            some { s with terminated := true }
          else none
      | .ok _ => none
  | _ => none

end UnbufferedSystem

def unbufferedStep (serialization : Serialization σ) (s : UnbufferedSystem n σ)
    (event : UnbufferedEvent n σ) : Option (UnbufferedSystem n σ) :=
  if s.terminated then none else
    match event.2 with
    | .act action order => s.act serialization event.1 action order
    | .deliver => s.deliver event.1
    | .updateClock => s.updateClock event.1
    | .log thread => s.log event.1 thread
    | .throw => s.throw serialization event.1

def Setup.unbuffered (setup : Setup n σ) : UnbufferedSystem n σ where
  process := setup.process
  sending _ := none
  receiver _ := .header
  logging _ := false
  terminated := false

abbrev UnbufferedRun (serialization : Serialization σ) (setup : Setup n σ)
    (contract : Permission (UnbufferedSystem n σ) (UnbufferedEvent n σ)) :
    Trace (UnbufferedSystem n σ) (UnbufferedEvent n σ) → UnbufferedSystem n σ → Prop :=
  Execution (unbufferedStep serialization) (· = setup.unbuffered) contract

namespace UnbufferedSystem

def Sends (s : UnbufferedSystem n σ) : Prop := s.terminated = false ∧ ∃ p, (s.sending p).isSome

def Moves (serialization : Serialization σ) (s : UnbufferedSystem n σ) : Prop :=
  ∃ event, (unbufferedStep serialization s event).isSome

/-- The receiving thread is behind a send of its own process: it waits for `communicationMutex` to
update the clock, to log the packet, or to log or send in a callback; or for a lock that the main
thread keeps through the sends of a release; or the send is its own. -/
inductive HeldUp (serialization : Serialization σ) (s : UnbufferedSystem n σ) (q : ProcessId n) :
    Prop where
  | clock {send : Sending n} {source : ProcessId n} {raw : RawPacket}
      (sending : s.sending q = some send) (arrived : s.receiver q = .arrived source raw)
  | log {send : Sending n} (sending : s.sending q = some send) (logs : s.receiver q = .logging)
  | answer {send : Sending n} {packet : Packet n} {outcome : Outcome n σ}
      (sending : s.sending q = some send)
      (received : (s.process q).receiving = .received packet)
      (dispatches : (s.process q).dispatch serialization q packet = .ok outcome)
      (answers : outcome.2 ≠ [])
  | queue {send : Sending n} (sending : s.sending q = some send)
      (handles : (s.process q).handlesQueue = true)
  | throw {send : Sending n} {packet : Packet n} {error : DispatchError}
      (sending : s.sending q = some send)
      (received : (s.process q).receiving = .received packet)
      (throws : (s.process q).dispatch serialization q packet = .error error)
      (logged : error.isLogged = true)
  | release {send : Sending n} {packet : Packet n} (sending : s.sending q = some send)
      (received : (s.process q).receiving = .received packet)
      (waits : (s.process q).mustWait packet = true)
  | callback {send : Sending n} (sending : s.sending q = some send)
      (called : send.thread = .receiving)

/-- A process is inside `MPI_Send` to one that is held up by a send of its own. -/
def Waits (serialization : Serialization σ) (s : UnbufferedSystem n σ) (p q : ProcessId n) : Prop :=
  (∃ send, s.sending p = some send ∧ send.recipient = q) ∧ s.HeldUp serialization q

end UnbufferedSystem

/-- The step does not leave processes that wait in a ring. -/
def closesNoRing (serialization : Serialization σ) :
    Permission (UnbufferedSystem n σ) (UnbufferedEvent n σ) :=
  fun _ s event => ∀ s', unbufferedStep serialization s event = some s' →
    ¬Closed (s'.Waits serialization)

def UnbufferedSystem.Completes (s : UnbufferedSystem n σ) (self : ProcessId n) (send : Sending n) :
    Prop :=
  s.receiver send.recipient = .header ∧ send.headerTaken = false ∨
    ∃ raw, s.receiver send.recipient = .payload self raw ∧ send.headerTaken = true

theorem UnbufferedSystem.Completes.receives {s : UnbufferedSystem n σ} {send : Sending n}
    (completes : s.Completes self send) : (s.receiver send.recipient).receives = true := by
  rcases completes with ⟨header, -⟩ | ⟨raw, payload, -⟩
  · rw [header]
    rfl
  · rw [payload]
    rfl

inductive UnbufferedStep (serialization : Serialization σ) (s : UnbufferedSystem n σ) :
    UnbufferedEvent n σ → UnbufferedSystem n σ → Prop where
  | acts {self : ProcessId n} {action : Action n σ} {process' : Process n σ}
      (acts : (s.process self).act serialization self action = some (process', []))
      (ready : s.ready self action.thread = true)
      (admitted : ∀ send, s.sending self = some send →
        send.admits (s.process self) action process' = true) :
      UnbufferedStep serialization s (self, .act action []) (s.acted self action process' none)
  | sends {self : ProcessId n} {action : Action n σ} {order : List (ProcessId n)}
      {process' : Process n σ} {envelope : Envelope n}
      (acts : (s.process self).act serialization self action = some (process', [envelope]))
      (ready : s.ready self action.thread = true)
      (free : s.sending self = none) (distinct : order.Nodup)
      (all : order.toFinset = envelope.recipients) :
      UnbufferedStep serialization s (self, .act action order) (s.acted self action process'
        (Sending.start action.thread envelope.packet.raw order distinct))
  | header {self : ProcessId n} {send : Sending n} (sending : s.sending self = some send)
      (meets : s.receiver send.recipient = .header) (fresh : send.headerTaken = false) :
      UnbufferedStep serialization s (self, .deliver) { s with
        sending := Function.update s.sending self (some { send with headerTaken := true })
        receiver := Function.update s.receiver send.recipient (.payload self send.raw) }
  | delivers {self : ProcessId n} {send : Sending n} (sending : s.sending self = some send)
      (completes : s.Completes self send) :
      UnbufferedStep serialization s (self, .deliver) (s.delivered self send)
  | updateClock {self source : ProcessId n} {raw : RawPacket}
      (arrived : s.receiver self = .arrived source raw) (free : s.sending self = none) :
      UnbufferedStep serialization s (self, .updateClock) { s with
        process := Function.update s.process self ((s.process self).receive .simple source raw)
        receiver := Function.update s.receiver self .logging }
  | logs {self : ProcessId n} (free : s.sending self = none) :
      UnbufferedStep serialization s (self, .log .main)
        { s with logging := Function.update s.logging self false }
  | logsPacket {self : ProcessId n} (logging : s.receiver self = .logging)
      (free : s.sending self = none) :
      UnbufferedStep serialization s (self, .log .receiving)
        { s with receiver := Function.update s.receiver self .dispatching }
  | throw {self : ProcessId n} {packet : Packet n}
      (received : (s.process self).receiving = .received packet) :
      UnbufferedStep serialization s (self, .throw) { s with terminated := true }

variable {contract : Permission (UnbufferedSystem n σ) (UnbufferedEvent n σ)}
  {trace : Trace (UnbufferedSystem n σ) (UnbufferedEvent n σ)} {s s' : UnbufferedSystem n σ}
  {event : UnbufferedEvent n σ}

theorem act_step {order : List (ProcessId n)}
    (taken : s.act serialization self action order = some s') :
    UnbufferedStep serialization s (self, .act action order) s' := by
  obtain ⟨⟨process', sent⟩, acts, taken⟩ := Option.bind_eq_some_iff.1 taken
  have allowed : s.allows self action (process', sent) = true := by
    by_contra forbidden
    rw [if_neg forbidden] at taken
    cases taken
  rw [if_pos allowed] at taken
  rw [UnbufferedSystem.allows, Bool.and_eq_true, Option.all_eq_true] at allowed
  obtain ⟨ready, allowed⟩ := allowed
  cases sent with
  | nil =>
    simp only at taken
    split_ifs at taken with none'
    cases taken
    subst none'
    exact .acts acts ready fun send sending => ((Bool.and_eq_true ..).mp (allowed send sending)).2
  | cons envelope more =>
    cases more with
    | nil =>
      simp only at taken
      split_ifs at taken with chosen
      cases taken
      have free : s.sending self = none := by
        cases sending : s.sending self with
        | none => rfl
        | some send => cases ((Bool.and_eq_true ..).mp (allowed send sending)).1
      exact .sends acts ready free chosen.1 chosen.2
    | cons => cases taken

theorem deliver_step (taken : s.deliver self = some s') :
    UnbufferedStep serialization s (self, .deliver) s' := by
  obtain ⟨send, sending, taken⟩ := Option.bind_eq_some_iff.1 taken
  split at taken
  next header fresh =>
    split_ifs at taken with short
    · cases taken
      exact .delivers sending (.inl ⟨header, fresh⟩)
    · cases taken
      exact .header sending header fresh
  next source raw payload taken' =>
    split_ifs at taken with same
    cases taken
    exact .delivers sending (.inr ⟨raw, same ▸ payload, taken'⟩)
  next => cases taken

theorem log_step {thread : Thread} (taken : s.log self thread = some s') :
    UnbufferedStep serialization s (self, .log thread) s' := by
  unfold UnbufferedSystem.log at taken
  split at taken
  next free =>
    split_ifs at taken
    cases taken
    exact .logs free
  next free =>
    split_ifs at taken with logging
    cases taken
    exact .logsPacket logging free
  next => cases taken

theorem unbufferedStep_cases (taken : unbufferedStep serialization s event = some s') :
    s.terminated = false ∧ UnbufferedStep serialization s event s' := by
  obtain ⟨self, action⟩ := event
  unfold unbufferedStep at taken
  split_ifs at taken with ended
  refine ⟨Bool.eq_false_of_not_eq_true ended, ?_⟩
  cases action with
  | act action order => exact act_step taken
  | deliver => exact deliver_step taken
  | updateClock =>
    simp only [UnbufferedSystem.updateClock] at taken
    split at taken
    next source raw arrived free =>
      cases taken
      exact .updateClock arrived free
    next => cases taken
  | log thread => exact log_step taken
  | throw =>
    simp only [UnbufferedSystem.throw] at taken
    split at taken
    next packet received =>
      split at taken
      next =>
        split_ifs at taken
        cases taken
        exact .throw received
      next => cases taken
    next => cases taken

theorem isMain_of_thread (main : action.thread = .main) : action.isMain = true := by
  cases action with
  | receive | updateTimestamp | dispatch => cases main
  | _ => rfl

theorem start_some {thread : Thread} {order : List (ProcessId n)} {distinct : order.Nodup}
    {send : Sending n} (started : Sending.start thread raw order distinct = some send) :
    send.thread = thread ∧ send.raw = raw ∧ send.headerTaken = false ∧
      send.recipient :: send.rest = order := by
  cases order with
  | nil => cases started
  | cons recipient rest =>
    cases started
    exact ⟨rfl, rfl, rfl, rfl⟩

inductive Placed : ReceivingThread n → Option (Sending n) → Receiver n → Prop where
  | receiving {sending : Option (Sending n)} {receiver : Receiver n}
      (place : receiver.receives = true) (byMain : ∀ send ∈ sending, send.thread = .main) :
      Placed .listening sending receiver
  | received {packet : Packet n} {sending : Option (Sending n)} {receiver : Receiver n}
      (place : receiver.receives = false) (byMain : ∀ send ∈ sending, send.thread = .main) :
      Placed (.received packet) sending receiver
  | callback {send : Sending n} (called : send.thread = .receiving) :
      Placed .listening (some send) .dispatching

namespace Placed

variable {receiving : ReceivingThread n} {sending : Option (Sending n)} {send send' : Sending n}
  {receiver receiver' : Receiver n}

theorem receives (placed : Placed receiving sending receiver) (before : receiver.receives = true)
    (after : receiver'.receives = true) : Placed receiving sending receiver' := by
  cases placed with
  | receiving _ byMain => exact .receiving after byMain
  | received place => cases place.symm.trans before
  | callback => cases before

theorem logs (placed : Placed receiving sending .logging) :
    Placed receiving sending .dispatching := by
  cases placed with
  | receiving place => cases place
  | received _ byMain => exact .received rfl byMain

theorem sends (placed : Placed receiving (some send) receiver) (same : send'.thread = send.thread) :
    Placed receiving (some send') receiver := by
  have byMain (main : ∀ sending ∈ some send, sending.thread = .main) :
      ∀ sending ∈ some send', sending.thread = .main := by
    intro sending this
    cases this
    exact same.trans (main send rfl)
  cases placed with
  | receiving place main => exact .receiving place (byMain main)
  | received place main => exact .received place (byMain main)
  | callback called => exact .callback (same.trans called)

theorem done (placed : Placed receiving (some send) receiver) :
    Placed receiving none (if send.thread = .receiving then .header else receiver) := by
  cases placed with
  | receiving place main =>
    rw [if_neg (by rw [main send rfl]; decide)]
    exact .receiving place (by simp)
  | received place main =>
    rw [if_neg (by rw [main send rfl]; decide)]
    exact .received place (by simp)
  | callback called =>
    rw [if_pos called]
    exact .receiving rfl (by simp)

theorem starts (placed : Placed receiving none receiver)
    (main : ∀ send ∈ sending, send.thread = .main) :
    Placed receiving sending receiver := by
  cases placed with
  | receiving place => exact .receiving place main
  | received place => exact .received place main

theorem place (placed : Placed (.received packet) sending receiver) :
    receiver.receives = false := by
  cases placed with
  | received place => exact place

theorem calling (placed : Placed receiving (some send) receiver) (called : send.thread = .receiving) :
    receiver = .dispatching ∧ receiving = .listening := by
  cases placed with
  | receiving _ byMain | received _ byMain => cases called.symm.trans (byMain send rfl)
  | callback => exact ⟨rfl, rfl⟩

theorem dispatches (placed : Placed (.received packet) sending receiver) :
    Placed .listening sending .header := by
  cases placed with
  | received _ byMain => exact .receiving rfl byMain

theorem listening (placed : Placed receiving sending receiver) (place : receiver.receives = true) :
    receiving = .listening := by
  cases placed with
  | receiving => rfl
  | received there => cases there.symm.trans place
  | callback => rfl

theorem inHand (placed : Placed receiving sending receiver) (place : receiver.receives = false)
    (byMain : ∀ send ∈ sending, send.thread = .main) : ∃ packet, receiving = .received packet := by
  cases placed with
  | receiving there => cases there.symm.trans place
  | received => exact ⟨_, rfl⟩
  | callback called => cases called.symm.trans (byMain _ rfl)

theorem not_updating (placed : Placed receiving sending receiver) (packet : Packet n) :
    receiving ≠ .updating packet := by
  cases placed <;> simp

end Placed

def Receiver.awaits (source : ProcessId n) : Receiver n → Bool
  | .payload from' _ => from' = source
  | _ => false

def Sending.sendsPayload (recipient : ProcessId n) (send : Sending n) : Bool :=
  send.recipient = recipient ∧ send.headerTaken

namespace UnbufferedSystem

theorem acted_other (other : q ≠ self) (action : Action n σ) (process' : Process n σ)
    (send : Option (Sending n)) :
    (s.acted self action process' send).process q = s.process q ∧
      (s.acted self action process' send).sending q = s.sending q ∧
      (s.acted self action process' send).receiver q = s.receiver q := by
  refine ⟨Function.update_of_ne other .., ?_, ?_⟩
  · simp only [acted]
    split_ifs
    · rw [Function.update_of_ne other]
    · rfl
  · simp only [acted]
    split_ifs
    · rw [Function.update_of_ne other]
    · rfl

structure Coupled (s : UnbufferedSystem n σ) : Prop where
  placed : ∀ q, Placed (s.process q).receiving (s.sending q) (s.receiver q)
  paired : ∀ p q, (s.receiver q).awaits p = (s.sending p).any (·.sendsPayload q)

theorem Coupled.dispatches (coupled : s.Coupled) (receives : action.thread = .receiving)
    (acts : (s.process self).act serialization self action = some (process', sent)) :
    action = .dispatch ∧ process'.receiving = .listening ∧
      ∃ packet, (s.process self).receiving = .received packet := by
  cases action with
  | receive => cases acts
  | updateTimestamp =>
    simp only [Process.act, Process.updateTimestamp] at acts
    split at acts
    next packet updating => exact absurd updating ((coupled.placed self).not_updating packet)
    next => cases acts
  | dispatch =>
    simp only [Process.act, Process.dispatchReceived] at acts
    split at acts
    next packet received =>
      split_ifs at acts
      cases dispatched : (s.process self).dispatch serialization self packet with
      | error =>
        rw [dispatched] at acts
        cases acts
      | ok outcome =>
        rw [dispatched] at acts
        cases acts
        exact ⟨rfl, dispatch_listening dispatched, packet, received⟩
    next => cases acts
  | _ => cases receives

namespace Coupled

theorem start : setup.unbuffered.Coupled where
  placed _ := .receiving rfl (by simp [Setup.unbuffered])
  paired _ _ := rfl

theorem read_acted {α : Type} (read : Receiver n → α) (same : read .header = read .dispatching)
    (ready : s.ready self action.thread = true) (process' : Process n σ)
    (send : Option (Sending n)) (q : ProcessId n) :
    read ((s.acted self action process' send).receiver q) = read (s.receiver q) := by
  simp only [UnbufferedSystem.acted]
  split_ifs with back
  · by_cases mine : q = self
    · subst mine
      rw [back.1] at ready
      rw [Function.update_self, of_decide_eq_true ready, same]
    · rw [Function.update_of_ne mine]
  · rfl

theorem read_delivered {α : Type} (coupled : s.Coupled) (read : Receiver n → α)
    (same : read .header = read .dispatching) {send : Sending n}
    (sending : s.sending self = some send) (meets : (s.receiver send.recipient).receives = true)
    (q : ProcessId n) : read ((s.delivered self send).receiver q) =
      if q = send.recipient then read (.arrived self send.raw) else read (s.receiver q) := by
  simp only [delivered]
  by_cases back : send.thread = .receiving ∧ send.next.isNone
  · have place := ((sending ▸ coupled.placed self).calling back.1).1
    rw [if_pos back]
    by_cases mine : q = self
    · subst mine
      have apart : q ≠ send.recipient := by
        rintro rfl
        rw [place] at meets
        cases meets
      rw [Function.update_self, if_neg apart, place, same]
    · rw [Function.update_of_ne mine]
      by_cases there : q = send.recipient
      · subst there
        rw [Function.update_self, if_pos rfl]
      · rw [Function.update_of_ne there, if_neg there]
  · rw [if_neg back]
    by_cases there : q = send.recipient
    · subst there
      rw [Function.update_self, if_pos rfl]
    · rw [Function.update_of_ne there, if_neg there]

theorem acted (coupled : s.Coupled)
    (acts : (s.process self).act serialization self action = some (process', sent))
    (ready : s.ready self action.thread = true) {send : Option (Sending n)} (fresh : ∀ started ∈ send,
      started.thread = action.thread ∧ started.headerTaken = false ∧ s.sending self = none) :
    (s.acted self action process' send).Coupled := by
  constructor
  · intro q
    by_cases mine : q = self
    · subst mine
      have here := coupled.placed q
      cases thread : action.thread with
      | main =>
        have same : process'.receiving = (s.process q).receiving :=
          mainStep_receiving (mainStep_of_act (isMain_of_thread thread) acts)
        simp only [UnbufferedSystem.acted, Function.update_self, thread, same, reduceCtorEq,
          false_and, if_false]
        cases send with
        | none => exact here
        | some started =>
          obtain ⟨called, -, free⟩ := fresh started rfl
          rw [free] at here
          simp only [Option.isSome_some, if_true, Function.update_self]
          apply here.starts
          intro other sends
          cases sends
          exact called.trans thread
      | receiving =>
        obtain ⟨-, listening, packet, received⟩ := coupled.dispatches thread acts
        rw [received] at here
        rw [thread] at ready
        simp only [UnbufferedSystem.acted, Function.update_self, thread, listening]
        cases send with
        | none => simpa using here.dispatches
        | some started =>
          obtain ⟨called, -, -⟩ := fresh started rfl
          simpa [of_decide_eq_true ready] using Placed.callback (called.trans thread)
    · obtain ⟨process, sending, receiver⟩ := s.acted_other mine action process' send
      rw [process, sending, receiver]
      exact coupled.placed q
  · intro p q
    have receiver := read_acted (Receiver.awaits p) rfl ready process' send q
    have sending : ((s.acted self action process' send).sending p).any (·.sendsPayload q) =
        (s.sending p).any (·.sendsPayload q) := by
      cases send with
      | none => rfl
      | some started =>
        obtain ⟨-, untaken, free⟩ := fresh started rfl
        simp only [UnbufferedSystem.acted, Option.isSome_some, if_true]
        by_cases mine : p = self
        · subst mine
          simp [free, Sending.sendsPayload, untaken]
        · rw [Function.update_of_ne mine]
    rw [receiver, sending]
    exact coupled.paired p q

theorem header (coupled : s.Coupled) {send : Sending n} (sending : s.sending self = some send)
    (meets : s.receiver send.recipient = .header) :
    Coupled { s with
      sending := Function.update s.sending self (some { send with headerTaken := true })
      receiver := Function.update s.receiver send.recipient (.payload self send.raw) } := by
  constructor
  · intro q
    have here := coupled.placed q
    have sent : Placed (s.process q).receiving (Function.update s.sending self
        (some { send with headerTaken := true }) q) (s.receiver q) := by
      by_cases mine : q = self
      · subst mine
        rw [sending] at here
        rw [Function.update_self]
        exact here.sends rfl
      · rwa [Function.update_of_ne mine]
    by_cases there : q = send.recipient
    · subst there
      simp only [Function.update_self]
      exact sent.receives (by rw [meets]; rfl) rfl
    · simp only [Function.update_of_ne there]
      exact sent
  · intro p q
    have before := coupled.paired p q
    by_cases mine : p = self
    · subst mine
      by_cases there : q = send.recipient
      · subst there
        simp [Receiver.awaits, Sending.sendsPayload]
      · simp only [Function.update_of_ne there, Function.update_self, before, sending]
        simp [Sending.sendsPayload, Ne.symm there]
    · simp only [Function.update_of_ne mine, ← before]
      by_cases there : q = send.recipient
      · subst there
        simp [Receiver.awaits, meets, Ne.symm mine]
      · rw [Function.update_of_ne there]

theorem delivers (coupled : s.Coupled) {send : Sending n} (sending : s.sending self = some send)
    (completes : s.Completes self send) : (s.delivered self send).Coupled := by
  have meets := completes.receives
  constructor
  · intro q
    have here := coupled.placed q
    have arrived : Placed (s.process q).receiving (s.sending q)
        (Function.update s.receiver send.recipient (.arrived self send.raw) q) := by
      by_cases there : q = send.recipient
      · subst there
        rw [Function.update_self]
        exact here.receives meets rfl
      · rwa [Function.update_of_ne there]
    by_cases mine : q = self
    · subst mine
      rw [sending] at arrived
      simp only [delivered, Function.update_self]
      cases next : send.next with
      | none =>
        have done := arrived.done
        simp only [Option.isNone_none, and_true]
        split_ifs at done ⊢ with called
        · rwa [Function.update_self]
        · exact done
      | some started =>
        simp only [Option.isNone_some, Bool.false_eq_true, and_false, if_false]
        exact arrived.sends (start_some next).1
    · simp only [delivered, Function.update_of_ne mine]
      split_ifs with called
      · rwa [Function.update_of_ne mine]
      · exact arrived
  · intro p q
    have receiver := coupled.read_delivered (Receiver.awaits p) rfl sending meets q
    have before := coupled.paired p q
    rw [receiver]
    by_cases mine : p = self
    · subst mine
      have next : send.next.any (·.sendsPayload q) = false := by
        cases started : send.next with
        | none => rfl
        | some next => simp [Sending.sendsPayload, (start_some started).2.2.1]
      simp only [delivered, Function.update_self, next, before, sending]
      split_ifs with there
      · rfl
      · simp [Sending.sendsPayload, Ne.symm there]
    · simp only [delivered, Function.update_of_ne mine, ← before]
      split_ifs with there
      · subst there
        rcases completes with ⟨header, -⟩ | ⟨raw, payload, -⟩
        · rw [header]
          rfl
        · rw [payload]
          simp [Receiver.awaits, Ne.symm mine]
      · rfl

theorem updateClock (coupled : s.Coupled) {source : ProcessId n}
    (arrived : s.receiver self = .arrived source raw) (free : s.sending self = none) :
    Coupled { s with
      process := Function.update s.process self ((s.process self).receive .simple source raw)
      receiver := Function.update s.receiver self .logging } := by
  constructor
  · intro q
    by_cases mine : q = self
    · subst mine
      simp only [Function.update_self, free]
      exact .received rfl (by simp)
    · simp only [Function.update_of_ne mine]
      exact coupled.placed q
  · intro p q
    have before := coupled.paired p q
    by_cases mine : q = self
    · subst mine
      rw [arrived] at before
      simp only [Function.update_self]
      exact before
    · simp only [Function.update_of_ne mine]
      exact before

theorem logsPacket (coupled : s.Coupled) (logging : s.receiver self = .logging) :
    Coupled { s with receiver := Function.update s.receiver self .dispatching } := by
  constructor
  · intro q
    have here := coupled.placed q
    by_cases mine : q = self
    · subst mine
      rw [logging] at here
      simp only [Function.update_self]
      exact here.logs
    · simp only [Function.update_of_ne mine]
      exact here
  · intro p q
    have before := coupled.paired p q
    by_cases mine : q = self
    · subst mine
      rw [logging] at before
      simp only [Function.update_self]
      exact before
    · simp only [Function.update_of_ne mine]
      exact before

theorem step (coupled : s.Coupled) (does : UnbufferedStep serialization s event s') :
    s'.Coupled := by
  cases does with
  | acts acts ready => exact coupled.acted acts ready (by simp)
  | sends acts ready free distinct all =>
    apply coupled.acted acts ready
    intro started this
    obtain ⟨thread, -, untaken, -⟩ := start_some this
    exact ⟨thread, untaken, free⟩
  | header sending meets => exact coupled.header sending meets
  | delivers sending completes => exact coupled.delivers sending completes
  | updateClock arrived free => exact coupled.updateClock arrived free
  | logs | throw => exact ⟨coupled.placed, coupled.paired⟩
  | logsPacket logging => exact coupled.logsPacket logging

end Coupled

end UnbufferedSystem

theorem coupled_run (run : UnbufferedRun serialization setup contract trace s) : s.Coupled := by
  apply run.invariant (I := UnbufferedSystem.Coupled)
  · rintro _ rfl
    exact .start
  · intro trace s event s' _ coupled _ taken
    exact coupled.step (unbufferedStep_cases taken).2

def Receiver.heldFrom (source : ProcessId n) : Receiver n → List RawPacket
  | .arrived from' raw => if from' = source then [raw] else []
  | _ => []

def Sending.owedTo (recipient : ProcessId n) (send : Sending n) : List RawPacket :=
  if (send.recipient :: send.rest).any (· = recipient) then [send.raw] else []

/-- A channel holds what its source has not got rid of and what waits for the clock. -/
def UnbufferedSystem.below (s : UnbufferedSystem n σ) : System n σ where
  process := s.process
  channel source recipient := (s.receiver recipient).heldFrom source ++
    (s.sending source).elim [] (·.owedTo recipient)

def UnbufferedAction.act? : UnbufferedAction n σ → Option (Action n σ)
  | .act action _ => some action
  | _ => none

def UnbufferedSystem.stepBelow (s : UnbufferedSystem n σ) (event : UnbufferedEvent n σ) :
    Option (System n σ × Event n σ) :=
  match event.2 with
  | .act action _ => some (s.below, event.1, action)
  | .updateClock => match s.receiver event.1 with
      | .arrived source _ => some (s.below, event.1, .receive source)
      | _ => none
  | .deliver | .log _ | .throw => none

theorem owed_start {thread : Thread} {order : List (ProcessId n)} {distinct : order.Nodup}
    (recipient : ProcessId n) :
    (Sending.start thread raw order distinct).elim [] (·.owedTo recipient) =
      if order.any (· = recipient) then [raw] else [] := by
  cases order with
  | nil => rfl
  | cons first rest => rfl

theorem step_of_act {system : System n σ} {outcome : Outcome n σ}
    (acts : (system.process self).act serialization self action = some outcome) :
    step .simple serialization system (self, action) = some (system.update self outcome) := by
  cases action with
  | receive => cases acts
  | _ => exact Option.map_eq_some_iff.2 ⟨outcome, acts, rfl⟩

namespace UnbufferedSystem.Coupled

theorem below_acted (ready : s.ready self action.thread = true) {send : Option (Sending n)} (free : send.isSome → s.sending self = none)
    (owed : ∀ recipient, send.elim [] (·.owedTo recipient) = addressed sent recipient) :
    (s.acted self action process' send).below = s.below.update self (process', sent) := by
  unfold below System.update
  congr 1
  funext source recipient
  rw [read_acted (Receiver.heldFrom source) rfl ready]
  by_cases mine : source = self
  · subst mine
    rw [if_pos rfl, ← owed, List.append_assoc]
    cases send with
    | none =>
      simp only [UnbufferedSystem.acted, Option.isSome_none, Bool.false_eq_true, if_false,
        Option.elim_none, List.append_nil]
    | some started =>
      simp only [UnbufferedSystem.acted, free rfl, Option.isSome_some, if_true,
        Function.update_self, Option.elim_none, List.nil_append]
  · rw [if_neg mine]
    cases send with
    | none => rfl
    | some started =>
      simp only [UnbufferedSystem.acted, Option.isSome_some, if_true, Function.update_of_ne mine]

theorem below_header {send : Sending n} (sending : s.sending self = some send)
    (meets : s.receiver send.recipient = .header) :
    below { s with
      sending := Function.update s.sending self (some { send with headerTaken := true })
      receiver := Function.update s.receiver send.recipient (.payload self send.raw) } =
        s.below := by
  unfold below
  congr 1
  funext source recipient
  have receiver : (Function.update s.receiver send.recipient (.payload self send.raw)
      recipient).heldFrom source = (s.receiver recipient).heldFrom source := by
    by_cases there : recipient = send.recipient
    · subst there
      rw [Function.update_self, meets]
      rfl
    · rw [Function.update_of_ne there]
  rw [receiver]
  by_cases mine : source = self
  · subst mine
    simp only [Function.update_self, sending]
    rfl
  · simp only [Function.update_of_ne mine]

theorem below_delivered (coupled : s.Coupled) {send : Sending n}
    (sending : s.sending self = some send) (completes : s.Completes self send) :
    (s.delivered self send).below = s.below := by
  have meets : ∀ source, (s.receiver send.recipient).heldFrom source = [] := by
    rcases completes with ⟨header, -⟩ | ⟨raw, payload, -⟩
    · rw [header]
      exact fun source => rfl
    · rw [payload]
      exact fun source => rfl
  unfold below
  congr 1
  funext source recipient
  rw [coupled.read_delivered (Receiver.heldFrom source) rfl sending completes.receives]
  by_cases mine : source = self
  · subst mine
    have next : (s.delivered source send).sending source = send.next := Function.update_self ..
    rw [next, Sending.next, owed_start, sending]
    by_cases there : recipient = send.recipient
    · subst there
      have once := (List.nodup_cons.1 send.distinct).1
      rw [meets]
      simp [Receiver.heldFrom, Sending.owedTo, once]
    · simp [there, Ne.symm there, Sending.owedTo]
  · have same : (s.delivered self send).sending source = s.sending source :=
      Function.update_of_ne mine ..
    rw [same]
    split_ifs with there
    · subst there
      rw [meets]
      simp [Receiver.heldFrom, Ne.symm mine]
    · rfl

theorem below_updateClock {source : ProcessId n} (coupled : s.Coupled)
    (arrived : s.receiver self = .arrived source raw) :
    DistributedMonitor.step .simple serialization s.below (self, .receive source) = some (below { s with
      process := Function.update s.process self ((s.process self).receive .simple source raw)
      receiver := Function.update s.receiver self .logging }) := by
  have listening : (s.below.process self).receiving = .listening :=
    (coupled.placed self).listening (by rw [arrived]; rfl)
  have head : s.below.channel source self = raw :: (s.sending source).elim [] (·.owedTo self) := by
    simp [below, arrived, Receiver.heldFrom]
  simp only [DistributedMonitor.step, System.receive, listening, head]
  unfold below
  congr 2
  funext source' recipient
  by_cases mine : recipient = self
  · subst mine
    by_cases same : source' = source
    · subst same
      simp [Receiver.heldFrom]
    · simp [Receiver.heldFrom, same, arrived, Ne.symm same]
  · simp [mine]

theorem below_logsPacket (logging : s.receiver self = .logging) :
    below { s with receiver := Function.update s.receiver self .dispatching } = s.below := by
  unfold below
  congr 1
  funext source recipient
  by_cases mine : recipient = self
  · subst mine
    simp only [Function.update_self, logging]
    rfl
  · simp only [Function.update_of_ne mine]

theorem below_step (coupled : s.Coupled) (does : UnbufferedStep serialization s event s') :
    s.stepBelow event = none ∧ s'.below = s.below ∨
      ∃ e, s.stepBelow event = some (s.below, e) ∧
        DistributedMonitor.step .simple serialization s.below e = some s'.below := by
  cases does with
  | @acts self action process' acts ready =>
    have below : (s.acted self action process' none).below = s.below.update self (process', []) :=
      below_acted ready (by simp) fun recipient => rfl
    exact .inr ⟨(self, action), rfl, below ▸ step_of_act acts⟩
  | @sends self action order process' envelope acts ready free distinct all =>
    have owed : ∀ recipient, (Sending.start action.thread envelope.packet.raw order distinct).elim []
        (·.owedTo recipient) = addressed [envelope] recipient := by
      intro recipient
      rw [owed_start, addressed_singleton, ← all]
      simp
    have below : (s.acted self action process' (Sending.start action.thread envelope.packet.raw order
        distinct)).below = s.below.update self (process', [envelope]) :=
      below_acted ready (fun _ => free) owed
    exact .inr ⟨(self, action), rfl, below ▸ step_of_act acts⟩
  | header sending meets => exact .inl ⟨rfl, below_header sending meets⟩
  | delivers sending completes => exact .inl ⟨rfl, coupled.below_delivered sending completes⟩
  | updateClock arrived =>
    refine .inr ⟨_, ?_, coupled.below_updateClock arrived⟩
    simp only [stepBelow, arrived]
  | logsPacket logging => exact .inl ⟨rfl, below_logsPacket logging⟩
  | logs | throw => exact .inl ⟨rfl, rfl⟩

end UnbufferedSystem.Coupled

abbrev Below (contract : Permission (System n σ) (Event n σ)) :
    Permission (UnbufferedSystem n σ) (UnbufferedEvent n σ) :=
  fun trace s event => ∀ action ∈ event.2.act?,
    contract (recorded UnbufferedSystem.stepBelow trace) s.below (event.1, action)

/-- Without buffers a system does nothing that one with channels cannot do. -/
theorem below_run {contract : Permission (System n σ) (Event n σ)}
    (hears : ∀ trace s p source, contract trace s (p, .receive source))
    (run : UnbufferedRun serialization setup (Below contract) trace s) :
    Run .simple serialization setup contract (recorded UnbufferedSystem.stepBelow trace) s.below := by
  refine run.refines UnbufferedSystem.below _ (fun _ begins => by rw [begins]; rfl) ?_
  intro trace s event s' run may taken
  rcases (coupled_run run).below_step (unbufferedStep_cases taken).2 with silent | ⟨e, shows, moves⟩
  · exact .inl silent
  · refine .inr ⟨e, shows, ?_, moves⟩
    obtain ⟨self, action⟩ := event
    cases action with
    | act action order =>
      cases shows
      exact may action rfl
    | updateClock =>
      simp only [UnbufferedSystem.stepBelow] at shows
      split at shows
      · cases shows
        exact hears _ _ _ _
      · cases shows
    | deliver | log | throw => cases shows

theorem run_of_unbuffered (run : UnbufferedRun serialization setup contract trace s) :
    ∃ steps, Run .simple serialization setup (fun _ _ _ => True) steps s.below :=
  ⟨_, below_run (fun _ _ _ _ => trivial) (run.weaken fun _ _ _ _ _ _ => trivial)⟩

namespace UnbufferedSystem

theorem HeldUp.sends (held : s.HeldUp serialization q) : (s.sending q).isSome := by
  cases held with
  | clock sending | log sending | answer sending | queue sending | throw sending | release sending
  | callback sending =>
    rw [sending]
    rfl

theorem HeldUp.busy (held : s.HeldUp serialization q) (coupled : s.Coupled) :
    s.receiver q ≠ .header ∧ ∀ source raw, s.receiver q ≠ .payload source raw := by
  have past (inside : (s.receiver q).receives = false) :
      s.receiver q ≠ .header ∧ ∀ source raw, s.receiver q ≠ .payload source raw := by
    constructor <;> intros <;> intro there <;> rw [there] at inside <;> cases inside
  have placed := coupled.placed q
  cases held with
  | clock sending arrived =>
    rw [arrived]
    simp
  | log sending logging =>
    rw [logging]
    simp
  | answer sending received | throw sending received | release sending received =>
    rw [received] at placed
    exact past placed.place
  | queue sending handles =>
    unfold Process.handlesQueue at handles
    split at handles
    next packet received =>
      rw [received] at placed
      exact past placed.place
    next => cases handles
  | callback sending called =>
    have dispatching := ((sending ▸ placed).calling called).1
    rw [dispatching]
    simp

theorem act_of_free (ready : s.ready self action.thread = true) (free : s.sending self = none)
    {outcome : Outcome n σ}
    (acts : (s.process self).act serialization self action = some outcome)
    (single : outcome.2.length ≤ 1) : ∃ order, (s.act serialization self action order).isSome := by
  obtain ⟨process', sent⟩ := outcome
  have allowed : s.allows self action (process', sent) = true := by simp [allows, ready, free]
  cases sent with
  | nil => exact ⟨[], by simp [act, acts, allowed]⟩
  | cons envelope more =>
    cases more with
    | nil =>
      refine ⟨envelope.recipients.toList, ?_⟩
      simp [act, acts, allowed, Finset.nodup_toList]
    | cons => simp at single

theorem moves_of_act (action : Action n σ) (alive : s.terminated = false)
    (ready : s.ready self action.thread = true) (free : s.sending self = none) {outcome : Outcome n σ}
    (acts : (s.process self).act serialization self action = some outcome)
    (single : outcome.2.length ≤ 1) : s.Moves serialization := by
  obtain ⟨order, acted⟩ := act_of_free ready free acts single
  exact ⟨(self, .act action order), by simpa [unbufferedStep, alive] using acted⟩

theorem log_moves (alive : s.terminated = false) (free : s.sending self = none) :
    s.logging self = true ∨ s.receiver self = .logging → s.Moves serialization := by
  rintro (pending | logging)
  · refine ⟨(self, .log .main), ?_⟩
    simp [unbufferedStep, alive, log, free, pending]
  · refine ⟨(self, .log .receiving), ?_⟩
    simp [unbufferedStep, alive, log, free, logging]

theorem releasing_moves (alive : s.terminated = false) (free : s.sending self = none)
    {mutexName : MutexName} {unanswered : PacketSet n} {caller : Caller σ}
    (main : (s.process self).main = .releasing mutexName unanswered caller) : s.Moves serialization := by
  by_cases pending : s.logging self = true
  · exact log_moves alive free (.inl pending)
  have ready : s.ready self .main = true := by simp [ready, pending]
  cases waiting : unanswered.packets with
  | nil =>
    apply moves_of_act .released alive ready free
    · simp only [Process.act, Process.released, main, waiting]
      rfl
    · simp
  | cons request rest =>
    apply moves_of_act (.answerDeferred request) alive ready free
    · simp only [Process.act, Process.answerDeferred, main, waiting, List.mem_cons_self]
      rfl
    · simp

theorem act_silent (acts : (s.process q).act serialization q action = some (process', []))
    (ready : s.ready q action.thread = true)
    (admitted : ∀ send, s.sending q = some send →
      send.admits (s.process q) action process' = true) :
    s.act serialization q action [] = some (s.acted q action process' none) := by
  have allowed : s.allows q action (process', []) = true := by
    rw [allows, ready, Bool.true_and, Option.all_eq_true]
    exact fun send sending => admitted send sending
  simp [act, acts, allowed]

/-- A packet that has been logged is dispatched, or waits for a release that goes on, or ends the
job. -/
theorem received_moves (wf : (s.process self).WellFormed (setup.permanentSubscriptions self))
    (alive : s.terminated = false) (place : s.receiver self = .dispatching)
    (received : (s.process self).receiving = .received packet)
    (byMain : ∀ send ∈ s.sending self, send.thread = .main)
    (free : ¬s.HeldUp serialization self) : s.Moves serialization := by
  have ready : s.ready self .receiving = true := by simp [ready, place]
  by_cases waits : (s.process self).mustWait packet = true
  · cases sending : s.sending self with
    | some send => exact absurd (.release sending received waits) free
    | none =>
      unfold Process.mustWait at waits
      split at waits
      next main => exact releasing_moves alive sending main
      next => cases waits
  · have unhindered := Bool.eq_false_of_not_eq_true waits
    cases dispatches : (s.process self).dispatch serialization self packet with
    | error error =>
      have quiet : error.isLogged = true → s.sending self = none := by
        intro logged
        cases sending : s.sending self with
        | none => rfl
        | some send => exact absurd (.throw sending received dispatches logged) free
      refine ⟨(self, .throw), ?_⟩
      simpa [unbufferedStep, alive, throw, received, dispatches, place, unhindered] using quiet
    | ok outcome =>
      obtain ⟨process', sent⟩ := outcome
      have acts : (s.process self).act serialization self .dispatch = some (process', sent) := by
        simp [Process.act, Process.dispatchReceived, received, unhindered, dispatches,
          Except.toOption]
      cases sending : s.sending self with
      | none =>
        have does := ThreadStep.dispatch received unhindered dispatches (dispatched wf dispatches)
        exact moves_of_act .dispatch alive ready sending acts (threadStep_sent_single does)
      | some send =>
        cases sent with
        | nil =>
          have admitted : ∀ send, s.sending self = some send →
              send.admits (s.process self) .dispatch process' = true := by
            intro send sending
            simp only [Sending.admits, byMain send sending, decide_eq_true_eq]
            exact ⟨rfl, fun handles => free (.queue sending handles)⟩
          refine ⟨(self, .act .dispatch []), ?_⟩
          simp [unbufferedStep, alive, act_silent acts ready admitted]
        | cons envelope more => exact absurd (.answer sending received dispatches (by simp)) free

theorem recipient_moves (coupled : s.Coupled) (wf : s.below.WellFormed setup)
    (alive : s.terminated = false) {send : Sending n} (sending : s.sending self = some send)
    (free : ¬s.HeldUp serialization send.recipient) : s.Moves serialization := by
  cases place : s.receiver send.recipient with
  | header =>
    have paired := coupled.paired self send.recipient
    rw [place, sending] at paired
    have untaken : send.headerTaken = false := by
      simpa [Receiver.awaits, Sending.sendsPayload] using paired.symm
    refine ⟨(self, .deliver), ?_⟩
    by_cases short : send.raw.message = [] <;>
      simp [unbufferedStep, alive, deliver, sending, place, untaken, short]
  | payload source raw =>
    have paired := coupled.paired source send.recipient
    rw [place] at paired
    have owes : (s.sending source).any (·.sendsPayload send.recipient) = true := by
      rw [← paired]
      simp [Receiver.awaits]
    obtain ⟨other, sends, both⟩ := (Option.any_eq_true ..).mp owes
    obtain ⟨same, header⟩ := of_decide_eq_true both
    refine ⟨(source, .deliver), ?_⟩
    simp [unbufferedStep, alive, deliver, sends, same, place, header]
  | arrived source raw =>
    cases own : s.sending send.recipient with
    | some other => exact absurd (.clock own place) free
    | none =>
      refine ⟨(send.recipient, .updateClock), ?_⟩
      simp [unbufferedStep, alive, updateClock, place, own]
  | logging =>
    cases own : s.sending send.recipient with
    | some other => exact absurd (.log own place) free
    | none => exact log_moves alive own (.inr place)
  | dispatching =>
    have byMain : ∀ other ∈ s.sending send.recipient, other.thread = .main := by
      intro other own
      cases thread : other.thread with
      | main => rfl
      | receiving => exact absurd (.callback own thread) free
    have placed := coupled.placed send.recipient
    rw [place] at placed
    obtain ⟨packet, received⟩ := placed.inHand rfl byMain
    exact received_moves (wf send.recipient) alive place received byMain free

end UnbufferedSystem

/-- Whoever is inside `MPI_Send` with no step left to take is behind a ring. -/
theorem opened_moves (run : UnbufferedRun serialization setup contract trace s)
    (opened : ¬Closed (s.Waits serialization)) (sends : s.Sends) : s.Moves serialization := by
  obtain ⟨alive, p, first⟩ := sends
  obtain ⟨steps, below⟩ := run_of_unbuffered run
  obtain ⟨q, chain, last⟩ := exists_end opened p
  have inside : (s.sending q).isSome := by
    rcases chain.cases_tail with rfl | ⟨r, -, waits⟩
    · exact first
    · exact waits.2.sends
  obtain ⟨send, sending⟩ := Option.isSome_iff_exists.1 inside
  have free : ¬s.HeldUp serialization send.recipient :=
    fun held => last _ ⟨⟨send, sending, rfl⟩, held⟩
  exact UnbufferedSystem.recipient_moves (coupled_run run) (wellFormed_run below) alive sending free

namespace UnbufferedSystem

theorem HeldUp.of_same (held : s.HeldUp serialization q) (process : s'.process q = s.process q)
    (sending : s'.sending q = s.sending q) (receiver : s'.receiver q = s.receiver q) :
    s'.HeldUp serialization q := by
  cases held with
  | clock sends arrived => exact .clock (sending.trans sends) (receiver.trans arrived)
  | log sends logging => exact .log (sending.trans sends) (receiver.trans logging)
  | answer sends received dispatches answers =>
    exact .answer (sending.trans sends) (process ▸ received) (process ▸ dispatches) answers
  | queue sends handles => exact .queue (sending.trans sends) (process ▸ handles)
  | throw sends received throws logged =>
    exact .throw (sending.trans sends) (process ▸ received) (process ▸ throws) logged
  | release sends received waits =>
    exact .release (sending.trans sends) (process ▸ received) (process ▸ waits)
  | callback sends called => exact .callback (sending.trans sends) called

/-- The main thread may go on while a callback sends, and helps nobody by it. -/
theorem HeldUp.acts (held : s.HeldUp serialization q) (coupled : s.Coupled)
    (acts : (s.process q).act serialization q action = some (process', []))
    (ready : s.ready q action.thread = true)
    (admitted : ∀ send, s.sending q = some send →
      send.admits (s.process q) action process' = true) :
    (s.acted q action process' none).HeldUp serialization q := by
  obtain ⟨send, sending⟩ := Option.isSome_iff_exists.1 held.sends
  have allowed := admitted send sending
  cases thread : send.thread with
  | receiving => exact .callback sending thread
  | main =>
    simp only [Sending.admits, thread, decide_eq_true_eq] at allowed
    obtain ⟨rfl, -, packet, received⟩ := coupled.dispatches allowed.1 acts
    -- a dispatch that could be taken was not held up
    exfalso
    have place : s.receiver q = .dispatching := of_decide_eq_true ready
    simp only [Process.act, Process.dispatchReceived, received] at acts
    cases held with
    | clock sends arrived => cases arrived.symm.trans place
    | log sends logging => cases logging.symm.trans place
    | answer sends received' dispatches answers =>
      cases received.symm.trans received'
      split_ifs at acts
      rw [dispatches] at acts
      exact answers (congrArg Prod.snd (Option.some.inj acts))
    | queue sends handles => exact allowed.2 handles
    | throw sends received' throws =>
      cases received.symm.trans received'
      split_ifs at acts
      rw [throws] at acts
      cases acts
    | release sends received' waits =>
      cases received.symm.trans received'
      rw [if_pos waits] at acts
      cases acts
    | callback sends called =>
      cases sending.symm.trans sends
      cases thread.symm.trans called

theorem Waits.of_same (waits : s.Waits serialization p q) (toward : s'.sending p = s.sending p)
    (process : s'.process q = s.process q) (sending : s'.sending q = s.sending q)
    (receiver : s'.receiver q = s.receiver q) : s'.Waits serialization p q := by
  obtain ⟨⟨send, sends, same⟩, held⟩ := waits
  exact ⟨⟨send, toward.trans sends, same⟩, held.of_same process sending receiver⟩

theorem HeldUp.unmet (held : s.HeldUp serialization q) (coupled : s.Coupled) {met : Sending n}
    (meets : s.receiver met.recipient = .header ∨
      ∃ source raw, s.receiver met.recipient = .payload source raw) : q ≠ met.recipient := by
  rintro rfl
  rcases meets with header | ⟨source, raw, payload⟩
  · exact (held.busy coupled).1 header
  · exact (held.busy coupled).2 source raw payload

theorem Waits.unmet (waits : s.Waits serialization p q) (coupled : s.Coupled) {met : Sending n}
    (begins : s.sending self = some met)
    (meets : s.receiver met.recipient = .header ∨
      ∃ source raw, s.receiver met.recipient = .payload source raw) : p ≠ self := by
  obtain ⟨⟨send, sending, toward⟩, held⟩ := waits
  rintro rfl
  cases begins.symm.trans sending
  exact held.unmet coupled meets toward.symm

theorem Waits.busy (waits : s.Waits serialization p q) (free : s.sending self = none) :
    p ≠ self := by
  obtain ⟨⟨send, sending, -⟩, -⟩ := waits
  rintro rfl
  cases free.symm.trans sending

theorem Waits.stays {r : ProcessId n} (coupled : s.Coupled)
    (does : UnbufferedStep serialization s event s') (waits : s.Waits serialization p q)
    (on : s.Waits serialization q r) : s'.Waits serialization p q := by
  have held := waits.2
  cases does with
  | @acts self action process' acts ready admitted =>
    refine ⟨waits.1, ?_⟩
    by_cases mine : q = self
    · subst mine
      exact held.acts coupled acts ready admitted
    · obtain ⟨process, sending, receiver⟩ := s.acted_other mine action process' none
      exact held.of_same process sending receiver
  | @sends self action order process' envelope acts ready free distinct =>
    obtain ⟨-, here, -⟩ := s.acted_other (waits.busy free) action process' _
    obtain ⟨process, sending, receiver⟩ := s.acted_other (on.busy free) action process' _
    exact waits.of_same here process sending receiver
  | @header self met begins meets =>
    apply waits.of_same
    · exact Function.update_of_ne (waits.unmet coupled begins (.inl meets)) ..
    · rfl
    · exact Function.update_of_ne (on.unmet coupled begins (.inl meets)) ..
    · exact Function.update_of_ne (held.unmet coupled (.inl meets)) ..
  | @delivers self met begins completes =>
    have meets : s.receiver met.recipient = .header ∨
        ∃ source raw, s.receiver met.recipient = .payload source raw := by
      rcases completes with ⟨header, -⟩ | ⟨raw, payload, -⟩
      · exact .inl header
      · exact .inr ⟨self, raw, payload⟩
    have notThere := on.unmet coupled begins meets
    have unmet := held.unmet coupled meets
    apply waits.of_same
    · exact Function.update_of_ne (waits.unmet coupled begins meets) ..
    · rfl
    · exact Function.update_of_ne notThere ..
    · simp only [delivered]
      split_ifs
      · rw [Function.update_of_ne notThere, Function.update_of_ne unmet]
      · rw [Function.update_of_ne unmet]
  | @updateClock self source raw arrived free =>
    apply waits.of_same
    · rfl
    · exact Function.update_of_ne (on.busy free) ..
    · rfl
    · exact Function.update_of_ne (on.busy free) ..
  | logsPacket logging free =>
    exact waits.of_same rfl rfl rfl (Function.update_of_ne (on.busy free) ..)
  | logs | throw => exact waits.of_same rfl rfl rfl rfl

end UnbufferedSystem

/-- A ring that has closed never opens again: its threads stay inside `MPI_Send`. -/
theorem ring_stays (run : UnbufferedRun serialization setup contract trace s)
    (closed : Closed (s.Waits serialization))
    (taken : unbufferedStep serialization s event = some s') : Closed (s'.Waits serialization) :=
  closed.kept fun _ _ _ waits on => waits.stays (coupled_run run) (unbufferedStep_cases taken).2 on

theorem opened_run (run : UnbufferedRun serialization setup (closesNoRing serialization) trace s) :
    ¬Closed (s.Waits serialization) := by
  cases run with
  | start initial =>
    subst initial
    rintro ⟨p, ring⟩
    obtain ⟨q, ⟨⟨send, sending, -⟩, -⟩, -⟩ := Relation.TransGen.head'_iff.1 ring
    cases sending
  | next run may taken => exact may _ taken

/-- As long as no step closes a ring of processes that wait for each other inside `MPI_Send`, some
thread can take a step whenever some thread is inside `MPI_Send`. -/
theorem no_deadlock_unbuffered
    (run : UnbufferedRun serialization setup (closesNoRing serialization) trace s)
    (sends : s.Sends) : s.Moves serialization :=
  opened_moves run (opened_run run) sends

def UnbufferedSystem.sendsApart (s : UnbufferedSystem n σ) : Bool :=
  decide (∀ p, (s.sending p).all fun send => (s.sending send.recipient).isNone)

theorem opened_of_sendsApart (apart : s.sendsApart = true) : ¬Closed (s.Waits serialization) := by
  rintro ⟨p, ring⟩
  obtain ⟨q, ⟨⟨send, sending, rfl⟩, held⟩, -⟩ := Relation.TransGen.head'_iff.1 ring
  have alone := (Option.all_eq_true ..).mp (of_decide_eq_true apart p) send sending
  rw [Option.isNone_iff_eq_none] at alone
  have sends := held.sends
  rw [alone] at sends
  cases sends

theorem no_deadlock_unbuffered_two : ∃ trace s,
    UnbufferedRun unary (plain 2) (closesNoRing unary) trace s ∧ s.Sends ∧ s.Moves unary := by
  obtain ⟨trace, s, run, reached⟩ := exists_execution (unbufferedStep unary) (plain 2).unbuffered
    (fun _ s event => (unbufferedStep unary s event).all (·.sendsApart) = true)
    [(0, .act (.lock gate) []), (0, .act .queue [1]), (0, .deliver)]
    (fun _ (s : UnbufferedSystem 2 ℕ) => s.terminated = false ∧ (s.sending 0).isSome)
    (by decide +kernel)
  have sends : s.Sends := by
    obtain ⟨alive, sending⟩ := of_decide_eq_true reached
    exact ⟨alive, 0, sending⟩
  have opened : UnbufferedRun unary (plain 2) (closesNoRing unary) trace s := by
    apply run.weaken
    intro trace s event apart s' taken
    exact opened_of_sendsApart ((Option.all_eq_true ..).mp apart s' taken)
  exact ⟨trace, s, opened, sends, no_deadlock_unbuffered opened sends⟩

theorem stuck_in_callbacks (coupled : s.Coupled)
    (callbacks : ∀ p, ∃ send, s.sending p = some send ∧ send.thread = .receiving)
    (waiting : ∀ p, (s.process p).main.answers.isSome) : ¬s.Moves serialization := by
  rintro ⟨⟨p, action⟩, moves⟩
  obtain ⟨s', taken⟩ := Option.isSome_iff_exists.1 moves
  have busy : ∀ q, s.receiver q = .dispatching ∧ (s.process q).receiving = .listening := by
    intro q
    obtain ⟨send, sending, called⟩ := callbacks q
    exact (sending ▸ coupled.placed q).calling called
  obtain ⟨send, sending, called⟩ := callbacks p
  obtain ⟨-, does⟩ := unbufferedStep_cases taken
  cases does with
  | acts acts ready admitted =>
    have allowed := admitted send sending
    simp only [Sending.admits, called, decide_eq_true_eq] at allowed
    obtain ⟨received, waits⟩ := Option.isSome_iff_exists.1 (waiting p)
    have main := mainStep_of_act (isMain_of_thread allowed.1) acts
    rcases mainStep_answers main waits with rfl | rfl
    · exact allowed.2.1 rfl
    · exact allowed.2.1 rfl
  | sends acts ready free => cases free.symm.trans sending
  | header begins meets =>
    rw [(busy _).1] at meets
    cases meets
  | delivers begins completes =>
    rcases completes with ⟨header, -⟩ | ⟨raw, payload, -⟩
    · rw [(busy _).1] at header
      cases header
    · rw [(busy _).1] at payload
      cases payload
  | updateClock arrived free | logsPacket arrived free | logs free =>
    cases free.symm.trans sending
  | throw received => cases (busy p).2.symm.trans received

/-- Two processes ask for different mutexes, and both receiving threads come to agree at once. -/
theorem deadlock_unbuffered_two : ¬∀ trace s,
    UnbufferedRun unary (paired 2) (fun _ _ _ => True) trace s → s.Sends → s.Moves unary := by
  intro free
  obtain ⟨trace, s, run, reached⟩ := exists_execution (unbufferedStep unary) (paired 2).unbuffered
    (fun _ _ _ => True)
    [(0, .act (.lock gate) []), (0, .act .queue [1]), (1, .act (.lock lane) []),
      (1, .act .queue [0]), (0, .deliver), (0, .deliver), (1, .deliver), (1, .deliver),
      (0, .updateClock), (1, .updateClock), (0, .log .receiving), (1, .log .receiving),
      (0, .act .dispatch [1]), (1, .act .dispatch [0])]
    (fun _ (s : UnbufferedSystem 2 ℕ) => s.terminated = false ∧ ∀ p,
      (s.sending p).any (·.thread = .receiving) ∧ (s.process p).main.answers.isSome)
    (by decide +kernel)
  obtain ⟨alive, everywhere⟩ := of_decide_eq_true reached
  have callbacks : ∀ p, ∃ send, s.sending p = some send ∧ send.thread = .receiving := by
    intro p
    obtain ⟨send, sending, called⟩ := (Option.any_eq_true ..).mp (everywhere p).1
    exact ⟨send, sending, of_decide_eq_true called⟩
  obtain ⟨send, sending, -⟩ := callbacks 0
  exact stuck_in_callbacks (coupled_run run) callbacks (fun p => (everywhere p).2)
    (free trace s run ⟨alive, 0, by rw [sending]; rfl⟩)

end DistributedMonitor
