import GameServer.Machine
import Mathlib.Algebra.Order.Ring.Int
import Mathlib.Data.List.Infix

namespace GameServer

abbrev Message := List UInt8

structure WebSocketSession where
  maxQueueMessages : Nat
  maxQueueBytes : Nat
  sendQueue : List Message := []
  queuedBytes : Nat := 0
  writing : Bool := false
  closing : Bool := false
deriving DecidableEq, Repr

namespace WebSocketSession

def wrapSize (n : Nat) : Nat := n % 2 ^ 64

def OverLimit (ws : WebSocketSession) (message : Message) : Prop :=
  ws.sendQueue.length ≥ ws.maxQueueMessages ∨
    wrapSize (ws.queuedBytes + wrapSize message.length) > ws.maxQueueBytes

instance (ws : WebSocketSession) (message : Message) : Decidable (ws.OverLimit message) :=
  inferInstanceAs (Decidable (_ ∨ _))

def triggerBackpressureClose (ws : WebSocketSession) : WebSocketSession :=
  if ws.closing then ws else { ws with closing := true, sendQueue := [], queuedBytes := 0 }

/-- The second component is what is handed to async_write. -/
def writeNext (ws : WebSocketSession) : WebSocketSession × Option Message :=
  if ws.sendQueue = [] ∨ ws.closing then (ws, none)
  else ({ ws with writing := true }, ws.sendQueue.head?)

def pushBack (ws : WebSocketSession) (message : Message) : WebSocketSession :=
  { ws with
    sendQueue := ws.sendQueue ++ [message]
    queuedBytes := wrapSize (ws.queuedBytes + wrapSize message.length) }

def enqueueMessage (ws : WebSocketSession) (message : Message) : WebSocketSession × Option Message :=
  if ws.closing then (ws, none)
  else if ws.OverLimit message then (ws.triggerBackpressureClose, none)
  else if ws.writing then (ws.pushBack message, none)
  else (ws.pushBack message).writeNext

def popFront (ws : WebSocketSession) : WebSocketSession :=
  match ws.sendQueue with
  | [] => ws
  | front :: rest =>
    { ws with sendQueue := rest, queuedBytes := wrapSize (ws.queuedBytes + 2 ^ 64 - wrapSize front.length) }

def onWrite (ws : WebSocketSession) (ok : Bool) : WebSocketSession × Option Message :=
  let ws := ws.popFront
  if ok then
    let ws := { ws with writing := false }
    if ws.sendQueue = [] then (ws, none) else ws.writeNext
  else ({ ws with closing := true }, none)

def Accepts (ws : WebSocketSession) (message : Message) : Prop := ws.closing = false ∧ ¬ ws.OverLimit message

instance (ws : WebSocketSession) (message : Message) : Decidable (ws.Accepts message) :=
  inferInstanceAs (Decidable (_ ∧ _))

end WebSocketSession

/-- A connection over time: the writes started and not completed yet, and
everything handed to async_write and accepted so far. -/
structure Connection where
  ws : WebSocketSession
  inFlight : List Message := []
  handed : List Message := []
  accepted : List Message := []
deriving DecidableEq, Repr

namespace Connection

open WebSocketSession

inductive Action
  | enqueueMessage (message : Message)
  | onWrite (ok : Bool)
  | backpressureClose
deriving DecidableEq, Repr

def startWrite (c : Connection) (started : WebSocketSession × Option Message) : Connection :=
  { c with
    ws := started.1
    inFlight := c.inFlight ++ started.2.toList
    handed := c.handed ++ started.2.toList }

/-- A completion belongs to the oldest write. -/
def step (c : Connection) : Action → Option Connection
  | .enqueueMessage message =>
    let accepted := if c.ws.Accepts message then c.accepted ++ [message] else c.accepted
    some { c.startWrite (c.ws.enqueueMessage message) with accepted := accepted }
  | .onWrite ok =>
    if c.inFlight = [] then none
    else some (({ c with inFlight := c.inFlight.tail } : Connection).startWrite (c.ws.onWrite ok))
  | .backpressureClose => some { c with ws := c.ws.triggerBackpressureClose }

def machine (maxQueueMessages maxQueueBytes : Nat) : Machine Connection Action where
  init := { ws := { maxQueueMessages := maxQueueMessages, maxQueueBytes := maxQueueBytes } }
  step := step

/-- The three situations of a connection. While it is open, the one write
under way is that of the front, and what follows it waits for its completion. -/
inductive Inv (c : Connection) : Prop
  | idle (hopen : c.ws.closing = false) (hwriting : c.ws.writing = false) (hqueue : c.ws.sendQueue = [])
      (hflight : c.inFlight = []) (hhanded : c.handed = c.accepted)
  | sending (front : Message) (rest : List Message) (hopen : c.ws.closing = false)
      (hwriting : c.ws.writing = true) (hqueue : c.ws.sendQueue = front :: rest)
      (hflight : c.inFlight = [front]) (hhanded : c.handed ++ rest = c.accepted)
  | closing (hclosing : c.ws.closing = true) (hflight : c.inFlight.length ≤ 1)
      (hhanded : c.handed <+: c.accepted)

theorem Inv.handed {c : Connection} (h : c.Inv) : c.handed <+: c.accepted := by
  cases h with
  | idle _ _ _ _ hhanded => exact hhanded ▸ List.prefix_rfl
  | sending _ _ _ _ _ _ hhanded => exact hhanded ▸ List.prefix_append _ _
  | closing _ _ hhanded => exact hhanded

theorem Inv.one {c : Connection} (h : c.Inv) : c.inFlight.length ≤ 1 := by
  cases h with
  | idle _ _ _ hflight => simp [hflight]
  | sending _ _ _ _ _ hflight => simp [hflight]
  | closing _ hflight => exact hflight

theorem Inv.enqueue {c : Connection} (h : c.Inv) {message : Message} {d : Connection}
    (hs : c.step (.enqueueMessage message) = some d) : d.Inv := by
  simp only [step, Option.some.injEq] at hs
  subst hs
  by_cases hc : c.ws.closing = true
  · have hno : ¬ c.ws.Accepts message := by simp [Accepts, hc]
    apply Inv.closing
    · simp [enqueueMessage, startWrite, hc]
    · simpa [enqueueMessage, startWrite, hc] using h.one
    · simpa [enqueueMessage, startWrite, hc, hno] using h.handed
  have hopen : c.ws.closing = false := by simpa using hc
  by_cases hover : c.ws.OverLimit message
  · have hno : ¬ c.ws.Accepts message := by simp [Accepts, hover]
    apply Inv.closing
    · simp [enqueueMessage, startWrite, hopen, hover, triggerBackpressureClose]
    · simpa [enqueueMessage, startWrite, hopen, hover] using h.one
    · simpa [enqueueMessage, startWrite, hopen, hover, hno] using h.handed
  have hyes : c.ws.Accepts message := ⟨hopen, hover⟩
  cases h with
  | idle _ hwriting hqueue hflight hhanded =>
      have hw : c.ws.enqueueMessage message =
          ({ c.ws.pushBack message with writing := true }, some message) := by
        simp [enqueueMessage, hopen, hover, hwriting, writeNext, pushBack, hqueue]
      apply Inv.sending message []
      · simp [startWrite, hw, pushBack, hopen]
      · simp [startWrite, hw]
      · simp [startWrite, hw, pushBack, hqueue]
      · simp [startWrite, hw, hflight]
      · simp [startWrite, hw, hyes, hhanded]
  | sending front rest _ hwriting hqueue hflight hhanded =>
      have hw : c.ws.enqueueMessage message = (c.ws.pushBack message, none) := by
        simp [enqueueMessage, hopen, hover, hwriting]
      apply Inv.sending front (rest ++ [message])
      · simp [startWrite, hw, pushBack, hopen]
      · simp [startWrite, hw, pushBack, hwriting]
      · simp [startWrite, hw, pushBack, hqueue]
      · simp [startWrite, hw, hflight]
      · simp [startWrite, hw, hyes, ← hhanded]
  | closing hclosing => exact absurd hclosing hc

theorem popFront_closing (ws : WebSocketSession) : ws.popFront.closing = ws.closing := by
  cases h : ws.sendQueue <;> simp [popFront, h]

theorem onWrite_closing {ws : WebSocketSession} (h : ws.closing = true) (ok : Bool) :
    (ws.onWrite ok).1.closing = true ∧ (ws.onWrite ok).2 = none := by
  cases ok with
  | false => exact ⟨rfl, rfl⟩
  | true =>
      have hpop : ws.popFront.closing = true := (popFront_closing ws).trans h
      by_cases hq : ws.popFront.sendQueue = []
      · simp [onWrite, hq, hpop]
      · simp [onWrite, writeNext, hq, hpop]

theorem Inv.complete {c : Connection} (h : c.Inv) {ok : Bool} {d : Connection}
    (hs : c.step (.onWrite ok) = some d) : d.Inv := by
  simp only [step] at hs
  split at hs
  next => cases hs
  next hne =>
    simp only [Option.some.injEq] at hs
    subst hs
    cases h with
    | idle _ _ _ hflight => exact absurd hflight hne
    | sending front rest hopen hwriting hqueue hflight hhanded =>
        cases ok with
        | false =>
            apply Inv.closing rfl
            · simp [startWrite, onWrite, hflight]
            · simp [startWrite, onWrite, ← hhanded]
        | true =>
            cases rest with
            | nil =>
                apply Inv.idle
                · simp [startWrite, onWrite, popFront, hqueue, hopen]
                · simp [startWrite, onWrite, popFront, hqueue]
                · simp [startWrite, onWrite, popFront, hqueue]
                · simp [startWrite, onWrite, popFront, hqueue, hflight]
                · simpa [startWrite, onWrite, popFront, hqueue] using hhanded
            | cons next rest =>
                apply Inv.sending next rest
                · simp [startWrite, onWrite, popFront, writeNext, hqueue, hopen]
                · simp [startWrite, onWrite, popFront, writeNext, hqueue, hopen]
                · simp [startWrite, onWrite, popFront, writeNext, hqueue, hopen]
                · simp [startWrite, onWrite, popFront, writeNext, hqueue, hopen, hflight]
                · simpa [startWrite, onWrite, popFront, writeNext, hqueue, hopen] using hhanded
    | closing hclosing hflight hhanded =>
        obtain ⟨hstill, hnone⟩ := onWrite_closing hclosing ok
        apply Inv.closing hstill
        · simp only [startWrite, hnone, Option.toList_none, List.append_nil, List.length_tail]
          omega
        · simpa [startWrite, hnone] using hhanded

theorem Inv.close {c : Connection} (h : c.Inv) : ({ c with ws := c.ws.triggerBackpressureClose } : Connection).Inv := by
  refine .closing ?_ h.one h.handed
  by_cases hc : c.ws.closing = true
  · simp [triggerBackpressureClose, hc]
  · simp [triggerBackpressureClose, hc]

theorem Inv.step {c d : Connection} {a : Action} (h : c.Inv) (hs : c.step a = some d) : d.Inv := by
  cases a with
  | enqueueMessage message => exact h.enqueue hs
  | onWrite ok => exact h.complete hs
  | backpressureClose =>
      cases hs
      exact h.close

theorem inv_init (n m : Nat) : (machine n m).init.Inv := .idle rfl rfl rfl rfl rfl

theorem reachable_inv {n m : Nat} {c : Connection} (h : (machine n m).Reachable c) : c.Inv := by
  refine Machine.Leads.preserves ?_ h (inv_init n m)
  intro c a d hc hs
  exact hc.step hs

theorem closing_step {c d : Connection} {a : Action} (hc : c.ws.closing = true) (hs : c.step a = some d) :
    d.ws.closing = true ∧ d.handed = c.handed ∧ d.accepted = c.accepted := by
  cases a with
  | enqueueMessage message =>
      have hno : ¬ c.ws.Accepts message := by simp [Accepts, hc]
      simp only [Connection.step, Option.some.injEq] at hs
      subst hs
      simp [startWrite, enqueueMessage, hc, hno]
  | onWrite ok =>
      obtain ⟨hstill, hnone⟩ := onWrite_closing hc ok
      simp only [Connection.step] at hs
      split at hs
      next => cases hs
      next =>
        cases hs
        simp [startWrite, hstill, hnone]
  | backpressureClose =>
      cases hs
      simp [triggerBackpressureClose, hc]

theorem closing_leads {n m : Nat} {c d : Connection} (h : (machine n m).Leads c d) (hc : c.ws.closing = true) :
    d.ws.closing = true ∧ d.handed = c.handed ∧ d.accepted = c.accepted := by
  refine h.preserves (P := fun d => d.ws.closing = true ∧ d.handed = c.handed ∧ d.accepted = c.accepted) ?_
    ⟨hc, rfl, rfl⟩
  intro d a e hd hs
  obtain ⟨hclosing, hhanded, haccepted⟩ := closing_step hd.1 hs
  exact ⟨hclosing, hhanded.trans hd.2.1, haccepted.trans hd.2.2⟩

/-- Messages go out in the order they were accepted, one at a time, none is
left waiting on an open connection, and a closing one is done. -/
theorem sends_in_order {n m : Nat} {c : Connection} (h : (machine n m).Reachable c) :
    c.handed <+: c.accepted ∧ c.inFlight.length ≤ 1 ∧
      (c.ws.closing = false → c.ws.sendQueue ≠ [] → c.inFlight.length = 1) ∧
      (c.ws.closing = true → ∀ d, (machine n m).Leads c d →
        d.ws.closing = true ∧ d.handed = c.handed ∧ d.accepted = c.accepted) := by
  have hinv := reachable_inv h
  refine ⟨hinv.handed, hinv.one, ?_, fun hc d hd => closing_leads hd hc⟩
  intro hopen hne
  cases hinv with
  | idle _ _ hqueue => exact absurd hqueue hne
  | sending _ _ _ _ _ hflight => simp [hflight]
  | closing hclosing => simp [hopen] at hclosing

theorem sends_in_order_queued : ∃ c, (machine 2 1024).run
    [.enqueueMessage [1], .enqueueMessage [2], .onWrite true, .enqueueMessage [3]] = some c ∧
      c.ws.sendQueue = [[2], [3]] ∧ c.handed = [[1], [2]] ∧ c.inFlight.length = 1 := by
  obtain ⟨c, hc, hr, hopen, hqueue, hhanded⟩ := Machine.exists_of_run (M := machine 2 1024)
    [.enqueueMessage [1], .enqueueMessage [2], .onWrite true, .enqueueMessage [3]]
    (fun c => c.ws.closing = false ∧ c.ws.sendQueue = [[2], [3]] ∧ c.handed = [[1], [2]]) (by decide)
  exact ⟨c, hc, hqueue, hhanded, (sends_in_order hr).2.2.1 hopen (by simp [hqueue])⟩

def InFlightStored (c : Connection) : Prop := ∀ message ∈ c.inFlight, c.ws.sendQueue.head? = some message

/-- The step closes the connection for backpressure while a write is under
way. -/
def ClosesDuringWrite (c : Connection) : Action → Prop
  | .enqueueMessage message => c.inFlight ≠ [] ∧ c.ws.closing = false ∧ c.ws.OverLimit message
  | .onWrite _ => False
  | .backpressureClose => c.inFlight ≠ [] ∧ c.ws.closing = false

theorem Inv.stored_of_open {c : Connection} (h : c.Inv) (hopen : c.ws.closing = false) : c.InFlightStored := by
  intro message hm
  cases h with
  | idle _ _ _ hflight => simp [hflight] at hm
  | sending _ _ _ _ hqueue hflight =>
      rw [hflight, List.mem_singleton] at hm
      simp [hqueue, hm]
  | closing hclosing => simp [hopen] at hclosing

theorem stored_of_cleared {c : Connection} (h : c.ws.sendQueue = []) : c.InFlightStored ↔ c.inFlight = [] := by
  constructor
  · intro hs
    by_contra hne
    obtain ⟨message, hm⟩ := List.exists_mem_of_ne_nil _ hne
    simpa [h] using hs message hm
  · intro hf message hm
    simp [hf] at hm

theorem stored_of_idle {c : Connection} (h : c.inFlight = []) : c.InFlightStored := by
  intro message hm
  simp [h] at hm

theorem Inv.stored_of_complete {c d : Connection} (h : c.Inv) {ok : Bool} (hs : c.step (.onWrite ok) = some d) :
    d.InFlightStored := by
  have hd := h.step hs
  have htail : c.inFlight.tail = [] := by
    have hone := h.one
    exact List.length_eq_zero_iff.mp (by rw [List.length_tail]; omega)
  simp only [Connection.step] at hs
  split at hs
  next => cases hs
  next hne =>
    cases hs
    by_cases hstarted : (c.ws.onWrite ok).2 = none
    · exact stored_of_idle (by simp [startWrite, htail, hstarted])
    · apply hd.stored_of_open
      cases hd with
      | idle hopen => exact hopen
      | sending _ _ hopen => exact hopen
      | closing hclosing =>
          exfalso
          cases ok with
          | false => exact hstarted rfl
          | true =>
              have hkeep : (c.ws.onWrite true).1.closing = c.ws.closing := by
                rw [← popFront_closing c.ws]
                by_cases hq : c.ws.popFront.sendQueue = []
                · simp [onWrite, hq]
                · by_cases hc : c.ws.popFront.closing = true
                  · simp [onWrite, writeNext, hq, hc]
                  · simp [onWrite, writeNext, hq, hc]
              exact hstarted (onWrite_closing (hkeep ▸ hclosing) true).2

theorem stored_step {c d : Connection} {a : Action} (h : c.Inv) (hp : c.InFlightStored)
    (hs : c.step a = some d) : d.InFlightStored ↔ ¬ c.ClosesDuringWrite a := by
  have hd := h.step hs
  cases a with
  | enqueueMessage message =>
      simp only [Connection.step, Option.some.injEq] at hs
      subst hs
      by_cases hc : c.ws.closing = true
      · have hno : ¬ c.ClosesDuringWrite (.enqueueMessage message) := by simp [ClosesDuringWrite, hc]
        exact iff_of_true (by simpa [InFlightStored, startWrite, enqueueMessage, hc] using hp) hno
      have hopen : c.ws.closing = false := by simpa using hc
      by_cases hover : c.ws.OverLimit message
      · rw [stored_of_cleared (by simp [startWrite, enqueueMessage, triggerBackpressureClose, hopen, hover])]
        simp [startWrite, enqueueMessage, ClosesDuringWrite, hopen, hover]
      · have hno : ¬ c.ClosesDuringWrite (.enqueueMessage message) := by simp [ClosesDuringWrite, hover]
        refine iff_of_true (hd.stored_of_open ?_) hno
        simp only [startWrite, enqueueMessage, hopen, hover, Bool.false_eq_true, if_false]
        split
        next => exact hopen
        next =>
          simp [writeNext, pushBack, hopen]
  | onWrite ok => exact iff_of_true (h.stored_of_complete hs) (fun hno => hno)
  | backpressureClose =>
      cases hs
      by_cases hc : c.ws.closing = true
      · have hno : ¬ c.ClosesDuringWrite .backpressureClose := by simp [ClosesDuringWrite, hc]
        exact iff_of_true (by simpa [InFlightStored, triggerBackpressureClose, hc] using hp) hno
      · rw [stored_of_cleared (by simp [triggerBackpressureClose, hc])]
        simp [ClosesDuringWrite, hc]

/-- A run keeps the buffers of its writes exactly when no step of it closes
the connection for backpressure while a write is under way. -/
theorem inFlightStored_iff (n m : Nat) (as : List Action) :
    (machine n m).Always InFlightStored (machine n m).init as ↔
      (machine n m).Obeys (fun c a => ¬ c.ClosesDuringWrite a) (machine n m).init as := by
  refine Machine.always_iff_obeys (I := Inv) ?_ ?_ as _ (inv_init n m) (stored_of_idle rfl)
  · intro c a d hc hs
    exact hc.step hs
  · intro c a d hc hp hs
    exact stored_step hc hp hs

/-- Three messages on a connection with room for two: the third closes it
while the first is being written. -/
theorem not_inFlightStored_of_slow_consumer : ∃ c, (machine 2 1024).run
    [.enqueueMessage [1], .enqueueMessage [2], .enqueueMessage [3]] = some c ∧
      c.inFlight = [[1]] ∧ c.ws.sendQueue = [] ∧ ¬ c.InFlightStored := by
  obtain ⟨c, hc, -, hflight, hqueue⟩ := Machine.exists_of_run (M := machine 2 1024)
    [.enqueueMessage [1], .enqueueMessage [2], .enqueueMessage [3]]
    (fun c => c.inFlight = [[1]] ∧ c.ws.sendQueue = []) (by decide)
  refine ⟨c, hc, hflight, hqueue, ?_⟩
  rw [stored_of_cleared hqueue, hflight]
  simp

end Connection

end GameServer
