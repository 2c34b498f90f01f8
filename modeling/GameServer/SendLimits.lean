import GameServer.SendQueue
import Mathlib.Algebra.BigOperators.Group.List.Basic

namespace GameServer

namespace WebSocketSession

def storedBytes (ws : WebSocketSession) : Nat := (ws.sendQueue.map List.length).sum

structure Accounted (ws : WebSocketSession) : Prop where
  counted : ws.queuedBytes = ws.storedBytes
  popped : ∀ front rest, ws.sendQueue = front :: rest →
    front.length ≤ ws.queuedBytes ∧ ws.popFront.queuedBytes = ws.queuedBytes - front.length

theorem wrapSize_of_lt {n : Nat} (h : n < 2 ^ 64) : wrapSize n = n := Nat.mod_eq_of_lt h

theorem storedBytes_cons {ws : WebSocketSession} {front : Message} {rest : List Message}
    (h : ws.sendQueue = front :: rest) : ws.storedBytes = front.length + (rest.map List.length).sum := by
  rw [storedBytes, h, List.map_cons, List.sum_cons]

theorem storedBytes_pushBack (ws : WebSocketSession) (message : Message) :
    (ws.pushBack message).storedBytes = ws.storedBytes + message.length := by
  simp [storedBytes, pushBack]

/-- What keeps the account through a run. The queue itself is in memory, so
its size is a number of 64 bits. -/
structure Balanced (n m : Nat) (ws : WebSocketSession) : Prop where
  maxMessages : ws.maxQueueMessages = n
  maxBytes : ws.maxQueueBytes = m
  counted : ws.queuedBytes = ws.storedBytes
  small : ws.storedBytes < 2 ^ 64
  messages : ws.sendQueue.length ≤ n
  bytes : ws.queuedBytes ≤ m

variable {n m : Nat} {ws : WebSocketSession}

theorem Balanced.congr {ws' : WebSocketSession} (h : ws.Balanced n m) (hq : ws'.sendQueue = ws.sendQueue)
    (hb : ws'.queuedBytes = ws.queuedBytes) (hn : ws'.maxQueueMessages = ws.maxQueueMessages)
    (hm : ws'.maxQueueBytes = ws.maxQueueBytes) : ws'.Balanced n m where
  maxMessages := hn.trans h.maxMessages
  maxBytes := hm.trans h.maxBytes
  counted := by
    rw [hb, storedBytes, hq]
    exact h.counted
  small := by
    rw [storedBytes, hq]
    exact h.small
  messages := hq ▸ h.messages
  bytes := hb ▸ h.bytes

theorem Balanced.cleared (hn : ws.maxQueueMessages = n) (hm : ws.maxQueueBytes = m) (hq : ws.sendQueue = [])
    (hb : ws.queuedBytes = 0) : ws.Balanced n m where
  maxMessages := hn
  maxBytes := hm
  counted := by simp [storedBytes, hq, hb]
  small := by simp [storedBytes, hq]
  messages := by simp [hq]
  bytes := by simp [hb]

theorem Balanced.size_pop (h : ws.Balanced n m) {front : Message} {rest : List Message}
    (hq : ws.sendQueue = front :: rest) :
    front.length ≤ ws.queuedBytes ∧ ws.popFront.queuedBytes = ws.queuedBytes - front.length := by
  have hcounted := h.counted
  have hsmall := h.small
  have hcons := storedBytes_cons hq
  have hfront : wrapSize front.length = front.length := wrapSize_of_lt (by omega)
  refine ⟨by omega, ?_⟩
  simp only [popFront, hq, hfront]
  rw [wrapSize]
  omega

theorem Balanced.accounted (h : ws.Balanced n m) : ws.Accounted where
  counted := h.counted
  popped := fun _ _ hq => h.size_pop hq

theorem Balanced.popFront (h : ws.Balanced n m) : ws.popFront.Balanced n m := by
  cases hq : ws.sendQueue with
  | nil =>
      rw [WebSocketSession.popFront, hq]
      exact h
  | cons front rest =>
      obtain ⟨hle, hpop⟩ := h.size_pop hq
      have hcons := storedBytes_cons hq
      have hcounted := h.counted
      have hsmall := h.small
      have hmessages := h.messages
      have hbytes := h.bytes
      have hrest : ws.popFront.storedBytes = (rest.map List.length).sum := by
        simp [storedBytes, WebSocketSession.popFront, hq]
      have hlen : ws.popFront.sendQueue.length + 1 = ws.sendQueue.length := by
        simp [WebSocketSession.popFront, hq]
      refine ⟨?_, ?_, by omega, by omega, by omega, by omega⟩
      · simpa [WebSocketSession.popFront, hq] using h.maxMessages
      · simpa [WebSocketSession.popFront, hq] using h.maxBytes

section Fitting

variable {message : Message} (h : ws.Balanced n m) (hfit : ws.storedBytes + message.length < 2 ^ 64)

include h hfit

theorem overLimit_iff :
    ws.OverLimit message ↔ ws.sendQueue.length + 1 > n ∨ ws.storedBytes + message.length > m := by
  have hlen : wrapSize message.length = message.length := wrapSize_of_lt (by omega)
  have hsum : wrapSize (ws.queuedBytes + message.length) = ws.storedBytes + message.length := by
    rw [h.counted, wrapSize_of_lt hfit]
  rw [OverLimit, hlen, hsum, h.maxMessages, h.maxBytes]
  omega

theorem Balanced.pushBack (hover : ¬ ws.OverLimit message) : (ws.pushBack message).Balanced n m := by
  rw [overLimit_iff h hfit, not_or] at hover
  have hstored := storedBytes_pushBack ws message
  have hqueued : (ws.pushBack message).queuedBytes = ws.storedBytes + message.length := by
    simp only [WebSocketSession.pushBack]
    rw [wrapSize_of_lt (show message.length < 2 ^ 64 by omega), h.counted, wrapSize_of_lt hfit]
  refine ⟨h.maxMessages, h.maxBytes, by omega, by omega, ?_, by omega⟩
  simp only [WebSocketSession.pushBack, List.length_append, List.length_singleton]
  omega

end Fitting

theorem Balanced.writeNext (h : ws.Balanced n m) : ws.writeNext.1.Balanced n m := by
  rw [WebSocketSession.writeNext]
  split
  next => exact h
  next => exact h.congr rfl rfl rfl rfl

theorem Balanced.close (h : ws.Balanced n m) : ws.triggerBackpressureClose.Balanced n m := by
  rw [triggerBackpressureClose]
  split
  next => exact h
  next => exact .cleared h.maxMessages h.maxBytes rfl rfl

theorem Balanced.enqueueMessage (h : ws.Balanced n m) {message : Message}
    (hfit : ws.storedBytes + message.length < 2 ^ 64) : (ws.enqueueMessage message).1.Balanced n m := by
  rw [WebSocketSession.enqueueMessage]
  split
  next => exact h
  next =>
    split
    next => exact h.close
    next hover =>
      have hpush := h.pushBack hfit hover
      split
      next => exact hpush
      next => exact hpush.writeNext

theorem Balanced.onWrite (h : ws.Balanced n m) (ok : Bool) : (ws.onWrite ok).1.Balanced n m := by
  have hpop := h.popFront
  cases ok with
  | false => exact hpop.congr rfl rfl rfl rfl
  | true =>
      have hidle : ({ ws.popFront with writing := false } : WebSocketSession).Balanced n m :=
        hpop.congr rfl rfl rfl rfl
      simp only [WebSocketSession.onWrite, if_true]
      split
      next => exact hidle
      next => exact hidle.writeNext

theorem enqueueMessage_open (hopen : ws.closing = false) (message : Message) :
    ((ws.enqueueMessage message).1.closing = true ↔ ws.OverLimit message) ∧
      (ws.OverLimit message → ws.enqueueMessage message = (ws.triggerBackpressureClose, none)) ∧
      (¬ ws.OverLimit message → (ws.enqueueMessage message).1.sendQueue = ws.sendQueue ++ [message]) := by
  by_cases hover : ws.OverLimit message
  · have hclose : ws.enqueueMessage message = (ws.triggerBackpressureClose, none) := by
      simp [WebSocketSession.enqueueMessage, hopen, hover]
    have hclosing : ws.triggerBackpressureClose.closing = true := by simp [triggerBackpressureClose, hopen]
    exact ⟨iff_of_true (by rw [hclose]; exact hclosing) hover, fun _ => hclose, fun hno => absurd hover hno⟩
  · have hpush : (ws.enqueueMessage message).1.closing = false ∧
        (ws.enqueueMessage message).1.sendQueue = ws.sendQueue ++ [message] := by
      by_cases hw : ws.writing = true
      · simp [WebSocketSession.enqueueMessage, hopen, hover, hw, WebSocketSession.pushBack]
      · simp [WebSocketSession.enqueueMessage, hopen, hover, hw, WebSocketSession.pushBack,
          WebSocketSession.writeNext]
    exact ⟨iff_of_false (by simp [hpush.1]) hover, fun he => absurd he hover, fun _ => hpush.2⟩

end WebSocketSession

namespace Connection

open WebSocketSession

/-- The new message and those in the queue are strings in memory at the same
time, so together they are shorter than the address space. -/
def FitsMemory (c : Connection) : Action → Prop
  | .enqueueMessage message => c.ws.storedBytes + message.length < 2 ^ 64
  | _ => True

instance (c : Connection) (a : Action) : Decidable (c.FitsMemory a) :=
  match a with
  | .enqueueMessage _ => inferInstanceAs (Decidable (_ < _))
  | .onWrite _ | .backpressureClose => inferInstanceAs (Decidable True)

def inMemory (n m : Nat) : Machine Connection Action := (machine n m).restrict FitsMemory

theorem balanced_step {n m : Nat} {c d : Connection} {a : Action} (h : c.ws.Balanced n m)
    (hfit : c.FitsMemory a) (hs : c.step a = some d) : d.ws.Balanced n m := by
  cases a with
  | enqueueMessage message =>
      simp only [Connection.step, Option.some.injEq] at hs
      subst hs
      exact h.enqueueMessage hfit
  | onWrite ok =>
      simp only [Connection.step] at hs
      split at hs
      next => cases hs
      next =>
        cases hs
        exact h.onWrite ok
  | backpressureClose =>
      cases hs
      exact h.close

theorem reachable_balanced {n m : Nat} {c : Connection} (h : (inMemory n m).Reachable c) :
    c.ws.Balanced n m := by
  refine Machine.Reachable.induction (P := fun c : Connection => c.ws.Balanced n m) (.cleared rfl rfl rfl rfl) ?_ h
  intro c a d _ hb hs
  obtain ⟨hfit, hs⟩ := Machine.restrict_step.mp hs
  exact balanced_step hb hfit hs

/-- The counter is exact at every moment, both limits are kept, and an open
connection is closed by a message exactly when it would break one of them. -/
theorem limits_kept {n m : Nat} {c : Connection} (h : (inMemory n m).Reachable c) :
    c.ws.Accounted ∧ c.ws.sendQueue.length ≤ n ∧ c.ws.queuedBytes ≤ m ∧
      ∀ message, c.ws.closing = false → c.FitsMemory (.enqueueMessage message) →
        ((c.ws.enqueueMessage message).1.closing = true ↔
          c.ws.sendQueue.length + 1 > n ∨ c.ws.storedBytes + message.length > m) ∧
        ((c.ws.enqueueMessage message).1.closing = true →
          c.ws.enqueueMessage message = (c.ws.triggerBackpressureClose, none)) ∧
        ((c.ws.enqueueMessage message).1.closing = false →
          (c.ws.enqueueMessage message).1.sendQueue = c.ws.sendQueue ++ [message]) := by
  have hb := reachable_balanced h
  refine ⟨hb.accounted, hb.messages, hb.bytes, ?_⟩
  intro message hopen hfit
  obtain ⟨hiff, hclose, hpush⟩ := enqueueMessage_open hopen message
  refine ⟨hiff.trans (overLimit_iff hb hfit), fun hc => hclose (hiff.mp hc), fun hc => hpush ?_⟩
  intro hover
  simp [hiff.mpr hover] at hc

theorem limits_kept_slow_consumer : ∃ c, (inMemory 2 3).run
    [.enqueueMessage [1], .enqueueMessage [2, 3], .onWrite true] = some c ∧ c.ws.queuedBytes = 2 ∧
      (c.ws.enqueueMessage [4, 5]).1.closing = true := by
  obtain ⟨c, hc, hr, hopen, hbytes, hstored⟩ := Machine.exists_of_run (M := inMemory 2 3)
    [.enqueueMessage [1], .enqueueMessage [2, 3], .onWrite true]
    (fun c => c.ws.closing = false ∧ c.ws.queuedBytes = 2 ∧ c.ws.storedBytes = 2) (by decide)
  have hfit : c.FitsMemory (.enqueueMessage [4, 5]) := by
    rw [FitsMemory, hstored]
    decide
  refine ⟨c, hc, hbytes, ((limits_kept hr).2.2.2 [4, 5] hopen hfit).1.mpr (Or.inr ?_)⟩
  rw [hstored]
  decide

end Connection

end GameServer
