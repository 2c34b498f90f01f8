import GameServer.QueueCalls

namespace GameServer.MatchQueueService

open MatchQueue

def OnTime (s : MatchQueueService) : Call → Prop
  | .onTick ok now => s.armedAt.any (fun armed => !ok || decide (armed + 1000000000 ≤ now))
  | _ => True

instance (s : MatchQueueService) (call : Call) : Decidable (s.OnTime call) :=
  match call with
  | .onTick _ _ => inferInstanceAs (Decidable (_ = true))
  | .join .. | .cancel .. => inferInstanceAs (Decidable True)

def timed (defaultTimeout start : Int) : Machine MatchQueueService Call :=
  (service defaultTimeout start).restrict OnTime

/-- At some moment before the deadline of the entry the queue held it and the
entry of another user, not expired either. -/
def Together (past : List Period) (node : QueueNode) : Prop :=
  ∃ p ∈ past, ∃ t, p.since ≤ t ∧ t ≤ p.till ∧ t < node.entry.expiresAt ∧ node ∈ p.nodes ∧
    ∃ other ∈ p.nodes, other.userId ≠ node.userId ∧ t < other.entry.expiresAt

/-- Nobody was timed out who had waited together with a partner. -/
def FairTimeouts (s : MatchQueueService) : Prop := ∀ node ∈ s.timedOut, ¬ Together s.past node

def departures (defaultTimeout : Int) (s : MatchQueueService) (call : Call) : List (Int × QueueNode) :=
  match s.step defaultTimeout call with
  | some t => (missing s.queue.queue t.queue.queue).map fun node => (call.now, node)
  | none => []

def watched (defaultTimeout start : Int) : Machine (MatchQueueService × List (Int × QueueNode)) Call :=
  (timed defaultTimeout start).recorded (departures defaultTimeout)

def Meets (a b : QueueEntry) : Prop := max a.joinedAt b.joinedAt < min a.expiresAt b.expiresAt

instance (a b : QueueEntry) : Decidable (Meets a b) := inferInstanceAs (Decidable (_ < _))

/-- The entries in the queue, and those that were there at the join of the
given one or came later. -/
def companions (s : MatchQueueService) (left : List (Int × QueueNode)) (node : QueueNode) : List QueueNode :=
  s.queue.queue ++ (left.filter (fun d => node.entry.joinedAt ≤ d.1)).map (·.2)

/-- The tick comes before the deadline of every entry in the queue whose time
meets that of another user's entry. -/
def TicksInTime (r : MatchQueueService × List (Int × QueueNode)) : Call → Prop
  | .onTick true now => ∀ node ∈ r.1.queue.queue, ∀ other ∈ r.1.companions r.2 node, other.userId ≠ node.userId →
      Meets node.entry other.entry → now < node.entry.expiresAt
  | _ => True

instance (r : MatchQueueService × List (Int × QueueNode)) (call : Call) : Decidable (TicksInTime r call) :=
  match call with
  | .onTick true _ => inferInstanceAs (Decidable (∀ _ ∈ _, _))
  | .onTick false _ | .join .. | .cancel .. => inferInstanceAs (Decidable True)

/-- No entry has been in the queue before its join, and each one that was there
is still there or has left since. -/
structure Tracked (s : MatchQueueService) (left : List (Int × QueueNode)) : Prop where
  inv : s.Inv
  present : ∀ node ∈ s.queue.queue, node.entry.joinedAt ≤ s.clock
  joined : ∀ p ∈ s.past, ∀ node ∈ p.nodes, node.entry.joinedAt ≤ p.since
  ended : ∀ p ∈ s.past, p.till ≤ s.clock
  gone : ∀ p ∈ s.past, ∀ node ∈ p.nodes, node ∈ s.queue.queue ∨ ∃ d ∈ left, d.2 = node ∧ p.till ≤ d.1

theorem tracked_init (start : Int) : ({ clock := start } : MatchQueueService).Tracked [] where
  inv := inv_init start
  present := by simp
  joined := by simp
  ended := by simp
  gone := by simp

theorem Tracked.pass {s : MatchQueueService} {left : List (Int × QueueNode)} (h : s.Tracked left) {now : Int}
    (hnow : s.clock ≤ now) : (s.pass now).Tracked left where
  inv := h.inv.pass now
  present := fun node hn => (h.present node hn).trans hnow
  joined := by
    intro p hp
    rcases List.mem_append.mp hp with hp | hp
    · exact h.joined p hp
    · rw [List.mem_singleton.mp hp]
      exact h.present
  ended := by
    intro p hp
    rcases List.mem_append.mp hp with hp | hp
    · exact (h.ended p hp).trans hnow
    · rw [List.mem_singleton.mp hp]
      exact le_refl now
  gone := by
    intro p hp
    rcases List.mem_append.mp hp with hp | hp
    · exact h.gone p hp
    · rw [List.mem_singleton.mp hp]
      exact fun node hn => Or.inl hn

theorem step_history {defaultTimeout : Int} {s t : MatchQueueService} {call : Call} (h : s.Inv)
    (hs : s.step defaultTimeout call = some t) :
    s.clock ≤ call.now ∧ t.clock = call.now ∧ t.past = (s.pass call.now).past ∧
      match call with
      | .join .. => t.timedOut = s.timedOut
      | .cancel .. => t.timedOut = s.timedOut ∧ t.joins = s.joins
      | .onTick true now =>
        t.timedOut = s.timedOut ++ s.queue.queue.filter (fun node => node.entry.expiresAt ≤ now) ∧ t.joins = s.joins
      | .onTick false _ => t.timedOut = s.timedOut ∧ t.joins = s.joins := by
  have hdone := (step_done h hs).2
  rw [step] at hs
  split at hs
  next hnow =>
    refine ⟨hnow, ?_⟩
    cases call with
    | join user timeout inSession now =>
        simp only at hs
        split at hs
        next hj =>
          cases hs
          rw [join] at hj
          split at hj <;> cases hj
          exact ⟨rfl, rfl, rfl⟩
        next =>
          cases hs
          exact ⟨rfl, rfl, rfl⟩
    | cancel userId now =>
        simp only at hs
        split at hs
        next hc =>
          cases hs
          rw [cancel] at hc
          split at hc <;> cases hc
          exact ⟨rfl, rfl, rfl, rfl⟩
        next =>
          cases hs
          exact ⟨rfl, rfl, rfl, rfl⟩
    | onTick ok now =>
        cases hs
        cases ok with
        | false => exact ⟨rfl, rfl, rfl, rfl⟩
        | true => exact ⟨rfl, rfl, hdone.timedOut, rfl⟩
  next => cases hs

theorem step_queue {defaultTimeout : Int} {s t : MatchQueueService} {call : Call} (h : s.Inv)
    (hs : s.step defaultTimeout call = some t) {node : QueueNode} (hn : node ∈ t.queue.queue) :
    node ∈ s.queue.queue ∨ node.entry.joinedAt = call.now := by
  have hdone := (step_done h hs).2
  cases call with
  | join user timeout inSession now =>
      rcases hdone with ⟨added, hd⟩ | ⟨rfl, -⟩
      · rw [hd.queue, List.mem_append, List.mem_singleton] at hn
        rcases hn with hn | rfl
        · exact Or.inl hn
        · exact Or.inr (by rw [hd.entry]; rfl)
      · exact Or.inl hn
  | cancel userId now =>
      rcases hdone with ⟨removed, hd⟩ | ⟨rfl, -⟩
      · rw [hd.queue] at hn
        exact Or.inl (List.mem_of_mem_filter hn)
      · exact Or.inl hn
  | onTick ok now =>
      cases ok with
      | false =>
          rw [hdone] at hn
          exact Or.inl hn
      | true =>
          obtain ⟨pairs, -, hqueue, -⟩ := hdone.matched
          exact Or.inl (List.mem_of_mem_filter (hqueue ▸ List.mem_append_right _ hn))

theorem tracked_step {defaultTimeout : Int} {s t : MatchQueueService} {call : Call} {left : List (Int × QueueNode)}
    (h : s.Tracked left) (hs : s.step defaultTimeout call = some t) :
    t.Tracked (left ++ departures defaultTimeout s call) := by
  obtain ⟨hnow, hclock, hpast, -⟩ := step_history h.inv hs
  have hpass := h.pass hnow
  have hleft : departures defaultTimeout s call =
      (missing s.queue.queue t.queue.queue).map fun node => (call.now, node) := by
    rw [departures, hs]
  refine ⟨(step_done h.inv hs).1, ?_, ?_, ?_, ?_⟩
  · intro node hn
    rw [hclock]
    rcases step_queue h.inv hs hn with hold | hnew
    · exact hpass.present node hold
    · exact le_of_eq hnew
  · rw [hpast]
    exact hpass.joined
  · rw [hpast, hclock]
    exact hpass.ended
  · rw [hpast]
    intro p hp node hn
    rcases hpass.gone p hp node hn with hqueued | ⟨d, hd, hnode, htill⟩
    · -- the entry is still there or leaves with this call
      by_cases hstays : node ∈ t.queue.queue
      · exact Or.inl hstays
      · have hmissing : node ∈ missing s.queue.queue t.queue.queue :=
          List.mem_filter.mpr ⟨hqueued, decide_eq_true hstays⟩
        refine Or.inr ⟨(call.now, node), ?_, rfl, hpass.ended p hp⟩
        rw [hleft]
        exact List.mem_append_right _ (List.mem_map_of_mem hmissing)
    · exact Or.inr ⟨d, List.mem_append_left _ hd, hnode, htill⟩

theorem Inv.timedOut_gone {s : MatchQueueService} (h : s.Inv) {node : QueueNode} (hn : node ∈ s.timedOut) :
    node ∉ s.queue.queue := by
  have haddrs : (s.joins.map (·.node.addr)).Nodup := by
    rw [h.numbered]
    exact List.nodup_range
  have hnodes : ((s.joins.map (·.node)).map (·.addr)).Nodup := by
    rw [List.map_map]
    exact haddrs
  have hall := h.once.nodup_iff.mp hnodes.of_map
  simp only [List.nodup_append] at hall
  intro hin
  exact hall.1.2.2 node (List.mem_append_left _ hin) node hn rfl

theorem Tracked.meets {s : MatchQueueService} {left : List (Int × QueueNode)} (h : s.Tracked left) {node : QueueNode}
    (ht : Together s.past node) :
    ∃ other ∈ s.companions left node, other.userId ≠ node.userId ∧ Meets node.entry other.entry := by
  obtain ⟨p, hp, t, hsince, htill, hown, hn, other, ho, hne, hits⟩ := ht
  have hnode := h.joined p hp node hn
  have hother := h.joined p hp other ho
  refine ⟨other, ?_, hne, ?_⟩
  · rcases h.gone p hp other ho with hqueued | ⟨d, hd, rfl, hleft⟩
    · exact List.mem_append_left _ hqueued
    · have hlater : node.entry.joinedAt ≤ d.1 := by omega
      exact List.mem_append_right _ (List.mem_map_of_mem (List.mem_filter.mpr ⟨hd, decide_eq_true hlater⟩))
  · rw [Meets, max_lt_iff, lt_min_iff, lt_min_iff]
    omega

theorem fair_step {defaultTimeout : Int} {s t : MatchQueueService} {call : Call} {left : List (Int × QueueNode)}
    (h : s.Tracked left) (hp : s.FairTimeouts) (hq : TicksInTime (s, left) call)
    (hs : s.step defaultTimeout call = some t) : t.FairTimeouts := by
  obtain ⟨hnow, -, hpast, hout⟩ := step_history h.inv hs
  have hold : ∀ node ∈ s.timedOut, ¬ Together t.past node := by
    rintro node hn ⟨p, hin, ht⟩
    rw [hpast] at hin
    rcases List.mem_append.mp hin with hin | hin
    · exact hp node hn ⟨p, hin, ht⟩
    · rw [List.mem_singleton.mp hin] at ht
      obtain ⟨-, -, -, -, hqueued, -⟩ := ht
      exact h.inv.timedOut_gone hn hqueued
  have hsame : t.timedOut = s.timedOut → t.FairTimeouts := by
    intro he node hn
    exact hold node (he ▸ hn)
  cases call with
  | join => exact hsame hout
  | cancel => exact hsame hout.1
  | onTick ok now =>
      cases ok with
      | false => exact hsame hout.1
      | true =>
          intro node hn htogether
          rw [hout.1] at hn
          rcases List.mem_append.mp hn with hn | hn
          · exact hold node hn htogether
          · obtain ⟨hqueued, hdue⟩ := List.mem_filter.mp hn
            rw [hpast] at htogether
            obtain ⟨other, ho, hne, hmeets⟩ := (h.pass hnow).meets htogether
            have hearly := hq node hqueued other ho hne hmeets
            have hlate := of_decide_eq_true hdue
            omega

/-- A run whose ticks come in time times out nobody who has waited together
with a partner. -/
theorem fairTimeouts_of_ticksInTime {defaultTimeout start : Int} {calls : List Call}
    (h : (watched defaultTimeout start).Obeys TicksInTime (watched defaultTimeout start).init calls) :
    (watched defaultTimeout start).Always (·.1.FairTimeouts) (watched defaultTimeout start).init calls := by
  refine h.always (I := fun r => r.1.Tracked r.2 ∧ r.1.FairTimeouts) ?_ (fun r hr => hr.2) ?_
  · rintro ⟨s, left⟩ call ⟨t, more⟩ ⟨htracked, hfair⟩ hq hstep
    obtain ⟨htimed, rfl⟩ := Machine.recorded_step.mp hstep
    have hs := (Machine.restrict_step.mp htimed).2
    exact ⟨tracked_step htracked hs, fair_step htracked hfair hq hs⟩
  · refine ⟨tracked_init start, ?_⟩
    intro node hn
    cases hn

theorem fairTimeouts_of_ticksInTime_pair :
    (watched 10 0).Always (·.1.FairTimeouts) (watched 10 0).init
      [.join ⟨1, "kim"⟩ 1 false 0, .onTick true 1000000000, .join ⟨2, "lee"⟩ 5 false 1100000000,
        .join ⟨3, "han"⟩ 5 false 1200000000, .join ⟨4, "yun"⟩ 1 false 1300000000, .cancel 4 1400000000,
        .onTick true 2000000000] :=
  fairTimeouts_of_ticksInTime (by decide)

/-- Two users wait together for half a second, and then the time of the first
is up before the timer fires. -/
theorem not_fairTimeouts_of_late_tick : ∃ s, (timed 10 0).run
    [.join ⟨1, "kim"⟩ 1 false 0, .join ⟨2, "lee"⟩ 10 false 500000000, .onTick true 1000000000] = some s ∧
      s.timedOut.map (·.userId) = [1] ∧ s.queue.userIds = [2] ∧ ¬ s.FairTimeouts := by
  obtain ⟨s, hs, -, hout, hqueue, hin, hpast⟩ := Machine.exists_of_run (M := timed 10 0)
    [.join ⟨1, "kim"⟩ 1 false 0, .join ⟨2, "lee"⟩ 10 false 500000000, .onTick true 1000000000]
    (fun s => s.timedOut.map (·.userId) = [1] ∧ s.queue.userIds = [2] ∧
      ⟨0, ⟨1, "kim"⟩, 1000000000, 0⟩ ∈ s.timedOut ∧
      ⟨500000000, 1000000000, [⟨0, ⟨1, "kim"⟩, 1000000000, 0⟩, ⟨1, ⟨2, "lee"⟩, 10500000000, 500000000⟩]⟩ ∈ s.past)
    (by decide)
  refine ⟨s, hs, hout, hqueue, ?_⟩
  intro hfair
  refine hfair _ hin ⟨_, hpast, 500000000, le_refl _, by decide, by decide, by simp, ?_⟩
  exact ⟨⟨1, ⟨2, "lee"⟩, 10500000000, 500000000⟩, by simp, by decide, by decide⟩

end GameServer.MatchQueueService
