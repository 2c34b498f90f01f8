import GameServer.InputLedger
import GameServer.Noninterference

namespace GameServer.Simulation

open Ledger (Call perform)

def view (s : Simulation) (u : Int) : Option PlayerView := s.snapshot.players.find? (·.userId = u)

def verdict (s : Simulation) : Call → Option ValidationResult
  | .enqueueInput input => some (s.enqueueInput input).2
  | _ => none

/-- A simulation as one user sees it: a call is answered by its verdict, if it
has one, and by the entry of the user in the snapshot after it. -/
def device (u : Int) : Device Simulation Call (Option ValidationResult × Option PlayerView) where
  step := perform
  answer s call := (verdict s call, (perform s call).view u)

def concerns (u : Int) : Call → Bool
  | .addPlayer userId => userId = u
  | .enqueueInput input => input.userId = u
  | .tickOnce => true

structure SameFor (u : Int) (s t : Simulation) : Prop where
  tick : s.currentTick = t.currentTick
  tracker : s.trackers.lookup u = t.trackers.lookup u
  player : s.players.lookup u = t.players.lookup u
  inputs : ∀ n, (s.inputsByTick.index n).filter (·.userId = u) = (t.inputsByTick.index n).filter (·.userId = u)

theorem view_eq (s : Simulation) (u : Int) :
    s.view u = (s.players.lookup u).map fun p => ⟨u, p.position, p.lastSequence⟩ := by
  cases hl : s.players.lookup u with
  | none =>
      apply List.find?_eq_none.mpr
      intro v hv
      have hu : v.userId ∈ s.players := (s.mem_snapshot_userIds _).mp (List.mem_map_of_mem hv)
      rw [decide_eq_true_eq]
      rintro rfl
      exact AList.lookup_eq_none.mp hl hu
  | some p =>
      have hin : u ∈ s.snapshot.players.map (·.userId) :=
        (s.mem_snapshot_userIds u).mpr (AList.lookup_isSome.mp (by simp [hl]))
      obtain ⟨v, hv, hvu⟩ := List.mem_map.mp hin
      have hsome : (s.view u).isSome = true := List.find?_isSome.mpr ⟨v, hv, by simpa using hvu⟩
      obtain ⟨w, hw⟩ := Option.isSome_iff_exists.mp hsome
      have hwu : w.userId = u := by simpa using List.find?_some hw
      have hvalues := s.mem_snapshot (List.mem_of_find?_eq_some hw)
      rw [hwu, Table.index_eq_of_lookup hl] at hvalues
      rw [hw, Option.map_some, ← hvalues.1, ← hvalues.2, ← hwu]

theorem SameFor.view {u : Int} {s t : Simulation} (h : SameFor u s t) : s.view u = t.view u := by
  rw [view_eq, view_eq, h.player]

theorem SameFor.refl (u : Int) (s : Simulation) : SameFor u s s := ⟨rfl, rfl, rfl, fun _ => rfl⟩

theorem lookup_applyEvent (players : Table Int PlayerState) (e : InputCommand) (u : Int) :
    AList.lookup u (applyEvent players e) =
      if u = e.userId then some ⟨(players.index u).position + e.delta, e.sequence⟩ else players.lookup u := by
  rw [applyEvent, Table.lookup_insert_eq]
  by_cases hu : u = e.userId
  · rw [if_pos hu, if_pos hu, hu]
  · rw [if_neg hu, if_neg hu]

theorem lookup_foldl_applyEvent (events : List InputCommand) {players players' : Table Int PlayerState} {u : Int}
    (h : players.lookup u = players'.lookup u) :
    AList.lookup u (events.foldl applyEvent players) =
      AList.lookup u ((events.filter (·.userId = u)).foldl applyEvent players') := by
  induction events generalizing players players' with
  | nil => exact h
  | cons e events ih =>
      by_cases hu : e.userId = u
      · rw [List.filter_cons_of_pos (by simpa using hu), List.foldl_cons, List.foldl_cons]
        apply ih
        rw [lookup_applyEvent, lookup_applyEvent, Table.index, Table.index, h]
      · rw [List.filter_cons_of_neg (by simpa using hu), List.foldl_cons]
        apply ih
        rw [lookup_applyEvent, if_neg (Ne.symm hu), h]

theorem lookup_addPlayer_of_ne (s : Simulation) {u v : Int} (h : v ≠ u) :
    (s.addPlayer v).players.lookup u = s.players.lookup u := by
  rw [addPlayer]
  split
  next => rfl
  next => exact AList.lookup_insert_ne h.symm

theorem lookup_addPlayer (s : Simulation) (u : Int) :
    (s.addPlayer u).players.lookup u = some ((s.players.lookup u).getD {}) := by
  rw [addPlayer]
  split
  next hin =>
    obtain ⟨p, hp⟩ := (Table.mem_iff_lookup _ _).mp hin
    rw [hp, Option.getD_some]
  next hout => rw [AList.lookup_eq_none.mpr hout, AList.lookup_insert, Option.getD_none]

section Steps

variable {u : Int} {s t : Simulation} (h : SameFor u s t)

include h

theorem SameFor.tickOnce : SameFor u s.tickOnce t.tickOnce where
  tick := by rw [tickOnce_currentTick, tickOnce_currentTick, h.tick]
  tracker := by rw [tickOnce_trackers, tickOnce_trackers, h.tracker]
  player := by
    have hsort : ∀ l, (stableSort l).filter (·.userId = u) = stableSort (l.filter (·.userId = u)) := fun l =>
      filter_insertionSort NotAfter notAfter_total (fun _ _ _ => notAfter_trans) _ l
    have hs := lookup_foldl_applyEvent s.nextEvents h.player
    have ht := lookup_foldl_applyEvent t.nextEvents (Eq.refl (t.players.lookup u))
    rw [nextEvents, hsort] at hs ht
    rw [tickOnce_players, tickOnce_players, hs, ht, h.inputs, h.tick]
  inputs := by
    intro n
    rw [index_tickOnce, index_tickOnce, ← h.tick]
    split
    next => rfl
    next => exact h.inputs n

theorem SameFor.validateInput {i : InputCommand} (hi : i.userId = u) : s.validateInput i = t.validateInput i := by
  rw [Simulation.validateInput, Simulation.validateInput, hi, h.tick, h.tracker]

theorem SameFor.push {i : InputCommand} (hi : i.userId = u) : SameFor u (s.push i) (t.push i) where
  tick := h.tick
  tracker := by
    subst hi
    simp only [Simulation.push, Table.lookup_insert_eq, Table.index, h.tracker]
  player := h.player
  inputs := by
    intro n
    rw [index_push, index_push]
    split
    next => rw [List.filter_append, List.filter_append, h.inputs]
    next => exact h.inputs n

theorem SameFor.push_other {i : InputCommand} (hi : i.userId ≠ u) : SameFor u (s.push i) t where
  tick := h.tick
  tracker := by
    rw [Simulation.push, Table.lookup_insert_eq, if_neg (Ne.symm hi)]
    exact h.tracker
  player := h.player
  inputs := by
    intro n
    rw [index_push]
    split
    next hn =>
      rw [List.filter_append, List.filter_cons_of_neg (by simpa using hi), List.filter_nil, List.append_nil, ← hn]
      exact h.inputs n
    next => exact h.inputs n

end Steps

theorem unwinding (u : Int) : (device u).Unwinding (concerns u) (SameFor u) where
  hidden := by
    intro s t call h hcall
    cases call with
    | addPlayer v =>
        have hv : v ≠ u := by simpa [concerns] using hcall
        refine ⟨?_, ?_, ?_, ?_⟩
        · exact (addPlayer_currentTick s v).trans h.tick
        · change (s.addPlayer v).trackers.lookup u = _
          rw [addPlayer_trackers]
          exact h.tracker
        · exact (lookup_addPlayer_of_ne s hv).trans h.player
        · change ∀ n, ((s.addPlayer v).inputsByTick.index n).filter _ = _
          rw [addPlayer_inputsByTick]
          exact h.inputs
    | enqueueInput i =>
        have hi : i.userId ≠ u := by simpa [concerns] using hcall
        change SameFor u (s.enqueueInput i).1 t
        rw [enqueueInput]
        split
        next => exact h
        next => exact h.push_other hi
    | tickOnce => simp [concerns] at hcall
  seen := by
    intro s t call h hcall
    have hnext : SameFor u (perform s call) (perform t call) := by
      cases call with
      | addPlayer v =>
          have hv : v = u := by simpa [concerns] using hcall
          subst hv
          refine ⟨?_, ?_, ?_, ?_⟩
          · simpa [perform] using h.tick
          · simpa [perform] using h.tracker
          · simp only [perform, lookup_addPlayer, h.player]
          · simpa [perform] using h.inputs
      | enqueueInput i =>
          have hi : i.userId = u := by simpa [concerns] using hcall
          simp only [perform, enqueueInput, h.validateInput hi]
          split
          next => exact h
          next => exact h.push hi
      | tickOnce => exact h.tickOnce
    refine ⟨Prod.ext ?_ hnext.view, hnext⟩
    cases call with
    | addPlayer => rfl
    | tickOnce => rfl
    | enqueueInput i =>
        have hi : i.userId = u := by simpa [concerns] using hcall
        simp only [device, verdict, enqueueInput, h.validateInput hi]
        split <;> rfl

def after (calls : List Call) : Simulation := calls.foldl perform {}

/-- The second run makes the calls of the first, except that inputs of
different users may change places between two ticks. -/
structure Reorders (as bs : List Call) : Prop where
  places : List.Forall₂ (fun a b => a = b ∨ ∃ i j, a = .enqueueInput i ∧ b = .enqueueInput j) as bs
  each : ∀ u, as.filter (concerns u) = bs.filter (concerns u)

theorem snapshot_ext {s t : Simulation} (htick : s.currentTick = t.currentTick)
    (hplayers : ∀ u, s.players.lookup u = t.players.lookup u) : s.snapshot = t.snapshot := by
  have hmem : ∀ u, u ∈ s.snapshot.players.map (·.userId) ↔ u ∈ t.snapshot.players.map (·.userId) := by
    intro u
    rw [mem_snapshot_userIds, mem_snapshot_userIds, ← AList.lookup_isSome, ← AList.lookup_isSome, hplayers]
  have hids := s.snapshot_ascending.eq_of_mem_iff t.snapshot_ascending hmem
  rw [snapshot_userIds, snapshot_userIds] at hids
  have hindex : ∀ u, s.players.index u = t.players.index u := by
    intro u
    rw [Table.index, Table.index, hplayers]
  simp only [snapshot, htick, hids, hindex]

theorem foldl_perform_inputs {calls : List Call} (h : ∀ c ∈ calls, ∃ i, c = Call.enqueueInput i)
    (s : Simulation) :
    (calls.foldl perform s).players = s.players ∧ (calls.foldl perform s).currentTick = s.currentTick := by
  induction calls generalizing s with
  | nil => exact ⟨rfl, rfl⟩
  | cons c calls ih =>
      obtain ⟨i, rfl⟩ := h c (by simp)
      have hone : (s.enqueueInput i).1.players = s.players ∧
          (s.enqueueInput i).1.currentTick = s.currentTick := by
        rw [enqueueInput]
        split <;> exact ⟨rfl, rfl⟩
      have hrest := ih (fun c hc => h c (List.mem_cons_of_mem _ hc)) (s.enqueueInput i).1
      exact ⟨hrest.1.trans hone.1, hrest.2.trans hone.2⟩

def isInput : Call → Bool
  | .enqueueInput _ => true
  | _ => false

theorem inputs_between {as bs cs : List Call} (ha : as <+: cs) (hb : bs <+: cs)
    (hcount : as.countP (!isInput ·) = bs.countP (!isInput ·)) :
    (after as).players = (after bs).players ∧ (after as).currentTick = (after bs).currentTick := by
  have hlonger : ∀ {as bs : List Call}, as <+: bs → as.countP (!isInput ·) = bs.countP (!isInput ·) →
      (after bs).players = (after as).players ∧ (after bs).currentTick = (after as).currentTick := by
    rintro as _ ⟨rest, rfl⟩ hcount
    rw [List.countP_append] at hcount
    have hnone : rest.countP (!isInput ·) = 0 := by omega
    rw [after, List.foldl_append]
    apply foldl_perform_inputs
    intro c hc
    have hin := List.countP_eq_zero.mp hnone c hc
    cases c with
    | enqueueInput i => exact ⟨i, rfl⟩
    | addPlayer u => simp [isInput] at hin
    | tickOnce => simp [isInput] at hin
  rcases List.prefix_or_prefix_of_prefix ha hb with h | h
  · have hs := hlonger h hcount
    exact ⟨hs.1.symm, hs.2.symm⟩
  · exact hlonger h hcount.symm

theorem sameFor_filter (u : Int) (calls : List Call) :
    SameFor u (after calls) (after (calls.filter (concerns u))) :=
  ((unwinding u).purge (SameFor.refl u {}) calls).2

theorem Reorders.countP_take {as bs : List Call} (h : Reorders as bs) (u : Int) (k : Nat) :
    ((as.take k).filter (concerns u)).countP (!isInput ·) =
      ((bs.take k).filter (concerns u)).countP (!isInput ·) := by
  have htake := List.forall₂_take k h.places
  rw [List.countP_filter, List.countP_filter]
  generalize as.take k = xs, bs.take k = ys at htake
  induction htake with
  | nil => rfl
  | cons hab _ ih =>
      rw [List.countP_cons, List.countP_cons, ih]
      rcases hab with rfl | ⟨i, j, rfl, rfl⟩ <;> rfl

/-- Whatever order the inputs of different users arrive in between two ticks,
the snapshot after each call is the same. -/
theorem Reorders.snapshot_take {as bs : List Call} (h : Reorders as bs) (k : Nat) :
    (after (as.take k)).snapshot = (after (bs.take k)).snapshot := by
  have hboth : ∀ u, (after (as.take k)).players.lookup u = (after (bs.take k)).players.lookup u ∧
      (after (as.take k)).currentTick = (after (bs.take k)).currentTick := by
    intro u
    have ha := sameFor_filter u (as.take k)
    have hb := sameFor_filter u (bs.take k)
    have hpa : (as.take k).filter (concerns u) <+: as.filter (concerns u) := (List.take_prefix k as).filter _
    have hpb : (bs.take k).filter (concerns u) <+: as.filter (concerns u) := by
      rw [h.each u]
      exact (List.take_prefix k bs).filter _
    have hsame := inputs_between hpa hpb (h.countP_take u k)
    exact ⟨by rw [ha.player, hb.player, hsame.1], by rw [ha.tick, hb.tick, hsame.2]⟩
  exact snapshot_ext (hboth 0).2 fun u => (hboth u).1

/-- What one user is told does not depend on the other users, and the order in
which inputs of different users arrive between two ticks is not seen at all. -/
theorem users_isolated :
    (∀ u as bs, as.filter (concerns u) = bs.filter (concerns u) →
        (device u).trace (concerns u) {} as = (device u).trace (concerns u) {} bs) ∧
      ∀ as bs, Reorders as bs →
        (∀ u, (device u).trace (concerns u) {} as = (device u).trace (concerns u) {} bs) ∧
          ∀ k, (after (as.take k)).snapshot = (after (bs.take k)).snapshot := by
  have hsame : ∀ u as bs, as.filter (concerns u) = bs.filter (concerns u) →
      (device u).trace (concerns u) {} as = (device u).trace (concerns u) {} bs := fun u _ _ h =>
    (unwinding u).trace_eq (SameFor.refl u {}) h
  exact ⟨hsame, fun as bs h => ⟨fun u => hsame u as bs (h.each u), h.snapshot_take⟩⟩

theorem users_isolated_two :
    (device 1).trace (concerns 1) {}
        [.enqueueInput ⟨2, 1, 3, 7⟩, .enqueueInput ⟨1, 1, 2, 1⟩, .enqueueInput ⟨2, 1, 3, 7⟩, .tickOnce] =
      (device 1).trace (concerns 1) {} [.enqueueInput ⟨1, 1, 2, 1⟩, .addPlayer 2, .tickOnce] ∧
    ∀ k, (after ([.enqueueInput ⟨2, 1, 3, 7⟩, .enqueueInput ⟨1, 1, 2, 1⟩, .tickOnce].take k)).snapshot =
      (after ([.enqueueInput ⟨1, 1, 2, 1⟩, .enqueueInput ⟨2, 1, 3, 7⟩, .tickOnce].take k)).snapshot := by
  refine ⟨users_isolated.1 1 _ _ (by decide), (users_isolated.2 _ _ ⟨?_, ?_⟩).2⟩
  · exact .cons (Or.inr ⟨_, _, rfl, rfl⟩) (.cons (Or.inr ⟨_, _, rfl, rfl⟩) (.cons (Or.inl rfl) .nil))
  · intro u
    by_cases h : u = 1
    · subst h
      decide
    · simp [List.filter_cons, concerns, Ne.symm h]

end GameServer.Simulation
