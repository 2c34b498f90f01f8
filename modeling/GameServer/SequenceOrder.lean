import GameServer.InputLedger
import Mathlib.Data.List.Induction

namespace GameServer.Ledger

open Simulation

theorem replayFrom_append (s : Simulation) (l : Ledger) (calls more : List Call) :
    replayFrom s l (calls ++ more) = replayFrom (replayFrom s l calls).1 (replayFrom s l calls).2 more := by
  induction calls generalizing s l with
  | nil => rfl
  | cons call calls ih => exact ih _ _

theorem replay_snoc (calls : List Call) (call : Call) :
    replay (calls ++ [call]) =
      (perform (replay calls).1 call, note (replay calls).1 (replay calls).2 call) :=
  replayFrom_append _ _ _ _

def eventsOf (s : Simulation) : Call → List InputCommand
  | .tickOnce => s.nextEvents
  | _ => []

def eventsFrom (s : Simulation) : List Call → List InputCommand
  | [] => []
  | call :: calls => eventsOf s call ++ eventsFrom (perform s call) calls

/-- The inputs of a user in the order in which they take effect. -/
def effects (u : Int) (calls : List Call) : List InputCommand := (eventsFrom {} calls).filter (·.userId = u)

def Earlier (i j : InputCommand) : Prop :=
  i.targetTick < j.targetTick ∨ (i.targetTick = j.targetTick ∧ i.sequence < j.sequence)

def sequenceOf (events : List InputCommand) : Nat := (events.getLast?.map (·.sequence)).getD 0

/-- The inputs take effect in the order of their sequences, and no snapshot
reports a lower sequence than one before it. -/
structure InSequence (u : Int) (calls : List Call) : Prop where
  inputs : (effects u calls).Pairwise (fun i j => i.sequence < j.sequence)
  reported : ∀ m n, m ≤ n → ∀ v ∈ (replay (calls.take m)).1.snapshot.players,
    ∀ w ∈ (replay (calls.take n)).1.snapshot.players, v.userId = u → w.userId = u → v.lastSequence ≤ w.lastSequence

theorem eventsFrom_append (s : Simulation) (l : Ledger) (calls more : List Call) :
    eventsFrom s (calls ++ more) = eventsFrom s calls ++ eventsFrom (replayFrom s l calls).1 more := by
  induction calls generalizing s l with
  | nil => rfl
  | cons call calls ih =>
      change eventsOf s call ++ eventsFrom (perform s call) (calls ++ more) = _
      rw [ih _ (note s l call), ← List.append_assoc]
      rfl

theorem effects_snoc (u : Int) (calls : List Call) (call : Call) :
    effects u (calls ++ [call]) =
      effects u calls ++ (eventsOf (replay calls).1 call).filter (·.userId = u) := by
  rw [effects, eventsFrom_append {} {}, List.filter_append]
  change _ ++ ((eventsOf (replay calls).1 call ++ []).filter _) = _
  rw [List.append_nil]
  rfl

theorem effects_take (u : Int) {m n : Nat} (h : m ≤ n) (calls : List Call) :
    effects u (calls.take m) <+: effects u (calls.take n) := by
  obtain ⟨rest, hrest⟩ := List.take_prefix_take_left h (l := calls)
  rw [← hrest, effects, effects, eventsFrom_append {} {}]
  exact (List.prefix_append _ _).filter _

theorem Represents.ordered_of_user {s : Simulation} {l : Ledger} (h : Represents s l) (u : Int)
    {p : InputCommand → Bool} (hp : ∀ i, p i = true → i.userId = u) :
    (l.accepted.filter p).Pairwise (fun i j => i.sequence < j.sequence) := by
  apply (h.ordered.filter p).imp_of_mem
  intro i j hi hj hij
  exact hij ((hp i (List.mem_filter.mp hi).2).trans (hp j (List.mem_filter.mp hj).2).symm)

theorem applied_ordered (u : Int) (calls : List Call) :
    ((replay calls).2.applied u).Pairwise (fun i j => i.sequence < j.sequence) := by
  apply (represents_replay calls).ordered_of_user u
  intro i hi
  exact (of_decide_eq_true hi).1

theorem Represents.events_of_tick {s : Simulation} {l : Ledger} (h : Represents s l) (u : Int) :
    ((eventsOf s .tickOnce).filter (·.userId = u)).Pairwise Earlier ∧
      ∀ i, i ∈ (eventsOf s .tickOnce).filter (·.userId = u) ↔ i ∈ l.pending (l.tick + 1) ∧ i.userId = u := by
  have hmem : ∀ i, i ∈ (eventsOf s .tickOnce).filter (·.userId = u) ↔
      i ∈ l.pending (l.tick + 1) ∧ i.userId = u := by
    intro i
    rw [eventsOf, List.mem_filter, mem_nextEvents, h.tick, h.index_pending, decide_eq_true_eq]
  refine ⟨?_, hmem⟩
  have hsorted : ((eventsOf s .tickOnce).filter (·.userId = u)).Pairwise NotAfter :=
    (stableSort_sorted _).filter _
  have hdistinct : ((eventsOf s .tickOnce).filter (·.userId = u)).Pairwise
      (fun i j => i.sequence ≠ j.sequence) := by
    have hpending : ((l.pending (l.tick + 1)).filter (·.userId = u)).Pairwise
        (fun i j => i.sequence ≠ j.sequence) := by
      rw [Ledger.pending, if_neg (by omega), List.filter_filter]
      refine (h.ordered_of_user u ?_).imp (fun hij => Nat.ne_of_lt hij)
      intro i hi
      simp only [Bool.and_eq_true, decide_eq_true_eq] at hi
      exact hi.1
    rw [eventsOf, nextEvents, h.tick, h.index_pending]
    exact ((stableSort_perm _).filter _).symm.pairwise hpending (fun hij => Ne.symm hij)
  apply (hsorted.and hdistinct).imp_of_mem
  intro i j hi hj hij
  have hti := ((l.mem_pending _ i).mp ((hmem i).mp hi).1).2.2
  have htj := ((l.mem_pending _ j).mp ((hmem j).mp hj).1).2.2
  exact Or.inr ⟨hti.trans htj.symm, Nat.lt_of_le_of_ne hij.1.sequence_le hij.2⟩

structure Effected (u : Int) (calls : List Call) : Prop where
  earlier : (effects u calls).Pairwise Earlier
  applied : ∀ i, i ∈ effects u calls ↔ i ∈ (replay calls).2.applied u
  last : ((replay calls).1.players.index u).lastSequence = sequenceOf (effects u calls)

theorem effected_nil (u : Int) : Effected u [] where
  earlier := .nil
  applied := by simp [effects, eventsFrom, replay, replayFrom, applied]
  last := by simp [effects, eventsFrom, replay, replayFrom, sequenceOf]; rfl

theorem Effected.quiet {u : Int} {calls : List Call} (h : Effected u calls) {call : Call}
    (hnone : eventsOf (replay calls).1 call = [])
    (happlied : (replay (calls ++ [call])).2.applied u = (replay calls).2.applied u)
    (hlast : ((replay (calls ++ [call])).1.players.index u) = ((replay calls).1.players.index u)) :
    Effected u (calls ++ [call]) := by
  have hsame : effects u (calls ++ [call]) = effects u calls := by
    rw [effects_snoc, hnone, List.filter_nil, List.append_nil]
  refine ⟨?_, ?_, ?_⟩
  · rw [hsame]
    exact h.earlier
  · rw [hsame, happlied]
    exact h.applied
  · rw [hsame, hlast]
    exact h.last

theorem Effected.tickOnce {u : Int} {calls : List Call} (h : Effected u calls) :
    Effected u (calls ++ [.tickOnce]) := by
  have hrep := represents_replay calls
  obtain ⟨hearlier, hmem⟩ := hrep.events_of_tick u
  have hnext : (replay (calls ++ [.tickOnce])).2 = (replay calls).2.advance := by rw [replay_snoc]; rfl
  have hstate : (replay (calls ++ [.tickOnce])).1 = (replay calls).1.tickOnce := by rw [replay_snoc]; rfl
  refine ⟨?_, ?_, ?_⟩
  · rw [effects_snoc]
    refine List.pairwise_append.mpr ⟨h.earlier, hearlier, ?_⟩
    intro i hi j hj
    have hti := ((mem_applied _ _ _).mp ((h.applied i).mp hi)).2.2
    have htj := ((mem_pending _ _ _).mp ((hmem j).mp hj).1).2.2
    exact Or.inl (by omega)
  · intro i
    rw [effects_snoc, List.mem_append, h.applied, hmem, hnext, mem_applied_advance]
  · rw [hstate, tickOnce_players, foldl_applyEvent_lastSequence, h.last, effects_snoc, sequenceOf, sequenceOf,
      List.getLast?_append, eventsOf, nextEvents]
    cases ((stableSort ((replay calls).1.inputsByTick.index ((replay calls).1.currentTick + 1))).filter
      (·.userId = u)).getLast? <;> rfl

theorem Effected.perform {u : Int} {calls : List Call} (h : Effected u calls) (call : Call) :
    Effected u (calls ++ [call]) := by
  cases call with
  | tickOnce => exact h.tickOnce
  | addPlayer v =>
      refine h.quiet rfl ?_ ?_
      · rw [replay_snoc]
        rfl
      · rw [replay_snoc]
        exact index_addPlayer _ v u
  | enqueueInput i =>
      refine h.quiet rfl ?_ ?_
      · simp only [replay_snoc, note]
        split
        next ha =>
          have htick := ((validateInput_ok_iff _ i).mp ((enqueueInput_accepted _ i).mp ha)).1
          rw [(represents_replay calls).tick] at htick
          exact applied_accept _ i htick u
        next => rfl
      · simp only [replay_snoc, Ledger.perform, enqueueInput]
        split <;> rfl

theorem effected (u : Int) (calls : List Call) : Effected u calls := by
  induction calls using List.reverseRecOn with
  | nil => exact effected_nil u
  | append_singleton calls call ih => exact ih.perform call

theorem sequenceOf_mono {as bs : List InputCommand} (h : as <+: bs)
    (hs : bs.Pairwise (fun i j => i.sequence < j.sequence)) : sequenceOf as ≤ sequenceOf bs := by
  obtain ⟨rest, rfl⟩ := h
  rw [sequenceOf, sequenceOf, List.getLast?_append]
  cases hr : rest.getLast? with
  | none => exact Nat.le_refl _
  | some j =>
      cases ha : as.getLast? with
      | none => exact Nat.zero_le _
      | some i =>
          have hij := (List.pairwise_append.mp hs).2.2 i (List.mem_of_getLast? ha) j (List.mem_of_getLast? hr)
          exact Nat.le_of_lt hij

theorem reported_eq {u : Int} {calls : List Call} {v : PlayerView}
    (hv : v ∈ (replay calls).1.snapshot.players) (hu : v.userId = u) :
    v.lastSequence = sequenceOf (effects u calls) := by
  rw [(mem_snapshot _ hv).2, hu, (effected u calls).last]

/-- The inputs take effect by sequence exactly when they arrived by target
tick: only then the order of arrival and that of the effects are one. -/
theorem inSequence_iff (u : Int) (calls : List Call) :
    InSequence u calls ↔ ((replay calls).2.applied u).Pairwise (fun i j => i.targetTick ≤ j.targetTick) := by
  have heff := effected u calls
  have harrival := applied_ordered u calls
  constructor
  · intro h
    have : Std.Asymm (fun i j : InputCommand => i.sequence < j.sequence) := ⟨fun _ _ => Nat.lt_asymm⟩
    have heq := h.inputs.eq_of_mem_iff harrival heff.applied
    rw [← heq]
    apply heff.earlier.imp
    intro i j hij
    rcases hij with hij | hij
    · exact Int.le_of_lt hij
    · exact Int.le_of_eq hij.1
  · intro h
    have : Std.Asymm Earlier := ⟨fun i j hij hji => by simp only [Earlier] at hij hji; omega⟩
    have hboth : ((replay calls).2.applied u).Pairwise Earlier := by
      apply (h.and harrival).imp
      intro i j hij
      rcases Int.lt_or_eq_of_le hij.1 with hlt | heq
      · exact Or.inl hlt
      · exact Or.inr ⟨heq, hij.2⟩
    have heq := heff.earlier.eq_of_mem_iff hboth heff.applied
    have hinputs : (effects u calls).Pairwise (fun i j => i.sequence < j.sequence) := heq ▸ harrival
    refine ⟨hinputs, ?_⟩
    intro m n hmn v hv w hw hvu hwu
    rw [reported_eq hv hvu, reported_eq hw hwu]
    have hpre : effects u (calls.take n) <+: effects u calls := by
      have h := effects_take u (Nat.le_max_left n calls.length) calls
      rwa [List.take_of_length_le (Nat.le_max_right n calls.length)] at h
    exact sequenceOf_mono (effects_take u hmn calls) (hinputs.sublist hpre.sublist)

/-- A user's inputs take effect by target tick and then by sequence, and a
snapshot reports the sequence of the last of them; that order is the one of the
sequences exactly when the inputs applied had arrived by target tick. -/
theorem effects_in_order (u : Int) (calls : List Call) :
    (effects u calls).Perm ((replay calls).2.applied u) ∧
      (effects u calls).Pairwise Earlier ∧
      (∀ v ∈ (replay calls).1.snapshot.players, v.userId = u → v.lastSequence = sequenceOf (effects u calls)) ∧
      (InSequence u calls ↔ ((replay calls).2.applied u).Pairwise (fun i j => i.targetTick ≤ j.targetTick)) := by
  have heff := effected u calls
  refine ⟨?_, heff.earlier, fun v => reported_eq, inSequence_iff u calls⟩
  refine (List.perm_ext_iff_of_nodup ?_ ?_).mpr heff.applied
  · exact heff.earlier.imp (fun hij => by rintro rfl; simp only [Earlier] at hij; omega)
  · exact (applied_ordered u calls).imp (fun hij => by rintro rfl; exact Nat.lt_irrefl _ hij)

/-- Sequence 1 is for tick 2 and sequence 2 for tick 1: the snapshots report 2
and then 1. -/
theorem not_inSequence_of_later_tick :
    ¬ InSequence 1 [.enqueueInput ⟨1, 2, 1, 1⟩, .enqueueInput ⟨1, 1, 1, 2⟩, .tickOnce, .tickOnce] := by
  intro h
  have hle := h.reported 3 4 (by decide) ⟨1, 1, 2⟩ (by decide) ⟨1, 2, 1⟩ (by decide) rfl rfl
  exact absurd hle (by decide)

end GameServer.Ledger
