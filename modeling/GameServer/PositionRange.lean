import GameServer.SessionPlay
import Mathlib.Algebra.Order.Group.Abs

namespace GameServer

open Simulation

namespace Simulation

def position (s : Simulation) (u : Int) : Int := (s.players.index u).position

def pendingCount (s : Simulation) (u t : Int) : Nat := ((s.inputsByTick.index t).filter (·.userId = u)).length

structure Bounded (s : Simulation) (u : Int) : Prop where
  counted : ∀ t, s.currentTick < t → s.pendingCount u t = s.tickCount u t
  limit : ∀ t, s.currentTick < t → s.pendingCount u t ≤ 4
  step : |s.tickOnce.position u - s.position u| ≤ 12
  near : |s.position u| ≤ 12 * s.currentTick

end Simulation

namespace Ledger

theorem Moves.near_of_part {l : Ledger} (h : l.Moves) {es rest : List InputCommand}
    (hp : (es ++ rest).Perm (l.pending (l.tick + 1))) (players : Table Int PlayerState) (u : Int) :
    |((es.foldl applyEvent players).index u).position - (players.index u).position| ≤ 12 := by
  have hlength : (es.filter (·.userId = u)).length ≤ 4 := by
    have hlimit := h.limit u (l.tick + 1)
    have hsame := (hp.filter (·.userId = u)).length_eq
    rw [List.filter_append, List.length_append, pending, if_neg (by omega), List.filter_filter] at hsame
    simp only [← Bool.decide_and] at hsame
    omega
  have hdelta : ∀ i ∈ es.filter (·.userId = u), -3 ≤ i.delta ∧ i.delta ≤ 3 := by
    intro i hi
    have hin := hp.mem_iff.mp (List.mem_append_left rest (List.mem_of_mem_filter hi))
    exact h.delta i ((l.mem_pending _ i).mp hin).2.1
  have hsum := sum_deltas hdelta hlength
  rw [foldl_applyEvent_position, abs_le]
  omega

theorem Represents.bounds {s : Simulation} {l : Ledger} (hr : Represents s l) (hm : l.Moves) (u : Int) :
    s.Bounded u := by
  have hpending : ∀ t, s.currentTick < t →
      s.pendingCount u t = (l.accepted.filter (fun i => i.userId = u ∧ i.targetTick = t)).length := by
    intro t ht
    rw [hr.tick] at ht
    rw [pendingCount, hr.index_pending, Ledger.pending, if_neg (by omega), List.filter_filter]
    simp only [← Bool.decide_and]
  refine ⟨?_, ?_, ?_, ?_⟩
  · intro t ht
    rw [hpending t ht, hr.counted]
  · intro t ht
    rw [hpending t ht]
    exact hm.limit u t
  · have hperm := stableSort_perm (l.pending (l.tick + 1))
    rw [← List.append_nil (stableSort _)] at hperm
    have hpart := hm.near_of_part hperm s.players u
    rw [← hr.index_pending, ← hr.tick, ← tickOnce_players] at hpart
    exact hpart
  · have hnear := hm.near u
    rw [Simulation.position, hr.position, hr.tick, abs_le]
    omega

theorem moves_replay (calls : List Call) : (replay calls).2.Moves := by
  have hfrom : ∀ (s : Simulation) (l : Ledger), Represents s l → l.Moves → (replayFrom s l calls).2.Moves := by
    induction calls with
    | nil => exact fun s l _ hm => hm
    | cons call calls ih =>
        intro s l hr hm
        apply ih _ _ (hr.perform call)
        cases call with
        | addPlayer v => exact hm.add v
        | tickOnce => exact hm.advance
        | enqueueInput i =>
            simp only [note]
            split
            next ha => exact hm.accept hr ((s.enqueueInput_accepted i).mp ha)
            next => exact hm
  exact hfrom {} {} represents_empty moves_empty

end Ledger

namespace SessionContext

def intMax : Int := 2147483647

def Fits (p : Int) : Prop := intMin < p ∧ p ≤ intMax

/-- No sum of a position with a delta leaves the range, also halfway through
the loop of the tick the timer is armed for, and the winner loop compares
positions that are above its start. -/
structure InRange (ctx : SessionContext) : Prop where
  positions : ∀ u, Fits (ctx.position u)
  partials : ctx.strand.timerArmed = true → ∀ es, es <+: ctx.simulation.nextEvents →
    ∀ u, Fits ((es.foldl applyEvent ctx.simulation.players).index u).position
  compared : ∀ v ∈ ctx.simulation.snapshot.players, Fits v.position
  winner : ctx.Ahead (winner ctx.simulation.snapshot.players)

theorem Plays.inRange {maxTicks : Nat} {ctx : SessionContext} (hs : ctx.Sound) (h : ctx.Plays maxTicks)
    (hmax : maxTicks ≤ 178956970) : ctx.InRange := by
  obtain ⟨l, hl⟩ := h.ledger
  have hsent := h.sent_le
  have hpositions : ∀ u, Fits (ctx.position u) := by
    intro u
    have hnear := hl.near u
    rw [Fits, intMin, intMax, position]
    omega
  refine ⟨hpositions, ?_, ?_, ?_⟩
  · intro harmed es hes u
    have hstage := hs.stage
    have hclock := h.clock
    have hlt : ctx.tickSent < maxTicks := by
      cases hr : ctx.strand.resume <;> simp [Stage, Clock, hr, harmed] at hstage hclock
      simpa [hstage.2.2] using hclock
    obtain ⟨rest, hrest⟩ := hes
    have hperm : (es ++ rest).Perm (l.pending (l.tick + 1)) := by
      rw [hrest, nextEvents, hl.represents.tick, hl.represents.index_pending]
      exact stableSort_perm _
    have hpart := abs_le.mp (hl.moves.near_of_part hperm ctx.simulation.players u)
    have hnear := hl.near u
    rw [Fits, intMin, intMax]
    omega
  · intro v hv
    rw [(ctx.simulation.mem_snapshot hv).1]
    exact hpositions v.userId
  · obtain ⟨p, q, hp, -⟩ := hs.pair
    exact winner_ahead hs hl ⟨p.userId, by simp [userIds, hp], (hpositions _).1⟩

end SessionContext

namespace Server

variable {D : Type}

/-- The counters bound what one tick can do to a position, after any calls on
a simulation, and so the positions of a session stay in the range of an int. -/
theorem positions_bounded (cfg : Config D) :
    (∀ calls u, (Ledger.replay calls).1.Bounded u) ∧
      ∀ (s : Server) (k : Nat) (ctx : SessionContext), (machine cfg).Reachable s → s.contexts[k]? = some ctx →
        (∀ u, ctx.simulation.Bounded u) ∧ (cfg.maxTicks ≤ 178956970 → ctx.InRange) := by
  refine ⟨fun calls u => (Ledger.represents_replay calls).bounds (Ledger.moves_replay calls) u, ?_⟩
  intro s k ctx hr hk
  have hplays := reachable_plays_one hr hk
  obtain ⟨l, hl⟩ := hplays.ledger
  refine ⟨hl.represents.bounds hl.moves, ?_⟩
  intro hmax
  exact hplays.inRange ((reachable_inv hr).sound k ctx hk) (Nat.max_le.mpr ⟨by decide, hmax⟩)

end Server

end GameServer
