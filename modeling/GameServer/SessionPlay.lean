import GameServer.MovementBound
import GameServer.ServerInvariant

namespace GameServer

open Simulation

namespace SessionContext

/-- The ledger of a session: its ticks are those sent, its players and the
authors of its inputs are the participants. -/
structure Played (ctx : SessionContext) (l : Ledger) : Prop where
  represents : Ledger.Represents ctx.simulation l
  moves : l.Moves
  tick : l.tick = ctx.tickSent
  added : ∀ u, u ∈ l.added ↔ u ∈ ctx.userIds
  authors : ∀ i ∈ l.accepted, i.userId ∈ ctx.userIds

def Clock (maxTicks : Nat) (ctx : SessionContext) : Prop :=
  match ctx.strand.resume with
  | .finishSession _ => ctx.tickSent = maxTicks
  | _ => if ctx.ended then ctx.tickSent = maxTicks else ctx.tickSent < maxTicks

structure Plays (maxTicks : Nat) (ctx : SessionContext) : Prop where
  ledger : ∃ l, ctx.Played l
  clock : ctx.Clock maxTicks
  fresh : ctx.strand.startQueued = true → ctx.tickSent = 0

theorem Played.congr {ctx ctx' : SessionContext} {l : Ledger} (h : ctx.Played l)
    (hs : ctx'.simulation = ctx.simulation) (ht : ctx'.tickSent = ctx.tickSent)
    (hp : ctx'.participants = ctx.participants) : ctx'.Played l where
  represents := hs ▸ h.represents
  moves := h.moves
  tick := ht ▸ h.tick
  added := by
    rw [userIds, hp]
    exact h.added
  authors := by
    rw [userIds, hp]
    exact h.authors

theorem Played.tickOnce {ctx : SessionContext} {l : Ledger} (h : ctx.Played l) :
    ({ ctx with simulation := ctx.simulation.tickOnce, tickSent := ctx.tickSent + 1 } : SessionContext).Played
      l.advance where
  represents := h.represents.tickOnce
  moves := h.moves.advance
  tick := by
    have htick := h.tick
    simp only [Ledger.advance]
    omega
  added := h.added
  authors := h.authors

theorem Played.push {ctx : SessionContext} {l : Ledger} (h : ctx.Played l) {input : InputCommand}
    (hv : ctx.simulation.validateInput input = .ok ()) (hin : input.userId ∈ ctx.userIds) :
    ({ ctx with simulation := ctx.simulation.push input } : SessionContext).Played (l.accept input) where
  represents := h.represents.push hv
  moves := h.moves.accept h.represents hv
  tick := h.tick
  added := h.added
  authors := by
    intro i hi
    rcases List.mem_append.mp hi with hi | hi
    · exact h.authors i hi
    · rw [List.mem_singleton.mp hi]
      exact hin

theorem Played.players {ctx : SessionContext} {l : Ledger} (h : ctx.Played l) (u : Int) :
    u ∈ ctx.simulation.players ↔ u ∈ ctx.userIds := by
  rw [h.represents.listed, Ledger.Listed, h.added]
  constructor
  · rintro (hu | hu)
    · exact hu
    · obtain ⟨i, hi⟩ := List.exists_mem_of_ne_nil _ hu
      obtain ⟨hacc, hiu, -⟩ := (l.mem_applied u i).mp hi
      exact hiu ▸ h.authors i hacc
  · exact Or.inl

theorem Played.near {ctx : SessionContext} {l : Ledger} (h : ctx.Played l) (u : Int) :
    -(12 * ctx.tickSent) ≤ (ctx.simulation.players.index u).position ∧
      (ctx.simulation.players.index u).position ≤ 12 * ctx.tickSent := by
  rw [h.represents.position, ← h.tick]
  exact h.moves.near u

theorem Plays.open_lt {maxTicks : Nat} {ctx : SessionContext} (h : ctx.Plays maxTicks) (ho : ctx.ended = false)
    (hr : ctx.strand.resume = .idle ∨ ctx.strand.resume = .scheduleTick) : ctx.tickSent < maxTicks := by
  have hclock := h.clock
  rcases hr with hr | hr <;> simpa [Clock, hr, ho] using hclock

theorem Plays.sent_le {maxTicks : Nat} {ctx : SessionContext} (h : ctx.Plays maxTicks) : ctx.tickSent ≤ maxTicks := by
  have hclock := h.clock
  rw [Clock] at hclock
  split at hclock
  next => exact Nat.le_of_eq hclock
  next =>
    split at hclock
    next => exact Nat.le_of_eq hclock
    next => exact Nat.le_of_lt hclock

theorem Plays.move {maxTicks : Nat} {c d : SessionContext} (hsound : c.Sound) (hm : c.Move maxTicks d)
    (h : c.Plays maxTicks) : d.Plays maxTicks := by
  obtain ⟨l, hl⟩ := h.ledger
  cases hm with
  | start hfree hq now =>
      refine ⟨⟨l, hl.congr rfl rfl rfl⟩, ?_, by simp [startSession]⟩
      have hopen := (hsound.start hfree hq now).2
      have hlt := h.open_lt hopen (Or.inl hfree.2)
      simpa [Clock, startSession, hopen] using hlt
  | tick hfree ha now =>
      have hopen := hsound.armed hfree ha
      have hlt := h.open_lt hopen.1 (Or.inl hfree.2)
      have hd : c.disarm.ended = false := hopen.1
      have hdisarmed : c.disarm.Played l := hl.congr rfl rfl rfl
      have hplayed := hdisarmed.tickOnce
      simp only [handleTick, hd, Bool.false_eq_true, if_false]
      refine ⟨⟨l.advance, hplayed.congr rfl rfl rfl⟩, ?_, by simp [disarm, hopen.2]⟩
      by_cases hlast : c.disarm.tickSent + 1 ≥ maxTicks
      · simp only [Clock, hlast, if_true]
        exact Nat.le_antisymm hlt hlast
      · simp only [Clock, hlast, if_false, Bool.false_eq_true]
        exact Nat.lt_of_not_le hlast
  | disarm hfree ha => exact ⟨⟨l, hl.congr rfl rfl rfl⟩, h.clock, h.fresh⟩
  | send hs => exact ⟨⟨l, hl.congr rfl rfl rfl⟩, h.clock, h.fresh⟩
  | schedule hs hr =>
      have hopen := (hsound.scheduleTick hs hr).2
      have hlt := h.open_lt hopen (Or.inr hr)
      exact ⟨⟨l, hl.congr rfl rfl rfl⟩, by simpa [Clock, scheduleTick, hopen] using hlt, h.fresh⟩
  | @finish hs now hr =>
      obtain ⟨p, q, hp, -⟩ := hsound.pair
      have hopen := (hsound.finish hr).2.1
      have hcount : c.tickSent = maxTicks := by
        have hclock := h.clock
        simpa only [Clock, hr] using hclock
      rw [finishSession_open hopen hp]
      exact ⟨⟨l, hl.congr rfl rfl rfl⟩, hcount, h.fresh⟩
  | @resume hs hr r hr' =>
      have hended : c.ended = true := by
        have hstage := hsound.stage
        revert hr
        cases hcase : c.strand.resume <;> simp only [Stage, hcase] at hstage <;> simp [Finalizing, hstage]
      have hcount : c.tickSent = maxTicks := by
        have hclock := h.clock
        revert hr
        cases hcase : c.strand.resume <;> simp only [Clock, hcase, hended, if_true] at hclock <;>
          simp [Finalizing, hclock]
      refine ⟨⟨l, hl.congr rfl rfl rfl⟩, ?_, h.fresh⟩
      cases r <;> simp [Clock, resumeAt, hended, hcount]
  | input hfree input =>
      obtain ⟨hshape, hstrand, hended, htick⟩ := handleInput_frame c input
      refine ⟨?_, ?_, ?_⟩
      · cases hres : (c.handleInput input).2 with
        | error e =>
            rw [(handleInput_error hres).1]
            exact ⟨l, hl⟩
        | ok u =>
            obtain ⟨-, hin, hv, hd⟩ := handleInput_ok hres
            rw [hd]
            exact ⟨_, hl.push hv ((hsound.members _).mp hin)⟩
      · have hclock := h.clock
        rw [Clock, hstrand, hended, htick]
        exact hclock
      · rw [hstrand, htick]
        exact h.fresh

def position (ctx : SessionContext) (u : Int) : Int := (ctx.simulation.players.index u).position

def Ahead (ctx : SessionContext) (w : Int) : Prop :=
  w ∈ ctx.userIds ∧ ∀ v ∈ ctx.userIds, ctx.position v < ctx.position w ∨ (ctx.position v = ctx.position w ∧ w ≤ v)

def Decisive (ctx : SessionContext) : Prop := ∃ u ∈ ctx.userIds, intMin < ctx.position u

theorem snapshot_pair {ctx : SessionContext} (hs : ctx.Sound) {l : Ledger} (hl : ctx.Played l) :
    ∃ x y : PlayerView, ctx.simulation.snapshot.players = [x, y] ∧ x.userId < y.userId ∧
      x.position = ctx.position x.userId ∧ y.position = ctx.position y.userId ∧
      ∀ u, u ∈ ctx.userIds ↔ u = x.userId ∨ u = y.userId := by
  obtain ⟨p, q, hp, hne⟩ := hs.pair
  have hids : ctx.userIds = [p.userId, q.userId] := by simp [userIds, hp]
  have hasc := ctx.simulation.snapshot_ascending
  have hmem : ∀ u, u ∈ ctx.simulation.snapshot.players.map (·.userId) ↔ u ∈ ctx.userIds := by
    intro u
    rw [mem_snapshot_userIds, hl.players]
  have hperm : (ctx.simulation.snapshot.players.map (·.userId)).Perm ctx.userIds := by
    apply (List.perm_ext_iff_of_nodup _ _).mpr hmem
    · exact hasc.imp (fun h => ne_of_lt h)
    · simp [hids, hne]
  have hlen := hperm.length_eq
  simp only [List.length_map, hids, List.length_cons, List.length_nil] at hlen
  obtain ⟨x, y, hxy⟩ := List.length_eq_two.mp hlen
  have hxin : x ∈ ctx.simulation.snapshot.players := by simp [hxy]
  have hyin : y ∈ ctx.simulation.snapshot.players := by simp [hxy]
  have hx := ctx.simulation.mem_snapshot hxin
  have hy := ctx.simulation.mem_snapshot hyin
  refine ⟨x, y, hxy, ?_, hx.1, hy.1, ?_⟩
  · simpa [hxy] using hasc
  · intro u
    rw [← hmem, hxy]
    simp

theorem winner_two (x y : PlayerView) :
    winner [x, y] =
      if x.position > intMin then (if y.position > x.position then y.userId else x.userId)
      else if y.position > intMin then y.userId else 0 := by
  by_cases hx : x.position > intMin
  · by_cases hy : y.position > x.position <;> simp [winner, hx, hy]
  · by_cases hy : y.position > intMin <;> simp [winner, hx, hy]

/-- The loop finds the participant ahead as soon as anybody is decisive. -/
theorem winner_ahead {ctx : SessionContext} (hs : ctx.Sound) {l : Ledger} (hl : ctx.Played l)
    (hd : ctx.Decisive) : ctx.Ahead (winner ctx.simulation.snapshot.players) := by
  obtain ⟨x, y, hxy, hlt, hx, hy, hids⟩ := snapshot_pair hs hl
  obtain ⟨u, hu, hpos⟩ := hd
  rw [hxy, winner_two, hx, hy]
  by_cases hxmin : ctx.position x.userId > intMin
  · rw [if_pos hxmin]
    by_cases hyx : ctx.position y.userId > ctx.position x.userId
    · rw [if_pos hyx]
      refine ⟨(hids _).mpr (Or.inr rfl), ?_⟩
      intro v hv
      rcases (hids v).mp hv with rfl | rfl
      · exact Or.inl hyx
      · exact Or.inr ⟨rfl, le_refl _⟩
    · rw [if_neg hyx]
      refine ⟨(hids _).mpr (Or.inl rfl), ?_⟩
      intro v hv
      rcases (hids v).mp hv with rfl | rfl
      · exact Or.inr ⟨rfl, le_refl _⟩
      · rcases lt_or_eq_of_le (not_lt.mp hyx) with hless | heq
        · exact Or.inl hless
        · exact Or.inr ⟨heq, le_of_lt hlt⟩
  · rw [if_neg hxmin]
    have hymin : ctx.position y.userId > intMin := by
      rcases (hids u).mp hu with rfl | rfl
      · exact absurd hpos hxmin
      · exact hpos
    rw [if_pos hymin]
    refine ⟨(hids _).mpr (Or.inr rfl), ?_⟩
    intro v hv
    rcases (hids v).mp hv with rfl | rfl
    · exact Or.inl (lt_of_le_of_lt (not_lt.mp hxmin) hymin)
    · exact Or.inr ⟨rfl, le_refl _⟩

theorem winner_zero {ctx : SessionContext} (hs : ctx.Sound) {l : Ledger} (hl : ctx.Played l)
    (hd : ¬ ctx.Decisive) : winner ctx.simulation.snapshot.players = 0 := by
  obtain ⟨x, y, hxy, -, hx, hy, hids⟩ := snapshot_pair hs hl
  have hxmin : ¬ ctx.position x.userId > intMin := fun h => hd ⟨_, (hids _).mpr (Or.inl rfl), h⟩
  have hymin : ¬ ctx.position y.userId > intMin := fun h => hd ⟨_, (hids _).mpr (Or.inr rfl), h⟩
  rw [hxy, winner_two, hx, hy, if_neg hxmin, if_neg hymin]

end SessionContext

namespace Server

variable {D : Type} {cfg : Config D}

/-- The first tick is played before the limit is looked at, so a limit of zero
is a limit of one. -/
theorem machine_max_one (cfg : Config D) : machine { cfg with maxTicks := max 1 cfg.maxTicks } = machine cfg := by
  have hlimit : ∀ n : Nat, max 1 cfg.maxTicks ≤ n + 1 ↔ cfg.maxTicks ≤ n + 1 := by omega
  have htick : ∀ (ctx : SessionContext) (now : Int),
      ctx.handleTick (max 1 cfg.maxTicks) now = ctx.handleTick cfg.maxTicks now := by
    intro ctx now
    simp only [SessionContext.handleTick, ge_iff_le, hlimit]
  have hstep : step { cfg with maxTicks := max 1 cfg.maxTicks } = step cfg := by
    funext s a
    cases a with
    | timer k ok now => simp only [step, htick]
    | _ => rfl
  rw [machine, hstep]
  rfl

theorem newContext_plays (s : Server) (first second : AuthUser) (hn : 1 ≤ cfg.maxTicks) :
    (s.newContext cfg (pairParticipants first second)).Plays cfg.maxTicks where
  ledger := by
    refine ⟨(({} : Ledger).add first.userId).add second.userId, ?_, ?_, rfl, ?_, ?_⟩
    · exact (Ledger.represents_empty.addPlayer _).addPlayer _
    · exact (Ledger.moves_empty.add _).add _
    · intro u
      simp [Ledger.add, newContext, SessionContext.userIds, pairParticipants]
    · intro i hi
      simp [Ledger.add] at hi
  clock := hn
  fresh := fun _ => rfl

theorem reachable_plays (hn : 1 ≤ cfg.maxTicks) {s : Server} (h : (machine cfg).Reachable s) {k : Nat}
    {ctx : SessionContext} (hk : s.contexts[k]? = some ctx) : ctx.Plays cfg.maxTicks := by
  refine reachable_context (P := fun ctx => ctx.Plays cfg.maxTicks) ?_ ?_ h hk
  · intro s first second _
    exact newContext_plays s first second hn
  · intro c d hsound hmove hplays
    exact hplays.move hsound hmove

theorem reachable_plays_one {s : Server} (h : (machine cfg).Reachable s) {k : Nat} {ctx : SessionContext}
    (hk : s.contexts[k]? = some ctx) : ctx.Plays (max 1 cfg.maxTicks) := by
  rw [← machine_max_one] at h
  exact reachable_plays (Nat.le_max_left _ _) h hk

end Server

end GameServer
