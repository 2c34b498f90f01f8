import GameServer.PositionRange
import GameServer.SubmitInput

namespace GameServer

open Simulation

namespace SessionContext

def Waits (ctx : SessionContext) (i : InputCommand) : Prop :=
  ctx.simulation.currentTick < i.targetTick ∧ i ∈ ctx.simulation.inputsByTick.index i.targetTick

theorem finishSession_simulation (ctx : SessionContext) (now : Int) :
    (ctx.finishSession now).simulation = ctx.simulation := by
  rw [finishSession]
  split <;> rfl

theorem Waits.congr {c d : SessionContext} {i : InputCommand} (h : c.Waits i) (hs : d.simulation = c.simulation) :
    d.Waits i := by
  rw [Waits, hs]
  exact h

theorem Waits.handleInput {c : SessionContext} {i : InputCommand} (h : c.Waits i) (input : SessionInput) :
    (c.handleInput input).1.Waits i := by
  cases hres : (c.handleInput input).2 with
  | error e =>
      rw [(handleInput_error hres).1]
      exact h
  | ok u =>
      rw [(handleInput_ok hres).2.2.2]
      refine ⟨h.1, ?_⟩
      change i ∈ (c.simulation.push input.command).inputsByTick.index i.targetTick
      rw [index_push]
      split
      next ht => exact List.mem_append_left _ (ht ▸ h.2)
      next => exact h.2

theorem Waits.handleTick {c : SessionContext} {i : InputCommand} (h : c.Waits i) (maxTicks : Nat) (now : Int) :
    (c.ended = false ∧ i ∈ c.simulation.nextEvents) ∨ (c.disarm.handleTick maxTicks now).Waits i := by
  by_cases hended : c.disarm.ended = true
  · right
    rw [SessionContext.handleTick, if_pos hended]
    exact h
  have hsim : (c.disarm.handleTick maxTicks now).simulation = c.simulation.tickOnce := by
    rw [SessionContext.handleTick, if_neg hended]
    rfl
  obtain ⟨htick, hin⟩ := h
  by_cases hnext : i.targetTick = c.simulation.currentTick + 1
  · refine Or.inl ⟨by simpa [disarm] using hended, (mem_nextEvents _ _).mpr ?_⟩
    rw [← hnext]
    exact hin
  · refine Or.inr ⟨?_, ?_⟩
    · rw [hsim, tickOnce_currentTick]
      omega
    · rw [hsim, index_tickOnce, if_neg hnext]
      exact hin

end SessionContext

namespace Server

variable {D : Type} {cfg : Config D}

/-- The step is a tick of the session that calls ApplyEvent on the input. -/
def Applies (k : Nat) (i : InputCommand) (s : Server) (a : Action) : Prop :=
  ∃ (ctx : SessionContext) (now : Int), a = .timer k true now ∧ s.contexts[k]? = some ctx ∧
    ctx.ended = false ∧ i ∈ ctx.simulation.nextEvents

theorem proceed_simulation {s t : Server} {k : Nat} {c : SessionContext} (h : s.proceed cfg k c = some t) :
    ∃ d : SessionContext, t.contexts = s.contexts.set k d ∧ d.simulation = c.simulation := by
  rw [proceed] at h
  split at h
  next =>
    cases h
    exact ⟨_, rfl, rfl⟩
  next =>
    split at h
    next => cases h
    next now _ =>
      cases h
      exact ⟨_, rfl, rfl⟩
    next =>
      cases h
      exact ⟨_, rfl, c.finishSession_simulation _⟩
    next => cases h; exact ⟨_, rfl, rfl⟩
    next => cases h; exact ⟨_, rfl, rfl⟩
    next => cases h; exact ⟨_, rfl, rfl⟩
    next => cases h; exact ⟨_, rfl, rfl⟩

theorem waits_step {s t : Server} {a : Action} (h : s.step cfg a = some t) {k : Nat} {i : InputCommand}
    (hw : ∃ c ∈ s.contexts[k]?, c.Waits i) : (∃ c ∈ t.contexts[k]?, c.Waits i) ∨ Applies k i s a := by
  obtain ⟨c, hk, hw⟩ := hw
  have hk : s.contexts[k]? = some c := hk
  rcases frame_of_step h with ⟨-, new, hnew⟩ | ⟨-, -, -, hc | ⟨j, ctx, hj, hturn⟩⟩
  · rw [hnew]
    exact Or.inl ⟨c, (List.getElem?_append_left (List.getElem?_eq_some_iff.mp hk).1).trans hk, hw⟩
  · exact Or.inl ⟨c, hc ▸ hk, hw⟩
  by_cases hjk : j = k
  · subst hjk
    rw [hk] at hj
    cases hj
    cases hturn with
    | start _ now ht =>
        rw [ht]
        exact Or.inl ⟨_, getElem?_set_of_eq hk, hw⟩
    | timer _ ok now ht =>
        rw [ht]
        cases ok with
        | false => exact Or.inl ⟨_, getElem?_set_of_eq hk, hw⟩
        | true =>
            rcases hw.handleTick cfg.maxTicks now with happ | hw'
            · exact Or.inr ⟨c, now, rfl, hk, happ⟩
            · exact Or.inl ⟨_, getElem?_set_of_eq hk, hw'⟩
    | proceed hp =>
        obtain ⟨d, hset, hsim⟩ := proceed_simulation hp
        rw [hset]
        exact Or.inl ⟨d, getElem?_set_of_eq hk, hw.congr hsim⟩
    | @input _ n input _ ht =>
        rw [ht]
        exact Or.inl ⟨_, getElem?_set_of_eq hk, hw.handleInput input⟩
  · obtain ⟨ctx', hset⟩ := hturn.contexts
    rw [hset]
    exact Or.inl ⟨c, getElem?_set_of_ne hk hjk, hw⟩

theorem Submits.leads {s t t' : Server} {input : SessionInput} {result : Except Error Unit}
    (h : Submits cfg s input t t' result) : (machine cfg).Leads s t' := by
  cases h with
  | refused => exact .refl s
  | @handled k n _ ctx hl ht hn hk hfree =>
      have hlookup : (machine cfg).step s (.submitLookup input) = some { s with calls := s.calls ++ [(input, k)] } := by
        simp [machine, step, hl]
      have hhandler : (machine cfg).step t (.submitHandler n) =
          some { t.setContext k (ctx.handleInput input).1 with calls := t.calls.eraseIdx n } := by
        simp [machine, step, hn, hk, hfree]
      exact ((Machine.Leads.of_step hlookup).trans ht).step hhandler

theorem target_of_applied (hn : 1 ≤ cfg.maxTicks) {s t : Server} (hr : (machine cfg).Reachable s) {a : Action}
    (hs : (machine cfg).step s a = some t) {k : Nat} {i : InputCommand} (h : Applies k i s a) :
    i.targetTick ≤ cfg.maxTicks := by
  obtain ⟨ctx, now, rfl, hk, hopen, hin⟩ := h
  obtain ⟨c, hc, hs⟩ := Option.bind_eq_some_iff.mp hs
  rw [hk] at hc
  cases hc
  split at hs
  next hg =>
    have hplays := reachable_plays hn hr hk
    have hlt := hplays.open_lt hopen (Or.inl hg.1.2)
    obtain ⟨l, hl⟩ := hplays.ledger
    rw [mem_nextEvents, hl.represents.index_pending, Ledger.mem_pending] at hin
    have htarget := hin.2.2
    rw [hl.represents.tick, hl.tick] at htarget
    omega
  next => cases hs

theorem target_of_takes (hn : 1 ≤ cfg.maxTicks) {s : Server} (hr : (machine cfg).Reachable s) {k : Nat}
    {i : InputCommand} {as : List Action} (h : (machine cfg).Takes (Applies k i) s as) :
    i.targetTick ≤ cfg.maxTicks := by
  obtain ⟨u, a, t, hu, ht, happ⟩ := h.exists_step
  exact target_of_applied hn (hr.leads hu) ht happ

theorem ended_tick (hn : 1 ≤ cfg.maxTicks) {s : Server} (hr : (machine cfg).Reachable s) {k : Nat}
    {ctx : SessionContext} (hk : s.contexts[k]? = some ctx) (hended : ctx.ended = true) :
    ctx.simulation.currentTick = cfg.maxTicks := by
  have hplays := reachable_plays hn hr hk
  obtain ⟨l, hl⟩ := hplays.ledger
  have hclock := hplays.clock
  have hsent : ctx.tickSent = cfg.maxTicks := by
    rw [SessionContext.Clock] at hclock
    split at hclock
    next => exact hclock
    next => rwa [if_pos hended] at hclock
  rw [hl.represents.tick, hl.tick, hsent]

/-- The inputs SubmitInput accepts for ticks up to the last are applied before
the session ends, and no others are. -/
theorem accepted_applied_iff (hn : 1 ≤ cfg.maxTicks) {s t t' : Server} (hr : (machine cfg).Reachable s)
    {input : SessionInput} (hsub : Submits cfg s input t t' (.ok ())) {k : Nat} (hl : s.lookupSession input = .ok k)
    {as : List Action} {u : Server} (hrun : (machine cfg).runFrom t' as = some u) {ctx : SessionContext}
    (hk : u.contexts[k]? = some ctx) (hended : ctx.ended = true) :
    (machine cfg).Takes (Applies k input.command) t' as ↔ input.targetTick ≤ cfg.maxTicks := by
  have hr' : (machine cfg).Reachable t' := hr.leads hsub.leads
  constructor
  · exact target_of_takes hn hr'
  · intro htarget
    have hwaits : ∃ c ∈ t'.contexts[k]?, c.Waits input.command := by
      generalize hres : (Except.ok () : Except Error Unit) = result at hsub
      cases hsub with
      | refused => cases hres
      | @handled j n _ c hl' ht hcall hc hfree =>
          rw [hl] at hl'
          cases hl'
          obtain ⟨-, -, hv, hh⟩ := SessionContext.handleInput_ok hres.symm
          refine ⟨_, List.getElem?_set_self (List.getElem?_eq_some_iff.mp hc).1, ?_⟩
          rw [hh]
          refine ⟨((c.simulation.validateInput_ok_iff input.command).mp hv).1, ?_⟩
          change input.command ∈ (c.simulation.push input.command).inputsByTick.index input.command.targetTick
          rw [index_push, if_pos rfl]
          exact List.mem_append_right _ (List.mem_singleton_self _)
    refine Machine.takes_of_lost (I := fun _ => True) (P := fun s => ∃ c ∈ s.contexts[k]?, c.Waits input.command)
      (fun _ _ _ _ _ => trivial) ?_ hrun trivial hwaits ?_
    · intro s a t _ hp hs
      exact waits_step hs hp
    · rintro ⟨c, hc, hwait, -⟩
      have hcu : u.contexts[k]? = some c := hc
      rw [hk] at hcu
      cases hcu
      rw [ended_tick hn (hr'.leads ⟨as, hrun⟩) hk hended] at hwait
      exact absurd (Int.lt_of_lt_of_le hwait htarget) (Int.lt_irrefl _)

theorem submits_at_once {s : Server} {input : SessionInput} {k : Nat} {ctx : SessionContext}
    (hl : s.lookupSession input = .ok k) (hcalls : s.calls = []) (hk : s.contexts[k]? = some ctx)
    (hfree : ctx.strand.Free) (hok : (ctx.handleInput input).2 = .ok ()) :
    Submits cfg s input { s with calls := [(input, k)] } (s.setContext k (ctx.handleInput input).1) (.ok ()) := by
  cases s
  cases hcalls
  rw [← hok]
  exact Submits.handled (n := 0) hl (.refl _) rfl hk hfree

def lastTick : List Action := .timer 0 true 0 :: List.replicate 3 (.proceed 0)

theorem submit_before_last (targetTick : Int) (h : targetTick = 1 ∨ targetTick = 2) :
    ∃ (s : Server) (ctx : SessionContext) (u : Server) (ctx' : SessionContext),
      (machine (evenConfig 1)).run (matchActions ⟨1, "kim"⟩ ⟨2, "lee"⟩ ++ startActions 0) = some s ∧
      s.lookupSession ⟨"session-1", 1, 1, targetTick, 3⟩ = .ok 0 ∧
      Submits (evenConfig 1) s ⟨"session-1", 1, 1, targetTick, 3⟩
        { s with calls := [(⟨"session-1", 1, 1, targetTick, 3⟩, 0)] }
        (s.setContext 0 (ctx.handleInput ⟨"session-1", 1, 1, targetTick, 3⟩).1) (.ok ()) ∧
      (machine (evenConfig 1)).runFrom (s.setContext 0 (ctx.handleInput ⟨"session-1", 1, 1, targetTick, 3⟩).1)
        lastTick = some u ∧
      u.contexts[0]? = some ctx' ∧ ctx'.ended = true := by
  have hrun : ((machine (evenConfig 1)).run (matchActions ⟨1, "kim"⟩ ⟨2, "lee"⟩ ++ startActions 0)).any (fun s =>
      decide (s.lookupSession ⟨"session-1", 1, 1, targetTick, 3⟩ = .ok 0 ∧ s.calls = [] ∧
        ∃ ctx ∈ s.contexts[0]?, (ctx : SessionContext).strand.Free ∧
          (ctx.handleInput ⟨"session-1", 1, 1, targetTick, 3⟩).2 = .ok () ∧
          ∃ u ∈ (machine (evenConfig 1)).runFrom
            (s.setContext 0 (ctx.handleInput ⟨"session-1", 1, 1, targetTick, 3⟩).1) lastTick,
            ∃ ctx' ∈ (u : Server).contexts[0]?, (ctx' : SessionContext).ended = true)) = true := by
    rcases h with rfl | rfl <;> decide
  obtain ⟨s, hs, -, hl, hcalls, ctx, hk, hfree, hok, u, hu, ctx', hk', hended⟩ := Machine.exists_of_run _ _ hrun
  exact ⟨s, ctx, u, ctx', hs, hl, submits_at_once hl hcalls hk hfree hok, hu, hk', hended⟩

theorem not_applied_after_last : ∃ s t t', (machine (evenConfig 1)).run
    (matchActions ⟨1, "kim"⟩ ⟨2, "lee"⟩ ++ startActions 0) = some s ∧
      Submits (evenConfig 1) s ⟨"session-1", 1, 1, 2, 3⟩ t t' (.ok ()) ∧
      ∃ u ctx, (machine (evenConfig 1)).runFrom t' lastTick = some u ∧ u.contexts[0]? = some ctx ∧ ctx.ended = true ∧
        ¬ (machine (evenConfig 1)).Takes (Applies 0 ⟨1, 2, 3, 1⟩) t' lastTick := by
  obtain ⟨s, ctx, u, ctx', hs, -, hsub, hu, hk, hended⟩ := submit_before_last 2 (Or.inr rfl)
  refine ⟨s, _, _, hs, hsub, u, ctx', hu, hk, hended, ?_⟩
  intro htakes
  have htarget := target_of_takes (Nat.le_refl 1) ((Machine.Reachable.of_run hs).leads hsub.leads) htakes
  exact absurd htarget (by decide)

theorem accepted_applied_of_first : ∃ s t t', (machine (evenConfig 1)).run
    (matchActions ⟨1, "kim"⟩ ⟨2, "lee"⟩ ++ startActions 0) = some s ∧
      Submits (evenConfig 1) s ⟨"session-1", 1, 1, 1, 3⟩ t t' (.ok ()) ∧
      (machine (evenConfig 1)).Takes (Applies 0 ⟨1, 1, 3, 1⟩) t' lastTick := by
  obtain ⟨s, ctx, u, ctx', hs, hl, hsub, hu, hk, hended⟩ := submit_before_last 1 (Or.inl rfl)
  exact ⟨s, _, _, hs, hsub,
    (accepted_applied_iff (Nat.le_refl 1) (.of_run hs) hsub hl hu hk hended).mpr (by decide)⟩

end Server

end GameServer
