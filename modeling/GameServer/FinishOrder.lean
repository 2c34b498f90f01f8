import GameServer.EventOrder
import GameServer.ResultInvariant
import GameServer.StrandProgress

namespace GameServer

namespace SessionContext

def Settled (ctx : SessionContext) : Prop :=
  ctx.ended = true ∧ (ctx.strand.resume = .release ∨ ctx.strand.resume = .idle)

theorem Finished.settled {ctx : SessionContext} (h : ctx.Finished) : ctx.Settled := ⟨h.1, Or.inr h.2.2⟩

theorem Settled.tally {ctx : SessionContext} (h : ctx.Settled) :
    ctx.tally = some (ctx.winnerUserId, ctx.userIds, true) := by
  rcases h.2 with hr | hr <;> simp [SessionContext.tally, h.1, hr]

theorem sends_of_tally {ctx : SessionContext} (hs : ctx.Sound) (h : ctx.tally.isSome = true) :
    ctx.strand.sends = [] := by
  have hstage := hs.stage
  rw [Stage] at hstage
  split at hstage
  next => exact hstage.1
  next => simp [tally_open hstage.2.2] at h
  next => simp [tally_open hstage.2.2] at h
  next hr => simp [SessionContext.tally, hr] at h
  next => exact hstage.2.2.2.1
  next => exact hstage.2.2.2

theorem Move.stays_ended {maxTicks : Nat} {c d : SessionContext} (hm : c.Move maxTicks d) (hc : c.ended = true) :
    d.ended = true := by
  cases hm with
  | start | disarm | send | schedule | resume => exact hc
  | tick => exact (handleTick_ended _ _ _).trans hc
  | finish => simp [finishSession, hc]
  | input hfree input => exact (handleInput_frame c input).2.2.1.trans hc

theorem Move.settles {maxTicks : Nat} {c d : SessionContext} (hs : c.Sound) (hm : c.Move maxTicks d)
    (hd : d.Settled) : c.Settled ∨ (c.strand.sends = [] ∧ c.ended = true ∧ Finalizing c.strand.resume) := by
  obtain ⟨hended, hr⟩ := hd
  cases hm with
  | start hfree hq now =>
      have hopen := (hs.start hfree hq now).2
      rw [show (c.startSession now).ended = c.ended from rfl, hopen] at hended
      cases hended
  | tick hfree ha now =>
      rw [handleTick_ended, show c.disarm.ended = c.ended from rfl, (hs.armed hfree ha).1] at hended
      cases hended
  | disarm hfree ha => exact Or.inl ⟨hended, hr⟩
  | send hsends => exact Or.inl ⟨hended, hr⟩
  | schedule hsends hr' =>
      rw [show c.scheduleTick.ended = c.ended from rfl, (hs.scheduleTick hsends hr').2] at hended
      cases hended
  | finish hsends hr' =>
      obtain ⟨p, q, hp, -⟩ := hs.pair
      rw [finishSession_open (hs.finish hr').2.1 hp] at hr
      rcases hr with hr | hr <;> cases hr
  | resume hsends hfin hr' => exact Or.inr ⟨hsends, hended, hfin⟩
  | input hfree input =>
      obtain ⟨-, hstrand, hsame, -⟩ := handleInput_frame c input
      rw [hsame] at hended
      rw [hstrand] at hr
      exact Or.inl ⟨hended, hr⟩

end SessionContext

namespace Server

open SessionContext

variable {D : Type} {cfg : Config D}

def EndSent (s : Server) (id : String) (u : Int) : Prop := ∃ e ∈ s.sentTo u id, e.name = "session.ended"

instance (s : Server) (id : String) (u : Int) : Decidable (s.EndSent id u) :=
  inferInstanceAs (Decidable (∃ e ∈ s.sentTo u id, e.name = "session.ended"))

def Rated (cfg : Config D) (s : Server) (k : Nat) : Prop :=
  ∃ (s₀ s₁ : Server) (c : SessionContext) (record : MatchResultRecord),
    (machine cfg).Reachable s₀ ∧ s₀.contexts[k]? = some c ∧ c.IsRecord record ∧
      c.strand.resume = .ensureUsers record [] ∧ (machine cfg).step s₀ (.proceed k) = some s₁ ∧
      s₁.ratings = (s₀.ratings.applyMatchResult cfg.elo record.winnerUserId record.loserId).1 ∧
      (machine cfg).Leads s₁ s

/-- What a user finds once a session of its is over. A user found in a session
or refused by Join is in another one, or in the queue. -/
structure FinishedWorld (cfg : Config D) (s : Server) (k : Nat) (ctx : SessionContext) (u : Int) : Prop where
  stored : ∃ record, s.records.lookup ctx.id = some record ∧ ctx.IsRecord record
  rated : Rated cfg s k
  released : s.userToSession.lookup u ≠ some ctx.id
  moved : s.isUserInSession u = true → ∃ (j : Nat) (other : SessionContext),
    s.contexts[j]? = some other ∧ j ≠ k ∧ ¬ other.Finished ∧ u ∈ other.userIds
  joins : s.joinRefused u = true → u ∈ s.queue.userIndex ∨ ∃ (j : Nat) (other : SessionContext),
    s.contexts[j]? = some other ∧ j ≠ k ∧ ¬ other.Finished ∧ u ∈ other.userIds

theorem rated_step {s t : Server} {a : Action} (hr : (machine cfg).Reachable s)
    (hold : ∀ (k : Nat) (c : SessionContext), s.contexts[k]? = some c → c.Settled → Rated cfg s k)
    (hstep : (machine cfg).step s a = some t) (k : Nat) (d : SessionContext) (hk : t.contexts[k]? = some d)
    (hd : d.Settled) : Rated cfg t k := by
  have hi := reachable_inv hr
  have hextend : Rated cfg s k → Rated cfg t k := by
    intro ⟨s₀, s₁, c, record, hs₀, hc, hrec, hres, hrate, hratings, hleads⟩
    exact ⟨s₀, s₁, c, record, hs₀, hc, hrec, hres, hrate, hratings, hleads.step hstep⟩
  rcases move_effect (effect_of_step hstep) k d hk with ⟨c, hc, rfl | hm⟩ | ⟨-, first, second, -, rfl⟩
  · exact hextend (hold k d hc hd)
  · rcases hm.settles (hi.sound k c hc) hd with hset | ⟨hs, hended, hfin⟩
    · exact hextend (hold k c hc hset)
    · have hbusy : ¬ c.strand.Free := by
        intro hfree
        rw [hfree.2] at hfin
        exact hfin
      by_cases ha : a = .proceed k
      · subst ha
        have hp : s.proceed cfg k c = some t := by simpa [machine, step, hc] using hstep
        have hlt := (List.getElem?_eq_some_iff.mp hc).1
        simp only [proceed, hs] at hp
        cases hres : c.strand.resume with
        | idle | scheduleTick | finishSession =>
            rw [hres] at hfin
            exact absurd hfin id
        | release => exact hextend (hold k c hc ⟨hended, Or.inl hres⟩)
        | finalizeResult record =>
            have hfresh := (reachable_resultInv hr).fresh hi hc hres
            simp only [hres, ResultRepository.saveIfAbsent_new hfresh, if_true, Option.some.injEq] at hp
            subst hp
            simp only [setContext_contexts, List.getElem?_set_self hlt, Option.some.injEq] at hk
            subst hk
            rcases hd.2 with h | h <;> cases h
        | ensureUsers record todo =>
            have hstage := (hi.sound k c hc).stage
            simp only [Stage, hres] at hstage
            cases todo with
            | cons user todo =>
                simp only [hres, Option.some.injEq] at hp
                subst hp
                simp only [setContext_contexts, List.getElem?_set_self hlt, Option.some.injEq] at hk
                subst hk
                rcases hd.2 with h | h <;> cases h
            | nil =>
                simp only [hres, Option.some.injEq] at hp
                have hratings : t.ratings =
                    (s.ratings.applyMatchResult cfg.elo record.winnerUserId record.loserId).1 := by
                  rw [← hp]
                exact ⟨s, t, c, record, hr, hc, hstage.2.2.2.2, hres, hstep, hratings, .refl t⟩
      · have hsame := step_busy hstep hc hbusy ha
        rw [hsame] at hk
        cases hk
        exact hextend (hold k d hc hd)
  · cases hd.1

theorem reachable_rated {s : Server} (hr : (machine cfg).Reachable s) {k : Nat} {ctx : SessionContext}
    (hk : s.contexts[k]? = some ctx) (hs : ctx.Settled) : Rated cfg s k := by
  refine Machine.Reachable.induction
    (P := fun s => ∀ (k : Nat) (c : SessionContext), s.contexts[k]? = some c → c.Settled → Rated cfg s k)
    ?_ ?_ hr k ctx hk hs
  · intro k c hc
    simp [machine] at hc
  · intro s a t hr hold hstep
    exact rated_step hr hold hstep

theorem endSent_ended {s : Server} (hr : (machine cfg).Reachable s) {k : Nat} {ctx : SessionContext}
    (hk : s.contexts[k]? = some ctx) {u : Int} (hu : u ∈ ctx.userIds) :
    (s.EndSent ctx.id u → ctx.ended = true) ∧ (ctx.ended = true → ctx.strand.sends = [] → s.EndSent ctx.id u) := by
  rw [← machine_max_one] at hr
  have hn : 1 ≤ max 1 cfg.maxTicks := Nat.le_max_left _ _
  constructor
  · intro ⟨e, he, hname⟩
    by_contra hopen
    obtain ⟨E, hE, hall⟩ := (reachable_announced hn hr).script k ctx hk
    have hcount : ctx.progress ≤ (openBlock (max 1 cfg.maxTicks)).length := by
      have hle : ctx.tickSent ≤ max 1 cfg.maxTicks := (reachable_plays hn hr hk).sent_le
      rw [openBlock_length, progress, if_neg hopen]
      split <;> omega
    have hmem : e.heading ∈ (fullBlock (max 1 cfg.maxTicks)).take ctx.progress := by
      rw [← hE.headings, ← hall u hu]
      exact List.mem_map_of_mem (List.mem_append_left _ he)
    rw [fullBlock, List.take_append_of_le_length hcount] at hmem
    rw [e.heading_ended.mpr hname] at hmem
    exact ended_not_mem_openBlock _ (List.mem_of_mem_take hmem)
  · intro hended hs
    have hfull := sentTo_full hn hr hk hended hs hu
    have hmem : ("session.ended", none) ∈ (s.sentTo u ctx.id).map (·.heading) := by
      rw [hfull]
      simp [fullBlock]
    obtain ⟨e, he, hheading⟩ := List.mem_map.mp hmem
    exact ⟨e, he, e.heading_ended.mp hheading⟩

theorem records_leads {s t : Server} (h : (machine cfg).Leads s t) {id : String} (hin : id ∈ s.records) :
    id ∈ t.records := by
  refine h.preserves (P := fun s => id ∈ s.records) ?_ hin
  intro s a t hs hstep
  cases effect_of_step hstep with
  | save hk hsends hr hnew => exact AList.mem_insert _ |>.mpr (Or.inr hs)
  | _ => exact hs

theorem Rated.stored {s : Server} {k : Nat} {ctx : SessionContext} (h : Rated cfg s k)
    (hk : s.contexts[k]? = some ctx) : ctx.id ∈ s.records := by
  obtain ⟨s₀, s₁, c, record, hr₀, hc, -, hres, hstep, -, hleads⟩ := h
  have hended : c.ended = true := by
    have hstage := ((reachable_inv hr₀).sound k c hc).stage
    simp only [Stage, hres] at hstage
    exact hstage.2.2.1
  have hsaved := (reachable_resultInv hr₀).saved k c hc (by simp [tally, hended, hres])
  have hall := (Machine.Leads.of_step hstep).trans hleads
  obtain ⟨d, hd, hshape⟩ := shape_leads hall k c hc
  rw [hk] at hd
  cases hd
  rw [hshape.1]
  exact records_leads hall hsaved

theorem finishedWorld_of_finished {s : Server} (hr : (machine cfg).Reachable s) {k : Nat} {ctx : SessionContext}
    (hk : s.contexts[k]? = some ctx) (hf : ctx.Finished) (u : Int) : FinishedWorld cfg s k ctx u := by
  have hi := reachable_inv hr
  have hres := reachable_resultInv hr
  have hother : s.isUserInSession u = true → ∃ (j : Nat) (other : SessionContext),
      s.contexts[j]? = some other ∧ j ≠ k ∧ ¬ other.Finished ∧ u ∈ other.userIds := by
    intro hin
    obtain ⟨id, hid⟩ := (Table.mem_iff_lookup _ _).mp (by simpa [isUserInSession] using hin)
    obtain ⟨j, other, hj, -, hnot, hu⟩ := (hi.owner u id).mp hid
    refine ⟨j, other, hj, ?_, hnot, hu⟩
    intro hjk
    subst hjk
    rw [hk] at hj
    cases hj
    exact hnot hf
  constructor
  · have hsaved := hres.saved k ctx hk (by rw [hf.settled.tally]; rfl)
    obtain ⟨record, hl⟩ := (Table.mem_iff_lookup _ _).mp hsaved
    obtain ⟨j, c, hj, hid, -, -, hrec⟩ := hres.record _ record hl
    obtain rfl := hi.same_of_id hj hk hid
    exact ⟨record, hl, hrec⟩
  · exact reachable_rated hr hk hf.settled
  · intro hl
    obtain ⟨j, c, hj, hid, hnot, -⟩ := (hi.owner u ctx.id).mp hl
    obtain rfl := hi.same_of_id hj hk hid
    exact hnot hf
  · exact hother
  · intro hrefused
    simp only [joinRefused, Bool.or_eq_true, decide_eq_true_eq] at hrefused
    exact hrefused.imp id hother

/-- The order in which FinishSession lets others see the end of a session. -/
structure FinishOrder (cfg : Config D) (s : Server) (k : Nat) (ctx : SessionContext) : Prop where
  published : ctx.id ∈ s.records → ∀ u ∈ ctx.userIds, s.EndSent ctx.id u
  stored : Rated cfg s k → ctx.id ∈ s.records
  rated : ctx.Finished → Rated cfg s k
  held : ∀ u ∈ ctx.userIds, ¬ ctx.Finished → s.isUserInSession u = true ∧ s.joinRefused u = true
  observed : ∀ u ∈ ctx.userIds, s.EndSent ctx.id u → (FinishedWorld cfg s k ctx u ↔ ctx.Finished)
  completes : ∀ u ∈ ctx.userIds, s.EndSent ctx.id u → ∃ (t : Server) (ctx' : SessionContext),
    (machine cfg).Leads s t ∧ t.contexts = s.contexts.set k ctx' ∧ ctx'.Finished

/-- The end of a session is published first, its result stored next, then
rated, and its users released last. What a user asks for after its
session.ended is answered from the finished world exactly when FinishSession
has run to its end, which nothing can keep it from. -/
theorem finish_order {s : Server} (hr : (machine cfg).Reachable s) {k : Nat} {ctx : SessionContext}
    (hk : s.contexts[k]? = some ctx) : FinishOrder cfg s k ctx := by
  have hi := reachable_inv hr
  have howner : ∀ u ∈ ctx.userIds, ¬ ctx.Finished → s.userToSession.lookup u = some ctx.id :=
    fun u hu hnot => (hi.owner u ctx.id).mpr ⟨k, ctx, hk, rfl, hnot, hu⟩
  constructor
  · intro hin u hu
    obtain ⟨record, hl⟩ := (Table.mem_iff_lookup _ _).mp hin
    obtain ⟨j, c, hj, hid, hended, hsome, -⟩ := (reachable_resultInv hr).record _ record hl
    obtain rfl := hi.same_of_id hj hk hid
    exact (endSent_ended hr hk hu).2 hended (sends_of_tally (hi.sound k c hk) hsome)
  · exact fun h => h.stored hk
  · exact fun hf => reachable_rated hr hk hf.settled
  · intro u hu hnot
    have hin : s.isUserInSession u = true := by
      have hmem := (Table.mem_iff_lookup _ _).mpr ⟨_, howner u hu hnot⟩
      simpa [isUserInSession] using hmem
    exact ⟨hin, by rw [joinRefused, hin, Bool.or_true]⟩
  · intro u hu _
    constructor
    · intro hworld
      by_contra hnot
      exact hworld.released (howner u hu hnot)
    · intro hf
      exact finishedWorld_of_finished hr hk hf u
  · intro u hu hsent
    have hended := (endSent_ended hr hk hu).1 hsent
    obtain ⟨t, ht, -, d, hc, hfree, hd⟩ := strand_drains cfg (P := fun c => c.ended = true)
      (fun _ _ _ hm he => hm.stays_ended he) s hk hended
    exact ⟨t, d, ht, hc, hd, hfree⟩

theorem finish_order_of_play : ∃ s ctx, (machine (evenConfig 1)).run (playActions ⟨1, "kim"⟩ ⟨2, "lee"⟩) = some s ∧
    s.contexts[0]? = some ctx ∧ ctx.Finished ∧ s.EndSent ctx.id 1 ∧ FinishOrder (evenConfig 1) s 0 ctx := by
  obtain ⟨s, hs, hr, ctx, hk, hfinished, hsent⟩ := Machine.exists_of_run (M := machine (evenConfig 1))
    (playActions ⟨1, "kim"⟩ ⟨2, "lee"⟩)
    (fun s => ∃ ctx ∈ s.contexts[0]?, ctx.Finished ∧ s.EndSent ctx.id 1) (by decide)
  exact ⟨s, ctx, hs, hk, hfinished, hsent, finish_order hr hk⟩

/-- Both players have been told that the session is over, and nothing of what
they may ask for shows it. -/
theorem unfinished_after_end_sent : ∃ s ctx, (machine (evenConfig 1)).Reachable s ∧ s.contexts[0]? = some ctx ∧
    (1 ∈ ctx.userIds ∧ s.EndSent ctx.id 1 ∧ s.records.lookup ctx.id = none ∧ s.ratings.lookup 1 = none ∧
      s.isUserInSession 1 = true ∧ 1 ∉ s.queue.userIndex ∧ s.joinRefused 1 = true) ∧
    ¬ FinishedWorld (evenConfig 1) s 0 ctx 1 := by
  obtain ⟨s, -, hr, ctx, hk, hseen⟩ := Machine.exists_of_run (M := machine (evenConfig 1))
    (matchActions ⟨1, "kim"⟩ ⟨2, "lee"⟩ ++ startActions 0 ++ [.timer 0 true 0] ++ List.replicate 5 (.proceed 0))
    (fun s => ∃ ctx ∈ s.contexts[0]?, 1 ∈ ctx.userIds ∧ s.EndSent ctx.id 1 ∧ s.records.lookup ctx.id = none ∧
      s.ratings.lookup 1 = none ∧ s.isUserInSession 1 = true ∧ 1 ∉ s.queue.userIndex ∧ s.joinRefused 1 = true)
    (by decide)
  refine ⟨s, ctx, hr, hk, hseen, ?_⟩
  intro hworld
  obtain ⟨record, hl, -⟩ := hworld.stored
  rw [hseen.2.2.1] at hl
  cases hl

end Server

end GameServer
