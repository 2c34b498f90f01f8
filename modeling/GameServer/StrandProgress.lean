import GameServer.ServerInvariant

namespace GameServer

/-- An upper bound on the sections a handler still has to run from a point. -/
def Resume.work (participants : Nat) : Resume → Nat
  | .idle => 0
  | .scheduleTick => 1
  | .release => 1
  | .ensureUsers _ todo => todo.length + 2
  | .finalizeResult _ => participants + 5
  | .finishSession _ => 2 * participants + 6

def SessionContext.work (ctx : SessionContext) : Nat :=
  ctx.strand.sends.length + ctx.strand.resume.work ctx.participants.length

theorem SessionContext.finishSession_work (ctx : SessionContext) (now : Int) (hs : ctx.strand.sends = []) :
    (ctx.finishSession now).work ≤ 2 * ctx.participants.length + 5 := by
  by_cases he : ctx.ended = true
  · simp [finishSession, he, work, hs, Resume.work]
  · simp only [finishSession, he, work, broadcastToParticipants, Bool.false_eq_true, if_false, List.length_map]
    split
    next => simp [Resume.work]; omega
    next => simp [Resume.work]; omega

namespace Server

variable {D : Type} (cfg : Config D)

theorem proceed_progress (s : Server) (k : Nat) {ctx : SessionContext}
    (hbusy : ¬ ctx.strand.Free) : ∃ t, s.proceed cfg k ctx = some t ∧ t.calls = s.calls ∧
      ∃ ctx' : SessionContext, t.contexts = s.contexts.set k ctx' ∧ ctx'.work < ctx.work := by
  rw [proceed]
  cases hs : ctx.strand.sends with
  | cons e es =>
      refine ⟨_, rfl, rfl, ctx.sent, rfl, ?_⟩
      simp [SessionContext.work, SessionContext.sent, hs]
  | nil =>
      cases hr : ctx.strand.resume with
      | idle => exact absurd ⟨hs, hr⟩ hbusy
      | scheduleTick =>
          refine ⟨_, rfl, rfl, ctx.scheduleTick, rfl, ?_⟩
          simp [SessionContext.work, SessionContext.scheduleTick, hs, hr, Resume.work]
      | finishSession now =>
          refine ⟨_, rfl, rfl, ctx.finishSession now, rfl, ?_⟩
          have hwork : ctx.work = 2 * ctx.participants.length + 6 := by
            simp [SessionContext.work, hs, hr, Resume.work]
          have := ctx.finishSession_work now hs
          omega
      | finalizeResult record =>
          by_cases hin : record.sessionId ∈ s.records
          · simp only [ResultRepository.saveIfAbsent_old hin]
            refine ⟨_, rfl, rfl, ctx.resumeAt .release, rfl, ?_⟩
            simp [SessionContext.work, SessionContext.resumeAt, hs, hr, Resume.work]
          · simp only [ResultRepository.saveIfAbsent_new hin]
            refine ⟨_, rfl, rfl, ctx.resumeAt (.ensureUsers record (usersToEnsure record ctx.participants)),
              rfl, ?_⟩
            simp [SessionContext.work, SessionContext.resumeAt, hs, hr, Resume.work, usersToEnsure]
      | ensureUsers record todo =>
          cases todo with
          | nil =>
              refine ⟨_, rfl, rfl, ctx.resumeAt .release, rfl, ?_⟩
              simp [SessionContext.work, SessionContext.resumeAt, hs, hr, Resume.work]
          | cons user todo =>
              refine ⟨_, rfl, rfl, ctx.resumeAt (.ensureUsers record todo), rfl, ?_⟩
              simp [SessionContext.work, SessionContext.resumeAt, hs, hr, Resume.work]
      | release =>
          refine ⟨_, rfl, rfl, ctx.resumeAt .idle, rfl, ?_⟩
          simp [SessionContext.work, SessionContext.resumeAt, hs, hr, Resume.work]

/-- No handler runs forever: its strand can always be run until it is free,
which keeps what the moves of a busy strand keep. -/
theorem strand_drains {P : SessionContext → Prop}
    (hP : ∀ c d : SessionContext, ¬ c.strand.Free → c.Move cfg.maxTicks d → P c → P d)
    (s : Server) {k : Nat} {ctx : SessionContext} (hk : s.contexts[k]? = some ctx) (hp : P ctx) :
    ∃ t, (machine cfg).Leads s t ∧ t.calls = s.calls ∧ ∃ ctx' : SessionContext,
      t.contexts = s.contexts.set k ctx' ∧ ctx'.strand.Free ∧ P ctx' := by
  induction hn : ctx.work using Nat.strong_induction_on generalizing s ctx with
  | _ n ih =>
      obtain ⟨hlt, hget⟩ := List.getElem?_eq_some_iff.mp hk
      by_cases hfree : ctx.strand.Free
      · refine ⟨s, .refl s, rfl, ctx, ?_, hfree, hp⟩
        rw [← hget]
        exact (List.set_getElem_self hlt).symm
      · obtain ⟨t, ht, hcalls, ctx', hcontexts, hless⟩ := proceed_progress cfg s k hfree
        have hstep : (machine cfg).step s (.proceed k) = some t := by
          simp [machine, step, hk, ht]
        have hk' : t.contexts[k]? = some ctx' := by
          rw [hcontexts]
          exact List.getElem?_set_self hlt
        have hmove : ctx.Move cfg.maxTicks ctx' := by
          rcases move_effect (effect_of_proceed hk ht) k ctx' hk' with ⟨c, hc, hsame⟩ | ⟨hlen, -⟩
          · rw [hk] at hc
            cases hc
            rcases hsame with rfl | hmove
            · omega
            · exact hmove
          · omega
        obtain ⟨u, hu, hcalls', ctx'', hcontexts', hrest⟩ :=
          ih ctx'.work (hn ▸ hless) t hk' (hP ctx ctx' hfree hmove hp) rfl
        refine ⟨u, (Machine.Leads.of_step hstep).trans hu, hcalls'.trans hcalls, ctx'', ?_, hrest⟩
        rw [hcontexts', hcontexts, List.set_set]

theorem leads_ensureUsers (todo : List (Int × String)) {record : MatchResultRecord} {s : Server} {k : Nat}
    {ctx : SessionContext} (hk : s.contexts[k]? = some ctx) (hs : ctx.strand.sends = [])
    (hr : ctx.strand.resume = .ensureUsers record todo) :
    ∃ t, (machine cfg).Leads s t ∧ t.contexts = s.contexts.set k (ctx.resumeAt .release) ∧ t.records = s.records ∧
      t.ratings = (RatingService.applyMatchResult cfg.elo
        (todo.foldl (fun es p => es.ensureUser p.1 p.2) s.ratings) record.winnerUserId record.loserId).1 := by
  induction todo generalizing s ctx with
  | nil =>
      have hstep : (machine cfg).step s (.proceed k) = some { s.setContext k (ctx.resumeAt .release) with
          ratings := (s.ratings.applyMatchResult cfg.elo record.winnerUserId record.loserId).1 } := by
        simp [machine, step, hk, proceed, hs, hr]
      exact ⟨_, .of_step hstep, rfl, rfl, rfl⟩
  | cons user todo ih =>
      obtain ⟨t, ht⟩ : ∃ t, t = { s.setContext k (ctx.resumeAt (.ensureUsers record todo)) with
        ratings := s.ratings.ensureUser user.1 user.2 } := ⟨_, rfl⟩
      have hstep : (machine cfg).step s (.proceed k) = some t := by
        simp [machine, step, hk, proceed, hs, hr, ht]
      have hk' : t.contexts[k]? = some (ctx.resumeAt (.ensureUsers record todo)) := by
        rw [ht]
        exact List.getElem?_set_self (List.getElem?_eq_some_iff.mp hk).1
      obtain ⟨u, hu, hcontexts, hrecords, hratings⟩ := ih hk' hs rfl
      refine ⟨u, (Machine.Leads.of_step hstep).trans hu, ?_, ?_, ?_⟩
      · rw [hcontexts, ht, setContext, List.set_set]
        rfl
      · rw [hrecords, ht]
        rfl
      · rw [hratings, ht]
        rfl

/-- The locked steps of FinalizeResult, run one after the other, do what it
does without interruption. -/
theorem leads_finalizeResult {record : MatchResultRecord} {s : Server} {k : Nat} {ctx : SessionContext}
    (hk : s.contexts[k]? = some ctx) (hs : ctx.strand.sends = []) (hr : ctx.strand.resume = .finalizeResult record) :
    ∃ t, (machine cfg).Leads s t ∧ t.contexts = s.contexts.set k (ctx.resumeAt .release) ∧
      t.records = (finalizeResult cfg.elo s.records s.ratings record ctx.participants).1 ∧
      t.ratings = (finalizeResult cfg.elo s.records s.ratings record ctx.participants).2.1 := by
  by_cases hin : record.sessionId ∈ s.records
  · have hstep : (machine cfg).step s (.proceed k) = some (s.setContext k (ctx.resumeAt .release)) := by
      simp only [machine, step, hk, proceed, Option.bind_some, hs, hr, ResultRepository.saveIfAbsent_old hin,
        Bool.false_eq_true, ↓reduceIte, Option.some.injEq]
      rfl
    refine ⟨_, .of_step hstep, rfl, ?_, ?_⟩ <;> simp [finalizeResult, ResultRepository.saveIfAbsent_old hin]
  · obtain ⟨t, ht⟩ : ∃ t, t =
      { s.setContext k (ctx.resumeAt (.ensureUsers record (usersToEnsure record ctx.participants))) with
        records := s.records.insert record.sessionId record } := ⟨_, rfl⟩
    have hstep : (machine cfg).step s (.proceed k) = some t := by
      simp [machine, step, hk, proceed, hs, hr, ht, ResultRepository.saveIfAbsent_new hin]
    have hk' : t.contexts[k]? =
        some (ctx.resumeAt (.ensureUsers record (usersToEnsure record ctx.participants))) := by
      rw [ht]
      exact List.getElem?_set_self (List.getElem?_eq_some_iff.mp hk).1
    obtain ⟨u, hu, hcontexts, hrecords, hratings⟩ := leads_ensureUsers cfg _ hk' hs rfl
    refine ⟨u, (Machine.Leads.of_step hstep).trans hu, ?_, ?_, ?_⟩
    · rw [hcontexts, ht, setContext, List.set_set]
      rfl
    · rw [hrecords, ht]
      simp [finalizeResult, ResultRepository.saveIfAbsent_new hin]
    · rw [hratings, ht]
      simp [finalizeResult, ResultRepository.saveIfAbsent_new hin]

end Server

end GameServer
