import GameServer.SessionPlay

namespace GameServer

namespace SessionContext

def winnerUserId (ctx : SessionContext) : Int := winner ctx.simulation.snapshot.players

/-- What a context whose result is stored has to do with the stores: its
winner, its participants, and whether its rating has been applied. -/
def tally (ctx : SessionContext) : Option (Int × List Int × Bool) :=
  if ctx.ended then
    match ctx.strand.resume with
    | .finalizeResult _ => none
    | .ensureUsers _ _ => some (ctx.winnerUserId, ctx.userIds, false)
    | _ => some (ctx.winnerUserId, ctx.userIds, true)
  else none

def IsRecord (ctx : SessionContext) (record : MatchResultRecord) : Prop :=
  ∃ p q now, ctx.participants = [p, q] ∧ record = ctx.finalRecord p q now

theorem IsRecord.sessionId {ctx : SessionContext} {record : MatchResultRecord} (h : ctx.IsRecord record) :
    record.sessionId = ctx.id := by
  obtain ⟨p, q, now, -, rfl⟩ := h
  rfl

theorem IsRecord.outcome {ctx : SessionContext} {record : MatchResultRecord} (h : ctx.IsRecord record) :
    record.winnerUserId = ctx.winnerUserId ∧ [record.user1Id, record.user2Id] = ctx.userIds := by
  obtain ⟨p, q, now, hp, rfl⟩ := h
  exact ⟨rfl, by simp [userIds, hp, finalRecord]⟩

theorem IsRecord.congr {c d : SessionContext} {record : MatchResultRecord} (h : c.IsRecord record)
    (hshape : c.SameShape d) (hsim : d.simulation = c.simulation) : d.IsRecord record := by
  obtain ⟨p, q, now, hp, hrec⟩ := h
  exact ⟨p, q, now, hshape.2.1.trans hp, by rw [hrec, finalRecord, finalRecord, hshape.1, hsim]⟩

structure Neutral (c d : SessionContext) : Prop where
  shape : c.SameShape d
  tally : d.tally = c.tally
  simulation : c.ended = true → d.simulation = c.simulation

theorem Neutral.of_open {c d : SessionContext} (hshape : c.SameShape d) (hc : c.ended = false)
    (hd : d.tally = none) : Neutral c d where
  shape := hshape
  tally := by rw [hd, SessionContext.tally, hc, if_neg (by simp)]
  simulation := by
    intro he
    rw [hc] at he
    cases he

theorem tally_open {c : SessionContext} (hc : c.ended = false) : c.tally = none := by
  rw [tally, hc, if_neg (by simp)]

theorem neutral_start {c : SessionContext} (hs : c.Sound) (hfree : c.strand.Free)
    (hq : c.strand.startQueued = true) (now : Int) : Neutral c (c.startSession now) := by
  have hopen := (hs.start hfree hq now).2
  exact .of_open ⟨rfl, rfl, rfl⟩ hopen (tally_open hopen)

theorem neutral_tick {c : SessionContext} (hs : c.Sound) (hfree : c.strand.Free)
    (ha : c.strand.timerArmed = true) (maxTicks : Nat) (now : Int) :
    Neutral c (c.disarm.handleTick maxTicks now) := by
  have hopen := (hs.armed hfree ha).1
  refine .of_open (handleTick_shape _ c.disarm _) hopen (tally_open ?_)
  rw [handleTick_ended]
  exact hopen

theorem neutral_finish {c : SessionContext} (hs : c.Sound) {now : Int}
    (hr : c.strand.resume = .finishSession now) : Neutral c (c.finishSession now) := by
  obtain ⟨p, q, hp, -⟩ := hs.pair
  have hopen := (hs.finish hr).2.1
  exact .of_open (finishSession_shape _ _) hopen (by rw [finishSession_open hopen hp]; rfl)

theorem neutral_input (c : SessionContext) (input : SessionInput) : Neutral c (c.handleInput input).1 := by
  obtain ⟨hshape, -, hended, -⟩ := handleInput_frame c input
  cases hres : (c.handleInput input).2 with
  | error e =>
      rw [(handleInput_error hres).1]
      exact ⟨⟨rfl, rfl, rfl⟩, rfl, fun _ => rfl⟩
  | ok u =>
      have hopen := (handleInput_ok hres).1
      exact .of_open hshape hopen (tally_open (hended.trans hopen))

end SessionContext

def loserOf (winner : Int) : List Int → Int
  | user1 :: user2 :: _ => if winner = user1 then user2 else user1
  | _ => 0

theorem MatchResultRecord.loserId_eq (record : MatchResultRecord) :
    record.loserId = loserOf record.winnerUserId [record.user1Id, record.user2Id] := rfl

namespace Server

variable {D : Type} {cfg : Config D}

def tallied (s : Server) (test : Int × List Int × Bool → Bool) : Nat :=
  s.contexts.countP (fun c => c.tally.any test)

/-- The three stores agree, counting the sessions whose rating step is still
to come. -/
structure ResultInv (s : Server) : Prop where
  record : ∀ id record, s.records.lookup id = some record → ∃ (k : Nat) (c : SessionContext),
    s.contexts[k]? = some c ∧ c.id = id ∧ c.ended = true ∧ c.tally.isSome = true ∧ c.IsRecord record
  saved : ∀ (k : Nat) (c : SessionContext), s.contexts[k]? = some c → c.tally.isSome = true → c.id ∈ s.records
  stored : ∀ test : Int → List Int → Bool,
    s.records.entries.countP (fun e => test e.2.winnerUserId [e.2.user1Id, e.2.user2Id]) =
      s.tallied (fun x => test x.1 x.2.1)
  wins : ∀ u, s.ratings.wins u = s.tallied (fun x => x.2.2 && decide (x.1 = u))
  losses : ∀ u, s.ratings.losses u = s.tallied (fun x => x.2.2 && decide (loserOf x.1 x.2.1 = u))
  totalWins : Table.total (·.wins) s.ratings = s.tallied (·.2.2)
  totalLosses : Table.total (·.losses) s.ratings = s.tallied (·.2.2)

theorem resultInv_init : ({} : Server).ResultInv where
  record := by simp
  saved := by simp
  stored := by simp [tallied]
  wins := by simp [RatingService.wins, tallied]; rfl
  losses := by simp [RatingService.losses, tallied]; rfl
  totalWins := by simp [Table.total, tallied]
  totalLosses := by simp [Table.total, tallied]

theorem tallied_set {s : Server} {k : Nat} {c d : SessionContext} (hk : s.contexts[k]? = some c)
    (test : Int × List Int × Bool → Bool) :
    (s.contexts.set k d).countP (fun c => c.tally.any test) + (if c.tally.any test then 1 else 0) =
      s.tallied test + (if d.tally.any test then 1 else 0) := by
  obtain ⟨hlt, hget⟩ := List.getElem?_eq_some_iff.mp hk
  have hpos : c.tally.any test = true → 0 < s.tallied test := by
    intro hc
    exact List.countP_pos_iff.mpr ⟨c, hget ▸ List.getElem_mem hlt, hc⟩
  rw [List.countP_set hlt, hget]
  simp only [tallied] at *
  by_cases hc : c.tally.any test = true
  · have := hpos hc
    simp only [hc, if_true]
    omega
  · simp only [hc, Bool.false_eq_true, if_false]
    omega

theorem ResultInv.neutral {s t : Server} (h : s.ResultInv) {k : Nat} {c d : SessionContext}
    (hk : s.contexts[k]? = some c) (hc : t.contexts = s.contexts.set k d) (hn : SessionContext.Neutral c d)
    (hended : c.ended = true → d.ended = true)
    (hrec : t.records = s.records) (hwins : ∀ u, t.ratings.wins u = s.ratings.wins u)
    (hlosses : ∀ u, t.ratings.losses u = s.ratings.losses u)
    (htw : Table.total (·.wins) t.ratings = Table.total (·.wins) s.ratings)
    (htl : Table.total (·.losses) t.ratings = Table.total (·.losses) s.ratings) : t.ResultInv := by
  have hsame : ∀ test, t.tallied test = s.tallied test := by
    intro test
    have hset := tallied_set (d := d) hk test
    rw [hn.tally] at hset
    rw [tallied, hc]
    omega
  refine ⟨?_, ?_, ?_, ?_, ?_, ?_, ?_⟩
  · intro id record hl
    rw [hrec] at hl
    obtain ⟨j, e, he, hid, hend, hsome, hisrec⟩ := h.record id record hl
    rw [hc]
    by_cases hj : j = k
    · subst hj
      rw [hk] at he
      cases he
      refine ⟨j, d, getElem?_set_of_eq hk, hn.shape.1.trans hid, hended hend,
        by rw [hn.tally]; exact hsome, hisrec.congr hn.shape (hn.simulation hend)⟩
    · exact ⟨j, e, getElem?_set_of_ne he (Ne.symm hj), hid, hend, hsome, hisrec⟩
  · intro j e he hsome
    rw [hc, getElem?_set_of_some hk] at he
    rw [hrec]
    split at he
    next =>
      cases he
      rw [hn.shape.1]
      rw [hn.tally] at hsome
      exact h.saved k c hk hsome
    next => exact h.saved j e he hsome
  · intro test
    rw [hrec, hsame]
    exact h.stored test
  · intro u
    rw [hwins, hsame]
    exact h.wins u
  · intro u
    rw [hlosses, hsame]
    exact h.losses u
  · rw [htw, hsame]
    exact h.totalWins
  · rw [htl, hsame]
    exact h.totalLosses

theorem ResultInv.congr {s t : Server} (h : s.ResultInv) (hc : t.contexts = s.contexts)
    (hrec : t.records = s.records) (hrat : t.ratings = s.ratings) : t.ResultInv := by
  refine ⟨?_, ?_, ?_, ?_, ?_, ?_, ?_⟩
  · rw [hrec, hc]
    exact h.record
  · rw [hrec, hc]
    exact h.saved
  · simpa only [hrec, tallied, hc] using h.stored
  · simpa only [hrat, tallied, hc] using h.wins
  · simpa only [hrat, tallied, hc] using h.losses
  · simpa only [hrat, tallied, hc] using h.totalWins
  · simpa only [hrat, tallied, hc] using h.totalLosses

theorem ResultInv.rename {s : Server} (h : s.ResultInv) (u : Int) (name : String) :
    ({ s with ratings := s.ratings.ensureUser u name } : Server).ResultInv := by
  refine ⟨h.record, h.saved, h.stored, ?_, ?_, ?_, ?_⟩
  · intro v
    simpa [tallied] using h.wins v
  · intro v
    simpa [tallied] using h.losses v
  · simpa [tallied, RatingService.total_ensureUser] using h.totalWins
  · simpa [tallied, RatingService.total_ensureUser] using h.totalLosses

theorem ResultInv.create {s : Server} (h : s.ResultInv) (first second : AuthUser) (queue : MatchQueue) :
    ({ s.createSession cfg (pairParticipants first second) with queue := queue } : Server).ResultInv := by
  have hnone : (s.newContext cfg (pairParticipants first second)).tally = none := SessionContext.tally_open rfl
  have hsame : ∀ test, ({ s.createSession cfg (pairParticipants first second) with queue := queue } : Server).tallied
      test = s.tallied test := by
    intro test
    simp [tallied, createSession, List.countP_append, hnone]
  refine ⟨?_, ?_, ?_, ?_, ?_, ?_, ?_⟩
  · intro id record hl
    obtain ⟨k, c, hk, hrest⟩ := h.record id record hl
    have hlt := (List.getElem?_eq_some_iff.mp hk).1
    exact ⟨k, c, by simpa [createSession, List.getElem?_append_left hlt] using hk, hrest⟩
  · intro k c hk hsome
    simp only [createSession, getElem?_concat_eq] at hk
    split at hk
    next =>
      cases hk
      rw [hnone] at hsome
      cases hsome
    next => exact h.saved k c hk hsome
  · intro test
    rw [hsame]
    exact h.stored test
  · intro u
    rw [hsame]
    exact h.wins u
  · intro u
    rw [hsame]
    exact h.losses u
  · rw [hsame]
    exact h.totalWins
  · rw [hsame]
    exact h.totalLosses

theorem ResultInv.save {s : Server} (h : s.ResultInv) {k : Nat} {c : SessionContext}
    (hk : s.contexts[k]? = some c) (hs : c.Sound) {record : MatchResultRecord}
    (hr : c.strand.resume = .finalizeResult record) (hnew : record.sessionId ∉ s.records)
    (todo : List (Int × String)) :
    ({ s.setContext k (c.resumeAt (.ensureUsers record todo)) with
      records := s.records.insert record.sessionId record } : Server).ResultInv := by
  have hstage := hs.stage
  simp only [SessionContext.Stage, hr] at hstage
  obtain ⟨-, -, hended, hrec⟩ := hstage
  have hisrec : c.IsRecord record := hrec
  have hc : c.tally = none := by simp [SessionContext.tally, hended, hr]
  have hd : (c.resumeAt (.ensureUsers record todo)).tally = some (c.winnerUserId, c.userIds, false) := by
    have hended' : (c.resumeAt (.ensureUsers record todo)).ended = true := hended
    rw [SessionContext.tally, hended']
    rfl
  have hcount : ∀ test, ({ s.setContext k (c.resumeAt (.ensureUsers record todo)) with
      records := s.records.insert record.sessionId record } : Server).tallied test =
        s.tallied test + (if test (c.winnerUserId, c.userIds, false) then 1 else 0) := by
    intro test
    have hset := tallied_set (d := c.resumeAt (.ensureUsers record todo)) hk test
    rw [hc, hd, Option.any_none, Option.any_some] at hset
    rw [if_neg Bool.false_ne_true, Nat.add_zero] at hset
    exact hset
  refine ⟨?_, ?_, ?_, ?_, ?_, ?_, ?_⟩
  · intro id record' hl
    simp only [setContext, Table.lookup_insert_eq] at hl ⊢
    by_cases hid : id = record.sessionId
    · rw [if_pos hid] at hl
      cases hl
      refine ⟨k, _, getElem?_set_of_eq hk, hid ▸ hisrec.sessionId.symm, hended, by rw [hd]; rfl, ?_⟩
      exact hisrec.congr ⟨rfl, rfl, rfl⟩ rfl
    · rw [if_neg hid] at hl
      obtain ⟨j, e, he, hide, hend, hsome, hrec'⟩ := h.record id record' hl
      have hj : j ≠ k := by
        rintro rfl
        rw [hk] at he
        cases he
        rw [hc] at hsome
        cases hsome
      exact ⟨j, e, getElem?_set_of_ne he (Ne.symm hj), hide, hend, hsome, hrec'⟩
  · intro j e he hsome
    simp only [setContext, getElem?_set_of_some hk] at he
    rw [AList.mem_insert]
    split at he
    next =>
      cases he
      exact Or.inl hisrec.sessionId.symm
    next => exact Or.inr (h.saved j e he hsome)
  · intro test
    rw [hcount, ← h.stored]
    have hentries : (s.records.insert record.sessionId record).entries =
        ⟨record.sessionId, record⟩ :: s.records.entries := AList.entries_insert_of_notMem hnew
    simp only [hentries, List.countP_cons, hisrec.outcome.1, hisrec.outcome.2]
  · intro u
    rw [hcount]
    simpa using h.wins u
  · intro u
    rw [hcount]
    simpa using h.losses u
  · rw [hcount]
    simpa using h.totalWins
  · rw [hcount]
    simpa using h.totalLosses

theorem ResultInv.rate {s t : Server} (h : s.ResultInv) {k : Nat} {c : SessionContext}
    (hk : s.contexts[k]? = some c) (hs : c.Sound) {record : MatchResultRecord}
    (hr : c.strand.resume = .ensureUsers record [])
    (hcontexts : t.contexts = s.contexts.set k (c.resumeAt .release)) (hrecords : t.records = s.records)
    (hratings : t.ratings = (s.ratings.applyMatchResult cfg.elo record.winnerUserId record.loserId).1) :
    t.ResultInv := by
  have hstage := hs.stage
  simp only [SessionContext.Stage, hr] at hstage
  obtain ⟨-, -, hended, -, hrec⟩ := hstage
  have hisrec : c.IsRecord record := hrec
  obtain ⟨hwinner, hids⟩ := hisrec.outcome
  have hc : c.tally = some (c.winnerUserId, c.userIds, false) := by simp [SessionContext.tally, hended, hr]
  have hd : (c.resumeAt .release).tally = some (c.winnerUserId, c.userIds, true) := by
    have hended' : (c.resumeAt .release).ended = true := hended
    rw [SessionContext.tally, hended']
    rfl
  have hcount : ∀ test, t.tallied test + (if test (c.winnerUserId, c.userIds, false) then 1 else 0) =
      s.tallied test + (if test (c.winnerUserId, c.userIds, true) then 1 else 0) := by
    intro test
    have hset := tallied_set (d := c.resumeAt .release) hk test
    rw [hc, hd, Option.any_some, Option.any_some] at hset
    rw [tallied, hcontexts]
    exact hset
  -- of the tests that ask for a rated session, those c passes count one more
  have hadd : ∀ f : Int → List Int → Bool, (t.tallied (fun x => x.2.2 && f x.1 x.2.1) : Int) =
      s.tallied (fun x => x.2.2 && f x.1 x.2.1) + if f c.winnerUserId c.userIds = true then 1 else 0 := by
    intro f
    have htest := hcount (fun x => x.2.2 && f x.1 x.2.1)
    simp only [Bool.false_and, Bool.true_and, Bool.false_eq_true, if_false] at htest
    by_cases hf : f c.winnerUserId c.userIds = true
    · rw [if_pos hf] at htest ⊢
      omega
    · rw [if_neg hf] at htest ⊢
      omega
  have hcounts := RatingService.applyMatchResult_counts cfg.elo s.ratings record.winnerUserId record.loserId
  have htotals := RatingService.applyMatchResult_total cfg.elo s.ratings record.winnerUserId record.loserId
  refine ⟨?_, ?_, ?_, ?_, ?_, ?_, ?_⟩
  · intro id record' hl
    rw [hrecords] at hl
    rw [hcontexts]
    obtain ⟨j, e, he, hide, hend, hsome, hrec'⟩ := h.record id record' hl
    by_cases hj : j = k
    · subst hj
      rw [hk] at he
      cases he
      exact ⟨j, _, getElem?_set_of_eq hk, hide, hended, by rw [hd]; rfl, hrec'.congr ⟨rfl, rfl, rfl⟩ rfl⟩
    · exact ⟨j, e, getElem?_set_of_ne he (Ne.symm hj), hide, hend, hsome, hrec'⟩
  · intro j e he hsome
    rw [hcontexts, getElem?_set_of_some hk] at he
    rw [hrecords]
    split at he
    next =>
      cases he
      exact h.saved k c hk (by rw [hc]; rfl)
    next => exact h.saved j e he hsome
  · intro test
    have htest := hcount (fun x => test x.1 x.2.1)
    rw [hrecords, h.stored]
    exact (Nat.add_right_cancel htest).symm
  · intro u
    rw [hratings, (hcounts u).1, hwinner, h.wins, hadd (fun w _ => decide (w = u))]
    simp [eq_comm]
  · intro u
    rw [hratings, (hcounts u).2, record.loserId_eq, hwinner, hids, h.losses,
      hadd (fun w ids => decide (loserOf w ids = u))]
    simp [eq_comm]
  · rw [hratings, htotals.1, h.totalWins]
    simpa using (hadd (fun _ _ => true)).symm
  · rw [hratings, htotals.2, h.totalLosses]
    simpa using (hadd (fun _ _ => true)).symm

/-- The id of a result to be stored is fresh: only its own session could have
stored it. -/
theorem ResultInv.fresh {s : Server} (h : s.ResultInv) (hi : s.Inv) {k : Nat} {c : SessionContext}
    (hk : s.contexts[k]? = some c) {record : MatchResultRecord} (hr : c.strand.resume = .finalizeResult record) :
    record.sessionId ∉ s.records := by
  intro hold
  have hstage := (hi.sound k c hk).stage
  simp only [SessionContext.Stage, hr] at hstage
  have hisrec : c.IsRecord record := hstage.2.2.2
  obtain ⟨record', hl⟩ := (Table.mem_iff_lookup _ _).mp hold
  obtain ⟨j, e, hj, hid, -, hsome, -⟩ := h.record _ record' hl
  obtain rfl := hi.same_of_id hj hk (hid.trans hisrec.sessionId)
  simp [SessionContext.tally, hr] at hsome

theorem resultInv_effect {s t : Server} (hi : s.Inv) (h : s.ResultInv) (he : Effect cfg s t) : t.ResultInv := by
  cases he with
  | stay => exact h
  | queue => exact h.congr rfl rfl rfl
  | call => exact h.congr rfl rfl rfl
  | create => exact h.create _ _ _
  | rename u name => exact h.rename u name
  | start hk hfree hq now =>
      exact h.neutral hk rfl (SessionContext.neutral_start (hi.sound _ _ hk) hfree hq now) id rfl
        (fun _ => rfl) (fun _ => rfl) rfl rfl
  | @tick k ctx hk hfree ha now =>
      refine h.neutral hk rfl (SessionContext.neutral_tick (hi.sound _ _ hk) hfree ha cfg.maxTicks now) ?_ rfl
        (fun _ => rfl) (fun _ => rfl) rfl rfl
      intro hended
      rw [SessionContext.handleTick_ended]
      exact hended
  | disarm hk hfree ha =>
      have hopen := ((hi.sound _ _ hk).armed hfree ha).1
      exact h.neutral hk rfl (.of_open ⟨rfl, rfl, rfl⟩ hopen (SessionContext.tally_open hopen)) id rfl
        (fun _ => rfl) (fun _ => rfl) rfl rfl
  | send hk hs =>
      exact h.neutral hk rfl ⟨⟨rfl, rfl, rfl⟩, rfl, fun _ => rfl⟩ id rfl (fun _ => rfl) (fun _ => rfl) rfl rfl
  | schedule hk hs hr =>
      have hopen := ((hi.sound _ _ hk).scheduleTick hs hr).2
      exact h.neutral hk rfl (.of_open ⟨rfl, rfl, rfl⟩ hopen (SessionContext.tally_open hopen)) id rfl
        (fun _ => rfl) (fun _ => rfl) rfl rfl
  | finish hk hs hr =>
      have hopen := ((hi.sound _ _ hk).finish hr).2.1
      refine h.neutral hk rfl (SessionContext.neutral_finish (hi.sound _ _ hk) hr) ?_ rfl
        (fun _ => rfl) (fun _ => rfl) rfl rfl
      intro hended
      rw [hopen] at hended
      cases hended
  | save hk hs hr hnew => exact h.save hk (hi.sound _ _ hk) hr hnew _
  | @skip k c hk hs record hr hold => exact absurd hold (h.fresh hi hk hr)
  | @ensure k c hk hs record user todo hr =>
      refine h.neutral hk rfl ⟨⟨rfl, rfl, rfl⟩, ?_, fun _ => rfl⟩ id rfl (by simp) (by simp) ?_ ?_
      · simp [SessionContext.tally, SessionContext.resumeAt, hr]
        rfl
      · exact RatingService.total_ensureUser (by simp) (by simp) _ _ _
      · exact RatingService.total_ensureUser (by simp) (by simp) _ _ _
  | rate hk hs hr => exact h.rate hk (hi.sound _ _ hk) hr rfl rfl rfl
  | @release k c hk hs hr =>
      refine h.neutral hk rfl ⟨⟨rfl, rfl, rfl⟩, ?_, fun _ => rfl⟩ id rfl (fun _ => rfl) (fun _ => rfl) rfl rfl
      simp only [SessionContext.tally, SessionContext.resumeAt, hr]
      rfl
  | @input n call c hn hk hfree =>
      refine h.neutral hk rfl (SessionContext.neutral_input c call.1) ?_ rfl (fun _ => rfl) (fun _ => rfl) rfl rfl
      intro hended
      rw [(SessionContext.handleInput_frame c call.1).2.2.1]
      exact hended

theorem reachable_resultInv {s : Server} (h : (machine cfg).Reachable s) : s.ResultInv := by
  refine Machine.Reachable.induction resultInv_init ?_ h
  intro s a t hr hi hs
  exact resultInv_effect (reachable_inv hr) hi (effect_of_step hs)

end Server

end GameServer
