import GameServer.FinalizeCalls
import GameServer.ServerInvariant

namespace GameServer

namespace SessionContext

def finalizing (ctx : SessionContext) : Option FinalizeCall :=
  match ctx.strand.resume with
  | .finalizeResult record => some ⟨record, ctx.participants, .saving⟩
  | .ensureUsers record todo => some ⟨record, ctx.participants, .ensuring todo⟩
  | _ => none

structure Holds (c d : SessionContext) : Prop where
  id : d.id = c.id
  ended : d.ended = c.ended
  finalizing : d.finalizing = c.finalizing

theorem finalizing_own {ctx : SessionContext} (hs : ctx.Sound) {call : FinalizeCall}
    (h : ctx.finalizing = some call) : call.record.sessionId = ctx.id ∧ ctx.ended = true := by
  have hstage := hs.stage
  rw [finalizing] at h
  split at h
  next record hr =>
    cases h
    simp only [Stage, hr] at hstage
    obtain ⟨-, -, hended, p, q, now, -, rfl⟩ := hstage
    exact ⟨rfl, hended⟩
  next record todo hr =>
    cases h
    simp only [Stage, hr] at hstage
    obtain ⟨-, -, hended, -, p, q, now, -, rfl⟩ := hstage
    exact ⟨rfl, hended⟩
  next => cases h

theorem holds_start {ctx : SessionContext} (hfree : ctx.strand.Free) (now : Int) : ctx.Holds (ctx.startSession now) :=
  ⟨rfl, rfl, by simp [finalizing, startSession, hfree.2]⟩

theorem holds_tick {ctx : SessionContext} (hs : ctx.Sound) (hfree : ctx.strand.Free) (ha : ctx.strand.timerArmed = true)
    (maxTicks : Nat) (now : Int) : ctx.Holds (ctx.disarm.handleTick maxTicks now) := by
  refine ⟨(handleTick_shape maxTicks ctx.disarm now).1, ?_, ?_⟩
  · rw [handleTick_ended]
    rfl
  · have hopen : ctx.disarm.ended = false := (hs.armed hfree ha).1
    simp only [handleTick, hopen, Bool.false_eq_true, if_false, finalizing, hfree.2]
    by_cases hlast : ctx.disarm.tickSent + 1 ≥ maxTicks <;> simp [hlast]

theorem holds_disarm (ctx : SessionContext) : ctx.Holds ctx.disarm := ⟨rfl, rfl, rfl⟩

theorem holds_sent (ctx : SessionContext) : ctx.Holds ctx.sent := ⟨rfl, rfl, rfl⟩

theorem holds_scheduleTick {ctx : SessionContext} (hr : ctx.strand.resume = .scheduleTick) :
    ctx.Holds ctx.scheduleTick :=
  ⟨rfl, rfl, by simp [finalizing, scheduleTick, hr]⟩

theorem holds_release {ctx : SessionContext} (hr : ctx.strand.resume = .release) : ctx.Holds (ctx.resumeAt .idle) :=
  ⟨rfl, rfl, by simp [finalizing, resumeAt, hr]⟩

theorem holds_input (ctx : SessionContext) (input : SessionInput) : ctx.Holds (ctx.handleInput input).1 := by
  obtain ⟨hshape, hstrand, hended, -⟩ := handleInput_frame ctx input
  refine ⟨hshape.1, hended, ?_⟩
  rw [finalizing, finalizing, hstrand, hshape.2.1]

end SessionContext

namespace Server

variable {D : Type} {cfg : Config D}

/-- The two stores are those of the calls, and the calls under way are the
ones the handlers are in. -/
structure Follows (s : Server) (r : ResultCalls) : Prop where
  records : r.records = s.records
  ratings : r.ratings = s.ratings
  under : ∀ (k : Nat) (ctx : SessionContext) (call : FinalizeCall), s.contexts[k]? = some ctx →
    ctx.finalizing = some call → call ∈ r.calls
  done : ∀ call ∈ r.calls, (∃ b, call.stage = .returned b) ∨
    ∃ (k : Nat) (ctx : SessionContext), s.contexts[k]? = some ctx ∧ ctx.finalizing = some call
  ids : ∀ id, id ∈ r.calls.map (·.record.sessionId) ↔
    ∃ (k : Nat) (ctx : SessionContext), s.contexts[k]? = some ctx ∧ ctx.id = id ∧ ctx.ended = true
  distinct : (r.calls.map (·.record.sessionId)).Nodup

theorem follows_empty : Follows {} {} where
  records := rfl
  ratings := rfl
  under := by simp
  done := by simp
  ids := by simp
  distinct := List.nodup_nil

theorem Follows.index_inj {s : Server} {r : ResultCalls} (h : Follows s r) {i j : Nat} {c d : FinalizeCall}
    (hc : r.calls[i]? = some c) (hd : r.calls[j]? = some d) (he : c.record.sessionId = d.record.sessionId) : i = j := by
  obtain ⟨hi, -⟩ := List.getElem?_eq_some_iff.mp hc
  apply (List.getElem?_inj (by rw [List.length_map]; exact hi) h.distinct).mp
  rw [List.getElem?_map, List.getElem?_map, hc, hd, Option.map_some, Option.map_some, he]

theorem Follows.still {s t : Server} {r u : ResultCalls} (h : Follows s r) (hcalls : u.calls = r.calls)
    (hrecords : u.records = t.records) (hratings : u.ratings = t.ratings)
    (hold : ∀ (k : Nat) (c : SessionContext), s.contexts[k]? = some c →
      ∃ d : SessionContext, t.contexts[k]? = some d ∧ c.Holds d)
    (hnew : ∀ (k : Nat) (d : SessionContext), t.contexts[k]? = some d →
      (d.finalizing = none ∧ d.ended = false) ∨ ∃ c : SessionContext, s.contexts[k]? = some c ∧ c.Holds d) :
    Follows t u where
  records := hrecords
  ratings := hratings
  under := by
    intro k d call hd hcall
    rw [hcalls]
    rcases hnew k d hd with ⟨hnone, -⟩ | ⟨c, hc, hsame⟩
    · rw [hnone] at hcall
      cases hcall
    · exact h.under k c call hc (hsame.finalizing ▸ hcall)
  done := by
    rw [hcalls]
    intro call hin
    rcases h.done call hin with hret | ⟨k, c, hc, hcall⟩
    · exact Or.inl hret
    · obtain ⟨d, hd, hsame⟩ := hold k c hc
      exact Or.inr ⟨k, d, hd, hsame.finalizing.trans hcall⟩
  ids := by
    intro id
    rw [hcalls, h.ids]
    constructor
    · rintro ⟨k, c, hc, hid, hended⟩
      obtain ⟨d, hd, hsame⟩ := hold k c hc
      exact ⟨k, d, hd, hsame.id.trans hid, hsame.ended.trans hended⟩
    · rintro ⟨k, d, hd, hid, hended⟩
      rcases hnew k d hd with ⟨-, hopen⟩ | ⟨c, hc, hsame⟩
      · rw [hopen] at hended
        cases hended
      · exact ⟨k, c, hc, hsame.id.symm.trans hid, hsame.ended.symm.trans hended⟩
  distinct := hcalls ▸ h.distinct

theorem Follows.same {s t : Server} {r u : ResultCalls} (h : Follows s r) (hcalls : u.calls = r.calls)
    (hrecords : u.records = t.records) (hratings : u.ratings = t.ratings) (hcontexts : t.contexts = s.contexts) :
    Follows t u := by
  apply h.still hcalls hrecords hratings
  · intro k c hc
    exact ⟨c, hcontexts ▸ hc, rfl, rfl, rfl⟩
  · intro k d hd
    exact Or.inr ⟨d, hcontexts ▸ hd, rfl, rfl, rfl⟩

theorem Follows.hold {s t : Server} {r : ResultCalls} (h : Follows s r) {k : Nat} {c d : SessionContext}
    (hk : s.contexts[k]? = some c) (hsame : c.Holds d) (hcontexts : t.contexts = s.contexts.set k d)
    (hrecords : t.records = s.records) (hratings : t.ratings = s.ratings) : Follows t r := by
  refine h.still rfl (h.records.trans hrecords.symm) (h.ratings.trans hratings.symm) ?_ ?_
  · intro j e he
    rw [hcontexts, getElem?_set_of_some hk]
    split
    next hj =>
      rw [hj, hk] at he
      cases he
      exact ⟨d, rfl, hsame⟩
    next => exact ⟨e, he, rfl, rfl, rfl⟩
  · intro j e he
    rw [hcontexts, getElem?_set_of_some hk] at he
    split at he
    next hj =>
      cases he
      exact Or.inr ⟨c, hj ▸ hk, hsame⟩
    next => exact Or.inr ⟨e, he, rfl, rfl, rfl⟩

theorem Follows.begin {s t : Server} {r : ResultCalls} (hi : s.Inv) (h : Follows s r) {k : Nat} {c d : SessionContext}
    {call : FinalizeCall} (hk : s.contexts[k]? = some c) (hopen : c.ended = false) (hended : d.ended = true)
    (hid : d.id = c.id) (hcall : d.finalizing = some call) (hrecord : call.record.sessionId = c.id)
    (hcontexts : t.contexts = s.contexts.set k d) (hrecords : t.records = s.records)
    (hratings : t.ratings = s.ratings) : Follows t { r with calls := r.calls ++ [call] } where
  records := h.records.trans hrecords.symm
  ratings := h.ratings.trans hratings.symm
  under := by
    intro j e other he hother
    rw [hcontexts, getElem?_set_of_some hk] at he
    split at he
    next =>
      cases he
      rw [hcall] at hother
      cases hother
      exact List.mem_concat_self
    next => exact List.mem_append_left _ (h.under j e other he hother)
  done := by
    intro other hin
    rw [hcontexts]
    rcases List.mem_append.mp hin with hin | hin
    · rcases h.done other hin with hret | ⟨j, e, he, hother⟩
      · exact Or.inl hret
      · have hj : j ≠ k := by
          rintro rfl
          rw [hk] at he
          cases he
          rw [(SessionContext.finalizing_own (hi.sound j c hk) hother).2] at hopen
          cases hopen
        exact Or.inr ⟨j, e, getElem?_set_of_ne he (Ne.symm hj), hother⟩
    · rw [List.mem_singleton.mp hin]
      exact Or.inr ⟨k, d, getElem?_set_of_eq hk, hcall⟩
  ids := by
    intro id
    rw [List.map_append, List.map_singleton, List.mem_append, List.mem_singleton, h.ids, hcontexts, hrecord,
      exists_set_iff hk (fun e => e.id = id ∧ e.ended = true),
      exists_split_iff hk (fun e => e.id = id ∧ e.ended = true), hid]
    simp only [hopen, hended, Bool.false_eq_true, and_false, and_true, false_or]
    rw [or_comm, eq_comm]
  distinct := by
    rw [List.map_append, List.map_singleton, List.nodup_append]
    refine ⟨h.distinct, List.nodup_singleton _, ?_⟩
    intro a ha b hb hab
    -- The session of an earlier call has ended, this one was still open.
    obtain ⟨j, e, he, hother, hend⟩ := (h.ids a).mp ha
    rw [List.mem_singleton.mp hb, hrecord] at hab
    have hsame : e = c := hi.same_of_id he hk (hother.trans hab)
    rw [hsame, hopen] at hend
    cases hend

theorem ids_set {calls : List FinalizeCall} {j : Nat} {call next : FinalizeCall} (hj : calls[j]? = some call)
    (hrecord : next.record = call.record) :
    (calls.set j next).map (·.record.sessionId) = calls.map (·.record.sessionId) := by
  apply List.ext_getElem?
  intro i
  rw [List.getElem?_map, List.getElem?_map, getElem?_set_of_some hj]
  split
  next hij => rw [hij, hj, Option.map_some, Option.map_some, hrecord]
  next => rfl

theorem Follows.advance {s t : Server} {r u : ResultCalls} (hi : s.Inv) (h : Follows s r) {j k : Nat}
    {c d : SessionContext} {call next : FinalizeCall} (hk : s.contexts[k]? = some c) (hcall : c.finalizing = some call)
    (hj : r.calls[j]? = some call) (hcalls : u.calls = r.calls.set j next)
    (hcontexts : t.contexts = s.contexts.set k d) (hid : d.id = c.id) (hended : d.ended = c.ended)
    (hrecord : next.record = call.record)
    (hnext : ((∃ b, next.stage = .returned b) ∧ d.finalizing = none) ∨ d.finalizing = some next)
    (hrecords : u.records = t.records) (hratings : u.ratings = t.ratings) : Follows t u where
  records := hrecords
  ratings := hratings
  under := by
    intro i e other he hother
    rw [hcalls]
    rw [hcontexts, getElem?_set_of_some hk] at he
    split at he
    next =>
      cases he
      rcases hnext with ⟨-, hnone⟩ | hsome
      · rw [hnone] at hother
        cases hother
      · rw [hsome] at hother
        cases hother
        exact List.mem_of_getElem? (getElem?_set_of_eq hj)
    next hne =>
      obtain ⟨l, hl⟩ := List.mem_iff_getElem?.mp (h.under i e other he hother)
      have hlj : l ≠ j := by
        rintro rfl
        rw [hj] at hl
        cases hl
        have hown := (SessionContext.finalizing_own (hi.sound i e he) hother).1
        exact hne (hi.id_inj he hk (hown.symm.trans (SessionContext.finalizing_own (hi.sound k c hk) hcall).1))
      exact List.mem_of_getElem? (getElem?_set_of_ne hl (Ne.symm hlj))
  done := by
    intro other hin
    rw [hcalls] at hin
    rw [hcontexts]
    obtain ⟨l, hl⟩ := List.mem_iff_getElem?.mp hin
    rw [getElem?_set_of_some hj] at hl
    split at hl
    next =>
      cases hl
      rcases hnext with ⟨hret, -⟩ | hsome
      · exact Or.inl hret
      · exact Or.inr ⟨k, d, getElem?_set_of_eq hk, hsome⟩
    next hne =>
      rcases h.done other (List.mem_of_getElem? hl) with hret | ⟨i, e, he, hother⟩
      · exact Or.inl hret
      · have hik : i ≠ k := by
          rintro rfl
          rw [hk] at he
          cases he
          rw [hcall] at hother
          cases hother
          exact hne (h.index_inj hl hj rfl)
        exact Or.inr ⟨i, e, getElem?_set_of_ne he (Ne.symm hik), hother⟩
  ids := by
    intro id
    rw [hcalls, ids_set hj hrecord, h.ids, hcontexts, exists_set_iff hk (fun e => e.id = id ∧ e.ended = true),
      exists_split_iff hk (fun e => e.id = id ∧ e.ended = true), hid, hended]
  distinct := by
    rw [hcalls, ids_set hj hrecord]
    exact h.distinct

theorem Follows.exists_index {s : Server} {r : ResultCalls} (h : Follows s r) {k : Nat} {ctx : SessionContext}
    {call : FinalizeCall} (hk : s.contexts[k]? = some ctx) (hcall : ctx.finalizing = some call) :
    ∃ j : Nat, r.calls[j]? = some call := List.mem_iff_getElem?.mp (h.under k ctx call hk hcall)

theorem follows_effect {s t : Server} {r : ResultCalls} (hi : s.Inv) (h : Follows s r) (he : Effect cfg s t) :
    ∃ u, (ResultCalls.machine cfg.elo).Leads r u ∧ Follows t u := by
  cases he with
  | stay => exact ⟨r, .refl r, h⟩
  | queue | call => exact ⟨r, .refl r, h.same rfl h.records h.ratings rfl⟩
  | rename userId username =>
      refine ⟨_, .of_step (a := .ensureUser userId username) rfl, h.same rfl h.records ?_ rfl⟩
      change r.ratings.ensureUser userId username = s.ratings.ensureUser userId username
      rw [h.ratings]
  | create hheld =>
      refine ⟨r, .refl r, h.still rfl h.records h.ratings ?_ ?_⟩
      · intro k c hc
        exact ⟨c, (List.getElem?_append_left (List.getElem?_eq_some_iff.mp hc).1).trans hc, rfl, rfl, rfl⟩
      · intro k d hd
        simp only [createSession, getElem?_concat_eq] at hd
        split at hd
        next =>
          cases hd
          exact Or.inl ⟨rfl, rfl⟩
        next => exact Or.inr ⟨d, hd, rfl, rfl, rfl⟩
  | start hk hfree hq now => exact ⟨r, .refl r, h.hold hk (SessionContext.holds_start hfree now) rfl rfl rfl⟩
  | tick hk hfree ha now =>
      exact ⟨r, .refl r, h.hold hk (SessionContext.holds_tick (hi.sound _ _ hk) hfree ha cfg.maxTicks now) rfl rfl rfl⟩
  | disarm hk => exact ⟨r, .refl r, h.hold hk (SessionContext.holds_disarm _) rfl rfl rfl⟩
  | send hk => exact ⟨r, .refl r, h.hold hk (SessionContext.holds_sent _) rfl rfl rfl⟩
  | schedule hk hs hr => exact ⟨r, .refl r, h.hold hk (SessionContext.holds_scheduleTick hr) rfl rfl rfl⟩
  | release hk hs hr => exact ⟨r, .refl r, h.hold hk (SessionContext.holds_release hr) rfl rfl rfl⟩
  | @input n call ctx hn hk hfree =>
      exact ⟨r, .refl r, h.hold hk (SessionContext.holds_input ctx call.1) rfl rfl rfl⟩
  | @finish k ctx hk hs now hr =>
      obtain ⟨p, q, hpair, -⟩ := (hi.sound k ctx hk).pair
      have hopen : ctx.ended = false := by
        have hstage := (hi.sound k ctx hk).stage
        simp only [SessionContext.Stage, hr] at hstage
        exact hstage.2.2
      refine ⟨_, .of_step (a := .begin (ctx.finalRecord p q now) ctx.participants) rfl,
        h.begin hi hk hopen ?_ ?_ ?_ rfl rfl rfl rfl⟩ <;>
      simp [SessionContext.finalizing, SessionContext.finishSession, hopen, hpair]
  | @save k ctx hk hs record hr hnew =>
      have hcall : ctx.finalizing = some ⟨record, ctx.participants, .saving⟩ := by
        rw [SessionContext.finalizing, hr]
      have hrecords : r.records.insert record.sessionId record = s.records.insert record.sessionId record := by
        rw [h.records]
      obtain ⟨j, hj⟩ := h.exists_index hk hcall
      refine ⟨_, .of_step (a := .proceed j) (ResultCalls.step_save hj rfl (h.records ▸ hnew)), ?_⟩
      exact h.advance hi hk hcall hj rfl rfl rfl rfl rfl (Or.inr rfl) hrecords h.ratings
  | @skip k ctx hk hs record hr hold =>
      have hcall : ctx.finalizing = some ⟨record, ctx.participants, .saving⟩ := by
        rw [SessionContext.finalizing, hr]
      obtain ⟨j, hj⟩ := h.exists_index hk hcall
      refine ⟨_, .of_step (a := .proceed j) (ResultCalls.step_skip hj rfl (h.records ▸ hold)), ?_⟩
      exact h.advance hi hk hcall hj rfl rfl rfl rfl rfl (Or.inl ⟨⟨false, rfl⟩, rfl⟩) h.records h.ratings
  | @ensure k ctx hk hs record user todo hr =>
      have hcall : ctx.finalizing = some ⟨record, ctx.participants, .ensuring (user :: todo)⟩ := by
        rw [SessionContext.finalizing, hr]
      have hratings : r.ratings.ensureUser user.1 user.2 = s.ratings.ensureUser user.1 user.2 := by
        rw [h.ratings]
      obtain ⟨j, hj⟩ := h.exists_index hk hcall
      refine ⟨_, .of_step (a := .proceed j) (ResultCalls.step_ensure hj rfl), ?_⟩
      exact h.advance hi hk hcall hj rfl rfl rfl rfl rfl (Or.inr rfl) h.records hratings
  | @rate k ctx hk hs record hr =>
      have hcall : ctx.finalizing = some ⟨record, ctx.participants, .ensuring []⟩ := by
        rw [SessionContext.finalizing, hr]
      have hratings : (r.ratings.applyMatchResult cfg.elo record.winnerUserId record.loserId).1 =
          (s.ratings.applyMatchResult cfg.elo record.winnerUserId record.loserId).1 := by
        rw [h.ratings]
      obtain ⟨j, hj⟩ := h.exists_index hk hcall
      refine ⟨_, .of_step (a := .proceed j) (ResultCalls.step_rate hj rfl), ?_⟩
      exact h.advance hi hk hcall hj rfl rfl rfl rfl rfl (Or.inl ⟨⟨true, rfl⟩, rfl⟩) h.records hratings

/-- Every run of the server is, on the two stores, a run of FinalizeResult
calls and logins. -/
theorem follows_reachable {s : Server} (h : (machine cfg).Reachable s) :
    ∃ r, (ResultCalls.machine cfg.elo).Reachable r ∧ Follows s r := by
  apply h.simulated follows_empty
  intro s a t r hs hrel ht
  exact follows_effect (reachable_inv hs) hrel (effect_of_step ht)

/-- While no handler is in FinalizeResult, the stores are what the calls made so
far, one for each ended session, leave one after another. -/
theorem serial_stores {s : Server} (h : (machine cfg).Reachable s)
    (hidle : ∀ (k : Nat) (ctx : SessionContext), s.contexts[k]? = some ctx → ctx.finalizing = none) :
    ∃ r : ResultCalls, Follows s r ∧ r.Serial cfg.elo := by
  obtain ⟨r, hr, hrel⟩ := follows_reachable h
  obtain ⟨hstores, hrates⟩ := ResultCalls.reachable_inv hr
  refine ⟨r, hrel, ResultCalls.serial_of_returned hstores hrates ?_⟩
  intro call hin
  rcases hrel.done call hin with hret | ⟨k, ctx, hk, hcall⟩
  · exact hret
  · rw [hidle k ctx hk] at hcall
    cases hcall

end Server

end GameServer
