import GameServer.ResultInvariant
import GameServer.StrandProgress

namespace GameServer

theorem countP_split {α : Type} (l : List α) (p q r : α → Bool)
    (h : ∀ a ∈ l, (p a).toNat = (q a).toNat + (r a).toNat) : l.countP p = l.countP q + l.countP r := by
  induction l with
  | nil => rfl
  | cons a l ih =>
      have ha := h a (by simp)
      have hl := ih (fun b hb => h b (by simp [hb]))
      simp only [List.countP_cons, hl]
      cases hp : p a <;> cases hq : q a <;> cases hr : r a <;> simp [hp, hq, hr] at ha ⊢ <;> omega

theorem loserOf_eq_iff {winner user1 user2 : Int} (hne : user1 ≠ user2)
    (hw : winner = user1 ∨ winner = user2) (u : Int) :
    loserOf winner [user1, user2] = u ↔ (u = user1 ∨ u = user2) ∧ winner ≠ u := by
  rcases hw with rfl | rfl
  · simp only [loserOf, if_true]
    constructor
    · rintro rfl
      exact ⟨Or.inr rfl, hne⟩
    · rintro ⟨rfl | rfl, hu⟩
      · exact absurd rfl hu
      · rfl
  · simp only [loserOf, if_neg hne.symm]
    constructor
    · rintro rfl
      exact ⟨Or.inl rfl, hne.symm⟩
    · rintro ⟨rfl | rfl, hu⟩
      · rfl
      · exact absurd rfl hu

namespace SessionContext

theorem Move.of_ended {maxTicks : Nat} {c d : SessionContext} (hs : c.Sound) (hm : c.Move maxTicks d)
    (hd : d.ended = true) : d.simulation = c.simulation ∧ d.participants = c.participants := by
  cases hm with
  | start | disarm | send | schedule | resume => exact ⟨rfl, rfl⟩
  | tick hfree ha now =>
      rw [handleTick_ended] at hd
      have hopen := (hs.armed hfree ha).1
      rw [show c.disarm.ended = c.ended from rfl, hopen] at hd
      cases hd
  | finish hsends hr =>
      obtain ⟨p, q, hp, -⟩ := hs.pair
      rw [finishSession_open (hs.finish hr).2.1 hp]
      exact ⟨rfl, rfl⟩
  | input hfree input =>
      have hended := (handleInput_frame c input).2.2.1
      have hsame : (c.handleInput input).1 = c := by
        rw [hended] at hd
        simp [handleInput, hd]
      rw [hsame]
      exact ⟨rfl, rfl⟩

theorem Move.ends {maxTicks : Nat} {c d : SessionContext} (hm : c.Move maxTicks d)
    (hc : c.ended = false) (hd : d.ended = true) :
    c.strand.sends = [] ∧ ∃ now, c.strand.resume = .finishSession now := by
  have hsame : d.ended = c.ended → False := by
    intro he
    rw [he, hc] at hd
    cases hd
  cases hm with
  | start | disarm | send | schedule | resume => exact (hsame rfl).elim
  | tick hfree ha now => exact (hsame (handleTick_ended _ _ _)).elim
  | finish hsends hr => exact ⟨hsends, _, hr⟩
  | input hfree input => exact (hsame (handleInput_frame c input).2.2.1).elim

theorem Decisive.congr {c d : SessionContext} (h : c.Decisive) (hsim : d.simulation = c.simulation)
    (hp : d.participants = c.participants) : d.Decisive := by
  obtain ⟨u, hu, hpos⟩ := h
  exact ⟨u, by rw [userIds, hp]; exact hu, by rw [position, hsim]; exact hpos⟩

theorem Plays.decisive {maxTicks : Nat} {ctx : SessionContext} (h : ctx.Plays maxTicks) (hs : ctx.Sound)
    (hended : ctx.ended = true) (hbound : maxTicks ≤ 178956970) : ctx.Decisive := by
  obtain ⟨l, hl⟩ := h.ledger
  obtain ⟨p, q, hp, -⟩ := hs.pair
  have hcount : ctx.tickSent = maxTicks := by
    have hclock := h.clock
    rw [Clock] at hclock
    split at hclock
    next => exact hclock
    next => simpa [hended] using hclock
  have hnear := hl.near p.userId
  refine ⟨p.userId, by simp [userIds, hp], ?_⟩
  rw [intMin, position]
  omega

end SessionContext

namespace Server

variable {D : Type} {cfg : Config D}

def Quiet (s : Server) : Prop :=
  ∀ (k : Nat) (ctx : SessionContext), s.contexts[k]? = some ctx → ctx.ended = true → ctx.strand.Free

/-- Sessions, records and ratings tell one story. -/
structure Agrees (s : Server) : Prop where
  recorded : ∀ (k : Nat) (ctx : SessionContext), s.contexts[k]? = some ctx → ctx.Finished →
    ∃ record, s.records.lookup ctx.id = some record
  belongs : ∀ id record, s.records.lookup id = some record → record.sessionId = id ∧
    ∃ (k : Nat) (ctx : SessionContext), s.contexts[k]? = some ctx ∧ ctx.id = id ∧ ctx.Finished ∧
      [record.user1Id, record.user2Id] = ctx.userIds ∧ record.user1Id ≠ record.user2Id ∧
      ctx.Ahead record.winnerUserId ∧
      ∀ (j : Nat) (other : SessionContext), s.contexts[j]? = some other → other.id = id → j = k
  wins : ∀ u, s.ratings.wins u = s.records.entries.countP (fun e => decide (e.2.winnerUserId = u))
  losses : ∀ u, s.ratings.losses u = s.records.entries.countP
    (fun e => decide ((u = e.2.user1Id ∨ u = e.2.user2Id) ∧ e.2.winnerUserId ≠ u))
  played : ∀ u, s.ratings.wins u + s.ratings.losses u =
    s.contexts.countP (fun ctx => decide (ctx.Finished ∧ u ∈ ctx.userIds))
  totals : Table.total (·.wins) s.ratings = s.records.entries.length ∧
    Table.total (·.losses) s.ratings = s.records.entries.length

theorem tally_of_quiet {s : Server} (hq : s.Quiet) {k : Nat} {ctx : SessionContext}
    (hk : s.contexts[k]? = some ctx) :
    ctx.tally = if ctx.Finished then some (ctx.winnerUserId, ctx.userIds, true) else none := by
  by_cases he : ctx.ended = true
  · have hfree := hq k ctx hk he
    rw [if_pos ⟨he, hfree⟩]
    simp [SessionContext.tally, he, hfree.2]
  · rw [if_neg (fun hf => he hf.1)]
    exact SessionContext.tally_open (by simpa using he)

theorem tallied_congr {s : Server} {f g : Int × List Int × Bool → Bool}
    (h : ∀ (k : Nat) (ctx : SessionContext) x, s.contexts[k]? = some ctx → ctx.tally = some x → f x = g x) :
    s.tallied f = s.tallied g := by
  apply List.countP_congr
  intro ctx hmem
  obtain ⟨k, hk⟩ := List.mem_iff_getElem?.mp hmem
  cases hx : ctx.tally with
  | none => rfl
  | some x => rw [Option.any_some, Option.any_some, h k ctx x hk hx]

theorem tallied_of_quiet {s : Server} (hq : s.Quiet) (f : Int × List Int × Bool → Bool) :
    s.tallied (fun x => x.2.2 && f x) = s.tallied f := by
  apply tallied_congr
  intro k ctx x hk hx
  rw [tally_of_quiet hq hk] at hx
  split at hx
  next =>
    cases hx
    simp
  next => cases hx

def AllDecisive (s : Server) : Prop :=
  ∀ (k : Nat) (ctx : SessionContext), s.contexts[k]? = some ctx → ctx.ended = true → ctx.Decisive

section Agreement

variable {s : Server} (hn : 1 ≤ cfg.maxTicks) (hr : (machine cfg).Reachable s) (hq : s.Quiet) (hd : s.AllDecisive)

include hn hr hd

theorem ahead_of_ended {k : Nat} {ctx : SessionContext} (hk : s.contexts[k]? = some ctx) (he : ctx.ended = true) :
    ctx.Ahead ctx.winnerUserId := by
  obtain ⟨l, hl⟩ := (reachable_plays hn hr hk).ledger
  exact SessionContext.winner_ahead ((reachable_inv hr).sound k ctx hk) hl (hd k ctx hk he)

theorem tally_pair {k : Nat} {ctx : SessionContext} (hk : s.contexts[k]? = some ctx) {x : Int × List Int × Bool}
    (hx : ctx.tally = some x) :
    ∃ user1 user2, x.2.1 = [user1, user2] ∧ user1 ≠ user2 ∧ (x.1 = user1 ∨ x.1 = user2) := by
  obtain ⟨p, q, hp, hne⟩ := ((reachable_inv hr).sound k ctx hk).pair
  have hids : ctx.userIds = [p.userId, q.userId] := by simp [SessionContext.userIds, hp]
  have he : ctx.ended = true := by
    by_contra ho
    rw [SessionContext.tally_open (by simpa using ho)] at hx
    cases hx
  have hahead := (ahead_of_ended hn hr hd hk he).1
  have hshow : x.1 = ctx.winnerUserId ∧ x.2.1 = ctx.userIds := by
    simp only [SessionContext.tally, he, if_true] at hx
    split at hx <;> cases hx <;> exact ⟨rfl, rfl⟩
  rw [hids] at hahead
  refine ⟨p.userId, q.userId, hshow.2.trans hids, hne, ?_⟩
  rw [hshow.1]
  simpa using hahead

include hq

theorem belongs_of_quiet {id : String} {record : MatchResultRecord} (hl : s.records.lookup id = some record) :
    record.sessionId = id ∧ ∃ (k : Nat) (ctx : SessionContext), s.contexts[k]? = some ctx ∧ ctx.id = id ∧
      ctx.Finished ∧ [record.user1Id, record.user2Id] = ctx.userIds ∧ record.user1Id ≠ record.user2Id ∧
      ctx.Ahead record.winnerUserId ∧
      ∀ (j : Nat) (other : SessionContext), s.contexts[j]? = some other → other.id = id → j = k := by
  have hinv := reachable_inv hr
  obtain ⟨k, ctx, hk, hid, he, -, hrec⟩ := (reachable_resultInv hr).record id record hl
  obtain ⟨hwinner, hids⟩ := hrec.outcome
  obtain ⟨p, q, hp, hne⟩ := (hinv.sound k ctx hk).pair
  refine ⟨hrec.sessionId.trans hid, k, ctx, hk, hid, ⟨he, hq k ctx hk he⟩, hids, ?_, ?_, ?_⟩
  · simp only [SessionContext.userIds, hp, List.map_cons, List.map_nil, List.cons.injEq] at hids
    rw [hids.1, hids.2.1]
    exact hne
  · rw [hwinner]
    exact ahead_of_ended hn hr hd hk he
  · intro j other hj ho
    exact hinv.id_inj hj hk (ho.trans hid.symm)

theorem losses_of_quiet (u : Int) : s.ratings.losses u = s.records.entries.countP
    (fun e => decide ((u = e.2.user1Id ∨ u = e.2.user2Id) ∧ e.2.winnerUserId ≠ u)) := by
  have hres := reachable_resultInv hr
  rw [hres.losses, tallied_of_quiet hq (fun x => decide (loserOf x.1 x.2.1 = u)),
    ← hres.stored (fun w ids => decide (loserOf w ids = u))]
  congr 1
  apply List.countP_congr
  intro e he
  have hl : s.records.lookup e.1 = some e.2 := AList.mem_lookup_iff.mpr he
  obtain ⟨-, k, ctx, -, -, -, hids, hne, hahead, -⟩ := belongs_of_quiet hn hr hq hd hl
  have hw : e.2.winnerUserId = e.2.user1Id ∨ e.2.winnerUserId = e.2.user2Id := by
    have hin := hahead.1
    rw [← hids] at hin
    simpa using hin
  rw [decide_eq_true_eq, decide_eq_true_eq, loserOf_eq_iff hne hw]

theorem played_of_quiet (u : Int) : s.ratings.wins u + s.ratings.losses u =
    s.contexts.countP (fun ctx => decide (ctx.Finished ∧ u ∈ ctx.userIds)) := by
  have hres := reachable_resultInv hr
  have hshow : s.contexts.countP (fun ctx => decide (ctx.Finished ∧ u ∈ ctx.userIds)) =
      s.tallied (fun x => decide (u ∈ x.2.1)) := by
    apply List.countP_congr
    intro ctx hmem
    obtain ⟨k, hk⟩ := List.mem_iff_getElem?.mp hmem
    rw [tally_of_quiet hq hk]
    by_cases hf : ctx.Finished <;> simp [hf]
  have hsplit : s.tallied (fun x => decide (u ∈ x.2.1)) =
      s.tallied (fun x => decide (x.1 = u)) + s.tallied (fun x => decide (loserOf x.1 x.2.1 = u)) := by
    apply countP_split
    intro ctx hmem
    obtain ⟨k, hk⟩ := List.mem_iff_getElem?.mp hmem
    cases hx : ctx.tally with
    | none => rfl
    | some x =>
        obtain ⟨user1, user2, hids, hne, hw⟩ := tally_pair hn hr hd hk hx
        have hlose := loserOf_eq_iff hne hw u
        have hin : u ∈ [user1, user2] ↔ u = user1 ∨ u = user2 := by simp
        simp only [Option.any_some, hids, hin, hlose]
        by_cases hwu : x.1 = u
        · subst hwu
          simp [hw]
        · simp [hwu]
  rw [hres.wins, hres.losses, tallied_of_quiet hq (fun x => decide (x.1 = u)),
    tallied_of_quiet hq (fun x => decide (loserOf x.1 x.2.1 = u)), hshow, hsplit]
  omega

theorem agrees_of_decisive : s.Agrees where
  recorded := by
    intro k ctx hk hf
    have hsome : ctx.tally.isSome = true := by
      rw [tally_of_quiet hq hk, if_pos hf]
      rfl
    exact (Table.mem_iff_lookup _ _).mp ((reachable_resultInv hr).saved k ctx hk hsome)
  belongs := fun id record hl => belongs_of_quiet hn hr hq hd hl
  wins := by
    intro u
    have hres := reachable_resultInv hr
    rw [hres.wins, tallied_of_quiet hq (fun x => decide (x.1 = u)), ← hres.stored (fun w _ => decide (w = u))]
  losses := losses_of_quiet hn hr hq hd
  played := played_of_quiet hn hr hq hd
  totals := by
    have hres := reachable_resultInv hr
    have hall : s.tallied (·.2.2) = s.records.entries.length := by
      have hstored := hres.stored (fun _ _ => true)
      have hquiet := tallied_of_quiet hq (fun _ => true)
      simp only [Bool.and_true] at hquiet
      rw [hquiet, ← hstored, List.countP_true]
    exact ⟨by rw [hres.totalWins, hall], by rw [hres.totalLosses, hall]⟩

end Agreement

/-- If the step is the FinishSession of a context, somebody in it is above the
start of the winner loop. -/
def FinishesDecisively (s : Server) : Action → Prop
  | .proceed k => ∀ (ctx : SessionContext) now, s.contexts[k]? = some ctx → ctx.strand.sends = [] →
      ctx.strand.resume = .finishSession now → ctx.Decisive
  | _ => True

theorem allDecisive_step {s t : Server} {a : Action} (hi : s.Inv) (h : s.AllDecisive)
    (he : s.FinishesDecisively a) (hs : s.step cfg a = some t) : t.AllDecisive := by
  intro k d hk hended
  rcases move_effect (effect_of_step hs) k d hk with ⟨c, hc, rfl | hm⟩ | ⟨-, first, second, -, rfl⟩
  · exact h k d hc hended
  · obtain ⟨hsim, hp⟩ := hm.of_ended (hi.sound k c hc) hended
    by_cases ho : c.ended = true
    · exact (h k c hc ho).congr hsim hp
    · obtain ⟨hsends, now, hr⟩ := hm.ends (by simpa using ho) hended
      have hbusy : ¬ c.strand.Free := by
        intro hfree
        rw [hfree.2] at hr
        cases hr
      have ha : a = .proceed k := by
        by_contra hne
        rw [step_busy hs hc hbusy hne] at hk
        cases hk
        exact ho hended
      subst ha
      exact (he c now hc hsends hr).congr hsim hp
  · cases hended

theorem allDecisive_run {as : List Action} {s : Server} (h : (machine cfg).run as = some s)
    (ho : (machine cfg).Obeys FinishesDecisively (machine cfg).init as) : s.AllDecisive := by
  have hboth : s.Inv ∧ s.AllDecisive := by
    refine ho.preserves (P := fun s => s.Inv ∧ s.AllDecisive) ?_ h ⟨Inv.empty, ?_⟩
    · intro s a t hs he hstep
      exact ⟨inv_effect hs.1 (effect_of_step hstep), allDecisive_step hs.1 hs.2 he hstep⟩
    · intro k ctx hk
      simp [machine] at hk
  exact hboth.2

theorem allDecisive_of_bound (hn : 1 ≤ cfg.maxTicks) (hbound : cfg.maxTicks ≤ 178956970) {s : Server}
    (h : (machine cfg).Reachable s) : s.AllDecisive := by
  intro k ctx hk hended
  exact (reachable_plays hn h hk).decisive ((reachable_inv h).sound k ctx hk) hended hbound

end Server

end GameServer
