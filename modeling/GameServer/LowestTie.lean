import GameServer.Consistency
import GameServer.ResultAgreement

namespace GameServer.Server

open SessionContext Simulation

variable {D : Type}

theorem leads_input (cfg : Config D) {s : Server} (hi : s.Inv) {k : Nat} {ctx : SessionContext}
    (hk : s.contexts[k]? = some ctx) (hfree : ctx.strand.Free) (hopen : ctx.ended = false) {input : SessionInput}
    (hu : input.userId ∈ ctx.userIds) (hv : ctx.simulation.validateInput input.command = .ok ()) :
    ∃ t, (machine cfg).Leads s t ∧
      t.contexts = s.contexts.set k { ctx with simulation := ctx.simulation.push input.command } := by
  have hnot := not_finished_of_open hopen
  have hid := (hi.owner input.userId ctx.id).mpr ⟨k, ctx, hk, rfl, hnot, hu⟩
  have hactive := (hi.active ctx.id k).mpr ⟨ctx, hk, rfl, hnot⟩
  have hlookup : s.lookupSession input = .ok k := by simp [lookupSession, hid, hactive]
  have hin : input.userId ∈ ctx.participantMap := ((hi.sound k ctx hk).members _).mpr hu
  have hhandle : (ctx.handleInput input).1 = { ctx with simulation := ctx.simulation.push input.command } := by
    rw [handleInput]
    rw [if_neg (by simp [hopen]), if_neg (not_not.mpr hin), Simulation.enqueueInput_of_ok hv]
    rfl
  have hfirst : (machine cfg).step s (.submitLookup input) = some { s with calls := s.calls ++ [(input, k)] } := by
    simp [machine, step, hlookup]
  have hsecond : (machine cfg).step { s with calls := s.calls ++ [(input, k)] } (.submitHandler s.calls.length) =
      some { ({ s with calls := s.calls ++ [(input, k)] } : Server).setContext k (ctx.handleInput input).1 with
        calls := (s.calls ++ [(input, k)]).eraseIdx s.calls.length } := by
    simp [machine, step, hk, hfree]
  refine ⟨_, (Machine.Leads.of_step hfirst).step hsecond, ?_⟩
  rw [← hhandle]
  rfl

/-- The one session of users 1 and 2 waits for its timer after some ticks.
Both stand at x, and the inputs E are queued for the next tick. -/
structure Standing (s : Server) (ctx : SessionContext) (tick : Nat) (x : Int) (E : List InputCommand) : Prop where
  alone : s.contexts = [ctx]
  free : ctx.strand.Free
  armed : ctx.strand.timerArmed = true
  opened : ctx.ended = false
  users : ctx.userIds = [1, 2]
  sent : ctx.tickSent = tick
  now : ctx.simulation.currentTick = tick
  position : ∀ u ∈ ctx.userIds, ctx.position u = x
  queued : ctx.simulation.inputsByTick.index (tick + 1) = E
  later : ∀ t, (tick : Int) + 1 < t → ctx.simulation.inputsByTick.lookup t = none
  count : ∀ u, ctx.simulation.tickCount u (tick + 1) = (E.filter (·.userId = u)).length
  countLater : ∀ u t, (tick : Int) + 1 < t → ctx.simulation.tickCount u t = 0
  sequence : ∀ u, ctx.simulation.lastSequence u ≤ 4 * tick + (E.filter (·.userId = u)).length

variable {s : Server} {ctx : SessionContext} {tick : Nat} {x : Int} {E : List InputCommand}

theorem Standing.here (h : Standing s ctx tick x E) : s.contexts[0]? = some ctx := by
  rw [h.alone]
  rfl

theorem Standing.push {t : Server} (h : Standing s ctx tick x E) {i : InputCommand}
    (htick : i.targetTick = tick + 1) (hseq : i.sequence = 4 * tick + (E.filter (·.userId = i.userId)).length + 1)
    (hcontexts : t.contexts = s.contexts.set 0 { ctx with simulation := ctx.simulation.push i }) :
    Standing t { ctx with simulation := ctx.simulation.push i } tick x (E ++ [i]) where
  alone := by rw [hcontexts, h.alone]; rfl
  free := h.free
  armed := h.armed
  opened := h.opened
  users := h.users
  sent := h.sent
  now := h.now
  position := h.position
  queued := by
    rw [Table.index, Simulation.push_lookup, if_pos htick.symm, htick, h.queued]
    rfl
  later := by
    intro t ht
    rw [Simulation.push_lookup, if_neg (by omega)]
    exact h.later t ht
  count := by
    intro u
    rw [Simulation.push_tickCount, h.count, List.filter_append, List.length_append]
    by_cases hu : i.userId = u
    · simp [hu, htick]
    · simp [hu, Ne.symm hu]
  countLater := by
    intro u t ht
    rw [Simulation.push_tickCount, h.countLater u t ht, if_neg (by omega)]
    rfl
  sequence := by
    intro u
    rw [Simulation.push_lastSequence, List.filter_append, List.length_append]
    by_cases hu : i.userId = u
    · have hone : ([i].filter (·.userId = u)).length = 1 := by simp [hu]
      rw [if_pos hu.symm, hseq, hu, hone]
      omega
    · rw [if_neg (Ne.symm hu)]
      have := h.sequence u
      omega

theorem Standing.enter {cfg : Config D} (h : Standing s ctx tick x E) (hr : (machine cfg).Reachable s)
    {u delta : Int} (hu : u ∈ ctx.userIds) (hdelta : -3 ≤ delta ∧ delta ≤ 3)
    (hroom : (E.filter (·.userId = u)).length < 4) :
    ∃ t ctx' i, (machine cfg).Leads s t ∧ Standing t ctx' tick x (E ++ [i]) ∧
      i.userId = u ∧ i.delta = delta := by
  have hseq := h.sequence u
  have hcount := h.count u
  have hv : ctx.simulation.validateInput
      (⟨"session-1", u, 4 * tick + (E.filter (·.userId = u)).length + 1, tick + 1, delta⟩ : SessionInput).command =
        .ok () := by
    rw [Simulation.validateInput_ok_iff]
    simp only [SessionInput.command, h.now, hcount]
    refine ⟨by omega, hdelta, by omega, by omega, by omega⟩
  obtain ⟨t, ht, hcontexts⟩ := leads_input cfg (reachable_inv hr) h.here h.free h.opened hu hv
  exact ⟨t, _, _, ht, h.push rfl rfl hcontexts, rfl, rfl⟩

theorem Standing.enterAll {cfg : Config D} {u : Int} (deltas : List Int) (h : Standing s ctx tick x E)
    (hr : (machine cfg).Reachable s) (hu : u = 1 ∨ u = 2) (hdelta : ∀ d ∈ deltas, -3 ≤ d ∧ d ≤ 3)
    (hroom : (E.filter (·.userId = u)).length + deltas.length ≤ 4) :
    ∃ t ctx' F, (machine cfg).Leads s t ∧ Standing t ctx' tick x (E ++ F) ∧ (∀ i ∈ F, i.userId = u) ∧
      F.map (·.delta) = deltas := by
  induction deltas generalizing s ctx E with
  | nil => exact ⟨s, ctx, [], .refl s, by simpa using h, by simp, rfl⟩
  | cons d deltas ih =>
      rw [List.length_cons] at hroom
      have hin : u ∈ ctx.userIds := by rw [h.users]; simpa using hu
      obtain ⟨t, ctx', i, ht, hstand, hiu, hid⟩ := h.enter hr hin (hdelta d (by simp)) (by omega)
      have hroom' : ((E ++ [i]).filter (·.userId = u)).length + deltas.length ≤ 4 := by
        have hone : ([i].filter (·.userId = u)).length = 1 := by simp [hiu]
        rw [List.filter_append, List.length_append, hone]
        omega
      obtain ⟨v, ctx'', F, hv, hstand', hF, hmap⟩ :=
        ih hstand (hr.leads ht) (fun e he => hdelta e (by simp [he])) hroom'
      refine ⟨v, ctx'', i :: F, ht.trans hv, by simpa using hstand', ?_, by simp [hid, hmap]⟩
      intro j hj
      rcases List.mem_cons.mp hj with rfl | hj
      · exact hiu
      · exact hF j hj

theorem filter_user_all {F : List InputCommand} {u : Int} (h : ∀ i ∈ F, i.userId = u) (v : Int) :
    F.filter (·.userId = v) = if u = v then F else [] := by
  split
  next huv => exact List.filter_eq_self.mpr (fun i hi => by simp [h i hi, huv])
  next huv => exact List.filter_eq_nil_iff.mpr (fun i hi => by simp [h i hi, huv])

theorem Standing.enterBoth {cfg : Config D} (h : Standing s ctx tick x []) (hr : (machine cfg).Reachable s)
    (deltas : List Int) (hdelta : ∀ d ∈ deltas, -3 ≤ d ∧ d ≤ 3) (hroom : deltas.length ≤ 4) :
    ∃ t ctx' E, (machine cfg).Leads s t ∧ Standing t ctx' tick x E ∧
      (∀ u, (E.filter (·.userId = u)).length ≤ 4) ∧
      ∀ u ∈ ctx'.userIds, ((E.filter (·.userId = u)).map (·.delta)).sum = deltas.sum := by
  obtain ⟨t, c, F, ht, hF, hFu, hFmap⟩ := h.enterAll deltas hr (Or.inl rfl) hdelta (by simpa using hroom)
  rw [List.nil_append] at hF
  have hroom' : (F.filter (·.userId = 2)).length + deltas.length ≤ 4 := by
    rw [filter_user_all hFu]
    simpa using hroom
  obtain ⟨v, d, G, hv, hG, hGu, hGmap⟩ := hF.enterAll deltas (hr.leads ht) (Or.inr rfl) hdelta hroom'
  have hFlen : F.length = deltas.length := by rw [← hFmap, List.length_map]
  have hGlen : G.length = deltas.length := by rw [← hGmap, List.length_map]
  refine ⟨v, d, F ++ G, ht.trans hv, hG, ?_, ?_⟩
  · intro u
    rw [List.filter_append, filter_user_all hFu, filter_user_all hGu, List.length_append]
    by_cases h1 : (1 : Int) = u
    · have h2 : ¬ (2 : Int) = u := by omega
      rw [if_pos h1, if_neg h2, List.length_nil]
      omega
    · rw [if_neg h1, List.length_nil]
      split
      next => omega
      next => simp
  · intro u hu
    rw [hG.users] at hu
    rw [List.filter_append, filter_user_all hFu, filter_user_all hGu]
    rcases (by simpa using hu : u = 1 ∨ u = 2) with rfl | rfl
    · simp [hFmap]
    · simp [hGmap]

def SameGame (c d : SessionContext) : Prop :=
  d.simulation = c.simulation ∧ d.tickSent = c.tickSent ∧ d.participants = c.participants

def Rearms (c : SessionContext) : Prop :=
  c.ended = false ∧ (c.strand.resume = .scheduleTick ∨ (c.strand.Free ∧ c.strand.timerArmed = true))

def Closes (c : SessionContext) : Prop := c.ended = true ∨ ∃ now, c.strand.resume = .finishSession now

theorem SameGame.move {maxTicks : Nat} {c d : SessionContext} (hbusy : ¬ c.strand.Free) (hm : c.Move maxTicks d) :
    SameGame c d := by
  cases hm with
  | start hfree => exact absurd hfree hbusy
  | tick hfree => exact absurd hfree hbusy
  | disarm hfree => exact absurd hfree hbusy
  | input hfree => exact absurd hfree hbusy
  | send | schedule | resume => exact ⟨rfl, rfl, rfl⟩
  | finish =>
      rw [finishSession]
      split <;> exact ⟨rfl, rfl, rfl⟩

theorem Rearms.move {maxTicks : Nat} {c d : SessionContext} (hbusy : ¬ c.strand.Free) (hm : c.Move maxTicks d)
    (h : Rearms c) : Rearms d := by
  obtain ⟨hopen, hr | ⟨hfree, -⟩⟩ := h
  · cases hm with
    | start hfree => exact absurd hfree hbusy
    | tick hfree => exact absurd hfree hbusy
    | disarm hfree => exact absurd hfree hbusy
    | input hfree => exact absurd hfree hbusy
    | send => exact ⟨hopen, Or.inl hr⟩
    | schedule hs => exact ⟨hopen, Or.inr ⟨⟨hs, rfl⟩, rfl⟩⟩
    | finish hs hr' =>
        rw [hr] at hr'
        cases hr'
    | resume hs hr' =>
        rw [hr] at hr'
        exact absurd hr' id
  · exact absurd hfree hbusy

theorem Closes.move {maxTicks : Nat} {c d : SessionContext} (hbusy : ¬ c.strand.Free) (hm : c.Move maxTicks d)
    (h : Closes c) : Closes d := by
  cases hm with
  | start hfree => exact absurd hfree hbusy
  | tick hfree => exact absurd hfree hbusy
  | disarm hfree => exact absurd hfree hbusy
  | input hfree => exact absurd hfree hbusy
  | send => exact h
  | schedule hs hr =>
      rcases h with he | ⟨now, hr'⟩
      · exact Or.inl he
      · rw [hr] at hr'
        cases hr'
  | finish =>
      apply Or.inl
      rw [finishSession]
      split
      next he => exact he
      next => rfl
  | resume hs hr =>
      rcases h with he | ⟨now, hr'⟩
      · exact Or.inl he
      · rw [hr'] at hr
        exact absurd hr id

theorem SameGame.trans {c d e : SessionContext} (h : SameGame c d) (h' : SameGame d e) : SameGame c e :=
  ⟨h'.1.trans h.1, h'.2.1.trans h.2.1, h'.2.2.trans h.2.2⟩

theorem drain_alone (cfg : Config D) {Q : SessionContext → Prop}
    (hQ : ∀ c d : SessionContext, ¬ c.strand.Free → c.Move cfg.maxTicks d → Q c → Q d) {s : Server}
    {c : SessionContext} (hc : s.contexts = [c]) (hq : Q c) :
    ∃ t d, (machine cfg).Leads s t ∧ t.contexts = [d] ∧ d.strand.Free ∧ SameGame c d ∧ Q d := by
  have hk : s.contexts[0]? = some c := by rw [hc]; rfl
  obtain ⟨t, ht, -, d, hcontexts, hfree, hsame, hqd⟩ := strand_drains cfg (P := fun d => SameGame c d ∧ Q d)
    (fun e f hbusy hm h => ⟨h.1.trans (.move hbusy hm), hQ e f hbusy hm h.2⟩) s hk ⟨⟨rfl, rfl, rfl⟩, hq⟩
  exact ⟨t, d, ht, by rw [hcontexts, hc]; rfl, hfree, hsame, hqd⟩

theorem position_tickOnce (sim : Simulation) (u : Int) :
    (sim.tickOnce.players.index u).position = (sim.players.index u).position +
      (((sim.inputsByTick.index (sim.currentTick + 1)).filter (·.userId = u)).map (·.delta)).sum := by
  rw [Simulation.tickOnce_players, Simulation.foldl_applyEvent_position]
  have hperm := ((Simulation.stableSort_perm (sim.inputsByTick.index (sim.currentTick + 1))).filter
    (fun i => decide (i.userId = u))).map (fun i => i.delta)
  rw [hperm.sum_eq]

theorem Standing.fire (cfg : Config D) (h : Standing s ctx tick x E) :
    ∃ t c, (machine cfg).Leads s t ∧ t.contexts = [c] ∧
      c.simulation = ctx.simulation.tickOnce ∧ c.tickSent = tick + 1 ∧ c.userIds = [1, 2] ∧
      (tick + 1 < cfg.maxTicks → Rearms c) ∧ (cfg.maxTicks ≤ tick + 1 → Closes c) := by
  have hstep : (machine cfg).step s (.timer 0 true 0) =
      some (s.setContext 0 (ctx.disarm.handleTick cfg.maxTicks 0)) := by
    simp [machine, step, h.here, h.free, h.armed]
  have hd : ctx.disarm.ended = false := h.opened
  have hsent : ctx.disarm.tickSent = tick := h.sent
  refine ⟨_, ctx.disarm.handleTick cfg.maxTicks 0, .of_step hstep, by simp [h.alone], ?_, ?_, ?_, ?_, ?_⟩
  · have hsim : (ctx.disarm.handleTick cfg.maxTicks 0).simulation = ctx.disarm.simulation.tickOnce := by
      simp [handleTick, hd]
    exact hsim
  · simp [handleTick, hd, hsent]
  · rw [userIds, (handleTick_shape _ _ _).2.1]
    exact h.users
  · intro hlt
    refine ⟨?_, Or.inl ?_⟩
    · rw [handleTick_ended]
      exact hd
    · simp [handleTick, hd, hsent, Nat.not_le.mpr hlt]
  · intro hle
    exact Or.inr ⟨0, by simp [handleTick, hd, hsent, hle]⟩

theorem Standing.advance {cfg : Config D} {d : Int} (h : Standing s ctx tick x E)
    (hlimit : ∀ u, (E.filter (·.userId = u)).length ≤ 4)
    (hsum : ∀ u ∈ ctx.userIds, ((E.filter (·.userId = u)).map (·.delta)).sum = d) (hlt : tick + 1 < cfg.maxTicks) :
    ∃ t ctx', (machine cfg).Leads s t ∧ Standing t ctx' (tick + 1) (x + d) [] := by
  obtain ⟨t, c, ht, hc, hsim, hsent, husers, hrearms, -⟩ := h.fire cfg
  obtain ⟨v, e, hv, he, hfree, ⟨hsim', hsent', hp⟩, hopen, hnext⟩ :=
    drain_alone cfg (fun _ _ hbusy hm hq => Rearms.move hbusy hm hq) hc (hrearms hlt)
  have hsim'' : e.simulation = ctx.simulation.tickOnce := hsim'.trans hsim
  have harmed : e.strand.timerArmed = true := by
    rcases hnext with hr | ⟨-, ha⟩
    · rw [hfree.2] at hr
      cases hr
    · exact ha
  have husers' : e.userIds = [1, 2] := by
    rw [userIds, hp]
    exact husers
  refine ⟨v, e, ht.trans hv, ?_⟩
  constructor
  · exact he
  · exact hfree
  · exact harmed
  · exact hopen
  · exact husers'
  · exact hsent'.trans hsent
  · rw [hsim'', tickOnce_currentTick, h.now]
    rfl
  · intro u hu
    rw [husers', ← h.users] at hu
    have hx : (ctx.simulation.players.index u).position = x := h.position u hu
    rw [SessionContext.position, hsim'', position_tickOnce, h.now, h.queued, hsum u hu, hx]
  · rw [Table.index, hsim'', tickOnce_lookup, h.now, if_neg (by omega), h.later _ (by omega)]
    rfl
  · intro t ht
    rw [hsim'', tickOnce_lookup, h.now]
    split
    next => rfl
    next => exact h.later t (by omega)
  · intro u
    rw [hsim'', tickCount, tickOnce_trackers]
    exact h.countLater u _ (by omega)
  · intro u t ht
    rw [hsim'', tickCount, tickOnce_trackers]
    exact h.countLater u t (by omega)
  · intro u
    have hseq := h.sequence u
    have hfour := hlimit u
    rw [hsim'', lastSequence, tickOnce_trackers]
    rw [lastSequence] at hseq
    simp only [List.filter_nil, List.length_nil]
    omega

theorem Standing.close (cfg : Config D) {d : Int} (h : Standing s ctx tick x E)
    (hsum : ∀ u ∈ ctx.userIds, ((E.filter (·.userId = u)).map (·.delta)).sum = d) (hle : cfg.maxTicks ≤ tick + 1) :
    ∃ t c, (machine cfg).Leads s t ∧ t.contexts = [c] ∧ c.Finished ∧ c.userIds = [1, 2] ∧
      ∀ u ∈ c.userIds, c.position u = x + d := by
  obtain ⟨t, c, ht, hc, hsim, -, husers, -, hcloses⟩ := h.fire cfg
  obtain ⟨v, e, hv, he, hfree, ⟨hsim', -, hp⟩, hended⟩ :=
    drain_alone cfg (fun _ _ hbusy hm hq => Closes.move hbusy hm hq) hc (hcloses hle)
  have husers' : e.userIds = [1, 2] := by
    rw [userIds, hp]
    exact husers
  refine ⟨v, e, ht.trans hv, he, ⟨?_, hfree⟩, husers', ?_⟩
  · rcases hended with hended | ⟨now, hr⟩
    · exact hended
    · rw [hfree.2] at hr
      cases hr
  · intro u hu
    rw [husers', ← h.users] at hu
    have hx : (ctx.simulation.players.index u).position = x := h.position u hu
    rw [SessionContext.position, hsim', hsim, position_tickOnce, h.now, h.queued, hsum u hu, hx]

theorem standing_start (cfg : Config D) : ∃ s ctx, (machine cfg).Reachable s ∧ Standing s ctx 0 0 [] := by
  have hne : (⟨1, "kim"⟩ : AuthUser).userId ≠ (⟨2, "lee"⟩ : AuthUser).userId := by decide
  obtain ⟨s, hs, hcontexts, -, -⟩ := run_match cfg hne
  obtain ⟨c, hc⟩ : ∃ c, c = ({} : Server).newContext cfg (pairParticipants ⟨1, "kim"⟩ ⟨2, "lee"⟩) := ⟨_, rfl⟩
  rw [← hc] at hcontexts
  have hready : c.strand.Free ∧ c.strand.startQueued = true := by
    rw [hc]
    exact ⟨⟨rfl, rfl⟩, rfl⟩
  have hstep : (machine cfg).step s (.startSession 0 0) = some (s.setContext 0 (c.startSession 0)) := by
    simp [machine, step, hcontexts, hready]
  have hset : (s.setContext 0 (c.startSession 0)).contexts = [c.startSession 0] := by simp [hcontexts]
  have hopen : (c.startSession 0).ended = false := by
    rw [hc]
    rfl
  obtain ⟨t, d, ht, hd, hfree, ⟨hsim, hsent, hp⟩, hopen', hnext⟩ :=
    drain_alone cfg (fun _ _ hbusy hm hq => Rearms.move hbusy hm hq) hset ⟨hopen, Or.inl rfl⟩
  have hsim' : d.simulation = (({} : Simulation).addPlayer 1).addPlayer 2 := by
    rw [hsim, hc]
    rfl
  refine ⟨t, d, (Machine.Reachable.of_run hs).leads ((Machine.Leads.of_step hstep).trans ht), ?_⟩
  constructor
  · exact hd
  · exact hfree
  · rcases hnext with hr | ⟨-, ha⟩
    · rw [hfree.2] at hr
      cases hr
    · exact ha
  · exact hopen'
  · rw [userIds, hp, hc]
    rfl
  · rw [hsent, hc]
    rfl
  · rw [hsim', addPlayer_currentTick, addPlayer_currentTick]
    rfl
  · intro u _
    rw [SessionContext.position, hsim', index_addPlayer, index_addPlayer, Table.index_empty]
    rfl
  · rw [hsim', addPlayer_inputsByTick, addPlayer_inputsByTick, Table.index_empty]
    rfl
  · intro t _
    rw [hsim', addPlayer_inputsByTick, addPlayer_inputsByTick]
    exact AList.lookup_empty t
  · intro u
    rw [hsim', tickCount, addPlayer_trackers, addPlayer_trackers, Table.index_empty]
    rfl
  · intro u t _
    rw [hsim', tickCount, addPlayer_trackers, addPlayer_trackers, Table.index_empty]
    rfl
  · intro u
    rw [hsim', lastSequence, addPlayer_trackers, addPlayer_trackers, Table.index_empty]
    exact Nat.le_refl 0

/-- What both players enter for the tick after tick n: the greatest step down
that does not leave the range of an int. -/
def stepDown (n : Nat) : List Int :=
  if n < 178956970 then [-3, -3, -3, -3] else if n = 178956970 then [-3, -3, -2] else []

def depth (n : Nat) : Int := if n ≤ 178956970 then -12 * n else intMin

theorem depth_succ (n : Nat) : depth (n + 1) = depth n + (stepDown n).sum := by
  simp only [depth, stepDown, intMin]
  split
  next =>
    rw [if_pos (by omega), if_pos (by omega)]
    have hsum : [(-3 : Int), -3, -3, -3].sum = -12 := by decide
    rw [hsum]
    omega
  next =>
    by_cases h : n = 178956970
    · subst h
      decide
    · rw [if_neg (by omega), if_neg (by omega), if_neg h]
      rfl

theorem stepDown_delta (n : Nat) : ∀ d ∈ stepDown n, -3 ≤ d ∧ d ≤ 3 := by
  simp only [stepDown]
  split
  next => decide
  next => split <;> decide

theorem stepDown_length (n : Nat) : (stepDown n).length ≤ 4 := by
  simp only [stepDown]
  split
  next => decide
  next => split <;> decide

theorem standing_depth (cfg : Config D) {n : Nat} (hn : n < cfg.maxTicks) :
    ∃ s ctx, (machine cfg).Reachable s ∧ Standing s ctx n (depth n) [] := by
  induction n with
  | zero => exact standing_start cfg
  | succ n ih =>
      obtain ⟨s, ctx, hr, h⟩ := ih (by omega)
      obtain ⟨t, c, E, ht, hstand, hlimit, hsum⟩ := h.enterBoth hr (stepDown n) (stepDown_delta n) (stepDown_length n)
      obtain ⟨v, d, hv, hnext⟩ := hstand.advance hlimit hsum hn
      rw [depth_succ]
      exact ⟨v, d, (hr.leads ht).leads hv, hnext⟩

/-- From a limit of 178956971 ticks on a session can end in a tie at the very
value its winner loop starts from, and that loop then finds nobody. -/
theorem not_agrees_of_tie {cfg : Config D} (h : 178956971 ≤ cfg.maxTicks) :
    ∃ s, (machine cfg).Reachable s ∧ s.Quiet ∧ ¬ s.Agrees := by
  obtain ⟨n, hn⟩ := Nat.exists_eq_add_of_le' h
  obtain ⟨s, ctx, hr, hstand⟩ := standing_depth cfg (show n + 178956970 < cfg.maxTicks by omega)
  obtain ⟨t, c, E, ht, hfull, -, hsum⟩ := hstand.enterBoth hr _ (stepDown_delta _) (stepDown_length _)
  obtain ⟨v, d, hv, hd, hfinished, husers, hposition⟩ := hfull.close cfg hsum (by omega)
  rw [← depth_succ] at hposition
  have hbottom : depth (n + 178956970 + 1) = intMin := by rw [depth, if_neg (by omega)]
  have hreach := (hr.leads ht).leads hv
  have hk : v.contexts[0]? = some d := by rw [hd]; rfl
  have hnone : ¬ d.Decisive := by
    intro ⟨u, hu, hlt⟩
    rw [hposition u hu, hbottom] at hlt
    exact lt_irrefl _ hlt
  have honly : ∀ (k : Nat) (c : SessionContext), v.contexts[k]? = some c → c = d := by
    intro k c hc
    rw [hd, List.getElem?_singleton] at hc
    split at hc
    next => exact (Option.some.inj hc).symm
    next => cases hc
  refine ⟨v, hreach, ?_, ?_⟩
  · intro k c hc _
    rw [honly k c hc]
    exact hfinished.2
  · intro hagrees
    obtain ⟨record, hrec⟩ := hagrees.recorded 0 d hk hfinished
    obtain ⟨-, k, e, he, -, -, -, -, hahead, -⟩ := hagrees.belongs d.id record hrec
    obtain ⟨k', e', he', -, -, -, hrecord⟩ := (reachable_resultInv hreach).record d.id record hrec
    obtain ⟨l, hl⟩ := (reachable_plays (by omega) hreach hk).ledger
    rw [honly k e he] at hahead
    rw [honly k' e' he'] at hrecord
    have hzero : record.winnerUserId = 0 :=
      hrecord.outcome.1.trans (winner_zero ((reachable_inv hreach).sound 0 d hk) hl hnone)
    have hin := hahead.1
    rw [hzero, husers] at hin
    simp at hin

/-- When every session that ends has somebody above the start of the winner
loop, sessions, records and ratings agree whenever nobody is finishing. That
is so for every run up to a limit of 178956970 ticks, and not above. -/
theorem results_agree_iff (cfg : Config D) (hn : 1 ≤ cfg.maxTicks) :
    (∀ as s, (machine cfg).run as = some s → (machine cfg).Obeys FinishesDecisively (machine cfg).init as →
      s.Quiet → s.Agrees) ∧
    ((∀ s, (machine cfg).Reachable s → s.Quiet → s.Agrees) ↔ cfg.maxTicks ≤ 178956970) := by
  refine ⟨?_, ?_, ?_⟩
  · intro as s hrun hobeys hq
    exact agrees_of_decisive hn (.of_run hrun) hq (allDecisive_run hrun hobeys)
  · intro hall
    by_contra hlt
    obtain ⟨s, hr, hq, hnot⟩ := not_agrees_of_tie (show 178956971 ≤ cfg.maxTicks by omega)
    exact hnot (hall s hr hq)
  · intro hbound s hr hq
    exact agrees_of_decisive hn hr hq (allDecisive_of_bound hn hbound hr)

theorem results_agree_of_play : ∃ s, (machine (evenConfig 1)).run (playActions ⟨1, "kim"⟩ ⟨2, "lee"⟩) = some s ∧
    s.records.entries.length = 1 ∧ s.Quiet ∧ s.Agrees := by
  obtain ⟨s, hs, hr, hlen, hfree⟩ := Machine.exists_of_run (M := machine (evenConfig 1))
    (playActions ⟨1, "kim"⟩ ⟨2, "lee"⟩)
    (fun s => s.records.entries.length = 1 ∧ ∀ ctx ∈ s.contexts, ctx.ended = true → ctx.strand.Free) (by decide)
  have hq : s.Quiet := fun k ctx hk => hfree ctx (List.mem_of_getElem? hk)
  exact ⟨s, hs, hlen, hq, (results_agree_iff (evenConfig 1) (by decide)).2.mpr (by decide) s hr hq⟩

/-- With a limit one tick greater the two players meet at the bottom. -/
theorem not_agrees_of_bottom :
    ∃ s, (machine (evenConfig 178956971)).Reachable s ∧ s.Quiet ∧ ¬ s.Agrees :=
  not_agrees_of_tie (Nat.le_refl _)

end GameServer.Server
