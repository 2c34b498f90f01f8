import GameServer.Consistency
import GameServer.LedgerView
import GameServer.ResultAgreement

namespace GameServer

open Simulation

/-- The inputs accepted so far, each with the place of its session. -/
abbrev InputHistory := List (Nat × InputCommand)

def InputHistory.of (h : InputHistory) (k : Nat) : List InputCommand := (h.filter (·.1 = k)).map (·.2)

theorem InputHistory.of_concat (h : InputHistory) (k j : Nat) (i : InputCommand) :
    InputHistory.of (h ++ [(k, i)]) j = h.of j ++ if k = j then [i] else [] := by
  rw [InputHistory.of, List.filter_append, List.map_append, InputHistory.of]
  by_cases hj : k = j <;> simp [hj]

namespace SessionContext

def ledger (ctx : SessionContext) (tick : Int) (inputs : List InputCommand) : Ledger := ⟨tick, ctx.userIds, inputs⟩

def Tells (maxTicks : Nat) (ctx : SessionContext) (inputs : List InputCommand) : SessionEvent → Prop
  | .created _ _ participants => participants = ctx.participants
  | .started _ tick _ state => tick = 0 ∧ state.tick = 0 ∧ (ctx.ledger 0 inputs).Reads state.players
  | .state _ tick players _ => tick ≤ ctx.tickSent ∧ (ctx.ledger tick inputs).Reads players
  | .ended _ _ winner ticks =>
    ticks = maxTicks ∧ maxTicks ≤ ctx.tickSent ∧ (ctx.ledger maxTicks inputs).Ahead winner

structure Announces (maxTicks : Nat) (ctx : SessionContext) (inputs : List InputCommand) (e : Int × SessionEvent) :
    Prop where
  receiver : e.1 ∈ ctx.userIds
  sessionId : e.2.sessionId = ctx.id
  tells : ctx.Tells maxTicks inputs e.2

section Tells

variable {maxTicks : Nat} {inputs : List InputCommand} {c d : SessionContext}

theorem ledger_congr (hshape : c.SameShape d) (tick : Int) : d.ledger tick inputs = c.ledger tick inputs := by
  rw [ledger, ledger, userIds, userIds, hshape.2.1]

theorem Tells.mono (hshape : c.SameShape d) (ht : c.tickSent ≤ d.tickSent) {e : SessionEvent}
    (h : c.Tells maxTicks inputs e) : d.Tells maxTicks inputs e := by
  cases e with
  | created id now participants => exact h.trans hshape.2.1.symm
  | started id tick interval state =>
      rw [Tells, ledger_congr hshape]
      exact h
  | state id tick players now =>
      rw [Tells, ledger_congr hshape]
      exact ⟨by have hle := h.1; omega, h.2⟩
  | ended id reason winner ticks =>
      rw [Tells, ledger_congr hshape]
      exact ⟨h.1, Nat.le_trans h.2.1 ht, h.2.2⟩

theorem Tells.accept {i : InputCommand} (hi : (c.tickSent : Int) < i.targetTick) {e : SessionEvent}
    (h : c.Tells maxTicks inputs e) : c.Tells maxTicks (inputs ++ [i]) e := by
  have hledger : ∀ tick, c.ledger tick (inputs ++ [i]) = (c.ledger tick inputs).accept i := fun _ => rfl
  cases e with
  | created id now participants => exact h
  | started id tick interval state =>
      rw [Tells, hledger]
      refine ⟨h.1, h.2.1, h.2.2.accept ?_⟩
      change 0 < i.targetTick
      omega
  | state id tick players now =>
      rw [Tells, hledger]
      exact ⟨h.1, h.2.accept (Int.lt_of_le_of_lt h.1 hi)⟩
  | ended id reason winner ticks =>
      rw [Tells, hledger]
      refine ⟨h.1, h.2.1, h.2.2.accept ?_⟩
      change (maxTicks : Int) < i.targetTick
      have hle := h.2.1
      omega

theorem Announces.mono {e : Int × SessionEvent} (h : c.Announces maxTicks inputs e) (hshape : c.SameShape d)
    (ht : c.tickSent ≤ d.tickSent) : d.Announces maxTicks inputs e where
  receiver := by
    rw [userIds, hshape.2.1]
    exact h.receiver
  sessionId := h.sessionId.trans hshape.1.symm
  tells := h.tells.mono hshape ht

theorem announces_broadcast (hshape : c.SameShape d) {event : SessionEvent} {e : Int × SessionEvent}
    (he : e ∈ c.broadcastToParticipants event) (hid : event.sessionId = c.id)
    (h : d.Tells maxTicks inputs event) : d.Announces maxTicks inputs e := by
  obtain ⟨p, hp, rfl⟩ := List.mem_map.mp he
  refine ⟨?_, hid.trans hshape.1.symm, h⟩
  rw [userIds, hshape.2.1]
  exact List.mem_map_of_mem hp

theorem Announces.accept {i : InputCommand} {e : Int × SessionEvent} (h : c.Announces maxTicks inputs e)
    (hi : (c.tickSent : Int) < i.targetTick) : c.Announces maxTicks (inputs ++ [i]) e :=
  ⟨h.receiver, h.sessionId, h.tells.accept hi⟩

/-- The ledger is the one of the session, and what waits to be sent is told
by it. -/
structure Keeps (maxTicks : Nat) (inputs : List InputCommand) (ctx : SessionContext) : Prop where
  played : ctx.Played (ctx.ledger ctx.tickSent inputs)
  pending : ∀ e ∈ ctx.strand.sends, ctx.Announces maxTicks inputs e

theorem Played.reads (h : c.Played (c.ledger c.tickSent inputs)) :
    (c.ledger c.tickSent inputs).Reads c.simulation.snapshot.players :=
  h.represents.reads h.authors

theorem Keeps.still (h : c.Keeps maxTicks inputs) (hshape : c.SameShape d) (hsim : d.simulation = c.simulation)
    (ht : d.tickSent = c.tickSent) (hsends : d.strand.sends ⊆ c.strand.sends) : d.Keeps maxTicks inputs where
  played := by
    rw [ledger_congr hshape, ht]
    exact h.played.congr hsim ht hshape.2.1
  pending e he := (h.pending e (hsends he)).mono hshape (Nat.le_of_eq ht.symm)

theorem Keeps.startSession (h : c.Keeps maxTicks inputs) (hzero : c.tickSent = 0) (now : Int) :
    (c.startSession now).Keeps maxTicks inputs where
  played := h.played.congr rfl rfl rfl
  pending := by
    have hshape : c.SameShape (c.startSession now) := ⟨rfl, rfl, rfl⟩
    have hreads := h.played.reads
    have htick : c.simulation.currentTick = (c.ledger c.tickSent inputs).tick := h.played.represents.tick
    rw [hzero] at hreads htick
    intro e he
    rcases List.mem_append.mp he with he | he
    · exact announces_broadcast hshape he rfl rfl
    · exact announces_broadcast hshape he rfl ⟨rfl, htick, hreads⟩

theorem Keeps.tick (h : c.Keeps maxTicks inputs) (hopen : c.ended = false) (now : Int) :
    (c.disarm.handleTick maxTicks now).Keeps maxTicks inputs := by
  have hd : c.disarm.ended = false := hopen
  obtain ⟨d, hnext⟩ : ∃ d, d = c.disarm.handleTick maxTicks now := ⟨_, rfl⟩
  have hsends : d.strand.sends = c.broadcastToParticipants
      (.state c.id d.simulation.currentTick d.simulation.snapshot.players now) := by
    simp only [hnext, SessionContext.handleTick, hd, Bool.false_eq_true, if_false]
    rfl
  have hplayed : d.Played (d.ledger d.tickSent inputs) := by
    have hdisarmed : c.disarm.Played (c.ledger c.tickSent inputs) := h.played.congr rfl rfl rfl
    have hticked := hdisarmed.tickOnce
    simp only [hnext, SessionContext.handleTick, hd, Bool.false_eq_true, if_false]
    exact hticked.congr rfl rfl rfl
  have hshape : c.SameShape d := hnext ▸ handleTick_shape maxTicks c.disarm now
  have htick : d.simulation.currentTick = d.tickSent := hplayed.represents.tick
  rw [← hnext]
  refine ⟨hplayed, ?_⟩
  intro e he
  rw [hsends, htick] at he
  exact announces_broadcast hshape he rfl ⟨Int.le_refl _, hplayed.reads⟩

theorem Played.ahead (hs : c.Sound) (h : c.Played (c.ledger c.tickSent inputs)) (hbound : c.tickSent ≤ 178956970) :
    (c.ledger c.tickSent inputs).Ahead c.winnerUserId := by
  obtain ⟨p, q, hp, -⟩ := hs.pair
  have hdecisive : c.Decisive := by
    refine ⟨p.userId, by simp [userIds, hp], ?_⟩
    have hnear := h.near p.userId
    rw [intMin, position]
    omega
  have hposition : ∀ u, c.position u = (c.ledger c.tickSent inputs).position u := h.represents.position
  obtain ⟨hin, hahead⟩ := winner_ahead hs h hdecisive
  refine ⟨hin, ?_⟩
  intro v hv
  rw [← hposition, ← hposition]
  exact hahead v hv

theorem Keeps.finishSession (hs : c.Sound) (h : c.Keeps maxTicks inputs) (hcount : c.tickSent = maxTicks)
    (hopen : c.ended = false) (hbound : maxTicks ≤ 178956970) (now : Int) :
    (c.finishSession now).Keeps maxTicks inputs := by
  obtain ⟨p, q, hp, -⟩ := hs.pair
  rw [finishSession_open hopen hp now]
  refine ⟨h.played.congr rfl rfl rfl, ?_⟩
  have hahead := h.played.ahead hs (hcount ▸ hbound)
  have htick : c.simulation.currentTick = (c.ledger c.tickSent inputs).tick := h.played.represents.tick
  rw [hcount] at hahead htick
  intro e he
  have hannounces : c.Announces maxTicks inputs e :=
    announces_broadcast ⟨rfl, rfl, rfl⟩ he rfl ⟨htick, Nat.le_of_eq hcount.symm, hahead⟩
  exact hannounces.mono ⟨rfl, rfl, rfl⟩ (Nat.le_refl _)

theorem Keeps.accept (h : c.Keeps maxTicks inputs) {input : SessionInput} (hmem : input.userId ∈ c.userIds)
    (hv : c.simulation.validateInput input.command = .ok ()) :
    ({ c with simulation := c.simulation.push input.command } : SessionContext).Keeps maxTicks
      (inputs ++ [input.command]) where
  played := (h.played.push hv hmem).congr rfl rfl rfl
  pending e he := by
    have hlater := ((c.simulation.validateInput_ok_iff input.command).mp hv).1
    rw [h.played.represents.tick, h.played.tick] at hlater
    exact ((h.pending e he).accept hlater).mono ⟨rfl, rfl, rfl⟩ (Nat.le_refl _)

end Tells

end SessionContext

namespace Server

open SessionContext

variable {D : Type} {cfg : Config D}

def accepted (s : Server) : Action → InputHistory
  | .submitHandler n =>
    (s.calls[n]?.bind fun call => s.contexts[call.2]?.bind fun ctx =>
      (ctx.handleInput call.1).2.toOption.map fun _ => (call.2, call.1.command)).toList
  | _ => []

def historyMachine (cfg : Config D) : Machine (Server × InputHistory) Action := (machine cfg).recorded accepted

theorem proceed_calls {s t : Server} {k : Nat} {c : SessionContext} (h : s.proceed cfg k c = some t) :
    t.calls = s.calls := by
  rw [proceed] at h
  split at h
  next => cases h; rfl
  next => split at h <;> cases h <;> rfl

theorem calls_le_of_step {s t : Server} {a : Action} (h : s.step cfg a = some t) (ha : ∀ n, a ≠ .submitHandler n) :
    s.calls.length ≤ t.calls.length := by
  cases a with
  | submitHandler n => exact absurd rfl (ha n)
  | joinCheck user timeout =>
      by_cases hr : s.joinRefused user.userId = true <;> simp only [step, joinCheck, hr] at h <;> split at h <;>
        cases h <;> exact Nat.le_refl _
  | joinPush | queueTick | createSession =>
      simp only [step] at h
      split at h <;> cases h
      exact Nat.le_refl _
  | cancel | pair =>
      simp only [step] at h
      split at h
      next => split at h <;> cases h <;> exact Nat.le_refl _
      next => cases h
  | startSession k now | timer k ok now =>
      obtain ⟨c, -, h⟩ := Option.bind_eq_some_iff.mp h
      split at h <;> cases h
      exact Nat.le_refl _
  | proceed k =>
      obtain ⟨c, -, h⟩ := Option.bind_eq_some_iff.mp h
      rw [proceed_calls h]
  | submitLookup input =>
      simp only [step] at h
      split at h <;> cases h <;> simp
  | ensureUser =>
      cases h
      exact Nat.le_refl _

theorem accepted_cases {s t : Server} {a : Action} (h : s.step cfg a = some t) :
    (∃ (k : Nat) (c : SessionContext) (input : SessionInput), s.accepted a = [(k, input.command)] ∧
      s.contexts[k]? = some c ∧ (c.handleInput input).2 = .ok () ∧
      t.contexts = s.contexts.set k (c.handleInput input).1 ∧ t.log = s.log) ∨
    (s.accepted a = [] ∧ ((t.contexts = s.contexts ∧ t.log = s.log) ∨
      (Effect cfg s t ∧ s.calls.length ≤ t.calls.length))) := by
  cases a with
  | submitHandler n =>
      obtain ⟨call, hn, h⟩ := Option.bind_eq_some_iff.mp h
      obtain ⟨c, hk, h⟩ := Option.bind_eq_some_iff.mp h
      split at h
      next =>
        cases h
        cases hres : (c.handleInput call.1).2 with
        | ok u =>
            exact Or.inl ⟨call.2, c, call.1, by simp [accepted, hn, hk, hres, Except.toOption], hk, hres, rfl, rfl⟩
        | error e =>
            refine Or.inr ⟨by simp [accepted, hn, hk, hres, Except.toOption], Or.inl ⟨?_, rfl⟩⟩
            change s.contexts.set call.2 (c.handleInput call.1).1 = s.contexts
            rw [(handleInput_error hres).1]
            rw [← (List.getElem?_eq_some_iff.mp hk).2, List.set_getElem_self]
      next => cases h
  | joinCheck | joinPush | cancel | queueTick | pair | createSession | startSession | timer | proceed | submitLookup |
    ensureUser => exact Or.inr ⟨rfl, Or.inr ⟨effect_of_step h, calls_le_of_step h (by simp)⟩⟩

theorem newContext_keeps {maxTicks : Nat} (s : Server) (first second : AuthUser) :
    (s.newContext cfg (pairParticipants first second)).Keeps maxTicks [] where
  played := {
    represents := (Ledger.represents_empty.addPlayer first.userId).addPlayer second.userId
    moves := (Ledger.moves_empty.add first.userId).add second.userId
    tick := rfl
    added := fun _ => Iff.rfl
    authors := by simp [ledger] }
  pending := by simp [newContext]

/-- Each session keeps its part of the history. -/
structure Traced (maxTicks : Nat) (s : Server) (h : InputHistory) : Prop where
  known : ∀ x ∈ h, x.1 < s.contexts.length
  keeps : ∀ (k : Nat) (c : SessionContext), s.contexts[k]? = some c → c.Keeps maxTicks (h.of k)
  sent : ∀ e ∈ s.log, ∃ (k : Nat) (c : SessionContext), s.contexts[k]? = some c ∧ c.Announces maxTicks (h.of k) e

section Traced

variable {maxTicks : Nat} {s t : Server} {h : InputHistory}

theorem traced_init : ({} : Server).Traced maxTicks [] where
  known := by simp
  keeps := by simp
  sent := by simp

theorem Traced.congr (ht : s.Traced maxTicks h) (hc : t.contexts = s.contexts) (hl : t.log = s.log) :
    t.Traced maxTicks h where
  known := by
    rw [hc]
    exact ht.known
  keeps := by
    rw [hc]
    exact ht.keeps
  sent := by
    rw [hc, hl]
    exact ht.sent

theorem Traced.move (ht : s.Traced maxTicks h) {k : Nat} {c d : SessionContext} (hk : s.contexts[k]? = some c)
    (hd : d.Keeps maxTicks (h.of k)) (hshape : c.SameShape d) (hsent : c.tickSent ≤ d.tickSent)
    (hc : t.contexts = s.contexts.set k d) (hl : t.log = s.log) : t.Traced maxTicks h where
  known := by
    rw [hc, List.length_set]
    exact ht.known
  keeps j e he := by
    rw [hc, getElem?_set_of_some hk] at he
    split at he
    next hj =>
      cases he
      exact hj ▸ hd
    next => exact ht.keeps j e he
  sent e he := by
    rw [hl] at he
    obtain ⟨j, f, hj, hf⟩ := ht.sent e he
    rw [hc]
    by_cases hjk : j = k
    · subst hjk
      cases hk.symm.trans hj
      exact ⟨j, d, getElem?_set_of_eq hk, hf.mono hshape hsent⟩
    · exact ⟨j, f, getElem?_set_of_ne hj (Ne.symm hjk), hf⟩

theorem Traced.still (ht : s.Traced maxTicks h) {k : Nat} {c d : SessionContext} (hk : s.contexts[k]? = some c)
    (hc : t.contexts = s.contexts.set k d) (hl : t.log = s.log) (hshape : c.SameShape d)
    (hsim : d.simulation = c.simulation) (hsent : d.tickSent = c.tickSent)
    (hsends : d.strand.sends = c.strand.sends) : t.Traced maxTicks h :=
  ht.move hk ((ht.keeps k c hk).still hshape hsim hsent (fun _ he => hsends ▸ he)) hshape
    (Nat.le_of_eq hsent.symm) hc hl

theorem Traced.send (ht : s.Traced maxTicks h) {k : Nat} {c : SessionContext} (hk : s.contexts[k]? = some c)
    {e : Int × SessionEvent} {es : List (Int × SessionEvent)} (hs : c.strand.sends = e :: es)
    (hc : t.contexts = s.contexts.set k c.sent) (hl : t.log = s.log ++ [e]) : t.Traced maxTicks h := by
  have hkeeps := ht.keeps k c hk
  have hd : c.sent.Keeps maxTicks (h.of k) := hkeeps.still ⟨rfl, rfl, rfl⟩ rfl rfl (List.tail_subset _)
  have hmoved := ht.move (t := { t with log := s.log }) hk hd ⟨rfl, rfl, rfl⟩ (Nat.le_refl _) hc rfl
  refine ⟨hmoved.known, hmoved.keeps, ?_⟩
  intro e' he'
  rw [hl] at he'
  rcases List.mem_append.mp he' with he' | he'
  · exact hmoved.sent e' he'
  · rw [List.mem_singleton.mp he', hc]
    have hannounces := hkeeps.pending e (by simp [hs])
    exact ⟨k, c.sent, getElem?_set_of_eq hk, hannounces.mono ⟨rfl, rfl, rfl⟩ (Nat.le_refl _)⟩

theorem Traced.create (ht : s.Traced maxTicks h) (first second : AuthUser)
    (hc : t.contexts = s.contexts ++ [s.newContext cfg (pairParticipants first second)]) (hl : t.log = s.log) :
    t.Traced maxTicks h where
  known x hx := by
    rw [hc, List.length_append]
    exact Nat.lt_add_right _ (ht.known x hx)
  keeps k c hk := by
    rw [hc, getElem?_concat_eq] at hk
    split at hk
    next hlen =>
      cases hk
      have hnone : h.of k = [] := by
        rw [InputHistory.of, List.map_eq_nil_iff, List.filter_eq_nil_iff]
        intro x hx hxk
        have hlt := ht.known x hx
        rw [decide_eq_true_eq] at hxk
        omega
      rw [hnone]
      exact newContext_keeps s first second
    next => exact ht.keeps k c hk
  sent e he := by
    rw [hl] at he
    obtain ⟨k, c, hk, hannounces⟩ := ht.sent e he
    refine ⟨k, c, ?_, hannounces⟩
    rw [hc, List.getElem?_append_left (List.getElem?_eq_some_iff.mp hk).1]
    exact hk

theorem Traced.accept (ht : s.Traced maxTicks h) {k : Nat} {c : SessionContext} (hk : s.contexts[k]? = some c)
    (hs : c.Sound) {input : SessionInput} (hok : (c.handleInput input).2 = .ok ())
    (hc : t.contexts = s.contexts.set k (c.handleInput input).1) (hl : t.log = s.log) :
    t.Traced maxTicks (h ++ [(k, input.command)]) := by
  obtain ⟨-, hmember, hv, hd⟩ := handleInput_ok hok
  have hkeeps := ht.keeps k c hk
  have hlater := ((c.simulation.validateInput_ok_iff input.command).mp hv).1
  rw [hkeeps.played.represents.tick, hkeeps.played.tick] at hlater
  have hsame : ∀ j, j ≠ k → InputHistory.of (h ++ [(k, input.command)]) j = h.of j := by
    intro j hj
    rw [h.of_concat, if_neg (Ne.symm hj), List.append_nil]
  have hown : InputHistory.of (h ++ [(k, input.command)]) k = h.of k ++ [input.command] := by
    rw [h.of_concat, if_pos rfl]
  have hlt := (List.getElem?_eq_some_iff.mp hk).1
  rw [hd] at hc
  refine ⟨?_, ?_, ?_⟩
  · intro x hx
    rw [hc, List.length_set]
    rcases List.mem_append.mp hx with hx | hx
    · exact ht.known x hx
    · rw [List.mem_singleton.mp hx]
      exact hlt
  · intro j e he
    rw [hc, getElem?_set_of_some hk] at he
    split at he
    next hj =>
      cases he
      rw [hj, hown]
      exact hkeeps.accept ((hs.members _).mp hmember) hv
    next hj =>
      rw [hsame j hj]
      exact ht.keeps j e he
  · intro e he
    rw [hl] at he
    obtain ⟨j, f, hj, hf⟩ := ht.sent e he
    rw [hc]
    by_cases hjk : j = k
    · subst hjk
      cases hk.symm.trans hj
      refine ⟨j, _, getElem?_set_of_eq hk, ?_⟩
      rw [hown]
      exact (hf.accept hlater).mono ⟨rfl, rfl, rfl⟩ (Nat.le_refl _)
    · refine ⟨j, f, getElem?_set_of_ne hj (Ne.symm hjk), ?_⟩
      rw [hsame j hjk]
      exact hf

theorem Traced.effect (hn : 1 ≤ cfg.maxTicks) (hbound : cfg.maxTicks ≤ 178956970) (hr : (machine cfg).Reachable s)
    (ht : s.Traced cfg.maxTicks h) (he : Effect cfg s t) (hcalls : s.calls.length ≤ t.calls.length) :
    t.Traced cfg.maxTicks h := by
  have hsound := (reachable_inv hr).sound
  cases he with
  | stay | queue | call | rename => exact ht.congr rfl rfl
  | create hheld => exact ht.create _ _ rfl rfl
  | @start k c hk hfree hq now =>
      have hzero := (reachable_plays hn hr hk).fresh hq
      exact ht.move hk ((ht.keeps k c hk).startSession hzero now) ⟨rfl, rfl, rfl⟩ (Nat.le_refl _) rfl rfl
  | @tick k c hk hfree ha now =>
      have hopen := ((hsound k c hk).armed hfree ha).1
      have hd : c.disarm.ended = false := hopen
      have hticked : (c.disarm.handleTick cfg.maxTicks now).tickSent = c.tickSent + 1 := by
        simp only [handleTick, hd, Bool.false_eq_true, if_false]
        rfl
      exact ht.move hk ((ht.keeps k c hk).tick hopen now) (handleTick_shape _ _ _) (by omega) rfl rfl
  | disarm hk | schedule hk | save hk | skip hk | ensure hk | rate hk | release hk =>
      exact ht.still hk rfl rfl ⟨rfl, rfl, rfl⟩ rfl rfl rfl
  | send hk hs => exact ht.send hk hs rfl rfl
  | @finish k c hk hs now hr' =>
      have hopen := ((hsound k c hk).finish hr').2.1
      have hcount : c.tickSent = cfg.maxTicks := by
        have hclock := (reachable_plays hn hr hk).clock
        simpa only [Clock, hr'] using hclock
      have hd := (ht.keeps k c hk).finishSession (hsound k c hk) hcount hopen hbound now
      have hsent : (c.finishSession now).tickSent = c.tickSent := by
        rw [SessionContext.finishSession]
        split <;> rfl
      exact ht.move hk hd (finishSession_shape _ _) (Nat.le_of_eq hsent.symm) rfl rfl
  | @input n call c hn' hk hfree =>
      -- a handler of SubmitInput would have taken its call away
      have hlt := (List.getElem?_eq_some_iff.mp hn').1
      have hless := List.length_eraseIdx_of_lt hlt
      change s.calls.length ≤ (s.calls.eraseIdx n).length at hcalls
      omega

theorem traced_reachable (hn : 1 ≤ cfg.maxTicks) (hbound : cfg.maxTicks ≤ 178956970)
    (hr : (historyMachine cfg).Reachable (s, h)) : (machine cfg).Reachable s ∧ s.Traced cfg.maxTicks h := by
  refine hr.recorded_induction (P := fun s h => (machine cfg).Reachable s ∧ s.Traced cfg.maxTicks h)
    ⟨.init, traced_init⟩ ?_
  rintro s h a t ⟨hr, ht⟩ hs
  refine ⟨hr.step hs, ?_⟩
  rcases accepted_cases hs with ⟨k, c, input, ha, hk, hok, hc, hl⟩ | ⟨ha, ⟨hc, hl⟩ | ⟨he, hcalls⟩⟩
  · rw [ha]
    exact ht.accept hk ((reachable_inv hr).sound k c hk) hok hc hl
  · rw [ha, List.append_nil]
    exact ht.congr hc hl
  · rw [ha, List.append_nil]
    exact ht.effect hn hbound hr he hcalls

/-- What the players were told and what was stored is what the accepted inputs
amount to. -/
structure Authoritative (maxTicks : Nat) (s : Server) (h : InputHistory) : Prop where
  events : ∀ e ∈ s.log, ∃ (k : Nat) (c : SessionContext), s.contexts[k]? = some c ∧ c.Announces maxTicks (h.of k) e
  records : ∀ id record, s.records.lookup id = some record → ∃ (k : Nat) (c : SessionContext),
    s.contexts[k]? = some c ∧ c.id = id ∧ record.tickCount = maxTicks ∧
      (c.ledger maxTicks (h.of k)).Reads record.snapshot.players ∧
      (c.ledger maxTicks (h.of k)).Ahead record.winnerUserId

theorem Traced.records (hn : 1 ≤ cfg.maxTicks) (hbound : cfg.maxTicks ≤ 178956970) (hr : (machine cfg).Reachable s)
    (ht : s.Traced cfg.maxTicks h) {id : String} {record : MatchResultRecord} (hl : s.records.lookup id = some record) :
    ∃ (k : Nat) (c : SessionContext), s.contexts[k]? = some c ∧ c.id = id ∧ record.tickCount = cfg.maxTicks ∧
      (c.ledger cfg.maxTicks (h.of k)).Reads record.snapshot.players ∧
      (c.ledger cfg.maxTicks (h.of k)).Ahead record.winnerUserId := by
  obtain ⟨k, c, hk, hid, hended, -, p, q, now, hp, rfl⟩ := (reachable_resultInv hr).record id record hl
  have hplayed := (ht.keeps k c hk).played
  have hcount : c.tickSent = cfg.maxTicks := by
    have hclock := (reachable_plays hn hr hk).clock
    rw [Clock] at hclock
    split at hclock
    next => exact hclock
    next => rwa [if_pos hended] at hclock
  have htick : c.simulation.currentTick = c.tickSent := hplayed.represents.tick
  have hreads := hplayed.reads
  have hahead := hplayed.ahead ((reachable_inv hr).sound k c hk) (hcount ▸ hbound)
  rw [hcount] at htick hreads hahead
  exact ⟨k, c, hk, hid, htick, hreads, hahead⟩

theorem Traced.authoritative (hn : 1 ≤ cfg.maxTicks) (hbound : cfg.maxTicks ≤ 178956970)
    (hr : (machine cfg).Reachable s) (ht : s.Traced cfg.maxTicks h) : s.Authoritative cfg.maxTicks h :=
  ⟨ht.sent, fun _ _ => ht.records hn hbound hr⟩

/-- With a limit of 1 to 178956970 ticks the server plays what it accepts: every
event and every record shows the sum of the inputs accepted for the ticks up to
its own. -/
theorem history_authoritative (hn : 1 ≤ cfg.maxTicks) (hbound : cfg.maxTicks ≤ 178956970)
    (hr : (historyMachine cfg).Reachable (s, h)) : s.Authoritative cfg.maxTicks h := by
  obtain ⟨hs, ht⟩ := traced_reachable hn hbound hr
  exact ht.authoritative hn hbound hs

end Traced

def playInputs (inputs : List SessionInput) : List Action :=
  matchActions ⟨1, "kim"⟩ ⟨2, "lee"⟩ ++ startActions 0 ++
    inputs.flatMap (fun input => [.submitLookup input, .submitHandler 0]) ++
    .timer 0 true 0 :: List.replicate 9 (.proceed 0)

theorem history_authoritative_of_two : ∃ s h, (historyMachine (evenConfig 1)).run
    (playInputs [⟨"session-1", 1, 1, 1, 3⟩, ⟨"session-1", 1, 2, 1, 1⟩]) = some (s, h) ∧
      h.of 0 = [⟨1, 1, 3, 1⟩, ⟨1, 1, 1, 2⟩] ∧ (2, .state "session-1" 1 [⟨1, 4, 2⟩, ⟨2, 0, 0⟩] 0) ∈ s.log ∧
      s.Authoritative 1 h := by
  obtain ⟨⟨s, h⟩, hs, hr, hof, hin⟩ := Machine.exists_of_run (M := historyMachine (evenConfig 1))
    (playInputs [⟨"session-1", 1, 1, 1, 3⟩, ⟨"session-1", 1, 2, 1, 1⟩])
    (fun r => r.2.of 0 = [⟨1, 1, 3, 1⟩, ⟨1, 1, 1, 2⟩] ∧
      (2, .state "session-1" 1 [⟨1, 4, 2⟩, ⟨2, 0, 0⟩] 0) ∈ r.1.log) (by decide)
  exact ⟨s, h, hs, hof, hin, history_authoritative (by decide) (by decide) hr⟩

section Replay

variable {maxTicks : Nat} {s s' : Server} {h h' : InputHistory} {j k : Nat} {c d : SessionContext}

/-- The same players, and the same inputs accepted for the ticks up to t. -/
structure SameInputs (h h' : InputHistory) (j k : Nat) (c d : SessionContext) (t : Int) : Prop where
  users : ∀ u, u ∈ c.userIds ↔ u ∈ d.userIds
  inputs : ((h.of j).filter (·.targetTick ≤ t)).Perm ((h'.of k).filter (·.targetTick ≤ t))

theorem SameInputs.alike {t : Int} (hsame : SameInputs h h' j k c d t) :
    (c.ledger t (h.of j)).Alike (d.ledger t (h'.of k)) :=
  ⟨rfl, hsame.users, hsame.inputs⟩

theorem Authoritative.state (ha : s.Authoritative maxTicks h) (hi : s.Inv) (hj : s.contexts[j]? = some c) {u t : Int}
    {players : List PlayerView} {now : Int} (he : (u, .state c.id t players now) ∈ s.log) :
    (c.ledger t (h.of j)).Reads players := by
  obtain ⟨i, b, hb, hannounces⟩ := ha.events _ he
  obtain rfl := hi.id_inj hb hj hannounces.sessionId.symm
  cases hb.symm.trans hj
  exact hannounces.tells.2

theorem Authoritative.result (ha : s.Authoritative maxTicks h) (hi : s.Inv) (hj : s.contexts[j]? = some c)
    {record : MatchResultRecord} (hl : s.records.lookup c.id = some record) :
    (c.ledger maxTicks (h.of j)).Reads record.snapshot.players ∧
      (c.ledger maxTicks (h.of j)).Ahead record.winnerUserId := by
  obtain ⟨i, b, hb, hid, -, hreads, hahead⟩ := ha.records _ _ hl
  obtain rfl := hi.id_inj hb hj hid
  cases hb.symm.trans hj
  exact ⟨hreads, hahead⟩

/-- In any two runs with a limit of 1 to 178956970 ticks, sessions of the same
players that accept the same inputs for the ticks up to t, whenever these come,
are told the same state at t. So they have the same result when it is the last
tick. -/
theorem replay_deterministic (hn : 1 ≤ cfg.maxTicks) (hbound : cfg.maxTicks ≤ 178956970)
    (hr : (historyMachine cfg).Reachable (s, h)) (hr' : (historyMachine cfg).Reachable (s', h'))
    (hj : s.contexts[j]? = some c) (hk : s'.contexts[k]? = some d) {t : Int}
    (hsame : SameInputs h h' j k c d t) :
    (∀ u v players others now later, (u, .state c.id t players now) ∈ s.log →
      (v, .state d.id t others later) ∈ s'.log → players = others) ∧
    ∀ record other, s.records.lookup c.id = some record → s'.records.lookup d.id = some other → t = cfg.maxTicks →
      record.snapshot.players = other.snapshot.players ∧ record.winnerUserId = other.winnerUserId := by
  obtain ⟨hs, ht⟩ := traced_reachable hn hbound hr
  obtain ⟨hs', ht'⟩ := traced_reachable hn hbound hr'
  have ha := ht.authoritative hn hbound hs
  have ha' := ht'.authoritative hn hbound hs'
  constructor
  · intro u v players others now later he he'
    exact (ha.state (reachable_inv hs) hj he).unique (ha'.state (reachable_inv hs') hk he') hsame.alike
  · rintro record other hl hl' rfl
    obtain ⟨hreads, hahead⟩ := ha.result (reachable_inv hs) hj hl
    obtain ⟨hreads', hahead'⟩ := ha'.result (reachable_inv hs') hk hl'
    exact ⟨hreads.unique hreads' hsame.alike, hahead.unique hahead' hsame.alike⟩

theorem replay_deterministic_of_two : ∃ s h s' h', ∃ record other : MatchResultRecord,
    (historyMachine (evenConfig 1)).Reachable (s, h) ∧ (historyMachine (evenConfig 1)).Reachable (s', h') ∧
      h = [(0, ⟨1, 1, 3, 1⟩), (0, ⟨2, 1, 2, 1⟩)] ∧ h' = [(0, ⟨2, 1, 2, 1⟩), (0, ⟨1, 1, 3, 1⟩)] ∧
      s.records.lookup "session-1" = some record ∧ s'.records.lookup "session-1" = some other ∧
      record.snapshot.players = other.snapshot.players ∧ record.winnerUserId = other.winnerUserId := by
  obtain ⟨⟨s, h⟩, -, hr, hh, c, hc, hid, husers, hrecord⟩ :=
    Machine.exists_of_run (M := historyMachine (evenConfig 1))
      (playInputs [⟨"session-1", 1, 1, 1, 3⟩, ⟨"session-1", 2, 1, 1, 2⟩])
      (fun r => r.2 = [(0, ⟨1, 1, 3, 1⟩), (0, ⟨2, 1, 2, 1⟩)] ∧ ∃ c ∈ r.1.contexts[0]?,
        (c : SessionContext).id = "session-1" ∧ c.userIds = [1, 2] ∧ (r.1.records.lookup "session-1").isSome = true)
      (by decide)
  obtain ⟨⟨s', h'⟩, -, hr', hh', d, hd, hid', husers', hother⟩ :=
    Machine.exists_of_run (M := historyMachine (evenConfig 1))
      (playInputs [⟨"session-1", 2, 1, 1, 2⟩, ⟨"session-1", 1, 1, 1, 3⟩])
      (fun r => r.2 = [(0, ⟨2, 1, 2, 1⟩), (0, ⟨1, 1, 3, 1⟩)] ∧ ∃ c ∈ r.1.contexts[0]?,
        (c : SessionContext).id = "session-1" ∧ c.userIds = [1, 2] ∧ (r.1.records.lookup "session-1").isSome = true)
      (by decide)
  obtain ⟨record, hl⟩ := Option.isSome_iff_exists.mp hrecord
  obtain ⟨other, hl'⟩ := Option.isSome_iff_exists.mp hother
  have hsame : SameInputs h h' 0 0 c d 1 := by
    refine ⟨by simp [husers, husers'], ?_⟩
    rw [show h = _ from hh, show h' = _ from hh']
    decide
  have hresult := (replay_deterministic (by decide) (by decide) hr hr' hc hd hsame).2 record other
  rw [hid, hid'] at hresult
  exact ⟨s, h, s', h', record, other, hr, hr', hh, hh', hl, hl', hresult hl hl' rfl⟩

end Replay

end Server

end GameServer
