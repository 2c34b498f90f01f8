import GameServer.Blocks
import GameServer.Server

namespace GameServer

def Action.onQueue : Action → Bool
  | .joinCheck _ _ | .joinPush _ | .cancel _ | .queueTick _ | .pair | .createSession => true
  | _ => false

namespace Server

variable {D : Type}

/-- What a step of the match queue leaves behind. -/
inductive QueueStep (cfg : Config D) (s : Server) : MatchQueue → Prop
  | check {user : AuthUser} {timeout : Int} (hfree : s.queue.holder = .free)
      (hok : s.joinRefused user.userId = false) : QueueStep cfg s { s.queue with holder := .joining user timeout }
  | push {user : AuthUser} {timeout : Int} (hheld : s.queue.holder = .joining user timeout) (now : Int) :
      QueueStep cfg s { s.queue.push cfg.defaultTimeout user timeout now with holder := .free }
  | cancel {userId : Int} {queue : MatchQueue} (hfree : s.queue.holder = .free)
      (hc : s.queue.cancel userId = some queue) : QueueStep cfg s queue
  | sweep (hfree : s.queue.holder = .free) (now : Int) :
      QueueStep cfg s { (s.queue.handleTimeouts now).1 with holder := .pairing }
  | pop {queue : MatchQueue} {first second : AuthUser} (hheld : s.queue.holder = .pairing)
      (hp : s.queue.popPair = some (queue, first, second)) :
      QueueStep cfg s { queue with holder := .creating first second }
  | leave (hheld : s.queue.holder = .pairing) : QueueStep cfg s { s.queue with holder := .free }

def pairParticipants (first second : AuthUser) : List SessionParticipant :=
  [⟨first.userId, first.username⟩, ⟨second.userId, second.username⟩]

/-- Everything a step can do, with what it found. -/
inductive Effect (cfg : Config D) (s : Server) : Server → Prop
  | stay : Effect cfg s s
  | queue {queue : MatchQueue} (h : QueueStep cfg s queue) (uids : List Int) :
      Effect cfg s { s with queue := queue, timeoutErrors := uids }
  | create {first second : AuthUser} (hheld : s.queue.holder = .creating first second) :
      Effect cfg s { s.createSession cfg (pairParticipants first second) with
        queue := { s.queue with holder := .pairing } }
  | start {k : Nat} {ctx : SessionContext} (hk : s.contexts[k]? = some ctx) (hfree : ctx.strand.Free)
      (hq : ctx.strand.startQueued = true) (now : Int) : Effect cfg s (s.setContext k (ctx.startSession now))
  | tick {k : Nat} {ctx : SessionContext} (hk : s.contexts[k]? = some ctx) (hfree : ctx.strand.Free)
      (ha : ctx.strand.timerArmed = true) (now : Int) :
      Effect cfg s (s.setContext k (ctx.disarm.handleTick cfg.maxTicks now))
  | disarm {k : Nat} {ctx : SessionContext} (hk : s.contexts[k]? = some ctx) (hfree : ctx.strand.Free)
      (ha : ctx.strand.timerArmed = true) : Effect cfg s (s.setContext k ctx.disarm)
  | send {k : Nat} {ctx : SessionContext} (hk : s.contexts[k]? = some ctx) {e : Int × SessionEvent}
      {es : List (Int × SessionEvent)} (hs : ctx.strand.sends = e :: es) :
      Effect cfg s { s.setContext k ctx.sent with log := s.log ++ [e] }
  | schedule {k : Nat} {ctx : SessionContext} (hk : s.contexts[k]? = some ctx) (hs : ctx.strand.sends = [])
      (hr : ctx.strand.resume = .scheduleTick) : Effect cfg s (s.setContext k ctx.scheduleTick)
  | finish {k : Nat} {ctx : SessionContext} (hk : s.contexts[k]? = some ctx) (hs : ctx.strand.sends = [])
      {now : Int} (hr : ctx.strand.resume = .finishSession now) :
      Effect cfg s (s.setContext k (ctx.finishSession now))
  | save {k : Nat} {ctx : SessionContext} (hk : s.contexts[k]? = some ctx) (hs : ctx.strand.sends = [])
      {record : MatchResultRecord} (hr : ctx.strand.resume = .finalizeResult record)
      (hnew : record.sessionId ∉ s.records) :
      Effect cfg s { s.setContext k (ctx.resumeAt (.ensureUsers record (usersToEnsure record ctx.participants))) with
        records := s.records.insert record.sessionId record }
  | skip {k : Nat} {ctx : SessionContext} (hk : s.contexts[k]? = some ctx) (hs : ctx.strand.sends = [])
      {record : MatchResultRecord} (hr : ctx.strand.resume = .finalizeResult record)
      (hold : record.sessionId ∈ s.records) : Effect cfg s (s.setContext k (ctx.resumeAt .release))
  | ensure {k : Nat} {ctx : SessionContext} (hk : s.contexts[k]? = some ctx) (hs : ctx.strand.sends = [])
      {record : MatchResultRecord} {user : Int × String} {todo : List (Int × String)}
      (hr : ctx.strand.resume = .ensureUsers record (user :: todo)) :
      Effect cfg s { s.setContext k (ctx.resumeAt (.ensureUsers record todo)) with
        ratings := s.ratings.ensureUser user.1 user.2 }
  | rate {k : Nat} {ctx : SessionContext} (hk : s.contexts[k]? = some ctx) (hs : ctx.strand.sends = [])
      {record : MatchResultRecord} (hr : ctx.strand.resume = .ensureUsers record []) :
      Effect cfg s { s.setContext k (ctx.resumeAt .release) with
        ratings := (s.ratings.applyMatchResult cfg.elo record.winnerUserId record.loserId).1 }
  | release {k : Nat} {ctx : SessionContext} (hk : s.contexts[k]? = some ctx) (hs : ctx.strand.sends = [])
      (hr : ctx.strand.resume = .release) : Effect cfg s (s.release k ctx)
  | call {input : SessionInput} {k : Nat} (hl : s.lookupSession input = .ok k) :
      Effect cfg s { s with calls := s.calls ++ [(input, k)] }
  | input {n : Nat} {call : SessionInput × Nat} {ctx : SessionContext} (hn : s.calls[n]? = some call)
      (hk : s.contexts[call.2]? = some ctx) (hfree : ctx.strand.Free) :
      Effect cfg s { s.setContext call.2 (ctx.handleInput call.1).1 with calls := s.calls.eraseIdx n }
  | rename (userId : Int) (username : String) :
      Effect cfg s { s with ratings := s.ratings.ensureUser userId username }

theorem effect_of_proceed {cfg : Config D} {s t : Server} {k : Nat} {ctx : SessionContext}
    (hk : s.contexts[k]? = some ctx) (h : s.proceed cfg k ctx = some t) : Effect cfg s t := by
  rw [proceed] at h
  split at h
  next e es hs =>
    cases h
    exact .send hk hs
  next hs =>
    split at h
    next => cases h
    next hr =>
      cases h
      exact .schedule hk hs hr
    next hr =>
      cases h
      exact .finish hk hs hr
    next record hr =>
      by_cases hin : record.sessionId ∈ s.records
      · simp only [ResultRepository.saveIfAbsent_old hin, Bool.false_eq_true, if_false, Option.some.injEq] at h
        subst h
        exact .skip hk hs hr hin
      · simp only [ResultRepository.saveIfAbsent_new hin, if_true, Option.some.injEq] at h
        subst h
        exact .save hk hs hr hin
    next hr =>
      cases h
      exact .ensure hk hs hr
    next hr =>
      cases h
      exact .rate hk hs hr
    next hr =>
      cases h
      exact .release hk hs hr

theorem proceed_contexts {cfg : Config D} {s t : Server} {k : Nat} {ctx : SessionContext}
    (h : s.proceed cfg k ctx = some t) : ∃ ctx', t.contexts = s.contexts.set k ctx' := by
  rw [proceed] at h
  split at h
  next => cases h; exact ⟨_, rfl⟩
  next => split at h <;> cases h <;> exact ⟨_, rfl⟩

/-- The inversion lemma of the machine. -/
theorem effect_of_step {cfg : Config D} {s t : Server} {a : Action} (h : s.step cfg a = some t) :
    Effect cfg s t := by
  cases a with
  | joinCheck user timeout =>
      simp only [step] at h
      split at h
      next hfree =>
        by_cases hr : s.joinRefused user.userId = true
        · simp only [joinCheck, hr, if_true, Option.some.injEq] at h
          exact h ▸ .stay
        · simp only [joinCheck, hr, Bool.false_eq_true, if_false, Option.some.injEq] at h
          subst h
          exact .queue (.check hfree (by simpa using hr)) _
      next => cases h
  | joinPush now =>
      simp only [step] at h
      split at h
      next hheld =>
        cases h
        exact .queue (.push hheld now) _
      next => cases h
  | cancel userId =>
      simp only [step] at h
      split at h
      next hfree =>
        split at h
        next hc =>
          cases h
          exact .queue (.cancel hfree hc) _
        next => cases h; exact .stay
      next => cases h
  | queueTick now =>
      simp only [step] at h
      split at h
      next hfree =>
        cases h
        exact .queue (.sweep hfree.1 now) _
      next => cases h
  | pair =>
      simp only [step] at h
      split at h
      next hheld =>
        split at h
        next hp =>
          cases h
          exact .queue (.pop hheld hp) _
        next =>
          cases h
          exact .queue (.leave hheld) _
      next => cases h
  | createSession =>
      simp only [step] at h
      split at h
      next hheld =>
        cases h
        exact .create hheld
      next => cases h
  | startSession k now =>
      obtain ⟨ctx, hk, h⟩ := Option.bind_eq_some_iff.mp h
      split at h
      next hg =>
        cases h
        exact .start hk hg.1 hg.2 now
      next => cases h
  | timer k ok now =>
      obtain ⟨ctx, hk, h⟩ := Option.bind_eq_some_iff.mp h
      split at h
      next hg =>
        cases h
        cases ok with
        | true => exact .tick hk hg.1 hg.2 now
        | false => exact .disarm hk hg.1 hg.2
      next => cases h
  | proceed k =>
      obtain ⟨ctx, hk, h⟩ := Option.bind_eq_some_iff.mp h
      exact effect_of_proceed hk h
  | submitLookup input =>
      simp only [step] at h
      split at h
      next hl =>
        cases h
        exact .call hl
      next => cases h; exact .stay
  | submitHandler n =>
      obtain ⟨call, hn, h⟩ := Option.bind_eq_some_iff.mp h
      obtain ⟨ctx, hk, h⟩ := Option.bind_eq_some_iff.mp h
      split at h
      next hfree =>
        cases h
        exact .input hn hk hfree
      next => cases h
  | ensureUser userId username =>
      cases h
      exact .rename userId username

inductive Turn (cfg : Config D) (s t : Server) (k : Nat) (ctx : SessionContext) : Action → Prop
  | start (hfree : ctx.strand.Free) (now : Int) (ht : t.contexts = s.contexts.set k (ctx.startSession now)) :
      Turn cfg s t k ctx (.startSession k now)
  | timer (hfree : ctx.strand.Free) (ok : Bool) (now : Int)
      (ht : t.contexts = s.contexts.set k (if ok then ctx.disarm.handleTick cfg.maxTicks now else ctx.disarm)) :
      Turn cfg s t k ctx (.timer k ok now)
  | proceed (hp : s.proceed cfg k ctx = some t) : Turn cfg s t k ctx (.proceed k)
  | input (hfree : ctx.strand.Free) {n : Nat} {input : SessionInput} (hn : s.calls[n]? = some (input, k))
      (ht : t.contexts = s.contexts.set k (ctx.handleInput input).1) : Turn cfg s t k ctx (.submitHandler n)

theorem Turn.contexts {cfg : Config D} {s t : Server} {k : Nat} {ctx : SessionContext} {a : Action}
    (h : Turn cfg s t k ctx a) : ∃ ctx', t.contexts = s.contexts.set k ctx' := by
  cases h with
  | start _ _ ht | timer _ _ _ ht | input _ _ ht => exact ⟨_, ht⟩
  | proceed hp => exact proceed_contexts hp

theorem proceed_queue {cfg : Config D} {s t : Server} {k : Nat} {ctx : SessionContext}
    (h : s.proceed cfg k ctx = some t) : t.queue = s.queue ∧ t.timeoutErrors = s.timeoutErrors := by
  rw [proceed] at h
  split at h
  next => cases h; exact ⟨rfl, rfl⟩
  next => split at h <;> cases h <;> exact ⟨rfl, rfl⟩

theorem frame_of_step {cfg : Config D} {s t : Server} {a : Action} (h : s.step cfg a = some t) :
    (a.onQueue = true ∧ ∃ new, t.contexts = s.contexts ++ new) ∨
      (a.onQueue = false ∧ t.queue = s.queue ∧ t.timeoutErrors = s.timeoutErrors ∧
        (t.contexts = s.contexts ∨
          ∃ (k : Nat) (ctx : SessionContext), s.contexts[k]? = some ctx ∧ Turn cfg s t k ctx a)) := by
  cases a with
  | joinCheck user timeout =>
      refine Or.inl ⟨rfl, [], ?_⟩
      simp only [step, joinCheck] at h
      split at h
      next =>
        by_cases hr : s.joinRefused user.userId = true
        · simp only [hr, if_true, Option.some.injEq] at h
          rw [← h, List.append_nil]
        · simp only [hr, Bool.false_eq_true, if_false, Option.some.injEq] at h
          rw [← h, List.append_nil]
      next => cases h
  | joinPush now | queueTick now =>
      refine Or.inl ⟨rfl, [], ?_⟩
      simp only [step] at h
      split at h <;> cases h
      exact (List.append_nil _).symm
  | cancel userId =>
      refine Or.inl ⟨rfl, [], ?_⟩
      simp only [step] at h
      split at h
      next => split at h <;> cases h <;> exact (List.append_nil _).symm
      next => cases h
  | pair =>
      refine Or.inl ⟨rfl, [], ?_⟩
      simp only [step] at h
      split at h
      next => split at h <;> cases h <;> exact (List.append_nil _).symm
      next => cases h
  | createSession =>
      simp only [step] at h
      split at h <;> cases h
      exact Or.inl ⟨rfl, _, rfl⟩
  | startSession k now =>
      obtain ⟨ctx, hk, h⟩ := Option.bind_eq_some_iff.mp h
      split at h
      next hg =>
        cases h
        exact Or.inr ⟨rfl, rfl, rfl, Or.inr ⟨k, ctx, hk, .start hg.1 now rfl⟩⟩
      next => cases h
  | timer k ok now =>
      obtain ⟨ctx, hk, h⟩ := Option.bind_eq_some_iff.mp h
      split at h
      next hg =>
        cases h
        exact Or.inr ⟨rfl, rfl, rfl, Or.inr ⟨k, ctx, hk, .timer hg.1 ok now rfl⟩⟩
      next => cases h
  | proceed k =>
      obtain ⟨ctx, hk, h⟩ := Option.bind_eq_some_iff.mp h
      obtain ⟨hqueue, herrors⟩ := proceed_queue h
      exact Or.inr ⟨rfl, hqueue, herrors, Or.inr ⟨k, ctx, hk, .proceed h⟩⟩
  | submitLookup input =>
      simp only [step] at h
      split at h <;> cases h <;> exact Or.inr ⟨rfl, rfl, rfl, Or.inl rfl⟩
  | submitHandler n =>
      obtain ⟨call, hn, h⟩ := Option.bind_eq_some_iff.mp h
      obtain ⟨ctx, hk, h⟩ := Option.bind_eq_some_iff.mp h
      split at h
      next hfree =>
        cases h
        exact Or.inr ⟨rfl, rfl, rfl, Or.inr ⟨call.2, ctx, hk, .input hfree hn rfl⟩⟩
      next => cases h
  | ensureUser userId username =>
      cases h
      exact Or.inr ⟨rfl, rfl, rfl, Or.inl rfl⟩

/-- While a handler runs on a strand, nothing but its next section touches
the context. -/
theorem step_busy {cfg : Config D} {s t : Server} {a : Action} (h : s.step cfg a = some t) {k : Nat}
    {c : SessionContext} (hk : s.contexts[k]? = some c) (hbusy : ¬ c.strand.Free) (ha : a ≠ .proceed k) :
    t.contexts[k]? = some c := by
  rcases frame_of_step h with ⟨-, new, hnew⟩ | ⟨-, -, -, hsame | ⟨j, ctx, hj, hturn⟩⟩
  · rw [hnew, List.getElem?_append_left (List.getElem?_eq_some_iff.mp hk).1]
    exact hk
  · rw [hsame]
    exact hk
  · have hne : j ≠ k := by
      rintro rfl
      rw [hk] at hj
      cases hj
      cases hturn with
      | start hfree | timer hfree | input hfree => exact hbusy hfree
      | proceed => exact ha rfl
    obtain ⟨ctx', hset⟩ := hturn.contexts
    rw [hset]
    exact getElem?_set_of_ne hk hne

end Server

end GameServer
