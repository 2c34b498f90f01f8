import GameServer.ServerInvariant

namespace GameServer.Server

variable {D : Type} {cfg : Config D}

/-- The queue, its index and the two maps of the session manager agree. -/
structure Consistent (s : Server) : Prop where
  distinct : s.queue.userIds.Nodup
  entries : (s.queue.queue.map (·.addr)).Nodup
  indexed : ∀ u addr, s.queue.userIndex.lookup u = some addr ↔
    ∃ node ∈ s.queue.queue, node.userId = u ∧ node.addr = addr
  member : ∀ u id, s.userToSession.lookup u = some id ↔
    ∃ (k : Nat) (ctx : SessionContext),
      s.sessions.lookup id = some k ∧ s.contexts[k]? = some ctx ∧ u ∈ ctx.userIds
  one : ∀ u id id', ∀ (k k' : Nat) (ctx ctx' : SessionContext),
    s.sessions.lookup id = some k → s.contexts[k]? = some ctx → u ∈ ctx.userIds →
    s.sessions.lookup id' = some k' → s.contexts[k']? = some ctx' → u ∈ ctx'.userIds → id = id'
  pair : ∀ id (k : Nat), s.sessions.lookup id = some k →
    ∃ (ctx : SessionContext) (first second : SessionParticipant), s.contexts[k]? = some ctx ∧ ctx.id = id ∧
      ctx.participants = [first, second] ∧ first.userId ≠ second.userId
  apart : ∀ u ∈ s.queue.userIds, ∀ id (k : Nat) (ctx : SessionContext),
    s.sessions.lookup id = some k → s.contexts[k]? = some ctx → u ∉ ctx.userIds

theorem Inv.member {s : Server} (h : s.Inv) (u : Int) (id : String) :
    s.userToSession.lookup u = some id ↔ ∃ (k : Nat) (ctx : SessionContext),
      s.sessions.lookup id = some k ∧ s.contexts[k]? = some ctx ∧ u ∈ ctx.userIds := by
  rw [h.owner]
  constructor
  · rintro ⟨k, ctx, hk, hid, hf, hu⟩
    exact ⟨k, ctx, (h.active id k).mpr ⟨ctx, hk, hid, hf⟩, hk, hu⟩
  · rintro ⟨k, ctx, hs, hk, hu⟩
    obtain ⟨other, ho, hid, hf⟩ := (h.active id k).mp hs
    rw [hk] at ho
    cases ho
    exact ⟨k, ctx, hk, hid, hf, hu⟩

theorem Inv.consistent {s : Server} (h : s.Inv) : s.Consistent where
  distinct := h.indexed.distinct
  entries := h.indexed.addrs
  indexed := h.indexed.index
  member := h.member
  one := by
    intro u id id' k k' ctx ctx' hs hk hu hs' hk' hu'
    have hm := (h.member u id).mpr ⟨k, ctx, hs, hk, hu⟩
    have hm' := (h.member u id').mpr ⟨k', ctx', hs', hk', hu'⟩
    rw [hm] at hm'
    exact Option.some.inj hm'
  pair := by
    intro id k hs
    obtain ⟨ctx, hk, hid, -⟩ := (h.active id k).mp hs
    obtain ⟨first, second, hp, hne⟩ := (h.sound k ctx hk).pair
    exact ⟨ctx, first, second, hk, hid, hp, hne⟩
  apart := by
    intro u hq id k ctx hs hk hu
    have hm := (h.member u id).mpr ⟨k, ctx, hs, hk, hu⟩
    rw [h.apart u (Or.inl hq)] at hm
    cases hm

/-- The containers agree after every step, so whenever the mutex of the queue
is free and also while a call holds it. -/
theorem consistent_of_reachable {s : Server} (h : (machine cfg).Reachable s) : s.Consistent :=
  (reachable_inv h).consistent

def evenConfig (maxTicks : Nat) : Config Int where
  maxTicks := maxTicks
  elo := Elo.even

def matchActions (first second : AuthUser) : List Action :=
  [.joinCheck first 10, .joinPush 0, .joinCheck second 10, .joinPush 0, .queueTick 0, .pair, .createSession, .pair]

def startActions (k : Nat) : List Action := .startSession k 0 :: List.replicate 5 (.proceed k)

def playActions (first second : AuthUser) : List Action :=
  matchActions first second ++ startActions 0 ++ [.timer 0 true 0] ++ List.replicate 12 (.proceed 0)

theorem addSeconds_ten : Clock.addSeconds 0 10 = 10000000000 := by decide

theorem run_match (cfg : Config D) {first second : AuthUser} (h : first.userId ≠ second.userId) :
    ∃ s, (machine cfg).run (matchActions first second) = some s ∧
      s.contexts = [({} : Server).newContext cfg (pairParticipants first second)] ∧
      s.userToSession.lookup first.userId = some (sessionId 1) ∧ s.sessions.lookup (sessionId 1) = some 0 := by
  simp only [Machine.run, machine, matchActions, Machine.runFrom, step, ↓reduceIte, joinCheck, joinRefused,
    AList.notMem_empty, decide_false, isUserInSession, Bool.or_self, Bool.false_eq_true, MatchQueue.push,
    Bool.or_eq_true, decide_eq_true_eq, MatchQueue.handleTimeouts, MatchQueue.popPair, QueueNode.userId, createSession,
    List.foldl_cons, List.foldl_nil, Option.bind_fun_some, Option.bind_some, Int.reduceLE, addSeconds_ten,
    List.nil_append, zero_add, AList.mem_insert, Ne.symm h, or_self, List.cons_append, Nat.reduceAdd, and_self,
    MatchQueue.sweep, gt_iff_lt, Int.reduceLT, List.append_nil, List.length_nil, Option.some.injEq, exists_eq_left',
    List.cons.injEq, and_true, ne_eq, h, not_false_eq_true, AList.lookup_insert_ne]
  exact ⟨rfl, AList.lookup_insert _, AList.lookup_insert _⟩

theorem consistent_of_match : ∃ s, (machine (evenConfig 1)).run
    (matchActions ⟨1, "kim"⟩ ⟨2, "lee"⟩ ++ [.joinCheck ⟨3, "han"⟩ 0, .joinPush 0]) = some s ∧
      (s.queue.userIds = [3] ∧ s.userToSession.lookup 1 = some "session-1") ∧ s.Consistent := by
  obtain ⟨s, hs, hr, hp⟩ := Machine.exists_of_run (M := machine (evenConfig 1))
    (matchActions ⟨1, "kim"⟩ ⟨2, "lee"⟩ ++ [.joinCheck ⟨3, "han"⟩ 0, .joinPush 0])
    (fun s => s.queue.userIds = [3] ∧ s.userToSession.lookup 1 = some "session-1") (by decide)
  exact ⟨s, hs, hp, consistent_of_reachable hr⟩

end GameServer.Server
