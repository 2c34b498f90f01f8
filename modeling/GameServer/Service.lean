import GameServer.Gateway
import GameServer.History
import GameServer.ServerUsers

namespace GameServer

open AuthHistory

def RatingService.getSummary (entries : RatingService) (userId : Int) : Option RatingSummary :=
  (entries.lookup userId).map fun entry => RatingService.summary (userId, entry)

def HttpCall.gameAction : HttpCall → Option Action
  | .join user timeout => some (.joinCheck user timeout)
  | .cancel userId => some (.cancel userId)
  | .ensureUser userId username => some (.ensureUser userId username)
  | _ => none

def Action.internal : Action → Bool
  | .queueTick _ | .pair | .createSession | .startSession .. | .timer .. | .proceed _ | .submitHandler _ => true
  | .joinCheck .. | .joinPush _ | .cancel _ | .submitLookup _ | .ensureUser .. => false

def HttpTask.accepted (task : HttpTask) : Option AuthSession :=
  task.calls.findSome? fun call =>
    match call.1 with
    | .accept session => some session
    | _ => none

theorem HttpTask.accept_of_accepted {task : HttpTask} {session : AuthSession} (h : task.accepted = some session) :
    ∃ answer, ⟨.accept session, answer⟩ ∈ task.calls := by
  obtain ⟨⟨op, answer⟩, hmem, hcall⟩ := List.exists_of_findSome?_eq_some h
  dsimp only at hcall
  split at hcall
  next =>
    cases hcall
    exact ⟨answer, hmem⟩
  next => cases hcall

theorem HttpTask.accepted_append {task next : HttpTask} {session : AuthSession} {call : Sigma HttpCall.Answer}
    (h : task.accepted = some session) (hcalls : next.calls = task.calls ++ [call]) :
    next.accepted = some session := by
  rw [accepted] at h ⊢
  rw [hcalls, List.findSome?_append, h]
  rfl

/-- The requests over one AuthService, and the game that they and the frames of
their connections are for. -/
structure Service where
  gateway : Gateway
  game : Server × InputHistory := ({}, [])
  /-- The request whose Join holds the queue. -/
  joining : Option Nat := none

namespace Service

inductive Action
  | arrive (session : HttpSession)
  /-- The next call of a request; of Join it is the first section. -/
  | call (k : Nat) (draw : Draw) (answer : (op : HttpCall) → op.Answer)
  /-- The second section of Join. -/
  | joined (now : Int)
  /-- A session.input frame on the connection that a request has become. -/
  | frame (k : Nat) (input : SessionInput)
  | internal (a : GameServer.Action)

def answered (s : Service) (answer : (op : HttpCall) → op.Answer) : (op : HttpCall) → op.Answer
  | .join user timeout => (s.game.1.joinCheck user timeout).map fun _ => ()
  | .cancel userId =>
    match s.game.1.queue.cancel userId with
    | none => .error ⟨"queue_not_found", "대기열에 존재하지 않습니다"⟩
    | some _ => .ok ()
  | .getSummary userId => s.game.1.ratings.getSummary userId
  | .getLeaderboard page size => s.game.1.ratings.getLeaderboard page size
  | .activeSessionCount => UInt64.ofNat s.game.1.sessions.keys.length
  | .queueLength => UInt64.ofNat s.game.1.queue.queue.length
  | op => answer op

def joinAnswer (s : Service) : (op : HttpCall) → op.Answer
  | .join .. => .ok ()
  | op => s.answered HttpCall.refusal op

variable {D : Type} (kdf : Pbkdf2) (config : AuthConfig) (parse : Bytes → Option Json) (cfg : Config D)

def perform (s : Service) (op : HttpCall) : Option (Server × InputHistory) :=
  match op.gameAction with
  | none => some s.game
  | some a => (Server.historyMachine cfg).step s.game a

def goesOn (s : Service) : HttpCall → Bool
  | .join user _ => !s.game.1.joinRefused user.userId
  | _ => false

def step (s : Service) : Action → Option Service
  | .arrive session => (Gateway.step kdf config parse s.gateway (.arrive session)).map fun g => { s with gateway := g }
  | .call k draw answer =>
    if s.joining = some k then none
    else do
      let task ← s.gateway.http.tasks[k]?
      let op ← task.nextCall
      let game ← s.perform cfg op
      if s.goesOn op then pure { s with game, joining := some k }
      else do
        let gateway ← Gateway.step kdf config parse s.gateway (.call k draw (s.answered answer))
        pure { s with gateway, game }
  | .joined now => do
    let k ← s.joining
    let game ← (Server.historyMachine cfg).step s.game (.joinPush now)
    let gateway ← Gateway.step kdf config parse s.gateway (.call k {} s.joinAnswer)
    pure ⟨gateway, game, none⟩
  | .frame k input => do
    let task ← s.gateway.http.tasks[k]?
    let session ← task.accepted
    let game ← (Server.historyMachine cfg).step s.game (.submitLookup { input with userId := session.user.userId })
    pure { s with game }
  | .internal a =>
    if a.internal then ((Server.historyMachine cfg).step s.game a).map fun game => { s with game } else none

def machine : Machine Service Action where
  init := { gateway := (Gateway.machine kdf config parse).init }
  step := step kdf config parse cfg

variable {kdf : Pbkdf2} {config : AuthConfig} {parse : Bytes → Option Json} {cfg : Config D} {s t : Service}

/-- Where the step of the game comes from. -/
def Origin (s : Service) : GameServer.Action → Prop
  | .joinCheck user timeout => ∃ task ∈ s.gateway.http.tasks, task.nextCall = some (.join user timeout)
  | .ensureUser userId username => ∃ task ∈ s.gateway.http.tasks, task.nextCall = some (.ensureUser userId username)
  | .submitLookup input => ∃ task ∈ s.gateway.http.tasks, ∃ session, task.accepted = some session ∧
      session.user.userId = input.userId
  | _ => True

theorem origin_of_internal {a : GameServer.Action} (h : a.internal = true) : s.Origin a := by
  cases a with
  | joinCheck | submitLookup | ensureUser => cases h
  | _ => trivial

theorem origin_of_call {task : HttpTask} (htask : task ∈ s.gateway.http.tasks) {op : HttpCall}
    (hop : task.nextCall = some op) {a : GameServer.Action} (ha : op.gameAction = some a) : s.Origin a := by
  cases op with
  | join | ensureUser =>
      cases ha
      exact ⟨task, htask, hop⟩
  | cancel =>
      cases ha
      trivial
  | _ => cases ha

def summaries : Sigma HttpCall.Answer → List RatingSummary
  | ⟨.getSummary _, summary⟩ => summary.toList
  | ⟨.getLeaderboard .., page⟩ => page.entries
  | _ => []

theorem summaries_getSummary {entries : RatingService} {userId : Int} {summary : RatingSummary}
    (h : summary ∈ entries.getSummary userId) :
    ∃ entry, entries.lookup summary.userId = some entry ∧ entry.username = summary.username := by
  obtain ⟨entry, hentry, rfl⟩ := Option.map_eq_some_iff.mp h
  exact ⟨entry, hentry, rfl⟩

theorem summaries_getLeaderboard {entries : RatingService} {page size : UInt64} {summary : RatingSummary}
    (h : summary ∈ (entries.getLeaderboard page size).entries) :
    ∃ entry, entries.lookup summary.userId = some entry ∧ entry.username = summary.username := by
  simp only [RatingService.getLeaderboard] at h
  split at h
  next =>
    obtain ⟨item, hitem, rfl⟩ := List.mem_map.mp h
    have hmem : item ∈ entries.items :=
      entries.sortedItems_perm.mem_iff.mp (List.mem_of_mem_drop (List.mem_of_mem_take hitem))
    obtain ⟨e, he, rfl⟩ := List.mem_map.mp hmem
    exact ⟨e.2, AList.mem_lookup_iff.mpr he, rfl⟩
  next => cases h

theorem summaries_answered {answer : (op : HttpCall) → op.Answer} (g : Gateway) (draw : Draw) (op : HttpCall)
    {summary : RatingSummary}
    (h : summary ∈ summaries ⟨op, g.http.answered (g.answered kdf draw answer) op⟩) :
    summary ∈ summaries ⟨op, answer op⟩ := by
  cases op with
  | getSummary | getLeaderboard => exact h
  | _ => cases h

def Answers (s : Service) (answer : (op : HttpCall) → op.Answer) : Prop :=
  (∃ other, answer = s.answered other) ∨ answer = s.joinAnswer

theorem Answers.summaries {answer : (op : HttpCall) → op.Answer} (ha : s.Answers answer) {op : HttpCall}
    {summary : RatingSummary} (h : summary ∈ summaries ⟨op, answer op⟩) :
    ∃ entry, s.game.1.ratings.lookup summary.userId = some entry ∧ entry.username = summary.username := by
  rcases ha with ⟨other, rfl⟩ | rfl <;>
    cases op with
    | getSummary => exact summaries_getSummary (Option.mem_toList.mp h)
    | getLeaderboard => exact summaries_getLeaderboard h
    | _ => cases h

/-- What a step does to the two sides. -/
theorem step_cases {a : Action} (h : step kdf config parse cfg s a = some t) :
    (t.gateway = s.gateway ∨ (∃ session, Gateway.step kdf config parse s.gateway (.arrive session) = some t.gateway) ∨
      ∃ k draw answer, Gateway.step kdf config parse s.gateway (.call k draw answer) = some t.gateway ∧
        s.Answers answer) ∧
    (t.game = s.game ∨ ∃ b, s.Origin b ∧ (Server.historyMachine cfg).step s.game b = some t.game) := by
  cases a with
  | arrive session =>
      simp only [step, Option.map_eq_some_iff] at h
      obtain ⟨g, hg, rfl⟩ := h
      exact ⟨Or.inr (Or.inl ⟨session, hg⟩), Or.inl rfl⟩
  | call k draw answer =>
      simp only [step] at h
      split at h
      next => cases h
      next =>
        simp only [Option.bind_eq_bind, Option.bind_eq_some_iff] at h
        obtain ⟨task, htask, op, hop, game, hgame, h⟩ := h
        have horigin : game = s.game ∨ ∃ b, s.Origin b ∧ (Server.historyMachine cfg).step s.game b = some game := by
          rw [perform] at hgame
          split at hgame
          next =>
            cases hgame
            exact Or.inl rfl
          next b hb => exact Or.inr ⟨b, origin_of_call (List.mem_of_getElem? htask) hop hb, hgame⟩
        split at h
        next =>
          cases h
          exact ⟨Or.inl rfl, horigin⟩
        next =>
          obtain ⟨gateway, hgateway, hpure⟩ := Option.bind_eq_some_iff.mp h
          cases hpure
          exact ⟨Or.inr (Or.inr ⟨k, draw, _, hgateway, Or.inl ⟨answer, rfl⟩⟩), horigin⟩
  | joined now =>
      simp only [step, Option.bind_eq_bind, Option.bind_eq_some_iff] at h
      obtain ⟨k, -, game, hgame, gateway, hgateway, hpure⟩ := h
      cases hpure
      exact ⟨Or.inr (Or.inr ⟨k, {}, s.joinAnswer, hgateway, Or.inr rfl⟩), Or.inr ⟨.joinPush now, trivial, hgame⟩⟩
  | frame k input =>
      simp only [step, Option.bind_eq_bind, Option.bind_eq_some_iff] at h
      obtain ⟨task, htask, session, hsession, game, hgame, hpure⟩ := h
      cases hpure
      exact ⟨Or.inl rfl, Or.inr ⟨.submitLookup _, ⟨task, List.mem_of_getElem? htask, session, hsession, rfl⟩, hgame⟩⟩
  | internal b =>
      simp only [step] at h
      split at h
      next hb =>
        obtain ⟨game, hgame, rfl⟩ := Option.map_eq_some_iff.mp h
        exact ⟨Or.inl rfl, Or.inr ⟨b, origin_of_internal hb, hgame⟩⟩
      next => cases h

theorem calls_of_step {a : Action} (h : step kdf config parse cfg s a = some t) {task : HttpTask}
    (htask : task ∈ t.gateway.http.tasks) {call : Sigma HttpCall.Answer} (hcall : call ∈ task.calls) :
    (∃ other ∈ s.gateway.http.tasks, call ∈ other.calls) ∨ ∃ op draw answer, s.Answers answer ∧
      call = ⟨op, s.gateway.http.answered (s.gateway.answered kdf draw answer) op⟩ := by
  have harrive : ∀ session, t.gateway.http.tasks = s.gateway.http.tasks ++ [{ session, rest := session.onRead parse }] →
      ∃ other ∈ s.gateway.http.tasks, call ∈ other.calls := by
    intro session htasks
    rw [htasks] at htask
    rcases List.mem_append.mp htask with htask | htask
    · exact ⟨task, htask, hcall⟩
    · rw [List.mem_singleton.mp htask] at hcall
      cases hcall
  rcases (step_cases h).1 with hsame | ⟨session, hgateway⟩ | ⟨k, draw, answer, hgateway, hanswer⟩
  · exact Or.inl ⟨task, hsame ▸ htask, hcall⟩
  · rcases Gateway.step_cases hgateway with ⟨session, -, htasks⟩ | ⟨_, _, _, _, _, _, ha, -⟩
    · exact Or.inl (harrive session htasks)
    · cases ha
  · rcases Gateway.step_cases hgateway with ⟨session, -, htasks⟩ |
      ⟨_, _, _, known, next, op, ha, hk, -, htasks, -, hcalls, -⟩
    · exact Or.inl (harrive session htasks)
    · cases ha
      rw [htasks] at htask
      rcases List.mem_or_eq_of_mem_set htask with htask | rfl
      · exact Or.inl ⟨task, htask, hcall⟩
      · rw [hcalls] at hcall
        rcases List.mem_append.mp hcall with hcall | hcall
        · exact Or.inl ⟨known, List.mem_of_getElem? hk, hcall⟩
        · exact Or.inr ⟨op, draw, answer, hanswer, List.mem_singleton.mp hcall⟩

end Service

end GameServer
