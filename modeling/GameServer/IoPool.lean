import GameServer.InputFrame
import GameServer.StrandPool

namespace GameServer.IoPool

open StrandPool

/-- What gives the io_context work: the connections, each with one read at a
time, and the sessions, each with its start or its timer. -/
inductive Source
  | connection (n : Nat)
  | session (k : Nat)
deriving DecidableEq, Repr

variable {D : Type} (cfg : Config D)

/-- An input meets the server in a state that it can be in. -/
inductive Event
  | input (connection : Nat) (userId : Int) (message : Json) (s : Server) (hs : (Server.machine cfg).Reachable s)
  | otherFrame (connection : Nat)
  | tick (k : Nat)

variable {cfg}

/-- The work of an event. A frame that gets as far as the dispatch of
SubmitInput keeps its worker waiting for the strand of the session found in
the state of the server it meets. -/
def job : Event cfg → Job Nat Source
  | .input n userId message s _ =>
    match handleSessionInput userId message with
    | .error _ => .plain (.connection n)
    | .ok input =>
      match s.lookupSession input with
      | .error _ => .plain (.connection n)
      | .ok k => .call (.connection n) k
  | .otherFrame n => .plain (.connection n)
  | .tick k => .post (.session k) k

def runWorkers (cfg : Config D) (T : Nat) : Machine (Pool Nat Source) (StrandPool.Action (Event cfg)) :=
  StrandPool.machine job T

def inputMessage : Json :=
  .object [("sessionId", .string "session-1"), ("sequence", .numberUnsigned 1), ("targetTick", .numberUnsigned 1),
    ("delta", .numberUnsigned 1)]

theorem job_input {s : Server} (hs : (Server.machine cfg).Reachable s)
    (huser : s.userToSession.lookup 1 = some "session-1") (hsession : s.sessions.lookup "session-1" = some 0)
    (n : Nat) : job (.input n 1 inputMessage s hs) = .call (.connection n) 0 := by
  have hinput : handleSessionInput 1 inputMessage = .ok ⟨"session-1", 1, 1, 1, 1⟩ := by decide
  have hlookup : s.lookupSession ⟨"session-1", 1, 1, 1, 1⟩ = .ok 0 := by
    simp only [Server.lookupSession, huser, hsession]
  simp only [job, hinput, hlookup]

/-- The threads of the pool can all be blocked in SubmitInput, unless there is
only one. -/
theorem never_exhausted_iff (cfg : Config D) {T : Nat} (hT : 1 ≤ T) :
    (∀ p, (runWorkers cfg T).Reachable p → ¬ p.AllBlocked) ↔ T = 1 := by
  constructor
  · intro hall
    by_contra hne
    have hinj : Function.Injective Source.connection := fun a b he => Source.connection.inj he
    have hother : ∀ n, Source.connection n ≠ .session 0 := fun n he => by cases he
    have husers : (⟨1, "kim"⟩ : AuthUser).userId ≠ (⟨2, "lee"⟩ : AuthUser).userId := by decide
    obtain ⟨s, hs, -, huser, hsession⟩ := Server.run_match cfg husers
    have hinput := job_input (.of_run hs) huser hsession
    have htick : job (.tick 0 : Event cfg) = .post (.session 0) 0 := rfl
    have htwo : 2 ≤ T := by omega
    obtain ⟨p, hp, hblocked⟩ := exhausts hinj hother htick hinput htwo
    exact hall p hp hblocked
  · intro hone p hp
    subst hone
    exact (solo_reachable hp).not_allBlocked

def matched : Server :=
  ((Server.machine (Server.evenConfig 5)).run (Server.matchActions ⟨1, "kim"⟩ ⟨2, "lee"⟩)).getD {}

theorem matched_reachable : (Server.machine (Server.evenConfig 5)).Reachable matched := by
  obtain ⟨s, hs, hr, -⟩ := Machine.exists_of_run (M := Server.machine (Server.evenConfig 5))
    (Server.matchActions ⟨1, "kim"⟩ ⟨2, "lee"⟩) (fun _ => True) (by decide)
  rw [matched, hs]
  exact hr

theorem never_exhausted_one : ∃ p, (runWorkers (Server.evenConfig 5) 1).run
    [.arrive (.tick 0), .take 0, .arrive (.input 1 1 inputMessage matched matched_reachable), .run 0, .leave 0,
      .take 0] = some p ∧ ¬ p.AllBlocked := by
  obtain ⟨p, hp, hr, -⟩ := Machine.exists_of_run (M := runWorkers (Server.evenConfig 5) 1)
    [.arrive (.tick 0), .take 0, .arrive (.input 1 1 inputMessage matched matched_reachable), .run 0, .leave 0,
      .take 0] (fun _ => True)
    (by decide)
  exact ⟨p, hp, (never_exhausted_iff (Server.evenConfig 5) (Nat.le_refl 1)).mpr rfl p hr⟩

/-- Two threads and two inputs of one session: the second is taken just when
the strand has been posted again behind it. -/
theorem exhausted_two : ∃ p, (runWorkers (Server.evenConfig 5) 2).run
    [.arrive (.tick 0), .take 0, .arrive (.input 1 1 inputMessage matched matched_reachable), .take 1,
      .arrive (.input 2 2 inputMessage matched matched_reachable), .run 0, .leave 0, .take 0] = some p ∧
      p.AllBlocked ∧ ∀ q, (runWorkers (Server.evenConfig 5) 2).Leads p q → q.AllBlocked := by
  obtain ⟨p, hp, -, hblocked⟩ := Machine.exists_of_run (M := runWorkers (Server.evenConfig 5) 2)
    [.arrive (.tick 0), .take 0, .arrive (.input 1 1 inputMessage matched matched_reachable), .take 1,
      .arrive (.input 2 2 inputMessage matched matched_reachable), .run 0, .leave 0, .take 0] Pool.AllBlocked
    (by decide)
  exact ⟨p, hp, hblocked, fun q hq => AllBlocked.forever hblocked hq⟩

end GameServer.IoPool
