import GameServer.Coordinator
import GameServer.EventOrder
import GameServer.Feed
import GameServer.FinishOrder
import GameServer.FrameReplies

namespace GameServer

def sessionEventNames : List String := ["session.created", "session.started", "session.state", "session.ended"]

def WsEnvelope.FromSession (env : WsEnvelope) : Prop := env.event ∈ sessionEventNames

instance (env : WsEnvelope) : Decidable env.FromSession := inferInstanceAs (Decidable (_ ∈ _))

def RealtimeConfig.envelope (net : RealtimeConfig) (event : SessionEvent) : WsEnvelope :=
  .serverEvent event.name (net.payload event)

theorem RealtimeConfig.envelope_fromSession (net : RealtimeConfig) (event : SessionEvent) :
    (net.envelope event).FromSession := by
  cases event <;> simp [envelope, WsEnvelope.serverEvent, WsEnvelope.FromSession, SessionEvent.name, sessionEventNames]

theorem reply_not_fromSession {c : ResumeConnection} {frame : Option Json} {calls : List (Sigma SocketCall.Answer)}
    (h : ResumeConnection.FrameRun c frame calls) {message : Json}
    (hm : ⟨.enqueueMessage message, ()⟩ ∈ calls) : ∃ env : WsEnvelope, message = toWsJson env ∧ ¬ env.FromSession := by
  have hnames : ∀ env : WsEnvelope, (env.event = "echo" ∨ env.event = "resync_state" ∨ env.event = "") →
      ¬ env.FromSession := by
    rintro env (he | he | he) <;> simp [WsEnvelope.FromSession, he, sessionEventNames]
  cases h <;> simp at hm <;> subst hm <;> refine ⟨_, rfl, hnames _ ?_⟩ <;>
    simp [WsEnvelope.echo, WsEnvelope.resyncState, WsEnvelope.error]

def Link.Joined (link : Link) : Prop := link.stage ≠ .created ∧ link.stage ≠ .issued

instance (link : Link) : Decidable link.Joined := inferInstanceAs (Decidable (_ ∧ _))

/-- The events of sessions that got into the queue of a connection. -/
def Link.sessionEvents (link : Link) : List WsEnvelope := link.enqueued.filter (·.FromSession)

/-- The services and the connections. A call of EnqueueMessage is one step. Each
pending call of the coordinator has its caller, the strand of a session or
somebody else, and each connection the number of events that its user had been
sent when it registered. -/
structure App where
  server : Server := {}
  realtime : Realtime := {}
  callers : List (Option Nat) := []
  since : Nat → Nat := fun _ => 0

namespace App

variable {D : Type} (cfg : Config D) (net : RealtimeConfig)

/-- A call of SendEventToUser or SendErrorToUser up to its enqueue. -/
def send (w : App) (caller : Option Nat) (userId : Int) (env : WsEnvelope) : App :=
  let realtime := w.realtime.lookupAndLock userId env
  { w with
    realtime := realtime
    callers := w.callers ++ if realtime.sends.length = w.realtime.sends.length then [] else [caller] }

inductive Action
  | server (a : GameServer.Action)
  | link (a : Realtime.Action)

/-- The calls of SendEventToUser are those of the strands, each of which waits
for the end of its call. What a frame is answered is no event of a session. -/
def step (w : App) : Action → Option App
  | .server (.proceed k) =>
    if some k ∈ w.callers then none
    else (w.server.step cfg (.proceed k)).map fun server =>
      match w.server.contexts[k]?.bind (·.strand.sends.head?) with
      | some (userId, event) => ({ w with server := server } : App).send (some k) userId (net.envelope event)
      | none => { w with server := server }
  | .server a => (w.server.step cfg a).map fun server => { w with server := server }
  | .link (.sendEventToUser _ _) => none
  | .link (.sendErrorToUser userId code message) => some (w.send none userId (.serverError code message))
  | .link (.enqueue n) =>
    (w.realtime.step net (.enqueue n)).map fun realtime =>
      { w with realtime := realtime, callers := w.callers.eraseIdx n }
  | .link (.reply c env) =>
    if env.FromSession then none
    else (w.realtime.step net (.reply c env)).map fun realtime => { w with realtime := realtime }
  | .link (.register c) =>
    (w.realtime.step net (.register c)).map fun realtime =>
      { w with
        realtime := realtime
        since := Function.update w.since c (w.realtime.links[c]?.elim 0 fun link =>
          (w.server.eventsTo link.user.userId).length) }
  | .link a => (w.realtime.step net a).map fun realtime => { w with realtime := realtime }

def machine : Machine App Action where
  init := {}
  step := step cfg net

/-- Whatever a frame is answered, the connection may send it as a reply. -/
theorem step_reply (w : App) (c : Nat) {owner : ResumeConnection} {frame : Option Json}
    {calls : List (Sigma SocketCall.Answer)} (h : ResumeConnection.FrameRun owner frame calls) {message : Json}
    (hm : ⟨.enqueueMessage message, ()⟩ ∈ calls) :
    ∃ env, message = toWsJson env ∧ w.step cfg net (.link (.reply c env)) =
      (w.realtime.step net (.reply c env)).map fun realtime => { w with realtime := realtime } := by
  obtain ⟨env, hmessage, hno⟩ := reply_not_fromSession h hm
  exact ⟨env, hmessage, if_neg hno⟩

end App

namespace Server

variable {D : Type} {cfg : Config D}

theorem log_of_step {s t : Server} {a : Action} (h : s.step cfg a = some t) (ha : ∀ k, a ≠ .proceed k) :
    t.log = s.log := by
  cases a with
  | joinCheck user timeout =>
      simp only [step, joinCheck] at h
      split at h
      next =>
        by_cases hr : s.joinRefused user.userId = true
        · simp only [hr, if_true, Option.some.injEq] at h
          rw [← h]
        · simp only [hr, Bool.false_eq_true, if_false, Option.some.injEq] at h
          rw [← h]
      next => cases h
  | joinPush now | queueTick now | createSession | submitLookup input =>
      simp only [step] at h
      split at h <;> cases h <;> rfl
  | cancel userId | pair =>
      simp only [step] at h
      split at h
      next => split at h <;> cases h <;> rfl
      next => cases h
  | startSession k now | timer k ok now =>
      obtain ⟨ctx, hk, h⟩ := Option.bind_eq_some_iff.mp h
      split at h <;> cases h
      rfl
  | proceed k => exact absurd rfl (ha k)
  | submitHandler n =>
      obtain ⟨call, hn, h⟩ := Option.bind_eq_some_iff.mp h
      obtain ⟨ctx, hk, h⟩ := Option.bind_eq_some_iff.mp h
      split at h <;> cases h
      rfl
  | ensureUser userId username =>
      cases h
      rfl

theorem log_of_proceed {s t : Server} {k : Nat} {ctx : SessionContext} (h : s.proceed cfg k ctx = some t)
    (hs : ctx.strand.sends = []) : t.log = s.log := by
  rw [proceed, hs] at h
  dsimp only at h
  split at h <;> cases h <;> rfl

theorem reachable_receivers {s : Server} (h : (machine cfg).Reachable s) {k : Nat} {ctx : SessionContext}
    (hk : s.contexts[k]? = some ctx) {e : Int × SessionEvent} (he : e ∈ ctx.strand.sends) : e.1 ∈ ctx.userIds := by
  rw [← machine_max_one] at h
  exact (reachable_announced (Nat.le_max_left _ _) h).receivers k ctx hk e he

end Server

namespace Realtime

variable {net : RealtimeConfig}

structure Fades (link next : Link) : Prop where
  user : next.user = link.user
  joined : next.Joined ↔ link.Joined
  events : next.sessionEvents = link.sessionEvents
  shut : link.connection.ws.closing = true → next.connection.ws.closing = true
  gone : link.Joined → ¬ link.stage.Visible → ¬ next.stage.Visible

theorem closing_enqueueMessage {link next : Link} {env : WsEnvelope} (h : enqueueMessage net link env = some next)
    (hc : link.connection.ws.closing = true) : next.connection.ws.closing = true := by
  rw [enqueueMessage] at h
  obtain ⟨connection, hs, rfl⟩ := Option.map_eq_some_iff.mp h
  exact (Connection.closing_step hc hs).1

theorem sessionEvents_enqueueMessage {link next : Link} {env : WsEnvelope}
    (h : enqueueMessage net link env = some next) (hno : ¬ env.FromSession) :
    next.sessionEvents = link.sessionEvents := by
  cases enqueueEffect_of_eq h with
  | accepted connection ha => simp [Link.sessionEvents, hno]
  | dropped => rfl

theorem fades_enqueueMessage {link next : Link} {env : WsEnvelope} (h : enqueueMessage net link env = some next)
    (hno : ¬ env.FromSession) : Fades link next := by
  obtain ⟨huser, hstage⟩ := standing_enqueueMessage h
  refine ⟨huser, ?_, sessionEvents_enqueueMessage h hno, closing_enqueueMessage h, ?_⟩
  · rw [Link.Joined, Link.Joined, hstage]
  · intro _ hgone
    rwa [hstage]

inductive LinkTurn (s : Realtime) : Realtime → Prop
  | create {t : Realtime} {link : Link} (hnew : ¬ link.Joined) (hlinks : t.links = s.links ++ [link])
      (hconnections : t.connections = s.connections) (hsends : t.sends = s.sends) : LinkTurn s t
  | change {t : Realtime} {c : Nat} {link next : Link} (hc : s.links[c]? = some link) (hf : Fades link next)
      (hlinks : t.links = s.links.set c next) (hconnections : t.connections = s.connections)
      (hsends : t.sends = s.sends) : LinkTurn s t
  | unregister {t : Realtime} {c : Nat} {link next : Link} (hc : s.links[c]? = some link) (hf : Fades link next)
      (hlinks : t.links = s.links.set c next) (hattached : s.connections.lookup link.user.userId = some c)
      (hconnections : t.connections = s.connections.erase link.user.userId) (hsends : t.sends = s.sends) :
      LinkTurn s t

theorem linkTurn_of_step {s t : Realtime} {a : Action} (h : step net s a = some t)
    (ha : match a with
      | .register _ | .sendEventToUser _ _ | .sendErrorToUser _ _ _ | .enqueue _ => False
      | .reply _ env => ¬ env.FromSession
      | _ => True) : LinkTurn s t := by
  cases a with
  | create user =>
      cases h
      exact .create (by simp [Link.Joined]) rfl rfl rfl
  | issueToken c token =>
      obtain ⟨link, next, hc, hstage, hf, rfl⟩ := onLink_eq h
      cases hf
      have hfades : Fades link { link with resumeToken := token, stage := .issued } :=
        ⟨rfl, by simp [Link.Joined, hstage], rfl, id, fun hj => absurd hstage hj.1⟩
      exact .change hc hfades rfl rfl rfl
  | register c | sendEventToUser userId event | sendErrorToUser userId code message | enqueue n => exact ha.elim
  | sendAuthState c =>
      obtain ⟨link, next, hc, hstage, hf, rfl⟩ := onLink_eq h
      obtain ⟨sent, hsent, rfl⟩ := Option.map_eq_some_iff.mp hf
      have hno : ¬ (WsEnvelope.authState link.user link.resumeToken 1).FromSession := by
        simp [WsEnvelope.FromSession, WsEnvelope.authState, sessionEventNames]
      have hsame := fades_enqueueMessage hsent hno
      have hfades : Fades link { sent with stage := .running } :=
        ⟨hsame.user, by simp [Link.Joined, hstage], hsame.events, hsame.shut, fun _ hg => absurd (Or.inl hstage) hg⟩
      exact .change hc hfades rfl rfl rfl
  | reply c env =>
      obtain ⟨link, next, hc, hstage, hf, rfl⟩ := onLink_eq h
      exact .change hc (fades_enqueueMessage hf ha) rfl rfl rfl
  | onWrite c ok =>
      obtain ⟨link, hc, h⟩ := Option.bind_eq_some_iff.mp h
      obtain ⟨connection, hw, rfl⟩ := Option.map_eq_some_iff.mp h
      have hfades : Fades link { link with connection := connection } :=
        ⟨rfl, Iff.rfl, rfl, fun hclosing => (Connection.closing_step hclosing hw).1, fun _ hg => hg⟩
      exact .change hc hfades rfl rfl rfl
  | release c =>
      simp only [step] at h
      split at h
      next => cases h
      next =>
        obtain ⟨link, next, hc, hstage, hf, rfl⟩ := onLink_eq h
        cases hf
        have hfades : Fades link { link with stage := .released } :=
          ⟨rfl, by simp [Link.Joined, hstage], rfl, id, by simp [LinkStage.Visible]⟩
        exact .change hc hfades rfl rfl rfl
  | unregister c =>
      obtain ⟨link, hc, h⟩ := Option.bind_eq_some_iff.mp h
      obtain ⟨u, hu, rfl⟩ := Option.map_eq_some_iff.mp h
      obtain ⟨next, hstage, hf, rfl⟩ := onLink_eq_of_some hc hu
      cases hf
      have hfades : Fades link { link with stage := .destroyed } :=
        ⟨rfl, by simp [Link.Joined, hstage], rfl, id, by simp [LinkStage.Visible]⟩
      rw [unregisterUser]
      split
      next => exact .change hc hfades rfl rfl rfl
      next raw hraw =>
        split
        next heq =>
          subst heq
          exact .unregister hc hfades rfl hraw rfl rfl
        next => exact .change hc hfades rfl rfl rfl

theorem joined_of_lookup {s : Realtime} (h : (machine net).Reachable s) {userId : Int} {c : Nat}
    (hc : s.connections.lookup userId = some c) :
    ∃ link, s.links[c]? = some link ∧ link.user.userId = userId ∧ link.Joined := by
  obtain ⟨r, hr, hf⟩ := follows_reachable h
  have hentry : r.coordinator.connections.lookup userId = some ⟨c, c⟩ := by
    rw [hf.coordinator.entry, hc]
    rfl
  have hmem := ((Registry.inv_reachable hr).attached.entry userId c c).mp hentry |>.1.mem
  obtain ⟨gone, hgone⟩ := hf.standing_of_mem hmem
  rw [List.getElem?_map, Option.map_eq_some_iff] at hgone
  obtain ⟨link, hlink, hstanding⟩ := hgone
  simp only [standing, Prod.mk.injEq, decide_eq_true_eq] at hstanding
  exact ⟨link, hlink, hstanding.1, hstanding.2.1⟩

end Realtime

end GameServer
