import GameServer.Blocks
import GameServer.Envelope
import GameServer.MatchQueue
import GameServer.SendQueue
import GameServer.Session

namespace GameServer

/-- The points of Run between its calls, and of the end of the object: its
last shared_ptr goes before its destructor runs. -/
inductive LinkStage
  | created
  | issued
  | registered
  | running
  | released
  | destroyed
deriving DecidableEq, Repr

def LinkStage.Early (stage : LinkStage) : Prop := stage = .created ∨ stage = .issued ∨ stage = .registered

def LinkStage.Visible (stage : LinkStage) : Prop := stage = .registered ∨ stage = .running

instance (stage : LinkStage) : Decidable stage.Early := inferInstanceAs (Decidable (_ ∨ _))

instance (stage : LinkStage) : Decidable stage.Visible := inferInstanceAs (Decidable (_ ∨ _))

/-- A WebSocketSession: its sending side, the token that Run has issued, and
the envelopes that got into its queue so far. -/
structure Link where
  user : AuthUser
  connection : Connection
  stage : LinkStage := .created
  resumeToken : String := ""
  enqueued : List WsEnvelope := []

/-- The coordinator with its connections. A call of SendEventToUser or
SendErrorToUser that has found its session waits in sends for its enqueue. -/
structure Realtime where
  connections : Table Int Nat := ∅
  websocketActive : Nat := 0
  links : List Link := []
  sends : List (Nat × WsEnvelope) := []

structure RealtimeConfig where
  maxQueueMessages : Nat
  maxQueueBytes : Nat
  payload : SessionEvent → Json
  dump : Json → Message

namespace WsEnvelope

def authState (user : AuthUser) (resumeToken : String) (snapshotVersion : Int) : WsEnvelope where
  type := "event"
  event := "auth_state"
  seq := 0
  payload := .object [("resumeToken", .string resumeToken), ("snapshotVersion", .ofInt snapshotVersion),
    ("userId", .ofInt user.userId), ("username", .string user.username)]

end WsEnvelope

namespace Realtime

inductive Action
  | create (user : AuthUser)
  | issueToken (c : Nat) (token : String)
  | register (c : Nat)
  | sendAuthState (c : Nat)
  | reply (c : Nat) (env : WsEnvelope)
  | sendEventToUser (userId : Int) (event : SessionEvent)
  | sendErrorToUser (userId : Int) (code message : String)
  | enqueue (n : Nat)
  | onWrite (c : Nat) (ok : Bool)
  | release (c : Nat)
  | unregister (c : Nat)

def Action.addressee : Action → Option Int
  | .sendEventToUser userId _ | .sendErrorToUser userId _ _ => some userId
  | _ => none

variable (cfg : RealtimeConfig)

def enqueueMessage (link : Link) (env : WsEnvelope) : Option Link :=
  let message := cfg.dump (toWsJson env)
  (link.connection.step (.enqueueMessage message)).map fun connection =>
    { link with
      connection := connection
      enqueued := if link.connection.ws.Accepts message then link.enqueued ++ [env] else link.enqueued }

def onLink (s : Realtime) (c : Nat) (stage : LinkStage) (f : Link → Option Link) : Option Realtime :=
  s.links[c]?.bind fun link =>
    if link.stage = stage then (f link).map fun next => { s with links := s.links.set c next } else none

def lookupAndLock (s : Realtime) (userId : Int) (env : WsEnvelope) : Realtime :=
  match s.connections.lookup userId with
  | none => s
  | some c =>
    match s.links[c]? with
    | none => s
    | some link => if link.stage.Visible then { s with sends := s.sends ++ [(c, env)] } else s

def registerUser (s : Realtime) (userId : Int) (c : Nat) : Realtime :=
  let connections := s.connections.insert userId c
  { s with connections := connections, websocketActive := connections.entries.length }

def unregisterUser (s : Realtime) (userId : Int) (c : Nat) : Realtime :=
  match s.connections.lookup userId with
  | none => s
  | some raw =>
    if raw = c then
      let connections := s.connections.erase userId
      { s with connections := connections, websocketActive := connections.entries.length }
    else s

def step (s : Realtime) : Action → Option Realtime
  | .create user =>
    let ws := { maxQueueMessages := cfg.maxQueueMessages, maxQueueBytes := cfg.maxQueueBytes }
    some { s with links := s.links ++ [{ user := user, connection := { ws := ws } }] }
  | .issueToken c token =>
    s.onLink c .created fun link => some { link with resumeToken := token, stage := .issued }
  | .register c =>
    s.links[c]?.bind fun link =>
      (s.onLink c .issued fun link => some { link with stage := .registered }).map fun s =>
        s.registerUser link.user.userId c
  | .sendAuthState c =>
    s.onLink c .registered fun link =>
      (enqueueMessage cfg link (.authState link.user link.resumeToken 1)).map fun link =>
        { link with stage := .running }
  | .reply c env => s.onLink c .running fun link => enqueueMessage cfg link env
  | .sendEventToUser userId event => some (s.lookupAndLock userId (.serverEvent event.name (cfg.payload event)))
  | .sendErrorToUser userId code message => some (s.lookupAndLock userId (.serverError code message))
  | .enqueue n =>
    s.sends[n]?.bind fun (c, env) =>
      s.links[c]?.bind fun link =>
        (enqueueMessage cfg link env).map fun next =>
          { s with links := s.links.set c next, sends := s.sends.eraseIdx n }
  | .onWrite c ok =>
    s.links[c]?.bind fun link =>
      (link.connection.step (.onWrite ok)).map fun connection =>
        { s with links := s.links.set c { link with connection := connection } }
  | .release c =>
    if c ∈ s.sends.map (·.1) then none
    else s.onLink c .running fun link => some { link with stage := .released }
  | .unregister c =>
    s.links[c]?.bind fun link =>
      (s.onLink c .released fun link => some { link with stage := .destroyed }).map fun s =>
        s.unregisterUser link.user.userId c

def machine : Machine Realtime Action where
  init := {}
  step := step cfg

def FirstIsAuthState (s : Realtime) : Prop :=
  ∀ (c : Nat) (link : Link), s.links[c]? = some link → ∀ env, link.enqueued.head? = some env →
    env = .authState link.user link.resumeToken 1

/-- What a broadcast or an error puts into a queue comes after SendAuthState. -/
def EnqueuesAfterAuthState (s : Realtime) : Action → Prop
  | .enqueue n => ∀ c env link, s.sends[n]? = some (c, env) → s.links[c]? = some link →
      link.connection.ws.Accepts (cfg.dump (toWsJson env)) → ¬ link.stage.Early
  | _ => True

/-- SendEventToUser and SendErrorToUser find no connection that is between its
Register and its SendAuthState. -/
def FindsGreeted (s : Realtime) (a : Action) : Prop :=
  ∀ userId ∈ a.addressee, ∀ c ∈ s.connections.lookup userId, ∀ link ∈ s.links[c]?, link.stage ≠ .registered

instance (s : Realtime) (a : Action) : Decidable (s.FindsGreeted a) :=
  inferInstanceAs (Decidable (∀ _ ∈ a.addressee, ∀ _ ∈ _, ∀ _ ∈ _, _))

variable {cfg}

inductive EnqueueEffect (cfg : RealtimeConfig) (link : Link) (env : WsEnvelope) : Link → Prop
  | accepted (connection : Connection) (h : link.connection.ws.Accepts (cfg.dump (toWsJson env))) :
      EnqueueEffect cfg link env { link with connection := connection, enqueued := link.enqueued ++ [env] }
  | dropped (connection : Connection) (h : ¬ link.connection.ws.Accepts (cfg.dump (toWsJson env)))
      (hclosing : connection.ws.closing = true) : EnqueueEffect cfg link env { link with connection := connection }

theorem enqueueEffect_of_eq {link next : Link} {env : WsEnvelope} (h : enqueueMessage cfg link env = some next) :
    EnqueueEffect cfg link env next := by
  simp only [enqueueMessage, Option.map_eq_some_iff] at h
  obtain ⟨connection, hs, rfl⟩ := h
  by_cases ha : link.connection.ws.Accepts (cfg.dump (toWsJson env))
  · rw [if_pos ha]
    exact .accepted connection ha
  · rw [if_neg ha]
    refine .dropped connection ha ?_
    by_cases hc : link.connection.ws.closing = true
    · exact (Connection.closing_step hc hs).1
    · have hover : link.connection.ws.OverLimit (cfg.dump (toWsJson env)) := by
        simpa [WebSocketSession.Accepts, hc] using ha
      simp only [Connection.step, Option.some.injEq] at hs
      subst hs
      simp [Connection.startWrite, WebSocketSession.enqueueMessage, WebSocketSession.triggerBackpressureClose, hc,
        hover]

inductive OwnEffect (cfg : RealtimeConfig) (link : Link) : Link → Prop
  | issue (token : String) (h : link.stage = .created) :
      OwnEffect cfg link { link with resumeToken := token, stage := .issued }
  | register (h : link.stage = .issued) : OwnEffect cfg link { link with stage := .registered }
  | auth {next : Link} (h : link.stage = .registered)
      (he : EnqueueEffect cfg link (.authState link.user link.resumeToken 1) next) :
      OwnEffect cfg link { next with stage := .running }
  | reply {next : Link} {env : WsEnvelope} (h : link.stage = .running) (he : EnqueueEffect cfg link env next) :
      OwnEffect cfg link next
  | write (connection : Connection)
      (h : link.connection.ws.closing = true → connection.ws.closing = true) :
      OwnEffect cfg link { link with connection := connection }
  | release (h : link.stage = .running) : OwnEffect cfg link { link with stage := .released }
  | destroy (h : link.stage = .released) : OwnEffect cfg link { link with stage := .destroyed }

/-- Before SendAuthState a queue holds nothing but what others have sent, and
afterwards it is empty only on a closing connection. -/
structure SoundLink (link : Link) : Prop where
  quiet : link.stage = .created ∨ link.stage = .issued → link.enqueued = []
  early : link.stage.Early → ∀ env ∈ link.enqueued, env.event ≠ "auth_state"
  late : ¬ link.stage.Early → link.enqueued = [] → link.connection.ws.closing = true

def FirstOnLink (link : Link) : Prop :=
  ∀ env, link.enqueued.head? = some env → env = .authState link.user link.resumeToken 1

theorem SoundLink.enqueued_of_early {link : Link} (h : SoundLink link) (hf : FirstOnLink link)
    (he : link.stage.Early) : link.enqueued = [] := by
  cases hq : link.enqueued with
  | nil => rfl
  | cons env rest =>
      exfalso
      have hne := h.early he env (by simp [hq])
      rw [hf env (by simp [hq])] at hne
      exact hne rfl

theorem SoundLink.enqueued_ne_nil {link : Link} (h : SoundLink link) (he : ¬ link.stage.Early) {message : Message}
    (ha : link.connection.ws.Accepts message) : link.enqueued ≠ [] := by
  intro hnil
  have hclosing := h.late he hnil
  rw [ha.1] at hclosing
  cases hclosing

theorem OwnEffect.sound {link next : Link} (h : SoundLink link) (he : OwnEffect cfg link next) : SoundLink next := by
  cases he with
  | issue token hs =>
      have hnil := h.quiet (Or.inl hs)
      exact ⟨fun _ => hnil, fun _ env hm => by simp [hnil] at hm, fun hlate => absurd (Or.inr (Or.inl rfl)) hlate⟩
  | register hs =>
      have hnil := h.quiet (Or.inr hs)
      exact ⟨fun hq => by simp at hq, fun _ env hm => by simp [hnil] at hm,
        fun hlate => absurd (Or.inr (Or.inr rfl)) hlate⟩
  | auth hs he =>
      refine ⟨fun hq => by simp at hq, fun hearly => by simp [LinkStage.Early] at hearly, ?_⟩
      intro _ hnil
      cases he with
      | accepted => simp at hnil
      | dropped _ _ hclosing => exact hclosing
  | reply hs he =>
      have hlate : ¬ link.stage.Early := by simp [LinkStage.Early, hs]
      cases he with
      | accepted =>
          exact ⟨fun hq => by simp [hs] at hq, fun hearly => absurd hearly hlate, fun _ hnil => by simp at hnil⟩
      | dropped _ _ hclosing =>
          exact ⟨fun hq => by simp [hs] at hq, fun hearly => absurd hearly hlate, fun _ _ => hclosing⟩
  | write connection hkeep => exact ⟨h.quiet, h.early, fun hlate hnil => hkeep (h.late hlate hnil)⟩
  | release hs =>
      have hlate : ¬ link.stage.Early := by simp [LinkStage.Early, hs]
      exact ⟨fun hq => by simp at hq, fun hearly => by simp [LinkStage.Early] at hearly, fun _ => h.late hlate⟩
  | destroy hs =>
      have hlate : ¬ link.stage.Early := by simp [LinkStage.Early, hs]
      exact ⟨fun hq => by simp at hq, fun hearly => by simp [LinkStage.Early] at hearly, fun _ => h.late hlate⟩

theorem OwnEffect.first {link next : Link} (h : SoundLink link) (hf : FirstOnLink link)
    (he : OwnEffect cfg link next) : FirstOnLink next := by
  cases he with
  | issue token hs =>
      intro env hhead
      simp [h.quiet (Or.inl hs)] at hhead
  | auth hs he =>
      have hnil : link.enqueued = [] := h.enqueued_of_early hf (by simp [LinkStage.Early, hs])
      cases he with
      | accepted =>
          intro env hhead
          simpa [hnil, eq_comm] using hhead
      | dropped => exact hf
  | reply hs he =>
      cases he with
      | accepted _ ha =>
          have hne := h.enqueued_ne_nil (by simp [LinkStage.Early, hs]) ha
          intro env hhead
          exact hf env (by rwa [List.head?_append_of_ne_nil _ hne] at hhead)
      | dropped => exact hf
  | register | write | release | destroy => exact hf

theorem soundLink_of_broadcast {link next : Link} {env : WsEnvelope} (h : SoundLink link)
    (hv : link.stage.Visible) (hne : env.event ≠ "auth_state") (he : EnqueueEffect cfg link env next) :
    SoundLink next := by
  have hquiet : ¬ (link.stage = .created ∨ link.stage = .issued) := by
    rcases hv with hv | hv <;> simp [hv]
  cases he with
  | accepted =>
      refine ⟨fun hq => absurd hq hquiet, ?_, fun _ hnil => by simp at hnil⟩
      intro hearly e hm
      rcases List.mem_append.mp hm with hm | hm
      · exact h.early hearly e hm
      · rw [List.mem_singleton.mp hm]
        exact hne
  | dropped _ _ hclosing => exact ⟨fun hq => absurd hq hquiet, h.early, fun _ _ => hclosing⟩

theorem firstOnLink_of_broadcast {link next : Link} {env : WsEnvelope} (h : SoundLink link) (hf : FirstOnLink link)
    (hne : env.event ≠ "auth_state") (he : EnqueueEffect cfg link env next) :
    FirstOnLink next ↔ (link.connection.ws.Accepts (cfg.dump (toWsJson env)) → ¬ link.stage.Early) := by
  cases he with
  | accepted _ ha =>
      constructor
      · intro hfirst _ hearly
        have hnil := h.enqueued_of_early hf hearly
        have henv := hfirst env (by simp [hnil])
        exact hne (by rw [henv]; rfl)
      · intro hlate e hhead
        rw [List.head?_append_of_ne_nil _ (h.enqueued_ne_nil (hlate ha) ha)] at hhead
        exact hf e hhead
  | dropped _ hno => exact ⟨fun _ ha => absurd ha hno, fun _ => hf⟩

structure Inv (s : Realtime) : Prop where
  sound : ∀ (c : Nat) (link : Link), s.links[c]? = some link → SoundLink link
  held : ∀ p ∈ s.sends, p.2.event ≠ "auth_state" ∧ ∃ link, s.links[p.1]? = some link ∧ link.stage.Visible

inductive Effect (cfg : RealtimeConfig) (s : Realtime) : Action → Realtime → Prop
  | create {user : AuthUser} {t : Realtime} {link : Link} (hstage : link.stage = .created)
      (henqueued : link.enqueued = []) (hlinks : t.links = s.links ++ [link]) (hsends : t.sends = s.sends) :
      Effect cfg s (.create user) t
  | own {a : Action} {t : Realtime} {c : Nat} {link next : Link} (ha : ∀ n, a ≠ .enqueue n)
      (hc : s.links[c]? = some link) (he : OwnEffect cfg link next) (hlinks : t.links = s.links.set c next)
      (hsends : t.sends = s.sends) (hheld : link.stage.Visible → c ∈ s.sends.map (·.1) → next.stage.Visible) :
      Effect cfg s a t
  | found {a : Action} {t : Realtime} {userId : Int} {c : Nat} {link : Link} {env : WsEnvelope}
      (ha : ∀ n, a ≠ .enqueue n) (hto : userId ∈ a.addressee) (hfound : s.connections.lookup userId = some c)
      (hne : env.event ≠ "auth_state") (hc : s.links[c]? = some link) (hv : link.stage.Visible)
      (hlinks : t.links = s.links) (hsends : t.sends = s.sends ++ [(c, env)]) : Effect cfg s a t
  | missed {a : Action} (ha : ∀ n, a ≠ .enqueue n) : Effect cfg s a s
  | broadcast {n c : Nat} {env : WsEnvelope} {link next : Link} (hn : s.sends[n]? = some (c, env))
      (hc : s.links[c]? = some link) (he : EnqueueEffect cfg link env next) :
      Effect cfg s (.enqueue n) { s with links := s.links.set c next, sends := s.sends.eraseIdx n }

theorem onLink_eq {s t : Realtime} {c : Nat} {stage : LinkStage} {f : Link → Option Link}
    (h : s.onLink c stage f = some t) :
    ∃ link next, s.links[c]? = some link ∧ link.stage = stage ∧ f link = some next ∧
      t = { s with links := s.links.set c next } := by
  obtain ⟨link, hc, h⟩ := Option.bind_eq_some_iff.mp h
  split at h
  next hstage =>
    obtain ⟨next, hf, rfl⟩ := Option.map_eq_some_iff.mp h
    exact ⟨link, next, hc, hstage, hf, rfl⟩
  next => cases h

theorem effect_of_lookup {s : Realtime} {userId : Int} {env : WsEnvelope} {a : Action} (ha : ∀ n, a ≠ .enqueue n)
    (hto : userId ∈ a.addressee) (hne : env.event ≠ "auth_state") : Effect cfg s a (s.lookupAndLock userId env) := by
  rw [lookupAndLock]
  split
  next => exact .missed ha
  next hfound =>
    split
    next => exact .missed ha
    next hc =>
      split
      next hv => exact .found ha hto hfound hne hc hv rfl rfl
      next => exact .missed ha

theorem event_name_ne (event : SessionEvent) : event.name ≠ "auth_state" := by
  cases event <;> simp [SessionEvent.name]

@[simp] theorem registerUser_links (s : Realtime) (userId : Int) (c : Nat) :
    (s.registerUser userId c).links = s.links := rfl

@[simp] theorem registerUser_sends (s : Realtime) (userId : Int) (c : Nat) :
    (s.registerUser userId c).sends = s.sends := rfl

@[simp] theorem unregisterUser_links (s : Realtime) (userId : Int) (c : Nat) :
    (s.unregisterUser userId c).links = s.links := by
  rw [unregisterUser]
  split
  next => rfl
  next => split <;> rfl

@[simp] theorem unregisterUser_sends (s : Realtime) (userId : Int) (c : Nat) :
    (s.unregisterUser userId c).sends = s.sends := by
  rw [unregisterUser]
  split
  next => rfl
  next => split <;> rfl

theorem effect_of_step {s t : Realtime} {a : Action} (h : step cfg s a = some t) : Effect cfg s a t := by
  cases a with
  | create user =>
      cases h
      exact .create rfl rfl rfl rfl
  | issueToken c token =>
      obtain ⟨link, next, hc, hstage, hf, rfl⟩ := onLink_eq h
      cases hf
      exact .own (by simp) hc (.issue token hstage) rfl rfl (fun hv => by simp [LinkStage.Visible, hstage] at hv)
  | register c =>
      obtain ⟨link, hc, h⟩ := Option.bind_eq_some_iff.mp h
      obtain ⟨u, hu, rfl⟩ := Option.map_eq_some_iff.mp h
      obtain ⟨link', next, hc', hstage, hf, rfl⟩ := onLink_eq hu
      cases hf
      exact .own (by simp) hc' (.register hstage) (by simp) (by simp) (fun _ _ => Or.inl rfl)
  | sendAuthState c =>
      obtain ⟨link, next, hc, hstage, hf, rfl⟩ := onLink_eq h
      obtain ⟨sent, hsent, rfl⟩ := Option.map_eq_some_iff.mp hf
      exact .own (by simp) hc (.auth hstage (enqueueEffect_of_eq hsent)) rfl rfl (fun _ _ => Or.inr rfl)
  | reply c env =>
      obtain ⟨link, next, hc, hstage, hf, rfl⟩ := onLink_eq h
      have he := enqueueEffect_of_eq hf
      refine .own (by simp) hc (.reply hstage he) rfl rfl (fun hv _ => ?_)
      cases he <;> exact hv
  | sendEventToUser userId event =>
      cases h
      exact effect_of_lookup (by simp) rfl (event_name_ne event)
  | sendErrorToUser userId code message =>
      cases h
      exact effect_of_lookup (by simp) rfl (by simp [WsEnvelope.serverError, WsEnvelope.error])
  | enqueue n =>
      obtain ⟨⟨c, env⟩, hn, h⟩ := Option.bind_eq_some_iff.mp h
      obtain ⟨link, hc, h⟩ := Option.bind_eq_some_iff.mp h
      obtain ⟨next, hnext, rfl⟩ := Option.map_eq_some_iff.mp h
      exact .broadcast hn hc (enqueueEffect_of_eq hnext)
  | onWrite c ok =>
      obtain ⟨link, hc, h⟩ := Option.bind_eq_some_iff.mp h
      obtain ⟨connection, hw, rfl⟩ := Option.map_eq_some_iff.mp h
      exact .own (by simp) hc (.write connection (fun hclosing => (Connection.closing_step hclosing hw).1)) rfl rfl
        (fun hv _ => hv)
  | release c =>
      simp only [step] at h
      split at h
      next => cases h
      next hfree =>
        obtain ⟨link, next, hc, hstage, hf, rfl⟩ := onLink_eq h
        cases hf
        exact .own (by simp) hc (.release hstage) rfl rfl (fun _ hin => absurd hin hfree)
  | unregister c =>
      obtain ⟨link, hc, h⟩ := Option.bind_eq_some_iff.mp h
      obtain ⟨u, hu, rfl⟩ := Option.map_eq_some_iff.mp h
      obtain ⟨link', next, hc', hstage, hf, rfl⟩ := onLink_eq hu
      cases hf
      exact .own (by simp) hc' (.destroy hstage) (by simp) (by simp)
        (fun hv => by simp [LinkStage.Visible, hstage] at hv)

theorem EnqueueEffect.stage {link next : Link} {env : WsEnvelope} (h : EnqueueEffect cfg link env next) :
    next.stage = link.stage := by
  cases h <;> rfl

theorem held_set {links : List Link} {c d : Nat} {link next : Link} (hc : links[c]? = some link)
    (hnext : d = c → link.stage.Visible → next.stage.Visible)
    (h : ∃ other, links[d]? = some other ∧ other.stage.Visible) :
    ∃ other, (links.set c next)[d]? = some other ∧ other.stage.Visible := by
  obtain ⟨other, hd, hv⟩ := h
  by_cases he : d = c
  · subst he
    rw [hc] at hd
    cases hd
    exact ⟨next, getElem?_set_of_eq hc, hnext rfl hv⟩
  · exact ⟨other, getElem?_set_of_ne hd (Ne.symm he), hv⟩

theorem Inv.effect {s t : Realtime} {a : Action} (hi : s.Inv) (h : Effect cfg s a t) : t.Inv := by
  cases h with
  | create hstage henqueued hlinks hsends =>
      constructor
      · rw [hlinks]
        refine forall_concat ⟨fun _ => henqueued, ?_, ?_⟩ hi.sound
        · intro _ env hm
          simp [henqueued] at hm
        · intro hlate
          simp [LinkStage.Early, hstage] at hlate
      · rw [hlinks, hsends]
        intro p hp
        obtain ⟨hne, other, hother, hv⟩ := hi.held p hp
        have hlt := (List.getElem?_eq_some_iff.mp hother).1
        exact ⟨hne, other, by rw [List.getElem?_append_left hlt, hother], hv⟩
  | own ha hc he hlinks hsends hheld =>
      constructor
      · rw [hlinks]
        exact (forall_set_iff hc hi.sound).mpr (he.sound (hi.sound _ _ hc))
      · rw [hlinks, hsends]
        intro p hp
        obtain ⟨hne, hother⟩ := hi.held p hp
        refine ⟨hne, held_set hc ?_ hother⟩
        rintro hpc hv
        exact hheld hv (hpc ▸ List.mem_map_of_mem hp)
  | found ha hto hfound hne hc hv hlinks hsends =>
      constructor
      · rw [hlinks]
        exact hi.sound
      · rw [hlinks, hsends]
        intro p hp
        rcases List.mem_append.mp hp with hp | hp
        · exact hi.held p hp
        · rw [List.mem_singleton.mp hp]
          exact ⟨hne, _, hc, hv⟩
  | missed => exact hi
  | broadcast hn hc he =>
      obtain ⟨hne, other, hother, hv⟩ := hi.held _ (List.mem_of_getElem? hn)
      rw [hc] at hother
      cases hother
      constructor
      · exact (forall_set_iff hc hi.sound).mpr (soundLink_of_broadcast (hi.sound _ _ hc) hv hne he)
      · intro p hp
        obtain ⟨hne', hother⟩ := hi.held p (List.mem_of_mem_eraseIdx hp)
        refine ⟨hne', held_set hc ?_ hother⟩
        intro _ hv
        rw [he.stage]
        exact hv

theorem firstIsAuthState_effect {s t : Realtime} {a : Action} (hi : s.Inv) (hf : s.FirstIsAuthState)
    (h : Effect cfg s a t) : t.FirstIsAuthState ↔ s.EnqueuesAfterAuthState cfg a := by
  have hother : (∀ n, a ≠ .enqueue n) → s.EnqueuesAfterAuthState cfg a := by
    intro ha
    cases a with
    | enqueue n => exact absurd rfl (ha n)
    | _ => trivial
  cases h with
  | create hstage henqueued hlinks hsends =>
      refine iff_of_true ?_ (hother (by simp))
      intro c link hc
      rw [hlinks] at hc
      refine forall_concat (P := FirstOnLink) ?_ hf c link hc
      intro env hhead
      simp [henqueued] at hhead
  | own ha hc he hlinks hsends hheld =>
      refine iff_of_true ?_ (hother ha)
      intro c link hlink
      rw [hlinks] at hlink
      exact (forall_set_iff (P := FirstOnLink) hc hf).mpr (he.first (hi.sound _ _ hc) (hf _ _ hc)) c link hlink
  | found ha hto hfound hne hc hv hlinks hsends =>
      refine iff_of_true ?_ (hother ha)
      intro c link hlink
      rw [hlinks] at hlink
      exact hf c link hlink
  | missed ha => exact iff_of_true hf (hother ha)
  | @broadcast n c env link next hn hc he =>
      obtain ⟨hne, -⟩ := hi.held _ (List.mem_of_getElem? hn)
      have hlink := firstOnLink_of_broadcast (hi.sound _ _ hc) (hf _ _ hc) hne he
      have hset := forall_set_iff (b := next) (P := FirstOnLink) hc hf
      refine (hset.trans hlink).trans ?_
      constructor
      · intro hlate c' env' link' hn' hc' haccepts
        rw [hn] at hn'
        cases hn'
        rw [hc] at hc'
        cases hc'
        exact hlate haccepts
      · intro hall haccepts
        exact hall c env link hn hc haccepts

theorem inv_empty : Inv {} where
  sound := by simp
  held := by simp

/-- The calls that have found a session deliver to one that has sent its
auth_state. -/
def Greeted (s : Realtime) : Prop :=
  ∀ p ∈ s.sends, ∀ link, s.links[p.1]? = some link → ¬ link.stage.Early

theorem OwnEffect.late {link next : Link} (h : OwnEffect cfg link next) (hlate : ¬ link.stage.Early) :
    ¬ next.stage.Early := by
  cases h with
  | issue token hs => exact absurd (Or.inl hs) hlate
  | register hs => exact absurd (Or.inr (Or.inl hs)) hlate
  | reply _ he =>
      rw [he.stage]
      exact hlate
  | write => exact hlate
  | auth | release | destroy => simp [LinkStage.Early]

theorem greeted_set {s : Realtime} (hg : s.Greeted) {c : Nat} {link next : Link} (hc : s.links[c]? = some link)
    (hnext : ¬ link.stage.Early → ¬ next.stage.Early) {p : Nat × WsEnvelope} (hp : p ∈ s.sends) {other : Link}
    (hother : (s.links.set c next)[p.1]? = some other) : ¬ other.stage.Early := by
  rw [getElem?_set_of_some hc] at hother
  split at hother
  next he =>
    cases hother
    exact hnext (hg p hp link (he ▸ hc))
  next => exact hg p hp other hother

theorem Greeted.effect {s t : Realtime} {a : Action} (hi : s.Inv) (hg : s.Greeted) (hq : s.FindsGreeted a)
    (h : Effect cfg s a t) : t.Greeted := by
  cases h with
  | create hstage henqueued hlinks hsends =>
      intro p hp link hlink
      rw [hsends] at hp
      obtain ⟨-, other, hother, -⟩ := hi.held p hp
      have hlt := (List.getElem?_eq_some_iff.mp hother).1
      rw [hlinks, List.getElem?_append_left hlt] at hlink
      exact hg p hp link hlink
  | own ha hc he hlinks hsends hheld =>
      intro p hp link hlink
      rw [hsends] at hp
      rw [hlinks] at hlink
      exact greeted_set hg hc he.late hp hlink
  | @found a t userId c found env ha hto hfound hne hc hv hlinks hsends =>
      intro p hp link hlink
      rw [hlinks] at hlink
      rw [hsends] at hp
      rcases List.mem_append.mp hp with hp | hp
      · exact hg p hp link hlink
      · rw [List.mem_singleton.mp hp, hc] at hlink
        cases hlink
        have hstage : found.stage ≠ .registered := hq userId hto c hfound found hc
        rcases hv with hv | hv
        · exact absurd hv hstage
        · simp [LinkStage.Early, hv]
  | missed => exact hg
  | @broadcast n c env link next hn hc he =>
      intro p hp other hother
      refine greeted_set hg hc ?_ (List.mem_of_mem_eraseIdx hp) hother
      rw [he.stage]
      exact id

theorem Greeted.enqueuesAfter {s : Realtime} (hg : s.Greeted) (a : Action) : s.EnqueuesAfterAuthState cfg a := by
  cases a with
  | enqueue n =>
      intro c env link hn hc _
      exact hg (c, env) (List.mem_of_getElem? hn) link hc
  | _ => trivial

/-- Every connection of a run gets its auth_state first if no broadcast and no
error finds it between Register and SendAuthState. -/
theorem firstIsAuthState_of_findsGreeted {cfg : RealtimeConfig} {as : List Action}
    (h : (machine cfg).Obeys FindsGreeted {} as) : (machine cfg).Always FirstIsAuthState {} as := by
  refine h.always (I := fun s => s.Inv ∧ s.Greeted ∧ s.FirstIsAuthState) ?_ (fun s hs => hs.2.2) ?_
  · rintro s a t ⟨hi, hg, hf⟩ hq hs
    have he := effect_of_step hs
    exact ⟨hi.effect he, hg.effect hi hq he, (firstIsAuthState_effect hi hf he).mpr (hg.enqueuesAfter a)⟩
  · exact ⟨inv_empty, fun p hp => by simp at hp, fun c link hc => by simp at hc⟩

def plainConfig : RealtimeConfig where
  maxQueueMessages := 8
  maxQueueBytes := 64
  payload _ := .object []
  dump _ := [0]

theorem firstIsAuthState_of_findsGreeted_reconnect : (machine plainConfig).Always FirstIsAuthState {}
    [.create ⟨1, "kim"⟩, .issueToken 0 "a", .register 0, .sendAuthState 0, .create ⟨1, "kim"⟩, .issueToken 1 "b",
      .sendEventToUser 1 (.state "session-1" 4 [] 0), .register 1, .enqueue 0, .sendAuthState 1,
      .sendEventToUser 1 (.state "session-1" 5 [] 0), .enqueue 0] :=
  firstIsAuthState_of_findsGreeted (by decide)

/-- User 1 connects again while a session.state is sent to them: it gets into
the queue of the new connection before auth_state. -/
theorem not_first_of_reconnect : ∃ s, (machine plainConfig).run
    [.create ⟨1, "kim"⟩, .issueToken 0 "a", .register 0, .sendAuthState 0,
      .create ⟨1, "kim"⟩, .issueToken 1 "b", .register 1, .sendEventToUser 1 (.state "session-1" 4 [] 0),
      .enqueue 0, .sendAuthState 1] = some s ∧
      (∃ link ∈ s.links[1]?, link.enqueued.map (·.event) = ["session.state", "auth_state"]) ∧
      ¬ s.FirstIsAuthState := by
  obtain ⟨s, hs, -, link, hlink, hevents⟩ := Machine.exists_of_run (M := machine plainConfig)
    [.create ⟨1, "kim"⟩, .issueToken 0 "a", .register 0, .sendAuthState 0,
      .create ⟨1, "kim"⟩, .issueToken 1 "b", .register 1, .sendEventToUser 1 (.state "session-1" 4 [] 0),
      .enqueue 0, .sendAuthState 1]
    (fun s => ∃ link ∈ s.links[1]?, link.enqueued.map (·.event) = ["session.state", "auth_state"]) (by decide)
  refine ⟨s, hs, ⟨link, hlink, hevents⟩, ?_⟩
  intro hfirst
  cases hq : link.enqueued with
  | nil => simp [hq] at hevents
  | cons env rest =>
      rw [hfirst 1 link hlink env (by simp [hq])] at hq
      rw [hq] at hevents
      simp [WsEnvelope.authState] at hevents

end Realtime

end GameServer
