import GameServer.DeliveryFeed

namespace GameServer

namespace App

variable {D : Type} {cfg : Config D} {net : RealtimeConfig}

def pending (w : App) (c : Nat) : List WsEnvelope :=
  (w.realtime.sends.filter fun p => p.1 = c ∧ p.2.FromSession).map (·.2)

theorem pending_eq_due {w : App} {u : Int} {f : Feed WsEnvelope} (h : Shows net u w f) {c : Nat}
    (hc : w.userAt c = some u) : w.pending c = f.due c := by
  have hsame : w.realtime.sends.filter (fun p => p.1 = c ∧ p.2.FromSession) =
      (w.waitingFor u).filter (fun p => p.1 = c) := by
    rw [waitingFor, List.filter_filter]
    apply List.filter_congr
    rintro ⟨d, env⟩ -
    by_cases hd : d = c
    · subst hd
      simp [isFor, hc]
    · simp [hd]
  rw [pending, hsame, h.waiting, Feed.due]
  cases f.waiting with
  | none => rfl
  | some p => by_cases hp : p.1 = c <;> simp [hp, Option.filter]

end App

def RealtimeConfig.text (net : RealtimeConfig) (env : WsEnvelope) : Message := net.dump (toWsJson env)

namespace Realtime

variable {net : RealtimeConfig}

/-- The connection of a link has accepted the texts of its envelopes. -/
structure Wired (net : RealtimeConfig) (link : Link) : Prop where
  inv : link.connection.Inv
  accepted : link.connection.accepted = link.enqueued.map net.text

theorem Wired.enqueueMessage {link next : Link} {env : WsEnvelope} (h : Wired net link)
    (he : Realtime.enqueueMessage net link env = some next) : Wired net next := by
  rw [Realtime.enqueueMessage] at he
  obtain ⟨connection, hs, rfl⟩ := Option.map_eq_some_iff.mp he
  refine ⟨h.inv.step hs, ?_⟩
  simp only [Connection.step, Option.some.injEq] at hs
  rw [← hs]
  by_cases ha : link.connection.ws.Accepts (net.dump (toWsJson env))
  · simp [ha, h.accepted, RealtimeConfig.text]
  · simp [ha, h.accepted]

theorem Wired.onWrite {link : Link} {connection : Connection} {ok : Bool} (h : Wired net link)
    (hs : link.connection.step (.onWrite ok) = some connection) : Wired net { link with connection := connection } := by
  refine ⟨h.inv.step hs, ?_⟩
  rw [← h.accepted]
  simp only [Connection.step] at hs
  split at hs <;> cases hs
  rfl

theorem wired_step {s t : Realtime} {a : Action} (hall : ∀ (c : Nat) (link : Link), s.links[c]? = some link →
    Wired net link) (h : step net s a = some t) : ∀ (c : Nat) (link : Link), t.links[c]? = some link →
      Wired net link := by
  have hset : ∀ {c : Nat} {link next : Link}, s.links[c]? = some link → Wired net next →
      ∀ (d : Nat) (other : Link), (s.links.set c next)[d]? = some other → Wired net other :=
    fun hc hnext => (forall_set_iff hc hall).mpr hnext
  cases a with
  | create user =>
      cases h
      exact forall_concat ⟨.idle rfl rfl rfl rfl rfl, rfl⟩ hall
  | issueToken c token =>
      obtain ⟨link, next, hc, -, hf, rfl⟩ := onLink_eq h
      cases hf
      exact hset hc ⟨(hall c link hc).inv, (hall c link hc).accepted⟩
  | register c =>
      obtain ⟨link, hc, h⟩ := Option.bind_eq_some_iff.mp h
      obtain ⟨u, hu, rfl⟩ := Option.map_eq_some_iff.mp h
      obtain ⟨next, -, hf, rfl⟩ := onLink_eq_of_some hc hu
      cases hf
      exact hset hc ⟨(hall c link hc).inv, (hall c link hc).accepted⟩
  | sendAuthState c =>
      obtain ⟨link, next, hc, -, hf, rfl⟩ := onLink_eq h
      obtain ⟨sent, hsent, rfl⟩ := Option.map_eq_some_iff.mp hf
      have hwired := (hall c link hc).enqueueMessage hsent
      exact hset hc ⟨hwired.inv, hwired.accepted⟩
  | reply c env =>
      obtain ⟨link, next, hc, -, hf, rfl⟩ := onLink_eq h
      exact hset hc ((hall c link hc).enqueueMessage hf)
  | sendEventToUser userId event | sendErrorToUser userId code message =>
      cases h
      rw [lookupAndLock]
      split
      next => exact hall
      next =>
        split
        next => exact hall
        next => split <;> exact hall
  | enqueue n =>
      obtain ⟨⟨c, env⟩, hn, h⟩ := Option.bind_eq_some_iff.mp h
      obtain ⟨link, hc, h⟩ := Option.bind_eq_some_iff.mp h
      obtain ⟨next, hnext, rfl⟩ := Option.map_eq_some_iff.mp h
      exact hset hc ((hall c link hc).enqueueMessage hnext)
  | onWrite c ok =>
      obtain ⟨link, hc, h⟩ := Option.bind_eq_some_iff.mp h
      obtain ⟨connection, hw, rfl⟩ := Option.map_eq_some_iff.mp h
      exact hset hc ((hall c link hc).onWrite hw)
  | release c =>
      simp only [step] at h
      split at h
      next => cases h
      next =>
        obtain ⟨link, next, hc, -, hf, rfl⟩ := onLink_eq h
        cases hf
        exact hset hc ⟨(hall c link hc).inv, (hall c link hc).accepted⟩
  | unregister c =>
      obtain ⟨link, hc, h⟩ := Option.bind_eq_some_iff.mp h
      obtain ⟨u, hu, rfl⟩ := Option.map_eq_some_iff.mp h
      obtain ⟨next, -, hf, rfl⟩ := onLink_eq_of_some hc hu
      cases hf
      rw [unregisterUser_links]
      exact hset hc ⟨(hall c link hc).inv, (hall c link hc).accepted⟩

theorem reachable_wired {s : Realtime} (h : (machine net).Reachable s) {c : Nat} {link : Link}
    (hc : s.links[c]? = some link) : Wired net link := by
  have hall : ∀ (c : Nat) (link : Link), s.links[c]? = some link → Wired net link := by
    refine h.induction (P := fun s => ∀ (c : Nat) (link : Link), s.links[c]? = some link → Wired net link) ?_
      fun _ _ _ _ hall hs => wired_step hall hs
    intro c link hc
    simp [machine] at hc
  exact hall c link hc

end Realtime

namespace App

variable {D : Type} {cfg : Config D} {net : RealtimeConfig}

def sentSince (net : RealtimeConfig) (w : App) (c : Nat) (link : Link) : List WsEnvelope :=
  ((w.server.eventsTo link.user.userId).drop (w.since c)).map net.envelope

/-- What a connection gets of the events of its user's sessions: they are handed
to async_write in order, from the first one after its registration on and
without a gap, and all of them get into the queue while it is the user's last
one and open. No event goes to two connections. -/
structure Delivered (net : RealtimeConfig) (w : App) (c : Nat) (link : Link) : Prop where
  wire : ∃ sent, sent <+: link.enqueued ∧ link.connection.handed = sent.map net.text
  window : link.sessionEvents <+: sentSince net w c link
  whole : w.realtime.connections.lookup link.user.userId = some c → link.stage.Visible →
    link.connection.ws.closing = false → link.sessionEvents ++ w.pending c = sentSince net w c link
  apart : ∀ (d : Nat) (other : Link), d ≠ c → w.realtime.links[d]? = some other → link.Joined → other.Joined →
    other.user.userId = link.user.userId →
      w.since c + link.sessionEvents.length ≤ w.since d ∨ w.since d + other.sessionEvents.length ≤ w.since c

theorem delivered {w : App} (h : (machine cfg net).Reachable w) {c : Nat} {link : Link}
    (hc : w.realtime.links[c]? = some link) : Delivered net w c link := by
  obtain ⟨-, hrealtime⟩ := reachable_parts h
  have hwired := Realtime.reachable_wired hrealtime hc
  have hi : w.realtime.Inv := hrealtime.induction Realtime.inv_empty
    fun _ _ _ _ hi hs => hi.effect (Realtime.effect_of_step hs)
  obtain ⟨f, hf, hshow⟩ := shows_reachable h link.user.userId
  have hreader : ∀ (d : Nat) (other : Link), w.realtime.links[d]? = some other → other.Joined →
      other.user.userId = link.user.userId → f.readers d = {
        joined := true, since := w.since d, received := other.sessionEvents,
        shut := other.connection.ws.closing, gone := !decide other.stage.Visible } := by
    intro d other hd hj hu
    rw [hshow.readers, reader_of_link hd, readerOf, if_pos ⟨hu, hj⟩]
  have hwindow : link.Joined → f.window c = sentSince net w c link := by
    intro hj
    rw [Feed.window, hshow.published, hreader c link hc hj rfl, sentSince, List.map_drop]
  constructor
  · refine ⟨link.enqueued.take link.connection.handed.length, List.take_prefix _ _, ?_⟩
    rw [List.map_take, ← hwired.accepted]
    exact List.prefix_iff_eq_take.mp hwired.inv.handed
  · by_cases hj : link.Joined
    · have hreceived := hf.received c
      rw [hwindow hj, hreader c link hc hj rfl] at hreceived
      exact hreceived rfl
    · have hstage : link.stage = .created ∨ link.stage = .issued := by
        by_contra hno
        exact hj ⟨fun h => hno (Or.inl h), fun h => hno (Or.inr h)⟩
      rw [Link.sessionEvents, (hi.sound c link hc).quiet hstage]
      exact List.nil_prefix
  · intro hcurrent hv hopen
    have hj : link.Joined := by rcases hv with hv | hv <;> simp [Link.Joined, hv]
    have hwhole := hf.whole c (hshow.current.trans hcurrent)
    rw [hwindow hj, hreader c link hc hj rfl, ← pending_eq_due hshow (by rw [userAt, hc]; rfl)] at hwhole
    exact hwhole (by simpa using hv) hopen
  · intro d other hne hd hj hjd hu
    have hapart := hf.apart c d (Ne.symm hne)
    simp only [Feed.Apart, Feed.reach, hreader c link hc hj rfl, hreader d other hd hjd hu] at hapart
    have := hapart trivial trivial
    omega

/-- User 1 connects and plays with user 2, who does not. Of the two events sent
so far one is in the queue, behind auth_state, and one is on its way. -/
theorem delivered_of_play : ∃ w link, (machine (Server.evenConfig 1) Realtime.plainConfig).run
    ([.link (.create ⟨1, "kim"⟩), .link (.issueToken 0 "a"), .link (.register 0), .link (.sendAuthState 0)] ++
      (Server.matchActions ⟨1, "kim"⟩ ⟨2, "lee"⟩).map .server ++
      [.server (.startSession 0 0), .server (.proceed 0), .link (.enqueue 0), .server (.proceed 0),
        .server (.proceed 0)]) = some w ∧
    w.realtime.links[0]? = some link ∧ link.enqueued.map (·.event) = ["auth_state", "session.created"] ∧
    (w.pending 0).map (·.event) = ["session.started"] ∧ link.connection.ws.closing = false ∧
    Delivered Realtime.plainConfig w 0 link := by
  obtain ⟨w, hw, hr, link, hlink, hevents, hpending, hopen⟩ := Machine.exists_of_run
    (M := machine (Server.evenConfig 1) Realtime.plainConfig)
    ([.link (.create ⟨1, "kim"⟩), .link (.issueToken 0 "a"), .link (.register 0), .link (.sendAuthState 0)] ++
      (Server.matchActions ⟨1, "kim"⟩ ⟨2, "lee"⟩).map .server ++
      [.server (.startSession 0 0), .server (.proceed 0), .link (.enqueue 0), .server (.proceed 0),
        .server (.proceed 0)])
    (fun w => ∃ link ∈ w.realtime.links[0]?, link.enqueued.map (·.event) = ["auth_state", "session.created"] ∧
      (w.pending 0).map (·.event) = ["session.started"] ∧ link.connection.ws.closing = false) (by decide)
  exact ⟨w, link, hw, hlink, hevents, hpending, hopen, delivered hr hlink⟩

end App

end GameServer
