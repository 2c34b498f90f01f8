import GameServer.Delivery
import Mathlib.Data.List.Forall2

namespace GameServer

section EraseIdx

variable {α β : Type} {l : List α} {n : Nat} {a : α} {p : α → Bool}

theorem split_at_getElem? (h : l[n]? = some a) : l = l.take n ++ a :: l.drop (n + 1) := by
  obtain ⟨hn, rfl⟩ := List.getElem?_eq_some_iff.mp h
  rw [← List.drop_eq_getElem_cons hn, List.take_append_drop]

theorem filter_eraseIdx_of_neg (h : l[n]? = some a) (hp : p a = false) : (l.eraseIdx n).filter p = l.filter p := by
  conv => rhs; rw [split_at_getElem? h]
  rw [List.eraseIdx_eq_take_drop_succ, List.filter_append, List.filter_append, List.filter_cons_of_neg (by simp [hp])]

theorem filter_eraseIdx_of_pos {x : Option α} (h : l[n]? = some a) (hp : p a = true) (hx : l.filter p = x.toList) :
    x = some a ∧ (l.eraseIdx n).filter p = [] := by
  rw [split_at_getElem? h, List.filter_append, List.filter_cons_of_pos hp] at hx
  rw [List.eraseIdx_eq_take_drop_succ, List.filter_append]
  cases x with
  | none => simp at hx
  | some b =>
      have hone := congrArg List.length hx
      simp only [List.length_append, List.length_cons, Option.toList_some, List.length_nil] at hone
      have hfront : (l.take n).filter p = [] := List.eq_nil_of_length_eq_zero (by omega)
      have hback : (l.drop (n + 1)).filter p = [] := List.eq_nil_of_length_eq_zero (by omega)
      rw [hfront, hback] at hx ⊢
      simpa [eq_comm] using hx

theorem forall₂_eraseIdx {R : α → β → Prop} {m : List β} (h : List.Forall₂ R l m) (n : Nat) :
    List.Forall₂ R (l.eraseIdx n) (m.eraseIdx n) := by
  rw [List.eraseIdx_eq_take_drop_succ, List.eraseIdx_eq_take_drop_succ]
  exact List.rel_append (List.forall₂_take n h) (List.forall₂_drop (n + 1) h)

theorem exists_left_of_mem {R : α → β → Prop} {m : List β} (h : List.Forall₂ R l m) {b : β} (hb : b ∈ m) :
    ∃ a ∈ l, R a b := by
  induction h with
  | nil => cases hb
  | cons hab _ ih =>
      rcases List.mem_cons.mp hb with rfl | hb
      · exact ⟨_, List.mem_cons_self, hab⟩
      · obtain ⟨a, ha, hr⟩ := ih hb
        exact ⟨a, List.mem_cons_of_mem _ ha, hr⟩

end EraseIdx

namespace App

variable {D : Type} {cfg : Config D} {net : RealtimeConfig}

def enqueued (w : App) (n c : Nat) (next : Link) : App :=
  { w with
    realtime := { w.realtime with links := w.realtime.links.set c next, sends := w.realtime.sends.eraseIdx n }
    callers := w.callers.eraseIdx n }

inductive Effect (net : RealtimeConfig) (w : App) : App → Prop
  | server {s : Server} (hlog : s.log = w.server.log)
      (hkeep : ∀ k, some k ∈ w.callers → ∀ ctx, w.server.contexts[k]? = some ctx → ¬ ctx.strand.Free →
        s.contexts[k]? = some ctx) : Effect net w { w with server := s }
  | send {k : Nat} {ctx : SessionContext} {userId : Int} {event : SessionEvent} {rest : List (Int × SessionEvent)}
      (hk : w.server.contexts[k]? = some ctx) (hs : ctx.strand.sends = (userId, event) :: rest)
      (hidle : some k ∉ w.callers) :
      Effect net w (({ w with server := { w.server.setContext k ctx.sent with
        log := w.server.log ++ [(userId, event)] } } : App).send (some k) userId (net.envelope event))
  | error (userId : Int) (code message : String) :
      Effect net w (w.send none userId (.serverError code message))
  | enqueue {n c : Nat} {env : WsEnvelope} {link next : Link} (hn : w.realtime.sends[n]? = some (c, env))
      (hc : w.realtime.links[c]? = some link) (he : Realtime.enqueueMessage net link env = some next) :
      Effect net w (w.enqueued n c next)
  | register {c : Nat} {link : Link} (hc : w.realtime.links[c]? = some link) (hstage : link.stage = .issued) :
      Effect net w { w with
        realtime := ({ w.realtime with
          links := w.realtime.links.set c { link with stage := .registered } } : Realtime).registerUser
            link.user.userId c
        since := Function.update w.since c (w.server.eventsTo link.user.userId).length }
  | link {r : Realtime} (h : Realtime.LinkTurn w.realtime r) : Effect net w { w with realtime := r }

theorem effect_of_step {w x : App} {a : Action} (h : w.step cfg net a = some x) : Effect net w x := by
  cases a with
  | server a =>
      cases a with
      | proceed k =>
          simp only [step] at h
          split at h
          next => cases h
          next hidle =>
            obtain ⟨s, hs, rfl⟩ := Option.map_eq_some_iff.mp h
            obtain ⟨ctx, hk, hp⟩ := Option.bind_eq_some_iff.mp hs
            cases hsends : ctx.strand.sends with
            | nil =>
                simp only [hk, hsends, Option.bind_some, List.head?_nil]
                refine .server (Server.log_of_proceed hp hsends) ?_
                intro j hj other hother hbusy
                refine Server.step_busy hs hother hbusy ?_
                rintro ⟨⟩
                exact hidle hj
            | cons first rest =>
                obtain ⟨userId, event⟩ := first
                simp only [Server.proceed, hsends, Option.some.injEq] at hp
                subst hp
                simp only [hk, hsends, Option.bind_some, List.head?_cons]
                exact .send hk hsends hidle
      | _ =>
          simp only [step, Option.map_eq_some_iff] at h
          obtain ⟨s, hs, rfl⟩ := h
          exact .server (Server.log_of_step hs (by simp))
            (fun k _ ctx hk hbusy => Server.step_busy hs hk hbusy (by simp))
  | link a =>
      cases a with
      | sendEventToUser userId event => cases h
      | sendErrorToUser userId code message =>
          cases h
          exact .error userId code message
      | enqueue n =>
          obtain ⟨r, hr, rfl⟩ := Option.map_eq_some_iff.mp h
          obtain ⟨⟨c, env⟩, hn, hr⟩ := Option.bind_eq_some_iff.mp hr
          obtain ⟨link, hc, hr⟩ := Option.bind_eq_some_iff.mp hr
          obtain ⟨next, he, rfl⟩ := Option.map_eq_some_iff.mp hr
          exact .enqueue hn hc he
      | reply c env =>
          simp only [step] at h
          split at h
          next => cases h
          next hno =>
            obtain ⟨r, hr, rfl⟩ := Option.map_eq_some_iff.mp h
            exact .link (Realtime.linkTurn_of_step hr hno)
      | register c =>
          obtain ⟨r, hr, rfl⟩ := Option.map_eq_some_iff.mp h
          obtain ⟨link, hc, hr⟩ := Option.bind_eq_some_iff.mp hr
          obtain ⟨u, hu, rfl⟩ := Option.map_eq_some_iff.mp hr
          obtain ⟨next, hstage, hf, rfl⟩ := Realtime.onLink_eq_of_some hc hu
          cases hf
          rw [hc]
          exact .register hc hstage
      | _ =>
          simp only [step, Option.map_eq_some_iff] at h
          obtain ⟨r, hr, rfl⟩ := h
          exact .link (Realtime.linkTurn_of_step hr trivial)

theorem send_cases (w : App) (caller : Option Nat) (userId : Int) (env : WsEnvelope) :
    (w.send caller userId env = w ∧ ∀ c link, w.realtime.connections.lookup userId = some c →
        w.realtime.links[c]? = some link → ¬ link.stage.Visible) ∨
      ∃ c link, w.realtime.connections.lookup userId = some c ∧ w.realtime.links[c]? = some link ∧
        link.stage.Visible ∧ w.send caller userId env = { w with
          realtime := { w.realtime with sends := w.realtime.sends ++ [(c, env)] }
          callers := w.callers ++ [caller] } := by
  cases hc : w.realtime.connections.lookup userId with
  | none =>
      refine Or.inl ⟨?_, by simp⟩
      simp [send, Realtime.lookupAndLock, hc]
  | some c =>
      cases hl : w.realtime.links[c]? with
      | none =>
          refine Or.inl ⟨by simp [send, Realtime.lookupAndLock, hc, hl], ?_⟩
          intro d link hd hlink
          cases hd
          rw [hl] at hlink
          cases hlink
      | some link =>
          by_cases hv : link.stage.Visible
          · refine Or.inr ⟨c, link, rfl, hl, hv, ?_⟩
            simp [send, Realtime.lookupAndLock, hc, hl, hv]
          · refine Or.inl ⟨?_, ?_⟩
            · simp [send, Realtime.lookupAndLock, hc, hl, hv]
            · intro d other hd hother
              cases hd
              rw [hl] at hother
              cases hother
              exact hv

theorem parts_of_step {w x : App} {a : Action} (h : w.step cfg net a = some x) :
    (x.server = w.server ∨ ∃ b, w.server.step cfg b = some x.server) ∧
      (x.realtime = w.realtime ∨ ∃ b, w.realtime.step net b = some x.realtime) := by
  cases a with
  | server a =>
      cases a with
      | proceed k =>
          simp only [step] at h
          split at h
          next => cases h
          next =>
            obtain ⟨s, hs, rfl⟩ := Option.map_eq_some_iff.mp h
            split
            next userId event _ => exact ⟨Or.inr ⟨_, hs⟩, Or.inr ⟨.sendEventToUser userId event, rfl⟩⟩
            next => exact ⟨Or.inr ⟨_, hs⟩, Or.inl rfl⟩
      | _ =>
          simp only [step, Option.map_eq_some_iff] at h
          obtain ⟨s, hs, rfl⟩ := h
          exact ⟨Or.inr ⟨_, hs⟩, Or.inl rfl⟩
  | link a =>
      cases a with
      | sendEventToUser userId event => cases h
      | sendErrorToUser userId code message =>
          cases h
          exact ⟨Or.inl rfl, Or.inr ⟨.sendErrorToUser userId code message, rfl⟩⟩
      | reply c env =>
          simp only [step] at h
          split at h
          next => cases h
          next =>
            obtain ⟨r, hr, rfl⟩ := Option.map_eq_some_iff.mp h
            exact ⟨Or.inl rfl, Or.inr ⟨_, hr⟩⟩
      | _ =>
          simp only [step, Option.map_eq_some_iff] at h
          obtain ⟨r, hr, rfl⟩ := h
          exact ⟨Or.inl rfl, Or.inr ⟨_, hr⟩⟩

theorem reachable_parts {w : App} (h : (machine cfg net).Reachable w) :
    (Server.machine cfg).Reachable w.server ∧ (Realtime.machine net).Reachable w.realtime := by
  refine h.induction (P := fun w => (Server.machine cfg).Reachable w.server ∧
    (Realtime.machine net).Reachable w.realtime) ⟨.init, .init⟩ ?_
  rintro w a x - ⟨hserver, hrealtime⟩ hs
  obtain ⟨hserver', hrealtime'⟩ := parts_of_step hs
  constructor
  · rcases hserver' with he | ⟨b, hb⟩
    · rwa [he]
    · exact hserver.step hb
  · rcases hrealtime' with he | ⟨b, hb⟩
    · rwa [he]
    · exact hrealtime.step hb

def userAt (w : App) (c : Nat) : Option Int := w.realtime.links[c]?.map (·.user.userId)

def Call (w : App) : Option Nat → Nat × WsEnvelope → Prop
  | none, p => ¬ p.2.FromSession
  | some k, p => ∃ (ctx : SessionContext) (u : Int), w.server.contexts[k]? = some ctx ∧ ¬ ctx.strand.Free ∧
      w.userAt p.1 = some u ∧ u ∈ ctx.userIds

def Calls (w : App) : Prop := List.Forall₂ w.Call w.callers w.realtime.sends

theorem userAt_set {w : App} {c : Nat} {link next : Link} (hc : w.realtime.links[c]? = some link)
    (hu : next.user = link.user) {x : App} (hx : x.realtime.links = w.realtime.links.set c next) :
    x.userAt = w.userAt := by
  funext d
  rw [userAt, userAt, ← List.getElem?_map, ← List.getElem?_map, hx]
  exact congrArg (·[d]?) (Realtime.map_set_of_eq hc (by rw [hu]))

theorem userAt_concat {w : App} {link : Link} {x : App} (hx : x.realtime.links = w.realtime.links ++ [link]) {c : Nat}
    {u : Int} (hc : w.userAt c = some u) : x.userAt c = some u := by
  obtain ⟨other, hother, rfl⟩ := Option.map_eq_some_iff.mp hc
  have hlt := (List.getElem?_eq_some_iff.mp hother).1
  rw [userAt, hx, List.getElem?_append_left hlt, hother]
  rfl

theorem Call.mono {w x : App} {caller : Option Nat} {p : Nat × WsEnvelope} (h : w.Call caller p)
    (hcontexts : ∀ k, caller = some k → ∀ ctx, w.server.contexts[k]? = some ctx → ¬ ctx.strand.Free →
      x.server.contexts[k]? = some ctx)
    (husers : ∀ u, w.userAt p.1 = some u → x.userAt p.1 = some u) : x.Call caller p := by
  cases caller with
  | none => exact h
  | some k =>
      obtain ⟨ctx, u, hk, hbusy, hu, hin⟩ := h
      exact ⟨ctx, u, hcontexts k rfl ctx hk hbusy, hbusy, husers u hu, hin⟩

theorem Calls.mono {w x : App} (h : w.Calls) (hcallers : x.callers = w.callers)
    (hsends : x.realtime.sends = w.realtime.sends)
    (hcontexts : ∀ k, some k ∈ w.callers → ∀ ctx, w.server.contexts[k]? = some ctx → ¬ ctx.strand.Free →
      x.server.contexts[k]? = some ctx)
    (husers : ∀ c u, w.userAt c = some u → x.userAt c = some u) : x.Calls := by
  rw [Calls, hcallers, hsends]
  have hmem : List.Forall₂ (fun caller p => caller ∈ w.callers ∧ w.Call caller p) w.callers w.realtime.sends := by
    refine (List.forall₂_iff_get.mpr ⟨h.length_eq, ?_⟩)
    intro i hi hi'
    exact ⟨List.get_mem _ _, h.get hi hi'⟩
  refine hmem.imp ?_
  rintro caller p ⟨hin, hcall⟩
  exact hcall.mono (fun k hk => hcontexts k (hk ▸ hin)) (husers p.1)

theorem not_free_sent {ctx : SessionContext} (hs : ctx.Sound) (h : ctx.strand.sends ≠ []) : ¬ ctx.sent.strand.Free := by
  intro hfree
  exact hs.busy h hfree.2

theorem Calls.send {w : App} (h : w.Calls) {caller : Option Nat} {userId : Int} {env : WsEnvelope}
    (hcall : ∀ c, w.userAt c = some userId → w.Call caller (c, env))
    (huser : ∀ c, w.realtime.connections.lookup userId = some c → w.userAt c = some userId) :
    (w.send caller userId env).Calls := by
  rcases w.send_cases caller userId env with ⟨hsame, -⟩ | ⟨c, link, hc, -, -, hsend⟩
  · rw [hsame]
    exact h
  · rw [hsend]
    exact List.rel_append h (.cons (hcall c (huser c hc)) .nil)

theorem userAt_of_lookup {w : App} (hr : (Realtime.machine net).Reachable w.realtime) {userId : Int} {c : Nat}
    (hc : w.realtime.connections.lookup userId = some c) : w.userAt c = some userId := by
  obtain ⟨link, hlink, huser, -⟩ := Realtime.joined_of_lookup hr hc
  rw [userAt, hlink, Option.map_some, huser]

theorem Calls.effect {w x : App} (h : w.Calls) (hs : (Server.machine cfg).Reachable w.server)
    (hr : (Realtime.machine net).Reachable w.realtime) (he : Effect net w x) : x.Calls := by
  cases he with
  | server hlog hkeep => exact h.mono rfl rfl hkeep (fun _ _ hu => hu)
  | @send k ctx userId event rest hk hsends hidle =>
      have hne : ctx.strand.sends ≠ [] := hsends ▸ List.cons_ne_nil _ _
      have hsound := (Server.reachable_inv hs).sound k ctx hk
      have hin : userId ∈ ctx.userIds := Server.reachable_receivers hs hk (e := (userId, event)) (by simp [hsends])
      refine Calls.send ?_ ?_ ?_
      · refine h.mono rfl rfl ?_ (fun _ _ hu => hu)
        intro j hj other hother _
        exact getElem?_set_of_ne hother (by rintro rfl; exact hidle hj)
      · intro c hc
        exact ⟨ctx.sent, userId, getElem?_set_of_eq hk, not_free_sent hsound hne, hc, hin⟩
      · intro c hc
        exact userAt_of_lookup (w := w) hr hc
  | error userId code message =>
      refine h.send ?_ (fun c hc => userAt_of_lookup hr hc)
      intro c _
      simp [Call, WsEnvelope.serverError, WsEnvelope.error, WsEnvelope.FromSession, sessionEventNames]
  | @enqueue n c env link next hn hc he =>
      have husers : (w.enqueued n c next).userAt = w.userAt :=
        userAt_set hc (Realtime.standing_enqueueMessage he).1 rfl
      refine (forall₂_eraseIdx h n).imp ?_
      intro caller p hcall
      exact hcall.mono (fun _ _ _ hk _ => hk) (fun u hu => by rw [husers]; exact hu)
  | @register c link hc hstage =>
      have huser : ({ link with stage := .registered } : Link).user = link.user := rfl
      refine h.mono rfl rfl (fun _ _ _ hk _ => hk) ?_
      intro d u hu
      rw [userAt_set hc huser (by rfl)]
      exact hu
  | link hturn =>
      cases hturn with
      | create hnew hlinks hconnections hsends =>
          exact h.mono rfl hsends (fun _ _ _ hk _ => hk) (fun c u hu => userAt_concat hlinks hu)
      | change hc hf hlinks _ hsends | unregister hc hf hlinks _ _ hsends =>
          refine h.mono rfl hsends (fun _ _ _ hk _ => hk) ?_
          intro d u hu
          rw [userAt_set hc hf.user hlinks]
          exact hu

theorem reachable_calls {w : App} (h : (machine cfg net).Reachable w) : w.Calls := by
  refine h.induction (P := Calls) (show (machine cfg net).init.Calls from List.Forall₂.nil) ?_
  intro w a x hr hw hs
  obtain ⟨hserver, hrealtime⟩ := reachable_parts hr
  exact hw.effect hserver hrealtime (effect_of_step hs)

def isFor (w : App) (u : Int) (p : Nat × WsEnvelope) : Bool := p.2.FromSession ∧ w.userAt p.1 = some u

def waitingFor (w : App) (u : Int) : List (Nat × WsEnvelope) := w.realtime.sends.filter (w.isFor u)

def readerOf (u : Int) (since : Nat) (link : Link) : Reader WsEnvelope :=
  if link.user.userId = u ∧ link.Joined then
    { joined := true
      since := since
      received := link.sessionEvents
      shut := link.connection.ws.closing
      gone := !decide link.stage.Visible }
  else {}

def reader (w : App) (u : Int) (c : Nat) : Reader WsEnvelope := w.realtime.links[c]?.elim {} (readerOf u (w.since c))

/-- The feed of one user. -/
structure Shows (net : RealtimeConfig) (u : Int) (w : App) (f : Feed WsEnvelope) : Prop where
  published : f.published = (w.server.eventsTo u).map net.envelope
  current : f.current = w.realtime.connections.lookup u
  waiting : w.waitingFor u = f.waiting.toList
  readers : f.readers = w.reader u

theorem readerOf_fade {u : Int} {since : Nat} {link next : Link} (h : Realtime.Fades link next) :
    readerOf u since next = if link.user.userId = u ∧ link.Joined then
      (readerOf u since link).fade next.connection.ws.closing (!decide next.stage.Visible)
    else readerOf u since link := by
  by_cases hj : link.user.userId = u ∧ link.Joined
  · have hnext : next.user.userId = u ∧ next.Joined := ⟨by rw [h.user]; exact hj.1, h.joined.mpr hj.2⟩
    have hshut : (link.connection.ws.closing || next.connection.ws.closing) = next.connection.ws.closing := by
      rw [Bool.or_eq_right_iff_imp]
      exact h.shut
    have hgone : (!decide link.stage.Visible || !decide next.stage.Visible) = !decide next.stage.Visible := by
      rw [Bool.or_eq_right_iff_imp]
      simpa using h.gone hj.2
    simp only [readerOf, if_pos hj, if_pos hnext, Reader.fade, h.events, hshut, hgone]
  · have hnext : ¬ (next.user.userId = u ∧ next.Joined) := by rwa [h.user, h.joined]
    simp only [readerOf, if_neg hj, if_neg hnext]

theorem reader_set {w x : App} {c : Nat} {link next : Link} (hc : w.realtime.links[c]? = some link)
    (hx : x.realtime.links = w.realtime.links.set c next) (hsince : x.since = w.since) (u : Int) :
    x.reader u = Function.update (w.reader u) c (readerOf u (w.since c) next) := by
  funext d
  rw [reader, hx, hsince, getElem?_set_of_some hc]
  by_cases hd : d = c
  · subst hd
    simp
  · rw [if_neg hd, Function.update_of_ne hd]
    rfl

theorem reader_enqueued {w : App} {n c : Nat} {link next : Link} (hc : w.realtime.links[c]? = some link) (u : Int) :
    (w.enqueued n c next).reader u = Function.update (w.reader u) c (readerOf u (w.since c) next) :=
  reader_set (x := w.enqueued n c next) hc rfl rfl u

theorem reader_of_link {w : App} {c : Nat} {link : Link} (hc : w.realtime.links[c]? = some link) (u : Int) :
    w.reader u c = readerOf u (w.since c) link := by
  rw [reader, hc]
  rfl

theorem Shows.fade {u : Int} {w x : App} {f : Feed WsEnvelope} (h : Shows net u w f) {c : Nat} {link next : Link}
    (hc : w.realtime.links[c]? = some link) (hf : Realtime.Fades link next)
    (hlinks : x.realtime.links = w.realtime.links.set c next) (hsince : x.since = w.since)
    (hserver : x.server = w.server) (hconnections : x.realtime.connections = w.realtime.connections)
    (hwaiting : x.waitingFor u = w.waitingFor u) : ∃ g, (Feed.machine WsEnvelope).Leads f g ∧ Shows net u x g := by
  have hreader := reader_set hc hlinks hsince u
  rw [readerOf_fade hf, ← reader_of_link hc] at hreader
  by_cases hj : link.user.userId = u ∧ link.Joined
  · rw [if_pos hj, ← h.readers] at hreader
    refine ⟨_, .of_step (a := .fade c next.connection.ws.closing (!decide next.stage.Visible)) rfl, ?_⟩
    exact ⟨by rw [hserver]; exact h.published, by rw [hconnections]; exact h.current, hwaiting.trans h.waiting,
      hreader.symm⟩
  · rw [if_neg hj, Function.update_eq_self] at hreader
    exact ⟨f, .refl f, by rw [hserver]; exact h.published, by rw [hconnections]; exact h.current,
      hwaiting.trans h.waiting, by rw [hreader]; exact h.readers⟩

theorem isFor_congr {w x : App} (h : x.userAt = w.userAt) (u : Int) : x.isFor u = w.isFor u := by
  funext p
  rw [isFor, isFor, h]

theorem waitingFor_congr {u : Int} {w x : App} (hsends : x.realtime.sends = w.realtime.sends)
    (husers : x.userAt = w.userAt) : x.waitingFor u = w.waitingFor u := by
  rw [waitingFor, waitingFor, hsends, isFor_congr husers]

theorem waitingFor_nil {w : App} (hs : (Server.machine cfg).Reachable w.server) (hcalls : w.Calls) {k : Nat}
    {ctx : SessionContext} (hk : w.server.contexts[k]? = some ctx) (hbusy : ¬ ctx.strand.Free) {u : Int}
    (hu : u ∈ ctx.userIds) (hidle : some k ∉ w.callers) : w.waitingFor u = [] := by
  apply List.filter_eq_nil_iff.mpr
  rintro p hp hmatch
  simp only [isFor, decide_eq_true_eq] at hmatch
  obtain ⟨caller, hcaller, hcall⟩ := exists_left_of_mem hcalls hp
  cases caller with
  | none => exact hcall hmatch.1
  | some j =>
      obtain ⟨other, v, hj, hother, hv, hin⟩ := hcall
      rw [hmatch.2] at hv
      cases hv
      have hsame := (Server.reachable_inv hs).owner_unique hk hj (fun hf => hbusy hf.2) (fun hf => hother hf.2) hu hin
      exact hidle (hsame ▸ hcaller)

theorem waitingFor_send {w : App} {c : Nat} {env : WsEnvelope} {caller : Option Nat} (u : Int) :
    ({ w with
      realtime := { w.realtime with sends := w.realtime.sends ++ [(c, env)] }
      callers := w.callers ++ [caller] } : App).waitingFor u =
        w.waitingFor u ++ if env.FromSession ∧ w.userAt c = some u then [(c, env)] else [] := by
  refine (List.filter_append _ _).trans (congrArg (w.waitingFor u ++ ·) ?_)
  by_cases hp : env.FromSession ∧ w.userAt c = some u
  · rw [if_pos hp, List.filter_cons_of_pos (by simpa [isFor, userAt] using hp), List.filter_nil]
  · rw [if_neg hp, List.filter_cons_of_neg (by simpa [isFor, userAt] using hp), List.filter_nil]

theorem Shows.other {u : Int} {w : App} {f : Feed WsEnvelope} (h : Shows net u w f)
    (hr : (Realtime.machine net).Reachable w.realtime) (caller : Option Nat) {userId : Int} {env : WsEnvelope}
    (hother : env.FromSession → userId ≠ u) : Shows net u (w.send caller userId env) f := by
  rcases w.send_cases caller userId env with ⟨hsame, -⟩ | ⟨c, link, hc, -, -, hsend⟩
  · rw [hsame]
    exact h
  · rw [hsend]
    refine ⟨h.published, h.current, ?_, h.readers⟩
    rw [waitingFor_send, if_neg, List.append_nil, h.waiting]
    rintro ⟨hfrom, huser⟩
    rw [userAt_of_lookup hr hc] at huser
    exact hother hfrom (Option.some.inj huser)

theorem Shows.publish {w : App} {userId : Int} {f : Feed WsEnvelope} (h : Shows net userId w f)
    (hr : (Realtime.machine net).Reachable w.realtime) (hnone : w.waitingFor userId = []) (caller : Option Nat)
    {s : Server} {event : SessionEvent} (hlog : s.log = w.server.log ++ [(userId, event)]) :
    ∃ g, (Feed.machine WsEnvelope).Leads f g ∧
      Shows net userId (({ w with server := s } : App).send caller userId (net.envelope event)) g := by
  have hwaiting : f.waiting = none := by
    have hlist := h.waiting.symm.trans hnone
    cases hw : f.waiting with
    | none => rfl
    | some e => simp [hw] at hlist
  have hpublished : (s.eventsTo userId).map net.envelope = f.published ++ [net.envelope event] := by
    rw [Server.eventsTo_send hlog, if_pos rfl, List.map_append, h.published]
    rfl
  refine ⟨_, .of_step (a := .publish (net.envelope event)) (if_neg (by simp [hwaiting])), ?_⟩
  rcases ({ w with server := s } : App).send_cases caller userId (net.envelope event) with
    ⟨hsame, hgone⟩ | ⟨c, link, hc, hlink, hv, hsend⟩
  · have hreceiver : f.receiver = none := by
      rw [Feed.receiver, h.current, Option.filter_eq_none_iff]
      intro c hc
      obtain ⟨link, hlink, huser, hj⟩ := Realtime.joined_of_lookup hr hc
      have hno := hgone c link hc hlink
      simp [h.readers, reader_of_link hlink, readerOf, huser, hj, hno]
    rw [hsame]
    exact ⟨hpublished.symm, h.current, by rw [hreceiver]; exact hnone, h.readers⟩
  · obtain ⟨other, hother, huser, hj⟩ := Realtime.joined_of_lookup hr hc
    rw [hlink] at hother
    cases hother
    have hreceiver : f.receiver = some c := by
      rw [Feed.receiver, h.current, Option.filter_eq_some_iff]
      exact ⟨hc, by simp [h.readers, reader_of_link (w := w) hlink, readerOf, huser, hj, hv]⟩
    rw [hsend]
    refine ⟨hpublished.symm, h.current, ?_, h.readers⟩
    have huserAt : ({ w with server := s } : App).userAt c = some userId := userAt_of_lookup (w := w) hr hc
    rw [waitingFor_send, if_pos ⟨net.envelope_fromSession event, huserAt⟩, hreceiver]
    exact congrArg (· ++ [(c, net.envelope event)]) hnone

theorem isFor_enqueued {w : App} {n c : Nat} {link next : Link} (hc : w.realtime.links[c]? = some link)
    (hsame : next.user = link.user) {u : Int} : (w.enqueued n c next).isFor u = w.isFor u :=
  isFor_congr (userAt_set hc hsame rfl) u

theorem Shows.deliver {w : App} {u : Int} {f : Feed WsEnvelope} (h : Shows net u w f) {n c : Nat} {env : WsEnvelope}
    {link next : Link} (hn : w.realtime.sends[n]? = some (c, env)) (hc : w.realtime.links[c]? = some link)
    (hv : link.stage.Visible) (hfrom : env.FromSession) (huser : link.user.userId = u)
    (he : Realtime.enqueueMessage net link env = some next) :
    ∃ g, (Feed.machine WsEnvelope).Leads f g ∧ Shows net u (w.enqueued n c next) g := by
  obtain ⟨hsame, hstage⟩ := Realtime.standing_enqueueMessage he
  have hj : link.Joined := by
    rcases hv with hv | hv <;> simp [Link.Joined, hv]
  have hmatch : w.isFor u (c, env) = true := by
    simp [isFor, hfrom, userAt, hc, huser]
  obtain ⟨hwaiting, hempty⟩ := filter_eraseIdx_of_pos hn hmatch h.waiting
  have hold : w.reader u c = readerOf u (w.since c) link := reader_of_link hc u
  have hnext : readerOf u (w.since c) next =
      ((w.reader u c).take env (decide (link.connection.ws.Accepts (net.dump (toWsJson env))))).fade
        next.connection.ws.closing false := by
    have hjoined : next.user.userId = u ∧ next.Joined :=
      ⟨by rw [hsame]; exact huser, by rw [Link.Joined, hstage]; exact hj⟩
    have hclosing := Realtime.closing_enqueueMessage he
    rw [hold, readerOf, readerOf, if_pos hjoined, if_pos ⟨huser, hj⟩]
    cases Realtime.enqueueEffect_of_eq he with
    | accepted connection ha => simp [Reader.take, Reader.fade, ha, ha.1, Link.sessionEvents, hfrom]
    | dropped connection ha hshut => simp [Reader.take, Reader.fade, ha, hshut, Link.sessionEvents]
  obtain ⟨fits, hfits⟩ : ∃ fits, fits = decide (link.connection.ws.Accepts (net.dump (toWsJson env))) := ⟨_, rfl⟩
  rw [← hfits] at hnext
  have hdelivered : (Feed.machine WsEnvelope).step f (.deliver fits) = some { f with
      waiting := none, readers := Function.update f.readers c ((f.readers c).take env fits) } := by
    change Option.map _ f.waiting = _
    rw [hwaiting]
    rfl
  refine ⟨_, (Machine.Leads.of_step hdelivered).step (a := .fade c next.connection.ws.closing false) rfl, ?_⟩
  refine ⟨h.published, h.current, ?_, ?_⟩
  · rw [waitingFor, isFor_enqueued hc hsame]
    exact hempty
  · rw [reader_enqueued hc, hnext, ← h.readers]
    simp

theorem reader_concat {w x : App} {link : Link} (hnew : ¬ link.Joined)
    (hx : x.realtime.links = w.realtime.links ++ [link])
    (hsince : x.since = w.since) (u : Int) : x.reader u = w.reader u := by
  funext c
  rw [reader, hx, hsince, getElem?_concat_eq]
  split
  next hlen =>
    rw [reader, hlen, List.getElem?_eq_none (Nat.le_refl _)]
    exact if_neg fun hj => hnew hj.2
  next => rfl

theorem Shows.register {w x : App} {u : Int} {f : Feed WsEnvelope} (h : Shows net u w f) {c : Nat} {link next : Link}
    (hi : Realtime.SoundLink link) (hc : w.realtime.links[c]? = some link) (hstage : link.stage = .issued)
    (hnext : next = { link with stage := .registered }) (hlinks : x.realtime.links = w.realtime.links.set c next)
    (hsends : x.realtime.sends = w.realtime.sends)
    (hconnections : x.realtime.connections = w.realtime.connections.insert link.user.userId c)
    (hserver : x.server = w.server)
    (hsince : x.since = Function.update w.since c (w.server.eventsTo link.user.userId).length) :
    ∃ g, (Feed.machine WsEnvelope).Leads f g ∧ Shows net u x g := by
  have huser : next.user = link.user := by rw [hnext]
  have hwaiting : x.waitingFor u = w.waitingFor u := waitingFor_congr hsends (userAt_set hc huser hlinks)
  have hother : ∀ d, d ≠ c → x.reader u d = w.reader u d := by
    intro d hd
    rw [reader, hlinks, List.getElem?_set_ne (Ne.symm hd), hsince, Function.update_of_ne hd]
    rfl
  have hself : x.reader u c = readerOf u (w.server.eventsTo link.user.userId).length next := by
    rw [reader, hlinks, getElem?_set_of_eq hc, hsince, Function.update_self]
    rfl
  have hold : w.reader u c = {} := by
    rw [reader_of_link hc]
    exact if_neg fun hj => hj.2.2 hstage
  by_cases hu : link.user.userId = u
  · have hnew : readerOf u (w.server.eventsTo link.user.userId).length next =
        { joined := true, since := f.published.length, shut := link.connection.ws.closing } := by
      have hnothing : link.enqueued = [] := hi.quiet (Or.inr hstage)
      rw [readerOf, if_pos ⟨by rw [huser]; exact hu, by simp [hnext, Link.Joined]⟩, h.published, List.length_map, hu]
      simp [hnext, Link.sessionEvents, hnothing, LinkStage.Visible]
    have hjoin : (Feed.machine WsEnvelope).step f (.join c link.connection.ws.closing) = some { f with
        current := some c
        readers := Function.update f.readers c
          { joined := true, since := f.published.length, shut := link.connection.ws.closing } } := by
      refine if_neg ?_
      rw [h.readers, hold]
      simp
    refine ⟨_, .of_step hjoin, by rw [hserver]; exact h.published, ?_, hwaiting.trans h.waiting, ?_⟩
    · rw [hconnections, Table.lookup_insert_eq, if_pos hu.symm]
    · funext d
      by_cases hd : d = c
      · subst hd
        rw [hself, hnew]
        exact Function.update_self _ _ _
      · rw [hother d hd, ← h.readers]
        exact Function.update_of_ne hd _ _
  · refine ⟨f, .refl f, by rw [hserver]; exact h.published, ?_, hwaiting.trans h.waiting, ?_⟩
    · rw [hconnections, Table.lookup_insert_eq, if_neg (Ne.symm hu)]
      exact h.current
    · rw [h.readers]
      funext d
      by_cases hd : d = c
      · subst hd
        rw [hself, hold]
        exact (if_neg fun hj => hu (huser ▸ hj.1)).symm
      · exact (hother d hd).symm

theorem Shows.turn {w : App} {r : Realtime} {u : Int} {f : Feed WsEnvelope} (h : Shows net u w f)
    (hi : w.realtime.Inv) (ht : Realtime.LinkTurn w.realtime r) :
    ∃ g, (Feed.machine WsEnvelope).Leads f g ∧ Shows net u { w with realtime := r } g := by
  cases ht with
  | create hnew hlinks hconnections hsends =>
      refine ⟨f, .refl f, h.published, h.current.trans (by rw [← hconnections]), ?_, ?_⟩
      · rw [← h.waiting, waitingFor, waitingFor, hsends]
        apply List.filter_congr
        intro p hp
        obtain ⟨-, other, hother, -⟩ := hi.held p hp
        have hold : w.userAt p.1 = some other.user.userId := by rw [userAt, hother, Option.map_some]
        rw [isFor, isFor, hold, userAt_concat hlinks hold]
      · exact h.readers.trans (reader_concat (w := w) (x := { w with realtime := r }) hnew hlinks rfl u).symm
  | change hc hf hlinks hconnections hsends =>
      exact h.fade hc hf hlinks rfl rfl hconnections (waitingFor_congr hsends (userAt_set hc hf.user hlinks))
  | @unregister c link next hc hf hlinks hattached hconnections hsends =>
      obtain ⟨g, hg, hshow⟩ := h.fade (x := { w with realtime := { r with connections := w.realtime.connections } })
        hc hf hlinks rfl rfl rfl (waitingFor_congr hsends (userAt_set hc hf.user hlinks))
      by_cases hu : link.user.userId = u
      · refine ⟨_, hg.step (a := .detach) rfl, hshow.published, ?_, hshow.waiting, hshow.readers⟩
        change none = AList.lookup u r.connections
        rw [hconnections, Table.lookup_erase_eq, if_pos hu.symm]
      · refine ⟨g, hg, hshow.published, ?_, hshow.waiting, hshow.readers⟩
        rw [hshow.current]
        change AList.lookup u w.realtime.connections = AList.lookup u r.connections
        rw [hconnections, Table.lookup_erase_eq, if_neg (Ne.symm hu)]

/-- For one user the services and the connections make a feed. -/
theorem shows_effect {w x : App} {u : Int} {f : Feed WsEnvelope} (hs : (Server.machine cfg).Reachable w.server)
    (hr : (Realtime.machine net).Reachable w.realtime) (hcalls : w.Calls) (h : Shows net u w f)
    (he : Effect net w x) : ∃ g, (Feed.machine WsEnvelope).Leads f g ∧ Shows net u x g := by
  have hi : w.realtime.Inv := hr.induction Realtime.inv_empty
    fun _ _ _ _ hi hs => hi.effect (Realtime.effect_of_step hs)
  cases he with
  | server hlog hkeep =>
      refine ⟨f, .refl f, ?_, h.current, h.waiting, h.readers⟩
      rw [h.published, Server.eventsTo, Server.eventsTo, hlog]
  | @send k ctx userId event rest hk hsends hidle =>
      by_cases hu : userId = u
      · subst hu
        have hbusy : ¬ ctx.strand.Free := by
          intro hfree
          rw [hfree.1] at hsends
          cases hsends
        have hin : userId ∈ ctx.userIds := Server.reachable_receivers hs hk (e := (userId, event)) (by simp [hsends])
        exact h.publish hr (waitingFor_nil hs hcalls hk hbusy hin hidle) (some k) rfl
      · have hsame : Shows net u ({ w with server := { w.server.setContext k ctx.sent with
            log := w.server.log ++ [(userId, event)] } } : App) f := by
          refine ⟨?_, h.current, h.waiting, h.readers⟩
          rw [Server.eventsTo_send (s := w.server) rfl, if_neg hu, List.append_nil]
          exact h.published
        exact ⟨f, .refl f, hsame.other hr (some k) fun _ => hu⟩
  | error userId code message =>
      have hno : ¬ (WsEnvelope.serverError code message).FromSession := by
        simp [WsEnvelope.serverError, WsEnvelope.error, WsEnvelope.FromSession, sessionEventNames]
      exact ⟨f, .refl f, h.other hr none fun hfrom => absurd hfrom hno⟩
  | @enqueue n c env link next hn hc he =>
      obtain ⟨hsame, hstage⟩ := Realtime.standing_enqueueMessage he
      by_cases hfor : w.isFor u (c, env) = true
      · obtain ⟨-, other, hother, hv⟩ := hi.held _ (List.mem_of_getElem? hn)
        rw [hc] at hother
        cases hother
        simp only [isFor, decide_eq_true_eq, userAt, hc, Option.map_some, Option.some.injEq] at hfor
        exact h.deliver hn hc hv hfor.1 hfor.2 he
      · have hwaiting : (w.enqueued n c next).waitingFor u = w.waitingFor u := by
          rw [waitingFor, isFor_enqueued hc hsame]
          exact filter_eraseIdx_of_neg hn (by simpa using hfor)
        by_cases hfrom : env.FromSession
        · have hu : ¬ link.user.userId = u := by
            intro hu
            simp [isFor, hfrom, userAt, hc, hu] at hfor
          have hnone : readerOf u (w.since c) next = w.reader u c := by
            rw [reader_of_link hc, readerOf, readerOf, hsame, if_neg fun hj => hu hj.1, if_neg fun hj => hu hj.1]
          refine ⟨f, .refl f, h.published, h.current, hwaiting.trans h.waiting, h.readers.trans ?_⟩
          refine (Function.update_eq_self c (w.reader u)).symm.trans ?_
          rw [← hnone]
          exact (reader_enqueued hc u).symm
        · exact h.fade hc (Realtime.fades_enqueueMessage he hfrom) rfl rfl rfl rfl hwaiting
  | register hc hstage => exact h.register (hi.sound _ _ hc) hc hstage rfl rfl rfl rfl rfl rfl
  | link ht => exact h.turn hi ht

theorem shows_reachable {w : App} (h : (machine cfg net).Reachable w) (u : Int) :
    ∃ f : Feed WsEnvelope, f.Inv ∧ Shows net u w f := by
  have hsim : ∃ f, (Feed.machine WsEnvelope).Reachable f ∧ Shows net u w f := by
    refine h.simulated (R := Shows net u) ⟨rfl, rfl, rfl, rfl⟩ ?_
    intro w a x f hw hshow hs
    obtain ⟨hserver, hrealtime⟩ := reachable_parts hw
    exact shows_effect hserver hrealtime (reachable_calls hw) hshow (effect_of_step hs)
  obtain ⟨f, hf, hshow⟩ := hsim
  exact ⟨f, Feed.reachable_inv hf, hshow⟩

end App

end GameServer
