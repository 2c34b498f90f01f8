import GameServer.Consistency
import GameServer.SessionEvents

namespace GameServer

theorem pairwise_set {α : Type} {R : α → α → Prop} {l : List α} {k : Nat} {c d : α} (h : l.Pairwise R)
    (hk : l[k]? = some c) (hleft : ∀ a, R a c → R a d) (hright : ∀ b, R c b → R d b) : (l.set k d).Pairwise R := by
  obtain ⟨hlt, rfl⟩ := List.getElem?_eq_some_iff.mp hk
  obtain ⟨front, back, hl, -, hset⟩ := List.exists_of_set hlt
  rw [hset]
  rw [hl] at h
  rw [List.pairwise_append, List.pairwise_cons] at h ⊢
  refine ⟨h.1, ⟨fun b hb => hright b (h.2.1.1 b hb), h.2.1.2⟩, ?_⟩
  intro a ha b hb
  rcases List.mem_cons.mp hb with rfl | hb
  · exact hleft a (h.2.2 a ha _ (by simp))
  · exact h.2.2 a ha b (by simp [hb])

namespace Server

open SessionContext

variable {D : Type} {cfg : Config D}

def sentTo (s : Server) (u : Int) (id : String) : List SessionEvent :=
  (s.eventsTo u).filter (·.sessionId = id)

def roster (s : Server) : List (String × List Int) := s.contexts.map fun ctx => (ctx.id, ctx.userIds)

/-- How the log of the calls of SendEventToUser goes with the sessions. A user
is in one session after the other, and each has a script whose pending part
is still to be sent. -/
structure Announced (maxTicks : Nat) (s : Server) : Prop where
  receivers : ∀ (k : Nat) (ctx : SessionContext), s.contexts[k]? = some ctx →
    ∀ e ∈ ctx.strand.sends, e.1 ∈ ctx.userIds
  script : ∀ (k : Nat) (ctx : SessionContext), s.contexts[k]? = some ctx →
    ∃ E, ctx.Script maxTicks E ∧ ∀ u ∈ ctx.userIds, s.sentTo u ctx.id ++ ctx.pendingTo u = E
  order : ∀ u, s.eventsTo u = (s.roster.filter (fun x => u ∈ x.2)).flatMap (fun x => s.sentTo u x.1)
  turns : s.contexts.Pairwise (fun c d => ∀ u ∈ c.userIds, u ∈ d.userIds → c.Finished)

theorem announced_init (maxTicks : Nat) : ({} : Server).Announced maxTicks where
  receivers := by simp
  script := by simp
  order := by simp [eventsTo, roster]
  turns := .nil

theorem sentTo_congr {s t : Server} (hl : t.log = s.log) (u : Int) (id : String) : t.sentTo u id = s.sentTo u id := by
  simp only [sentTo, eventsTo, hl]

theorem Announced.congr {maxTicks : Nat} {s t : Server} (h : s.Announced maxTicks) (hc : t.contexts = s.contexts)
    (hl : t.log = s.log) : t.Announced maxTicks where
  receivers := by
    rw [hc]
    exact h.receivers
  script := by
    simp only [hc, sentTo_congr hl]
    exact h.script
  order := by
    simp only [eventsTo, roster, hl, hc, sentTo_congr hl]
    exact h.order
  turns := by
    rw [hc]
    exact h.turns

theorem roster_set {s t : Server} {k : Nat} {c d : SessionContext} (hk : s.contexts[k]? = some c)
    (hshape : c.SameShape d) (hc : t.contexts = s.contexts.set k d) : t.roster = s.roster := by
  obtain ⟨hlt, hget⟩ := List.getElem?_eq_some_iff.mp hk
  have hsame : (d.id, d.userIds) = (c.id, c.userIds) := by rw [userIds, userIds, hshape.1, hshape.2.1]
  rw [roster, hc, List.map_set, hsame, ← hget,
    ← List.getElem_map (f := fun ctx : SessionContext => (ctx.id, ctx.userIds)), List.set_getElem_self]
  · rfl
  · rw [List.length_map]
    exact hlt

theorem turns_set {s : Server} {k : Nat} {c d : SessionContext}
    (h : s.contexts.Pairwise (fun c d => ∀ u ∈ c.userIds, u ∈ d.userIds → c.Finished))
    (hk : s.contexts[k]? = some c) (hshape : c.SameShape d) (hf : c.Finished → d.Finished) :
    (s.contexts.set k d).Pairwise (fun c d => ∀ u ∈ c.userIds, u ∈ d.userIds → c.Finished) := by
  have husers : d.userIds = c.userIds := by rw [userIds, userIds, hshape.2.1]
  apply pairwise_set h hk
  · intro a ha
    rw [husers]
    exact ha
  · intro b hb
    rw [husers]
    intro u hu hub
    exact hf (hb u hu hub)

theorem Announced.move {maxTicks : Nat} {s t : Server} (h : s.Announced maxTicks) {k : Nat} {c d : SessionContext}
    {events : List SessionEvent} (hk : s.contexts[k]? = some c) (ha : Appends maxTicks c d events)
    (hc : t.contexts = s.contexts.set k d) (hl : t.log = s.log) : t.Announced maxTicks where
  receivers := by
    intro j e he
    rw [hc, getElem?_set_of_some hk] at he
    split at he
    next =>
      cases he
      rw [userIds, ha.shape.2.1]
      exact ha.receivers (h.receivers k c hk)
    next => exact h.receivers j e he
  script := by
    intro j e he
    simp only [sentTo_congr hl]
    rw [hc, getElem?_set_of_some hk] at he
    split at he
    next =>
      cases he
      obtain ⟨E, hE, hall⟩ := h.script k c hk
      refine ⟨E ++ events, ha.script E hE, ?_⟩
      intro u hu
      rw [userIds, ha.shape.2.1] at hu
      rw [ha.shape.1, ha.pending u hu, ← List.append_assoc, hall u hu]
    next => exact h.script j e he
  order := by
    intro u
    simp only [sentTo_congr hl, roster_set hk ha.shape hc]
    simp only [eventsTo, hl]
    exact h.order u
  turns := by
    rw [hc]
    exact turns_set h.turns hk ha.shape ha.finished

theorem sentTo_send {s t : Server} {e : Int × SessionEvent} (hl : t.log = s.log ++ [e]) (u : Int) (id : String) :
    t.sentTo u id = s.sentTo u id ++ if e.1 = u ∧ e.2.sessionId = id then [e.2] else [] := by
  simp only [sentTo, eventsTo, hl, List.filter_append, List.map_append]
  by_cases hu : e.1 = u
  · by_cases hid : e.2.sessionId = id <;> simp [hu, hid]
  · simp [hu]

theorem eventsTo_send {s t : Server} {e : Int × SessionEvent} (hl : t.log = s.log ++ [e]) (u : Int) :
    t.eventsTo u = s.eventsTo u ++ if e.1 = u then [e.2] else [] := by
  simp only [eventsTo, hl, List.filter_append, List.map_append]
  by_cases hu : e.1 = u <;> simp [hu]

theorem script_send {maxTicks : Nat} {c : SessionContext} {E : List SessionEvent} (h : c.Script maxTicks E) :
    c.sent.Script maxTicks E := ⟨h.headings, h.own⟩

theorem roster_running {maxTicks : Nat} {s : Server} (hi : s.Inv) (h : s.Announced maxTicks) {k : Nat}
    {c : SessionContext} (hk : s.contexts[k]? = some c) (hrunning : ¬ c.Finished) {u : Int} (hu : u ∈ c.userIds) :
    ∃ front, s.roster.filter (fun x => u ∈ x.2) = front ++ [(c.id, c.userIds)] ∧ ∀ x ∈ front, x.1 ≠ c.id := by
  obtain ⟨hlt, hget⟩ := List.getElem?_eq_some_iff.mp hk
  obtain ⟨front, back, hsplit, hlen, -⟩ := @List.exists_of_set _ k c _ hlt
  rw [hget] at hsplit
  have hturns := h.turns
  rw [hsplit, List.pairwise_append, List.pairwise_cons] at hturns
  have hback : (back.map fun ctx => (ctx.id, ctx.userIds)).filter (fun x => u ∈ x.2) = [] := by
    apply List.filter_eq_nil_iff.mpr
    intro x hx hux
    obtain ⟨d, hd, rfl⟩ := List.mem_map.mp hx
    exact hrunning (hturns.2.1.1 d hd u hu (by simpa using hux))
  refine ⟨(front.map fun ctx => (ctx.id, ctx.userIds)).filter (fun x => u ∈ x.2), ?_, ?_⟩
  · rw [roster, hsplit, List.map_append, List.filter_append, List.map_cons, List.filter_cons_of_pos (by simpa using hu),
      hback]
  · intro x hx he
    obtain ⟨d, hd, rfl⟩ := List.mem_map.mp (List.mem_filter.mp hx).1
    obtain ⟨j, hj⟩ := List.mem_iff_getElem?.mp hd
    have hjlt := (List.getElem?_eq_some_iff.mp hj).1
    have hjd : s.contexts[j]? = some d := by
      rw [hsplit, List.getElem?_append_left hjlt]
      exact hj
    have := hi.id_inj hjd hk he
    omega

theorem Announced.send {maxTicks : Nat} {s t : Server} (hi : s.Inv) (h : s.Announced maxTicks) {k : Nat}
    {c : SessionContext} (hk : s.contexts[k]? = some c) {e : Int × SessionEvent} {es : List (Int × SessionEvent)}
    (hs : c.strand.sends = e :: es) (hc : t.contexts = s.contexts.set k c.sent) (hl : t.log = s.log ++ [e]) :
    t.Announced maxTicks := by
  obtain ⟨E, hE, hall⟩ := h.script k c hk
  have hreceiver : e.1 ∈ c.userIds := h.receivers k c hk e (by simp [hs])
  have hpending : c.pendingTo e.1 = e.2 :: c.sent.pendingTo e.1 := by simp [pendingTo, SessionContext.sent, hs]
  have hid : e.2.sessionId = c.id := by
    apply hE.own
    rw [← hall e.1 hreceiver, hpending]
    simp
  have hrunning : ¬ c.Finished := by
    intro hf
    rw [hf.2.1] at hs
    cases hs
  constructor
  · intro j d hd
    rw [hc, getElem?_set_of_some hk] at hd
    split at hd
    next =>
      cases hd
      intro e' he'
      exact h.receivers k c hk e' (List.mem_of_mem_tail he')
    next => exact h.receivers j d hd
  · intro j d hd
    simp only [sentTo_send hl]
    rw [hc, getElem?_set_of_some hk] at hd
    split at hd
    next =>
      cases hd
      refine ⟨E, script_send hE, ?_⟩
      intro u hu
      have hshow : c.sent.id = c.id := rfl
      rw [hshow]
      by_cases he : e.1 = u
      · subst he
        rw [if_pos ⟨rfl, hid⟩, List.append_assoc, List.singleton_append, ← hpending]
        exact hall e.1 hu
      · have hsame : c.sent.pendingTo u = c.pendingTo u := by simp [pendingTo, SessionContext.sent, hs, he]
        rw [if_neg (fun hand => he hand.1), List.append_nil, hsame]
        exact hall u hu
    next hj =>
      have hother : ¬ e.2.sessionId = d.id := by
        intro he
        exact hj (hi.id_inj hd hk (he.symm.trans hid))
      obtain ⟨F, hF, hallF⟩ := h.script j d hd
      refine ⟨F, hF, ?_⟩
      intro u hu
      rw [if_neg (fun hand => hother hand.2), List.append_nil]
      exact hallF u hu
  · intro u
    rw [eventsTo_send hl, roster_set hk (show c.SameShape c.sent from ⟨rfl, rfl, rfl⟩) hc, h.order u]
    by_cases he : e.1 = u
    · subst he
      obtain ⟨front, hfront, hothers⟩ := roster_running hi h hk hrunning hreceiver
      have hsame : front.flatMap (fun x => t.sentTo e.1 x.1) = front.flatMap (fun x => s.sentTo e.1 x.1) := by
        apply List.flatMap_congr
        intro x hx
        rw [sentTo_send hl, if_neg (fun hand => hothers x hx (hand.2.symm.trans hid)), List.append_nil]
      rw [hfront, List.flatMap_append, List.flatMap_append, hsame, List.flatMap_singleton, List.flatMap_singleton,
        sentTo_send hl, if_pos rfl, if_pos ⟨rfl, hid⟩, List.append_assoc]
    · rw [if_neg he, List.append_nil]
      apply List.flatMap_congr
      intro x _
      rw [sentTo_send hl, if_neg (fun hand => he hand.1), List.append_nil]
  · rw [hc]
    exact turns_set h.turns hk ⟨rfl, rfl, rfl⟩ (fun hf => absurd hf hrunning)

theorem Announced.create {s : Server} (hi : s.Inv) (h : s.Announced cfg.maxTicks) {first second : AuthUser}
    (hheld : s.queue.holder = .creating first second) :
    (s.createSession cfg (pairParticipants first second)).Announced cfg.maxTicks := by
  obtain ⟨new, hnew⟩ : ∃ ctx, ctx = s.newContext cfg (pairParticipants first second) := ⟨_, rfl⟩
  obtain ⟨t, ht⟩ : ∃ t, t = s.createSession cfg (pairParticipants first second) := ⟨_, rfl⟩
  have hc : t.contexts = s.contexts ++ [new] := by rw [ht, hnew]; rfl
  have hl : t.log = s.log := by rw [ht]; rfl
  have hunused : ∀ u, s.sentTo u new.id = [] := by
    intro u
    apply List.filter_eq_nil_iff.mpr
    intro e he hid
    rw [h.order u] at he
    obtain ⟨x, hx, hex⟩ := List.mem_flatMap.mp he
    obtain ⟨c, hcin, rfl⟩ := List.mem_map.mp (List.mem_filter.mp hx).1
    obtain ⟨j, hj⟩ := List.mem_iff_getElem?.mp hcin
    have hsame : c.id = new.id := by
      have hec := (List.mem_filter.mp hex).2
      simp only [decide_eq_true_eq] at hec hid
      exact hec.symm.trans hid
    rw [hi.ids j c hj, hnew] at hsame
    have hnumber := sessionId_injective hsame
    have hjlt := (List.getElem?_eq_some_iff.mp hj).1
    rw [hi.next] at hnumber
    omega
  rw [← ht]
  constructor
  · intro j d hd
    rw [hc, getElem?_concat_eq] at hd
    split at hd
    next =>
      cases hd
      rw [hnew]
      intro e he
      cases he
    next => exact h.receivers j d hd
  · intro j d hd
    simp only [sentTo_congr hl]
    rw [hc, getElem?_concat_eq] at hd
    split at hd
    next =>
      cases hd
      refine ⟨[], ⟨by rw [hnew]; rfl, by simp⟩, ?_⟩
      intro u _
      rw [hunused u, hnew]
      rfl
    next => exact h.script j d hd
  · intro u
    have hroster : t.roster = s.roster ++ [(new.id, new.userIds)] := by simp [roster, hc]
    simp only [sentTo_congr hl]
    rw [hroster, List.filter_append, List.flatMap_append, ← h.order u, eventsTo, hl]
    have hnone : ([(new.id, new.userIds)].filter (fun x => u ∈ x.2)).flatMap (fun x => s.sentTo u x.1) = [] := by
      by_cases hu : u ∈ new.userIds
      · simp [hu, hunused u]
      · simp [hu]
    rw [hnone, List.append_nil]
    rfl
  · rw [hc, List.pairwise_append]
    refine ⟨h.turns, List.pairwise_singleton _ _, ?_⟩
    intro c hcin d hd u hu hud
    obtain ⟨j, hj⟩ := List.mem_iff_getElem?.mp hcin
    rw [List.mem_singleton.mp hd, hnew] at hud
    by_contra hrunning
    have hheld' : u ∈ s.queue.held := by
      rw [MatchQueue.held, hheld]
      simpa [newContext, SessionContext.userIds, pairParticipants] using hud
    have hin := (hi.owner u c.id).mpr ⟨j, c, hj, rfl, hrunning, hu⟩
    rw [hi.apart u (Or.inr hheld')] at hin
    cases hin

theorem announced_effect (hn : 1 ≤ cfg.maxTicks) {s t : Server} (hr : (machine cfg).Reachable s)
    (h : s.Announced cfg.maxTicks) (he : Effect cfg s t) : t.Announced cfg.maxTicks := by
  have hi := reachable_inv hr
  cases he with
  | stay => exact h
  | queue | call | rename => exact h.congr rfl rfl
  | create hheld => exact (h.create hi hheld).congr rfl rfl
  | start hk hfree hq now =>
      obtain ⟨events, ha⟩ := appends_start (hi.sound _ _ hk) (reachable_plays hn hr hk) hfree hq now
      exact h.move hk ha rfl rfl
  | tick hk hfree ha now =>
      obtain ⟨events, ha'⟩ := appends_tick (hi.sound _ _ hk) (reachable_plays hn hr hk) hfree ha now
      exact h.move hk ha' rfl rfl
  | disarm hk hfree ha => exact h.move hk (appends_disarm _) rfl rfl
  | send hk hs => exact h.send hi hk hs rfl rfl
  | schedule hk hs hr' => exact h.move hk (appends_schedule hr') rfl rfl
  | finish hk hs hr' =>
      obtain ⟨events, ha⟩ := appends_finish (hi.sound _ _ hk) (reachable_plays hn hr hk) hs hr'
      exact h.move hk ha rfl rfl
  | save hk hs hr' | skip hk hs hr' | ensure hk hs hr' | rate hk hs hr' | release hk hs hr' =>
      exact h.move hk (appends_resume (by rw [hr']; simp) _) rfl rfl
  | input hc hk hfree => exact h.move hk (appends_input _ _) rfl rfl

theorem reachable_announced (hn : 1 ≤ cfg.maxTicks) {s : Server} (h : (machine cfg).Reachable s) :
    s.Announced cfg.maxTicks :=
  h.induction (announced_init _) fun _ _ _ hr hs hstep => announced_effect hn hr hs (effect_of_step hstep)

theorem Inv.ids_nodup {s : Server} (h : s.Inv) : (s.contexts.map (·.id)).Nodup := by
  rw [List.nodup_iff_getElem?_ne_getElem?]
  intro i j hij hj he
  rw [List.length_map] at hj
  rw [List.getElem?_map, List.getElem?_map, List.getElem?_eq_getElem hj,
    List.getElem?_eq_getElem (Nat.lt_trans hij hj)] at he
  have hsame := h.id_inj (List.getElem?_eq_getElem (Nat.lt_trans hij hj)) (List.getElem?_eq_getElem hj)
    (Option.some.inj he)
  omega

section Blocks

variable {s : Server} (hn : 1 ≤ cfg.maxTicks) (hr : (machine cfg).Reachable s)

include hn hr

theorem sentTo_prefix {k : Nat} {ctx : SessionContext} (hk : s.contexts[k]? = some ctx) {u : Int}
    (hu : u ∈ ctx.userIds) : (s.sentTo u ctx.id).map (·.heading) <+: fullBlock cfg.maxTicks := by
  obtain ⟨E, hE, hall⟩ := (reachable_announced hn hr).script k ctx hk
  have hpart : s.sentTo u ctx.id <+: E := ⟨_, hall u hu⟩
  have hheadings := hpart.map (·.heading)
  rw [hE.headings] at hheadings
  exact hheadings.trans (List.take_prefix _ _)

theorem sentTo_full {k : Nat} {ctx : SessionContext} (hk : s.contexts[k]? = some ctx) (he : ctx.ended = true)
    (hs : ctx.strand.sends = []) {u : Int} (hu : u ∈ ctx.userIds) :
    (s.sentTo u ctx.id).map (·.heading) = fullBlock cfg.maxTicks := by
  obtain ⟨E, hE, hall⟩ := (reachable_announced hn hr).script k ctx hk
  have hsound := (reachable_inv hr).sound k ctx hk
  have hwhole := hall u hu
  have hnone : ctx.pendingTo u = [] := by simp [pendingTo, hs]
  rw [hnone, List.append_nil] at hwhole
  rw [hwhole, hE.headings, progress_finished hsound (reachable_plays hn hr hk) he, List.take_length]

theorem reachable_blocks (u : Int) :
    Blocks SessionEvent.sessionId SessionEvent.heading (fullBlock cfg.maxTicks) (s.eventsTo u)
      ((s.contexts.filter (fun ctx => u ∈ ctx.userIds)).map fun ctx => (ctx.id, s.sentTo u ctx.id)) where
  flatten := by
    rw [(reachable_announced hn hr).order u, roster, List.filter_map, List.flatMap_def, List.map_map, List.map_map]
    rfl
  keys := by
    rw [List.map_map]
    exact (reachable_inv hr).ids_nodup.sublist (List.filter_sublist.map _)
  own := by
    intro b hb e he
    obtain ⟨ctx, -, rfl⟩ := List.mem_map.mp hb
    simpa using (List.mem_filter.mp he).2
  complete := by
    intro b hb
    rw [← List.map_dropLast] at hb
    obtain ⟨ctx, hctx, rfl⟩ := List.mem_map.mp hb
    have hturns := (reachable_announced hn hr).turns.sublist (List.filter_sublist (p := fun ctx => u ∈ ctx.userIds))
    obtain ⟨next, hnext, hover⟩ := exists_of_mem_dropLast hturns hctx
    obtain ⟨hin, hu⟩ := List.mem_filter.mp (List.mem_of_mem_dropLast hctx)
    obtain ⟨k, hk⟩ := List.mem_iff_getElem?.mp hin
    have hfinished := hover u (by simpa using hu) (by simpa using (List.mem_filter.mp hnext).2)
    exact sentTo_full hn hr hk hfinished.1 hfinished.2.1 (by simpa using hu)
  cut := by
    intro b hb
    obtain ⟨ctx, hctx, rfl⟩ := List.mem_map.mp hb
    obtain ⟨hin, hu⟩ := List.mem_filter.mp hctx
    obtain ⟨k, hk⟩ := List.mem_iff_getElem?.mp hin
    exact sentTo_prefix hn hr hk (by simpa using hu)

end Blocks

/-- What a user is sent of its sessions: whole blocks one after the other, the
last as far as it has come, and of each session what the other participant
is sent. -/
structure SentInBlocks (maxTicks : Nat) (s : Server) (u : Int) : Prop where
  blocks : ∃ bs, Blocks SessionEvent.sessionId SessionEvent.heading (fullBlock maxTicks) (s.eventsTo u) bs
  together : ∀ id, ∃ pre post, s.eventsTo u = pre ++ s.sentTo u id ++ post ∧
    (∀ e ∈ pre, e.sessionId ≠ id) ∧ (∀ e ∈ post, e.sessionId ≠ id)
  closed : ∀ pre e post, s.eventsTo u = pre ++ e :: post → e.name = "session.ended" →
    ∀ d ∈ post, d.sessionId ≠ e.sessionId
  own : ∀ e ∈ s.eventsTo u, ∃ (k : Nat) (ctx : SessionContext),
    s.contexts[k]? = some ctx ∧ ctx.id = e.sessionId ∧ u ∈ ctx.userIds
  shared : ∀ (k : Nat) (ctx : SessionContext), s.contexts[k]? = some ctx → u ∈ ctx.userIds → ∀ v ∈ ctx.userIds,
    s.sentTo u ctx.id ++ ctx.pendingTo u = s.sentTo v ctx.id ++ ctx.pendingTo v ∧
      (ctx.strand.sends = [] → s.sentTo u ctx.id = s.sentTo v ctx.id)

/-- Every user is sent the events of its sessions in blocks. -/
theorem events_in_blocks (hn : 1 ≤ cfg.maxTicks) {s : Server} (hr : (machine cfg).Reachable s) (u : Int) :
    s.SentInBlocks cfg.maxTicks u where
  blocks := ⟨_, reachable_blocks hn hr u⟩
  together := by
    intro id
    obtain ⟨pre, post, hl, hpre, hpost, -⟩ := (reachable_blocks hn hr u).together id
    exact ⟨pre, post, hl, hpre, hpost⟩
  closed := by
    intro pre e post hl hname
    exact (reachable_blocks hn hr u).closed rfl (ended_not_mem_openBlock cfg.maxTicks) hl
      (e.heading_ended.mpr hname)
  own := by
    intro e he
    rw [(reachable_announced hn hr).order u] at he
    obtain ⟨x, hx, hex⟩ := List.mem_flatMap.mp he
    obtain ⟨hin, hu⟩ := List.mem_filter.mp hx
    obtain ⟨ctx, hctx, rfl⟩ := List.mem_map.mp hin
    obtain ⟨k, hk⟩ := List.mem_iff_getElem?.mp hctx
    have hid : e.sessionId = ctx.id := by simpa using (List.mem_filter.mp hex).2
    exact ⟨k, ctx, hk, hid.symm, by simpa using hu⟩
  shared := by
    intro k ctx hk hu v hv
    obtain ⟨E, -, hall⟩ := (reachable_announced hn hr).script k ctx hk
    have hsame := (hall u hu).trans (hall v hv).symm
    refine ⟨hsame, ?_⟩
    intro hs
    have hnone : ∀ w, ctx.pendingTo w = [] := by
      intro w
      simp [pendingTo, hs]
    rw [hnone, hnone, List.append_nil, List.append_nil] at hsame
    exact hsame

theorem events_in_blocks_rematch : ∃ s, (machine (evenConfig 1)).run
    (playActions ⟨1, "kim"⟩ ⟨2, "lee"⟩ ++ matchActions ⟨1, "kim"⟩ ⟨2, "lee"⟩ ++
      [.startSession 1 0, .proceed 1]) = some s ∧
      (s.eventsTo 1).map (·.name) =
        ["session.created", "session.started", "session.state", "session.ended", "session.created"] ∧
      s.SentInBlocks 1 1 := by
  obtain ⟨s, hs, hr, hnames⟩ := Machine.exists_of_run (M := machine (evenConfig 1))
    (playActions ⟨1, "kim"⟩ ⟨2, "lee"⟩ ++ matchActions ⟨1, "kim"⟩ ⟨2, "lee"⟩ ++ [.startSession 1 0, .proceed 1])
    (fun s => (s.eventsTo 1).map (·.name) =
      ["session.created", "session.started", "session.state", "session.ended", "session.created"]) (by decide)
  exact ⟨s, hs, hnames, events_in_blocks (by decide) hr 1⟩

end Server

end GameServer
