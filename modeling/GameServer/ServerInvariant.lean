import GameServer.Blocks
import GameServer.ServerStep
import GameServer.SessionStage

namespace GameServer

namespace Server

variable {D : Type} {cfg : Config D}

theorem sessionId_injective {m n : Nat} (h : sessionId m = sessionId n) : m = n := by
  have hrepr : m.repr = n.repr := (String.append_right_inj _).mp h
  have hdigits := congrArg String.toList hrepr
  rw [Nat.toList_repr, Nat.toList_repr] at hdigits
  rw [← Nat.ofDigitChars_ten_toDigits (n := m), hdigits, Nat.ofDigitChars_ten_toDigits]

/-- What ties the two services together. It holds at every step, also inside
the sections of the queue. -/
structure Inv (s : Server) : Prop where
  next : s.nextSessionId = s.contexts.length + 1
  ids : ∀ (k : Nat) (c : SessionContext), s.contexts[k]? = some c → c.id = sessionId (k + 1)
  sound : ∀ (k : Nat) (c : SessionContext), s.contexts[k]? = some c → c.Sound
  active : ∀ id k, s.sessions.lookup id = some k ↔
    ∃ c : SessionContext, s.contexts[k]? = some c ∧ c.id = id ∧ ¬ c.Finished
  owner : ∀ u id, s.userToSession.lookup u = some id ↔
    ∃ (k : Nat) (c : SessionContext), s.contexts[k]? = some c ∧ c.id = id ∧ ¬ c.Finished ∧ u ∈ c.userIds
  indexed : s.queue.Indexed
  apart : ∀ u, u ∈ s.queue.userIds ∨ u ∈ s.queue.held → s.userToSession.lookup u = none

theorem Inv.id_inj {s : Server} (h : s.Inv) {j k : Nat} {c d : SessionContext} (hc : s.contexts[j]? = some c)
    (hd : s.contexts[k]? = some d) (he : c.id = d.id) : j = k := by
  rw [h.ids j c hc, h.ids k d hd] at he
  exact Nat.succ.inj (sessionId_injective he)

theorem Inv.same_of_id {s : Server} (h : s.Inv) {j k : Nat} {c d : SessionContext} (hc : s.contexts[j]? = some c)
    (hd : s.contexts[k]? = some d) (he : c.id = d.id) : c = d := by
  rw [h.id_inj hc hd he, hd] at hc
  exact (Option.some.inj hc).symm

theorem Inv.owner_unique {s : Server} (h : s.Inv) {u : Int} {j k : Nat} {c d : SessionContext}
    (hc : s.contexts[j]? = some c) (hd : s.contexts[k]? = some d) (hcf : ¬ c.Finished) (hdf : ¬ d.Finished)
    (hcu : u ∈ c.userIds) (hdu : u ∈ d.userIds) : j = k := by
  have hj := (h.owner u c.id).mpr ⟨j, c, hc, rfl, hcf, hcu⟩
  have hk := (h.owner u d.id).mpr ⟨k, d, hd, rfl, hdf, hdu⟩
  rw [hj] at hk
  exact h.id_inj hc hd (Option.some.inj hk)

theorem Inv.empty : ({} : Server).Inv where
  next := rfl
  ids := by simp
  sound := by simp
  active := by simp
  owner := by simp
  indexed := .empty
  apart := by simp

theorem Inv.congr {s t : Server} (h : s.Inv) (hc : t.contexts = s.contexts) (hs : t.sessions = s.sessions)
    (hu : t.userToSession = s.userToSession) (hn : t.nextSessionId = s.nextSessionId)
    (hi : t.queue.Indexed)
    (ha : ∀ u, u ∈ t.queue.userIds ∨ u ∈ t.queue.held → s.userToSession.lookup u = none) : t.Inv where
  next := by rw [hn, hc]; exact h.next
  ids := by rw [hc]; exact h.ids
  sound := by rw [hc]; exact h.sound
  active := by rw [hc, hs]; exact h.active
  owner := by rw [hc, hu]; exact h.owner
  indexed := hi
  apart := by rw [hu]; exact ha

theorem Inv.setContext {s : Server} (h : s.Inv) {k : Nat} {c d : SessionContext}
    (hk : s.contexts[k]? = some c) (hs : d.Sound) (hshape : c.SameShape d)
    (hf : d.Finished ↔ c.Finished) : (s.setContext k d).Inv where
  next := by simpa [Server.setContext] using h.next
  ids := by
    intro j e he
    rw [Server.setContext, getElem?_set_of_some hk] at he
    split at he
    next hj => cases he; rw [hj, hshape.1]; exact h.ids k c hk
    next => exact h.ids j e he
  sound := by
    intro j e he
    rw [Server.setContext, getElem?_set_of_some hk] at he
    split at he
    next => cases he; exact hs
    next => exact h.sound j e he
  active := by
    intro id j
    simp only [Server.setContext, getElem?_set_of_some hk]
    rw [h.active]
    by_cases hj : j = k
    · subst hj
      simp [hk, hshape.1, hf]
    · simp [hj]
  owner := by
    intro u id
    have hids : d.userIds = c.userIds := by rw [SessionContext.userIds, hshape.2.1, SessionContext.userIds]
    rw [Server.setContext, h.owner, exists_split_iff hk (fun e => e.id = id ∧ ¬ e.Finished ∧ u ∈ e.userIds),
      exists_set_iff hk (fun e => e.id = id ∧ ¬ e.Finished ∧ u ∈ e.userIds), hshape.1, hf, hids]
  indexed := h.indexed
  apart := h.apart

theorem foldl_erase_lookup (ps : List SessionParticipant) (map : Table Int String) (u : Int) :
    (ps.foldl (fun map p => map.erase p.userId) map).lookup u =
      if u ∈ ps.map (·.userId) then none else map.lookup u := by
  induction ps generalizing map with
  | nil => simp
  | cons p ps ih =>
      rw [List.foldl_cons, ih, Table.lookup_erase_eq]
      by_cases hp : u = p.userId <;> simp [hp]

theorem foldl_insert_lookup {ν : Type} (ps : List SessionParticipant) (f : SessionParticipant → ν)
    (map : Table Int ν) (u : Int) (hu : u ∉ ps.map (·.userId)) :
    (ps.foldl (fun map p => map.insert p.userId (f p)) map).lookup u = map.lookup u := by
  induction ps generalizing map with
  | nil => rfl
  | cons p ps ih =>
      simp only [List.map_cons, List.mem_cons, not_or] at hu
      rw [List.foldl_cons, ih _ hu.2, Table.lookup_insert_eq, if_neg hu.1]

theorem Inv.release {s : Server} (h : s.Inv) {k : Nat} {c : SessionContext} (hk : s.contexts[k]? = some c)
    (hr : c.strand.resume = .release) : (s.release k c).Inv := by
  obtain ⟨hsound, hfin⟩ := (h.sound k c hk).released hr
  have hbusy : ¬ c.Finished := SessionContext.not_finished_of_busy (by rw [hr]; simp)
  refine ⟨by simpa [Server.release] using h.next, ?_, ?_, ?_, ?_, h.indexed, ?_⟩
  · intro j e he
    simp only [Server.release, getElem?_set_of_some hk] at he
    split at he
    next hj => cases he; rw [hj]; exact h.ids k c hk
    next => exact h.ids j e he
  · intro j e he
    simp only [Server.release, getElem?_set_of_some hk] at he
    split at he
    next => cases he; exact hsound
    next => exact h.sound j e he
  · intro id j
    simp only [Server.release, getElem?_set_of_some hk, Table.lookup_erase_eq]
    by_cases hid : id = c.id
    · subst hid
      simp only [if_true, reduceCtorEq, false_iff]
      rintro ⟨e, he, hide, hf⟩
      by_cases hj : j = k
      · simp only [hj, if_true, Option.some.injEq] at he
        exact hf (he ▸ hfin)
      · simp only [hj, if_false] at he
        exact hj (h.id_inj he hk hide)
    · rw [if_neg hid, h.active]
      by_cases hj : j = k
      · subst hj
        simp only [hk, if_true, Option.some.injEq, exists_eq_left']
        constructor
        · exact fun hc => absurd hc.1.symm hid
        · exact fun hc => absurd hc.1.symm hid
      · simp [hj]
  · intro u id
    have hgone : ¬ ((c.resumeAt .idle).id = id ∧ ¬ (c.resumeAt .idle).Finished ∧ u ∈ (c.resumeAt .idle).userIds) :=
      fun hp => hp.2.1 hfin
    simp only [Server.release, foldl_erase_lookup]
    rw [exists_set_iff hk (fun e => e.id = id ∧ ¬ e.Finished ∧ u ∈ e.userIds), or_iff_right hgone]
    by_cases hu : u ∈ c.participants.map (·.userId)
    · simp only [hu, if_true, reduceCtorEq, false_iff]
      rintro ⟨j, e, hj, he, -, hf, hue⟩
      exact hj (h.owner_unique he hk hf hbusy hue hu)
    · have hout : ¬ (c.id = id ∧ ¬ c.Finished ∧ u ∈ c.userIds) := fun hp => hu hp.2.2
      rw [if_neg hu, h.owner, exists_split_iff hk (fun e => e.id = id ∧ ¬ e.Finished ∧ u ∈ e.userIds),
        or_iff_right hout]
  · intro u hu
    simp only [Server.release, foldl_erase_lookup]
    split
    next => rfl
    next => exact h.apart u hu

theorem QueueStep.keeps {s : Server} {queue : MatchQueue} (h : QueueStep cfg s queue) (hi : s.Inv) :
    queue.Indexed ∧ ∀ u, u ∈ queue.userIds ∨ u ∈ queue.held → s.userToSession.lookup u = none := by
  cases h with
  | check hfree hok =>
      rename_i user timeout
      simp only [joinRefused, isUserInSession, Bool.or_eq_false_iff, decide_eq_false_iff_not] at hok
      rw [hi.indexed.mem_index] at hok
      refine ⟨hi.indexed.handOver _ (List.nodup_singleton _) ?_, ?_⟩
      · intro u hu
        rw [List.mem_singleton.mp hu]
        exact hok.1
      · rintro u (hu | hu)
        · exact hi.apart u (Or.inl hu)
        · rw [List.mem_singleton.mp hu]
          exact AList.lookup_eq_none.mpr hok.2
  | push hheld now =>
      rename_i user timeout
      have hu : user.userId ∈ s.queue.held := by simp [MatchQueue.held, hheld]
      refine ⟨hi.indexed.push _ _ _ _ (hi.indexed.held.2 _ hu), ?_⟩
      rintro u (hm | hm)
      · simp only [MatchQueue.userIds, MatchQueue.push, List.map_append, List.mem_append, List.map_cons,
          List.map_nil, List.mem_singleton] at hm
        rcases hm with hm | rfl
        · exact hi.apart u (Or.inl hm)
        · exact hi.apart _ (Or.inr hu)
      · simp [MatchQueue.held] at hm
  | cancel hfree hc =>
      obtain ⟨hix, hholder, hsub⟩ := hi.indexed.cancel hc
      refine ⟨hix, ?_⟩
      rintro u (hu | hu)
      · exact hi.apart u (Or.inl (hsub u hu))
      · simp [MatchQueue.held, hholder, hfree] at hu
  | sweep hfree now =>
      obtain ⟨hix, -, hsub⟩ := hi.indexed.handleTimeouts now
      refine ⟨hix.handOver _ .nil (by simp [MatchQueue.held]), ?_⟩
      rintro u (hu | hu)
      · exact hi.apart u (Or.inl (hsub u hu))
      · simp [MatchQueue.held] at hu
  | pop hheld hp =>
      obtain ⟨hix, hsub, ha, hb⟩ := hi.indexed.popPair hp
      refine ⟨hix, ?_⟩
      rintro u (hu | hu)
      · exact hi.apart u (Or.inl (hsub u hu))
      · simp only [MatchQueue.held, List.mem_cons, List.not_mem_nil, or_false] at hu
        rcases hu with rfl | rfl
        · exact hi.apart _ (Or.inl ha)
        · exact hi.apart _ (Or.inl hb)
  | leave hheld =>
      refine ⟨hi.indexed.handOver _ .nil (by simp [MatchQueue.held]), ?_⟩
      rintro u (hu | hu)
      · exact hi.apart u (Or.inl hu)
      · simp [MatchQueue.held] at hu

theorem newContext_sound (cfg : Config D) (s : Server) {first second : AuthUser} (h : first.userId ≠ second.userId) :
    (s.newContext cfg (pairParticipants first second)).Sound where
  pair := ⟨_, _, rfl, h⟩
  members := by
    intro u
    simp [newContext, pairParticipants, SessionContext.userIds, -AList.insert_empty, AList.mem_insert, or_comm]
  stage := ⟨rfl, fun _ => ⟨rfl, rfl⟩, fun _ => rfl⟩

theorem Inv.create {s : Server} (h : s.Inv) {first second : AuthUser}
    (hheld : s.queue.holder = .creating first second) :
    ({ s.createSession cfg (pairParticipants first second) with
      queue := { s.queue with holder := .pairing } } : Server).Inv := by
  have hnodup := h.indexed.held.1
  have hnone : ∀ u, u = first.userId ∨ u = second.userId → s.userToSession.lookup u = none := by
    intro u hu
    exact h.apart u (Or.inr (by simpa [MatchQueue.held, hheld] using hu))
  simp only [MatchQueue.held, hheld, List.nodup_cons, List.mem_singleton] at hnodup
  have hopen : ¬ (s.newContext cfg (pairParticipants first second)).Finished :=
    SessionContext.not_finished_of_open rfl
  have hfresh : ∀ (k : Nat) (c : SessionContext), s.contexts[k]? = some c →
      c.id ≠ sessionId s.nextSessionId := by
    intro k c hk he
    rw [h.ids k c hk, h.next] at he
    have hlt := (List.getElem?_eq_some_iff.mp hk).1
    have := sessionId_injective he
    omega
  have hbound : ∀ {k : Nat} {c : SessionContext}, s.contexts[k]? = some c → k ≠ s.contexts.length := by
    intro k c hk
    have := (List.getElem?_eq_some_iff.mp hk).1
    omega
  refine ⟨?_, ?_, ?_, ?_, ?_, h.indexed.handOver _ .nil (by simp [MatchQueue.held]), ?_⟩
  · simp [createSession, h.next]
  · intro j e he
    simp only [createSession, getElem?_concat_eq] at he
    split at he
    next hj => cases he; rw [hj, ← h.next]; rfl
    next => exact h.ids j e he
  · intro j e he
    simp only [createSession, getElem?_concat_eq] at he
    split at he
    next => cases he; exact newContext_sound cfg s hnodup.1
    next => exact h.sound j e he
  · intro id j
    simp only [createSession, getElem?_concat_eq, Table.lookup_insert_eq]
    by_cases hid : id = sessionId s.nextSessionId
    · subst hid
      simp only [newContext, if_true, Option.some.injEq]
      constructor
      · rintro rfl
        exact ⟨_, if_pos rfl, rfl, hopen⟩
      · rintro ⟨e, he, hide, -⟩
        by_contra hj
        rw [if_neg (Ne.symm hj)] at he
        exact hfresh j e he hide
    · rw [if_neg (show id ≠ (s.newContext cfg (pairParticipants first second)).id from hid), h.active]
      constructor
      · rintro ⟨e, he, hide, hf⟩
        exact ⟨e, by rw [if_neg (hbound he)]; exact he, hide, hf⟩
      · rintro ⟨e, he, hide, hf⟩
        split at he
        next => cases he; exact absurd hide.symm hid
        next => exact ⟨e, he, hide, hf⟩
  · intro u id
    simp only [createSession, getElem?_concat_eq]
    by_cases hu : u ∈ (pairParticipants first second).map (·.userId)
    · have hno : s.userToSession.lookup u = none := hnone u (by simpa [pairParticipants] using hu)
      rw [show ∀ map : Table Int String, ((pairParticipants first second).foldl
        (fun map p => map.insert p.userId (s.newContext cfg (pairParticipants first second)).id) map).lookup u =
          some (sessionId s.nextSessionId) from ?_]
      · constructor
        · intro he
          exact ⟨_, _, if_pos rfl, Option.some.inj he, hopen, hu⟩
        · rintro ⟨j, e, he, hide, hf, hue⟩
          split at he
          next => cases he; rw [← hide]; rfl
          next =>
            rw [(h.owner u id).mpr ⟨j, e, he, hide, hf, hue⟩] at hno
            cases hno
      · intro map
        simp only [pairParticipants, List.map_cons, List.map_nil, List.mem_cons, List.not_mem_nil, or_false] at hu
        simp only [pairParticipants, List.foldl_cons, List.foldl_nil, Table.lookup_insert_eq]
        rcases hu with rfl | rfl
        · rw [if_neg hnodup.1, if_pos rfl]; rfl
        · rw [if_pos rfl]; rfl
    · rw [foldl_insert_lookup _ _ _ _ hu, h.owner]
      constructor
      · rintro ⟨j, e, he, hide, hf, hue⟩
        exact ⟨j, e, by rw [if_neg (hbound he)]; exact he, hide, hf, hue⟩
      · rintro ⟨j, e, he, hide, hf, hue⟩
        split at he
        next => cases he; exact absurd hue hu
        next => exact ⟨j, e, he, hide, hf, hue⟩
  · intro u hu
    have hin : u ∈ s.queue.userIds := by simpa [MatchQueue.held, MatchQueue.userIds] using hu
    have hout : u ∉ (pairParticipants first second).map (·.userId) := by
      intro hm
      refine h.indexed.held.2 u ?_ hin
      simpa [MatchQueue.held, hheld, pairParticipants] using hm
    simp only [createSession]
    rw [foldl_insert_lookup _ _ _ _ hout]
    exact h.apart u (Or.inl hin)

theorem Inv.setOpen {s : Server} (h : s.Inv) {k : Nat} {c d : SessionContext} (hk : s.contexts[k]? = some c)
    (hs : d.Sound) (hshape : c.SameShape d) (hc : ¬ c.Finished) (hd : ¬ d.Finished) : (s.setContext k d).Inv :=
  h.setContext hk hs hshape (iff_of_false hd hc)

theorem Inv.resumeAt {s : Server} (h : s.Inv) {k : Nat} {c : SessionContext} (hk : s.contexts[k]? = some c)
    {r : Resume} (hs : (c.resumeAt r).Sound) (hc : c.strand.resume ≠ .idle) (hr : r ≠ .idle) :
    (s.setContext k (c.resumeAt r)).Inv :=
  h.setOpen hk hs ⟨rfl, rfl, rfl⟩ (SessionContext.not_finished_of_busy hc) (SessionContext.not_finished_of_busy hr)

theorem inv_effect {s t : Server} (h : s.Inv) (he : Effect cfg s t) : t.Inv := by
  cases he with
  | stay => exact h
  | queue hq uids =>
      obtain ⟨hi, ha⟩ := hq.keeps h
      exact h.congr rfl rfl rfl rfl hi ha
  | create hheld => exact h.create hheld
  | start hk hfree hq now =>
      obtain ⟨hs, hopen⟩ := (h.sound _ _ hk).start hfree hq now
      exact h.setOpen hk hs ⟨rfl, rfl, rfl⟩ (SessionContext.not_finished_of_open hopen)
        (SessionContext.not_finished_of_open hopen)
  | tick hk hfree ha now =>
      have hs := h.sound _ _ hk
      have hopen := (hs.armed hfree ha).1
      refine h.setOpen hk (hs.tick hfree ha _ now) (SessionContext.handleTick_shape _ _ _)
        (SessionContext.not_finished_of_open hopen) (SessionContext.not_finished_of_open ?_)
      rw [SessionContext.handleTick_ended]
      exact hopen
  | disarm hk hfree ha =>
      have hs := h.sound _ _ hk
      have hopen := (hs.armed hfree ha).1
      exact h.setOpen hk (hs.disarm hfree ha) ⟨rfl, rfl, rfl⟩ (SessionContext.not_finished_of_open hopen)
        (SessionContext.not_finished_of_open hopen)
  | @send k ctx hk e es hsends =>
      have hs := h.sound k ctx hk
      have hne : ctx.strand.sends ≠ [] := hsends ▸ List.cons_ne_nil e es
      have hbusy : ¬ ctx.Finished := SessionContext.not_finished_of_busy (hs.busy hne)
      have hbusy' : ¬ ctx.sent.Finished := SessionContext.not_finished_of_busy (hs.busy hne)
      exact (h.setOpen hk (hs.sent hne) ⟨rfl, rfl, rfl⟩ hbusy hbusy').congr rfl rfl rfl rfl h.indexed h.apart
  | schedule hk hsends hr =>
      obtain ⟨hs, hopen⟩ := (h.sound _ _ hk).scheduleTick hsends hr
      exact h.setOpen hk hs ⟨rfl, rfl, rfl⟩ (SessionContext.not_finished_of_open hopen)
        (SessionContext.not_finished_of_open hopen)
  | finish hk hsends hr =>
      obtain ⟨hs, hopen, hbusy⟩ := (h.sound _ _ hk).finish hr
      exact h.setOpen hk hs (SessionContext.finishSession_shape _ _)
        (SessionContext.not_finished_of_open hopen) (SessionContext.not_finished_of_busy hbusy)
  | @save k ctx hk hsends record hr hnew =>
      have hs := ((h.sound k ctx hk).finalize hsends hr (usersToEnsure record ctx.participants)).1
      exact (h.resumeAt hk hs (by simp [hr]) (by simp)).congr rfl rfl rfl rfl h.indexed h.apart
  | skip hk hsends hr hold =>
      exact h.resumeAt hk ((h.sound _ _ hk).finalize hsends hr []).2 (by simp [hr]) (by simp)
  | @ensure k ctx hk hsends record user todo hr =>
      have hs := ((h.sound k ctx hk).ensure hr todo).1
      exact (h.resumeAt hk hs (by simp [hr]) (by simp)).congr rfl rfl rfl rfl h.indexed h.apart
  | rate hk hsends hr =>
      have hs := ((h.sound _ _ hk).ensure hr []).2
      exact (h.resumeAt hk hs (by simp [hr]) (by simp)).congr rfl rfl rfl rfl h.indexed h.apart
  | release hk hsends hr => exact h.release hk hr
  | call hl => exact h.congr rfl rfl rfl rfl h.indexed h.apart
  | @input n call ctx hn hk hfree =>
      obtain ⟨hshape, hstrand, hended, -⟩ := SessionContext.handleInput_frame ctx call.1
      refine (h.setContext hk ((h.sound _ _ hk).input hfree call.1) hshape ?_).congr rfl rfl rfl rfl h.indexed h.apart
      rw [SessionContext.Finished, SessionContext.Finished, hstrand, hended]
  | rename userId username => exact h.congr rfl rfl rfl rfl h.indexed h.apart

theorem shape_set {s : Server} {k : Nat} {c d : SessionContext} (hk : s.contexts[k]? = some c)
    (h : c.SameShape d) (j : Nat) (e : SessionContext) (he : s.contexts[j]? = some e) :
    ∃ f : SessionContext, (s.contexts.set k d)[j]? = some f ∧ e.SameShape f := by
  rw [getElem?_set_of_some hk]
  by_cases hj : j = k
  · subst hj
    rw [hk] at he
    cases he
    exact ⟨d, if_pos rfl, h⟩
  · exact ⟨e, by rw [if_neg hj]; exact he, rfl, rfl, rfl⟩

theorem shape_effect {s t : Server} (he : Effect cfg s t) (j : Nat) (e : SessionContext)
    (hj : s.contexts[j]? = some e) : ∃ f : SessionContext, t.contexts[j]? = some f ∧ e.SameShape f := by
  cases he with
  | stay | queue | call | rename => exact ⟨e, hj, rfl, rfl, rfl⟩
  | create =>
      have hlt := (List.getElem?_eq_some_iff.mp hj).1
      exact ⟨e, by simpa [createSession, List.getElem?_append_left hlt] using hj, rfl, rfl, rfl⟩
  | start hk | disarm hk | send hk | schedule hk | save hk | skip hk | ensure hk | rate hk | release hk =>
      refine shape_set hk ?_ j e hj
      exact ⟨rfl, rfl, rfl⟩
  | @tick k ctx hk hfree ha now =>
      refine shape_set hk ?_ j e hj
      exact SessionContext.handleTick_shape cfg.maxTicks ctx.disarm now
  | finish hk =>
      refine shape_set hk ?_ j e hj
      exact SessionContext.finishSession_shape _ _
  | input _ hk =>
      refine shape_set hk ?_ j e hj
      exact (SessionContext.handleInput_frame _ _).1

theorem shape_leads {s t : Server} (h : (machine cfg).Leads s t) (j : Nat) (e : SessionContext)
    (hj : s.contexts[j]? = some e) : ∃ f : SessionContext, t.contexts[j]? = some f ∧ e.SameShape f := by
  refine h.preserves (P := fun t => ∃ f : SessionContext, t.contexts[j]? = some f ∧ e.SameShape f) ?_
    ⟨e, hj, rfl, rfl, rfl⟩
  rintro t a u ⟨f, hf, hshape⟩ hs
  obtain ⟨g, hg, hshape'⟩ := shape_effect (effect_of_step hs) j f hf
  exact ⟨g, hg, hshape'.1.trans hshape.1, hshape'.2.1.trans hshape.2.1, hshape'.2.2.trans hshape.2.2⟩

theorem move_set {s : Server} {k : Nat} {c d : SessionContext} {P : SessionContext → SessionContext → Prop}
    (hk : s.contexts[k]? = some c) (h : P c d) (j : Nat) (e : SessionContext)
    (he : (s.contexts.set k d)[j]? = some e) :
    ∃ f : SessionContext, s.contexts[j]? = some f ∧ (e = f ∨ P f e) := by
  rw [getElem?_set_of_some hk] at he
  split at he
  next hj =>
    cases he
    exact ⟨c, hj ▸ hk, Or.inr h⟩
  next => exact ⟨e, he, Or.inl rfl⟩

/-- Every context after a step is new, or was there before and has made one
move at most. -/
theorem move_effect {s t : Server} (he : Effect cfg s t) (j : Nat) (e : SessionContext)
    (hj : t.contexts[j]? = some e) :
    (∃ c : SessionContext, s.contexts[j]? = some c ∧ (e = c ∨ c.Move cfg.maxTicks e)) ∨
      (j = s.contexts.length ∧ ∃ first second, s.queue.holder = .creating first second ∧
        e = s.newContext cfg (pairParticipants first second)) := by
  cases he with
  | stay | queue | call | rename => exact Or.inl ⟨e, hj, Or.inl rfl⟩
  | @create first second hheld =>
      simp only [createSession, getElem?_concat_eq] at hj
      split at hj
      next hlen =>
        cases hj
        exact Or.inr ⟨hlen, first, second, hheld, rfl⟩
      next => exact Or.inl ⟨e, hj, Or.inl rfl⟩
  | start hk hfree hq now => exact Or.inl (move_set hk (.start hfree hq now) j e hj)
  | tick hk hfree ha now => exact Or.inl (move_set hk (.tick hfree ha now) j e hj)
  | disarm hk hfree ha => exact Or.inl (move_set hk (.disarm hfree ha) j e hj)
  | send hk hs => exact Or.inl (move_set hk (.send (by simp [hs])) j e hj)
  | schedule hk hs hr => exact Or.inl (move_set hk (.schedule hs hr) j e hj)
  | finish hk hs hr => exact Or.inl (move_set hk (.finish hs hr) j e hj)
  | save hk hs hr =>
      exact Or.inl (move_set hk (.resume hs (by rw [hr]; trivial) (Or.inr trivial)) j e hj)
  | skip hk hs hr =>
      exact Or.inl (move_set hk (.resume hs (by rw [hr]; trivial) (Or.inr trivial)) j e hj)
  | ensure hk hs hr =>
      exact Or.inl (move_set hk (.resume hs (by rw [hr]; trivial) (Or.inr trivial)) j e hj)
  | rate hk hs hr =>
      exact Or.inl (move_set hk (.resume hs (by rw [hr]; trivial) (Or.inr trivial)) j e hj)
  | release hk hs hr =>
      exact Or.inl (move_set hk (.resume hs (by rw [hr]; trivial) (Or.inl rfl)) j e hj)
  | input hn hk hfree => exact Or.inl (move_set hk (.input hfree _) j e hj)

theorem leads_inv {s t : Server} (h : s.Inv) (ht : (machine cfg).Leads s t) : t.Inv := by
  refine Machine.Leads.preserves ?_ ht h
  intro s a t hi hs
  exact inv_effect hi (effect_of_step hs)

theorem reachable_inv {s : Server} (h : (machine cfg).Reachable s) : s.Inv :=
  leads_inv Inv.empty h

/-- The induction over the life of a context. -/
theorem reachable_context {P : SessionContext → Prop}
    (hnew : ∀ (s : Server) first second, first.userId ≠ second.userId →
      P (s.newContext cfg (pairParticipants first second)))
    (hmove : ∀ c d : SessionContext, c.Sound → c.Move cfg.maxTicks d → P c → P d)
    {s : Server} (h : (machine cfg).Reachable s) {k : Nat} {ctx : SessionContext} (hk : s.contexts[k]? = some ctx) :
    P ctx := by
  have hall : ∀ (k : Nat) (ctx : SessionContext), s.contexts[k]? = some ctx → P ctx := by
    refine Machine.Reachable.induction
      (P := fun s : Server => ∀ (k : Nat) (ctx : SessionContext), s.contexts[k]? = some ctx → P ctx) ?_ ?_ h
    · intro k ctx hk
      simp [machine] at hk
    · intro s a t hr hp hs k ctx hk
      have hinv := reachable_inv hr
      rcases move_effect (effect_of_step hs) k ctx hk with ⟨c, hc, rfl | hm⟩ | ⟨-, first, second, hheld, rfl⟩
      · exact hp k ctx hc
      · exact hmove c ctx (hinv.sound k c hc) hm (hp k c hc)
      · have hnodup := hinv.indexed.held.1
        simp only [MatchQueue.held, hheld, List.nodup_cons, List.mem_singleton] at hnodup
        exact hnew s first second hnodup.1
  exact hall k ctx hk

end Server

end GameServer
