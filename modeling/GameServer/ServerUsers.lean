import GameServer.ResultInvariant
import GameServer.Standings

namespace GameServer

namespace MatchQueue

def users (q : MatchQueue) : List AuthUser :=
  q.queue.map (·.entry.user) ++
    match q.holder with
    | .free | .pairing => []
    | .joining user _ => [user]
    | .creating first second => [first, second]

theorem users_free {q : MatchQueue} (h : q.holder = .free ∨ q.holder = .pairing) :
    q.users = q.queue.map (·.entry.user) := by
  rcases h with h | h <;> rw [users, h, List.append_nil]

theorem users_subset {q r : MatchQueue} (hr : r.holder = .free ∨ r.holder = .pairing)
    (hq : q.holder = .free ∨ q.holder = .pairing) (h : r.queue.Sublist q.queue) : r.users ⊆ q.users := by
  rw [users_free hr, users_free hq]
  exact (h.map _).subset

theorem cancel_sublist {q r : MatchQueue} {userId : Int} (h : q.cancel userId = some r) :
    r.queue.Sublist q.queue ∧ r.holder = q.holder := by
  rw [cancel] at h
  split at h
  next => cases h
  next =>
    cases h
    exact ⟨List.filter_sublist, rfl⟩

end MatchQueue

theorem SessionContext.Move.shape {maxTicks : Nat} {c d : SessionContext} (h : c.Move maxTicks d) :
    c.SameShape d := by
  cases h with
  | start | disarm | send | schedule | resume => exact ⟨rfl, rfl, rfl⟩
  | tick => exact handleTick_shape _ c.disarm _
  | finish => exact finishSession_shape _ _
  | input => exact (handleInput_frame _ _).1

namespace RatingService

variable {ok : AuthUser → Prop} {entries : RatingService}

/-- Every entry but that of user 0, who never registers, shows the name of its
user. -/
def Named (ok : AuthUser → Prop) (entries : RatingService) : Prop :=
  ∀ u entry, entries.lookup u = some entry → u ≠ 0 → ok ⟨u, entry.username⟩

theorem Named.ensureUser (h : entries.Named ok) {u : Int} {name : String}
    (hu : ok ⟨u, name⟩ ∨ (name = "" ∧ u ∈ entries)) : (entries.ensureUser u name).Named ok := by
  intro v entry hl hv
  rw [RatingService.ensureUser] at hl
  split at hl
  next hnone =>
    rw [Table.lookup_insert_eq] at hl
    split at hl
    next hvu =>
      cases hl
      rcases hu with hu | ⟨-, hmem⟩
      · exact hvu ▸ hu
      · exact absurd hmem (AList.lookup_eq_none.mp hnone)
    next => exact h v entry hl hv
  next old hsome =>
    split at hl
    next hname =>
      rw [Table.lookup_insert_eq] at hl
      split at hl
      next hvu =>
        cases hl
        rcases hu with hu | ⟨hempty, -⟩
        · exact hvu ▸ hu
        · exact absurd hempty hname
      next => exact h v entry hl hv
    next => exact h v entry hl hv

theorem Named.ensure (h : entries.Named ok) {u : Int} (hu : u ∈ entries ∨ u = 0) : (entries.ensure u).Named ok := by
  intro v entry hl hv
  rw [RatingService.ensure] at hl
  split at hl
  next => exact h v entry hl hv
  next hnew =>
    rw [Table.lookup_insert_eq] at hl
    split at hl
    next hvu => exact absurd (hvu.trans (hu.resolve_left hnew)) hv
    next => exact h v entry hl hv

theorem Named.modify (h : entries.Named ok) (u : Int) {f : RatingEntry → RatingEntry}
    (hf : ∀ entry, (f entry).username = entry.username) : Named ok (Table.modify entries u f) := by
  intro v entry hl hv
  rw [Table.lookup_modify] at hl
  split at hl
  next hvu =>
    obtain ⟨old, hold, rfl⟩ := Option.map_eq_some_iff.mp hl
    rw [hf]
    exact h v old (hvu ▸ hold) hv
  next => exact h v entry hl hv

theorem Named.applyMatchResult (h : entries.Named ok) {D : Type} (elo : Elo D) {w l : Int}
    (hw : w ∈ entries ∨ w = 0) (hl : l ∈ entries ∨ l = 0) : (entries.applyMatchResult elo w l).1.Named ok := by
  have hl' : l ∈ entries.ensure w ∨ l = 0 := hl.imp_left fun hin => (mem_ensure entries w l).mpr (Or.inr hin)
  simp only [RatingService.applyMatchResult, addLoss, addWin, setRating]
  refine Named.modify ?_ l fun _ => rfl
  refine Named.modify ?_ w fun _ => rfl
  refine Named.modify ?_ l fun _ => rfl
  refine Named.modify ?_ w fun _ => rfl
  exact (h.ensure hw).ensure hl'

def Ready (ok : AuthUser → Prop) (entries : RatingService) (todo : List (Int × String)) : Prop :=
  ∀ pre u name post, todo = pre ++ (u, name) :: post →
    ok ⟨u, name⟩ ∨ (name = "" ∧ (u ∈ entries ∨ u ∈ pre.map (·.1)))

theorem Ready.mono {todo : List (Int × String)} (h : entries.Ready ok todo) {more : RatingService}
    (hmore : ∀ u ∈ entries, u ∈ more) : more.Ready ok todo := by
  intro pre u name post hsplit
  rcases h pre u name post hsplit with hok | ⟨hname, hu | hu⟩
  · exact Or.inl hok
  · exact Or.inr ⟨hname, Or.inl (hmore u hu)⟩
  · exact Or.inr ⟨hname, Or.inr hu⟩

theorem Ready.next {u : Int} {name : String} {todo : List (Int × String)} (h : entries.Ready ok ((u, name) :: todo)) :
    (entries.ensureUser u name).Ready ok todo := by
  intro pre v other post hsplit
  rcases h ((u, name) :: pre) v other post (by rw [hsplit, List.cons_append]) with hok | ⟨hname, hv | hv⟩
  · exact Or.inl hok
  · exact Or.inr ⟨hname, Or.inl ((mem_ensureUser _ _ _ _).mpr (Or.inr hv))⟩
  · rcases List.mem_cons.mp hv with rfl | hv
    · exact Or.inr ⟨hname, Or.inl ((mem_ensureUser _ _ _ _).mpr (Or.inl rfl))⟩
    · exact Or.inr ⟨hname, Or.inr hv⟩

theorem Ready.head {u : Int} {name : String} {todo : List (Int × String)} (h : entries.Ready ok ((u, name) :: todo)) :
    ok ⟨u, name⟩ ∨ (name = "" ∧ u ∈ entries) := by
  simpa using h [] u name todo rfl

theorem ready_usersToEnsure {p q : SessionParticipant} {record : MatchResultRecord} (h1 : record.user1Id = p.userId)
    (h2 : record.user2Id = q.userId) (hp : ok ⟨p.userId, p.username⟩) (hq : ok ⟨q.userId, q.username⟩) :
    entries.Ready ok (usersToEnsure record [p, q]) := by
  intro pre u name post hsplit
  rw [usersToEnsure, h1, h2] at hsplit
  match pre with
  | [] =>
      cases hsplit
      exact Or.inl hp
  | [a] =>
      cases hsplit
      exact Or.inl hq
  | [a, b] =>
      cases hsplit
      exact Or.inr ⟨rfl, Or.inr (by simp)⟩
  | [a, b, c] =>
      cases hsplit
      exact Or.inr ⟨rfl, Or.inr (by simp)⟩
  | a :: b :: c :: d :: rest => simp at hsplit

end RatingService

namespace Server

variable {D : Type} {cfg : Config D} {s t : Server}

theorem queue_users_of_step {a : Action} (h : s.step cfg a = some t) {user : AuthUser} (hu : user ∈ t.queue.users) :
    user ∈ s.queue.users ∨ ∃ timeout, a = .joinCheck user timeout := by
  cases a with
  | joinCheck other timeout =>
      simp only [step] at h
      split at h
      next hfree =>
        by_cases hr : s.joinRefused other.userId = true
        · simp only [joinCheck, hr, if_true, Option.some.injEq] at h
          exact Or.inl (h ▸ hu)
        · simp only [joinCheck, hr, Bool.false_eq_true, if_false, Option.some.injEq] at h
          subst h
          rcases List.mem_append.mp hu with hu | hu
          · exact Or.inl (List.mem_append_left _ hu)
          · rw [List.mem_singleton.mp hu]
            exact Or.inr ⟨timeout, rfl⟩
      next => cases h
  | joinPush now =>
      simp only [step] at h
      split at h
      next other timeout hheld =>
        cases h
        rw [MatchQueue.users_free (Or.inl rfl)] at hu
        rw [MatchQueue.users, hheld]
        simpa [MatchQueue.push] using hu
      next => cases h
  | cancel userId =>
      simp only [step] at h
      split at h
      next hfree =>
        split at h
        next hc =>
          cases h
          obtain ⟨hsub, hholder⟩ := MatchQueue.cancel_sublist hc
          exact Or.inl (MatchQueue.users_subset (Or.inl (hholder.trans hfree)) (Or.inl hfree) hsub hu)
        next =>
          cases h
          exact Or.inl hu
      next => cases h
  | queueTick now =>
      simp only [step] at h
      split at h
      next hfree =>
        cases h
        refine Or.inl (MatchQueue.users_subset (Or.inr rfl) (Or.inl hfree.1) ?_ hu)
        simp only [MatchQueue.handleTimeouts, MatchQueue.sweep_queue]
        exact List.filter_sublist
      next => cases h
  | pair =>
      simp only [step] at h
      split at h
      next hheld =>
        rw [MatchQueue.users_free (Or.inr hheld)]
        split at h
        next hp =>
          cases h
          rw [MatchQueue.popPair] at hp
          split at hp
          next hqueue =>
            cases hp
            rw [hqueue]
            simp only [MatchQueue.users, List.mem_append, List.mem_cons, List.map_cons, List.not_mem_nil,
              or_false] at hu ⊢
            tauto
          next => cases hp
        next =>
          cases h
          rw [MatchQueue.users_free (Or.inl rfl)] at hu
          exact Or.inl hu
      next => cases h
  | createSession =>
      simp only [step] at h
      split at h
      next hheld =>
        cases h
        rw [MatchQueue.users_free (Or.inr rfl)] at hu
        exact Or.inl (List.mem_append_left _ hu)
      next => cases h
  | startSession | timer | proceed | submitLookup | submitHandler | ensureUser =>
      rcases frame_of_step h with ⟨hqueue, -⟩ | ⟨-, hqueue, -⟩
      · cases hqueue
      · exact Or.inl (hqueue ▸ hu)

theorem calls_of_step {a : Action} (h : s.step cfg a = some t) {call : SessionInput × Nat} (hc : call ∈ t.calls) :
    call ∈ s.calls ∨ a = .submitLookup call.1 := by
  cases a with
  | joinCheck user timeout =>
      by_cases hr : s.joinRefused user.userId = true <;> simp only [step, joinCheck, hr] at h <;> split at h <;>
        cases h <;> exact Or.inl hc
  | joinPush | queueTick | createSession =>
      simp only [step] at h
      split at h <;> cases h
      exact Or.inl hc
  | cancel | pair =>
      simp only [step] at h
      split at h
      next => split at h <;> cases h <;> exact Or.inl hc
      next => cases h
  | startSession k now | timer k ok now =>
      obtain ⟨c, -, h⟩ := Option.bind_eq_some_iff.mp h
      split at h <;> cases h
      exact Or.inl hc
  | proceed k =>
      obtain ⟨c, -, h⟩ := Option.bind_eq_some_iff.mp h
      rw [Server.proceed] at h
      split at h
      next => cases h; exact Or.inl hc
      next => split at h <;> cases h <;> exact Or.inl hc
  | submitLookup input =>
      simp only [step] at h
      split at h
      next =>
        cases h
        rcases List.mem_append.mp hc with hc | hc
        · exact Or.inl hc
        · rw [List.mem_singleton.mp hc]
          exact Or.inr rfl
      next =>
        cases h
        exact Or.inl hc
  | submitHandler n =>
      obtain ⟨call, -, h⟩ := Option.bind_eq_some_iff.mp h
      obtain ⟨c, -, h⟩ := Option.bind_eq_some_iff.mp h
      split at h <;> cases h
      exact Or.inl (List.mem_of_mem_eraseIdx hc)
  | ensureUser =>
      cases h
      exact Or.inl hc

structure Peopled (ok : AuthUser → Prop) (s : Server) : Prop where
  queued : ∀ user ∈ s.queue.users, ok user
  seated : ∀ (k : Nat) (c : SessionContext), s.contexts[k]? = some c →
    ∀ p ∈ c.participants, ok ⟨p.userId, p.username⟩

theorem Peopled.mono {ok better : AuthUser → Prop} (h : s.Peopled ok) (hok : ∀ user, ok user → better user) :
    s.Peopled better :=
  ⟨fun user hu => hok user (h.queued user hu), fun k c hk p hp => hok _ (h.seated k c hk p hp)⟩

theorem Peopled.step {ok : AuthUser → Prop} (h : s.Peopled ok) {a : Action} (hs : s.step cfg a = some t)
    (ha : ∀ user timeout, a = .joinCheck user timeout → ok user) : t.Peopled ok where
  queued user hu := by
    rcases queue_users_of_step hs hu with hu | ⟨timeout, rfl⟩
    · exact h.queued user hu
    · exact ha user timeout rfl
  seated k c hk p hp := by
    rcases move_effect (effect_of_step hs) k c hk with ⟨d, hd, rfl | hm⟩ | ⟨-, first, second, hheld, rfl⟩
    · exact h.seated k c hd p hp
    · exact h.seated k d hd p (hm.shape.2.1 ▸ hp)
    · have husers : first ∈ s.queue.users ∧ second ∈ s.queue.users := by
        rw [MatchQueue.users, hheld]
        simp
      rcases List.mem_pair.mp hp with rfl | rfl
      · exact h.queued first husers.1
      · exact h.queued second husers.2

/-- The ratings show the names, and what is left of each FinalizeResult goes on
to do so. -/
structure Named (ok : AuthUser → Prop) (s : Server) : Prop where
  entries : s.ratings.Named ok
  todo : ∀ (k : Nat) (c : SessionContext) record todo, s.contexts[k]? = some c →
    c.strand.resume = .ensureUsers record todo →
      s.ratings.Ready ok todo ∧ ∀ u ∈ c.userIds, u ∈ s.ratings ∨ u ∈ todo.map (·.1)

theorem Named.mono {ok better : AuthUser → Prop} (h : s.Named ok) (hok : ∀ user, ok user → better user) :
    s.Named better where
  entries u entry hl hu := hok _ (h.entries u entry hl hu)
  todo k c record todo hk hr := by
    obtain ⟨hready, hin⟩ := h.todo k c record todo hk hr
    refine ⟨?_, hin⟩
    intro pre u name post hsplit
    exact (hready pre u name post hsplit).imp_left (hok _)

theorem Named.move {ok : AuthUser → Prop} (h : s.Named ok) {k : Nat} {c d : SessionContext}
    (hk : s.contexts[k]? = some c) (hc : t.contexts = s.contexts.set k d) (hentries : t.ratings.Named ok)
    (hgrow : ∀ u ∈ s.ratings, u ∈ t.ratings)
    (hd : ∀ record todo, d.strand.resume = .ensureUsers record todo →
      t.ratings.Ready ok todo ∧ ∀ u ∈ d.userIds, u ∈ t.ratings ∨ u ∈ todo.map (·.1)) : t.Named ok where
  entries := hentries
  todo j e record todo he hr := by
    rw [hc, getElem?_set_of_some hk] at he
    split at he
    next =>
      cases he
      exact hd record todo hr
    next =>
      obtain ⟨hready, hin⟩ := h.todo j e record todo he hr
      exact ⟨hready.mono hgrow, fun u hu => (hin u hu).imp_left (hgrow u)⟩

theorem Named.idle {ok : AuthUser → Prop} (h : s.Named ok) {k : Nat} {c d : SessionContext}
    (hk : s.contexts[k]? = some c) (hc : t.contexts = s.contexts.set k d) (hratings : t.ratings = s.ratings)
    (hd : ∀ record todo, d.strand.resume ≠ .ensureUsers record todo) : t.Named ok :=
  h.move hk hc (hratings ▸ h.entries) (fun _ hu => hratings ▸ hu) fun record todo hr => absurd hr (hd record todo)

theorem Named.grow {ok : AuthUser → Prop} (h : s.Named ok) {a : Action} (hs : s.step cfg a = some t)
    (hqueue : a.onQueue = true) (hratings : t.ratings = s.ratings) : t.Named ok where
  entries := hratings ▸ h.entries
  todo k c record todo hk hr := by
    rw [hratings]
    rcases frame_of_step hs with ⟨-, new, hnew⟩ | ⟨hno, -⟩
    · by_cases hlt : k < s.contexts.length
      · rw [hnew, List.getElem?_append_left hlt] at hk
        exact h.todo k c record todo hk hr
      · rcases move_effect (effect_of_step hs) k c hk with ⟨d, hd, -⟩ | ⟨-, first, second, -, rfl⟩
        · exact absurd (List.getElem?_eq_some_iff.mp hd).1 hlt
        · cases hr
    · rw [hqueue] at hno
      cases hno

theorem Named.turn {ok : AuthUser → Prop} (h : s.Named ok) {a : Action} {k : Nat} {c : SessionContext}
    (hk : s.contexts[k]? = some c) (hturn : Turn cfg s t k c a) (ha : ∀ k, a ≠ .proceed k)
    (hratings : t.ratings = s.ratings) : t.Named ok := by
  cases hturn with
  | start hfree now ht =>
      apply h.idle hk ht hratings
      intro record todo hr
      cases hr
  | timer hfree ok now ht =>
      apply h.idle hk ht hratings
      intro record todo hr
      split at hr
      next =>
        rw [SessionContext.handleTick] at hr
        split at hr
        next => cases hfree.2.symm.trans hr
        next =>
          dsimp only at hr
          split at hr <;> cases hr
      next => cases hfree.2.symm.trans hr
  | proceed => exact absurd rfl (ha k)
  | input hfree hn ht =>
      apply h.idle hk ht hratings
      intro record todo hr
      rw [(SessionContext.handleInput_frame c _).2.1] at hr
      cases hfree.2.symm.trans hr

theorem Named.proceed {ok : AuthUser → Prop} (h : s.Named ok) (hp : s.Peopled ok) {k : Nat} {c : SessionContext}
    (hk : s.contexts[k]? = some c) (hsound : c.Sound)
    (hwinner : c.winnerUserId ∈ c.userIds ∨ c.winnerUserId = 0) (hs : s.proceed cfg k c = some t) : t.Named ok := by
  have hstage := hsound.stage
  rw [Server.proceed] at hs
  split at hs
  next =>
    cases hs
    exact h.move hk rfl h.entries (fun _ hu => hu) fun record todo hr => h.todo k c record todo hk hr
  next =>
    split at hs
    next => cases hs
    next =>
      cases hs
      exact h.idle hk rfl rfl fun _ _ hr => by cases hr
    next now hr' =>
      cases hs
      refine h.idle hk rfl rfl ?_
      intro record todo hr
      rw [SessionContext.finishSession] at hr
      split at hr
      next => cases hr
      next =>
        dsimp only at hr
        split at hr <;> cases hr
    next record hr' =>
      simp only [SessionContext.Stage, hr'] at hstage
      obtain ⟨-, -, -, p, q, now, hpair, hrecord⟩ := hstage
      by_cases hin : record.sessionId ∈ s.records
      · simp only [ResultRepository.saveIfAbsent_old hin, Bool.false_eq_true, if_false, Option.some.injEq] at hs
        subst hs
        exact h.idle hk rfl rfl fun _ _ hr => by cases hr
      · simp only [ResultRepository.saveIfAbsent_new hin, if_true, Option.some.injEq] at hs
        subst hs
        refine h.move hk rfl h.entries (fun _ hu => hu) ?_
        intro other todo hr
        cases hr
        have hseated := hp.seated k c hk
        rw [hpair] at hseated
        rw [hpair]
        refine ⟨RatingService.ready_usersToEnsure (by rw [hrecord]; rfl) (by rw [hrecord]; rfl)
          (hseated p (by simp)) (hseated q (by simp)), ?_⟩
        intro u hu
        right
        rw [SessionContext.userIds, SessionContext.resumeAt, hpair] at hu
        rw [usersToEnsure, List.map_append, List.map_map]
        exact List.mem_append_left _ hu
    next record user todo hr' =>
      cases hs
      obtain ⟨hready, hin⟩ := h.todo k c record (user :: todo) hk hr'
      have hgrow : ∀ u ∈ s.ratings, u ∈ s.ratings.ensureUser user.1 user.2 :=
        fun u hu => (RatingService.mem_ensureUser _ _ _ _).mpr (Or.inr hu)
      refine h.move hk rfl (h.entries.ensureUser hready.head) hgrow ?_
      intro other rest hr
      cases hr
      refine ⟨hready.next, ?_⟩
      intro u hu
      rcases hin u hu with hu | hu
      · exact Or.inl (hgrow u hu)
      · rcases List.mem_cons.mp hu with rfl | hu
        · exact Or.inl ((RatingService.mem_ensureUser _ _ _ _).mpr (Or.inl rfl))
        · exact Or.inr hu
    next record hr' =>
      cases hs
      simp only [SessionContext.Stage, hr'] at hstage
      obtain ⟨-, -, -, -, hrecord⟩ := hstage
      obtain ⟨hwon, hids⟩ := SessionContext.IsRecord.outcome hrecord
      have hrated : ∀ u ∈ c.userIds, u ∈ s.ratings := by
        intro u hu
        simpa using (h.todo k c record [] hk hr').2 u hu
      have hloser : record.loserId ∈ c.userIds := by
        rw [← hids, MatchResultRecord.loserId]
        split <;> simp
      refine h.move hk rfl (h.entries.applyMatchResult cfg.elo ?_ (Or.inl (hrated _ hloser))) ?_ ?_
      · rw [hwon]
        exact hwinner.imp_left (hrated _)
      · intro u hu
        exact (RatingService.mem_applyMatchResult _ _ _ _ _).mpr (Or.inr (Or.inr hu))
      · intro other rest hr
        cases hr
    next =>
      cases hs
      exact h.idle hk rfl rfl fun _ _ hr => by cases hr

theorem ratings_of_step {a : Action} (h : s.step cfg a = some t) (hp : ∀ k, a ≠ .proceed k)
    (he : ∀ userId username, a ≠ .ensureUser userId username) : t.ratings = s.ratings := by
  cases a with
  | proceed k => exact absurd rfl (hp k)
  | ensureUser userId username => exact absurd rfl (he userId username)
  | joinCheck user timeout =>
      by_cases hr : s.joinRefused user.userId = true <;> simp only [step, joinCheck, hr] at h <;> split at h <;>
        cases h <;> rfl
  | joinPush | queueTick | createSession =>
      simp only [step] at h
      split at h <;> cases h
      rfl
  | cancel | pair =>
      simp only [step] at h
      split at h
      next => split at h <;> cases h <;> rfl
      next => cases h
  | startSession k now | timer k ok now =>
      obtain ⟨c, -, h⟩ := Option.bind_eq_some_iff.mp h
      split at h <;> cases h
      rfl
  | submitLookup input =>
      simp only [step] at h
      split at h <;> cases h <;> rfl
  | submitHandler n =>
      obtain ⟨call, -, h⟩ := Option.bind_eq_some_iff.mp h
      obtain ⟨c, -, h⟩ := Option.bind_eq_some_iff.mp h
      split at h <;> cases h
      rfl

theorem winner_of_reachable (hr : (machine cfg).Reachable s) {k : Nat} {c : SessionContext}
    (hk : s.contexts[k]? = some c) : c.winnerUserId ∈ c.userIds ∨ c.winnerUserId = 0 := by
  obtain ⟨l, hl⟩ := (reachable_plays_one hr hk).ledger
  have hsound := (reachable_inv hr).sound k c hk
  by_cases hd : c.Decisive
  · exact Or.inl (SessionContext.winner_ahead hsound hl hd).1
  · exact Or.inr (SessionContext.winner_zero hsound hl hd)

theorem Named.step {ok : AuthUser → Prop} (hr : (machine cfg).Reachable s) (h : s.Named ok) (hp : s.Peopled ok)
    {a : Action} (hs : s.step cfg a = some t)
    (ha : ∀ userId username, a = .ensureUser userId username → ok ⟨userId, username⟩) : t.Named ok := by
  by_cases hensure : ∃ userId username, a = .ensureUser userId username
  · obtain ⟨userId, username, rfl⟩ := hensure
    cases hs
    refine ⟨h.entries.ensureUser (Or.inl (ha userId username rfl)), ?_⟩
    intro k c record todo hk hres
    obtain ⟨hready, hin⟩ := h.todo k c record todo hk hres
    have hgrow : ∀ u ∈ s.ratings, u ∈ s.ratings.ensureUser userId username :=
      fun u hu => (RatingService.mem_ensureUser _ _ _ _).mpr (Or.inr hu)
    exact ⟨hready.mono hgrow, fun u hu => (hin u hu).imp_left (hgrow u)⟩
  · by_cases hproceed : ∃ k, a = .proceed k
    · obtain ⟨k, rfl⟩ := hproceed
      obtain ⟨c, hk, hs⟩ := Option.bind_eq_some_iff.mp hs
      exact h.proceed hp hk ((reachable_inv hr).sound k c hk) (winner_of_reachable hr hk) hs
    · have hother : ∀ k, a ≠ .proceed k := fun k hk => hproceed ⟨k, hk⟩
      have hratings := ratings_of_step hs hother fun userId username heq => hensure ⟨userId, username, heq⟩
      rcases frame_of_step hs with ⟨hqueue, -⟩ | ⟨-, -, -, hc | ⟨k, c, hk, hturn⟩⟩
      · exact h.grow hs hqueue hratings
      · refine ⟨hratings ▸ h.entries, ?_⟩
        intro k c record todo hk hres
        rw [hc] at hk
        rw [hratings]
        exact h.todo k c record todo hk hres
      · exact h.turn hk hturn hother hratings

end Server

end GameServer
