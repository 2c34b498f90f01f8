import GameServer.Service

namespace GameServer

open AuthHistory

namespace AuthHistory

theorem Registered.mono {h : AuthHistory} {username : String} {user : AuthUser} (hr : Registered h username user)
    (more : AuthHistory) : Registered (h ++ more) username user := by
  obtain ⟨password, salt, hmem⟩ := hr
  exact ⟨password, salt, List.mem_append_left _ hmem⟩

def Admitted (kdf : Pbkdf2) (ttl : Int) (h : AuthHistory) (user : AuthUser) : Prop :=
  ∃ session, Entitles kdf ttl h session ∧ session.user = user

theorem Admitted.mono {kdf : Pbkdf2} {ttl : Int} {h : AuthHistory} {user : AuthUser} (ha : Admitted kdf ttl h user)
    (more : AuthHistory) : Admitted kdf ttl (h ++ more) user := by
  obtain ⟨session, hentitles, huser⟩ := ha
  exact ⟨session, hentitles.mono more, huser⟩

theorem Admitted.registered {kdf : Pbkdf2} {config : AuthConfig} {s : AuthRun} {h : AuthHistory} {user : AuthUser}
    (hi : AuthRun.Inv config s h) {ttl : Int} (ha : Admitted kdf ttl h user) : Registered h user.username user := by
  obtain ⟨session, ⟨pre, mid, post, username, password, registered, ip, salt, random, t, now, rfl, -, -, hmem, -⟩, rfl⟩
    := ha
  have hreg : Registered ((pre ++ (.login username password ip random t, .loggedIn (.ok session)) :: mid) ++
      (.validateToken session.token now, .validated (some session)) :: post) username session.user :=
    ⟨registered, salt, List.mem_append_left _ (List.mem_append_left _ hmem)⟩
  obtain ⟨record, -, huser⟩ := hi.users.stored username session.user hreg
  have hname : session.user.username = username := by rw [huser]
  rw [hname]
  exact hreg

end AuthHistory

namespace Gateway

variable {kdf : Pbkdf2} {config : AuthConfig} {parse : Bytes → Option Json} {g g' : Gateway}

theorem history_grows {a : Action} (h : step kdf config parse g a = some g') :
    ∃ more, g'.auth.2 = g.auth.2 ++ more := by
  rcases step_cases h with ⟨session, hauth, -⟩ | ⟨k, draw, answer, task, next, op, -, -, hserve, -⟩
  · exact ⟨[], by rw [hauth, List.append_nil]⟩
  · rcases serve_cases hserve with ⟨-, heq⟩ | ⟨call, s, -, -, heq⟩
    · exact ⟨[], by rw [heq, List.append_nil]⟩
    · exact ⟨_, by rw [heq]⟩

theorem accepted_of_step {a : Action} (h : step kdf config parse g a = some g') {task : HttpTask}
    (htask : task ∈ g.http.tasks) {session : AuthSession} (hsession : task.accepted = some session) :
    ∃ next ∈ g'.http.tasks, next.accepted = some session := by
  rcases step_cases h with ⟨_, -, htasks⟩ | ⟨k, draw, answer, known, next, op, -, hk, -, htasks, -, hcalls, -⟩
  · refine ⟨task, ?_, hsession⟩
    rw [htasks]
    exact List.mem_append_left _ htask
  · obtain ⟨j, hj⟩ := List.getElem?_of_mem htask
    have hlookup := getElem?_set_of_some (b := next) hk j
    rw [htasks]
    split at hlookup
    next hjk =>
      subst hjk
      cases hk.symm.trans hj
      exact ⟨next, List.mem_of_getElem? hlookup, HttpTask.accepted_append hsession hcalls⟩
    next => exact ⟨task, List.mem_of_getElem? (hlookup.trans hj), hsession⟩

theorem Inv.accepted (hi : Inv kdf config parse g) {task : HttpTask} (htask : task ∈ g.http.tasks)
    {session : AuthSession} (hsession : task.accepted = some session) :
    session.token = task.session.req.bearer ∧ Entitles kdf config.tokenTtl g.auth.2 session := by
  obtain ⟨answer, hmem⟩ := HttpTask.accept_of_accepted hsession
  obtain ⟨pre, post, hcalls⟩ := List.append_of_mem hmem
  obtain ⟨other, -, hfor, hrest⟩ := hi.entitled htask hcalls trivial
  cases hfor
  exact hrest

end Gateway

namespace Service

variable {D : Type} {kdf : Pbkdf2} {config : AuthConfig} {parse : Bytes → Option Json} {cfg : Config D} {s t : Service}

def Connected (s : Service) (userId : Int) : Prop :=
  ∃ task ∈ s.gateway.http.tasks, ∃ session, task.accepted = some session ∧ session.user.userId = userId

theorem gateway_of_step {a : Action} (h : step kdf config parse cfg s a = some t) :
    t.gateway = s.gateway ∨ ∃ b, Gateway.step kdf config parse s.gateway b = some t.gateway := by
  rcases (step_cases h).1 with hsame | ⟨session, hg⟩ | ⟨k, draw, answer, hg, -⟩
  · exact Or.inl hsame
  · exact Or.inr ⟨_, hg⟩
  · exact Or.inr ⟨_, hg⟩

theorem history_grows {a : Action} (h : step kdf config parse cfg s a = some t) :
    ∃ more, t.gateway.auth.2 = s.gateway.auth.2 ++ more := by
  rcases gateway_of_step h with hsame | ⟨b, hg⟩
  · exact ⟨[], by rw [hsame, List.append_nil]⟩
  · exact Gateway.history_grows hg

theorem Connected.step {a : Action} {userId : Int} (hc : s.Connected userId)
    (h : step kdf config parse cfg s a = some t) : t.Connected userId := by
  rcases gateway_of_step h with hsame | ⟨b, hg⟩
  · rw [Connected, hsame]
    exact hc
  · obtain ⟨task, htask, session, hsession, hid⟩ := hc
    obtain ⟨next, hnext, haccepted⟩ := Gateway.accepted_of_step hg htask hsession
    exact ⟨next, hnext, session, haccepted, hid⟩

theorem sides_reachable (hr : (machine kdf config parse cfg).Reachable s) :
    (Gateway.machine kdf config parse).Reachable s.gateway ∧ (Server.historyMachine cfg).Reachable s.game := by
  refine hr.induction (P := fun s : Service => (Gateway.machine kdf config parse).Reachable s.gateway ∧
    (Server.historyMachine cfg).Reachable s.game) ⟨.init, .init⟩ ?_
  rintro s a t - ⟨hgateway, hgame⟩ h
  constructor
  · rcases gateway_of_step h with hsame | ⟨b, hg⟩
    · rw [hsame]
      exact hgateway
    · exact hgateway.step hg
  · rcases (step_cases h).2 with hsame | ⟨b, -, hb⟩
    · rw [hsame]
      exact hgame
    · exact hgame.step hb

theorem game_of_step {a : Action} (h : step kdf config parse cfg s a = some t) :
    t.game = s.game ∨ ∃ b, s.Origin b ∧ s.game.1.step cfg b = some t.game.1 ∧
      t.game.2 = s.game.2 ++ s.game.1.accepted b := by
  rcases (step_cases h).2 with hsame | ⟨b, horigin, hb⟩
  · exact Or.inl hsame
  · obtain ⟨hstep, hmore⟩ := Machine.recorded_step.mp hb
    exact Or.inr ⟨b, horigin, hstep, hmore⟩

/-- The users of the game have been let in, and their inputs come from their
own connections. -/
structure Inv (kdf : Pbkdf2) (config : AuthConfig) (s : Service) : Prop where
  people : s.game.1.Peopled (Admitted kdf config.tokenTtl s.gateway.auth.2)
  callers : ∀ call ∈ s.game.1.calls, s.Connected call.1.userId
  authors : ∀ x ∈ s.game.2, s.Connected x.2.userId ∧
    ∃ c, s.game.1.contexts[x.1]? = some c ∧ x.2.userId ∈ c.userIds

theorem inv_init : Inv kdf config (machine kdf config parse cfg).init where
  people := ⟨by simp [machine, MatchQueue.users], by simp [machine]⟩
  callers := by simp [machine]
  authors := by simp [machine]

theorem admitted_of_origin (hg : Gateway.Inv kdf config parse s.gateway) {user : AuthUser} {timeout : Int}
    (h : s.Origin (.joinCheck user timeout)) : Admitted kdf config.tokenTtl s.gateway.auth.2 user := by
  obtain ⟨task, htask, hnext⟩ := h
  obtain ⟨session, hvalid, hfor⟩ := (hg.next_authorized htask hnext).of_acts trivial
  exact ⟨session, (hg.valid task htask _ session hvalid).2, hfor.symm⟩

theorem accepted_call {g : Server} (hi : g.Inv) {b : GameServer.Action} {x : Nat × InputCommand}
    (hx : x ∈ g.accepted b) : ∃ call ∈ g.calls, x.2.userId = call.1.userId ∧
      ∃ c, g.contexts[x.1]? = some c ∧ x.2.userId ∈ c.userIds := by
  cases b with
  | submitHandler n =>
      obtain ⟨call, hcall, hx⟩ := Option.bind_eq_some_iff.mp (Option.mem_toList.mp hx)
      obtain ⟨c, hc, hx⟩ := Option.bind_eq_some_iff.mp hx
      obtain ⟨u, hu, rfl⟩ := Option.map_eq_some_iff.mp hx
      refine ⟨call, List.mem_of_getElem? hcall, rfl, c, hc, ?_⟩
      have hok : (c.handleInput call.1).2 = .ok () := by
        cases hres : (c.handleInput call.1).2 with
        | ok u => rfl
        | error e =>
            rw [hres] at hu
            cases hu
      exact ((hi.sound _ c hc).members _).mp (SessionContext.handleInput_ok hok).2.1
  | _ => cases hx

theorem Inv.step (hi : Inv kdf config s) (hg : Gateway.Inv kdf config parse s.gateway)
    (hgame : s.game.1.Inv) {a : Action} (h : step kdf config parse cfg s a = some t) : Inv kdf config t := by
  obtain ⟨more, hmore⟩ := history_grows h
  have hadmit : ∀ user, Admitted kdf config.tokenTtl s.gateway.auth.2 user →
      Admitted kdf config.tokenTtl t.gateway.auth.2 user := fun user hu => hmore ▸ hu.mono more
  rcases game_of_step h with hsame | ⟨b, horigin, hb, hrecord⟩
  · refine ⟨?_, ?_, ?_⟩
    · rw [hsame]
      exact hi.people.mono hadmit
    · rw [hsame]
      exact fun call hcall => (hi.callers call hcall).step h
    · rw [hsame]
      exact fun x hx => ⟨(hi.authors x hx).1.step h, (hi.authors x hx).2⟩
  · refine ⟨?_, ?_, ?_⟩
    · refine Server.Peopled.mono (hi.people.step hb ?_) hadmit
      rintro user timeout rfl
      exact admitted_of_origin hg horigin
    · intro call hcall
      rcases Server.calls_of_step hb hcall with hcall | rfl
      · exact (hi.callers call hcall).step h
      · obtain ⟨task, htask, session, hsession, hid⟩ := horigin
        exact Connected.step ⟨task, htask, session, hsession, hid⟩ h
    · intro x hx
      have hboth : s.Connected x.2.userId ∧ ∃ c, s.game.1.contexts[x.1]? = some c ∧ x.2.userId ∈ c.userIds := by
        rw [hrecord] at hx
        rcases List.mem_append.mp hx with hx | hx
        · exact hi.authors x hx
        · obtain ⟨call, hcall, hid, hrest⟩ := accepted_call hgame hx
          exact ⟨hid ▸ hi.callers call hcall, hrest⟩
      obtain ⟨hconnected, c, hc, hin⟩ := hboth
      obtain ⟨d, hd, hshape⟩ := Server.shape_effect (Server.effect_of_step hb) x.1 c hc
      refine ⟨hconnected.step h, d, hd, ?_⟩
      rw [SessionContext.userIds, hshape.2.1]
      exact hin

theorem inv_reachable (hr : (machine kdf config parse cfg).Reachable s) : Inv kdf config s := by
  refine hr.induction (P := Inv kdf config) inv_init ?_
  intro s a t hs hi h
  obtain ⟨hgateway, hgame⟩ := sides_reachable hs
  exact hi.step (Gateway.inv_reachable hgateway) (Server.reachable_inv hgame.of_recorded) h

/-- Whoever waits or plays has logged in with a password that passes for the
registered one, and has shown the token in time. Every input a session has taken
over came in on such a connection of its own participant. -/
theorem players_entitled (hr : (machine kdf config parse cfg).Reachable s) :
    (∀ user ∈ s.game.1.queue.users, Admitted kdf config.tokenTtl s.gateway.auth.2 user) ∧
    (∀ (k : Nat) (c : SessionContext), s.game.1.contexts[k]? = some c →
      ∀ p ∈ c.participants, Admitted kdf config.tokenTtl s.gateway.auth.2 ⟨p.userId, p.username⟩) ∧
    ∀ k i, (k, i) ∈ s.game.2 → (∃ c, s.game.1.contexts[k]? = some c ∧ i.userId ∈ c.userIds) ∧
      ∃ task ∈ s.gateway.http.tasks, ∃ session, task.accepted = some session ∧ session.user.userId = i.userId ∧
        session.token = task.session.req.bearer ∧ Entitles kdf config.tokenTtl s.gateway.auth.2 session := by
  have hi := inv_reachable hr
  have hgateway := Gateway.inv_reachable (sides_reachable hr).1
  refine ⟨hi.people.queued, hi.people.seated, ?_⟩
  intro k i hmem
  obtain ⟨⟨task, htask, session, hsession, hid⟩, hseat⟩ := hi.authors (k, i) hmem
  exact ⟨hseat, task, htask, session, hsession, hid, hgateway.accepted htask hsession⟩

def twoBodies : Bytes → Option Json
  | [1] => some (Json.ofMembers [("username", .string "kim"), ("password", .string "pw")])
  | [2] => some (Json.ofMembers [("username", .string "lee"), ("password", .string "pw")])
  | [3] => some (Json.ofMembers [("mode", .string "normal")])
  | _ => none

def twoRequest (target : String) (body : Bytes) (token : Option UInt8) (upgrade : Bool) : HttpSession where
  config := ⟨10, []⟩
  req := {
    method := if body = [] then .get else .post
    target := bytes target
    authorization := token.map fun b => bytes "Bearer " ++ bytesToHex (List.replicate 32 b)
    body := body
    upgrade := upgrade }

def turns (k n : Nat) (random : UInt8) : List Action :=
  List.replicate n (.call k { random := Vector.replicate 32 random } HttpCall.refusal)

def twoPlay : List Action :=
  .arrive (twoRequest "/api/auth/register" [1] none false) :: turns 0 5 0 ++
    .arrive (twoRequest "/api/auth/register" [2] none false) :: turns 1 5 0 ++
    .arrive (twoRequest "/api/auth/login" [1] none false) :: turns 2 5 7 ++
    .arrive (twoRequest "/api/auth/login" [2] none false) :: turns 3 5 8 ++
    .arrive (twoRequest "/api/queue/join" [3] (some 7) false) :: turns 4 5 0 ++ .joined 0 ::
    .arrive (twoRequest "/api/queue/join" [3] (some 8) false) :: turns 5 5 0 ++ .joined 0 ::
    [.internal (.queueTick 0), .internal .pair, .internal .createSession] ++
    .arrive (twoRequest "/ws" [] (some 7) true) :: turns 6 2 0 ++
    [.frame 6 ⟨"session-1", 0, 1, 1, 3⟩, .internal (.submitHandler 0)] ++
    .arrive (twoRequest "/api/leaderboard" [] none false) :: turns 7 4 0

theorem players_entitled_of_two : ∃ s session,
    (machine AuthService.lengthKdf {} twoBodies (Server.evenConfig 1)).Reachable s ∧
      Admitted AuthService.lengthKdf 3600 s.gateway.auth.2 ⟨2, "lee"⟩ ∧
      session.user.userId = 1 ∧ Entitles AuthService.lengthKdf 3600 s.gateway.auth.2 session := by
  have hrun : (((machine AuthService.lengthKdf {} twoBodies (Server.evenConfig 1)).run twoPlay).bind fun s =>
      s.game.1.contexts[0]?.map fun c => (c.participants, s.game.2)) =
      some ([⟨1, "kim"⟩, ⟨2, "lee"⟩], [(0, { userId := 1, targetTick := 1, delta := 3, sequence := 1 })]) := by
    rfl
  obtain ⟨s, hs, hcontext⟩ := Option.bind_eq_some_iff.mp hrun
  obtain ⟨c, hc, hshape⟩ := Option.map_eq_some_iff.mp hcontext
  obtain ⟨hparticipants, hinputs⟩ := Prod.mk.inj hshape
  obtain ⟨-, hseated, hauthors⟩ := players_entitled (.of_run hs)
  obtain ⟨-, task, -, session, -, hid, -, hentitles⟩ := hauthors 0 _ (hinputs ▸ List.mem_singleton_self _)
  exact ⟨s, session, .of_run hs, hseated 0 c hc ⟨2, "lee"⟩ (by rw [hparticipants]; simp), hid, hentitles⟩

structure Named (s : Service) : Prop where
  ratings : s.game.1.Named fun user => Registered s.gateway.auth.2 user.username user
  shown : ∀ task ∈ s.gateway.http.tasks, ∀ call ∈ task.calls, ∀ summary ∈ summaries call, summary.userId ≠ 0 →
    Registered s.gateway.auth.2 summary.username ⟨summary.userId, summary.username⟩

theorem named_init : (machine kdf config parse cfg).init.Named where
  ratings := ⟨fun u entry hl => by simp [machine] at hl, fun k c record todo hk => by simp [machine] at hk⟩
  shown := by simp [machine, Gateway.machine]

theorem registered_of_origin (hg : Gateway.Inv kdf config parse s.gateway) {userId : Int} {username : String}
    (h : s.Origin (.ensureUser userId username)) : Registered s.gateway.auth.2 username ⟨userId, username⟩ := by
  obtain ⟨task, htask, hnext⟩ := h
  exact hg.introduced task htask ⟨userId, username⟩ (hg.next_authorized htask hnext)

theorem Named.step (h : s.Named) (hg : Gateway.Inv kdf config parse s.gateway) (hi : Inv kdf config s)
    (hgame : (Server.machine cfg).Reachable s.game.1) {a : Action}
    (hs : step kdf config parse cfg s a = some t) : t.Named := by
  obtain ⟨more, hmore⟩ := history_grows hs
  have hkeep : ∀ user, Registered s.gateway.auth.2 user.username user →
      Registered t.gateway.auth.2 user.username user := fun user hu => hmore ▸ hu.mono more
  constructor
  · have hpeople := hi.people.mono fun user hu => hu.registered (AuthRun.inv_reachable hg.auth)
    rcases game_of_step hs with hsame | ⟨b, horigin, hb, -⟩
    · rw [hsame]
      exact h.ratings.mono hkeep
    · refine Server.Named.mono (h.ratings.step hgame hpeople hb ?_) hkeep
      rintro userId username rfl
      exact registered_of_origin hg horigin
  · intro task htask call hcall summary hsummary hid
    rcases calls_of_step hs htask hcall with ⟨other, hother, hold⟩ | ⟨op, draw, answer, hanswer, rfl⟩
    · exact hkeep ⟨summary.userId, summary.username⟩ (h.shown other hother call hold summary hsummary hid)
    · obtain ⟨entry, hentry, hname⟩ := hanswer.summaries (summaries_answered _ _ op hsummary)
      rw [← hname]
      exact hkeep ⟨summary.userId, entry.username⟩ (h.ratings.entries summary.userId entry hentry hid)

theorem named_reachable (hr : (machine kdf config parse cfg).Reachable s) : s.Named := by
  refine hr.induction (P := Named) named_init ?_
  intro s a t hs h ht
  obtain ⟨hgateway, hgame⟩ := sides_reachable hs
  exact h.step (Gateway.inv_reachable hgateway) (inv_reachable hs) hgame.of_recorded ht

/-- Whatever the leaderboard and the profile have ever shown of a user, it was
under the name the user has registered with, so no two users share one. -/
theorem ratings_named (hr : (machine kdf config parse cfg).Reachable s) {task other : HttpTask}
    (htask : task ∈ s.gateway.http.tasks) (hother : other ∈ s.gateway.http.tasks)
    {call call' : Sigma HttpCall.Answer} (hcall : call ∈ task.calls) (hcall' : call' ∈ other.calls)
    {summary summary' : RatingSummary} (hshown : summary ∈ summaries call) (hshown' : summary' ∈ summaries call')
    (hid : summary.userId ≠ 0) (hid' : summary'.userId ≠ 0) :
    Registered s.gateway.auth.2 summary.username ⟨summary.userId, summary.username⟩ ∧
      (summary.username = summary'.username ↔ summary.userId = summary'.userId) := by
  have h := (named_reachable hr).shown task htask call hcall summary hshown hid
  have h' := (named_reachable hr).shown other hother call' hcall' summary' hshown' hid'
  refine ⟨h, ?_⟩
  have hi := AuthRun.inv_reachable (Gateway.inv_reachable (sides_reachable hr).1).auth
  obtain ⟨record, hlookup, huser⟩ := hi.users.stored _ _ h
  obtain ⟨record', hlookup', huser'⟩ := hi.users.stored _ _ h'
  have hone : summary.userId = record.id := congrArg AuthUser.userId huser
  have htwo : summary'.userId = record'.id := congrArg AuthUser.userId huser'
  constructor
  · intro hname
    rw [hname, hlookup'] at hlookup
    cases hlookup
    rw [hone, htwo]
  · intro hsame
    exact hi.users.distinct _ _ record record' hlookup hlookup' (by rw [← hone, ← htwo, hsame])

theorem ratings_named_of_two : ∃ s,
    (machine AuthService.lengthKdf {} twoBodies (Server.evenConfig 1)).Reachable s ∧
      Registered s.gateway.auth.2 "kim" ⟨1, "kim"⟩ ∧ (("kim" : String) = "lee" ↔ (1 : Int) = 2) := by
  have hrun : (((machine AuthService.lengthKdf {} twoBodies (Server.evenConfig 1)).run twoPlay).bind fun s =>
      s.gateway.http.tasks[7]?.map fun task => task.calls.drop 3) =
      some [⟨.getLeaderboard 1 10, ⟨2, [⟨1, "kim", 1000, 0, 0⟩, ⟨2, "lee", 1000, 0, 0⟩]⟩⟩] := by
    rfl
  obtain ⟨s, hs, htask⟩ := Option.bind_eq_some_iff.mp hrun
  obtain ⟨task, htask, hcalls⟩ := Option.map_eq_some_iff.mp htask
  have hmem := List.mem_of_getElem? htask
  have hcall : ⟨.getLeaderboard 1 10, ⟨2, [⟨1, "kim", 1000, 0, 0⟩, ⟨2, "lee", 1000, 0, 0⟩]⟩⟩ ∈ task.calls := by
    apply List.mem_of_mem_drop (i := 3)
    rw [hcalls]
    exact List.mem_singleton_self _
  have hkim : (⟨1, "kim", 1000, 0, 0⟩ : RatingSummary) ∈ summaries
      ⟨.getLeaderboard 1 10, ⟨2, [⟨1, "kim", 1000, 0, 0⟩, ⟨2, "lee", 1000, 0, 0⟩]⟩⟩ := List.mem_cons_self
  have hlee : (⟨2, "lee", 1000, 0, 0⟩ : RatingSummary) ∈ summaries
      ⟨.getLeaderboard 1 10, ⟨2, [⟨1, "kim", 1000, 0, 0⟩, ⟨2, "lee", 1000, 0, 0⟩]⟩⟩ :=
    List.mem_cons_of_mem _ List.mem_cons_self
  obtain ⟨hregistered, hnames⟩ :=
    ratings_named (.of_run hs) hmem hmem hcall hcall hkim hlee (by simp) (by simp)
  exact ⟨s, .of_run hs, hregistered, hnames⟩

end Service

end GameServer
