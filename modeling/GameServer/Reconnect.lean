import GameServer.Machine
import GameServer.MatchQueue

namespace GameServer

structure AuthSnapshot where
  version : Int
  state : String
  issuedAt : Int
  user : AuthUser
deriving DecidableEq, Repr

structure ResumeSnapshot where
  user : AuthUser
  token : String
  snapshotVersion : Int
  snapshot : AuthSnapshot
  issuedAt : Int
deriving DecidableEq, Repr

abbrev ReconnectService := Table String ResumeSnapshot

namespace ReconnectService

def issueToken (tokens : ReconnectService) (user : AuthUser) (snapshotVersion : Int) (snapshot : AuthSnapshot)
    (previousToken : Option String) (token : String) (now : Int) : ReconnectService :=
  let tokens := match previousToken with
    | some previous => tokens.erase previous
    | none => tokens
  tokens.insert token ⟨user, token, snapshotVersion, snapshot, now⟩

def validate (tokens : ReconnectService) (token : String) (user : AuthUser) : Option ResumeSnapshot :=
  match tokens.lookup token with
  | none => none
  | some record => if record.user.userId ≠ user.userId then none else some record

theorem mem_issueToken_some (tokens : ReconnectService) (user : AuthUser) (version : Int) (snapshot : AuthSnapshot)
    (previous token : String) (now : Int) (t : String) :
    t ∈ tokens.issueToken user version snapshot (some previous) token now ↔
      (t ∈ tokens ∧ t ≠ previous) ∨ t = token := by
  rw [issueToken, AList.mem_insert, AList.mem_erase]
  tauto

theorem mem_issueToken_none (tokens : ReconnectService) (user : AuthUser) (version : Int) (snapshot : AuthSnapshot)
    (token : String) (now : Int) (t : String) :
    t ∈ tokens.issueToken user version snapshot none token now ↔ t ∈ tokens ∨ t = token := by
  rw [issueToken, AList.mem_insert]
  tauto

theorem mem_of_validate {tokens : ReconnectService} {token : String} {user : AuthUser} {record : ResumeSnapshot}
    (h : tokens.validate token user = some record) : token ∈ tokens := by
  rw [validate] at h
  split at h
  next => cases h
  next hl => exact (Table.mem_iff_lookup _ _).mpr ⟨_, hl⟩

end ReconnectService

inductive ResumeReply
  | authState (userId : Int) (username resumeToken : String) (snapshotVersion : Int)
  | resyncState (seq : Nat) (resumeToken : String) (snapshot : AuthSnapshot)
  | error (code message : String) (seq : Nat)
deriving DecidableEq, Repr

/-- A connection. Between Validate and IssueToken it holds the token and the
number of the request. -/
structure ResumeConnection where
  user : AuthUser
  resumeToken : String
  snapshot : AuthSnapshot
  snapshotVersion : Int := 1
  validated : Option (String × Nat) := none
deriving DecidableEq, Repr

structure Redemption where
  token : String
  before : ReconnectService
  after : ReconnectService
deriving DecidableEq

/-- The service and the connections that share it. The tokens generated and
the requests that succeeded are kept for the record. -/
structure Resumption where
  tokens : ReconnectService := ∅
  connections : List ResumeConnection := []
  replies : List (Nat × ResumeReply) := []
  generated : List String := []
  redeemed : List Redemption := []
deriving DecidableEq

namespace Resumption

def buildSnapshot (user : AuthUser) (snapshotVersion now : Int) : AuthSnapshot where
  version := snapshotVersion
  state := "auth_only"
  issuedAt := now
  user := user

/-- One step of some connection. What happens under the mutex of the service
is one step, and a connection handles one request at a time. -/
inductive Action
  | run (user : AuthUser) (token : String) (now : Int)
  | validate (c : Nat) (token : String) (seq : Nat)
  | issueToken (c : Nat) (token : String) (now : Int)
deriving DecidableEq, Repr

/-- No token is generated twice. -/
def step (s : Resumption) : Action → Option Resumption
  | .run user token now =>
    if token ∈ s.generated then none
    else
      let snapshot := buildSnapshot user 1 now
      some { s with
        tokens := s.tokens.issueToken user 1 snapshot none token now
        connections := s.connections ++ [{ user := user, resumeToken := token, snapshot := snapshot }]
        replies := s.replies ++ [(s.connections.length, .authState user.userId user.username token 1)]
        generated := s.generated ++ [token] }
  | .validate c token seq =>
    s.connections[c]?.bind fun connection =>
      if connection.validated.isSome then none
      else match s.tokens.validate token connection.user with
        | none => some { s with
            replies := s.replies ++
              [(c, .error "invalid_resume_token" "이전 resumeToken이 유효하지 않습니다" seq)] }
        | some _ => some { s with
            connections := s.connections.set c { connection with validated := some (token, seq) } }
  | .issueToken c token now =>
    s.connections[c]?.bind fun connection =>
      match connection.validated with
      | none => none
      | some (previous, seq) =>
        if token ∈ s.generated then none
        else
          let snapshot := buildSnapshot connection.user connection.snapshotVersion now
          let tokens :=
            s.tokens.issueToken connection.user connection.snapshotVersion snapshot (some previous) token now
          some { s with
            tokens := tokens
            connections := s.connections.set c
              { connection with resumeToken := token, snapshot := snapshot, validated := none }
            replies := s.replies ++ [(c, .resyncState seq token snapshot)]
            generated := s.generated ++ [token]
            redeemed := s.redeemed ++ [⟨previous, s.tokens, tokens⟩] }

def machine : Machine Resumption Action where
  init := {}
  step := step

/-- No two requests with one token have succeeded, and each success has put
exactly one new token in the place of its own. -/
structure SingleUse (s : Resumption) : Prop where
  once : (s.redeemed.map (·.token)).Nodup
  replaced : ∀ r ∈ s.redeemed, ∃ token, r.token ∈ r.before ∧ token ∉ r.before ∧
    ∀ t, t ∈ r.after ↔ (t ∈ r.before ∧ t ≠ r.token) ∨ t = token

/-- A request that comes to its IssueToken finds its token still stored. -/
def FindsToken (s : Resumption) : Action → Prop
  | .issueToken c _ _ => ∀ connection, s.connections[c]? = some connection →
      ∀ previous seq, connection.validated = some (previous, seq) → previous ∈ s.tokens
  | _ => True

structure Inv (s : Resumption) : Prop where
  stored : ∀ t ∈ s.tokens, t ∈ s.generated
  waiting : ∀ connection ∈ s.connections, ∀ previous seq, connection.validated = some (previous, seq) →
    previous ∈ s.tokens ∨ ∃ r ∈ s.redeemed, r.token = previous
  known : ∀ r ∈ s.redeemed, r.token ∈ s.generated
  spent : ∀ r ∈ s.redeemed, r.token ∉ s.tokens

theorem Inv.validated_generated {s : Resumption} (hi : s.Inv) {connection : ResumeConnection}
    (hc : connection ∈ s.connections) {previous : String} {seq : Nat}
    (hv : connection.validated = some (previous, seq)) : previous ∈ s.generated := by
  rcases hi.waiting connection hc previous seq hv with hin | ⟨r, hr, rfl⟩
  · exact hi.stored previous hin
  · exact hi.known r hr

theorem inv_empty : Inv {} where
  stored := by simp
  waiting := by simp
  known := by simp
  spent := by simp

inductive Effect (s : Resumption) : Action → Resumption → Prop
  | run {user : AuthUser} {token : String} {now : Int} (hnew : token ∉ s.generated) :
      Effect s (.run user token now) { s with
        tokens := s.tokens.issueToken user 1 (buildSnapshot user 1 now) none token now
        connections := s.connections ++ [⟨user, token, buildSnapshot user 1 now, 1, none⟩]
        replies := s.replies ++ [(s.connections.length, .authState user.userId user.username token 1)]
        generated := s.generated ++ [token] }
  | refuse {c : Nat} {token : String} {seq : Nat} (replies : List (Nat × ResumeReply)) :
      Effect s (.validate c token seq) { s with replies := replies }
  | accept {c : Nat} {token : String} {seq : Nat} {connection : ResumeConnection} (hin : token ∈ s.tokens) :
      Effect s (.validate c token seq)
        { s with connections := s.connections.set c { connection with validated := some (token, seq) } }
  | issue {c : Nat} {token : String} {now : Int} {connection next : ResumeConnection} {previous : String} {seq : Nat}
      (hc : s.connections[c]? = some connection) (hv : connection.validated = some (previous, seq))
      (hnew : token ∉ s.generated) (hnext : next.validated = none) {tokens : ReconnectService}
      (htokens : ∀ t, t ∈ tokens ↔ (t ∈ s.tokens ∧ t ≠ previous) ∨ t = token) (replies : List (Nat × ResumeReply)) :
      Effect s (.issueToken c token now)
        { tokens := tokens, connections := s.connections.set c next, replies := replies,
          generated := s.generated ++ [token], redeemed := s.redeemed ++ [⟨previous, s.tokens, tokens⟩] }

theorem effect_of_step {s t : Resumption} {a : Action} (h : s.step a = some t) : Effect s a t := by
  cases a with
  | run user token now =>
      simp only [step] at h
      split at h <;> cases h
      next hnew => exact .run hnew
  | validate c token seq =>
      obtain ⟨connection, hc, h⟩ := Option.bind_eq_some_iff.mp h
      split at h
      next => cases h
      next =>
        split at h <;> cases h
        next => exact .refuse _
        next hv => exact .accept (ReconnectService.mem_of_validate hv)
  | issueToken c token now =>
      obtain ⟨connection, hc, h⟩ := Option.bind_eq_some_iff.mp h
      split at h
      next => cases h
      next previous seq hv =>
        split at h <;> cases h
        next hnew =>
          exact .issue hc hv hnew rfl (fun t => ReconnectService.mem_issueToken_some _ _ _ _ _ _ _ t) _

theorem inv_effect {s t : Resumption} {a : Action} (hi : s.Inv) (h : Effect s a t) : t.Inv := by
  cases h with
  | run hnew =>
      refine ⟨?_, ?_, ?_, ?_⟩
      · intro t ht
        rcases (ReconnectService.mem_issueToken_none _ _ _ _ _ _ t).mp ht with ht | rfl
        · exact List.mem_append_left _ (hi.stored t ht)
        · simp
      · intro connection hc previous seq hv
        rcases List.mem_append.mp hc with hc | hc
        · refine (hi.waiting connection hc previous seq hv).imp_left ?_
          exact fun hin => (ReconnectService.mem_issueToken_none _ _ _ _ _ _ _).mpr (Or.inl hin)
        · rw [List.mem_singleton.mp hc] at hv
          cases hv
      · intro r hr
        exact List.mem_append_left _ (hi.known r hr)
      · intro r hr ht
        rcases (ReconnectService.mem_issueToken_none _ _ _ _ _ _ _).mp ht with ht | ht
        · exact hi.spent r hr ht
        · exact hnew (ht ▸ hi.known r hr)
  | refuse => exact ⟨hi.stored, hi.waiting, hi.known, hi.spent⟩
  | accept hin =>
      refine ⟨hi.stored, ?_, hi.known, hi.spent⟩
      intro connection hc previous seq hv
      rcases List.mem_or_eq_of_mem_set hc with hc | rfl
      · exact hi.waiting connection hc previous seq hv
      · cases hv
        exact Or.inl hin
  | @issue c token now connection next previous seq hc hv hnew hnext tokens htokens replies =>
      have hprevious := hi.validated_generated (List.mem_of_getElem? hc) hv
      refine ⟨?_, ?_, ?_, ?_⟩
      · intro t ht
        rcases (htokens t).mp ht with ht | rfl
        · exact List.mem_append_left _ (hi.stored t ht.1)
        · simp
      · intro other hother previous' seq' hv'
        rcases List.mem_or_eq_of_mem_set hother with hother | rfl
        · rcases hi.waiting other hother previous' seq' hv' with hin | ⟨r, hr, htoken⟩
          · by_cases he : previous' = previous
            · exact Or.inr ⟨⟨previous, s.tokens, tokens⟩, by simp, he.symm⟩
            · exact Or.inl ((htokens previous').mpr (Or.inl ⟨hin, he⟩))
          · exact Or.inr ⟨r, List.mem_append_left _ hr, htoken⟩
        · rw [hnext] at hv'
          cases hv'
      · intro r hr
        rcases List.mem_append.mp hr with hr | hr
        · exact List.mem_append_left _ (hi.known r hr)
        · rw [List.mem_singleton.mp hr]
          exact List.mem_append_left _ hprevious
      · intro r hr ht
        have hold : r.token ∈ s.generated ∧ ¬ (r.token ∈ s.tokens ∧ r.token ≠ previous) := by
          rcases List.mem_append.mp hr with hr | hr
          · exact ⟨hi.known r hr, fun hin => hi.spent r hr hin.1⟩
          · rw [List.mem_singleton.mp hr]
            exact ⟨hprevious, fun hin => hin.2 rfl⟩
        rcases (htokens r.token).mp ht with ht | ht
        · exact hold.2 ht
        · exact hnew (ht ▸ hold.1)

/-- The token is gone exactly when another request has redeemed it, which was
after the Validate that found it. -/
theorem findsToken_iff {s : Resumption} (hr : machine.Reachable s) (c : Nat) (token : String) (now : Int) :
    s.FindsToken (.issueToken c token now) ↔ ∀ connection, s.connections[c]? = some connection →
      ∀ previous seq, connection.validated = some (previous, seq) → ∀ r ∈ s.redeemed, r.token ≠ previous := by
  have hi : s.Inv := by
    refine hr.induction inv_empty ?_
    intro s a t _ hi hs
    exact inv_effect hi (effect_of_step hs)
  constructor
  · intro hfind connection hc previous seq hv r hredeemed he
    exact hi.spent r hredeemed (he ▸ hfind connection hc previous seq hv)
  · intro hnone connection hc previous seq hv
    refine (hi.waiting connection (List.mem_of_getElem? hc) previous seq hv).resolve_right ?_
    rintro ⟨r, hredeemed, he⟩
    exact hnone connection hc previous seq hv r hredeemed he

theorem singleUse_effect {s t : Resumption} {a : Action} (hi : s.Inv) (hs : s.SingleUse) (h : Effect s a t) :
    t.SingleUse ↔ s.FindsToken a := by
  cases h with
  | run | refuse | accept => exact ⟨fun _ => trivial, fun _ => ⟨hs.once, hs.replaced⟩⟩
  | @issue c token now connection next previous seq hc hv hnew hnext tokens htokens replies =>
      constructor
      · intro ht other hother previous' seq' hv'
        rw [hc] at hother
        cases hother
        rw [hv] at hv'
        cases hv'
        obtain ⟨_, hin, -⟩ := ht.replaced ⟨previous, s.tokens, tokens⟩ (by simp)
        exact hin
      · intro hfind
        have hin : previous ∈ s.tokens := hfind connection hc previous seq hv
        refine ⟨?_, ?_⟩
        · rw [List.map_append, List.map_singleton, List.nodup_append]
          refine ⟨hs.once, List.nodup_singleton _, ?_⟩
          intro x hx y hy
          obtain ⟨r, hr, rfl⟩ := List.mem_map.mp hx
          rw [List.mem_singleton.mp hy]
          intro he
          exact hi.spent r hr (he ▸ hin)
        · intro r hr
          rcases List.mem_append.mp hr with hr | hr
          · exact hs.replaced r hr
          · rw [List.mem_singleton.mp hr]
            exact ⟨token, hin, fun hstored => hnew (hi.stored _ hstored), htokens⟩

/-- In a run of any connections every token is redeemed at most once, for one
other token, exactly when each request still finds its token when it comes to
IssueToken. -/
theorem singleUse_iff (as : List Action) : machine.Always SingleUse {} as ↔ machine.Obeys FindsToken {} as := by
  refine Machine.always_iff_obeys (I := Inv) ?_ ?_ as {} inv_empty ⟨List.nodup_nil, by simp⟩
  · intro s a t hi hs
    exact inv_effect hi (effect_of_step hs)
  · intro s a t hi hp hs
    exact singleUse_effect hi hp (effect_of_step hs)

/-- Two connections of user 1 validate the token "a" before the first of them
replaces it: it is redeemed twice, and three tokens are left of two. -/
theorem not_singleUse_of_overlap : ∃ s, machine.run
    [.run ⟨1, "kim"⟩ "a" 0, .run ⟨1, "kim"⟩ "b" 0, .validate 0 "a" 1, .validate 1 "a" 1, .issueToken 0 "c" 0,
      .issueToken 1 "d" 0] = some s ∧
      s.redeemed.map (·.token) = ["a", "a"] ∧ s.tokens.keys.length = 3 ∧ ¬ s.SingleUse := by
  obtain ⟨s, hs, -, hredeemed, hleft⟩ := Machine.exists_of_run (M := machine)
    [.run ⟨1, "kim"⟩ "a" 0, .run ⟨1, "kim"⟩ "b" 0, .validate 0 "a" 1, .validate 1 "a" 1, .issueToken 0 "c" 0,
      .issueToken 1 "d" 0]
    (fun s => s.redeemed.map (·.token) = ["a", "a"] ∧ s.tokens.keys.length = 3) (by decide)
  refine ⟨s, hs, hredeemed, hleft, ?_⟩
  intro h
  have honce := h.once
  rw [hredeemed] at honce
  exact absurd honce (by decide)

end Resumption

end GameServer
