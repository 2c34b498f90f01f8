import GameServer.Reconnect

namespace GameServer

namespace ReconnectService

def Holds (tokens : ReconnectService) (userId : Int) (token : String) : Prop :=
  ∃ record, tokens.lookup token = some record ∧ record.user.userId = userId

theorem validate_isSome_iff (tokens : ReconnectService) (token : String) (user : AuthUser) :
    (tokens.validate token user).isSome ↔ tokens.Holds user.userId token := by
  rw [validate]
  cases h : tokens.lookup token with
  | none => simp [Holds, h]
  | some record => by_cases hu : record.user.userId = user.userId <;> simp [Holds, h, hu]

theorem holds_issueToken (tokens : ReconnectService) (user : AuthUser) (version : Int) (snapshot : AuthSnapshot)
    (previous : Option String) (token : String) (now : Int) (v : Int) (t : String) :
    (tokens.issueToken user version snapshot previous token now).Holds v t ↔
      if t = token then v = user.userId else previous ≠ some t ∧ tokens.Holds v t := by
  cases previous with
  | none =>
      rw [Holds, issueToken, Table.lookup_insert_eq]
      split
      next => simp [eq_comm]
      next => simp [Holds]
  | some p =>
      rw [Holds, issueToken, Table.lookup_insert_eq, Table.lookup_erase_eq]
      split
      next => simp [eq_comm]
      next =>
        by_cases hp : t = p
        · simp [hp]
        · simp [hp, Ne.symm hp, Holds]

end ReconnectService

namespace Resumption

open ReconnectService

/-- A token counts as used when the request that carried it is completed. -/
inductive TokenEvent
  | issued (userId : Int) (token : String)
  | used (userId : Int) (token : String)
deriving DecidableEq, Repr

def tokenEvents (s : Resumption) : Action → List TokenEvent
  | .run user token _ => [.issued user.userId token]
  | .validate _ _ _ => []
  | .issueToken c token _ =>
    s.connections[c]?.toList.flatMap fun connection =>
      connection.validated.toList.flatMap fun request =>
        [.used connection.user.userId request.1, .issued connection.user.userId token]

def tokenMachine : Machine (Resumption × List TokenEvent) Action := machine.recorded tokenEvents

/-- The stored tokens are those of the history that have been issued and not
used. Each one has had one owner. -/
structure Accounts (tokens : ReconnectService) (generated : List String) (history : List TokenEvent) : Prop where
  exact : ∀ v t, tokens.Holds v t ↔ .issued v t ∈ history ∧ .used v t ∉ history
  known : ∀ v t, .issued v t ∈ history → t ∈ generated
  owner : ∀ v w t, .issued v t ∈ history → .issued w t ∈ history → v = w
  spent : ∀ v t, .used v t ∈ history → .issued v t ∈ history

def Waits (connections : List ResumeConnection) (history : List TokenEvent) : Prop :=
  ∀ connection ∈ connections, ∀ previous seq, connection.validated = some (previous, seq) →
    .issued connection.user.userId previous ∈ history

theorem accounts_empty : Accounts ∅ [] [] where
  exact := by simp [Holds]
  known := by simp
  owner := by simp
  spent := by simp

theorem waits_set {connections : List ResumeConnection} {history history' : List TokenEvent} {c : Nat}
    {next : ResumeConnection} (h : Waits connections history) (hsub : history ⊆ history')
    (hnext : ∀ previous seq, next.validated = some (previous, seq) → .issued next.user.userId previous ∈ history') :
    Waits (connections.set c next) history' := by
  intro connection hc previous seq hv
  rcases List.mem_or_eq_of_mem_set hc with hc | rfl
  · exact hsub (h connection hc previous seq hv)
  · exact hnext previous seq hv

namespace Accounts

variable {tokens : ReconnectService} {generated : List String} {history : List TokenEvent}

theorem issued_of_holds (h : Accounts tokens generated history) {v : Int} {t : String} (ht : tokens.Holds v t) :
    .issued v t ∈ history := ((h.exact v t).mp ht).1

theorem mem_issue {user : AuthUser} {previous : Option String} {token : String} {event : TokenEvent} :
    event ∈ history ++ (previous.toList.map (.used user.userId) ++ [.issued user.userId token]) ↔
      event ∈ history ∨ (∃ p, previous = some p ∧ event = .used user.userId p) ∨ event = .issued user.userId token := by
  simp [eq_comm]

theorem issue (h : Accounts tokens generated history) (previous : Option String) {user : AuthUser} {version : Int}
    {snapshot : AuthSnapshot} {token : String} {now : Int} (hnew : token ∉ generated)
    (hprevious : ∀ p, previous = some p → .issued user.userId p ∈ history) :
    Accounts (tokens.issueToken user version snapshot previous token now) (generated ++ [token])
      (history ++ (previous.toList.map (.used user.userId) ++ [.issued user.userId token])) := by
  have hfresh : ∀ v, .issued v token ∉ history := fun v hv => hnew (h.known v token hv)
  constructor
  · intro v t
    rw [holds_issueToken, mem_issue, mem_issue]
    by_cases ht : t = token
    · -- nothing of the history is about a new token
      subst ht
      have hunused : .used v t ∉ history := fun hv => hfresh v (h.spent v t hv)
      have hother : previous ≠ some t := fun hp => hfresh _ (hprevious t hp)
      simp [hfresh, hunused, hother]
    · rw [if_neg ht, h.exact v t]
      by_cases hp : previous = some t
      · -- the token in whose place the new one comes had the same owner
        have howner : .issued v t ∈ history → v = user.userId := fun hv => h.owner v _ t hv (hprevious t hp)
        simp only [hp, ne_eq, not_true_eq_false, false_and, false_iff]
        rintro ⟨hissued, hunused⟩
        apply hunused
        have hv : v = user.userId := by
          rcases hissued with hissued | ⟨p, -, he⟩ | he
          · exact howner hissued
          · cases he
          · exact absurd (TokenEvent.issued.inj he).2 ht
        exact Or.inr (Or.inl ⟨t, rfl, by rw [hv]⟩)
      · simp [hp, ht]
  · intro v t hv
    rcases mem_issue.mp hv with hv | ⟨p, -, he⟩ | he
    · exact List.mem_append_left _ (h.known v t hv)
    · cases he
    · cases he
      simp
  · intro v w t hv hw
    have hcases : ∀ u, .issued u t ∈ history ++ (previous.toList.map (.used user.userId) ++
        [.issued user.userId token]) → (t ≠ token ∧ .issued u t ∈ history) ∨ (t = token ∧ u = user.userId) := by
      intro u hu
      rcases mem_issue.mp hu with hu | ⟨p, -, he⟩ | he
      · exact Or.inl ⟨fun ht => hfresh u (ht ▸ hu), hu⟩
      · cases he
      · exact Or.inr ⟨(TokenEvent.issued.inj he).2, (TokenEvent.issued.inj he).1⟩
    rcases hcases v hv with ⟨hne, hv⟩ | ⟨ht, rfl⟩
    · rcases hcases w hw with ⟨-, hw⟩ | ⟨ht, -⟩
      · exact h.owner v w t hv hw
      · exact absurd ht hne
    · rcases hcases w hw with ⟨hne, -⟩ | ⟨-, rfl⟩
      · exact absurd ht hne
      · rfl
  · intro v t hv
    apply mem_issue.mpr
    rcases mem_issue.mp hv with hv | ⟨p, hp, he⟩ | he
    · exact Or.inl (h.spent v t hv)
    · cases he
      exact Or.inl (hprevious _ hp)
    · cases he

end Accounts

theorem accounts_step {s t : Resumption} {history : List TokenEvent} {a : Action}
    (h : Accounts s.tokens s.generated history ∧ Waits s.connections history) (hs : s.step a = some t) :
    Accounts t.tokens t.generated (history ++ s.tokenEvents a) ∧ Waits t.connections (history ++ s.tokenEvents a) := by
  obtain ⟨ha, hw⟩ := h
  cases a with
  | run user token now =>
      simp only [step] at hs
      split at hs <;> cases hs
      next hnew =>
        refine ⟨ha.issue none hnew (by simp), ?_⟩
        intro connection hc previous seq hv
        rcases List.mem_append.mp hc with hc | hc
        · exact List.mem_append_left _ (hw connection hc previous seq hv)
        · rw [List.mem_singleton.mp hc] at hv
          cases hv
  | validate c token seq =>
      obtain ⟨connection, hc, hs⟩ := Option.bind_eq_some_iff.mp hs
      simp only [tokenEvents, List.append_nil]
      split at hs
      next => cases hs
      next =>
        split at hs <;> cases hs
        next => exact ⟨ha, hw⟩
        next hv =>
          refine ⟨ha, waits_set hw (List.Subset.refl _) ?_⟩
          rintro previous seq' he
          cases he
          exact ha.issued_of_holds ((validate_isSome_iff _ _ _).mp (by rw [hv]; rfl))
  | issueToken c token now =>
      obtain ⟨connection, hc, hs⟩ := Option.bind_eq_some_iff.mp hs
      split at hs
      next => cases hs
      next previous seq hv =>
        split at hs <;> cases hs
        next hnew =>
          have hprevious := hw connection (List.mem_of_getElem? hc) previous seq hv
          have hevents : s.tokenEvents (.issueToken c token now) =
              (some previous).toList.map (.used connection.user.userId) ++
                [.issued connection.user.userId token] := by
            simp [tokenEvents, hc, hv]
          rw [hevents]
          refine ⟨ha.issue (some previous) hnew (by simpa using hprevious),
            waits_set hw (List.subset_append_left _ _) ?_⟩
          rintro previous' seq' he
          cases he

theorem accounts_reachable {s : Resumption} {history : List TokenEvent} (h : tokenMachine.Reachable (s, history)) :
    Accounts s.tokens s.generated history ∧ Waits s.connections history := by
  refine Machine.Reachable.recorded_induction
    (P := fun s history => Accounts s.tokens s.generated history ∧ Waits s.connections history) ?_ ?_ h
  · exact ⟨accounts_empty, fun connection hc => by cases hc⟩
  · intro s history a t hp ht
    exact accounts_step hp ht

def Action.requestOn : Action → Option Nat
  | .run _ _ _ => none
  | .validate c _ _ | .issueToken c _ _ => some c

theorem tokenEvents_own {s : Resumption} {a : Action} {c : Nat} {connection : ResumeConnection}
    (hc : s.connections[c]? = some connection) (ha : a.requestOn = some c) {v : Int} {t : String}
    (h : .issued v t ∈ s.tokenEvents a ∨ .used v t ∈ s.tokenEvents a) : v = connection.user.userId := by
  cases a with
  | run => cases ha
  | validate => simp [tokenEvents] at h
  | issueToken d token now =>
      cases ha
      simp only [tokenEvents, hc, Option.toList_some, List.flatMap_singleton] at h
      cases hv : connection.validated with
      | none => simp [hv] at h
      | some request =>
          simp only [hv, Option.toList_some, List.flatMap_singleton, List.mem_cons, List.not_mem_nil] at h
          simp only [TokenEvent.issued.injEq, TokenEvent.used.injEq, reduceCtorEq, or_false, false_or] at h
          exact h.elim (·.1) (·.1)

theorem accepts_iff {s : Resumption} {history : List TokenEvent} (h : Accounts s.tokens s.generated history)
    (token : String) (user : AuthUser) :
    (s.tokens.validate token user).isSome ↔
      .issued user.userId token ∈ history ∧ .used user.userId token ∉ history :=
  (validate_isSome_iff _ _ _).trans (h.exact _ _)

/-- What the sender of a request cannot use: another user's token, one that
nobody has been given, or one that is used already. -/
def Unusable (history : List TokenEvent) (sender : Int) (token : String) : Prop :=
  (∃ other, other ≠ sender ∧ .issued other token ∈ history) ∨ (∀ other, .issued other token ∉ history) ∨
    ∃ other, .used other token ∈ history

theorem not_holds_of_unusable {s : Resumption} {history : List TokenEvent}
    (h : Accounts s.tokens s.generated history) {sender : Int} {token : String}
    (hu : Unusable history sender token) : ¬ s.tokens.Holds sender token := by
  intro hholds
  obtain ⟨hissued, hunused⟩ := (h.exact sender token).mp hholds
  rcases hu with ⟨other, hne, hother⟩ | hnobody | ⟨other, hused⟩
  · exact hne (h.owner other sender token hother hissued)
  · exact hnobody sender hissued
  · have howner : other = sender := h.owner other sender token (h.spent other token hused) hissued
    exact hunused (howner ▸ hused)

/-- At any moment of any run a user's valid tokens are those issued to the
user and not used yet. What the sender cannot use is refused, and no request
of one user changes what another one has. -/
theorem valid_iff_unused {s : Resumption} {history : List TokenEvent} (h : tokenMachine.Reachable (s, history)) :
    (∀ token user, (s.tokens.validate token user).isSome ↔
      .issued user.userId token ∈ history ∧ .used user.userId token ∉ history) ∧
    (∀ c connection token seq, s.connections[c]? = some connection → connection.validated = none →
      Unusable history connection.user.userId token →
        s.step (.validate c token seq) = some { s with
          replies := s.replies ++
            [(c, .error "invalid_resume_token" "이전 resumeToken이 유효하지 않습니다" seq)] }) ∧
    (∀ a t c connection, s.connections[c]? = some connection → a.requestOn = some c → s.step a = some t →
      ∀ token user, user.userId ≠ connection.user.userId →
        ((t.tokens.validate token user).isSome ↔ (s.tokens.validate token user).isSome)) := by
  obtain ⟨ha, -⟩ := accounts_reachable h
  refine ⟨accepts_iff ha, ?_, ?_⟩
  · intro c connection token seq hc hidle hu
    have hnone : s.tokens.validate token connection.user = none := by
      apply Option.not_isSome_iff_eq_none.mp
      intro hsome
      exact not_holds_of_unusable ha hu ((validate_isSome_iff _ _ _).mp hsome)
    simp [step, hc, hidle, hnone]
  · intro a t c connection hc hon hs token user hne
    obtain ⟨ht, -⟩ := accounts_reachable (h.step (Machine.recorded_step.mpr ⟨hs, rfl⟩))
    rw [accepts_iff ht, accepts_iff ha, List.mem_append, List.mem_append]
    have hissued : .issued user.userId token ∉ s.tokenEvents a := fun he =>
      hne (tokenEvents_own hc hon (Or.inl he))
    have hused : .used user.userId token ∉ s.tokenEvents a := fun he =>
      hne (tokenEvents_own hc hon (Or.inr he))
    simp only [hissued, hused, or_false]

theorem valid_iff_unused_stolen : ∃ s history, tokenMachine.run
    [.run ⟨1, "kim"⟩ "a" 0, .run ⟨2, "lee"⟩ "b" 0, .validate 1 "a" 7, .validate 0 "a" 1, .issueToken 0 "c" 0] =
      some (s, history) ∧
    ((s.tokens.validate "c" ⟨1, "kim"⟩).isSome ↔ .issued 1 "c" ∈ history ∧ .used 1 "c" ∉ history) ∧
    s.step (.validate 0 "a" 2) = some { s with
      replies := s.replies ++ [(0, .error "invalid_resume_token" "이전 resumeToken이 유효하지 않습니다" 2)] } := by
  obtain ⟨⟨s, history⟩, hs, hr, hused, connection, hc, hidle⟩ := Machine.exists_of_run (M := tokenMachine)
    [.run ⟨1, "kim"⟩ "a" 0, .run ⟨2, "lee"⟩ "b" 0, .validate 1 "a" 7, .validate 0 "a" 1, .issueToken 0 "c" 0]
    (fun r => .used 1 "a" ∈ r.2 ∧ ∃ connection ∈ r.1.connections[0]?, connection.validated = none) (by decide)
  obtain ⟨hvalid, hrefused, -⟩ := valid_iff_unused hr
  exact ⟨s, history, hs, hvalid "c" ⟨1, "kim"⟩,
    hrefused 0 connection "a" 2 hc hidle (Or.inr (Or.inr ⟨1, hused⟩))⟩

end Resumption

end GameServer
