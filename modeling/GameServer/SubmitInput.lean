import GameServer.Consistency
import GameServer.StrandProgress

namespace GameServer.Server

variable {D : Type} {cfg : Config D}

/-- A SubmitInput call that looks up its context in the first state and
completes in the step from the second to the third. -/
inductive Submits (cfg : Config D) (s : Server) (input : SessionInput) : Server → Server → Except Error Unit → Prop
  | refused {e : Error} (hl : s.lookupSession input = .error e) : Submits cfg s input s s (.error e)
  | handled {k n : Nat} {t : Server} {ctx : SessionContext} (hl : s.lookupSession input = .ok k)
      (ht : (machine cfg).Leads { s with calls := s.calls ++ [(input, k)] } t)
      (hn : t.calls[n]? = some (input, k)) (hk : t.contexts[k]? = some ctx) (hfree : ctx.strand.Free) :
      Submits cfg s input t { t.setContext k (ctx.handleInput input).1 with calls := t.calls.eraseIdx n }
        (ctx.handleInput input).2

/-- What the protocol says of an input, at every way the call can complete. -/
structure MeetsContract (cfg : Config D) (s : Server) (input : SessionInput) : Prop where
  accepted : ∀ t t', Submits cfg s input t t' (.ok ()) → ∃ (k : Nat) (ctx : SessionContext),
    s.sessions.lookup input.sessionId = some k ∧ t.sessions.lookup input.sessionId = some k ∧
      t.contexts[k]? = some ctx ∧ input.userId ∈ ctx.userIds ∧
      ctx.simulation.validateInput input.command = .ok () ∧
      t'.contexts = t.contexts.set k { ctx with simulation := ctx.simulation.push input.command }
  unknown : s.sessions.lookup input.sessionId = none → ∀ t t' result, Submits cfg s input t t' result →
    ∃ e, result = .error e ∧ e.code = "session_not_found"
  foreign : ∀ (k : Nat) (ctx : SessionContext), s.sessions.lookup input.sessionId = some k →
    s.contexts[k]? = some ctx → input.userId ∉ ctx.userIds →
    ∀ t t' result, Submits cfg s input t t' result → ∃ e, result = .error e ∧ e.code = "not_participant"
  rejected : ∀ t t' e, Submits cfg s input t t' (.error e) → t'.contexts = t.contexts

theorem lookupSession_none {s : Server} {input : SessionInput} (h : s.userToSession.lookup input.userId = none) :
    ∃ e, s.lookupSession input = .error e ∧ e.code = "session_not_found" := by
  exact ⟨⟨"session_not_found", "세션을 찾을 수 없습니다"⟩, by simp [lookupSession, h], rfl⟩

theorem Inv.lookupSession_some {s : Server} (h : s.Inv) {input : SessionInput} {id : String}
    (hu : s.userToSession.lookup input.userId = some id) :
    ∃ (k : Nat) (ctx : SessionContext), s.lookupSession input = .ok k ∧ s.sessions.lookup id = some k ∧
      s.contexts[k]? = some ctx ∧ ctx.id = id ∧ input.userId ∈ ctx.userIds := by
  obtain ⟨k, ctx, hs, hk, hm⟩ := (h.member input.userId id).mp hu
  obtain ⟨other, ho, hid, -⟩ := (h.active id k).mp hs
  rw [hk] at ho
  cases ho
  exact ⟨k, ctx, by simp [lookupSession, hu, hs], hs, hk, hid, hm⟩

theorem submits_rejected {s t t' : Server} {input : SessionInput} {e : Error}
    (h : Submits cfg s input t t' (.error e)) : t'.contexts = t.contexts := by
  generalize hr : (Except.error e : Except Error Unit) = result at h
  cases h with
  | refused => rfl
  | handled hl ht hn hk hfree =>
      obtain ⟨hlt, hget⟩ := List.getElem?_eq_some_iff.mp hk
      simp only [setContext, (SessionContext.handleInput_error hr.symm).1]
      rw [← hget]
      exact List.set_getElem_self hlt

theorem shape_at_completion {s t : Server} {input : SessionInput} {k : Nat} {c ctx : SessionContext}
    (hc : s.contexts[k]? = some c)
    (ht : (machine cfg).Leads { s with calls := s.calls ++ [(input, k)] } t) (hk : t.contexts[k]? = some ctx) :
    c.SameShape ctx := by
  obtain ⟨d, hd, hshape⟩ := shape_leads ht k c hc
  rw [hk] at hd
  cases hd
  exact hshape

theorem Inv.calls {s : Server} (h : s.Inv) (calls : List (SessionInput × Nat)) :
    ({ s with calls := calls } : Server).Inv :=
  h.congr rfl rfl rfl rfl h.indexed h.apart

theorem Inv.meets_own {s : Server} (h : s.Inv) {input : SessionInput}
    (hu : s.userToSession.lookup input.userId = some input.sessionId) : MeetsContract cfg s input := by
  obtain ⟨k, c, hlookup, hs, hc, hid, hm⟩ := h.lookupSession_some hu
  refine ⟨?_, ?_, ?_, fun _ _ _ => submits_rejected⟩
  · intro t t' hsub
    generalize hr : (Except.ok () : Except Error Unit) = result at hsub
    cases hsub with
    | refused => cases hr
    | @handled j n t ctx hl ht hn hk hfree =>
        rw [hlookup] at hl
        cases hl
        have hshape := shape_at_completion hc ht hk
        have hinv : t.Inv := leads_inv (h.calls _) ht
        obtain ⟨hopen, -, hv, hh⟩ := SessionContext.handleInput_ok hr.symm
        refine ⟨k, ctx, hs, ?_, hk, ?_, hv, by rw [hh]; rfl⟩
        · exact (hinv.active _ _).mpr
            ⟨ctx, hk, hshape.1.trans hid, SessionContext.not_finished_of_open hopen⟩
        · rw [SessionContext.userIds, hshape.2.1]
          exact hm
  · intro hnone
    rw [hs] at hnone
    cases hnone
  · intro j other hs' ho hout
    rw [hs] at hs'
    cases hs'
    rw [hc] at ho
    cases ho
    exact absurd hm hout

theorem meets_unknown {s : Server} {input : SessionInput} (hu : s.userToSession.lookup input.userId = none)
    (hs : s.sessions.lookup input.sessionId = none) : MeetsContract cfg s input := by
  obtain ⟨e, hlookup, hcode⟩ := lookupSession_none hu
  have honly : ∀ t t' result, Submits cfg s input t t' result → result = .error e := by
    intro t t' result hsub
    cases hsub with
    | refused hl =>
        rw [hlookup] at hl
        cases hl
        rfl
    | handled hl =>
        rw [hlookup] at hl
        cases hl
  refine ⟨?_, fun _ t t' result hsub => ⟨e, honly t t' result hsub, hcode⟩, ?_, fun _ _ _ => submits_rejected⟩
  · intro t t' hsub
    cases honly t t' _ hsub
  · intro k ctx hs'
    rw [hs] at hs'
    cases hs'

theorem Inv.completes (cfg : Config D) {s : Server} (h : s.Inv) {input : SessionInput} {id : String}
    (hu : s.userToSession.lookup input.userId = some id) :
    ∃ t t' result, Submits cfg s input t t' result ∧
      ∀ e, result = .error e → e.code ≠ "session_not_found" ∧ e.code ≠ "not_participant" := by
  obtain ⟨k, c, hlookup, -, hc, -, hm⟩ := h.lookupSession_some hu
  obtain ⟨t, ht, hcalls, ctx, hcontexts, hfree, -⟩ :=
    strand_drains cfg (P := fun _ => True) (fun _ _ _ _ _ => trivial)
      { s with calls := s.calls ++ [(input, k)] } (k := k) hc trivial
  have hk : t.contexts[k]? = some ctx := by
    rw [hcontexts]
    exact List.getElem?_set_self (List.getElem?_eq_some_iff.mp hc).1
  have hn : t.calls[s.calls.length]? = some (input, k) := by simp [hcalls]
  have hinv : t.Inv := leads_inv (h.calls _) ht
  refine ⟨_, _, _, .handled hlookup ht hn hk hfree, ?_⟩
  intro e he
  rcases (SessionContext.handleInput_error he).2 with hcode | ⟨-, hout⟩ | hcode
  · simp [hcode]
  · rw [(hinv.sound k ctx hk).members, SessionContext.userIds, (shape_at_completion hc ht hk).2.1] at hout
    exact absurd hm hout
  · simp [hcode]

/-- In every reachable state the protocol is met exactly for the inputs that
name the session the user is in, or that name no active session from a user
who is in none. -/
theorem meetsContract_iff {s : Server} (h : (machine cfg).Reachable s) (input : SessionInput) :
    MeetsContract cfg s input ↔
      s.userToSession.lookup input.userId = some input.sessionId ∨
        (s.userToSession.lookup input.userId = none ∧ s.sessions.lookup input.sessionId = none) := by
  have hinv := reachable_inv h
  constructor
  · intro hm
    cases hu : s.userToSession.lookup input.userId with
    | none =>
        refine Or.inr ⟨rfl, ?_⟩
        by_contra hs
        obtain ⟨k, hs⟩ := Option.ne_none_iff_exists'.mp hs
        obtain ⟨ctx, hk, -, -⟩ := (hinv.active _ k).mp hs
        obtain ⟨e, hlookup, hcode⟩ := lookupSession_none hu
        have hout : input.userId ∉ ctx.userIds := by
          intro hin
          rw [(hinv.member _ _).mpr ⟨k, ctx, hs, hk, hin⟩] at hu
          cases hu
        obtain ⟨e', he, hcode'⟩ := hm.foreign k ctx hs hk hout s s _ (.refused hlookup)
        cases he
        simp [hcode] at hcode'
    | some id =>
        apply Or.inl
        by_contra hid
        obtain ⟨t, t', result, hsub, hcodes⟩ := hinv.completes cfg hu
        cases hs : s.sessions.lookup input.sessionId with
        | none =>
            obtain ⟨e, he, hcode⟩ := hm.unknown hs t t' result hsub
            exact (hcodes e he).1 hcode
        | some k =>
            obtain ⟨ctx, hk, -, -⟩ := (hinv.active _ k).mp hs
            have hout : input.userId ∉ ctx.userIds := by
              intro hin
              rw [(hinv.member _ _).mpr ⟨k, ctx, hs, hk, hin⟩] at hu
              cases hu
              exact hid rfl
            obtain ⟨e, he, hcode⟩ := hm.foreign k ctx hs hk hout t t' result hsub
            exact (hcodes e he).2 hcode
  · rintro (hu | ⟨hu, hs⟩)
    · exact hinv.meets_own hu
    · exact meets_unknown hu hs

/-- A participant of session-1 names a session that never was, and the input
is accepted. -/
theorem not_meetsContract_of_unknown : ∃ s, (machine (evenConfig 3)).run
    (matchActions ⟨1, "kim"⟩ ⟨2, "lee"⟩ ++ startActions 0) = some s ∧
      s.sessions.lookup "session-9" = none ∧
      (∃ t t', Submits (evenConfig 3) s ⟨"session-9", 1, 1, 1, 3⟩ t t' (.ok ())) ∧
      ¬ MeetsContract (evenConfig 3) s ⟨"session-9", 1, 1, 1, 3⟩ := by
  obtain ⟨s, hs, -, hnone, hlookup, hcalls, ctx, hk, hfree, hok⟩ :=
    Machine.exists_of_run (M := machine (evenConfig 3))
      (matchActions ⟨1, "kim"⟩ ⟨2, "lee"⟩ ++ startActions 0)
      (fun s => s.sessions.lookup "session-9" = none ∧ s.lookupSession ⟨"session-9", 1, 1, 1, 3⟩ = .ok 0 ∧
        s.calls = [] ∧ ∃ ctx ∈ s.contexts[0]?, ctx.strand.Free ∧
          (ctx.handleInput ⟨"session-9", 1, 1, 1, 3⟩).2 = .ok ()) (by decide)
  have hsub : Submits (evenConfig 3) s ⟨"session-9", 1, 1, 1, 3⟩ _ _ _ :=
    Submits.handled (n := 0) hlookup (.refl _) (by simp [hcalls]) hk hfree
  rw [hok] at hsub
  refine ⟨s, hs, hnone, ⟨_, _, hsub⟩, ?_⟩
  intro hm
  obtain ⟨e, he, -⟩ := hm.unknown hnone _ _ _ hsub
  cases he

theorem meetsContract_iff_match : ∃ s, (machine (evenConfig 3)).run
    (matchActions ⟨1, "kim"⟩ ⟨2, "lee"⟩ ++ startActions 0) = some s ∧
      MeetsContract (evenConfig 3) s ⟨"session-1", 2, 1, 1, 3⟩ ∧
      MeetsContract (evenConfig 3) s ⟨"session-9", 3, 1, 1, 3⟩ := by
  obtain ⟨s, hs, hr, h2, h3, hnone⟩ := Machine.exists_of_run (M := machine (evenConfig 3))
    (matchActions ⟨1, "kim"⟩ ⟨2, "lee"⟩ ++ startActions 0)
    (fun s => s.userToSession.lookup 2 = some "session-1" ∧ s.userToSession.lookup 3 = none ∧
      s.sessions.lookup "session-9" = none) (by decide)
  exact ⟨s, hs, (meetsContract_iff hr _).mpr (Or.inl h2), (meetsContract_iff hr _).mpr (Or.inr ⟨h3, hnone⟩)⟩

end GameServer.Server
