import GameServer.Json
import GameServer.SubmitInput

namespace GameServer

def handleSessionInput (userId : Int) (message : Json) : Except Error SessionInput :=
  match message.find "sessionId", message.find "sequence", message.find "targetTick", message.find "delta" with
  | some sessionId, some sequence, some targetTick, some delta =>
    if sessionId.isString ∧ sequence.isNumberUnsigned ∧ targetTick.isNumberInteger ∧ delta.isNumberInteger then
      .ok {
        sessionId := sessionId.getString
        userId := userId
        sequence := sequence.getUInt64
        targetTick := targetTick.getInt
        delta := delta.getInt }
    else .error ⟨"bad_request", "필드 형식이 올바르지 않습니다"⟩
  | _, _, _, _ => .error ⟨"bad_request", "필수 필드가 없습니다"⟩

structure InputFrame where
  message : Json
  sequence : Int
  targetTick : Int
  delta : Int
  hsequence : (message.find "sequence").bind Json.integer? = some sequence
  htargetTick : (message.find "targetTick").bind Json.integer? = some targetTick
  hdelta : (message.find "delta").bind Json.integer? = some delta

namespace InputFrame

open Server

variable {D : Type} {cfg : Config D}

/-- The frame has no session id, or one that is not a string, or its sequence
is not stored as an unsigned number: it is answered with bad_request. -/
def Malformed (frame : InputFrame) : Prop :=
  ¬ (((frame.message.find "sessionId").any Json.isString) ∧
    ((frame.message.find "sequence").any Json.isNumberUnsigned))

theorem input_of_frame (frame : InputFrame) (userId : Int) (h : ¬ frame.Malformed) :
    ∃ (sessionId : String) (sequence : Nat), (sequence : Int) = frame.sequence ∧
      handleSessionInput userId frame.message =
        .ok ⟨sessionId, userId, sequence, Json.narrow frame.targetTick, Json.narrow frame.delta⟩ := by
  obtain ⟨seq, hseq, hseqInt⟩ := Option.bind_eq_some_iff.mp frame.hsequence
  obtain ⟨tick, htick, htickInt⟩ := Option.bind_eq_some_iff.mp frame.htargetTick
  obtain ⟨delta, hdelta, hdeltaInt⟩ := Option.bind_eq_some_iff.mp frame.hdelta
  simp only [Malformed, hseq, Option.any_some, not_not] at h
  obtain ⟨hid, hunsigned⟩ := h
  obtain ⟨id, hfind, hstring⟩ := (Option.any_eq_true _ _).mp hid
  refine ⟨id.getString, seq.getUInt64, Json.getUInt64_of_integer hseqInt hunsigned, ?_⟩
  simp [handleSessionInput, hfind, hseq, htick, hdelta, hstring, hunsigned,
    Json.isNumberInteger_of_integer htickInt, Json.isNumberInteger_of_integer hdeltaInt,
    Json.getInt_of_integer htickInt, Json.getInt_of_integer hdeltaInt]

theorem refused_of_malformed (frame : InputFrame) (userId : Int) (h : frame.Malformed) :
    ∃ e, handleSessionInput userId frame.message = .error e ∧ e.code = "bad_request" := by
  obtain ⟨seq, hseq, -⟩ := Option.bind_eq_some_iff.mp frame.hsequence
  obtain ⟨tick, htick, -⟩ := Option.bind_eq_some_iff.mp frame.htargetTick
  obtain ⟨delta, hdelta, -⟩ := Option.bind_eq_some_iff.mp frame.hdelta
  cases hid : frame.message.find "sessionId" with
  | none => exact ⟨⟨"bad_request", "필수 필드가 없습니다"⟩, by simp [handleSessionInput, hid], rfl⟩
  | some id =>
      simp only [Malformed, hid, hseq, Option.any_some] at h
      refine ⟨⟨"bad_request", "필드 형식이 올바르지 않습니다"⟩, ?_, rfl⟩
      simp only [handleSessionInput, hid, hseq, htick, hdelta]
      exact if_neg fun hall => h ⟨hall.1, hall.2.1⟩

/-- The call of SubmitInput for an input found in s makes its handler, run in
a later state, call EnqueueInput with a command. -/
inductive Reaches (cfg : Config D) (s : Server) (input : SessionInput) : SessionContext → InputCommand → Prop
  | mk {k n : Nat} {t : Server} {ctx : SessionContext} (hl : s.lookupSession input = .ok k)
      (ht : (machine cfg).Leads { s with calls := s.calls ++ [(input, k)] } t)
      (hn : t.calls[n]? = some (input, k)) (hk : t.contexts[k]? = some ctx) (hfree : ctx.strand.Free)
      (hopen : ctx.ended = false) (hin : input.userId ∈ ctx.participantMap) : Reaches cfg s input ctx input.command

/-- The command of a frame is the frame's own, at every way it can reach a
simulation, and one that is accepted meets the rules as sent. -/
structure Faithful (cfg : Config D) (userId : Int) (frame : InputFrame) : Prop where
  same : ∀ s input ctx command, (machine cfg).Reachable s → handleSessionInput userId frame.message = .ok input →
    Reaches cfg s input ctx command →
      (command.sequence : Int) = frame.sequence ∧ command.targetTick = frame.targetTick ∧
        command.delta = frame.delta
  accepted : ∀ s input ctx command, (machine cfg).Reachable s →
    handleSessionInput userId frame.message = .ok input → Reaches cfg s input ctx command →
    (ctx.simulation.enqueueInput command).2.accepted = true →
      (-3 ≤ frame.delta ∧ frame.delta ≤ 3) ∧ ctx.simulation.currentTick < frame.targetTick ∧
        Json.FitsInt frame.targetTick ∧ Json.FitsInt frame.delta

theorem Reaches.command_eq {s : Server} {input : SessionInput} {ctx : SessionContext} {command : InputCommand}
    (h : Reaches cfg s input ctx command) : command = input.command := by
  cases h
  rfl

theorem reaches_after_match (cfg : Config D) (input : SessionInput) :
    ∃ s ctx, (machine cfg).Reachable s ∧ Reaches cfg s input ctx input.command := by
  have hne : (⟨input.userId, ""⟩ : AuthUser).userId ≠ (⟨input.userId + 1, ""⟩ : AuthUser).userId := by
    change input.userId ≠ input.userId + 1
    omega
  obtain ⟨s, hs, hctx, hu, hid⟩ := run_match cfg hne
  have hlookup : s.lookupSession input = .ok 0 := by simp [lookupSession, hu, hid]
  have hin := ((newContext_sound cfg {} hne).members input.userId).mpr (by
    simp [newContext, SessionContext.userIds, pairParticipants])
  exact ⟨s, _, .of_run hs, .mk (n := s.calls.length) hlookup (.refl _) (by simp) (by rw [hctx]; rfl) ⟨rfl, rfl⟩ rfl hin⟩

theorem faithful_of_malformed {userId : Int} {frame : InputFrame} (h : frame.Malformed) :
    Faithful cfg userId frame := by
  obtain ⟨e, herr, -⟩ := frame.refused_of_malformed userId h
  have hno : ∀ input, handleSessionInput userId frame.message ≠ .ok input := by
    intro input hinput
    rw [herr] at hinput
    cases hinput
  exact ⟨fun s input _ _ _ hinput => absurd hinput (hno input), fun s input _ _ _ hinput => absurd hinput (hno input)⟩

theorem faithful_of_fits {userId : Int} {frame : InputFrame} (htick : Json.FitsInt frame.targetTick)
    (hdelta : Json.FitsInt frame.delta) : Faithful cfg userId frame := by
  by_cases hm : frame.Malformed
  · exact faithful_of_malformed hm
  obtain ⟨sessionId, sequence, hsequence, hinput⟩ := frame.input_of_frame userId hm
  rw [(Json.narrow_eq_self_iff _).mpr htick, (Json.narrow_eq_self_iff _).mpr hdelta] at hinput
  constructor
  · intro s input ctx command _ hin hreach
    rw [hinput] at hin
    cases hin
    rw [hreach.command_eq]
    exact ⟨hsequence, rfl, rfl⟩
  · intro s input ctx command _ hin hreach haccepted
    rw [hinput] at hin
    cases hin
    rw [hreach.command_eq, Simulation.enqueueInput_accepted, Simulation.validateInput_ok_iff] at haccepted
    obtain ⟨hahead, hrange, -⟩ := haccepted
    exact ⟨hrange, hahead, htick, hdelta⟩

/-- The command of a frame is always the frame's own exactly when the frame
is refused for its form or both of its ints fit. -/
theorem faithful_iff (cfg : Config D) (userId : Int) (frame : InputFrame) :
    Faithful cfg userId frame ↔
      frame.Malformed ∨ (Json.FitsInt frame.targetTick ∧ Json.FitsInt frame.delta) := by
  constructor
  · intro h
    by_cases hm : frame.Malformed
    · exact Or.inl hm
    · obtain ⟨sessionId, sequence, -, hinput⟩ := frame.input_of_frame userId hm
      obtain ⟨s, ctx, hs, hreach⟩ := reaches_after_match cfg
        ⟨sessionId, userId, sequence, Json.narrow frame.targetTick, Json.narrow frame.delta⟩
      obtain ⟨-, htick, hdelta⟩ := h.same s _ ctx _ hs hinput hreach
      exact Or.inr ⟨(Json.narrow_eq_self_iff _).mp htick, (Json.narrow_eq_self_iff _).mp hdelta⟩
  · rintro (hm | ⟨htick, hdelta⟩)
    · exact faithful_of_malformed hm
    · exact faithful_of_fits htick hdelta

def wideFrame : InputFrame where
  message := .object [("sessionId", .string "session-1"), ("sequence", .numberUnsigned 1),
    ("targetTick", .numberUnsigned 1), ("delta", .numberUnsigned 4294967297)]
  sequence := 1
  targetTick := 1
  delta := 4294967297
  hsequence := by decide
  htargetTick := by decide
  hdelta := by decide

theorem not_faithful_of_wide : (∃ s input ctx command, (machine (evenConfig 3)).Reachable s ∧
    handleSessionInput 1 wideFrame.message = .ok input ∧ Reaches (evenConfig 3) s input ctx command ∧
      command.delta = 1 ∧ (ctx.simulation.enqueueInput command).2.accepted = true) ∧
    ¬ Faithful (evenConfig 3) 1 wideFrame := by
  have hinput : handleSessionInput 1 wideFrame.message = .ok ⟨"session-1", 1, 1, 1, 1⟩ := by decide
  obtain ⟨s, -, hr, hlookup, hcalls, ctx, hk, hfree, hopen, hin, hok⟩ :=
    Machine.exists_of_run (M := machine (evenConfig 3)) (matchActions ⟨1, "kim"⟩ ⟨2, "lee"⟩ ++ startActions 0)
      (fun s => s.lookupSession ⟨"session-1", 1, 1, 1, 1⟩ = .ok 0 ∧ s.calls = [] ∧
        ∃ ctx ∈ s.contexts[0]?, ctx.strand.Free ∧ ctx.ended = false ∧ 1 ∈ ctx.participantMap ∧
          (ctx.simulation.enqueueInput ⟨1, 1, 1, 1⟩).2.accepted = true) (by decide)
  have hreach : Reaches (evenConfig 3) s ⟨"session-1", 1, 1, 1, 1⟩ ctx _ :=
    .mk (n := 0) hlookup (.refl _) (by simp [hcalls]) hk hfree hopen hin
  refine ⟨⟨s, _, ctx, _, hr, hinput, hreach, rfl, hok⟩, ?_⟩
  intro h
  have hdelta := (h.same s _ ctx _ hr hinput hreach).2.2
  revert hdelta
  decide

end InputFrame

end GameServer
