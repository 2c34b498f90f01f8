import GameServer.Frames

namespace GameServer

open Program Server

def IsEvent (message : Json) (event : String) : Prop :=
  message.find "t" = some (.string "event") ∧ message.find "event" = some (.string event)

def EchoFrame (message : Json) (members : List (String × Json)) : Prop :=
  IsEvent message "echo" ∧ message.find "p" = some (.object members) ∧
    ∃ text, (Json.object members).find "message" = some (.string text)

def ResyncFrame (message : Json) (token : String) : Prop :=
  IsEvent message "resync_request" ∧ ∃ members, message.find "p" = some (.object members) ∧
    (Json.object members).find "resumeToken" = some (.string token)

def PlayFrame (userId : Int) (message : Json) (input : SessionInput) : Prop :=
  IsEvent message "session.input" ∧ ∃ members, message.find "p" = some (.object members) ∧
    handleSessionInput userId (.object members) = .ok input

/-- Bytes that are no frame which the services are asked about, and no echo. -/
structure IllFormed (userId : Int) (frame : Option Json) : Prop where
  echo : ∀ message members, frame = some message → ¬ EchoFrame message members
  resync : ∀ message token, frame = some message → ¬ ResyncFrame message token
  play : ∀ message input, frame = some message → ¬ PlayFrame userId message input

theorem illFormed_none (userId : Int) : IllFormed userId none := ⟨by simp, by simp, by simp⟩

section Message

variable {message : Json} {userId : Int}

theorem IsEvent.unique {event other : String} (h : IsEvent message event) (h' : IsEvent message other) :
    event = other := by
  simpa using h.2.symm.trans h'.2

theorem illFormed_of_event {event : String} (h : IsEvent message event)
    (hecho : event = "echo" → ∀ members, ¬ EchoFrame message members)
    (hresync : event = "resync_request" → ∀ token, ¬ ResyncFrame message token)
    (hplay : event = "session.input" → ∀ input, ¬ PlayFrame userId message input) :
    IllFormed userId (some message) where
  echo := by
    rintro _ members ⟨⟩ he
    exact hecho (h.unique he.1) members he
  resync := by
    rintro _ token ⟨⟩ he
    exact hresync (h.unique he.1) token he
  play := by
    rintro _ input ⟨⟩ he
    exact hplay (h.unique he.1) input he

theorem illFormed_of_no_event (h : ∀ event, ¬ IsEvent message event) : IllFormed userId (some message) where
  echo := by
    rintro _ _ ⟨⟩ he
    exact h _ he.1
  resync := by
    rintro _ _ ⟨⟩ he
    exact h _ he.1
  play := by
    rintro _ _ ⟨⟩ he
    exact h _ he.1

end Message

namespace ResumeConnection

variable {parse : Bytes → Option Json} {c : ResumeConnection}

def replySeq (frame : Option Json) : UInt64 := frame.elim 0 frameSeq

abbrev refusal (frame : Option Json) (code message : String) : Sigma SocketCall.Answer :=
  ⟨.enqueueMessage (toWsJson (.error code message (replySeq frame))), ()⟩

/-- Everything that the handler of a frame can do. -/
inductive FrameRun (c : ResumeConnection) (frame : Option Json) : List (Sigma SocketCall.Answer) → Prop
  | echo {message : Json} {members : List (String × Json)} (hf : frame = some message)
      (he : EchoFrame message members) : FrameRun c frame
        [⟨.enqueueMessage (toWsJson (.echo c.user.userId (.object members) (replySeq frame))), ()⟩]
  | resync {message : Json} {token newToken : String} {record : ResumeSnapshot} {now : Int} (hf : frame = some message)
      (hr : ResyncFrame message token) : FrameRun c frame
        [⟨.validate token c.user, some record⟩, ⟨.systemClock, now⟩,
          ⟨.issueToken c.user c.snapshotVersion (Resumption.buildSnapshot c.user c.snapshotVersion now) (some token),
            newToken⟩,
          ⟨.enqueueMessage (toWsJson (.resyncState newToken
            (Resumption.buildSnapshot c.user c.snapshotVersion now) (replySeq frame))), ()⟩]
  | stale {message : Json} {token : String} (code text : String) (hf : frame = some message)
      (hr : ResyncFrame message token) : FrameRun c frame [⟨.validate token c.user, none⟩, refusal frame code text]
  | accepted {message : Json} {input : SessionInput} (hf : frame = some message)
      (hp : PlayFrame c.user.userId message input) : FrameRun c frame [⟨.submitInput input, .ok ()⟩]
  | rejected {message : Json} {input : SessionInput} {e : Error} (hf : frame = some message)
      (hp : PlayFrame c.user.userId message input) :
      FrameRun c frame [⟨.submitInput input, .error e⟩, refusal frame e.code e.message]
  | refused (code text : String) (hno : IllFormed c.user.userId frame) : FrameRun c frame [refusal frame code text]

def Handled (c : ResumeConnection) (frame : Option Json) (calls : List (Sigma SocketCall.Answer))
    (out : Except Exn ResumeConnection) : Prop := (∃ next, out = .ok next) ∧ FrameRun c frame calls

theorem sendError_handled {frame : Option Json} {code text : String} {seq : UInt64} (hseq : seq = replySeq frame)
    (hno : IllFormed c.user.userId frame) : (c.sendError code text seq).Ensures (Handled c frame) := by
  subst hseq
  exact Ensures.call fun _ => Ensures.pure ⟨⟨c, rfl⟩, .refused code text hno⟩

section Message

variable {message : Json}

theorem handleEcho_handled (h : IsEvent message "echo") :
    (c.handleEcho (message.find "p") (frameSeq message)).Ensures (Handled c (some message)) := by
  have hill : (∀ members, ¬ EchoFrame message members) → IllFormed c.user.userId (some message) := by
    intro hecho
    exact illFormed_of_event h (fun _ => hecho) (by simp) (by simp)
  unfold handleEcho
  split
  next members hp =>
    split
    next text htext =>
      exact Ensures.call fun _ => Ensures.pure ⟨⟨c, rfl⟩, .echo rfl ⟨h, hp, text, htext⟩⟩
    next hno =>
      refine sendError_handled rfl (hill ?_)
      rintro others ⟨-, hothers, text, htext⟩
      rw [hp] at hothers
      cases hothers
      exact hno text htext
  next hno =>
    refine sendError_handled rfl (hill ?_)
    rintro members ⟨-, hp, -⟩
    exact hno members hp

theorem handleResync_handled (h : IsEvent message "resync_request") :
    (c.handleResync (message.find "p") (frameSeq message)).Ensures (Handled c (some message)) := by
  have hill : (∀ token, ¬ ResyncFrame message token) → IllFormed c.user.userId (some message) := by
    intro hresync
    exact illFormed_of_event h (by simp) (fun _ => hresync) (by simp)
  unfold handleResync
  split
  next members hp =>
    split
    next token htoken =>
      have hframe : ResyncFrame message token := ⟨h, members, hp, htoken⟩
      apply Ensures.call
      intro snapshot
      cases snapshot with
      | none => exact Ensures.call fun _ => Ensures.pure ⟨⟨c, rfl⟩, .stale _ _ rfl hframe⟩
      | some record =>
          apply Ensures.call
          intro now
          apply Ensures.call
          intro newToken
          exact Ensures.call fun _ => Ensures.pure ⟨⟨_, rfl⟩, .resync rfl hframe⟩
    next hno =>
      refine sendError_handled rfl (hill ?_)
      rintro token ⟨-, others, hothers, htoken⟩
      rw [hp] at hothers
      cases hothers
      exact hno token htoken
  next hno =>
    refine sendError_handled rfl (hill ?_)
    rintro token ⟨-, members, hp, -⟩
    exact hno members hp

theorem handleInput_handled (h : IsEvent message "session.input") :
    (c.handleInput (message.find "p") (frameSeq message)).Ensures (Handled c (some message)) := by
  have hill : (∀ input, ¬ PlayFrame c.user.userId message input) → IllFormed c.user.userId (some message) := by
    intro hplay
    exact illFormed_of_event h (by simp) (by simp) (fun _ => hplay)
  unfold handleInput
  split
  next members hp =>
    rw [handleSessionInput]
    split
    next e herror =>
      refine sendError_handled rfl (hill ?_)
      rintro input ⟨-, others, hothers, hinput⟩
      rw [hp] at hothers
      cases hothers
      rw [herror] at hinput
      cases hinput
    next input hinput =>
      have hframe : PlayFrame c.user.userId message input := ⟨h, members, hp, hinput⟩
      apply Ensures.call
      intro result
      cases result with
      | error e => exact Ensures.call fun _ => Ensures.pure ⟨⟨c, rfl⟩, .rejected rfl hframe⟩
      | ok _ => exact Ensures.pure ⟨⟨c, rfl⟩, .accepted rfl hframe⟩
  next hno =>
    refine sendError_handled rfl (hill ?_)
    rintro input ⟨-, members, hp, -⟩
    exact hno members hp

theorem handleEvent_handled {event : String} (h : IsEvent message event) :
    (c.handleEvent event (message.find "p") (frameSeq message)).Ensures (Handled c (some message)) := by
  rw [handleEvent]
  split
  next hevent => exact handleEcho_handled (hevent ▸ h)
  next hecho =>
    split
    next hresync => exact handleResync_handled (hresync ▸ h)
    next hresync =>
      split
      next hinput => exact handleInput_handled (hinput ▸ h)
      next hinput =>
        exact sendError_handled rfl (illFormed_of_event h (fun he => absurd he hecho) (fun he => absurd he hresync)
          (fun he => absurd he hinput))

theorem handleMessage_handled : (c.handleMessage message).Ensures (Handled c (some message)) := by
  unfold handleMessage
  split
  next type ht =>
    split
    next event hevent =>
      split
      next htype => exact handleEvent_handled ⟨htype ▸ ht, hevent⟩
      next htype =>
        refine sendError_handled rfl (illFormed_of_no_event fun event he => htype ?_)
        simpa using ht.symm.trans he.1
    next hno => exact sendError_handled rfl (illFormed_of_no_event fun event he => hno event he.2)
  next hno => exact sendError_handled rfl (illFormed_of_no_event fun event he => hno "event" he.1)

end Message

theorem onRead_handled (parse : Bytes → Option Json) (c : ResumeConnection) (data : Bytes) :
    (c.onRead parse data).Ensures (Handled c (parse data)) := by
  apply Ensures.tryCatch
  cases hparse : parse data with
  | none => exact Ensures.throw (sendError_handled rfl (illFormed_none _))
  | some message =>
      refine handleMessage_handled.mono ?_
      rintro calls out ⟨⟨next, rfl⟩, hrun⟩
      exact ⟨⟨next, rfl⟩, hrun⟩

end ResumeConnection

def AskedSeq (frame : Option Json) (seq : UInt64) : Prop :=
  (∃ members, frame = some (.object members) ∧ (Json.object members).find "seq" = some (.numberUnsigned seq)) ∨
    (seq = 0 ∧ ∀ members n, frame = some (.object members) →
      (Json.object members).find "seq" ≠ some (.numberUnsigned n))

theorem askedSeq_replySeq (frame : Option Json) : AskedSeq frame (ResumeConnection.replySeq frame) := by
  cases frame with
  | none => exact Or.inr ⟨rfl, by rintro _ _ ⟨⟩⟩
  | some message =>
      change AskedSeq (some message) (frameSeq message)
      rw [frameSeq]
      split
      next hnone =>
        refine Or.inr ⟨rfl, ?_⟩
        rintro members n ⟨⟩
        rw [hnone]
        simp
      next seq hseq =>
        cases seq with
        | numberUnsigned n =>
            cases message with
            | object members =>
                refine Or.inl ⟨members, rfl, ?_⟩
                rw [hseq]
                simp [Json.isNumberUnsigned, Json.getUInt64]
            | _ => cases hseq
        | _ =>
            refine Or.inr ⟨rfl, ?_⟩
            rintro members n ⟨⟩
            rw [hseq]
            simp

structure World where
  server : Server
  tokens : ReconnectService

/-- What a call does to the world when it gives its answer. In between the
world can change in any way. -/
inductive Serves {D : Type} (cfg : Config D) : Sigma SocketCall.Answer → World → World → Prop
  | systemClock (now : Int) (w : World) : Serves cfg ⟨.systemClock, now⟩ w w
  | validate (token : String) (user : AuthUser) (w : World) :
      Serves cfg ⟨.validate token user, w.tokens.validate token user⟩ w w
  | issueToken (user : AuthUser) (version : Int) (snapshot : AuthSnapshot) (previous : Option String) (token : String)
      (now : Int) (w : World) : Serves cfg ⟨.issueToken user version snapshot previous, token⟩ w
        { w with tokens := w.tokens.issueToken user version snapshot previous token now }
  | submitInput {s t t' : Server} {input : SessionInput} {result : Except Error Unit} (w : World)
      (h : Submits cfg s input t t' result) :
      Serves cfg ⟨.submitInput input, result⟩ { w with server := t } { w with server := t' }
  | enqueueMessage (message : Json) (w : World) : Serves cfg ⟨.enqueueMessage message, ()⟩ w w

def Harmless {D : Type} (cfg : Config D) (call : Sigma SocketCall.Answer) : Prop :=
  ∀ w w', Serves cfg call w w' → w'.tokens = w.tokens ∧ w'.server.contexts = w.server.contexts

section Harmless

variable {D : Type} (cfg : Config D)

theorem harmless_enqueue (message : Json) : Harmless cfg ⟨.enqueueMessage message, ()⟩ := by
  rintro w w' ⟨⟩
  exact ⟨rfl, rfl⟩

theorem harmless_validate (token : String) (user : AuthUser) (answer : Option ResumeSnapshot) :
    Harmless cfg ⟨.validate token user, answer⟩ := by
  rintro w w' ⟨⟩
  exact ⟨rfl, rfl⟩

theorem harmless_rejected (input : SessionInput) (e : Error) : Harmless cfg ⟨.submitInput input, .error e⟩ := by
  intro w w' h
  cases h with
  | submitInput w h => exact ⟨rfl, submits_rejected h⟩

end Harmless

def replyOf : SocketCall → Option Json
  | .enqueueMessage message => some message
  | _ => none

def InputAccepted (userId : Int) (frame : Option Json) (calls : List (Sigma SocketCall.Answer)) : Prop :=
  ∃ message input, frame = some message ∧ PlayFrame userId message input ∧ ⟨.submitInput input, .ok ()⟩ ∈ calls

def RepliesEcho (c : ResumeConnection) (frame : Option Json) (reply : Json) : Prop :=
  ∃ message members seq, frame = some message ∧ EchoFrame message members ∧
    reply = toWsJson (.echo c.user.userId (.object members) seq)

/-- The token of the reply is the one that IssueToken has made for the
snapshot. -/
def RepliesResync (c : ResumeConnection) (frame : Option Json) (calls : List (Sigma SocketCall.Answer))
    (reply : Json) : Prop :=
  ∃ message token record newToken snapshot seq, frame = some message ∧ ResyncFrame message token ∧
    ⟨.validate token c.user, some record⟩ ∈ calls ∧
    ⟨.issueToken c.user c.snapshotVersion snapshot (some token), newToken⟩ ∈ calls ∧
    reply = toWsJson (.resyncState newToken snapshot seq)

/-- An error, which no well-formed echo gets and no valid token. A token gets it
from Validate and an input from SubmitInput. -/
structure RepliesError (c : ResumeConnection) (frame : Option Json) (calls : List (Sigma SocketCall.Answer))
    (reply : Json) : Prop where
  type : reply.find "t" = some (.string "error")
  event : reply.find "event" = some .null
  echo : ∀ message members, frame = some message → ¬ EchoFrame message members
  resync : ∀ message token, frame = some message → ResyncFrame message token →
    ⟨.validate token c.user, none⟩ ∈ calls ∧ ∀ token record, ⟨.validate token c.user, some record⟩ ∉ calls
  play : ∀ message input, frame = some message → PlayFrame c.user.userId message input →
    ∃ e seq, ⟨.submitInput input, .error e⟩ ∈ calls ∧ reply = toWsJson (.error e.code e.message seq)

/-- The rules for the answer to a frame. -/
structure FrameRule {D : Type} (cfg : Config D) (c : ResumeConnection) (frame : Option Json)
    (calls : List (Sigma SocketCall.Answer)) : Prop where
  once : (InputAccepted c.user.userId frame calls ∧ emitted replyOf calls = []) ∨
    (¬ InputAccepted c.user.userId frame calls ∧ ∃ reply, emitted replyOf calls = [reply])
  seq : ∀ reply ∈ emitted replyOf calls, ∃ seq, AskedSeq frame seq ∧ reply.find "seq" = some (.numberUnsigned seq)
  kind : ∀ reply ∈ emitted replyOf calls,
    RepliesEcho c frame reply ∨ RepliesResync c frame calls reply ∨ RepliesError c frame calls reply
  unchanged : ∀ reply ∈ emitted replyOf calls, reply.find "t" = some (.string "error") →
    ∀ call ∈ calls, Harmless cfg call

section Rule

variable {D : Type} {cfg : Config D} {c : ResumeConnection} {frame : Option Json}

theorem rule_of_reply (front : List (Sigma SocketCall.Answer)) {env : WsEnvelope}
    (hfront : emitted replyOf front = []) (hinput : ∀ input, ⟨.submitInput input, .ok ()⟩ ∉ front)
    (hseq : env.seq = ResumeConnection.replySeq frame)
    (hkind : RepliesEcho c frame (toWsJson env) ∨
      RepliesResync c frame (front ++ [⟨.enqueueMessage (toWsJson env), ()⟩]) (toWsJson env) ∨
      RepliesError c frame (front ++ [⟨.enqueueMessage (toWsJson env), ()⟩]) (toWsJson env))
    (hharmless : env.type = "error" → ∀ call ∈ front, Harmless cfg call) :
    FrameRule cfg c frame (front ++ [⟨.enqueueMessage (toWsJson env), ()⟩]) := by
  have hsent : emitted replyOf (front ++ [⟨.enqueueMessage (toWsJson env), ()⟩]) = [toWsJson env] := by
    rw [emitted_append, hfront]
    rfl
  constructor
  · refine Or.inr ⟨?_, _, hsent⟩
    rintro ⟨message, input, -, -, hmem⟩
    rcases List.mem_append.mp hmem with hmem | hmem
    · exact hinput input hmem
    · cases List.mem_singleton.mp hmem
  · intro reply hreply
    rw [hsent, List.mem_singleton] at hreply
    refine ⟨_, askedSeq_replySeq frame, ?_⟩
    rw [hreply, find_toWsJson, hseq]
    rfl
  · intro reply hreply
    rw [hsent, List.mem_singleton] at hreply
    exact hreply ▸ hkind
  · intro reply hreply herror call hcall
    rw [hsent, List.mem_singleton] at hreply
    rw [hreply, find_toWsJson] at herror
    have htype : env.type = "error" := by simpa using herror
    rcases List.mem_append.mp hcall with hcall | hcall
    · exact hharmless htype call hcall
    · rw [List.mem_singleton.mp hcall]
      exact harmless_enqueue cfg _

theorem error_type (code text : String) (seq : UInt64) :
    (toWsJson (.error code text seq)).find "t" = some (.string "error") := by
  rw [find_toWsJson]
  rfl

theorem error_event (code text : String) (seq : UInt64) :
    (toWsJson (.error code text seq)).find "event" = some .null := by
  rw [find_toWsJson]
  rfl

theorem repliesError_of_illFormed (hno : IllFormed c.user.userId frame) (calls : List (Sigma SocketCall.Answer))
    (code text : String) (seq : UInt64) : RepliesError c frame calls (toWsJson (.error code text seq)) where
  type := error_type code text seq
  event := error_event code text seq
  echo := hno.echo
  resync message token hf hr := absurd hr (hno.resync message token hf)
  play message input hf hp := absurd hp (hno.play message input hf)

theorem ResyncFrame.token_unique {message : Json} {token other : String} (h : ResyncFrame message token)
    (h' : ResyncFrame message other) : token = other := by
  obtain ⟨-, members, hp, htoken⟩ := h
  obtain ⟨-, others, hothers, hother⟩ := h'
  rw [hp] at hothers
  cases hothers
  rw [htoken] at hother
  cases hother
  rfl

theorem PlayFrame.input_unique {userId : Int} {message : Json} {input other : SessionInput}
    (h : PlayFrame userId message input) (h' : PlayFrame userId message other) : input = other := by
  obtain ⟨-, members, hp, hinput⟩ := h
  obtain ⟨-, others, hothers, hother⟩ := h'
  rw [hp] at hothers
  cases hothers
  rw [hinput] at hother
  cases hother
  rfl

theorem repliesError_of_stale {message : Json} {token code text : String} {seq : UInt64}
    {reply : Sigma SocketCall.Answer} (hr : ResyncFrame message token)
    (hreply : reply = ⟨.enqueueMessage (toWsJson (.error code text seq)), ()⟩) :
    RepliesError c (some message) [⟨.validate token c.user, none⟩, reply] (toWsJson (.error code text seq)) where
  type := error_type code text seq
  event := error_event code text seq
  echo := by
    rintro _ members ⟨⟩ he
    exact absurd (hr.1.unique he.1) (by decide)
  resync := by
    rintro _ other ⟨⟩ hother
    rw [hr.token_unique hother]
    exact ⟨List.mem_cons_self, by simp [hreply]⟩
  play := by
    rintro _ input ⟨⟩ hp
    exact absurd (hr.1.unique hp.1) (by decide)

theorem repliesError_of_rejected {message : Json} {input : SessionInput} {e : Error} {seq : UInt64}
    {calls : List (Sigma SocketCall.Answer)} (hp : PlayFrame c.user.userId message input)
    (hcalls : ⟨.submitInput input, .error e⟩ ∈ calls) :
    RepliesError c (some message) calls (toWsJson (.error e.code e.message seq)) where
  type := error_type _ _ _
  event := error_event _ _ _
  echo := by
    rintro _ members ⟨⟩ he
    exact absurd (hp.1.unique he.1) (by decide)
  resync := by
    rintro _ token ⟨⟩ hr
    exact absurd (hp.1.unique hr.1) (by decide)
  play := by
    rintro _ other ⟨⟩ hother
    rw [← hp.input_unique hother]
    exact ⟨e, seq, hcalls, rfl⟩

theorem rule_of_accepted {message : Json} {input : SessionInput} (hf : frame = some message)
    (hp : PlayFrame c.user.userId message input) : FrameRule cfg c frame [⟨.submitInput input, .ok ()⟩] := by
  have hsent : emitted replyOf [(⟨.submitInput input, .ok ()⟩ : Sigma SocketCall.Answer)] = [] := rfl
  refine ⟨Or.inl ⟨⟨message, input, hf, hp, List.mem_singleton_self _⟩, hsent⟩, ?_, ?_, ?_⟩
  all_goals
    intro reply hreply
    rw [hsent] at hreply
    cases hreply

theorem rule_of_run {calls : List (Sigma SocketCall.Answer)} (h : ResumeConnection.FrameRun c frame calls) :
    FrameRule cfg c frame calls := by
  cases h with
  | @echo message members hf he =>
      exact rule_of_reply [] rfl (by simp) rfl (Or.inl ⟨message, members, _, hf, he, rfl⟩) (by simp)
  | @resync message token newToken record now hf hr =>
      refine rule_of_reply [_, _, _] rfl (by simp) rfl ?_ (by simp [WsEnvelope.resyncState])
      exact Or.inr (Or.inl ⟨message, token, record, newToken, _, _, hf, hr, by simp, by simp, rfl⟩)
  | @stale message token code text hf hr =>
      subst hf
      refine rule_of_reply [_] rfl (by simp) rfl (Or.inr (Or.inr (repliesError_of_stale hr rfl))) ?_
      intro _ call hcall
      rw [List.mem_singleton.mp hcall]
      exact harmless_validate cfg _ _ _
  | accepted hf hp => exact rule_of_accepted hf hp
  | @rejected message input e hf hp =>
      subst hf
      refine rule_of_reply [_] rfl (by simp) rfl (Or.inr (Or.inr (repliesError_of_rejected hp (by simp)))) ?_
      intro _ call hcall
      rw [List.mem_singleton.mp hcall]
      exact harmless_rejected cfg _ _
  | refused code text hno =>
      exact rule_of_reply [] rfl (by simp) rfl (Or.inr (Or.inr (repliesError_of_illFormed hno _ _ _ _))) (by simp)

end Rule

end GameServer
