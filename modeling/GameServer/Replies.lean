import GameServer.Identity

namespace GameServer

theorem validUtf8_append {a b : Bytes} (ha : validUtf8 a) (hb : validUtf8 b) : validUtf8 (a ++ b) := by
  have hsplit : (⟨(a ++ b).toArray⟩ : ByteArray) = ⟨a.toArray⟩ ++ ⟨b.toArray⟩ := by
    apply ByteArray.ext
    simp [ByteArray.data_append]
  rw [validUtf8, hsplit]
  exact ByteArray.IsValidUTF8.append ha hb

theorem validUtf8_bytesToHex (data : Bytes) : validUtf8 (bytesToHex data) := by
  have hdigit : ∀ n : Fin 16, validUtf8 [hexDigit n.val] := by decide
  induction data with
  | nil => decide
  | cons b data ih =>
      have hbytes : bytesToHex (b :: data) =
          [hexDigit (b.toNat / 16)] ++ ([hexDigit (b.toNat % 16)] ++ bytesToHex data) := rfl
      have hlt : b.toNat < 256 := b.toNat_lt
      rw [hbytes]
      apply validUtf8_append
      · exact hdigit ⟨b.toNat / 16, by omega⟩
      · exact validUtf8_append (hdigit ⟨b.toNat % 16, by omega⟩) ih

def errorCodes : List (Nat × String) :=
  [(400, "bad_request"), (400, "leaderboard_range"), (401, "unauthorized"), (404, "not_found"),
    (404, "queue_not_found"), (409, "duplicate_user"), (409, "queue_duplicate"), (429, "rate_limited")]

/-- The errors the services give, and a token that is text. -/
def Expected : Sigma HttpCall.Answer → Prop
  | ⟨.registerUser .., .error e⟩ => e.code = "bad_request" ∨ e.code = "duplicate_user"
  | ⟨.login .., .error e⟩ => e.code = "rate_limited" ∨ e.code = "unauthorized"
  | ⟨.login .., .ok session⟩ => validUtf8 session.token
  | ⟨.join .., .error e⟩ => e.code = "queue_duplicate"
  | ⟨.cancel .., .error e⟩ => e.code = "queue_not_found"
  | _ => True

theorem Contract.errorCodes {parse : Bytes → Option Json} {config : AppConfig} {req : Request}
    {calls : List (Sigma HttpCall.Answer)} {status : Nat} {e : Error}
    (h : Contract parse config req calls status (.error e)) (hcalls : ∀ call ∈ calls, Expected call) :
    (status, e.code) ∈ errorCodes := by
  cases h with
  | registerRefused hat hnames hcall =>
      rcases hcalls _ hcall with hcode | hcode <;> simp [GameServer.errorCodes, hcode]
  | loginRefused hat hnames hip hcall =>
      rcases hcalls _ hcall with hcode | hcode <;> simp [GameServer.errorCodes, hcode]
  | joinRefused hat hvalid hasks hcall =>
      have hcode : e.code = "queue_duplicate" := hcalls _ hcall
      simp [GameServer.errorCodes, hcode]
  | cancelRefused hat hvalid hcall =>
      have hcode : e.code = "queue_not_found" := hcalls _ hcall
      simp [GameServer.errorCodes, hcode]
  | opsDenied | leaderboardRange | badBody | badToken | joinBody | unauthorized | upgradeDenied | notFound =>
      simp [GameServer.errorCodes]

namespace AuthService

variable {kdf : Pbkdf2}

theorem expected_registerUser (s : AuthService) (username password : String) (salt : Vector UInt8 16) :
    Expected ⟨.registerUser username password, (registerUser kdf s username password salt).2⟩ := by
  rw [registerUser]
  split
  · exact Or.inl rfl
  · split
    · exact Or.inr rfl
    · trivial

theorem expected_login (s : AuthService) (username password ip : String) (random : Vector UInt8 32) (now : Int) :
    Expected ⟨.login username password ip, (login kdf s username password ip random now).2⟩ := by
  have hauth : ∀ t e, authenticate kdf s username password ip now = (t, .error e) →
      e.code = "rate_limited" ∨ e.code = "unauthorized" := by
    intro t e h
    simp only [authenticate] at h
    split at h
    · cases h
      exact Or.inl rfl
    · split at h
      · cases h
        exact Or.inr rfl
      · split at h
        · cases h
        · cases h
          exact Or.inr rfl
  rw [login]
  split
  next t e heq => exact hauth t e heq
  next => exact validUtf8_bytesToHex _

end AuthService

namespace Service

variable {D : Type} {kdf : Pbkdf2} {config : AuthConfig} {parse : Bytes → Option Json} {cfg : Config D} {s t : Service}

theorem Answers.expected {answer : (op : HttpCall) → op.Answer} (ha : s.Answers answer) (g : Gateway) (draw : Draw)
    (op : HttpCall) : Expected ⟨op, g.http.answered (g.answered kdf draw answer) op⟩ := by
  cases op with
  | registerUser username password => exact AuthService.expected_registerUser _ _ _ _
  | login username password ip => exact AuthService.expected_login _ _ _ _ _ _
  | join user timeout =>
      have hjoin : Expected ⟨.join user timeout, answer (.join user timeout)⟩ := by
        rcases ha with ⟨other, rfl⟩ | rfl
        · rw [answered, Server.joinCheck]
          split
          · rfl
          · trivial
        · trivial
      exact hjoin
  | cancel userId =>
      have hcancel : Expected ⟨.cancel userId, answer (.cancel userId)⟩ := by
        rcases ha with ⟨other, rfl⟩ | rfl <;> simp only [joinAnswer, answered] <;> split
        · rfl
        · trivial
        · rfl
        · trivial
      exact hcancel
  | _ => trivial

theorem expected_reachable (hr : (machine kdf config parse cfg).Reachable s) :
    ∀ task ∈ s.gateway.http.tasks, ∀ call ∈ task.calls, Expected call := by
  refine hr.induction (P := fun s : Service => ∀ task ∈ s.gateway.http.tasks, ∀ call ∈ task.calls, Expected call)
    (by simp [machine, Gateway.machine]) ?_
  rintro s a t - h ht task htask call hcall
  rcases calls_of_step ht htask hcall with ⟨other, hother, hold⟩ | ⟨op, draw, answer, hanswer, rfl⟩
  · exact h other hother call hold
  · exact hanswer.expected s.gateway draw op

def takenPlay : List Action :=
  .arrive (twoRequest "/api/auth/register" [1] none false) :: turns 0 5 0 ++
    .arrive (twoRequest "/api/auth/register" [1] none false) :: turns 1 9 0

end Service

end GameServer
