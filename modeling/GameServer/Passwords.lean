import GameServer.AuthHistory

namespace GameServer

namespace AuthService

def machine (kdf : Pbkdf2) (config : AuthConfig) : Machine AuthService AuthCall where
  init := { config := config }
  step s call := some (s.call kdf call).1

def historyMachine (kdf : Pbkdf2) (config : AuthConfig) : Machine (AuthService × AuthHistory) AuthCall :=
  (machine kdf config).recorded fun s call => [(call, (s.call kdf call).2)]

def newRecord (kdf : Pbkdf2) (id : Int) (username password : String) (salt : Vector UInt8 16) : UserRecord where
  id := id
  username := username
  saltHex := bytesToHex salt.toList
  hashHex := hashPassword kdf password (bytesToHex salt.toList)

variable (kdf : Pbkdf2)

theorem hashPassword_of_salt (password : String) (salt : Vector UInt8 16) :
    hashPassword kdf password (bytesToHex salt.toList) = bytesToHex (kdf password salt.toList).toList := by
  rw [hashPassword, hexToBytes_bytesToHex]

theorem length_hashPassword (password : String) (salt : Vector UInt8 16) :
    (hashPassword kdf password (bytesToHex salt.toList)).length = 64 := by
  rw [hashPassword_of_salt, length_bytesToHex, Vector.length_toList]

theorem hashPassword_ne_nil (password : String) (salt : Vector UInt8 16) :
    hashPassword kdf password (bytesToHex salt.toList) ≠ [] := by
  intro h
  have hlength := length_hashPassword kdf password salt
  rw [h] at hlength
  cases hlength

variable {kdf}

theorem verifyPassword_iff (attempt password : String) (id : Int) (username : String) (salt : Vector UInt8 16) :
    verifyPassword kdf attempt (newRecord kdf id username password salt) = true ↔
      kdf attempt salt.toList = kdf password salt.toList := by
  have hlength : (hashPassword kdf attempt (bytesToHex salt.toList)).length =
      (hashPassword kdf password (bytesToHex salt.toList)).length := by
    rw [length_hashPassword, length_hashPassword]
  have hverify : verifyPassword kdf attempt (newRecord kdf id username password salt) =
      decide (hashPassword kdf attempt (bytesToHex salt.toList) = hashPassword kdf password (bytesToHex salt.toList)) :=
    if_neg (not_not.mpr hlength)
  rw [hverify, decide_eq_true_eq, hashPassword_of_salt, hashPassword_of_salt, bytesToHex_injective.eq_iff,
    Vector.toList_inj]

/-- The record is one of the password and the salt: the salt can be read, no
hash is empty, and an attempt is accepted exactly when it derives the same key. -/
structure ChecksPassword (kdf : Pbkdf2) (record : UserRecord) (password : String) (salt : Vector UInt8 16) : Prop where
  decodes : hexToBytes record.saltHex = some salt.toList
  stored : record.hashHex ≠ []
  computed : ∀ attempt, hashPassword kdf attempt record.saltHex ≠ []
  verifies : ∀ attempt, verifyPassword kdf attempt record = true ↔ kdf attempt salt.toList = kdf password salt.toList

theorem newRecord_checks (id : Int) (username password : String) (salt : Vector UInt8 16) :
    ChecksPassword kdf (newRecord kdf id username password salt) password salt where
  decodes := hexToBytes_bytesToHex salt.toList
  stored := hashPassword_ne_nil kdf password salt
  computed attempt := hashPassword_ne_nil kdf attempt salt
  verifies attempt := verifyPassword_iff attempt password id username salt

theorem registerUser_cases (kdf : Pbkdf2) (s : AuthService) (username password : String) (salt : Vector UInt8 16) :
    (∃ e, registerUser kdf s username password salt = (s, .error e)) ∨
      (username ∉ s.users ∧ ∃ id next, registerUser kdf s username password salt =
        ({ s with nextUserId := next, users := s.users.insert username (newRecord kdf id username password salt) },
          .ok ⟨id, username⟩)) := by
  rw [registerUser]
  split
  next => exact Or.inl ⟨_, rfl⟩
  next =>
    split
    next => exact Or.inl ⟨_, rfl⟩
    next hnew => exact Or.inr ⟨hnew, _, _, rfl⟩

theorem users_of_call (s : AuthService) {call : AuthCall}
    (h : ∀ username password salt, call ≠ .registerUser username password salt) :
    (s.call kdf call).1.users = s.users := by
  have he := effect_of_call kdf s call
  generalize s.call kdf call = result at he ⊢
  cases he with
  | refuseUser | addUser => exact absurd rfl (h _ _ _)
  | refuseLogin | acceptLogin | logout | unknown | expired | valid => rfl

structure Recorded (kdf : Pbkdf2) (users : Table String UserRecord) (h : AuthHistory) : Prop where
  known : ∀ username record, users.lookup username = some record → ∃ password salt,
    (.registerUser username password salt, .registered (.ok ⟨record.id, username⟩)) ∈ h ∧
      record = newRecord kdf record.id username password salt
  stored : ∀ username password salt user, (.registerUser username password salt, .registered (.ok user)) ∈ h →
    users.lookup username = some (newRecord kdf user.userId username password salt)

namespace Recorded

variable {users : Table String UserRecord} {h : AuthHistory}

theorem other (hr : Recorded kdf users h) {call : AuthCall} {answer : AuthAnswer}
    (hno : ∀ username password salt user,
      (call, answer) ≠ (.registerUser username password salt, .registered (.ok user))) :
    Recorded kdf users (h ++ [(call, answer)]) := by
  constructor
  · intro username record hl
    obtain ⟨password, salt, hmem, heq⟩ := hr.known username record hl
    exact ⟨password, salt, List.mem_append_left _ hmem, heq⟩
  · intro username password salt user hmem
    rcases List.mem_append.mp hmem with hmem | hmem
    · exact hr.stored username password salt user hmem
    · exact absurd (List.mem_singleton.mp hmem).symm (hno username password salt user)

theorem add (hr : Recorded kdf users h) {username : String} (hnew : username ∉ users) (id : Int) (password : String)
    (salt : Vector UInt8 16) : Recorded kdf (users.insert username (newRecord kdf id username password salt))
      (h ++ [(.registerUser username password salt, .registered (.ok ⟨id, username⟩))]) := by
  constructor
  · intro u record hl
    rw [Table.lookup_insert_eq] at hl
    split at hl
    next hu =>
      cases hl
      subst hu
      exact ⟨password, salt, by simp [newRecord], rfl⟩
    next =>
      obtain ⟨p, z, hmem, heq⟩ := hr.known u record hl
      exact ⟨p, z, List.mem_append_left _ hmem, heq⟩
  · intro u p z user hmem
    rw [Table.lookup_insert_eq]
    rcases List.mem_append.mp hmem with hmem | hmem
    · have hold := hr.stored u p z user hmem
      have hu : u ≠ username := by
        rintro rfl
        rw [AList.lookup_eq_none.mpr hnew] at hold
        cases hold
      rw [if_neg hu]
      exact hold
    · cases List.mem_singleton.mp hmem
      exact if_pos rfl

end Recorded

theorem recorded_call {s : AuthService} {h : AuthHistory} (hr : Recorded kdf s.users h) (call : AuthCall) :
    Recorded kdf (s.call kdf call).1.users (h ++ [(call, (s.call kdf call).2)]) := by
  cases call with
  | registerUser username password salt =>
      rcases registerUser_cases kdf s username password salt with ⟨e, heq⟩ | ⟨hnew, id, next, heq⟩
      · simp only [AuthService.call, heq, Prod.map, id_eq]
        exact hr.other (by simp)
      · simp only [AuthService.call, heq, Prod.map, id_eq]
        exact hr.add hnew id password salt
  | login | logout | validateToken =>
      rw [users_of_call s (by simp)]
      exact hr.other (by simp)

/-- Bytes are read back from their hexadecimal digits. So in every run each
registration has stored a record of its password, and there are no others. -/
theorem passwords_checked (kdf : Pbkdf2) (config : AuthConfig) :
    (∀ data, hexToBytes (bytesToHex data) = some data) ∧
      ∀ s h, (historyMachine kdf config).Reachable (s, h) →
        (∀ username password salt user, (.registerUser username password salt, .registered (.ok user)) ∈ h →
          ∃ record, s.users.lookup username = some record ∧ ChecksPassword kdf record password salt) ∧
        ∀ username record, s.users.lookup username = some record → ∃ password salt user,
          (.registerUser username password salt, .registered (.ok user)) ∈ h ∧
            ChecksPassword kdf record password salt := by
  refine ⟨hexToBytes_bytesToHex, ?_⟩
  intro s h hs
  have hr : Recorded kdf s.users h := by
    refine Machine.Reachable.recorded_induction (P := fun s h => Recorded kdf s.users h) ?_ ?_ hs
    · exact ⟨by simp [machine], by simp⟩
    · intro s h call t hr ht
      cases ht
      exact recorded_call hr call
  constructor
  · intro username password salt user hmem
    exact ⟨_, hr.stored username password salt user hmem, newRecord_checks _ _ _ _⟩
  · intro username record hl
    obtain ⟨password, salt, hmem, heq⟩ := hr.known username record hl
    exact ⟨password, salt, _, hmem, heq ▸ newRecord_checks _ _ _ _⟩

def lengthKdf : Pbkdf2 := fun password _ => Vector.replicate 32 (UInt8.ofNat password.utf8ByteSize)

theorem passwords_checked_kim : ∃ s h, (historyMachine lengthKdf {}).Reachable (s, h) ∧
    ∃ record, s.users.lookup "kim" = some record ∧ record.hashHex ≠ [] ∧
      verifyPassword lengthKdf "pw" record = true ∧ ¬ verifyPassword lengthKdf "secret" record = true := by
  obtain ⟨⟨s, h⟩, -, hr, hmem⟩ := Machine.exists_of_run (M := historyMachine lengthKdf {})
    [.registerUser "kim" "pw" (Vector.replicate 16 1)]
    (fun r => (.registerUser "kim" "pw" (Vector.replicate 16 1), .registered (.ok ⟨1, "kim"⟩)) ∈ r.2) (by decide)
  obtain ⟨record, hl, hchecks⟩ := ((passwords_checked lengthKdf {}).2 s h hr).1 _ _ _ _ hmem
  refine ⟨s, h, hr, record, hl, hchecks.stored, (hchecks.verifies "pw").mpr rfl, ?_⟩
  rw [hchecks.verifies]
  decide

end AuthService

end GameServer
