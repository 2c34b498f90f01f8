import GameServer.Clock
import GameServer.Hex
import GameServer.Machine
import GameServer.MatchQueue
import GameServer.RateLimiter
import GameServer.Session

namespace GameServer

/-- Times are in nanoseconds, spans of time in seconds. -/
structure AuthConfig where
  tokenTtl : Int := 3600
  loginWindow : Int := 60
  loginMaxAttempts : Nat := 5
deriving DecidableEq, Repr

structure AuthSession where
  token : Bytes
  user : AuthUser
  expiresAt : Int
deriving DecidableEq, Repr

structure UserRecord where
  id : Int
  username : String
  saltHex : Bytes
  hashHex : Bytes
deriving DecidableEq, Repr

/-- PKCS5_PBKDF2_HMAC with its fixed digest and number of iterations. -/
abbrev Pbkdf2 := String → Bytes → Vector UInt8 32

structure AuthService where
  config : AuthConfig
  rateLimiter : RateLimiter := ⟨config.loginMaxAttempts, config.loginWindow, ∅⟩
  nextUserId : Int := 1
  users : Table String UserRecord := ∅
  sessions : Table Bytes AuthSession := ∅

namespace AuthService

variable (kdf : Pbkdf2)

def hashPassword (password : String) (saltHex : Bytes) : Bytes :=
  match hexToBytes saltHex with
  | none => []
  | some salt => bytesToHex (kdf password salt).toList

def verifyPassword (password : String) (user : UserRecord) : Bool :=
  let computed := hashPassword kdf password user.saltHex
  if computed.length ≠ user.hashHex.length then false else computed = user.hashHex

/-- The salt is what RAND_bytes has returned. -/
def registerUser (s : AuthService) (username password : String) (salt : Vector UInt8 16) :
    AuthService × Except Error AuthUser :=
  if username = "" ∨ password = "" then (s, .error ⟨"bad_request", "username과 password가 필요합니다"⟩)
  else if username ∈ s.users then (s, .error ⟨"duplicate_user", "이미 존재하는 사용자명입니다"⟩)
  else
    let saltHex := bytesToHex salt.toList
    let record : UserRecord := ⟨s.nextUserId, username, saltHex, hashPassword kdf password saltHex⟩
    ({ s with nextUserId := s.nextUserId + 1, users := s.users.insert username record },
      .ok ⟨record.id, record.username⟩)

def authenticate (s : AuthService) (username password ip : String) (now : Int) :
    AuthService × Except Error UserRecord :=
  let (rateLimiter, allowed) := s.rateLimiter.allow ip now
  let s := { s with rateLimiter := rateLimiter }
  if allowed = false then (s, .error ⟨"rate_limited", "로그인 시도 제한을 초과했습니다"⟩)
  else
    match s.users.lookup username with
    | none => (s, .error ⟨"unauthorized", "자격 증명이 올바르지 않습니다"⟩)
    | some record =>
      if verifyPassword kdf password record then (s, .ok record)
      else (s, .error ⟨"unauthorized", "자격 증명이 올바르지 않습니다"⟩)

def cleanupExpired (s : AuthService) (now : Int) : AuthService :=
  { s with sessions := s.sessions.filter fun _ session => ¬ now > session.expiresAt }

def newSession (s : AuthService) (record : UserRecord) (random : Vector UInt8 32) (now : Int) : AuthSession where
  token := bytesToHex random.toList
  user := ⟨record.id, record.username⟩
  expiresAt := Clock.addSeconds now s.config.tokenTtl

def openSession (s : AuthService) (session : AuthSession) : AuthService :=
  { s with sessions := s.sessions.insert session.token session }

def login (s : AuthService) (username password ip : String) (random : Vector UInt8 32) (now : Int) :
    AuthService × Except Error AuthSession :=
  match authenticate kdf s username password ip now with
  | (s, .error e) => (s, .error e)
  | (s, .ok record) =>
    let s := s.cleanupExpired now
    let session := s.newSession record random now
    (s.openSession session, .ok session)

def logout (s : AuthService) (token : Bytes) : AuthService × Bool :=
  ({ s with sessions := s.sessions.erase token }, token ∈ s.sessions)

def validateToken (s : AuthService) (token : Bytes) (now : Int) : AuthService × Option AuthSession :=
  match s.sessions.lookup token with
  | none => (s, none)
  | some session =>
    if now > session.expiresAt then ({ s with sessions := s.sessions.erase token }, none)
    else (s, some session)

end AuthService

/-- The four calls, each with the clock it reads and the random bytes it
draws. -/
inductive AuthCall
  | registerUser (username password : String) (salt : Vector UInt8 16)
  | login (username password ip : String) (random : Vector UInt8 32) (now : Int)
  | logout (token : Bytes)
  | validateToken (token : Bytes) (now : Int)
deriving DecidableEq, Repr

inductive AuthAnswer
  | registered (result : Except Error AuthUser)
  | loggedIn (result : Except Error AuthSession)
  | loggedOut (result : Bool)
  | validated (result : Option AuthSession)
deriving DecidableEq

namespace AuthService

variable (kdf : Pbkdf2)

def call (s : AuthService) : AuthCall → AuthService × AuthAnswer
  | .registerUser username password salt => (registerUser kdf s username password salt).map id .registered
  | .login username password ip random now => (login kdf s username password ip random now).map id .loggedIn
  | .logout token => (s.logout token).map id .loggedOut
  | .validateToken token now => (s.validateToken token now).map id .validated

end AuthService

end GameServer
