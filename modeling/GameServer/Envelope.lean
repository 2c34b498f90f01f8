import GameServer.Json

namespace GameServer

namespace Json

/-- Members are kept in the order of their keys. -/
def insertMember (key : String) (value : Json) : List (String × Json) → List (String × Json)
  | [] => [(key, value)]
  | member :: rest =>
    if key < member.1 then (key, value) :: member :: rest
    else if key = member.1 then (key, value) :: rest
    else member :: insertMember key value rest

def set : Json → String → Json → Json
  | .object members, key, value => .object (insertMember key value members)
  | j, _, _ => j

def ofMembers (members : List (String × Json)) : Json :=
  members.foldl (fun j member => j.set member.1 member.2) (object [])

def ofInt (n : Int) : Json := .numberInteger (Int64.ofInt n)

theorem lookup_cons_eq (key k : String) (value : Json) (rest : List (String × Json)) :
    ((key, value) :: rest).lookup k = if k = key then some value else rest.lookup k := by
  by_cases h : k = key
  · simp [h]
  · rw [if_neg h, List.lookup_cons, beq_false_of_ne h]

theorem lookup_insertMember (key k : String) (value : Json) (members : List (String × Json)) :
    (insertMember key value members).lookup k = if k = key then some value else members.lookup k := by
  induction members with
  | nil => exact lookup_cons_eq key k value []
  | cons member rest ih =>
      obtain ⟨j, w⟩ := member
      simp only [insertMember]
      split
      next => rw [lookup_cons_eq]
      next =>
        split
        next hj =>
          cases hj
          rw [lookup_cons_eq, lookup_cons_eq]
          split <;> rfl
        next hj =>
          rw [lookup_cons_eq, lookup_cons_eq, ih]
          by_cases hk : k = j
          · simp [hk, Ne.symm hj]
          · simp [hk]

end Json

structure WsEnvelope where
  type : String
  event : String
  seq : UInt64
  payload : Json

def toWsJson (env : WsEnvelope) : Json :=
  Json.object []
    |>.set "t" (.string env.type)
    |>.set "seq" (.numberUnsigned env.seq)
    |>.set "event" (if env.type = "event" then .string env.event else .null)
    |>.set "p" env.payload

theorem find_toWsJson (env : WsEnvelope) (key : String) :
    (toWsJson env).find key =
      if key = "p" then some env.payload
      else if key = "event" then some (if env.type = "event" then .string env.event else .null)
      else if key = "seq" then some (.numberUnsigned env.seq)
      else if key = "t" then some (.string env.type) else none := by
  simp only [toWsJson, Json.set, Json.find, Json.lookup_insertMember, List.lookup_nil]

namespace WsEnvelope

def errorPayload (code message : String) : Json := .object [("code", .string code), ("message", .string message)]

def error (code message : String) (seq : UInt64) : WsEnvelope := ⟨"error", "", seq, errorPayload code message⟩

def serverEvent (event : String) (payload : Json) : WsEnvelope := ⟨"event", event, 0, payload⟩

def serverError (code message : String) : WsEnvelope := error code message 0

end WsEnvelope

end GameServer
